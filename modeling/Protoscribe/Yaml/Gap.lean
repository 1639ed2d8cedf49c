/-!
The blanks and breaks inside a scalar. A gap without a break is kept; in one
with breaks the blanks go, a single break reads as a space, and of several the
first one goes.
-/

namespace Protoscribe.Yaml

inductive Gap where
  | blanks (held : List Char)
  /-- The first break, unless it was escaped, and those after it. -/
  | breaks (first : Option Char) (later : List Char)
  deriving DecidableEq, Repr

namespace Gap

def none : Gap := .blanks []

/-- The gap behind an escaped break. -/
def escaped : Gap := .breaks Option.none []

def hasBreak : Gap → Bool
  | .blanks _ => false
  | .breaks .. => true

/-- Blanks behind a break do not count. -/
def addBlank (c : Char) : Gap → Gap
  | .blanks held => .blanks (held ++ [c])
  | gap => gap

def addBreak (c : Char) : Gap → Gap
  | .blanks _ => .breaks (some c) []
  | .breaks first later => .breaks first (later ++ [c])

def chars : Gap → List Char
  | .blanks held => held
  | .breaks (some '\n') [] => [' ']
  | .breaks (some '\n') later => later
  | .breaks first later => first.toList ++ later

end Gap

end Protoscribe.Yaml
