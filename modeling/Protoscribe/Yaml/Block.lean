import Protoscribe.Yaml.Glyph

/-!
Block scalars: lines of text at one indentation, which a header in front gives
or the first line shows. Literal ones keep their breaks; folded ones join lines,
except where a line starts with a blank or empty lines stand between.
-/

namespace Protoscribe.Yaml

/-- What becomes of the breaks behind the last line. -/
inductive Chomp where
  | strip
  | clip
  | keep
  deriving DecidableEq, Repr

structure BlockHeader where
  chomp : Chomp := .clip
  /-- The indentation beyond that of the parent. -/
  indent : Option Nat := none
  deriving DecidableEq, Repr

namespace BlockHeader

def takeChomp : List Glyph → Option Chomp × List Glyph
  | [] => (none, [])
  | g :: rest =>
      if g.char = '+' then (some .keep, rest)
      else if g.char = '-' then (some .strip, rest)
      else (none, g :: rest)

/-- The indentation is one digit other than zero. -/
def takeIndent? : List Glyph → Option (Option Nat × List Glyph)
  | [] => some (none, [])
  | g :: rest =>
      if g.char = '0' then none
      else if '1' ≤ g.char && g.char ≤ '9' then
        some (some (g.char.toNat - '0'.toNat), rest)
      else some (none, g :: rest)

/-- The two parts stand in either order, and nothing but a comment follows them
on the line. -/
def read? (gs : List Glyph) : Option (BlockHeader × List Glyph) := do
  let (before, gs) := takeChomp gs
  let (indent, gs) ← takeIndent? gs
  let (behind, gs) := if before.isNone && indent.isSome then takeChomp gs else (none, gs)
  return (⟨(before <|> behind).getD .clip, indent⟩, ← finishLine? gs)

end BlockHeader

/-- The indentation that the first line with text shows: no less than the
margin, and no less than that of any empty line in front of it. -/
def shownIndent? (margin widest : Nat) : List Glyph → Option Nat
  | [] => some (max (max widest margin) 1)
  | g :: rest =>
      if g.char = ' ' then shownIndent? margin widest rest
      else if g.char = '\t' then none
      else if isBreak g.char then shownIndent? margin (max widest g.column) rest
      else some (max (max (max widest g.column) margin) 1)

/-- The breaks behind the line that was read last. -/
structure LineEnd where
  first : Option Char := none
  later : List Char := []
  deriving DecidableEq, Repr

/-- How the breaks between two lines read; `blank` says that one of them starts
with a blank. -/
def LineEnd.join (folded blank : Bool) (e : LineEnd) : List Char :=
  if folded && !blank && e.first = some '\n' then
    if e.later = [] then [' '] else e.later
  else e.first.toList ++ e.later

def LineEnd.chomp (e : LineEnd) : Chomp → List Char
  | .strip => []
  | .clip => e.first.toList
  | .keep => e.first.toList ++ e.later

/-- What a reader of lines is in the middle of; `blank` says that the latest line
starts with a blank. -/
inductive LineState where
  | between (blank : Bool) (e : LineEnd)
  | within (blank : Bool)
  deriving DecidableEq, Repr

/-- The text of the lines, the breaks behind them and what follows. A tab in the
indentation is an error. -/
def readLines (folded : Bool) (indent : Nat) :
    LineState → List Glyph → Option (List Char × LineEnd × List Glyph)
  | .between _ e, [] => some ([], e, [])
  | .within _, [] => some ([], {}, [])
  | .within blank, g :: rest =>
      if isBreak g.char then readLines folded indent (.between blank ⟨some g.char, []⟩) rest
      else do
        let (text, tail) ← readLines folded indent (.within blank) rest
        return (g.char :: text, tail)
  | .between blank e, g :: rest =>
      if g.column < indent && g.char = ' ' then
        readLines folded indent (.between blank e) rest
      else if g.column < indent && g.char = '\t' then none
      else if isBreak g.char then
        readLines folded indent (.between blank { e with later := e.later ++ [g.char] }) rest
      else if g.column = indent then do
        let starts := isBlank g.char
        let (text, tail) ← readLines folded indent (.within starts) rest
        return (e.join folded (blank || starts) ++ g.char :: text, tail)
      else some ([], e, g :: rest)

def readBlock (folded : Bool) (margin : Nat) (gs : List Glyph) :
    Option (List Char × List Glyph) := do
  let (header, gs) ← BlockHeader.read? gs
  let indent ←
    match header.indent with
    | some more => some (margin - 1 + more)
    | none => shownIndent? margin 0 gs
  let (text, tail, left) ← readLines folded indent (.between false {}) gs
  return (text ++ tail.chomp header.chomp, left)

end Protoscribe.Yaml
