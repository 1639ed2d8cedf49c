/-!
The characters of a YAML document with their places. Line breaks are unified
first: a carriage return, with or without a line feed after it, and the next
line control stand for a line feed; the two Unicode separators are breaks of
their own and stay what they are.
-/

namespace Protoscribe.Yaml

def isAllowed (c : Char) : Bool :=
  let n := c.toNat
  n == 0x9 || n == 0xA || n == 0xD || (0x20 ≤ n && n ≤ 0x7E) || n == 0x85 ||
    (0xA0 ≤ n && n ≤ 0xD7FF) || (0xE000 ≤ n && n ≤ 0xFFFD) || 0x10000 ≤ n

/-- The breaks that are left after unification. -/
def isBreak (c : Char) : Bool := c = '\n' || c = '\u2028' || c = '\u2029'

def isBlank (c : Char) : Bool := c = ' ' || c = '\t'

def unifyBreaks : List Char → List Char
  | [] => []
  | '\r' :: '\n' :: rest => '\n' :: unifyBreaks rest
  | c :: rest => (if c = '\r' || c = '\x85' then '\n' else c) :: unifyBreaks rest

/-- A character, the count of characters in front of it, and its line and column. -/
structure Glyph where
  char : Char
  index : Nat
  line : Nat
  column : Nat
  deriving DecidableEq, Repr, Inhabited

namespace Glyph

/-- Places characters one after the other; a break ends its line. -/
def placeFrom (index line column : Nat) : List Char → List Glyph
  | [] => []
  | c :: rest =>
      ⟨c, index, line, column⟩ ::
        (if isBreak c then placeFrom (index + 1) (line + 1) 0 rest
        else placeFrom (index + 1) line (column + 1) rest)

/-- A byte order mark in front takes the first column and is passed over. -/
def place : List Char → List Glyph
  | '\uFEFF' :: rest => placeFrom 1 0 1 rest
  | cs => placeFrom 0 0 0 cs

/-- The place right behind a glyph. -/
def behind (g : Glyph) : Glyph :=
  if isBreak g.char then { g with index := g.index + 1, line := g.line + 1, column := 0 }
  else { g with index := g.index + 1, column := g.column + 1 }

/-- The place behind the last glyph. -/
def ending (gs : List Glyph) : Glyph := (gs.getLast?.map behind).getD default

end Glyph

/-- The glyphs of a document, none if it holds a character that is not allowed. -/
def glyphs? (document : String) : Option (List Glyph) :=
  let cs := document.toList
  if cs.all isAllowed then some (Glyph.place (unifyBreaks cs)) else none

def spanChars (accepts : Char → Bool) (gs : List Glyph) : List Char × List Glyph :=
  ((gs.takeWhile (accepts ·.char)).map Glyph.char, gs.dropWhile (accepts ·.char))

def next? (gs : List Glyph) : Option Char := gs.head?.map Glyph.char

/-- A blank, a break or the end stands here. -/
def atSpace (gs : List Glyph) : Bool := (next? gs).all fun c => isBlank c || isBreak c

/-- Three equal characters with a space behind them. -/
def isTriple (c : Char) (gs : List Glyph) : Bool :=
  (gs.take 3).map Glyph.char == [c, c, c] && atSpace (gs.drop 3)

/-- The start of a line marks the start or the end of a document. -/
def atMarker (gs : List Glyph) : Bool :=
  gs.head?.any (·.column == 0) && (isTriple '-' gs || isTriple '.' gs)

/-- Passes over the rest of a line, which may hold blanks and a comment. -/
def finishLine? (gs : List Glyph) : Option (List Glyph) :=
  let gs := gs.dropWhile (isBlank ·.char)
  let gs := if next? gs = some '#' then gs.dropWhile (!isBreak ·.char) else gs
  match gs with
  | [] => some []
  | g :: rest => if isBreak g.char then some rest else none

def isNameChar (c : Char) : Bool :=
  ('a' ≤ c && c ≤ 'z') || ('A' ≤ c && c ≤ 'Z') || ('0' ≤ c && c ≤ '9') || c = '_' || c = '-'

end Protoscribe.Yaml
