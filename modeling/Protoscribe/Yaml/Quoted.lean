import Protoscribe.Yaml.Gap
import Protoscribe.Yaml.Glyph

/-!
Quoted scalars. In single quotes only the quote itself is written twice; in
double quotes a backslash starts an escape, and in front of a break it joins two
lines. A quoted scalar may go over lines but not over a document marker.
-/

namespace Protoscribe.Yaml

def hexDigit? (c : Char) : Option Nat :=
  if '0' ≤ c && c ≤ '9' then some (c.toNat - '0'.toNat)
  else if 'a' ≤ c && c ≤ 'f' then some (c.toNat - 'a'.toNat + 10)
  else if 'A' ≤ c && c ≤ 'F' then some (c.toNat - 'A'.toNat + 10)
  else none

def readSingle (gap : Gap) : List Glyph → Option (List Char × List Glyph)
  | [] => none
  | g :: rest =>
      if isBlank g.char then readSingle (gap.addBlank g.char) rest
      else if isBreak g.char then readSingle (gap.addBreak g.char) rest
      else if atMarker (g :: rest) then none
      else if g.char = '\x27' then
        match rest with
        | [] => some (gap.chars, [])
        | h :: more =>
            if h.char = '\x27' then do
              let (text, left) ← readSingle .none more
              return (gap.chars ++ h.char :: text, left)
            else some (gap.chars, h :: more)
      else do
        let (text, left) ← readSingle .none rest
        return (gap.chars ++ g.char :: text, left)

inductive DoubleState where
  | within (gap : Gap)
  | escape
  /-- The digits of a code that are still due, and its value so far. -/
  | code (due value : Nat)
  deriving DecidableEq, Repr

namespace DoubleState

def start : DoubleState := .within .none

/-- The character that a letter behind a backslash names. -/
def named? : Char → Option Char
  | '0' => some '\x00'
  | 'a' => some '\x07'
  | 'b' => some '\x08'
  | 't' => some '\t'
  | '\t' => some '\t'
  | 'n' => some '\n'
  | 'v' => some '\x0b'
  | 'f' => some '\x0c'
  | 'r' => some '\r'
  | 'e' => some '\x1b'
  | ' ' => some ' '
  | '"' => some '"'
  | '/' => some '/'
  | '\\' => some '\\'
  | 'N' => some '\x85'
  | '_' => some '\xa0'
  | 'L' => some '\u2028'
  | 'P' => some '\u2029'
  | _ => none

def codeLength? : Char → Option Nat
  | 'x' => some 2
  | 'u' => some 4
  | 'U' => some 8
  | _ => none

/-- A code names a character, halves of surrogate pairs excluded. -/
def ofCode? (value : Nat) : Option Char :=
  if value.isValidChar then some (Char.ofNat value) else none

/-- The text that a character adds, and what comes next. -/
def step (c : Char) : DoubleState → Option (List Char × DoubleState)
  | .within gap =>
      if isBlank c then some ([], .within (gap.addBlank c))
      else if isBreak c then some ([], .within (gap.addBreak c))
      else if c = '\\' then some (gap.chars, .escape)
      else some (gap.chars ++ [c], start)
  | .escape =>
      if isBreak c then some ([], .within .escaped)
      else
        match named? c, codeLength? c with
        | some named, _ => some ([named], start)
        | none, some length => some ([], .code length 0)
        | none, none => none
  | .code due value => do
      let value := value * 16 + (← hexDigit? c)
      if due ≤ 1 then return ([← ofCode? value], start)
      else return ([], .code (due - 1) value)

end DoubleState

def readDouble : DoubleState → List Glyph → Option (List Char × List Glyph)
  | _, [] => none
  | .within gap, g :: rest =>
      if atMarker (g :: rest) then none
      else if g.char = '"' then some (gap.chars, rest)
      else do
        let (chars, state) ← (DoubleState.within gap).step g.char
        let (text, left) ← readDouble state rest
        return (chars ++ text, left)
  | state, g :: rest => do
      let (chars, state) ← state.step g.char
      let (text, left) ← readDouble state rest
      return (chars ++ text, left)

end Protoscribe.Yaml
