import Protoscribe.Decode.Scan
import Protoscribe.Json.Basic

/-!
Reading JSON text: one value with blanks around it and nothing else. Blanks are
space, tab, line feed and carriage return. Strings hold no raw control
characters, numbers no leading zeros. Of a text that breaks the grammar, the values
in front of the break are kept.
-/

namespace Protoscribe.Json

open Decode

def isSpace (c : Char) : Bool := c = ' ' || c = '\t' || c = '\n' || c = '\r'

def skipSpaces (cs : List Char) : List Char := cs.dropWhile isSpace

def isDigit (c : Char) : Bool := '0' ≤ c && c ≤ '9'

def hexValue? (c : Char) : Option Nat :=
  if '0' ≤ c && c ≤ '9' then some (c.toNat - '0'.toNat)
  else if 'a' ≤ c && c ≤ 'f' then some (c.toNat - 'a'.toNat + 10)
  else if 'A' ≤ c && c ≤ 'F' then some (c.toNat - 'A'.toNat + 10)
  else none

def unit? (a b c d : Char) : Option Nat := do
  let a ← hexValue? a
  let b ← hexValue? b
  let c ← hexValue? c
  let d ← hexValue? d
  return ((a * 16 + b) * 16 + c) * 16 + d

def escaped? (c : Char) : Option Nat :=
  match c with
  | '"' => some 0x22
  | '\\' => some 0x5C
  | '/' => some 0x2F
  | 'b' => some 0x8
  | 'f' => some 0xC
  | 'n' => some 0xA
  | 'r' => some 0xD
  | 't' => some 0x9
  | _ => none

/-- The code points and surrogate halves of a string, up to its closing quote. -/
def readUnits : List Char → Option (List Nat × List Char)
  | [] => none
  | '"' :: rest => some ([], rest)
  | '\\' :: 'u' :: a :: b :: c :: d :: rest => do
      let unit ← unit? a b c d
      let (units, rest) ← readUnits rest
      return (unit :: units, rest)
  | '\\' :: c :: rest => do
      let unit ← escaped? c
      let (units, rest) ← readUnits rest
      return (unit :: units, rest)
  | c :: rest =>
      if c.toNat < 0x20 || c = '\\' then none
      else do
        let (units, rest) ← readUnits rest
        return (c.toNat :: units, rest)

def isLeadSurrogate (unit : Nat) : Bool := 0xD800 ≤ unit && unit ≤ 0xDBFF

def isTrailSurrogate (unit : Nat) : Bool := 0xDC00 ≤ unit && unit ≤ 0xDFFF

def joinSurrogates (lead trail : Nat) : Nat :=
  (lead - 0xD800) * 0x400 + (trail - 0xDC00) + 0x10000

/-- The characters of the units: surrogates come in pairs or there are none. -/
def unitsText? : List Nat → Option (List Char)
  | [] => some []
  | unit :: rest =>
      if isLeadSurrogate unit then
        match rest with
        | [] => none
        | next :: rest =>
            if isTrailSurrogate next then
              (unitsText? rest).map (Char.ofNat (joinSurrogates unit next) :: ·)
            else none
      else if isTrailSurrogate unit then none
      else (unitsText? rest).map (Char.ofNat unit :: ·)

def readText (cs : List Char) : Option (Text × List Char) := do
  let (units, rest) ← readUnits cs
  return ((unitsText? units).map String.ofList, rest)

def readSign : List Char → Bool × List Char
  | '-' :: rest => (true, rest)
  | cs => (false, cs)

/-- The sign of an exponent may also be a plus. -/
def readExponentSign : List Char → Bool × List Char
  | '+' :: rest => (false, rest)
  | cs => readSign cs

def readDigits (cs : List Char) : Option (List Char × List Char) :=
  match cs.takeWhile isDigit with
  | [] => none
  | digits => some (digits, cs.dropWhile isDigit)

/-- The digits in front of the point: a zero leads only by itself. -/
def readWhole (cs : List Char) : Option (List Char × List Char) := do
  let (digits, rest) ← readDigits cs
  if digits.head? = some '0' && 1 < digits.length then none else some (digits, rest)

def readFraction : List Char → Option (Option (List Char) × List Char)
  | '.' :: rest => do
      let (digits, rest) ← readDigits rest
      return (some digits, rest)
  | cs => some (none, cs)

def readExponent (cs : List Char) : Option (Option (Bool × List Char) × List Char) :=
  match cs with
  | c :: rest =>
      if c = 'e' || c = 'E' then do
        let (minus, rest) := readExponentSign rest
        let (digits, rest) ← readDigits rest
        return (some (minus, digits), rest)
      else some (none, cs)
  | [] => some (none, [])

def readNumber (cs : List Char) : Option (Number × List Char) := do
  let (negative, rest) := readSign cs
  let (whole, rest) ← readWhole rest
  let (fraction, rest) ← readFraction rest
  let (exponent, rest) ← readExponent rest
  return (⟨negative, whole, fraction, exponent⟩, rest)

/-! ### Values -/

/-- What stands where the text breaks off: a text that no reading accepts. -/
def unread : Json := .string none

def unreadMember : Text × Json := (none, unread)

/-- A literal is there as a whole or not at all. -/
def literal {α : Type} (make : α → Json) : Option (α × List Char) → Scan Char Json
  | some (value, rest) => .whole (make value) rest
  | none => .broken unread

/-- The name of a member, none where no text stands. -/
def readName (cs : List Char) : Option (Text × List Char) :=
  match skipSpaces cs with
  | '"' :: rest => readText rest
  | _ => none

def assigned (read : List Char → Scan Char Json) (cs : List Char) : Scan Char Json :=
  match skipSpaces cs with
  | ':' :: rest => read rest
  | _ => .broken unread

/-- What stands behind a part of an array or object: a comma and the other parts, or
the closing mark. -/
def readOthers {α : Type} (close : Char) (stop : α) (more : List Char → Scan Char (List α))
    (cs : List Char) : Scan Char (List α) :=
  match skipSpaces cs with
  | ',' :: rest => more rest
  | c :: rest => if c = close then .whole [] rest else .broken [stop]
  | [] => .broken [stop]

@[simp] theorem readOthers_comma {α : Type} (close : Char) (stop : α)
    (more : List Char → Scan Char (List α)) (rest : List Char) :
    readOthers close stop more (',' :: rest) = more rest := rfl

mutual

/-- A value at the head of the text, and the text behind it. -/
def readValue : Nat → List Char → Scan Char Json
  | 0, _ => .broken unread
  | fuel + 1, cs =>
      match skipSpaces cs with
      | 'n' :: 'u' :: 'l' :: 'l' :: rest => .whole .null rest
      | 't' :: 'r' :: 'u' :: 'e' :: rest => .whole (.boolean true) rest
      | 'f' :: 'a' :: 'l' :: 's' :: 'e' :: rest => .whole (.boolean false) rest
      | '"' :: rest => literal .string (readText rest)
      | '[' :: rest =>
          match skipSpaces rest with
          | ']' :: rest => .whole (.array []) rest
          | rest => (readItems fuel rest).map .array
      | '\x7b' :: rest =>
          match skipSpaces rest with
          | '\x7d' :: rest => .whole (.object []) rest
          | rest => (readMembers fuel rest).map .object
      | rest => literal .number (readNumber rest)

/-- The items of an array up to its closing bracket, at least one. -/
def readItems : Nat → List Char → Scan Char (List Json)
  | 0, _ => .broken [unread]
  | fuel + 1, cs =>
      (readValue fuel cs).cons unread (readOthers ']' unread (readItems fuel))

/-- The members of an object up to its closing brace, at least one. -/
def readMembers : Nat → List Char → Scan Char (List (Text × Json))
  | 0, _ => .broken [unreadMember]
  | fuel + 1, cs =>
      match readName cs with
      | none => .broken [unreadMember]
      | some (name, rest) =>
          ((assigned (readValue fuel) rest).map (name, ·)).cons unreadMember
            (readOthers '\x7d' unreadMember (readMembers fuel))

end

/-- Fuel for a text: each level of nesting takes a character and two calls. -/
def readingFuel (cs : List Char) : Nat := 2 * cs.length + 2

/-- The value of a text, or the part of it in front of the first break. -/
def scanChars (cs : List Char) : Except Json Json :=
  (readValue (readingFuel cs) cs).last fun rest => (skipSpaces rest).isEmpty

def scan (document : String) : Except Json Json := scanChars document.toList

/-- The value of a document, none if it breaks the grammar. -/
def read? (document : String) : Option Json := (scan document).toOption

end Protoscribe.Json
