import Protoscribe.Decimal.Shortest

/-!
JSON values as a document gives them: the members of an object in order and with
repeats, numbers by their digits. The escapes of a string may name a lone half
of a surrogate pair; such a string is part of the grammar and stands for no
text.
-/

namespace Protoscribe

structure Json.Number where
  negative : Bool
  whole : List Char
  fraction : Option (List Char)
  /-- The sign, true for a minus, and the digits. -/
  exponent : Option (Bool × List Char)
  deriving DecidableEq, Repr, Inhabited

/-- The text of a string literal, if it has one. -/
abbrev Json.Text := Option String

inductive Json where
  | null
  | boolean (value : Bool)
  | number (literal : Json.Number)
  | string (text : Json.Text)
  | array (items : List Json)
  | object (members : List (Json.Text × Json))
  deriving Repr, Inhabited

namespace Json

def text (value : String) : Json := .string (some value)

def record (members : List (String × Json)) : Json :=
  .object (members.map fun member => (some member.1, member.2))

def Number.ofNat (n : Nat) : Number := ⟨false, Nat.toDigits 10 n, none, none⟩

def natural (n : Nat) : Json := .number (.ofNat n)

end Json

end Protoscribe
