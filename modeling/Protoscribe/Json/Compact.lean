import Protoscribe.Json.Basic

/-!
The compact text of a JSON value: no blanks, members in order. Inside a string
only quotes, backslashes and control characters are escaped, the controls by
their letter or by four lower-case hexadecimal digits.
-/

namespace Protoscribe.Json

def hexDigit (n : Nat) : Char := Nat.digitChar (n % 16)

def escapeUnit (n : Nat) : List Char :=
  ['\\', 'u', hexDigit (n / 4096), hexDigit (n / 256), hexDigit (n / 16), hexDigit n]

def escapeChar (c : Char) : List Char :=
  if c = '"' then ['\\', '"']
  else if c = '\\' then ['\\', '\\']
  else if c = '\x08' then ['\\', 'b']
  else if c = '\x0c' then ['\\', 'f']
  else if c = '\n' then ['\\', 'n']
  else if c = '\r' then ['\\', 'r']
  else if c = '\t' then ['\\', 't']
  else if c.toNat < 0x20 then escapeUnit c.toNat
  else [c]

/-- A string literal. The one without a text is a lone surrogate half. -/
def textChars : Text → List Char
  | some text => '"' :: text.toList.flatMap escapeChar ++ ['"']
  | none => '"' :: escapeUnit 0xD800 ++ ['"']

def Number.chars (literal : Number) : List Char :=
  (if literal.negative then ['-'] else []) ++ literal.whole ++
    (match literal.fraction with
      | some digits => '.' :: digits
      | none => []) ++
    (match literal.exponent with
      | some (minus, digits) => 'e' :: (if minus then '-' :: digits else digits)
      | none => [])

mutual

def chars : Json → List Char
  | .null => ['n', 'u', 'l', 'l']
  | .boolean true => ['t', 'r', 'u', 'e']
  | .boolean false => ['f', 'a', 'l', 's', 'e']
  | .number literal => literal.chars
  | .string text => textChars text
  | .array [] => ['[', ']']
  | .array (item :: items) => '[' :: chars item ++ itemChars items
  | .object [] => ['\x7b', '\x7d']
  | .object ((name, value) :: members) =>
      '\x7b' :: textChars name ++ ':' :: chars value ++ memberChars members

/-- Items behind the first, and the closing bracket. -/
def itemChars : List Json → List Char
  | [] => [']']
  | item :: items => ',' :: chars item ++ itemChars items

/-- Members behind the first, and the closing brace. -/
def memberChars : List (Text × Json) → List Char
  | [] => ['\x7d']
  | (name, value) :: members =>
      ',' :: textChars name ++ ':' :: chars value ++ memberChars members

end

def compact (value : Json) : String := String.ofList value.chars

end Protoscribe.Json
