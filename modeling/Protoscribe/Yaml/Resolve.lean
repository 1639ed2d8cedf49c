import Protoscribe.Decimal.Shortest
import Protoscribe.Decode.Failure
import Protoscribe.Yaml.Quoted
import Protoscribe.Yaml.Token

/-!
What a scalar stands for when nothing is asked of it. A plain one may be null, a
boolean, an integer or a real; anything else is a text. Digits with a leading
zero are a text. The tags of the format ask for one of these kinds; other tags
make a text, except that local ones leave a plain scalar what it is.
-/

namespace Protoscribe.Yaml

open Decimal Decode

def isNullWord (text : String) : Bool := ["null", "Null", "NULL", "~"].contains text

def booleanWord? (text : String) : Option Bool :=
  if ["true", "True", "TRUE"].contains text then some true
  else if ["false", "False", "FALSE"].contains text then some false
  else none

def isDecimalDigit (c : Char) : Bool := '0' ≤ c && c ≤ '9'

def isSign (c : Char) : Bool := c = '+' || c = '-'

def digits? (base : Nat) : List Char → Option Nat
  | [] => none
  | cs => cs.foldlM (fun value c => do
      let digit ← hexDigit? c
      if digit < base then some (value * base + digit) else none) 0

/-- Nothing but digits behind a leading zero, with or without a sign. -/
def hasLeadingZero (cs : List Char) : Bool :=
  let digits := if cs.head?.any isSign then cs.drop 1 else cs
  1 < digits.length && digits.head? = some '0' && digits.all isDecimalDigit

/-- Digits in base ten, or in the base that a letter behind a zero names. -/
def magnitude? : List Char → Option Nat
  | '0' :: 'x' :: digits => digits? 16 digits
  | '0' :: 'o' :: digits => digits? 8 digits
  | '0' :: 'b' :: digits => digits? 2 digits
  | digits => digits? 10 digits

def natural? (text : String) : Option Nat :=
  let cs := text.toList
  if hasLeadingZero cs then none
  else
    match cs with
    | '+' :: digits => magnitude? digits
    | digits => magnitude? digits

def negative? (text : String) : Option Int :=
  let cs := text.toList
  if hasLeadingZero cs then none
  else
    match cs with
    | '-' :: digits => (magnitude? digits).map fun n => -(n : Int)
    | _ => none

def exponent? : List Char → Option Int
  | [] => some 0
  | c :: rest =>
      if c = 'e' || c = 'E' then
        match rest with
        | '-' :: digits => (digits? 10 digits).map fun n => -(n : Int)
        | '+' :: digits => (digits? 10 digits).map Int.ofNat
        | digits => (digits? 10 digits).map Int.ofNat
      else none

/-- Digits around a point, at least one of them, and an exponent. -/
def realMagnitude? (cs : List Char) : Option Binary64 := do
  let whole := cs.takeWhile isDecimalDigit
  let behind := cs.dropWhile isDecimalDigit
  let (fraction, behind) :=
    match behind with
    | '.' :: rest => (rest.takeWhile isDecimalDigit, rest.dropWhile isDecimalDigit)
    | behind => ([], behind)
  let digits ← digits? 10 (whole ++ fraction)
  Binary64.ofDecimal digits ((← exponent? behind) - fraction.length)

/-- Reals are written out in full. -/
def realLayout : Decimal.Layout := ⟨none, none⟩

def infinityWords : List String := [".inf", ".Inf", ".INF"]

/-- The text of a real; one that is out of range is none. -/
def real? (text : String) : Option String :=
  let cs := text.toList
  if infinityWords.contains (String.ofList (if cs.head? = some '+' then cs.drop 1 else cs)) then
    some "inf"
  else if cs.head? = some '-' && infinityWords.contains (String.ofList (cs.drop 1)) then
    some "-inf"
  else if [".nan", ".NaN", ".NAN"].contains text then some "NaN"
  else
    match cs with
    | '+' :: rest => (realMagnitude? rest).map (realLayout.text false)
    | '-' :: rest => (realMagnitude? rest).map (realLayout.text true)
    | rest => (realMagnitude? rest).map (realLayout.text false)

/-- Integers are told apart by the count of bits that they need. -/
def integer? (text : String) : Option Found :=
  match natural? text, negative? text with
  | some n, _ =>
      if n < twoTo 64 then some (.natural n)
      else if n < twoTo 128 then some (.wideNatural n)
      else none
  | none, some n =>
      if -(twoTo 63 : Int) ≤ n then some (.integer n)
      else if -(twoTo 127 : Int) ≤ n then some (.wideInteger n)
      else none
  | none, none => none

def plainValue (text : String) : Found :=
  if text = "" || isNullWord text then .unit
  else
    match booleanWord? text, integer? text with
    | some value, _ => .boolean value
    | none, some found => found
    | none, none =>
        if hasLeadingZero text.toList then .text text
        else ((real? text).map Found.real).getD (.text text)

/-- A tag of the format must fit the text. -/
def tagged (wanted : Wanted) (text : String) (found : Option Found) : Except Cause Found :=
  match found with
  | some found => .ok found
  | none => .error (.wrongValue (.text text) wanted)

def resolve (tag : Option Tag) (text : String) (style : Style) : Except Cause Found :=
  match tag with
  | none => .ok (if style = .plain then plainValue text else .text text)
  | some tag =>
      if tag = .boolean then tagged .boolean text ((booleanWord? text).map .boolean)
      else if tag = .integer then tagged .integer text (integer? text)
      else if tag = .real then tagged .real text ((real? text).map .real)
      else if tag = .null then tagged .null text (if isNullWord text then some .unit else none)
      else .ok (if tag.isLocal && style = .plain then plainValue text else .text text)

end Protoscribe.Yaml
