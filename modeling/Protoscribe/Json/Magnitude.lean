import Protoscribe.Json.Basic

/-!
The value of a number literal. Integers of 64 bits are exact. Any other literal
is a double: its digits are gathered into a 64 bit integer as far as they fit,
later digits count only for the exponent, and the integer is then multiplied or
divided by a power of ten, with one rounding for each of these steps. A literal
beyond the largest double has no value. A negative zero is a double.
-/

namespace Protoscribe.Json.Number

open Decimal

inductive Value where
  | natural (value : Nat)
  | negative (value : Int)
  | real (negative : Bool) (magnitude : Binary64)
  deriving DecidableEq, Repr

/-- The largest integer into which digits are gathered. -/
def gatherLimit : Nat := twoTo 64 - 1

/-- The largest exponent that is told apart from an infinite one. -/
def exponentLimit : Nat := twoTo 31 - 1

/-- The largest power of ten that is used in one step. -/
def stepLimit : Nat := 308

def digitValue (c : Char) : Nat := c.toNat - '0'.toNat

/-- Gathers digits while they fit; the rest is the digits left over. -/
def gather (start : Nat) : List Char → Nat × List Char
  | [] => (start, [])
  | c :: rest =>
      let next := start * 10 + digitValue c
      if gatherLimit < next then (start, c :: rest) else gather next rest

def digitsValue (digits : List Char) : Nat :=
  digits.foldl (fun value c => value * 10 + digitValue c) 0

/-- Divides by the largest step until the rest of the exponent fits one step or
nothing is left. -/
def shrink (x : Binary64) (exponent : Nat) : Nat → Option Binary64
  | 0 => some x
  | tries + 1 => do
      if exponent ≤ stepLimit then x.div (← Binary64.ofDecimal 1 exponent)
      else if x.isZero then return x
      else shrink (← x.div (← Binary64.ofDecimal 1 stepLimit)) (exponent - stepLimit) tries

def scaled (significand : Nat) (exponent : Int) : Option Binary64 := do
  let x ← Binary64.ofNat significand
  if exponent < 0 then shrink x exponent.natAbs exponent.natAbs
  else if exponent ≤ stepLimit then x.mul (← Binary64.ofDecimal 1 exponent)
  else if x.isZero then return x
  else none

/-- The significand and the exponent that the digits around the point give. -/
def significand (literal : Number) : Nat × Int :=
  let whole := gather 0 literal.whole
  match literal.fraction with
  | none => (whole.1, whole.2.length)
  | some fraction =>
      let all := gather whole.1 fraction
      (all.1, (whole.2.length : Int) - (fraction.length - all.2.length : Nat))

def magnitude? (literal : Number) : Option Binary64 :=
  let gathered := literal.significand
  match literal.exponent with
  | none => scaled gathered.1 gathered.2
  | some (minus, digits) =>
      let value := digitsValue digits
      if exponentLimit < value then
        if gathered.1 = 0 || minus then some .zero else none
      else scaled gathered.1 (if minus then gathered.2 - value else gathered.2 + value)

def isInteger (literal : Number) : Bool :=
  literal.fraction.isNone && literal.exponent.isNone

/-- The value of a literal, none if it is out of range. -/
def value? (literal : Number) : Option Value :=
  let n := digitsValue literal.whole
  if literal.isInteger && !literal.negative && n ≤ gatherLimit then some (.natural n)
  else if literal.isInteger && literal.negative && 0 < n && n ≤ twoTo 63 then
    some (.negative (-(n : Int)))
  else literal.magnitude?.map (.real literal.negative)

/-- Positional from below 0.00001 up to 16 digits in front of the point. -/
def realLayout : Layout := ⟨some 16, some (-5)⟩

end Protoscribe.Json.Number
