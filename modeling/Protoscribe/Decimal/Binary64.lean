/-!
Double precision numbers without their sign, as exact integers: a number is
`mantissa · 2 ^ exponent`, its mantissa has at most 53 bits and its exponent is
at least that of the least subnormal number. Every operation rounds the exact
result once, to the nearest number and to an even mantissa on a tie.
-/

namespace Protoscribe.Decimal

def twoTo (exponent : Nat) : Nat := Nat.pow 2 exponent

def tenTo (exponent : Nat) : Nat := Nat.pow 10 exponent

structure Binary64 where
  mantissa : Nat
  exponent : Int
  deriving DecidableEq, Repr, Inhabited

namespace Binary64

def minExponent : Int := -1074

def maxExponent : Int := 971

def zero : Binary64 := ⟨0, minExponent⟩

def isZero (x : Binary64) : Bool := x.mantissa == 0

/-- The quotient rounded to the nearest integer, a half to the even one. -/
def roundQuotient (num den : Nat) : Nat :=
  let q := num / den
  let r := num % den
  if 2 * r < den then q
  else if den < 2 * r then q + 1
  else if q % 2 = 0 then q else q + 1

def scale (num den : Nat) (exponent : Int) : Nat × Nat :=
  if exponent < 0 then (num * twoTo exponent.natAbs, den)
  else (num, den * twoTo exponent.natAbs)

/-- The exponent at which the quotient has 53 bits in front of the point,
unless that lies below the least exponent. -/
def exponentFor (num den : Nat) : Int :=
  let guess : Int := (Nat.log2 num : Int) - (Nat.log2 den : Int) - 52
  let scaled := scale num den guess
  let exact := if scaled.1 / scaled.2 < twoTo 52 then guess - 1 else guess
  max exact minExponent

/-- The number nearest to a quotient, unless it lies beyond the largest. -/
def ofQuotient (num den : Nat) : Option Binary64 :=
  if num = 0 then some zero
  else
    let exponent := exponentFor num den
    let scaled := scale num den exponent
    let mantissa := roundQuotient scaled.1 scaled.2
    let rounded : Binary64 :=
      if mantissa = twoTo 53 then ⟨twoTo 52, exponent + 1⟩ else ⟨mantissa, exponent⟩
    if maxExponent < rounded.exponent then none else some rounded

def quotient (x : Binary64) : Nat × Nat :=
  if x.exponent < 0 then (x.mantissa, twoTo x.exponent.natAbs)
  else (x.mantissa * twoTo x.exponent.natAbs, 1)

def ofNat (n : Nat) : Option Binary64 := ofQuotient n 1

def mul (x y : Binary64) : Option Binary64 :=
  let a := x.quotient
  let b := y.quotient
  ofQuotient (a.1 * b.1) (a.2 * b.2)

def div (x y : Binary64) : Option Binary64 :=
  let a := x.quotient
  let b := y.quotient
  ofQuotient (a.1 * b.2) (a.2 * b.1)

/-- The number nearest to `digits · 10 ^ exponent`, unless it lies beyond the
largest. Exponents far out of range are settled by the count of digits. -/
def ofDecimal (digits : Nat) (exponent : Int) : Option Binary64 :=
  if digits = 0 then some zero
  else
    let length : Int := (Nat.toDigits 10 digits).length
    if 310 < length + exponent then none
    else if length + exponent < -330 then some zero
    else if exponent < 0 then ofQuotient digits (tenTo exponent.natAbs)
    else ofQuotient (digits * tenTo exponent.natAbs) 1

end Binary64

end Protoscribe.Decimal
