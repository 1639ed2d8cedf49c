import Protoscribe.Decimal.Binary64

/-!
The shortest decimal that reads back as a given double precision number, and
among those of its length the nearest one. The decimals that read back fill an
interval around the number; for one, two, … digits in turn the two neighbours
of the number on that decimal grid are held against the interval.
-/

namespace Protoscribe.Decimal

/-- Digits without trailing zeros; the number is `0.digits · 10 ^ point`. -/
structure Digits where
  digits : List Char
  point : Int
  deriving DecidableEq, Repr

namespace Binary64

/-- Four times the lower end of the interval in units of the exponent: a power
of two has a nearer neighbour below. -/
def lowerQuarter (x : Binary64) : Nat :=
  if x.mantissa = twoTo 52 ∧ minExponent < x.exponent then 4 * x.mantissa - 1
  else 4 * x.mantissa - 2

def upperQuarter (x : Binary64) : Nat := 4 * x.mantissa + 2

/-- The order of `count · 10 ^ grid` and `quarters / 4 · 2 ^ exponent`. -/
def compareGrid (count : Nat) (grid : Int) (quarters : Nat) (exponent : Int) : Ordering :=
  let left := if grid < 0 then 4 * count else 4 * count * tenTo grid.natAbs
  let leftDen := if grid < 0 then tenTo grid.natAbs else 1
  let right := if exponent < 0 then quarters else quarters * twoTo exponent.natAbs
  let rightDen := if exponent < 0 then twoTo exponent.natAbs else 1
  compare (left * rightDen) (right * leftDen)

/-- A grid point reads back as the number; the ends do so for even mantissas. -/
def readsBack (x : Binary64) (count : Nat) (grid : Int) : Bool :=
  let low := compareGrid count grid x.lowerQuarter x.exponent
  let high := compareGrid count grid x.upperQuarter x.exponent
  let even := x.mantissa % 2 == 0
  (low == .gt || (even && low == .eq)) && (high == .lt || (even && high == .eq))

def pointOf (x : Binary64) : Int :=
  let q := x.quotient
  ((Nat.toDigits 10 (q.1 * tenTo 400 / q.2)).length : Int) - 400

def floorOn (x : Binary64) (grid : Int) : Nat :=
  let q := x.quotient
  if grid < 0 then q.1 * tenTo grid.natAbs / q.2
  else q.1 / (q.2 * tenTo grid.natAbs)

/-- The neighbour on the grid that reads back, the nearer one of two. -/
def onGrid? (x : Binary64) (grid : Int) : Option Nat :=
  let below := x.floorOn grid
  match x.readsBack below grid, x.readsBack (below + 1) grid with
  | true, true =>
      match compareGrid (2 * below + 1) grid (8 * x.mantissa) x.exponent with
      | .lt => some (below + 1)
      | .gt => some below
      | .eq => some (if below % 2 = 0 then below else below + 1)
  | true, false => some below
  | false, true => some (below + 1)
  | false, false => none

/-- Tries grids of one digit more each time. -/
def shortestFrom (x : Binary64) (point : Int) : Nat → Nat → Nat × Int
  | _, 0 => (x.floorOn (point - 17), point - 17)
  | length, tries + 1 =>
      match x.onGrid? (point - length) with
      | some count => (count, point - length)
      | none => shortestFrom x point (length + 1) tries

def shortest (x : Binary64) : Digits :=
  let found := x.shortestFrom x.pointOf 1 17
  let digits := Nat.toDigits 10 found.1
  ⟨(digits.reverse.dropWhile (· == '0')).reverse, (digits.length : Int) + found.2⟩

end Binary64

/-- How a notation lays out the digits of a number. -/
structure Layout where
  /-- Points above this position are written with an exponent. -/
  maxPoint : Option Int
  /-- Points at or below this position are written with an exponent. -/
  minPoint : Option Int
  deriving DecidableEq, Repr

def zeros (count : Nat) : List Char := List.replicate count '0'

/-- All digits around the point, and `.0` after an integer. -/
def Digits.positional (d : Digits) : List Char :=
  let length : Int := d.digits.length
  if length ≤ d.point then d.digits ++ zeros (d.point - length).toNat ++ ['.', '0']
  else if 0 < d.point then
    d.digits.take d.point.toNat ++ ['.'] ++ d.digits.drop d.point.toNat
  else ['0', '.'] ++ zeros d.point.natAbs ++ d.digits

def intText (n : Int) : List Char :=
  if n < 0 then '-' :: Nat.toDigits 10 n.natAbs else Nat.toDigits 10 n.natAbs

/-- One digit in front of the point, and the exponent after an `e`. -/
def Digits.scientific (d : Digits) : List Char :=
  let tail := intText (d.point - 1)
  match d.digits with
  | [] => 'e' :: tail
  | [digit] => digit :: 'e' :: tail
  | digit :: rest => digit :: '.' :: rest ++ 'e' :: tail

def Layout.write (layout : Layout) (d : Digits) : List Char :=
  let tooHigh := layout.maxPoint.any (· < d.point)
  let tooLow := layout.minPoint.any (d.point ≤ ·)
  if tooHigh || tooLow then d.scientific else d.positional

/-- The text of a signed number; zero has its sign and one decimal. -/
def Layout.text (layout : Layout) (negative : Bool) (x : Binary64) : String :=
  let body := if x.isZero then ['0', '.', '0'] else layout.write x.shortest
  String.ofList (if negative then '-' :: body else body)

end Protoscribe.Decimal
