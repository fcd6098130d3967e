import PowerShare.Number.Binary64

/-!
# Decimals and the binary numbers they name

A `Decimal` is a natural number of digits and a power of ten, so it is never rounded itself.

* `Decimal.toBinary64` reads a decimal: the nearest binary number, however many digits and however
  large an exponent the text had;
* `Binary64.shortest` goes the other way: the decimal of the fewest digits that reads back, and of
  two such the nearer one. It tries the grids of one, two, … seventeen digits; the value's two
  neighbours on a grid are the only candidates, because every decimal that reads back lies in the
  interval around the value. Should no grid hold one, the value's own finite expansion is taken,
  so reading back never fails.
-/

namespace PowerShare

/-- The number `digits * 10 ^ exponent`. -/
structure Decimal where
  digits : Nat
  exponent : Int
  deriving DecidableEq, Inhabited

/-- Which of two equally near decimals is taken. -/
inductive Tie where
  | toEven
  | up
  deriving DecidableEq

namespace Decimal

/-- How many decimal digits a number has; zero has one. -/
def digitCount (n : Nat) : Nat := (Nat.toDigits 10 n).length

/-- Decimals with more than this many places before or after the point lie outside the range of
binary numbers on either side. -/
def farExponent : Int := 400

/-- The binary number nearest to the decimal, with the given sign. -/
def toBinary64 (d : Decimal) (negative : Bool) : Binary64 :=
  if d.digits = 0 then ⟨negative, 0, Binary64.zero.magnitude_lt⟩
  else
    let top := digitCount d.digits + d.exponent
    if farExponent < top then Binary64.infinity negative
    else if top < -farExponent then ⟨negative, 0, Binary64.zero.magnitude_lt⟩
    else if d.exponent < 0 then
      Binary64.nearest negative (d.digits * Binary64.oneUnits) (10 ^ d.exponent.natAbs)
    else
      Binary64.nearest negative (d.digits * 10 ^ d.exponent.natAbs * Binary64.oneUnits) 1

/-- The same number without zeros at the end of its digits. -/
def trimmed (d : Decimal) : Decimal :=
  if h : d.digits ≠ 0 ∧ d.digits % 10 = 0 then trimmed ⟨d.digits / 10, d.exponent + 1⟩ else d
termination_by d.digits
decreasing_by omega

end Decimal

namespace Binary64

/-- The size of a finite number on the grid of multiples of `10 ^ grid`, as a fraction. -/
def onGrid (x : Binary64) (grid : Int) : Nat × Nat :=
  if grid < 0 then (x.units * 10 ^ grid.natAbs, oneUnits)
  else (x.units, oneUnits * 10 ^ grid.natAbs)

/-- The decimal that spells the size of a finite number out to its last place. -/
def expansion (x : Binary64) : Decimal := ⟨x.units * 5 ^ 1074, -1074⟩

/-- Whether the decimal reads back as the size of the number. -/
def readsBack (x : Binary64) (d : Decimal) : Bool :=
  (d.toBinary64 false).magnitude == x.magnitude

/-- The neighbour of the number on a grid that reads back, the nearer one if both do. -/
def onGrid? (x : Binary64) (tie : Tie) (grid : Int) : Option Decimal :=
  let (num, den) := x.onGrid grid
  let below : Decimal := ⟨num / den, grid⟩
  let above : Decimal := ⟨num / den + 1, grid⟩
  let rest := num % den
  match x.readsBack below, x.readsBack above with
  | true, true =>
    if 2 * rest < den then some below
    else if den < 2 * rest then some above
    else match tie with
      | .toEven => some (if below.digits % 2 = 0 then below else above)
      | .up => some above
  | true, false => some below
  | false, true => some above
  | false, false => none

/-- The least power of ten above the size of a finite number that is not zero. -/
def decimalTop (x : Binary64) : Int :=
  Decimal.digitCount (x.units * 10 ^ 400 / oneUnits) - 400

/-- The decimal of the fewest digits that reads back as the size of a finite number. -/
def shortest (x : Binary64) (tie : Tie) : Decimal :=
  if x.isZero then ⟨0, 0⟩
  else
    let found := (List.range 17).findSome? fun (n : Nat) => x.onGrid? tie (x.decimalTop - (n + 1))
    (found.getD x.expansion).trimmed

end Binary64

end PowerShare
