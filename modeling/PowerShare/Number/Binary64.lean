import PowerShare.Number.Power
import PowerShare.Number.Rounding

/-!
# Binary64: the 64-bit binary floating-point numbers

A number is held as its sign bit and its *magnitude*: the other 63 bits, read as one natural
number. The magnitude grows with the size of the number it stands for, so comparing numbers is
comparing magnitudes, and rounding is one formula:

* `units` reads a finite magnitude as a multiple of the least positive number, `2 ^ (-1074)`;
* `nearestMagnitude num den` is the magnitude nearest to `num / den` such units, infinity when
  the quotient is too large; it does not distinguish subnormal from normal numbers, because the
  exponent field counts up exactly when the significand overflows;
* every arithmetic operation is the exact result in units, rounded once (`Binary64.add`, `mul`,
  `div`), with the sign decided apart from the size.

An operation on a NaN gives that NaN (the first of two); an operation without a result, such as
infinity minus infinity, gives `invalid`, the quiet NaN with the sign bit set.
-/

namespace PowerShare

/-- A 64-bit binary floating-point number: a sign bit and the remaining 63 bits as a number. -/
structure Binary64 where
  negative : Bool
  magnitude : Nat
  magnitude_lt : magnitude < 2 ^ 63 := by decide
  deriving DecidableEq

namespace Binary64

/-! ## 1. Words and classes -/

/-- The magnitude of infinity: all exponent bits set. Larger ones are the NaNs. -/
def infinityMagnitude : Nat := 2047 * 2 ^ 52

/-- The bit that a NaN has set when it is a quiet one. -/
def quietBit : Nat := 2 ^ 51

def zero : Binary64 := ⟨false, 0, by decide⟩

def infinity (negative : Bool) : Binary64 := ⟨negative, infinityMagnitude, by decide⟩

/-- The quiet NaN without a payload and with a clear sign bit. -/
def nan : Binary64 := ⟨false, infinityMagnitude + quietBit, by decide⟩

/-- The result of an operation that has none, such as infinity minus infinity. -/
def invalid : Binary64 := ⟨true, infinityMagnitude + quietBit, by decide⟩

instance : Inhabited Binary64 := ⟨zero⟩

/-- The 64 bits as one number, the sign bit on top. -/
def toWord (x : Binary64) : Nat := (if x.negative then 2 ^ 63 else 0) + x.magnitude

/-- The number with the given 64 bits; higher bits are dropped. -/
def ofWord (w : Nat) : Binary64 :=
  ⟨decide (2 ^ 63 ≤ w % 2 ^ 64), w % 2 ^ 63, Nat.mod_lt _ (by decide)⟩

theorem ofWord_toWord (x : Binary64) : ofWord x.toWord = x := by
  obtain ⟨negative, magnitude, h⟩ := x
  cases negative <;> simp only [ofWord, toWord, mk.injEq, decide_eq_true_eq] <;>
    constructor <;> simp <;> omega

theorem toWord_lt (x : Binary64) : x.toWord < 2 ^ 64 := by
  have := x.magnitude_lt
  unfold toWord
  split <;> omega

def isNaN (x : Binary64) : Bool := infinityMagnitude < x.magnitude

def isFinite (x : Binary64) : Bool := x.magnitude < infinityMagnitude

/-- Either of the two zeros. -/
def isZero (x : Binary64) : Bool := x.magnitude == 0

def isInfinite (x : Binary64) : Bool := x.magnitude == infinityMagnitude

/-- The number with its sign bit flipped; nothing is rounded. -/
def neg (x : Binary64) : Binary64 := { x with negative := !x.negative }

/-- The number with its sign bit cleared. -/
def abs (x : Binary64) : Binary64 := { x with negative := false }

/-- The same NaN with its quiet bit set. -/
def quieted (x : Binary64) : Binary64 :=
  if h : x.magnitude / 2 ^ 51 % 2 = 0 then
    ⟨x.negative, x.magnitude + quietBit, by have := x.magnitude_lt; unfold quietBit; omega⟩
  else x

/-! ## 2. Exact sizes and rounding -/

/-- How many units of `2 ^ (-1074)` a finite magnitude stands for. -/
def units (x : Binary64) : Nat :=
  let exponent := x.magnitude / 2 ^ 52
  let fraction := x.magnitude % 2 ^ 52
  if exponent = 0 then fraction else (2 ^ 52 + fraction) * 2 ^ (exponent - 1)

/-- The units of a finite number, with its sign. -/
def signedUnits (x : Binary64) : Int := if x.negative then -(x.units : Int) else x.units

/-- The units that make up the number one. -/
def oneUnits : Nat := 2 ^ 1074

/-- The magnitude nearest to `num / den` units, a tie going to the even significand; infinity
when that is too large for a finite number. -/
def nearestMagnitude (num den : Nat) : Nat :=
  let shift := (num / den).log2 - 52
  min (shift * 2 ^ 52 + roundHalfEven num (den * 2 ^ shift)) infinityMagnitude

theorem nearestMagnitude_lt (num den : Nat) : nearestMagnitude num den < 2 ^ 63 := by
  have h : infinityMagnitude < 2 ^ 63 := by decide
  exact Nat.lt_of_le_of_lt (Nat.min_le_right _ _) h

/-- The number of the given sign nearest to `num / den` units. -/
def nearest (negative : Bool) (num den : Nat) : Binary64 :=
  ⟨negative, nearestMagnitude num den, nearestMagnitude_lt num den⟩

/-- The number nearest to an integer; zero is positive. -/
def ofInt (i : Int) : Binary64 := nearest (i < 0) (i.natAbs * oneUnits) 1

def ofNat (n : Nat) : Binary64 := ofInt n

/-! ## 3. Arithmetic -/

/-- The first operand that is a NaN, quieted; the given result when none is. -/
def orNaN (x y : Binary64) (result : Binary64) : Binary64 :=
  if x.isNaN then x.quieted else if y.isNaN then y.quieted else result

/-- The sum rounded once. A sum of exactly zero is negative only if both operands are. -/
def add (x y : Binary64) : Binary64 :=
  orNaN x y <|
    if x.isInfinite then (if y.isInfinite && x.negative != y.negative then invalid else x)
    else if y.isInfinite then y
    else
      let sum := x.signedUnits + y.signedUnits
      if sum = 0 then ⟨x.negative && y.negative, 0, by decide⟩
      else nearest (sum < 0) sum.natAbs 1

/-- The difference rounded once. -/
def sub (x y : Binary64) : Binary64 :=
  if y.isNaN then orNaN x y y else add x y.neg

/-- The product rounded once. -/
def mul (x y : Binary64) : Binary64 :=
  orNaN x y <|
    let negative := x.negative != y.negative
    if x.isInfinite || y.isInfinite then
      if x.isZero || y.isZero then invalid else infinity negative
    else nearest negative (x.units * y.units) oneUnits

/-- The quotient rounded once. -/
def div (x y : Binary64) : Binary64 :=
  orNaN x y <|
    let negative := x.negative != y.negative
    if x.isInfinite then (if y.isInfinite then invalid else infinity negative)
    else if y.isInfinite then ⟨negative, 0, by decide⟩
    else if y.isZero then (if x.isZero then invalid else infinity negative)
    else nearest negative (x.units * oneUnits) y.units

instance : Add Binary64 := ⟨add⟩
instance : Sub Binary64 := ⟨sub⟩
instance : Mul Binary64 := ⟨mul⟩
instance : Div Binary64 := ⟨div⟩
instance : Neg Binary64 := ⟨neg⟩

/-! ## 4. Order -/

/-- The place of a number that is not a NaN among the others; both zeros have place `0`. -/
def place (x : Binary64) : Int := if x.negative then -(x.magnitude : Int) else x.magnitude

/-- Numerical less-than; a NaN is not comparable. -/
def less (x y : Binary64) : Bool := !x.isNaN && !y.isNaN && x.place < y.place

/-- Numerical equality: the zeros are equal, a NaN equals nothing. -/
def equal (x y : Binary64) : Bool := !x.isNaN && !y.isNaN && x.place == y.place

/-- The place of a word in the total order: negative NaNs, negative numbers, `-0`, `0`,
positive numbers, positive NaNs. -/
def totalPlace (x : Binary64) : Int :=
  if x.negative then -(x.magnitude : Int) - 1 else x.magnitude

/-- The larger of two numbers; a NaN loses to a number, and of two equal ones the first stays. -/
def larger (x y : Binary64) : Binary64 :=
  if x.isNaN then y else if x.less y then y else x

end Binary64

end PowerShare
