import PowerShare.Json.Reader
import PowerShare.Number.Decimal

/-!
# Numbers with a point or a power of ten

The reader of a number keeps an integer of 64 bits and a power of ten, and makes a binary number of
them at the end:

* `takeDigits` -- digits are taken as long as the integer has 64 bits. Those left in front of the
  point count as powers of ten, those left behind it as nothing;
* `powerOfTen` -- a power of ten, rounded;
* `scaled` -- the integer, rounded, times or through a power of ten, rounded again.

So a number may be rounded several times on the way, and need not come out as the binary number
that is nearest to its digits. Where both the integer and the power of ten are binary numbers
themselves, as those of few digits are, it is rounded once and does.
-/

namespace PowerShare.Json

/-- Takes digits behind an integer as long as it has 64 bits, and counts them. -/
def takeDigits (n : Nat) : List UInt8 → Nat × Nat
  | [] => (n, 0)
  | d :: ds =>
    let next := n * 10 + (d.toNat - 48)
    if next < 2 ^ 64 then
      let (integer, count) := takeDigits next ds
      (integer, count + 1)
    else (n, 0)

/-- The largest power of ten that is a binary number when rounded. -/
def greatestPower : Nat := 308

/-- The binary number nearest to a power of ten. -/
def powerOfTen (n : Nat) : Binary64 := (Decimal.mk 1 n).toBinary64 false

/-- A size times a power of ten. It is infinite where it is too large, and goes down in steps where
the power is a very small one. -/
def scaled (size : Binary64) (power : Int) : Binary64 :=
  if power.natAbs ≤ greatestPower then
    if 0 ≤ power then size * powerOfTen power.natAbs else size / powerOfTen power.natAbs
  else if size.isZero then size
  else if 0 ≤ power then .infinity false
  else scaled (size / powerOfTen greatestPower) (power + greatestPower)
termination_by power.natAbs
decreasing_by
  unfold greatestPower at *
  omega

/-- The number with these digits in front of the point and behind it, and this power of ten. -/
def binary64Of (negative : Bool) (whole places : List UInt8) (power : Int) : Binary64 :=
  let (front, counted) := takeDigits 0 whole
  let (integer, countedPlaces) := takeDigits front places
  let size := scaled (.ofNat integer) (power + (whole.length - counted : Nat) - countedPlaces)
  if negative then -size else size

end PowerShare.Json
