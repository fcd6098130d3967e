import PowerShare.Proofs.Json.Scalar
import PowerShare.Proofs.Number.Monotone
import PowerShare.Proofs.Number.Shortest

/-!
# Numbers of few digits are rounded once

A reader rounds the digits of a number, then the power of ten, and then once more what comes of the
two. The first two roundings change nothing where there is nothing to round:

* `Numeral.read_of_lt` -- digits that make an integer of 64 bits are all taken;
* `Numeral.ofInt_of_integer?` -- an integer is read as the binary number nearest to it;
* `Numeral.IsShort.read_eq` -- **digits of 53 bits and a power of ten up to the 22nd are read as the
  binary number nearest to the one spelled.** The 23rd power of ten takes more than 53 bits itself.

Not here: longer numbers, some of which are read as another number than the nearest one.
-/

namespace PowerShare

/-! ## 1. Digits -/

namespace Json

/-- The number that digits make behind those of another number. -/
def digitsBehind (n : Nat) (ds : List UInt8) : Nat :=
  ds.foldl (fun n d => n * 10 + (d.toNat - 48)) n

theorem le_digitsBehind (n : Nat) (ds : List UInt8) : n ≤ digitsBehind n ds := by
  induction ds generalizing n with
  | nil => exact Nat.le_refl n
  | cons d ds ih =>
    have hnext : n ≤ n * 10 + (d.toNat - 48) := by omega
    exact Nat.le_trans hnext (ih _)

/-- All digits are taken if they make an integer of 64 bits. -/
theorem takeDigits_of_lt {n : Nat} {ds : List UInt8} (h : digitsBehind n ds < 2 ^ 64) :
    takeDigits n ds = (digitsBehind n ds, ds.length) := by
  induction ds generalizing n with
  | nil => rfl
  | cons d ds ih =>
    have hnext : n * 10 + (d.toNat - 48) < 2 ^ 64 := Nat.lt_of_le_of_lt (le_digitsBehind _ ds) h
    unfold takeDigits
    dsimp only
    rw [if_pos hnext, ih h]
    rfl

theorem digitsValue_append (whole places : List UInt8) :
    digitsValue (whole ++ places) = digitsBehind (digitsValue whole) places := List.foldl_append

/-- Digits that make an integer of 64 bits are all taken, and the integer is scaled. -/
theorem Numeral.read_of_lt {n : Numeral} (h : n.decimal.digits < 2 ^ 64) :
    n.read =
      if n.negative then -scaled (.ofNat n.decimal.digits) n.decimal.exponent
      else scaled (.ofNat n.decimal.digits) n.decimal.exponent := by
  have hdigits : n.decimal.digits = digitsBehind (digitsValue n.whole.bytes) n.places :=
    digitsValue_append _ _
  have hfront : digitsValue n.whole.bytes < 2 ^ 64 := by
    rw [hdigits] at h
    exact Nat.lt_of_le_of_lt (le_digitsBehind _ _) h
  have hwhole : takeDigits 0 n.whole.bytes = (digitsValue n.whole.bytes, n.whole.bytes.length) :=
    takeDigits_of_lt hfront
  have hplaces : takeDigits (digitsValue n.whole.bytes) n.places =
      (n.decimal.digits, n.places.length) := by
    rw [hdigits]
    exact takeDigits_of_lt (hdigits ▸ h)
  have hexponent : n.power?.elim 0 Power.value +
      (n.whole.bytes.length - n.whole.bytes.length : Nat) - n.places.length =
        n.decimal.exponent := by
    rw [Nat.sub_self, Nat.cast_zero, add_zero]
    rfl
  unfold read binary64Of
  rw [hwhole]
  dsimp only
  rw [hplaces]
  dsimp only
  rw [hexponent]

end Json

/-! ## 2. Powers of ten -/

open Binary64

/-- A decimal of moderate size is rounded as a quotient. -/
theorem Decimal.toBinary64_of_near {d : Decimal} (hdigits : d.digits < 10 ^ 40)
    (hexponent : d.exponent.natAbs ≤ 300) (negative : Bool) :
    d.toBinary64 negative =
      if d.exponent < 0 then nearest negative (d.digits * oneUnits) (10 ^ d.exponent.natAbs)
      else nearest negative (d.digits * 10 ^ d.exponent.natAbs * oneUnits) 1 := by
  have hcount : digitCount d.digits ≤ 40 := (digitCount_le_iff (by decide)).2 hdigits
  have hnone (den : Nat) :
      (⟨negative, 0, zero.magnitude_lt⟩ : Binary64) = nearest negative 0 den := by
    unfold nearest
    simp only [nearestMagnitude_zero]
  unfold toBinary64
  dsimp only
  by_cases hzero : d.digits = 0
  · rw [if_pos hzero, hzero]
    simp only [Nat.zero_mul]
    split
    · exact hnone _
    · exact hnone _
  · have hfar : ¬ farExponent < (digitCount d.digits : Int) + d.exponent := by
      unfold farExponent
      omega
    have hnear : ¬ (digitCount d.digits : Int) + d.exponent < -farExponent := by
      unfold farExponent
      omega
    rw [if_neg hzero, if_neg hfar, if_neg hnear]

namespace Json

theorem powerOfTen_eq_ofNat {k : Nat} (hk : k ≤ 300) : powerOfTen k = .ofNat (10 ^ k) := by
  have hnonneg : ¬ (k : Int) < 0 := Int.not_lt.2 (Int.natCast_nonneg k)
  unfold powerOfTen
  rw [Decimal.toBinary64_of_near (by decide : 1 < 10 ^ 40) (Int.natAbs_natCast k ▸ hk),
    if_neg hnonneg, Int.natAbs_natCast, Nat.one_mul]
  unfold ofNat ofInt
  rw [Int.natAbs_natCast, decide_eq_false (Int.not_lt.2 (Int.natCast_nonneg _))]

/-- The first powers of ten are binary numbers. -/
theorem fits_pow_ten {k : Nat} (hk : k ≤ 22) : Fits (10 ^ k * oneUnits) := by
  have hfive : 5 ^ k < 2 ^ 53 :=
    Nat.lt_of_le_of_lt (Nat.pow_le_pow_right (by decide) hk) (by decide)
  have hten : 10 ^ k = 5 ^ k * 2 ^ k := (Nat.mul_pow 5 2 k).symm ▸ rfl
  rw [hten]
  exact fits_mul_two_pow hfive (Nat.le_refl 53) (by omega)

/-- Nothing is scaled by the power of ten that is one. -/
theorem scaled_zero {x : Binary64} (hx : x.isFinite = true) : scaled x 0 = x := by
  obtain ⟨hfinite, hunits⟩ := units_ofNat (n := 1) (by decide)
  have hone : powerOfTen 0 = .ofNat 1 := powerOfTen_eq_ofNat (Nat.zero_le _)
  have hsame : nearest x.negative (x.units * (1 * oneUnits)) oneUnits =
      nearest x.negative x.units 1 := by
    rw [← nearest_mul_right _ x.units 1 oneUnits_pos, Nat.one_mul]
  unfold scaled
  rw [if_pos (by decide), if_pos (Int.le_refl 0), Int.natAbs_zero, hone,
    mul_of_isFinite hx hfinite, hunits, (nonneg_ofNat 1).negative_eq, Bool.bne_false, hsame,
    nearest_units hx]

/-- **Few digits are rounded once,** when they are multiplied or divided. -/
theorem scaled_eq_toBinary64 {d : Decimal} (hdigits : d.digits < 2 ^ 53)
    (hexponent : d.exponent.natAbs ≤ 22) :
    scaled (.ofNat d.digits) d.exponent = d.toBinary64 false := by
  obtain ⟨hfinite, hunits⟩ := units_ofNat hdigits
  have hfits := fits_pow_ten hexponent
  obtain ⟨hpower, hpowerUnits⟩ := units_ofNat_of_fits hfits
  have hpowerPos : 0 < 10 ^ d.exponent.natAbs := Nat.pow_pos (by decide)
  have hsign (n : Nat) : (Binary64.ofNat n).negative = false := (nonneg_ofNat n).negative_eq
  unfold scaled
  rw [if_pos (Nat.le_trans hexponent (by decide)), powerOfTen_eq_ofNat (by omega),
    d.toBinary64_of_near (Nat.lt_trans hdigits (by decide)) (by omega)]
  by_cases hneg : d.exponent < 0
  · -- The units of one stand in the dividend twice and in the divisor once.
    rw [if_neg (Int.not_le.2 hneg), if_pos hneg,
      div_of_positive (isNaN_of_isFinite hfinite) (positive_ofNat_of_fits hpowerPos hfits),
      isInfinite_of_isFinite hfinite, if_neg Bool.false_ne_true, hunits, hpowerUnits, hsign,
      nearest_mul_right _ _ _ oneUnits_pos]
  · have hproduct : d.digits * oneUnits * (10 ^ d.exponent.natAbs * oneUnits) =
        d.digits * 10 ^ d.exponent.natAbs * oneUnits * oneUnits := by
      ring
    rw [if_pos (Int.not_lt.1 hneg), if_neg hneg, mul_of_isFinite hfinite hpower, hunits,
      hpowerUnits, hsign, hsign, hproduct, Bool.bne_false,
      ← nearest_mul_right _ (_ * oneUnits) 1 oneUnits_pos, Nat.one_mul]

/-! ## 3. Numerals -/

namespace Numeral

variable {n : Numeral}

/-- Digits alone, of 64 bits, are rounded once. -/
theorem read_of_digits (hplaces : n.places? = none) (hpower : n.power? = none)
    (hlt : digitsValue n.whole.bytes < 2 ^ 64) :
    n.read = if n.negative then -Binary64.ofNat (digitsValue n.whole.bytes)
      else .ofNat (digitsValue n.whole.bytes) := by
  have hdecimal : n.decimal = ⟨digitsValue n.whole.bytes, 0⟩ := by
    unfold decimal places
    rw [hplaces, hpower]
    simp
  have hdigits : n.decimal.digits < 2 ^ 64 := by
    rw [hdecimal]
    exact hlt
  rw [read_of_lt hdigits, hdecimal]
  dsimp only
  rw [scaled_zero (upTo_ofNat_of_lt hlt).isFinite_eq]

/-- **An integer is read as the binary number nearest to it,** as it is with a point behind it. -/
theorem ofInt_of_integer? {i : Int} (h : n.integer? = some i) : Binary64.ofInt i = n.read := by
  unfold integer? at h
  dsimp only at h
  split at h
  · rename_i hparts
    obtain ⟨hplaces, hpower⟩ := Bool.and_eq_true_iff.1 hparts
    have hread := n.read_of_digits (Option.isNone_iff_eq_none.1 hplaces)
      (Option.isNone_iff_eq_none.1 hpower)
    split at h
    · rename_i hnegative
      split at h
      · rename_i hvalue
        cases h
        have hunits : (digitsValue n.whole.bytes : Int) * oneUnits ≠ 0 :=
          Int.mul_ne_zero (by omega) (Int.natCast_ne_zero.2 (Nat.ne_of_gt oneUnits_pos))
        rw [hread (by omega), if_pos hnegative]
        unfold Binary64.ofNat
        rw [ofInt_eq_ofUnits, ofInt_eq_ofUnits, neg_ofUnits hunits, Int.neg_mul]
      · cases h
    · rename_i hnegative
      split at h
      · rename_i hvalue
        cases h
        rw [hread hvalue, if_neg hnegative]
        rfl
      · cases h
  · cases h

/-- The number that a numeral is read as, integer or not. -/
theorem read_of_number? {x : Binary64} (h : n.number?.map Number.toBinary64 = some x) :
    n.read = x := by
  unfold number? at h
  cases hn : n.integer? with
  | some i =>
    rw [hn] at h
    exact (ofInt_of_integer? hn).symm.trans (Option.some.inj h)
  | none =>
    rw [hn] at h
    dsimp only at h
    split at h
    · exact Option.some.inj h
    · cases h

/-- Few digits and a small power of ten. -/
structure IsShort (n : Numeral) : Prop where
  digits_lt : n.decimal.digits < 2 ^ 53
  exponent_le : n.decimal.exponent.natAbs ≤ 22

/-- **A short number is read as the binary number nearest to it.** -/
theorem IsShort.read_eq (h : n.IsShort) : n.read = n.toBinary64 := by
  have hsign : (n.decimal.toBinary64 false).negative = false := by
    rw [Decimal.toBinary64_eq]
  rw [read_of_lt (Nat.lt_trans h.digits_lt (by decide)),
    scaled_eq_toBinary64 h.digits_lt h.exponent_le]
  unfold toBinary64
  rw [n.decimal.toBinary64_eq n.negative]
  generalize n.decimal.toBinary64 false = size at hsign
  obtain ⟨_, magnitude, _⟩ := size
  cases hsign
  cases n.negative <;> rfl

/-- A single digit with the 32nd power of ten is not short: the number above the nearest one is
read. -/
example :
    let five : Digits := ⟨[byte '5'], by decide +kernel, List.cons_ne_nil _ _⟩
    let power : Digits := ⟨[byte '3', byte '2'], by decide +kernel, List.cons_ne_nil _ _⟩
    let n : Numeral := ⟨false, five, fun _ => rfl, none, some ⟨false, none, power⟩⟩
    n.read.magnitude = n.toBinary64.magnitude + 1 := by decide +kernel

/-- No short number is too large. -/
theorem IsShort.isFinite_toBinary64 (h : n.IsShort) : n.toBinary64.isFinite = true := by
  have hten : 10 ^ n.decimal.exponent.natAbs ≤ 10 ^ 22 :=
    Nat.pow_le_pow_right (by decide) h.exponent_le
  have hpos : 0 < 10 ^ n.decimal.exponent.natAbs := Nat.pow_pos (by decide)
  have hdigits := h.digits_lt
  have hfits : Fits (2 ^ 127 * oneUnits) := fits_two_pow (by decide)
  unfold toBinary64
  rw [Decimal.toBinary64_of_near (Nat.lt_trans hdigits (by decide))
    (Nat.le_trans h.exponent_le (by decide))]
  split
  · have hle : n.decimal.digits * oneUnits ≤ 2 ^ 127 * oneUnits :=
      Nat.mul_le_mul_right _ (by omega)
    have hnum := Nat.le_trans hle (Nat.le_mul_of_pos_right (2 ^ 127 * oneUnits) hpos)
    exact (within_nearest hfits hpos hnum _).isFinite_eq
  · have hle : n.decimal.digits * 10 ^ n.decimal.exponent.natAbs ≤ 2 ^ 53 * 10 ^ 22 :=
      Nat.mul_le_mul (Nat.le_of_lt hdigits) hten
    have hnum : n.decimal.digits * 10 ^ n.decimal.exponent.natAbs * oneUnits ≤
        2 ^ 127 * oneUnits * 1 := by
      rw [Nat.mul_one]
      exact Nat.mul_le_mul_right _ (Nat.le_trans hle (by decide))
    exact (within_nearest hfits (by decide) hnum _).isFinite_eq

end Numeral

end Json

end PowerShare
