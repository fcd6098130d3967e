import Mathlib.Tactic.Ring
import PowerShare.Number.Notation
import PowerShare.Proofs.Number.Bound

/-!
# The shortest digits read back

A number is written with the fewest digits that name it. Reading goes by the value of a decimal
alone, so zeros at the end of its digits do not matter, and every candidate is tried by reading it:

* `Decimal.toBinary64_mul_pow` -- zeros at the end stand for a power of ten;
* `Binary64.toBinary64_shortest` -- **the shortest decimal of a finite number reads as the
  number.**
-/

namespace PowerShare

/-! ## 1. Decimals of one value -/

theorem Binary64.nearest_mul_right (negative : Bool) (num den : Nat) {k : Nat} (hk : 0 < k) :
    nearest negative (num * k) (den * k) = nearest negative num den := by
  unfold nearest
  simp only [nearestMagnitude_mul_right num den hk]

namespace Decimal

theorem digitCount_le_iff {n k : Nat} (hk : 0 < k) : digitCount n ≤ k ↔ n < 10 ^ k :=
  Nat.length_toDigits_le_iff (by decide) hk

theorem digitCount_mul_ten {n : Nat} (hn : n ≠ 0) : digitCount (n * 10) = digitCount n + 1 := by
  unfold digitCount
  rw [Nat.toDigits_of_base_le (by decide) (by omega), Nat.mul_div_cancel n (by decide),
    List.length_append, List.length_singleton]

theorem toBinary64_zero (e : Int) (negative : Bool) :
    (⟨0, e⟩ : Decimal).toBinary64 negative = ⟨negative, 0, Binary64.zero.magnitude_lt⟩ :=
  if_pos rfl

/-- A zero at the end of the digits stands for a power of ten. -/
theorem toBinary64_mul_ten (n : Nat) (e : Int) (negative : Bool) :
    (⟨n * 10, e⟩ : Decimal).toBinary64 negative = (⟨n, e + 1⟩ : Decimal).toBinary64 negative := by
  by_cases hn : n = 0
  · subst hn
    rw [Nat.zero_mul, toBinary64_zero, toBinary64_zero]
  -- Both decimals have their first digit in the same place, so both are cut off or neither is.
  have htop : (digitCount (n * 10) : Int) + e = digitCount n + (e + 1) := by
    rw [digitCount_mul_ten hn]
    omega
  unfold toBinary64
  dsimp only
  rw [if_neg hn, if_neg (by omega), htop]
  split
  · rfl
  split
  · rfl
  by_cases hneg : e < 0
  · rw [if_pos hneg]
    obtain ⟨k, rfl⟩ : ∃ k : Nat, e = -((k : Int) + 1) := ⟨(-e - 1).toNat, by omega⟩
    have habs : (-((k : Int) + 1)).natAbs = k + 1 := by omega
    have hnearest : Binary64.nearest negative (n * 10 * Binary64.oneUnits) (10 ^ (k + 1)) =
        Binary64.nearest negative (n * Binary64.oneUnits) (10 ^ k) := by
      rw [Nat.mul_right_comm, Nat.pow_succ, Binary64.nearest_mul_right _ _ _ (by decide)]
    rw [habs, hnearest]
    split
    · have habs' : (-((k : Int) + 1) + 1).natAbs = k := by omega
      rw [habs']
    · have hk : k = 0 := by omega
      subst hk
      rw [show (-(((0 : Nat) : Int) + 1) + 1).natAbs = 0 from rfl, Nat.pow_zero, Nat.mul_one]
  · have habs : (e + 1).natAbs = e.natAbs + 1 := by omega
    rw [if_neg hneg, if_neg (by omega), habs, Nat.pow_succ]
    congr 2
    ring

/-- **Zeros at the end of the digits stand for a power of ten.** -/
theorem toBinary64_mul_pow (n k : Nat) (e : Int) (negative : Bool) :
    (⟨n * 10 ^ k, e⟩ : Decimal).toBinary64 negative = (⟨n, e + k⟩ : Decimal).toBinary64 negative := by
  induction k generalizing e with
  | zero => rw [Nat.pow_zero, Nat.mul_one, Nat.cast_zero, add_zero]
  | succ k ih =>
    rw [Nat.pow_succ, ← Nat.mul_assoc, toBinary64_mul_ten, ih]
    congr 2
    push_cast
    ring

theorem toBinary64_trimmed (d : Decimal) (negative : Bool) :
    d.trimmed.toBinary64 negative = d.toBinary64 negative := by
  fun_induction trimmed d with
  | case1 d h ih =>
    rw [ih, ← toBinary64_mul_ten, Nat.div_mul_cancel (Nat.dvd_of_mod_eq_zero h.2)]
  | case2 d h => rfl

/-- The sign is that asked for, and the size does not depend on it. -/
theorem toBinary64_eq (d : Decimal) (negative : Bool) :
    d.toBinary64 negative =
      ⟨negative, (d.toBinary64 false).magnitude, (d.toBinary64 false).magnitude_lt⟩ := by
  unfold toBinary64
  dsimp only
  split
  · rfl
  split
  · rfl
  split
  · rfl
  split <;> rfl

end Decimal

/-! ## 2. Candidates -/

namespace Binary64

theorem toBinary64_of_readsBack {x : Binary64} {d : Decimal} (h : x.readsBack d = true) :
    d.toBinary64 x.negative = x := by
  have hmagnitude : (d.toBinary64 false).magnitude = x.magnitude := beq_iff_eq.1 h
  rw [d.toBinary64_eq]
  obtain ⟨negative, magnitude, hlt⟩ := x
  simp only [hmagnitude]

/-- A neighbour on a grid is taken only if it reads back. -/
theorem readsBack_of_onGrid? {x : Binary64} {tie : Tie} {grid : Int} {d : Decimal}
    (h : x.onGrid? tie grid = some d) : x.readsBack d = true := by
  unfold onGrid? at h
  dsimp only at h
  split at h
  · rename_i hbelow habove
    split at h
    · cases h
      exact hbelow
    · split at h
      · cases h
        exact habove
      · cases tie with
        | toEven =>
          dsimp only at h
          split at h
          · cases h
            exact hbelow
          · cases h
            exact habove
        | up =>
          cases h
          exact habove
  · rename_i hbelow _
    cases h
    exact hbelow
  · rename_i _ habove
    cases h
    exact habove
  · cases h

theorem units_lt {x : Binary64} (h : x.isFinite = true) : x.units < 2 ^ 53 * 2 ^ 2045 := by
  have hfinite : x.magnitude < 2047 * 2 ^ 52 := of_decide_eq_true h
  have hfraction : x.magnitude % 2 ^ 52 < 2 ^ 52 := Nat.mod_lt _ (by decide)
  have hpow (k : Nat) : 0 < 2 ^ k := Nat.two_pow_pos k
  unfold units
  dsimp only
  split
  · have hlt : x.magnitude % 2 ^ 52 < 2 ^ 53 := by omega
    exact Nat.lt_of_lt_of_le hlt (Nat.le_mul_of_pos_right _ (hpow _))
  · have hdigits : 2 ^ 52 + x.magnitude % 2 ^ 52 < 2 ^ 53 := by omega
    have hexponent {k : Nat} (hk : x.magnitude / 2 ^ 52 - 1 ≤ k) :
        2 ^ (x.magnitude / 2 ^ 52 - 1) ≤ 2 ^ k := Nat.pow_le_pow_right (by decide) hk
    exact Nat.lt_of_lt_of_le (Nat.mul_lt_mul_of_pos_right hdigits (hpow _))
      (Nat.mul_le_mul_left _ (hexponent (by omega)))

/-- The whole expansion is not far from the range of the numbers. -/
theorem digitCount_expansion {x : Binary64} (h : x.isFinite = true) (hx : x.units ≠ 0) :
    750 < Decimal.digitCount x.expansion.digits ∧
      Decimal.digitCount x.expansion.digits ≤ 1400 := by
  have hleast : 10 ^ 750 ≤ 5 ^ 1074 := by decide +kernel
  have hgreatest : 2 ^ 53 * 2 ^ 2045 * 5 ^ 1074 ≤ 10 ^ 1400 := by decide +kernel
  have hfive (k : Nat) : 0 < 5 ^ k := Nat.pow_pos (by decide)
  constructor
  · refine Nat.lt_of_not_le fun hle => ?_
    have hlt := (Decimal.digitCount_le_iff (by decide)).1 hle
    have hmul : 5 ^ 1074 ≤ x.units * 5 ^ 1074 :=
      Nat.le_mul_of_pos_left _ (Nat.pos_of_ne_zero hx)
    exact absurd (Nat.lt_of_le_of_lt hmul hlt) (Nat.not_lt_of_le hleast)
  · refine (Decimal.digitCount_le_iff (by decide)).2 ?_
    exact Nat.lt_of_lt_of_le (Nat.mul_lt_mul_of_pos_right (units_lt h) (hfive _)) hgreatest

/-- The whole expansion reads back. -/
theorem toBinary64_expansion {x : Binary64} (h : x.isFinite = true) (hx : x.units ≠ 0) :
    x.expansion.toBinary64 x.negative = x := by
  obtain ⟨hleast, hgreatest⟩ := digitCount_expansion h hx
  have hexponent : x.expansion.exponent = -1074 := rfl
  have hfar : ¬ Decimal.farExponent < (Decimal.digitCount x.expansion.digits : Int) + -1074 := by
    unfold Decimal.farExponent
    omega
  have hnear : ¬ (Decimal.digitCount x.expansion.digits : Int) + -1074 < -Decimal.farExponent := by
    unfold Decimal.farExponent
    omega
  have hpow (k : Nat) : 5 ^ k * 2 ^ k = 10 ^ k := by rw [← Nat.mul_pow]
  have hdigits : x.expansion.digits * oneUnits = x.units * 10 ^ 1074 := by
    rw [← hpow, ← Nat.mul_assoc]
    rfl
  have hzero : x.expansion.digits ≠ 0 := by
    intro hzero
    rw [hzero] at hleast
    exact absurd hleast (by decide)
  have hnearest (k : Nat) : nearest x.negative (x.units * 10 ^ k) (10 ^ k) = x := by
    rw [← Nat.one_mul (10 ^ k), ← Nat.mul_assoc, Nat.mul_one,
      nearest_mul_right _ _ _ (Nat.pow_pos (by decide))]
    unfold nearest
    simp only [nearestMagnitude_units h]
  have habs : (-1074 : Int).natAbs = 1074 := rfl
  unfold Decimal.toBinary64
  dsimp only
  rw [if_neg hzero, hexponent, if_neg hfar, if_neg hnear, if_pos (by decide), hdigits, habs,
    hnearest]

/-! ## 3. The shortest digits -/

/-- Only zero has no units. -/
theorem magnitude_of_units_eq_zero {x : Binary64} (h : x.units = 0) : x.magnitude = 0 := by
  unfold units at h
  dsimp only at h
  split at h
  · omega
  · have hpos : 0 < (2 ^ 52 + x.magnitude % 2 ^ 52) * 2 ^ (x.magnitude / 2 ^ 52 - 1) :=
      Nat.mul_pos (by omega) (Nat.two_pow_pos _)
    omega

/-- **The shortest decimal of a finite number reads as the number.** -/
theorem toBinary64_shortest {x : Binary64} (h : x.isFinite = true) (tie : Tie) :
    (x.shortest tie).toBinary64 x.negative = x := by
  unfold shortest
  split
  · rename_i hzero
    have hmagnitude : x.magnitude = 0 := beq_iff_eq.1 hzero
    rw [Decimal.toBinary64_zero]
    obtain ⟨negative, magnitude, hlt⟩ := x
    simp only at hmagnitude
    simp only [hmagnitude]
  · rename_i hzero
    dsimp only
    rw [Decimal.toBinary64_trimmed]
    cases hfound : (List.range 17).findSome? fun n : Nat =>
        x.onGrid? tie (x.decimalTop - (n + 1)) with
    | some d =>
      obtain ⟨n, -, hd⟩ := List.exists_of_findSome?_eq_some hfound
      exact toBinary64_of_readsBack (readsBack_of_onGrid? hd)
    | none =>
      exact toBinary64_expansion h fun hunits =>
        hzero (beq_iff_eq.2 (magnitude_of_units_eq_zero hunits))

/-- The shortest decimal of zero has no power of ten. -/
theorem exponent_shortest {x : Binary64} (h : x.isFinite = true) (tie : Tie)
    (hzero : (x.shortest tie).digits = 0) : (x.shortest tie).exponent = 0 := by
  by_cases hx : x.isZero = true
  · unfold shortest
    rw [if_pos hx]
  · have hread := toBinary64_shortest h tie
    have hdecimal : x.shortest tie = ⟨0, (x.shortest tie).exponent⟩ := by
      rw [← hzero]
    rw [hdecimal, Decimal.toBinary64_zero] at hread
    exact absurd (beq_iff_eq.2 (congrArg magnitude hread).symm) hx

end Binary64

end PowerShare
