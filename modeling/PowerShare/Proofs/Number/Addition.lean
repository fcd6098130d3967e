import Mathlib.Tactic.Ring
import PowerShare.Proofs.Number.Exact
import PowerShare.Proofs.Number.Shortest

/-!
# One addition

What a rounded addition does to any two numbers, and how far it is off:

* `Plain` -- any number but the negative zero. `add_of_plain`: added to such a number, a finite one
  gives the exact sum rounded;
* `signedUnits_ofUnits` -- a sum that is a number itself is not rounded;
* `Ordinary` -- numbers with one NaN among them only, which the operations keep.
  `Ordinary.add_comm`: they have the same sum whichever comes first, infinite ones and both zeros
  included;
* `abs_value_add_sub_le` -- **a finite sum is off by at most one part in `2 ^ 53`,** however small
  it is, and `abs_value_sub_sub_le` says so of differences.

Not here: three numbers. Their sum is rounded twice, and what is rounded first matters.
-/

namespace PowerShare

namespace Binary64

/-! ## 1. Whole numbers of units -/

/-- Any number but the negative zero. No sum from zero on is that one. -/
def Plain (x : Binary64) : Prop := x.magnitude = 0 → x.negative = false

theorem plain_zero : zero.Plain := fun _ => rfl

theorem plain_ofUnits (n : Int) : (ofUnits n).Plain := by
  intro hzero
  refine decide_eq_false fun hneg => ?_
  have hpos : 0 < nearestMagnitude n.natAbs 1 := nearestMagnitude_pos (by omega)
  exact Nat.ne_of_gt hpos hzero

theorem plain_or_eq_neg_zero (x : Binary64) : x.Plain ∨ x = -zero := by
  obtain ⟨negative, magnitude, _⟩ := x
  by_cases hzero : magnitude = 0
  · subst hzero
    cases negative with
    | false => exact .inl fun _ => rfl
    | true => exact .inr rfl
  · exact .inl fun h => absurd h hzero

/-- Among plain numbers, no units means zero. -/
theorem Plain.negative_of_units {x : Binary64} (hplain : x.Plain) (h : x.units = 0) :
    x.negative = false := hplain (magnitude_of_units_eq_zero h)

theorem ofUnits_zero : ofUnits 0 = zero := by decide +kernel

/-- The units of a plain number are rounded to the number itself. -/
theorem ofUnits_signedUnits {x : Binary64} (hx : x.isFinite = true) (hplain : x.Plain) :
    ofUnits x.signedUnits = x := by
  have hmagnitude : nearestMagnitude x.signedUnits.natAbs 1 = x.magnitude := by
    rw [natAbs_signedUnits, nearestMagnitude_units hx]
  have hsign : decide (x.signedUnits < 0) = x.negative := by
    unfold signedUnits
    cases hnegative : x.negative with
    | false =>
      rw [if_neg Bool.false_ne_true]
      exact decide_eq_false (by omega)
    | true =>
      rw [if_pos rfl]
      refine decide_eq_true (Int.lt_iff_le_and_ne.2 ⟨by omega, fun hzero => ?_⟩)
      exact Bool.false_ne_true ((hplain.negative_of_units (by omega)).symm.trans hnegative)
  obtain ⟨negative, magnitude, _⟩ := x
  unfold ofUnits nearest
  simp only [hmagnitude, hsign]

/-- **A finite number added to a plain one gives the exact sum, rounded.** -/
theorem add_of_plain {x y : Binary64} (hx : x.isFinite = true) (hy : y.isFinite = true)
    (hplain : x.Plain) : x + y = ofUnits (x.signedUnits + y.signedUnits) := by
  rw [add_of_isFinite hx hy]
  split
  · rename_i hsum
    have hsign : (x.negative && y.negative) = false := by
      refine Bool.eq_false_iff.2 fun hboth => ?_
      obtain ⟨hxneg, hyneg⟩ := Bool.and_eq_true_iff.1 hboth
      unfold signedUnits at hsum
      rw [hxneg, hyneg, if_pos rfl, if_pos rfl] at hsum
      exact Bool.false_ne_true ((hplain.negative_of_units (by omega)).symm.trans hxneg)
    rw [hsum, ofUnits_zero]
    simp only [hsign]
    rfl
  · rfl

/-- **Units that are the size of a finite number are not rounded.** -/
theorem signedUnits_ofUnits {n : Int} (h : Fits n.natAbs) :
    (ofUnits n).isFinite = true ∧ (ofUnits n).signedUnits = n := by
  have hfinite : (ofUnits n).isFinite = true := (within_ofUnits h (Nat.le_refl _)).isFinite_eq
  obtain ⟨y, hy, hunits⟩ := h
  have hmagnitude : (ofUnits n).magnitude = y.magnitude := by
    show nearestMagnitude n.natAbs 1 = _
    rw [← hunits, nearestMagnitude_units hy]
  have hsize : (ofUnits n).units = n.natAbs := by
    rw [← hunits]
    exact Nat.le_antisymm (units_le_of_magnitude_le (Nat.le_of_eq hmagnitude))
      (units_le_of_magnitude_le (Nat.le_of_eq hmagnitude.symm))
  have hsign : (ofUnits n).negative = decide (n < 0) := rfl
  refine ⟨hfinite, ?_⟩
  unfold signedUnits
  rw [hsize, hsign]
  by_cases hneg : n < 0
  · rw [decide_eq_true hneg, if_pos rfl]
    omega
  · rw [decide_eq_false hneg, if_neg Bool.false_ne_true]
    omega

/-! ## 2. Numbers of every class -/

theorem classes (x : Binary64) : x.isNaN = true ∨ x.isInfinite = true ∨ x.isFinite = true := by
  cases hnumber : x.isNaN with
  | true => exact .inl rfl
  | false =>
    cases hinfinite : x.isInfinite with
    | true => exact .inr (.inl rfl)
    | false => exact .inr (.inr (isFinite_of_not hnumber hinfinite))

theorem isFinite_of_isNaN {x : Binary64} (h : x.isNaN = true) : x.isFinite = false := by
  have hmagnitude : infinityMagnitude < x.magnitude := of_decide_eq_true h
  exact decide_eq_false (by omega)

theorem isFinite_of_isInfinite {x : Binary64} (h : x.isInfinite = true) : x.isFinite = false := by
  have hmagnitude : x.magnitude = infinityMagnitude := beq_iff_eq.1 h
  exact decide_eq_false (by omega)

section Sums

variable {x y : Binary64}

theorem isNaN_add_left (hx : x.isNaN = true) : (x + y).isNaN = true := by
  show (x.add y).isNaN = true
  unfold add orNaN
  rw [if_pos hx]
  exact isNaN_quieted hx

theorem isNaN_add_right (hy : y.isNaN = true) : (x + y).isNaN = true := by
  show (x.add y).isNaN = true
  unfold add orNaN
  by_cases hx : x.isNaN = true
  · rw [if_pos hx]
    exact isNaN_quieted hx
  · rw [if_neg hx, if_pos hy]
    exact isNaN_quieted hy

theorem add_of_isInfinite_left (hx : x.isInfinite = true) (hy : y.isFinite = true) : x + y = x := by
  show x.add y = _
  unfold add orNaN
  rw [isNaN_of_isInfinite hx, isNaN_of_isFinite hy, isInfinite_of_isFinite hy, hx]
  rfl

theorem add_of_isInfinite_right (hx : x.isFinite = true) (hy : y.isInfinite = true) :
    x + y = y := by
  show x.add y = _
  unfold add orNaN
  rw [isNaN_of_isFinite hx, isNaN_of_isInfinite hy, isInfinite_of_isFinite hx, hy]
  rfl

theorem add_of_both_isInfinite (hx : x.isInfinite = true) (hy : y.isInfinite = true) :
    x + y = if x.negative != y.negative then invalid else x := by
  show x.add y = _
  unfold add orNaN
  rw [isNaN_of_isInfinite hx, isNaN_of_isInfinite hy, hx, hy]
  rfl

theorem eq_of_isInfinite (hx : x.isInfinite = true) (hy : y.isInfinite = true)
    (hsign : x.negative = y.negative) : x = y := by
  obtain ⟨xnegative, xmagnitude, _⟩ := x
  obtain ⟨ynegative, ymagnitude, _⟩ := y
  obtain rfl : xmagnitude = infinityMagnitude := beq_iff_eq.1 hx
  obtain rfl : ymagnitude = infinityMagnitude := beq_iff_eq.1 hy
  obtain rfl : xnegative = ynegative := hsign
  rfl

/-- Only finite numbers have a finite sum. -/
theorem isFinite_of_isFinite_add (h : (x + y).isFinite = true) :
    x.isFinite = true ∧ y.isFinite = true := by
  rcases y.classes with hy | hy | hy
  · rw [isFinite_of_isNaN (isNaN_add_right hy)] at h
    exact absurd h Bool.false_ne_true
  · rcases x.classes with hx | hx | hx
    · rw [isFinite_of_isNaN (isNaN_add_left hx)] at h
      exact absurd h Bool.false_ne_true
    · rw [add_of_both_isInfinite hx hy] at h
      split at h
      · exact absurd h (by decide)
      · rw [isFinite_of_isInfinite hx] at h
        exact absurd h Bool.false_ne_true
    · rw [add_of_isInfinite_right hx hy, isFinite_of_isInfinite hy] at h
      exact absurd h Bool.false_ne_true
  · rcases x.classes with hx | hx | hx
    · rw [isFinite_of_isNaN (isNaN_add_left hx)] at h
      exact absurd h Bool.false_ne_true
    · rw [add_of_isInfinite_left hx hy, isFinite_of_isInfinite hx] at h
      exact absurd h Bool.false_ne_true
    · exact ⟨hx, hy⟩

end Sums

/-- Nothing is added to a plain number that would make it the negative zero. -/
theorem Plain.add {x : Binary64} (h : x.Plain) (y : Binary64) : (x + y).Plain := by
  intro hzero
  have hsum : (x + y).isFinite = true := decide_eq_true (hzero ▸ by decide)
  obtain ⟨hx, hy⟩ := isFinite_of_isFinite_add hsum
  rw [add_of_plain hx hy h] at hzero ⊢
  exact plain_ofUnits _ hzero

theorem Plain.foldl_add {start : Binary64} (h : start.Plain) (xs : List Binary64) :
    (xs.foldl (· + ·) start).Plain := by
  induction xs generalizing start with
  | nil => exact h
  | cons x rest ih => exact ih (h.add x)

/-- A plain number that is not below zero has no minus sign. -/
theorem Plain.nonneg {x : Binary64} (h : x.Plain) (hx : zero ≤ x) : x.Nonneg := by
  have hleast : x.AtLeastZero := zero_le_iff.1 hx
  refine ⟨?_, hleast.isNaN_eq⟩
  cases hsign : x.negative with
  | false => rfl
  | true => exact hsign.symm.trans (h (hleast.magnitude_of_negative hsign))

/-! ## 3. Numbers with one NaN -/

/-- A number, or the one NaN that stands for a missing result. -/
def Ordinary (x : Binary64) : Prop := x.isNaN = true → x = invalid

theorem ordinary_of_not_isNaN {x : Binary64} (h : x.isNaN = false) : x.Ordinary := fun hnan =>
  absurd (h.symm.trans hnan) Bool.false_ne_true

theorem ordinary_ofNat (n : Nat) : (ofNat n).Ordinary :=
  ordinary_of_not_isNaN (isNaN_ofInt n)

theorem quieted_invalid : invalid.quieted = invalid := by decide

theorem invalid_add (y : Binary64) : invalid + y = invalid := by
  show invalid.add y = _
  unfold add orNaN
  rw [if_pos (by decide), quieted_invalid]

namespace Ordinary

variable {x y : Binary64}

theorem orNaN {result : Binary64} (hx : x.Ordinary) (hy : y.Ordinary) (h : result.Ordinary) :
    (x.orNaN y result).Ordinary := by
  unfold Binary64.orNaN
  split
  · rename_i hnan
    rw [hx hnan, quieted_invalid]
    exact fun _ => rfl
  · split
    · rename_i hnan
      rw [hy hnan, quieted_invalid]
      exact fun _ => rfl
    · exact h

theorem add (hx : x.Ordinary) (hy : y.Ordinary) : (x + y).Ordinary := by
  refine hx.orNaN hy ?_
  split
  · split
    · exact fun _ => rfl
    · exact hx
  · split
    · exact hy
    · dsimp only
      split
      · exact ordinary_of_not_isNaN rfl
      · exact ordinary_of_not_isNaN (isNaN_nearest ..)

theorem mul (hx : x.Ordinary) (hy : y.Ordinary) : (x * y).Ordinary := by
  refine hx.orNaN hy ?_
  dsimp only
  split
  · split
    · exact fun _ => rfl
    · exact ordinary_of_not_isNaN rfl
  · exact ordinary_of_not_isNaN (isNaN_nearest ..)

theorem div (hx : x.Ordinary) (hy : y.Ordinary) : (x / y).Ordinary := by
  refine hx.orNaN hy ?_
  dsimp only
  split
  · split
    · exact fun _ => rfl
    · exact ordinary_of_not_isNaN rfl
  · split
    · exact ordinary_of_not_isNaN rfl
    · split
      · split
        · exact fun _ => rfl
        · exact ordinary_of_not_isNaN rfl
      · exact ordinary_of_not_isNaN (isNaN_nearest ..)

theorem add_invalid (hx : x.Ordinary) : x + invalid = invalid :=
  hx.add (fun _ => rfl) (isNaN_add_right (by decide))

/-- **Two numbers have one sum, whichever comes first.** -/
theorem add_comm (hx : x.Ordinary) (hy : y.Ordinary) : x + y = y + x := by
  rcases x.classes with hxnan | hxinfinite | hxfinite
  · rw [hx hxnan, invalid_add, hy.add_invalid]
  · rcases y.classes with hynan | hyinfinite | hyfinite
    · rw [hy hynan, invalid_add, hx.add_invalid]
    · rw [add_of_both_isInfinite hxinfinite hyinfinite,
        add_of_both_isInfinite hyinfinite hxinfinite, bne_comm]
      split
      · rfl
      · rename_i hsame
        rw [bne_iff_ne, ne_eq, not_not] at hsame
        exact eq_of_isInfinite hxinfinite hyinfinite hsame.symm
    · rw [add_of_isInfinite_left hxinfinite hyfinite, add_of_isInfinite_right hyfinite hxinfinite]
  · rcases y.classes with hynan | hyinfinite | hyfinite
    · rw [hy hynan, invalid_add, hx.add_invalid]
    · rw [add_of_isInfinite_right hxfinite hyinfinite, add_of_isInfinite_left hyinfinite hxfinite]
    · rw [add_of_isFinite hxfinite hyfinite, add_of_isFinite hyfinite hxfinite, Int.add_comm,
        Bool.and_comm]

/-- Zero in front changes nothing but the negative zero. -/
theorem zero_add (hx : x.Ordinary) (hplain : x.Plain) : zero + x = x := by
  rcases x.classes with hnan | hinfinite | hfinite
  · rw [hx hnan, add_invalid (ordinary_of_not_isNaN rfl)]
  · exact add_of_isInfinite_right rfl hinfinite
  · have hzero : zero.signedUnits = 0 := rfl
    rw [add_of_plain rfl hfinite plain_zero, hzero, Int.zero_add,
      ofUnits_signedUnits hfinite hplain]

/-- The negative zero behind changes nothing. -/
theorem add_neg_zero (hx : x.Ordinary) : x + -zero = x := by
  rcases x.plain_or_eq_neg_zero with hplain | rfl
  · rcases x.classes with hnan | hinfinite | hfinite
    · rw [hx hnan, invalid_add]
    · exact add_of_isInfinite_left hinfinite rfl
    · have hzero : (-zero).signedUnits = 0 := rfl
      rw [add_of_plain hfinite rfl hplain, hzero, Int.add_zero, ofUnits_signedUnits hfinite hplain]
  · decide

end Ordinary

/-! ## 4. What one rounding may change -/

/-- **A rounded size is off by at most one part in `2 ^ 53`,** up or down. -/
theorem units_nearest_near {negative : Bool} {n : Nat}
    (h : (nearest negative n 1).isFinite = true) :
    2 ^ 53 * (nearest negative n 1).units ≤ 2 ^ 53 * n + n ∧
      2 ^ 53 * n ≤ 2 ^ 53 * (nearest negative n 1).units + n := by
  generalize hs : shiftOf n 1 = s
  have hpow : 0 < 1 * 2 ^ s := Nat.mul_pos Nat.one_pos (Nat.two_pow_pos s)
  generalize hq : roundHalfEven n (1 * 2 ^ s) = q
  have hmagnitude : (nearest negative n 1).magnitude = s * 2 ^ 52 + q := by
    have hfinite : nearestMagnitude n 1 < infinityMagnitude := of_decide_eq_true h
    show nearestMagnitude n 1 = _
    rw [nearestMagnitude_eq, hs, hq] at hfinite ⊢
    omega
  have htop : q ≤ 2 ^ 53 :=
    hq ▸ roundHalfEven_le hpow (Nat.le_of_lt (hs ▸ num_lt_of_shift n (by decide)))
  have hlow : s = 0 ∨ 2 ^ 52 * (1 * 2 ^ s) ≤ n :=
    (Nat.eq_zero_or_pos s).imp_right fun hpos => hs ▸ le_num_of_shift (hs ▸ hpos)
  have hunits : (nearest negative n 1).units = q * 2 ^ s := by
    rcases Nat.lt_or_eq_of_le htop with hlt | hcarry
    · exact units_of_magnitude hmagnitude hlt
        (hlow.imp_right fun hle => hq ▸ le_roundHalfEven hpow hle)
    · -- Rounded up to one bit more, which the exponent takes over.
      have hnext : s * 2 ^ 52 + q = (s + 1) * 2 ^ 52 + 2 ^ 52 := by omega
      rw [units_of_magnitude (hmagnitude.trans hnext) (by decide) (.inr (Nat.le_refl _)), hcarry,
        Nat.pow_succ]
      ring
  obtain ⟨hup, hdown⟩ := hq ▸ roundHalfEven_near n hpow
  rw [Nat.one_mul] at hup hdown hlow
  rw [hunits]
  generalize q * 2 ^ s = u at hup hdown ⊢
  rcases hlow with rfl | hlow
  · omega
  · omega

theorem abs_signedUnits_ofUnits_sub_le {n : Int} (h : (ofUnits n).isFinite = true) :
    |2 ^ 53 * ((ofUnits n).signedUnits - n)| ≤ |n| := by
  obtain ⟨hup, hdown⟩ := units_nearest_near h
  have hsize : (nearest (decide (n < 0)) n.natAbs 1).units = (ofUnits n).units := rfl
  have hsign : (ofUnits n).negative = decide (n < 0) := rfl
  rw [hsize] at hup hdown
  unfold signedUnits
  rw [hsign]
  generalize (ofUnits n).units = u at hup hdown ⊢
  by_cases hneg : n < 0
  · rw [decide_eq_true hneg, if_pos rfl, abs_le, abs_of_neg hneg]
    omega
  · rw [decide_eq_false hneg, if_neg Bool.false_ne_true, abs_le, abs_of_nonneg (Int.not_lt.1 hneg)]
    omega

theorem value_eq (x : Binary64) : x.value = x.signedUnits / oneUnits := by
  unfold value signed exactSize signedUnits
  cases x.negative with
  | false => rfl
  | true =>
    simp only [if_true]
    push_cast
    rw [neg_div]

theorem value_neg (x : Binary64) : (-x).value = -x.value := by
  rw [value_eq, value_eq, signedUnits_neg, Int.cast_neg, neg_div]

theorem value_of_magnitude_eq_zero {x : Binary64} (h : x.magnitude = 0) : x.value = 0 := by
  rw [value, exactSize, units_of_magnitude_eq_zero h, Nat.cast_zero, zero_div, signed_zero]

/-- Finite numbers compare as what they are. -/
theorem less_iff_value_lt {x y : Binary64} (hx : x.isFinite = true) (hy : y.isFinite = true) :
    x.less y = true ↔ x.value < y.value := by
  rw [less_iff_signedUnits_lt hx hy, value_eq, value_eq,
    div_lt_div_iff_of_pos_right oneUnits_pos_rat, Int.cast_lt]

theorem value_larger {x y : Binary64} (hx : x.isFinite = true) (hy : y.isFinite = true) :
    (x.larger y).value = max x.value y.value := by
  rw [larger_of_isFinite hx]
  by_cases hless : x.less y = true
  · rw [if_pos hless, max_eq_right ((less_iff_value_lt hx hy).1 hless).le]
  · rw [if_neg hless, max_eq_left (not_lt.1 fun h => hless ((less_iff_value_lt hx hy).2 h))]

/-- Zero in front does not change what a number is. -/
theorem value_zero_add {x : Binary64} (hx : x.isFinite = true) : (zero + x).value = x.value := by
  have hfits : Fits x.signedUnits.natAbs := ⟨x, hx, (natAbs_signedUnits x).symm⟩
  have hzero : zero.signedUnits = 0 := rfl
  rw [add_of_plain rfl hx plain_zero, hzero, Int.zero_add, value_eq,
    (signedUnits_ofUnits hfits).2, ← value_eq]

/-- How much of a number rounding may change. -/
def roundoff : ℚ := 1 / 2 ^ 53

theorem roundoff_nonneg : 0 ≤ roundoff := by
  unfold roundoff
  positivity

theorem abs_value_ofUnits_sub_le {n : Int} (h : (ofUnits n).isFinite = true) :
    |(ofUnits n).value - n / oneUnits| ≤ roundoff * |(n : ℚ) / oneUnits| := by
  have hone := oneUnits_pos_rat
  have hcast : (2 ^ 53 : ℚ) * |((ofUnits n).signedUnits : ℚ) - n| ≤ |(n : ℚ)| := by
    have hpow : (0 : ℚ) ≤ 2 ^ 53 := by positivity
    rw [← abs_of_nonneg hpow, ← abs_mul]
    exact_mod_cast abs_signedUnits_ofUnits_sub_le h
  rw [value_eq, ← sub_div, abs_div, abs_div, abs_of_pos hone, roundoff, ← mul_div_assoc,
    div_le_div_iff_of_pos_right hone, one_div_mul_eq_div, le_div_iff₀' (by positivity)]
  exact hcast

/-- **A finite sum is off by at most one part in `2 ^ 53`.** Even the least sizes are added
exactly, so no further error comes in near zero. -/
theorem abs_value_add_sub_le {x y : Binary64} (h : (x + y).isFinite = true) :
    |(x + y).value - (x.value + y.value)| ≤ roundoff * |x.value + y.value| := by
  obtain ⟨hx, hy⟩ := isFinite_of_isFinite_add h
  have hexact : x.value + y.value = ((x.signedUnits + y.signedUnits : ℤ) : ℚ) / oneUnits := by
    rw [value_eq, value_eq, ← add_div, Int.cast_add]
  have hsum := add_of_isFinite hx hy
  by_cases hzero : x.signedUnits + y.signedUnits = 0
  · rw [if_pos hzero] at hsum
    rw [hexact, hzero, Int.cast_zero, zero_div, sub_zero, abs_zero, mul_zero,
      value_of_magnitude_eq_zero (congrArg magnitude hsum), abs_zero]
  · rw [if_neg hzero] at hsum
    rw [hsum] at h ⊢
    rw [hexact]
    exact abs_value_ofUnits_sub_le h

theorem abs_value_sub_sub_le {x y : Binary64} (hy : y.isFinite = true)
    (h : (x - y).isFinite = true) :
    |(x - y).value - (x.value - y.value)| ≤ roundoff * |x.value - y.value| := by
  have hsub : x - y = x + -y := by
    show x.sub y = x.add y.neg
    rw [sub, isNaN_of_isFinite hy, if_neg Bool.false_ne_true]
  rw [hsub] at h ⊢
  rw [sub_eq_add_neg x.value, ← value_neg]
  exact abs_value_add_sub_le h

end Binary64

end PowerShare
