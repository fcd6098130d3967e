import PowerShare.Proofs.Number.Nearest

/-!
# The total order of the words

A comparison of numbers leaves out the NaNs and takes the zeros for one. The total order tells all
words apart:

* `Precedes` -- which word comes before which, said class by class;
* `totalPlace_injective` and `precedes_iff` -- each word has a place of its own, and the places are
  in that order.
-/

namespace PowerShare

namespace Binary64

/-! ## 1. Which word comes before which -/

/-- **The total order of the words, class by class.** Numbers are ordered by size and the two zeros
by sign. NaNs whose sign bit is set come before all numbers, the others behind them; the NaNs of one
side are ordered by their payload, the greatest the farthest from the numbers. -/
inductive Precedes (x y : Binary64) : Prop where
  | smaller (h : x.less y = true)
  | zeros (hx : x.isZero = true) (hy : y.isZero = true) (hxsign : x.negative = true)
      (hysign : y.negative = false)
  | belowNumbers (hx : x.isNaN = true) (hxsign : x.negative = true) (hy : y.isNaN = false)
  | aboveNumbers (hx : x.isNaN = false) (hy : y.isNaN = true) (hysign : y.negative = false)
  | apart (hx : x.isNaN = true) (hy : y.isNaN = true) (hxsign : x.negative = true)
      (hysign : y.negative = false)
  | below (hx : x.isNaN = true) (hy : y.isNaN = true) (hxsign : x.negative = true)
      (hysign : y.negative = true) (h : y.magnitude < x.magnitude)
  | above (hx : x.isNaN = true) (hy : y.isNaN = true) (hxsign : x.negative = false)
      (hysign : y.negative = false) (h : x.magnitude < y.magnitude)

/-! ## 2. The places of the words -/

theorem totalPlace_of_negative {x : Binary64} (h : x.negative = true) :
    x.totalPlace = -(x.magnitude : Int) - 1 := by
  unfold totalPlace
  rw [if_pos h]

theorem totalPlace_of_not_negative {x : Binary64} (h : x.negative = false) :
    x.totalPlace = x.magnitude := by
  unfold totalPlace
  rw [h, if_neg Bool.false_ne_true]

/-- No two words have the same place. -/
theorem totalPlace_injective {x y : Binary64} (h : x.totalPlace = y.totalPlace) : x = y := by
  obtain ⟨xsign, xmagnitude, hx⟩ := x
  obtain ⟨ysign, ymagnitude, hy⟩ := y
  unfold totalPlace at h
  cases xsign <;> cases ysign <;> simp at h ⊢ <;> omega

theorem totalPlace_of_number {x : Binary64} (h : x.isNaN = false) :
    -(infinityMagnitude : Int) - 1 ≤ x.totalPlace ∧ x.totalPlace ≤ infinityMagnitude := by
  have hmagnitude : ¬ infinityMagnitude < x.magnitude := of_decide_eq_false h
  unfold totalPlace
  split <;> omega

theorem totalPlace_of_nan_below {x : Binary64} (h : x.isNaN = true) (hsign : x.negative = true) :
    x.totalPlace < -(infinityMagnitude : Int) - 1 := by
  have hmagnitude : infinityMagnitude < x.magnitude := of_decide_eq_true h
  rw [totalPlace_of_negative hsign]
  omega

theorem totalPlace_of_nan_above {x : Binary64} (h : x.isNaN = true) (hsign : x.negative = false) :
    (infinityMagnitude : Int) < x.totalPlace := by
  have hmagnitude : infinityMagnitude < x.magnitude := of_decide_eq_true h
  rw [totalPlace_of_not_negative hsign]
  omega

/-- Numbers stand in the order of their sizes, and the negative zero before the other one. -/
theorem totalPlace_lt_iff_of_numbers {x y : Binary64} (hx : x.isNaN = false)
    (hy : y.isNaN = false) : x.totalPlace < y.totalPlace ↔ x.less y = true ∨
      (x.isZero = true ∧ y.isZero = true ∧ x.negative = true ∧ y.negative = false) := by
  simp only [less_eq_true_iff, hx, hy, true_and, isZero, beq_iff_eq]
  unfold totalPlace place
  cases x.negative <;> cases y.negative <;>
    simp only [Bool.false_eq_true, Bool.true_eq_false, if_true, if_false, and_true, and_false,
      or_false] <;>
    omega

/-- Of two numbers in the total order, the first one is at most the second. -/
theorem place_le_of_totalPlace_le {x y : Binary64} (h : x.totalPlace ≤ y.totalPlace) :
    x.place ≤ y.place := by
  revert h
  unfold totalPlace place
  cases x.negative <;> cases y.negative <;>
    simp only [Bool.false_eq_true, if_true, if_false] <;>
    omega

theorem Precedes.totalPlace_lt {x y : Binary64} (h : x.Precedes y) :
    x.totalPlace < y.totalPlace := by
  cases h with
  | smaller h =>
    obtain ⟨hx, hy, -⟩ := less_eq_true_iff.1 h
    exact (totalPlace_lt_iff_of_numbers hx hy).2 (.inl h)
  | zeros hx hy hxsign hysign =>
    rw [totalPlace_of_negative hxsign, totalPlace_of_not_negative hysign]
    omega
  | belowNumbers hx hxsign hy =>
    exact Int.lt_of_lt_of_le (totalPlace_of_nan_below hx hxsign) (totalPlace_of_number hy).1
  | aboveNumbers hx hy hysign =>
    exact Int.lt_of_le_of_lt (totalPlace_of_number hx).2 (totalPlace_of_nan_above hy hysign)
  | apart hx hy hxsign hysign =>
    rw [totalPlace_of_negative hxsign, totalPlace_of_not_negative hysign]
    omega
  | below hx hy hxsign hysign h =>
    rw [totalPlace_of_negative hxsign, totalPlace_of_negative hysign]
    omega
  | above hx hy hxsign hysign h =>
    rw [totalPlace_of_not_negative hxsign, totalPlace_of_not_negative hysign]
    omega

theorem precedes_of_totalPlace_lt {x y : Binary64} (h : x.totalPlace < y.totalPlace) :
    x.Precedes y := by
  cases hx : x.isNaN with
  | false =>
    cases hy : y.isNaN with
    | false =>
      rcases (totalPlace_lt_iff_of_numbers hx hy).1 h with hless | ⟨hxzero, hyzero, hxsign, hysign⟩
      · exact .smaller hless
      · exact .zeros hxzero hyzero hxsign hysign
    | true =>
      have hnumber := totalPlace_of_number hx
      cases hysign : y.negative with
      | false => exact .aboveNumbers hx hy hysign
      | true =>
        have hnan := totalPlace_of_nan_below hy hysign
        omega
  | true =>
    cases hy : y.isNaN with
    | false =>
      have hnumber := totalPlace_of_number hy
      cases hxsign : x.negative with
      | false =>
        have hnan := totalPlace_of_nan_above hx hxsign
        omega
      | true => exact .belowNumbers hx hxsign hy
    | true =>
      cases hxsign : x.negative <;> cases hysign : y.negative
      · rw [totalPlace_of_not_negative hxsign, totalPlace_of_not_negative hysign] at h
        exact .above hx hy hxsign hysign (by omega)
      · rw [totalPlace_of_not_negative hxsign, totalPlace_of_negative hysign] at h
        omega
      · exact .apart hx hy hxsign hysign
      · rw [totalPlace_of_negative hxsign, totalPlace_of_negative hysign] at h
        exact .below hx hy hxsign hysign (by omega)

/-- **The places of the words are their total order.** -/
theorem precedes_iff {x y : Binary64} : x.Precedes y ↔ x.totalPlace < y.totalPlace :=
  ⟨Precedes.totalPlace_lt, precedes_of_totalPlace_lt⟩

end Binary64

end PowerShare
