import PowerShare.Proofs.Number.Nearest

/-!
# Numbers that are not below zero

`Nonneg` numbers have a clear sign bit and are no NaN; they may be infinite. Sums, products and
quotients stay among them, with one exception each for products and quotients, which a factor that
is `Positive`, finite and not zero, leaves out:

* `Nonneg.add`, `Nonneg.mul`, `Nonneg.div` -- the three operations, whatever is rounded and also
  where the result is infinite;
* `not_less_sub` -- taking a number that is not below zero away from any number never gives a
  larger one;
* `less_zero_sub` -- the sign of a difference compares its two numbers, whatever numbers they are;
* `AtLeastZero.zero_less_foldl_add_iff` -- numbers that are not below zero, the negative zero among
  them, add up to something above zero just where one of them is.
-/

namespace PowerShare

namespace Binary64

/-- A number with a clear sign bit, perhaps infinite. -/
structure Nonneg (x : Binary64) : Prop where
  negative_eq : x.negative = false
  isNaN_eq : x.isNaN = false

/-- A finite number above zero. -/
structure Positive (x : Binary64) : Prop extends Nonneg x where
  isFinite_eq : x.isFinite = true
  isZero_eq : x.isZero = false

/-! ## 1. Which numbers these are -/

theorem nonneg_zero : zero.Nonneg := ⟨rfl, by decide⟩

theorem nonneg_infinity : (infinity false).Nonneg := ⟨rfl, by decide⟩

theorem nonneg_nearest (num den : Nat) : (nearest false num den).Nonneg := ⟨rfl, isNaN_nearest ..⟩

theorem nonneg_ofInt {i : Int} (h : 0 ≤ i) : (ofInt i).Nonneg := by
  have hsign : decide (i < 0) = false := decide_eq_false (Int.not_lt.2 h)
  unfold ofInt
  rw [hsign]
  exact nonneg_nearest ..

theorem nonneg_ofNat (n : Nat) : (ofNat n).Nonneg := nonneg_ofInt (Int.natCast_nonneg n)

theorem Nonneg.place_nonneg {x : Binary64} (h : x.Nonneg) : 0 ≤ x.place := by
  unfold place
  rw [h.negative_eq]
  exact Int.natCast_nonneg _

theorem Nonneg.signedUnits_nonneg {x : Binary64} (h : x.Nonneg) : 0 ≤ x.signedUnits := by
  unfold signedUnits
  rw [h.negative_eq]
  exact Int.natCast_nonneg _

/-- A number is below nothing whose place is not larger. -/
theorem less_eq_false_of_place_le {x y : Binary64} (h : y.place ≤ x.place) : x.less y = false := by
  rw [← Bool.not_eq_true, less_eq_true_iff]
  exact fun hless => Int.not_lt.2 h hless.2.2

/-- What a number is not below, no number at a larger place is below. -/
theorem less_eq_false_of_less {x y z : Binary64} (hx : x.isNaN = false) (hplace : x.place ≤ y.place)
    (h : x.less z = false) : y.less z = false := by
  rw [← Bool.not_eq_true, less_eq_true_iff] at h ⊢
  exact fun hless => h ⟨hx, hless.2.1, Int.lt_of_le_of_lt hplace hless.2.2⟩

theorem less_eq_false_of_isNaN {x y : Binary64} (h : y.isNaN = true) : x.less y = false := by
  unfold less
  rw [h, Bool.not_true, Bool.and_false, Bool.false_and]

theorem Nonneg.less_zero {x : Binary64} (h : x.Nonneg) : x.less .zero = false :=
  less_eq_false_of_place_le h.place_nonneg

/-- A number other than zero is below zero, or its sign bit is clear. -/
theorem nonneg_of_not_less_zero {x : Binary64} (hnumber : x.isNaN = false)
    (hnonzero : x.isZero = false) (h : x.less .zero = false) : x.Nonneg := by
  refine ⟨?_, hnumber⟩
  have hmagnitude : x.magnitude ≠ 0 := beq_eq_false_iff_ne.1 hnonzero
  cases hnegative : x.negative with
  | false => rfl
  | true =>
    have hplace : x.place < zero.place := by
      have hzero : zero.place = 0 := rfl
      unfold place at hzero ⊢
      simp only [hnegative, if_true]
      omega
    have hless : x.less .zero = true := less_eq_true_iff.2 ⟨hnumber, by decide, hplace⟩
    exact absurd (h.symm.trans hless) Bool.false_ne_true

theorem not_isZero_of_isInfinite {x : Binary64} (h : x.isInfinite = true) : x.isZero = false := by
  have hmagnitude : x.magnitude = infinityMagnitude := beq_iff_eq.1 h
  refine beq_eq_false_iff_ne.2 ?_
  rw [hmagnitude]
  decide

theorem isFinite_of_not {x : Binary64} (hnumber : x.isNaN = false)
    (hinfinite : x.isInfinite = false) : x.isFinite = true := by
  have hle : ¬ infinityMagnitude < x.magnitude := of_decide_eq_false hnumber
  have hne : x.magnitude ≠ infinityMagnitude := beq_eq_false_iff_ne.1 hinfinite
  exact decide_eq_true (by omega)

/-! ## 2. Operations -/

theorem Nonneg.add {x y : Binary64} (hx : x.Nonneg) (hy : y.Nonneg) : (x + y).Nonneg := by
  show (x.add y).Nonneg
  have hsum : 0 ≤ x.signedUnits + y.signedUnits :=
    Int.add_nonneg hx.signedUnits_nonneg hy.signedUnits_nonneg
  unfold Binary64.add orNaN
  simp only [hx.isNaN_eq, hy.isNaN_eq, hx.negative_eq, hy.negative_eq, Bool.false_eq_true, if_false,
    bne_self_eq_false, Bool.and_false]
  split
  · exact hx
  · split
    · exact hy
    · split
      · exact nonneg_zero
      · rw [decide_eq_false (Int.not_lt.2 hsum)]
        exact nonneg_nearest ..

/-- A factor that is finite and not zero leaves no product undefined. -/
theorem Nonneg.mul {x y : Binary64} (hx : x.Nonneg) (hy : y.Positive) : (x * y).Nonneg := by
  show (x.mul y).Nonneg
  unfold Binary64.mul orNaN
  simp only [hx.isNaN_eq, hy.isNaN_eq, hx.negative_eq, hy.negative_eq, hy.isZero_eq,
    isInfinite_of_isFinite hy.isFinite_eq, Bool.false_eq_true, if_false, Bool.or_false,
    bne_self_eq_false]
  split
  · rename_i hinfinite
    rw [not_isZero_of_isInfinite hinfinite]
    exact nonneg_infinity
  · exact nonneg_nearest ..

theorem Nonneg.div {x y : Binary64} (hx : x.Nonneg) (hy : y.Positive) : (x / y).Nonneg := by
  show (x.div y).Nonneg
  unfold Binary64.div orNaN
  simp only [hx.isNaN_eq, hy.isNaN_eq, hx.negative_eq, hy.negative_eq, hy.isZero_eq,
    isInfinite_of_isFinite hy.isFinite_eq, Bool.false_eq_true, if_false, bne_self_eq_false]
  split
  · exact nonneg_infinity
  · exact nonneg_nearest ..

theorem nonneg_foldl_add {xs : List Binary64} (h : ∀ x ∈ xs, x.Nonneg) {start : Binary64}
    (hstart : start.Nonneg) : (xs.foldl (· + ·) start).Nonneg := by
  induction xs generalizing start with
  | nil => exact hstart
  | cons x rest ih =>
    exact ih (fun y hy => h y (List.mem_cons_of_mem x hy)) (hstart.add (h x List.mem_cons_self))

/-- The larger of any number and one that is not below zero is not below zero. -/
theorem Nonneg.larger_less_zero {x y : Binary64} (hx : x.isNaN = false) (hy : y.Nonneg) :
    (x.larger y).less .zero = false := by
  unfold Binary64.larger
  rw [hx]
  simp only [Bool.false_eq_true, if_false]
  split
  · exact hy.less_zero
  · rename_i hless
    refine less_eq_false_of_place_le (Int.le_trans hy.place_nonneg (Int.not_lt.1 fun hlt => ?_))
    exact hless (less_eq_true_iff.2 ⟨hx, hy.isNaN_eq, hlt⟩)

theorem place_le_larger {x : Binary64} (hx : x.isNaN = false) (y : Binary64) :
    x.place ≤ (x.larger y).place := by
  unfold Binary64.larger
  rw [hx]
  simp only [Bool.false_eq_true, if_false]
  split
  · rename_i hless
    exact Int.le_of_lt (less_eq_true_iff.1 hless).2.2
  · exact Int.le_refl _

/-- A number is not below itself rounded down by a number that is not below zero. -/
theorem place_sub_le {x y : Binary64} (hx : x.isFinite = true) (hy : y.isFinite = true)
    (h : 0 ≤ y.signedUnits) : (x - y).place ≤ x.place := by
  rw [sub_of_isFinite hx hy, ← place_ofUnits_signedUnits hx]
  split
  · have hzero : (ofUnits 0).place = 0 := by decide
    rw [place_of_magnitude_eq_zero rfl, ← hzero]
    exact place_ofUnits_mono (by omega)
  · exact place_ofUnits_mono (by omega)

/-- **Taking away what is not below zero gives nothing larger.** -/
theorem not_less_sub {x y : Binary64} (hx : x.isNaN = false) (hy : y.Nonneg) :
    x.less (x - y) = false := by
  have hself : x.less x = false := less_eq_false_of_place_le (Int.le_refl _)
  have hnumber : y.neg.isNaN = false := hy.isNaN_eq
  have hinfinite : y.neg.isInfinite = y.isInfinite := rfl
  by_cases hfinite : x.isInfinite = false ∧ y.isInfinite = false
  · have hxfinite : x.isFinite = true := isFinite_of_not hx hfinite.1
    have hyfinite : y.isFinite = true := isFinite_of_not hy.isNaN_eq hfinite.2
    exact less_eq_false_of_place_le (place_sub_le hxfinite hyfinite hy.signedUnits_nonneg)
  · show x.less (x.sub y) = false
    unfold sub Binary64.add orNaN
    simp only [hx, hy.isNaN_eq, hnumber, hinfinite, Bool.false_eq_true, if_false]
    split
    · split
      · exact less_eq_false_of_isNaN (by decide)
      · exact hself
    · -- Only the second number is infinite, and less infinity is the least number of all.
      rename_i hfirst
      have hsecond : y.isInfinite = true := by
        cases h : y.isInfinite with
        | true => rfl
        | false => exact absurd ⟨Bool.not_eq_true _ ▸ hfirst, h⟩ hfinite
      rw [if_pos hsecond]
      have hbound : ¬ infinityMagnitude < x.magnitude := of_decide_eq_false hx
      have hmagnitude : y.magnitude = infinityMagnitude := beq_iff_eq.1 hsecond
      refine less_eq_false_of_place_le ?_
      unfold place neg
      simp only [hy.negative_eq, Bool.not_false, if_true, hmagnitude]
      split <;> omega

/-! ## 3. Differences of any two numbers -/

theorem less_eq_decide {x y : Binary64} (hx : x.isNaN = false) (hy : y.isNaN = false) :
    x.less y = decide (x.place < y.place) := by
  unfold less
  rw [hx, hy]
  rfl

theorem less_eq_false_of_isNaN_left {x y : Binary64} (h : x.isNaN = true) : x.less y = false := by
  unfold less
  rw [h, Bool.not_true, Bool.false_and, Bool.false_and]

theorem isNaN_quieted {x : Binary64} (h : x.isNaN = true) : x.quieted.isNaN = true := by
  have hmagnitude : infinityMagnitude < x.magnitude := of_decide_eq_true h
  unfold quieted
  split
  · exact decide_eq_true (Nat.lt_of_lt_of_le hmagnitude (Nat.le_add_right _ _))
  · exact h

theorem isNaN_of_isInfinite {x : Binary64} (h : x.isInfinite = true) : x.isNaN = false := by
  have hmagnitude : x.magnitude = infinityMagnitude := beq_iff_eq.1 h
  exact decide_eq_false (by omega)

theorem place_of_isInfinite {x : Binary64} (h : x.isInfinite = true) :
    x.place = if x.negative then -(infinityMagnitude : Int) else infinityMagnitude := by
  have hmagnitude : x.magnitude = infinityMagnitude := beq_iff_eq.1 h
  unfold place
  rw [hmagnitude]

/-- Finite numbers lie strictly between the two infinite ones. -/
theorem place_of_isFinite {x : Binary64} (h : x.isFinite = true) :
    -(infinityMagnitude : Int) < x.place ∧ x.place < infinityMagnitude := by
  have hmagnitude : x.magnitude < infinityMagnitude := of_decide_eq_true h
  unfold place
  split <;> omega

/-- An infinite number is below zero if its sign bit is set. -/
theorem less_zero_of_isInfinite {x : Binary64} (h : x.isInfinite = true) :
    x.less .zero = x.negative := by
  have hpos : 0 < infinityMagnitude := by decide
  have hzero : (zero : Binary64).place = 0 := rfl
  rw [less_eq_decide (isNaN_of_isInfinite h) (by decide), hzero, place_of_isInfinite h]
  cases x.negative with
  | false => exact decide_eq_false (by rw [if_neg Bool.false_ne_true]; omega)
  | true => exact decide_eq_true (by rw [if_pos rfl]; omega)

/-- A difference with an infinite number, of which there is none between two of one side. -/
theorem sub_of_isInfinite {x y : Binary64} (hx : x.isNaN = false) (hy : y.isNaN = false)
    (h : x.isInfinite = true ∨ y.isInfinite = true) :
    x - y =
      if x.isInfinite then
        if y.isInfinite && x.negative == y.negative then invalid else x
      else y.neg := by
  show x.sub y = _
  have hnumber : y.neg.isNaN = false := hy
  have hinfinite : y.neg.isInfinite = y.isInfinite := rfl
  have hsign : (x.negative != y.neg.negative) = (x.negative == y.negative) := by
    show (x.negative != !y.negative) = _
    cases x.negative <;> cases y.negative <;> rfl
  unfold sub Binary64.add orNaN
  simp only [hx, hy, hnumber, hinfinite, hsign, Bool.false_eq_true, if_false]
  cases hxi : x.isInfinite with
  | true => rfl
  | false =>
    have hyi : y.isInfinite = true := h.resolve_left fun hx => Bool.false_ne_true (hxi.symm.trans hx)
    rw [hyi]
    rfl

/-- Two numbers of which one is infinite compare like their difference with zero. -/
theorem less_zero_sub_of_isInfinite {x y : Binary64} (hx : x.isNaN = false) (hy : y.isNaN = false)
    (h : x.isInfinite = true ∨ y.isInfinite = true) : (x - y).less .zero = x.less y := by
  have hpos : 0 < infinityMagnitude := by decide
  rw [sub_of_isInfinite hx hy h, less_eq_decide hx hy]
  cases hxi : x.isInfinite with
  | true =>
    have hxplace := place_of_isInfinite hxi
    rw [if_pos rfl, hxplace]
    cases hyi : y.isInfinite with
    | true =>
      rw [place_of_isInfinite hyi, Bool.true_and]
      by_cases hsame : x.negative = y.negative
      · have hnone : invalid.less .zero = false := by decide
        rw [hsame, beq_self_eq_true, if_pos rfl, hnone]
        exact (decide_eq_false (Int.lt_irrefl _)).symm
      · rw [beq_false_of_ne hsame, if_neg Bool.false_ne_true, less_zero_of_isInfinite hxi]
        cases hx : x.negative <;> cases hy : y.negative
        · exact absurd (hx.trans hy.symm) hsame
        · exact (decide_eq_false (by rw [if_neg Bool.false_ne_true, if_pos rfl]; omega)).symm
        · exact (decide_eq_true (by rw [if_pos rfl, if_neg Bool.false_ne_true]; omega)).symm
        · exact absurd (hx.trans hy.symm) hsame
    | false =>
      obtain ⟨hlow, hhigh⟩ := place_of_isFinite (isFinite_of_not hy hyi)
      rw [Bool.false_and, if_neg Bool.false_ne_true, less_zero_of_isInfinite hxi]
      cases x.negative with
      | false => exact (decide_eq_false (by rw [if_neg Bool.false_ne_true]; omega)).symm
      | true => exact (decide_eq_true (by rw [if_pos rfl]; omega)).symm
  | false =>
    have hyi : y.isInfinite = true := h.resolve_left fun hx => Bool.false_ne_true (hxi.symm.trans hx)
    have hneg : y.neg.isInfinite = true := hyi
    have hsign : y.neg.negative = !y.negative := rfl
    obtain ⟨hlow, hhigh⟩ := place_of_isFinite (isFinite_of_not hx hxi)
    rw [if_neg Bool.false_ne_true, less_zero_of_isInfinite hneg, hsign, place_of_isInfinite hyi]
    cases y.negative with
    | false => exact (decide_eq_true (by rw [if_neg Bool.false_ne_true]; omega)).symm
    | true => exact (decide_eq_false (by rw [if_pos rfl]; omega)).symm

/-- **A difference of any two numbers is below zero just where the first is the smaller one,** also
where they are infinite or no numbers. -/
theorem less_zero_sub (x y : Binary64) : (x - y).less .zero = x.less y := by
  cases hy : y.isNaN with
  | true =>
    have hresult : (x - y).isNaN = true := by
      show (x.sub y).isNaN = true
      unfold sub orNaN
      rw [if_pos hy]
      by_cases hx : x.isNaN = true
      · rw [if_pos hx]
        exact isNaN_quieted hx
      · rw [if_neg hx, if_pos hy]
        exact isNaN_quieted hy
    rw [less_eq_false_of_isNaN_left hresult, less_eq_false_of_isNaN hy]
  | false =>
    cases hx : x.isNaN with
    | true =>
      have hresult : x - y = x.quieted := by
        show x.sub y = x.quieted
        unfold sub Binary64.add orNaN
        rw [hy, hx]
        rfl
      rw [hresult, less_eq_false_of_isNaN_left (isNaN_quieted hx), less_eq_false_of_isNaN_left hx]
    | false =>
      by_cases hfinite : x.isInfinite = false ∧ y.isInfinite = false
      · rw [Bool.eq_iff_iff]
        exact sub_less_zero_iff (isFinite_of_not hx hfinite.1) (isFinite_of_not hy hfinite.2)
      · exact less_zero_sub_of_isInfinite hx hy (by grind)

/-! ## 4. Sums of numbers that are not below zero -/

/-- A number that is not below zero. Unlike `Nonneg`, the negative zero is one. -/
structure AtLeastZero (x : Binary64) : Prop where
  isNaN_eq : x.isNaN = false
  place_nonneg : 0 ≤ x.place

theorem Nonneg.atLeastZero {x : Binary64} (h : x.Nonneg) : x.AtLeastZero :=
  ⟨h.isNaN_eq, h.place_nonneg⟩

theorem atLeastZero_ofNat (n : Nat) : (ofNat n).AtLeastZero := (nonneg_ofNat n).atLeastZero

theorem atLeastZero_iff {x : Binary64} :
    x.AtLeastZero ↔ x.isNaN = false ∧ x.less .zero = false := by
  have hzero : (zero : Binary64).place = 0 := rfl
  constructor
  · intro h
    exact ⟨h.isNaN_eq, less_eq_false_of_place_le (hzero ▸ h.place_nonneg)⟩
  · intro ⟨hnumber, hless⟩
    rw [less_eq_decide hnumber (by decide), hzero] at hless
    exact ⟨hnumber, Int.not_lt.1 (of_decide_eq_false hless)⟩

namespace AtLeastZero

variable {x y : Binary64}

theorem zero_less_iff (h : x.AtLeastZero) : zero.less x = true ↔ 0 < x.place := by
  have hzero : (zero : Binary64).place = 0 := rfl
  rw [less_eq_decide (by decide) h.isNaN_eq, hzero, decide_eq_true_iff]

theorem negative_of_isInfinite (h : x.AtLeastZero) (hinfinite : x.isInfinite = true) :
    x.negative = false := by
  have hplace := h.place_nonneg
  have hpos : 0 < infinityMagnitude := by decide
  rw [place_of_isInfinite hinfinite] at hplace
  cases hx : x.negative with
  | false => rfl
  | true =>
    rw [hx, if_pos rfl] at hplace
    omega

theorem place_pos_of_isInfinite (h : x.AtLeastZero) (hinfinite : x.isInfinite = true) :
    0 < x.place := by
  rw [place_of_isInfinite hinfinite, h.negative_of_isInfinite hinfinite]
  decide

theorem signedUnits_nonneg (h : x.AtLeastZero) (hfinite : x.isFinite = true) :
    0 ≤ x.signedUnits := by
  have hplace := h.place_nonneg
  rw [← place_ofUnits_signedUnits hfinite] at hplace
  exact Int.not_lt.1 fun hlt => Int.not_lt.2 hplace ((place_ofUnits_neg_iff _).2 hlt)

/-- A sum with an infinite number is infinite. -/
theorem add_of_isInfinite (hx : x.AtLeastZero) (hy : y.AtLeastZero)
    (h : x.isInfinite = true ∨ y.isInfinite = true) : x + y = if x.isInfinite then x else y := by
  show x.add y = _
  unfold Binary64.add orNaN
  simp only [hx.isNaN_eq, hy.isNaN_eq, Bool.false_eq_true, if_false]
  split
  · rename_i hxi
    split
    · rename_i hboth
      obtain ⟨hyi, hsigns⟩ := Bool.and_eq_true_iff.1 hboth
      rw [hx.negative_of_isInfinite hxi, hy.negative_of_isInfinite hyi] at hsigns
      exact absurd hsigns (by decide)
    · rfl
  · rename_i hxi
    rw [if_pos (h.resolve_left hxi)]

theorem add_cases (hx : x.AtLeastZero) (hy : y.AtLeastZero) :
    (x + y).AtLeastZero ∧ (0 < (x + y).place ↔ 0 < x.place ∨ 0 < y.place) := by
  by_cases hfinite : x.isInfinite = false ∧ y.isInfinite = false
  · have hxfinite : x.isFinite = true := isFinite_of_not hx.isNaN_eq hfinite.1
    have hyfinite : y.isFinite = true := isFinite_of_not hy.isNaN_eq hfinite.2
    have hxunits := hx.signedUnits_nonneg hxfinite
    have hyunits := hy.signedUnits_nonneg hyfinite
    rw [add_of_isFinite hxfinite hyfinite, ← place_ofUnits_signedUnits hxfinite,
      ← place_ofUnits_signedUnits hyfinite, place_ofUnits_pos_iff, place_ofUnits_pos_iff]
    split
    · refine ⟨⟨rfl, Int.le_of_eq (place_of_magnitude_eq_zero rfl).symm⟩, ?_⟩
      rw [place_of_magnitude_eq_zero rfl]
      omega
    · have hpos : 0 < x.signedUnits + y.signedUnits := by omega
      rw [place_ofUnits_pos_iff]
      exact ⟨⟨isNaN_ofUnits _, Int.le_of_lt ((place_ofUnits_pos_iff _).2 hpos)⟩, by omega⟩
  · have hinfinite : x.isInfinite = true ∨ y.isInfinite = true := by grind
    rw [hx.add_of_isInfinite hy hinfinite]
    split
    · rename_i hxi
      have hpos := hx.place_pos_of_isInfinite hxi
      exact ⟨hx, iff_of_true hpos (.inl hpos)⟩
    · rename_i hxi
      have hpos := hy.place_pos_of_isInfinite (hinfinite.resolve_left hxi)
      exact ⟨hy, iff_of_true hpos (.inr hpos)⟩

/-- **A sum of numbers that are not below zero is above zero just where one of them is.** -/
theorem zero_less_foldl_add_iff {xs : List Binary64} {start : Binary64}
    (h : ∀ x ∈ start :: xs, x.AtLeastZero) :
    zero.less (xs.foldl (· + ·) start) = true ↔ ∃ x ∈ start :: xs, zero.less x = true := by
  induction xs generalizing start with
  | nil => simp
  | cons x rest ih =>
    have hstart := h start List.mem_cons_self
    have hx := h x (List.mem_cons_of_mem _ List.mem_cons_self)
    obtain ⟨hsum, hpos⟩ := hstart.add_cases hx
    have hall : ∀ y ∈ (start + x) :: rest, y.AtLeastZero := by
      intro y hy
      rcases List.mem_cons.1 hy with rfl | hy
      · exact hsum
      · exact h y (List.mem_cons_of_mem _ (List.mem_cons_of_mem _ hy))
    have hfirst : zero.less (start + x) = true ↔ zero.less start = true ∨ zero.less x = true := by
      rw [hsum.zero_less_iff, hstart.zero_less_iff, hx.zero_less_iff, hpos]
    rw [List.foldl_cons, ih hall]
    simp only [List.mem_cons, exists_eq_or_imp, hfirst, or_assoc]

end AtLeastZero

end Binary64

end PowerShare
