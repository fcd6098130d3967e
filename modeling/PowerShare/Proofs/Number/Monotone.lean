import PowerShare.Proofs.Number.Bound

/-!
# Operations that keep the order

Numbers are compared as they are read: the two zeros are equal, and a NaN is at most nothing. Every
operation rounds once, and rounding keeps the order of exact results, so an operation keeps the
order of its operands wherever its exact result does:

* `x ≤ y` -- the first number is less than the second one or equal to it, so that neither is a NaN;
* `ofInt_le_ofInt` -- integers, however many bits they have;
* `mul_le_mul_right` and `div_le_div_right` -- a finite factor that is not below zero, and a divisor
  above zero;
* `AtLeastZero.add_le_add` -- sums of numbers that are not below zero, infinite ones among them.

Not here: sums of numbers of both signs, which have no result where two infinite ones meet.
-/

namespace PowerShare

namespace Binary64

/-! ## 1. At most -/

/-- Numerical at-most. A NaN is at most nothing, not even itself. -/
instance : LE Binary64 := ⟨fun x y => (x.less y || x.equal y) = true⟩

theorem le_iff {x y : Binary64} :
    x ≤ y ↔ x.isNaN = false ∧ y.isNaN = false ∧ x.place ≤ y.place := by
  show (x.less y || x.equal y) = true ↔ _
  unfold less equal
  cases x.isNaN with
  | true => simp
  | false =>
    cases y.isNaN with
    | true => simp
    | false =>
      simp only [Bool.not_false, Bool.true_and, Bool.or_eq_true, decide_eq_true_eq, beq_iff_eq,
        true_and]
      exact Int.le_iff_lt_or_eq.symm

theorem le_of_place_le {x y : Binary64} (hx : x.isNaN = false) (hy : y.isNaN = false)
    (h : x.place ≤ y.place) : x ≤ y := le_iff.2 ⟨hx, hy, h⟩

theorem isNaN_left_of_le {x y : Binary64} (h : x ≤ y) : x.isNaN = false := (le_iff.1 h).1

theorem isNaN_right_of_le {x y : Binary64} (h : x ≤ y) : y.isNaN = false := (le_iff.1 h).2.1

theorem place_le_of_le {x y : Binary64} (h : x ≤ y) : x.place ≤ y.place := (le_iff.1 h).2.2

theorem zero_le_iff {x : Binary64} : zero ≤ x ↔ x.AtLeastZero :=
  ⟨fun h => ⟨isNaN_right_of_le h, place_le_of_le h⟩,
    fun h => le_of_place_le rfl h.isNaN_eq h.place_nonneg⟩

/-- Every number lies between the two infinite ones. -/
theorem place_bounds {x : Binary64} (h : x.isNaN = false) :
    -(infinityMagnitude : Int) ≤ x.place ∧ x.place ≤ infinityMagnitude := by
  have hle : ¬ infinityMagnitude < x.magnitude := of_decide_eq_false h
  unfold place
  split <;> omega

/-- Numbers compare as the sizes they stand for. -/
theorem signedUnits_le_of_le {x y : Binary64} (hx : x.isFinite = true) (hy : y.isFinite = true)
    (h : x ≤ y) : x.signedUnits ≤ y.signedUnits := by
  refine Int.not_lt.1 fun hlt => ?_
  have hless : y.less x = true := (less_iff_signedUnits_lt hy hx).2 hlt
  exact Int.not_lt.2 (place_le_of_le h) (less_eq_true_iff.1 hless).2.2

theorem place_nearest (negative : Bool) (num den : Nat) :
    (nearest negative num den).place =
      if negative then -(nearestMagnitude num den : Int) else nearestMagnitude num den := rfl

/-- Nothing is rounded to zero. -/
theorem nearestMagnitude_zero (den : Nat) : nearestMagnitude 0 den = 0 := by
  have hround (d : Nat) : roundHalfEven 0 d = 0 := by
    unfold roundHalfEven
    rw [Nat.zero_div, Nat.zero_mod]
    dsimp only
    rw [if_pos (by omega)]
  have hshift : shiftOf 0 den = 0 := by
    unfold shiftOf
    rw [Nat.zero_div, Nat.log2_zero]
  rw [nearestMagnitude_eq, hshift, hround]
  rfl

theorem units_of_magnitude_eq_zero {x : Binary64} (h : x.magnitude = 0) : x.units = 0 := by
  unfold units
  rw [h]
  rfl

/-- **Scaling and rounding keep the order,** on either side of zero and across it. -/
theorem place_nearest_units_mono {x y : Binary64} (h : x.place ≤ y.place) (factor : Nat) {den : Nat}
    (hden : 0 < den) :
    (nearest x.negative (x.units * factor) den).place ≤
      (nearest y.negative (y.units * factor) den).place := by
  have hmono {a b : Binary64} (hab : a.magnitude ≤ b.magnitude) :
      nearestMagnitude (a.units * factor) den ≤ nearestMagnitude (b.units * factor) den :=
    nearestMagnitude_mono hden (Nat.mul_le_mul_right _ (units_le_of_magnitude_le hab))
  rw [place_nearest, place_nearest]
  unfold place at h
  cases hx : x.negative <;> cases hy : y.negative <;> rw [hx, hy] at h <;>
    simp only [Bool.false_eq_true, if_false, if_true] at h ⊢
  · exact Int.ofNat_le.2 (hmono (Int.ofNat_le.1 h))
  · -- Only two zeros are in this order.
    have hxzero : x.units = 0 := units_of_magnitude_eq_zero (by omega)
    have hyzero : y.units = 0 := units_of_magnitude_eq_zero (by omega)
    rw [hxzero, hyzero, Nat.zero_mul, nearestMagnitude_zero]
    decide
  · omega
  · have hreversed := hmono (a := y) (b := x) (by omega)
    omega

/-! ## 2. Integers -/

theorem ofInt_eq_ofUnits (i : Int) : ofInt i = ofUnits (i * oneUnits) := by
  have hpos : (0 : Int) < oneUnits := Int.natCast_pos.2 oneUnits_pos
  have hsign : i < 0 ↔ i * oneUnits < 0 := by
    constructor
    · exact fun h => Int.mul_neg_of_neg_of_pos h hpos
    · refine fun h => Int.not_le.1 fun hle => ?_
      exact Int.not_lt.2 (Int.mul_nonneg hle (Int.le_of_lt hpos)) h
  unfold ofInt ofUnits
  rw [decide_eq_decide.2 hsign, Int.natAbs_mul, Int.natAbs_natCast]

theorem isNaN_ofInt (i : Int) : (ofInt i).isNaN = false := isNaN_nearest ..

/-- **Integers are rounded in their order.** -/
theorem ofInt_le_ofInt {i j : Int} (h : i ≤ j) : ofInt i ≤ ofInt j := by
  refine le_of_place_le (isNaN_ofInt i) (isNaN_ofInt j) ?_
  rw [ofInt_eq_ofUnits, ofInt_eq_ofUnits]
  exact place_ofUnits_mono (Int.mul_le_mul_of_nonneg_right h (Int.natCast_nonneg _))

theorem ofNat_le_ofNat {n m : Nat} (h : n ≤ m) : ofNat n ≤ ofNat m :=
  ofInt_le_ofInt (Int.ofNat_le.2 h)

/-! ## 3. Products and quotients -/

theorem mul_of_isFinite {x y : Binary64} (hx : x.isFinite = true) (hy : y.isFinite = true) :
    x * y = nearest (x.negative != y.negative) (x.units * y.units) oneUnits := by
  show x.mul y = _
  unfold Binary64.mul orNaN
  simp only [isNaN_of_isFinite hx, isNaN_of_isFinite hy, isInfinite_of_isFinite hx,
    isInfinite_of_isFinite hy, Bool.false_eq_true, if_false, Bool.or_self]

/-- A number that is not below zero has a clear sign bit, or it is the negative zero. -/
theorem AtLeastZero.magnitude_of_negative {x : Binary64} (h : x.AtLeastZero)
    (hx : x.negative = true) : x.magnitude = 0 := by
  have hplace := h.place_nonneg
  unfold place at hplace
  rw [hx, if_pos rfl] at hplace
  omega

/-- **A finite factor that is not below zero keeps the order of finite numbers,** however large the
products are. -/
theorem mul_le_mul_right {x y c : Binary64} (hx : x.isFinite = true) (hy : y.isFinite = true)
    (h : x ≤ y) (hc : c.isFinite = true) (hzero : c.AtLeastZero) : x * c ≤ y * c := by
  rw [mul_of_isFinite hx hc, mul_of_isFinite hy hc]
  refine le_of_place_le (isNaN_nearest ..) (isNaN_nearest ..) ?_
  cases hsign : c.negative with
  | false =>
    rw [Bool.bne_false, Bool.bne_false]
    exact place_nearest_units_mono (place_le_of_le h) _ oneUnits_pos
  | true =>
    -- The negative zero: all products are zero.
    have hnone : c.units = 0 := units_of_magnitude_eq_zero (hzero.magnitude_of_negative hsign)
    rw [hnone, Nat.mul_zero, Nat.mul_zero, place_nearest, place_nearest, nearestMagnitude_zero]
    split <;> split <;> decide

/-- Products of finite numbers that are not below zero are not below zero either. -/
theorem AtLeastZero.mul {x c : Binary64} (hx : x.AtLeastZero) (hxfinite : x.isFinite = true)
    (hc : c.AtLeastZero) (hcfinite : c.isFinite = true) : (x * c).AtLeastZero := by
  have hzero : (zero * c).place = 0 := by
    have hnone : zero.units = 0 := rfl
    rw [mul_of_isFinite rfl hcfinite, hnone, Nat.zero_mul, place_nearest, nearestMagnitude_zero]
    split <;> rfl
  have hmul := mul_le_mul_right rfl hxfinite (zero_le_iff.2 hx) hcfinite hc
  exact ⟨isNaN_right_of_le hmul, hzero ▸ place_le_of_le hmul⟩

theorem Positive.units_pos {x : Binary64} (h : x.Positive) : 0 < x.units := by
  refine Nat.pos_of_ne_zero fun hzero => ?_
  have hmagnitude : x.magnitude = 0 := by
    rw [← nearestMagnitude_units h.isFinite_eq, hzero, nearestMagnitude_zero]
  have hnonzero : x.magnitude ≠ 0 := beq_eq_false_iff_ne.1 h.isZero_eq
  exact hnonzero hmagnitude

theorem positive_ofNat_of_fits {n : Nat} (hpos : 0 < n) (hfits : Fits (n * oneUnits)) :
    (ofNat n).Positive := by
  obtain ⟨hfinite, hunits⟩ := units_ofNat_of_fits hfits
  refine ⟨nonneg_ofNat n, hfinite, beq_eq_false_iff_ne.2 fun hzero => ?_⟩
  rw [units_of_magnitude_eq_zero hzero] at hunits
  exact Nat.ne_of_lt (Nat.mul_pos hpos oneUnits_pos) hunits

theorem positive_ofNat {n : Nat} (hpos : 0 < n) (hlt : n < 2 ^ 53) : (ofNat n).Positive :=
  positive_ofNat_of_fits hpos (fits_mul_pow hlt (by decide))

theorem div_of_positive {x d : Binary64} (hx : x.isNaN = false) (hd : d.Positive) :
    x / d = if x.isInfinite then infinity x.negative
      else nearest x.negative (x.units * oneUnits) d.units := by
  show x.div d = _
  unfold Binary64.div orNaN
  simp only [hx, hd.isNaN_eq, hd.negative_eq, hd.isZero_eq, isInfinite_of_isFinite hd.isFinite_eq,
    Bool.false_eq_true, if_false, Bool.bne_false]

theorem isNaN_div_of_positive {x d : Binary64} (hx : x.isNaN = false) (hd : d.Positive) :
    (x / d).isNaN = false := by
  rw [div_of_positive hx hd]
  split
  · cases x.negative <;> decide
  · exact isNaN_nearest ..

/-- An infinite number stays where it is. -/
theorem place_div_of_isInfinite {x d : Binary64} (h : x.isInfinite = true) (hd : d.Positive) :
    (x / d).place = x.place := by
  rw [div_of_positive (isNaN_of_isInfinite h) hd, if_pos h, place_of_isInfinite h]
  rfl

theorem isInfinite_of_place_le {x : Binary64} (hx : x.isNaN = false)
    (h : (infinityMagnitude : Int) ≤ x.place) : x.isInfinite = true := by
  cases hxi : x.isInfinite with
  | true => rfl
  | false =>
    have habove := (place_of_isFinite (isFinite_of_not hx hxi)).2
    omega

/-- **A divisor above zero keeps the order of all numbers,** infinite ones among them. -/
theorem div_le_div_right {x y d : Binary64} (h : x ≤ y) (hd : d.Positive) : x / d ≤ y / d := by
  obtain ⟨hx, hy, hplace⟩ := le_iff.1 h
  have hxd := isNaN_div_of_positive hx hd
  have hyd := isNaN_div_of_positive hy hd
  refine le_of_place_le hxd hyd ?_
  cases hxi : x.isInfinite with
  | true =>
    rw [place_div_of_isInfinite hxi hd]
    have hxplace := place_of_isInfinite hxi
    cases hsign : x.negative with
    | true =>
      rw [hxplace, hsign]
      exact (place_bounds hyd).1
    | false =>
      -- Behind positive infinity there is nothing but itself.
      rw [hsign, if_neg Bool.false_ne_true] at hxplace
      rw [place_div_of_isInfinite (isInfinite_of_place_le hy (hxplace ▸ hplace)) hd]
      exact hplace
  | false =>
    cases hyi : y.isInfinite with
    | false =>
      rw [div_of_positive hx hd, div_of_positive hy hd, hxi, hyi]
      exact place_nearest_units_mono hplace _ hd.units_pos
    | true =>
      have hbelow := (place_of_isFinite (isFinite_of_not hx hxi)).1
      have hyplace := place_of_isInfinite hyi
      rw [place_div_of_isInfinite hyi hd, hyplace]
      cases hsign : y.negative with
      | false => exact (place_bounds hxd).2
      | true =>
        rw [hyplace, hsign, if_pos rfl] at hplace
        omega

/-! ## 4. Sums -/

theorem place_add_of_isFinite {x y : Binary64} (hx : x.isFinite = true) (hy : y.isFinite = true) :
    (x + y).place = (ofUnits (x.signedUnits + y.signedUnits)).place := by
  have hzero : (ofUnits 0).place = 0 := by decide
  rw [add_of_isFinite hx hy]
  split
  · rename_i hsum
    rw [hsum, hzero, place_of_magnitude_eq_zero rfl]
  · rfl

namespace AtLeastZero

variable {x x' y y' : Binary64}

theorem mono (hx : x.AtLeastZero) (h : x ≤ x') : x'.AtLeastZero :=
  ⟨isNaN_right_of_le h, Int.le_trans hx.place_nonneg (place_le_of_le h)⟩

/-- What is at most a finite number and not below zero is finite. -/
theorem isFinite_of_le (hx : x.AtLeastZero) (h : x ≤ x') (hfinite : x'.isInfinite = false) :
    x.isFinite = true := by
  refine isFinite_of_not hx.isNaN_eq (Bool.eq_false_iff.2 fun hinfinite => ?_)
  have hplace := place_le_of_le h
  have habove := (place_of_isFinite (isFinite_of_not (isNaN_right_of_le h) hfinite)).2
  rw [place_of_isInfinite hinfinite, hx.negative_of_isInfinite hinfinite,
    if_neg Bool.false_ne_true] at hplace
  omega

/-- **Sums of numbers that are not below zero keep the order of both.** -/
theorem add_le_add (hx : x.AtLeastZero) (hy : y.AtLeastZero) (hxx' : x ≤ x') (hyy' : y ≤ y') :
    x + y ≤ x' + y' := by
  have hx' := hx.mono hxx'
  have hy' := hy.mono hyy'
  refine le_of_place_le (hx.add_cases hy).1.isNaN_eq (hx'.add_cases hy').1.isNaN_eq ?_
  by_cases hfinite : x'.isInfinite = false ∧ y'.isInfinite = false
  · have hxfinite := hx.isFinite_of_le hxx' hfinite.1
    have hyfinite := hy.isFinite_of_le hyy' hfinite.2
    have hx'finite := isFinite_of_not hx'.isNaN_eq hfinite.1
    have hy'finite := isFinite_of_not hy'.isNaN_eq hfinite.2
    rw [place_add_of_isFinite hxfinite hyfinite, place_add_of_isFinite hx'finite hy'finite]
    exact place_ofUnits_mono (Int.add_le_add (signedUnits_le_of_le hxfinite hx'finite hxx')
      (signedUnits_le_of_le hyfinite hy'finite hyy'))
  · -- An infinite sum is not below any other number.
    have hinfinite : x'.isInfinite = true ∨ y'.isInfinite = true := by grind
    have htop {z : Binary64} (hz : z.AtLeastZero) (h : z.isInfinite = true) :
        z.place = infinityMagnitude := by
      rw [place_of_isInfinite h, hz.negative_of_isInfinite h, if_neg Bool.false_ne_true]
    have hsum : (x' + y').place = infinityMagnitude := by
      rw [hx'.add_of_isInfinite hy' hinfinite]
      split
      · rename_i h
        exact htop hx' h
      · rename_i h
        exact htop hy' (hinfinite.resolve_left h)
    rw [hsum]
    exact (place_bounds (hx.add_cases hy).1.isNaN_eq).2

end AtLeastZero

end Binary64

end PowerShare
