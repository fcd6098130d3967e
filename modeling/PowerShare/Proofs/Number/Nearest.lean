import PowerShare.Number.Binary64

/-!
# Rounding keeps the order

A quotient is rounded in two steps, a shift that fits it to the significand and a rounding of what
was shifted, and two quotients may be shifted by different amounts. The order of numbers survives
both:

* `nearestMagnitude_mono` -- a larger quotient is never rounded to a smaller magnitude;
* `nearestMagnitude_units` -- the units of a finite number are rounded to the number itself;
* `less_iff_signedUnits_lt` -- so finite numbers compare as the sizes they stand for;
* `sub_less_zero_iff` -- and a rounded difference is below zero just where the first number is the
  smaller one, however near the two are to each other or to zero.

Not here: how far a rounded quotient lies from the exact one.
-/

namespace PowerShare

/-! ## 1. Rounding to a natural number -/

theorem roundHalfEven_mono {a b : Nat} (h : a ≤ b) (den : Nat) :
    roundHalfEven a den ≤ roundHalfEven b den := by
  have hquot : a / den ≤ b / den := Nat.div_le_div_right h
  rcases Nat.lt_or_eq_of_le hquot with hlt | heq
  · rcases roundHalfEven_cases a den with ha | ha <;>
      rcases roundHalfEven_cases b den with hb | hb <;> omega
  · -- Equal floors: the remainders are in order, and one bound decides for both.
    have ha : den * (a / den) + a % den = a := Nat.div_add_mod a den
    have hb : den * (b / den) + b % den = b := Nat.div_add_mod b den
    rw [heq] at ha
    unfold roundHalfEven
    dsimp only
    rw [heq]
    split <;> split <;> omega

theorem le_roundHalfEven {q num den : Nat} (hden : 0 < den) (h : q * den ≤ num) :
    q ≤ roundHalfEven num den := by
  calc q = roundHalfEven (q * den) den := (roundHalfEven_mul q hden).symm
    _ ≤ roundHalfEven num den := roundHalfEven_mono h den

theorem roundHalfEven_le {q num den : Nat} (hden : 0 < den) (h : num ≤ q * den) :
    roundHalfEven num den ≤ q := by
  calc roundHalfEven num den ≤ roundHalfEven (q * den) den := roundHalfEven_mono h den
    _ = q := roundHalfEven_mul q hden

namespace Binary64

/-! ## 2. The shift -/

/-- By how many bits a quotient is too long for a significand. -/
def shiftOf (num den : Nat) : Nat := (num / den).log2 - 52

theorem nearestMagnitude_eq (num den : Nat) :
    nearestMagnitude num den =
      min (shiftOf num den * 2 ^ 52 + roundHalfEven num (den * 2 ^ shiftOf num den))
        infinityMagnitude := rfl

/-- Behind the shift, no more than the 53 bits of a significand are left. -/
theorem num_lt_of_shift (num : Nat) {den : Nat} (hden : 0 < den) :
    num < 2 ^ 53 * (den * 2 ^ shiftOf num den) := by
  have hlog : num / den < 2 ^ ((num / den).log2 + 1) := Nat.lt_log2_self
  have hexp : 2 ^ ((num / den).log2 + 1) ≤ 2 ^ (shiftOf num den + 53) :=
    Nat.pow_le_pow_right (by decide) (by unfold shiftOf; omega)
  have hquot : num < 2 ^ (shiftOf num den + 53) * den :=
    (Nat.div_lt_iff_lt_mul hden).1 (Nat.lt_of_lt_of_le hlog hexp)
  calc num < 2 ^ (shiftOf num den + 53) * den := hquot
    _ = 2 ^ 53 * (den * 2 ^ shiftOf num den) := by
      rw [Nat.pow_add, Nat.mul_comm (2 ^ shiftOf num den), Nat.mul_assoc,
        Nat.mul_comm (2 ^ shiftOf num den)]

/-- A quotient that is shifted at all keeps the highest bit of a significand. -/
theorem le_num_of_shift {num den : Nat} (hshift : 0 < shiftOf num den) :
    2 ^ 52 * (den * 2 ^ shiftOf num den) ≤ num := by
  have hne : num / den ≠ 0 := by
    intro hzero
    unfold shiftOf at hshift
    rw [hzero] at hshift
    exact absurd hshift (by decide)
  have hlog : 2 ^ (num / den).log2 ≤ num / den := Nat.log2_self_le hne
  have hexp : (num / den).log2 = shiftOf num den + 52 := by
    unfold shiftOf at hshift ⊢
    omega
  rw [hexp] at hlog
  calc 2 ^ 52 * (den * 2 ^ shiftOf num den) = 2 ^ (shiftOf num den + 52) * den := by
        rw [Nat.pow_add, Nat.mul_comm (2 ^ shiftOf num den), Nat.mul_assoc,
          Nat.mul_comm (2 ^ shiftOf num den)]
    _ ≤ num / den * den := Nat.mul_le_mul_right den hlog
    _ ≤ num := Nat.div_mul_le_self num den

theorem shiftOf_mono {a b : Nat} (h : a ≤ b) (den : Nat) : shiftOf a den ≤ shiftOf b den := by
  have hquot : a / den ≤ b / den := Nat.div_le_div_right h
  unfold shiftOf
  by_cases hzero : a / den = 0
  · rw [hzero]
    exact Nat.zero_le _
  · have hne : b / den ≠ 0 := fun hb => hzero (Nat.eq_zero_of_le_zero (hb ▸ hquot))
    have hlog : (a / den).log2 ≤ (b / den).log2 :=
      (Nat.le_log2 hne).2 (Nat.le_trans (Nat.log2_self_le hzero) hquot)
    omega

/-! ## 3. Rounding to a magnitude -/

/-- **A larger quotient is never rounded to a smaller magnitude.** -/
theorem nearestMagnitude_mono {a b den : Nat} (hden : 0 < den) (h : a ≤ b) :
    nearestMagnitude a den ≤ nearestMagnitude b den := by
  rw [nearestMagnitude_eq, nearestMagnitude_eq]
  have hunit (s : Nat) : 0 < den * 2 ^ s := Nat.mul_pos hden (Nat.two_pow_pos s)
  have hbound : shiftOf a den * 2 ^ 52 + roundHalfEven a (den * 2 ^ shiftOf a den) ≤
      shiftOf b den * 2 ^ 52 + roundHalfEven b (den * 2 ^ shiftOf b den) := by
    rcases Nat.lt_or_eq_of_le (shiftOf_mono h den) with hlt | heq
    · -- The larger shift alone is worth what the smaller quotient can make up for.
      have htop : roundHalfEven a (den * 2 ^ shiftOf a den) ≤ 2 ^ 53 :=
        roundHalfEven_le (hunit _) (Nat.le_of_lt (num_lt_of_shift a hden))
      have hlow : 2 ^ 52 ≤ roundHalfEven b (den * 2 ^ shiftOf b den) :=
        le_roundHalfEven (hunit _) (le_num_of_shift (by omega))
      omega
    · rw [heq]
      exact Nat.add_le_add_left (roundHalfEven_mono h _) _
  omega

/-- The shift is the only one that leaves a significand. -/
theorem shiftOf_eq {n s : Nat} (hlt : n < 2 ^ (s + 53)) (hle : s = 0 ∨ 2 ^ (s + 52) ≤ n) :
    shiftOf n 1 = s := by
  unfold shiftOf
  rw [Nat.div_one]
  by_cases hzero : n = 0
  · subst hzero
    rcases hle with rfl | hle
    · rfl
    · exact absurd hle (Nat.not_le_of_lt (Nat.two_pow_pos _))
  · have hupper : n.log2 < s + 53 := (Nat.log2_lt hzero).2 hlt
    rcases hle with rfl | hle
    · omega
    · have hlower : s + 52 ≤ n.log2 := (Nat.le_log2 hzero).2 hle
      omega

/-- **The units of a finite number are rounded to the number itself.** -/
theorem nearestMagnitude_units {x : Binary64} (h : x.isFinite = true) :
    nearestMagnitude x.units 1 = x.magnitude := by
  have hfinite : x.magnitude < infinityMagnitude := of_decide_eq_true h
  have hfraction : x.magnitude % 2 ^ 52 < 2 ^ 52 := Nat.mod_lt _ (by decide)
  rw [nearestMagnitude_eq]
  unfold units
  dsimp only
  split
  · rename_i hexponent
    rw [shiftOf_eq (s := 0) (by omega) (.inl rfl)]
    simp only [Nat.zero_mul, Nat.pow_zero, Nat.mul_one, Nat.zero_add]
    rw [← Nat.mul_one (x.magnitude % 2 ^ 52), roundHalfEven_mul _ (by decide)]
    omega
  · rename_i hexponent
    generalize hs : x.magnitude / 2 ^ 52 - 1 = s
    have hpow : 0 < 2 ^ s := Nat.two_pow_pos s
    have hlow : 2 ^ (s + 52) ≤ (2 ^ 52 + x.magnitude % 2 ^ 52) * 2 ^ s := by
      rw [Nat.pow_add, Nat.mul_comm]
      exact Nat.mul_le_mul_right _ (Nat.le_add_right _ _)
    have htop : (2 ^ 52 + x.magnitude % 2 ^ 52) * 2 ^ s < 2 ^ (s + 53) := by
      rw [Nat.pow_add, Nat.mul_comm (2 ^ s)]
      exact Nat.mul_lt_mul_of_pos_right (by omega) hpow
    rw [shiftOf_eq htop (.inr hlow), Nat.one_mul, roundHalfEven_mul _ hpow]
    omega

/-- Units of which there is one at least are not rounded to zero. -/
theorem nearestMagnitude_pos {n : Nat} (h : 0 < n) : 0 < nearestMagnitude n 1 := by
  have hone : nearestMagnitude 1 1 = 1 := by decide
  have hmono : nearestMagnitude 1 1 ≤ nearestMagnitude n 1 := nearestMagnitude_mono (by decide) h
  omega

@[simp] theorem isNaN_nearest (negative : Bool) (num den : Nat) :
    (nearest negative num den).isNaN = false := by
  have h : nearestMagnitude num den ≤ infinityMagnitude := Nat.min_le_right _ _
  exact decide_eq_false (Nat.not_lt_of_le h)

/-! ## 4. Whole numbers of units -/

/-- The number nearest to so many units. -/
def ofUnits (n : Int) : Binary64 := nearest (n < 0) n.natAbs 1

@[simp] theorem isNaN_ofUnits (n : Int) : (ofUnits n).isNaN = false := isNaN_nearest ..

theorem place_ofUnits (n : Int) :
    (ofUnits n).place =
      if n < 0 then -(nearestMagnitude n.natAbs 1 : Int) else nearestMagnitude n.natAbs 1 := by
  unfold ofUnits nearest place
  by_cases h : n < 0 <;> simp [h]

theorem place_ofUnits_mono {a b : Int} (h : a ≤ b) : (ofUnits a).place ≤ (ofUnits b).place := by
  rw [place_ofUnits, place_ofUnits]
  split
  · split
    · have hmono : nearestMagnitude b.natAbs 1 ≤ nearestMagnitude a.natAbs 1 :=
        nearestMagnitude_mono (by decide) (by omega)
      omega
    · omega
  · have hmono : nearestMagnitude a.natAbs 1 ≤ nearestMagnitude b.natAbs 1 :=
      nearestMagnitude_mono (by decide) (by omega)
    split <;> omega

theorem place_ofUnits_signedUnits {x : Binary64} (h : x.isFinite = true) :
    (ofUnits x.signedUnits).place = x.place := by
  have hunits := nearestMagnitude_units h
  have hzero : nearestMagnitude 0 1 = 0 := by decide
  rw [place_ofUnits]
  unfold signedUnits place
  cases x.negative with
  | false =>
    simp only [Bool.false_eq_true, if_false, Int.natAbs_natCast, hunits]
    rw [if_neg (by omega)]
  | true =>
    simp only [if_true, Int.natAbs_neg, Int.natAbs_natCast, hunits]
    split
    · rfl
    · -- No units at all: this is the negative zero.
      have hnone : x.units = 0 := by omega
      rw [hnone, hzero] at hunits
      omega

/-- Where the place says on which side of zero a number of units lies. -/
theorem place_ofUnits_neg_iff (n : Int) : (ofUnits n).place < 0 ↔ n < 0 := by
  rw [place_ofUnits]
  split
  · rename_i h
    have hpos : 0 < nearestMagnitude n.natAbs 1 := nearestMagnitude_pos (by omega)
    omega
  · omega

theorem place_ofUnits_pos_iff (n : Int) : 0 < (ofUnits n).place ↔ 0 < n := by
  rw [place_ofUnits]
  split
  · omega
  · rename_i h
    constructor
    · intro hpos
      refine Int.lt_iff_le_and_ne.2 ⟨Int.not_lt.1 h, fun hzero => ?_⟩
      have hnone : nearestMagnitude 0 1 = 0 := by decide
      rw [← hzero, Int.natAbs_zero, hnone] at hpos
      exact absurd hpos (by decide)
    · intro hpos
      have := nearestMagnitude_pos (n := n.natAbs) (by omega)
      omega

theorem neg_ofUnits {n : Int} (h : n ≠ 0) : -ofUnits n = ofUnits (-n) := by
  show (ofUnits n).neg = ofUnits (-n)
  have hsign : (!decide (n < 0)) = decide (-n < 0) := by
    rw [← decide_not, decide_eq_decide]
    omega
  simp only [neg, ofUnits, nearest, hsign, Int.natAbs_neg]

/-! ## 5. Comparing, adding and subtracting finite numbers -/

theorem isNaN_of_isFinite {x : Binary64} (h : x.isFinite = true) : x.isNaN = false := by
  have hfinite : x.magnitude < infinityMagnitude := of_decide_eq_true h
  exact decide_eq_false (Nat.not_lt_of_lt hfinite)

theorem isInfinite_of_isFinite {x : Binary64} (h : x.isFinite = true) : x.isInfinite = false := by
  have hfinite : x.magnitude < infinityMagnitude := of_decide_eq_true h
  exact beq_eq_false_iff_ne.2 (Nat.ne_of_lt hfinite)

theorem less_eq_true_iff {x y : Binary64} :
    x.less y = true ↔ x.isNaN = false ∧ y.isNaN = false ∧ x.place < y.place := by
  simp [less, and_assoc]

/-- Numbers at the same place stand for the same size. -/
theorem signedUnits_eq_of_place_eq {x y : Binary64} (h : x.place = y.place) :
    x.signedUnits = y.signedUnits := by
  have hmagnitude : x.magnitude = y.magnitude := by
    unfold place at h
    split at h <;> split at h <;> omega
  have hunits : x.units = y.units := by
    unfold units
    rw [hmagnitude]
  unfold signedUnits
  rw [hunits]
  by_cases hzero : y.magnitude = 0
  · have hnone : y.units = 0 := by
      unfold units
      rw [hzero]
      rfl
    rw [hnone]
    split <;> split <;> rfl
  · have hsign : x.negative = y.negative := by
      unfold place at h
      cases hx : x.negative <;> cases hy : y.negative <;> simp [hx, hy] at h ⊢ <;> omega
    rw [hsign]

/-- **Finite numbers compare as the sizes they stand for.** -/
theorem less_iff_signedUnits_lt {x y : Binary64} (hx : x.isFinite = true) (hy : y.isFinite = true) :
    x.less y = true ↔ x.signedUnits < y.signedUnits := by
  have hplaces : x.less y = true ↔ x.place < y.place := by
    simp [less, isNaN_of_isFinite hx, isNaN_of_isFinite hy]
  rw [hplaces, ← place_ofUnits_signedUnits hx, ← place_ofUnits_signedUnits hy]
  constructor
  · intro hlt
    refine Int.not_le.1 fun hle => ?_
    exact Int.not_le.2 hlt (place_ofUnits_mono hle)
  · intro hlt
    refine Int.lt_iff_le_and_ne.2 ⟨place_ofUnits_mono (Int.le_of_lt hlt), fun heq => ?_⟩
    rw [place_ofUnits_signedUnits hx, place_ofUnits_signedUnits hy] at heq
    exact Int.ne_of_lt hlt (signedUnits_eq_of_place_eq heq)

theorem larger_of_isFinite {x y : Binary64} (hx : x.isFinite = true) :
    x.larger y = if x.less y then y else x := by
  unfold larger
  rw [isNaN_of_isFinite hx]
  rfl

/-- The size of a finite number is rounded to the number. -/
theorem nearest_units {x : Binary64} (hx : x.isFinite = true) :
    nearest x.negative x.units 1 = x := by
  have hmagnitude : nearestMagnitude x.units 1 = x.magnitude := nearestMagnitude_units hx
  obtain ⟨negative, magnitude, _⟩ := x
  unfold nearest
  simp only [hmagnitude]

@[simp] theorem signedUnits_neg (x : Binary64) : (-x).signedUnits = -x.signedUnits := by
  show x.neg.signedUnits = -x.signedUnits
  have hunits : x.neg.units = x.units := rfl
  unfold signedUnits
  rw [hunits]
  cases hx : x.negative <;> simp [neg, hx]

/-- Both zeros lie at place zero. -/
theorem place_of_magnitude_eq_zero {x : Binary64} (h : x.magnitude = 0) : x.place = 0 := by
  unfold place
  rw [h]
  split <;> rfl

theorem add_of_isFinite {x y : Binary64} (hx : x.isFinite = true) (hy : y.isFinite = true) :
    x + y =
      if x.signedUnits + y.signedUnits = 0 then ⟨x.negative && y.negative, 0, by decide⟩
      else ofUnits (x.signedUnits + y.signedUnits) := by
  show x.add y = _
  unfold add orNaN
  simp only [isNaN_of_isFinite hx, isNaN_of_isFinite hy, isInfinite_of_isFinite hx,
    isInfinite_of_isFinite hy, Bool.false_eq_true, if_false]
  rfl

theorem sub_of_isFinite {x y : Binary64} (hx : x.isFinite = true) (hy : y.isFinite = true) :
    x - y =
      if x.signedUnits - y.signedUnits = 0 then ⟨x.negative && !y.negative, 0, by decide⟩
      else ofUnits (x.signedUnits - y.signedUnits) := by
  show x.sub y = _
  have hneg : y.neg.signedUnits = -y.signedUnits := signedUnits_neg y
  have hfinite : y.neg.isFinite = true := hy
  unfold sub add orNaN
  simp only [isNaN_of_isFinite hx, isNaN_of_isFinite hy, isNaN_of_isFinite hfinite,
    isInfinite_of_isFinite hx, isInfinite_of_isFinite hfinite, Bool.false_eq_true, if_false, hneg]
  rfl

theorem isNaN_sub_of_isFinite {x y : Binary64} (hx : x.isFinite = true) (hy : y.isFinite = true) :
    (x - y).isNaN = false := by
  rw [sub_of_isFinite hx hy]
  split
  · rfl
  · exact isNaN_ofUnits _

/-- **A difference is below zero just where the first number is the smaller one.** However near two
numbers are, their difference is not rounded to zero. -/
theorem sub_less_zero_iff {x y : Binary64} (hx : x.isFinite = true) (hy : y.isFinite = true) :
    (x - y).less .zero = true ↔ x.less y = true := by
  rw [less_iff_signedUnits_lt hx hy, sub_of_isFinite hx hy, less_eq_true_iff]
  split
  · rename_i hzero
    rw [place_of_magnitude_eq_zero rfl]
    simp only [zero, place]
    omega
  · have hplace := place_ofUnits_neg_iff (x.signedUnits - y.signedUnits)
    have hzero : (zero : Binary64).place = 0 := rfl
    rw [hzero, hplace, isNaN_ofUnits]
    have hnumber : (zero : Binary64).isNaN = false := by decide
    simp only [hnumber, true_and]
    omega

theorem zero_less_neg (x : Binary64) : zero.less (-x) = x.less zero := by
  show zero.less x.neg = x.less zero
  have hplace : x.neg.place = -x.place := by
    unfold place neg
    cases x.negative <;> simp
  have hnumber : x.neg.isNaN = x.isNaN := rfl
  have hzero : zero.place = 0 := rfl
  unfold less
  rw [hplace, hnumber, hzero]
  have hsign : decide (0 < -x.place) = decide (x.place < 0) := decide_eq_decide.2 (by omega)
  rw [hsign, Bool.and_comm (!zero.isNaN)]

/-- The difference of a smaller and a larger number, negated, is that of the larger and the
smaller. -/
theorem neg_sub_of_less {x y : Binary64} (hx : x.isFinite = true) (hy : y.isFinite = true)
    (h : x.less y = true) : -(x - y) = y - x := by
  have hlt : x.signedUnits < y.signedUnits := (less_iff_signedUnits_lt hx hy).1 h
  have hne : x.signedUnits - y.signedUnits ≠ 0 := by omega
  rw [sub_of_isFinite hx hy, sub_of_isFinite hy hx, if_neg hne, if_neg (by omega),
    neg_ofUnits hne, Int.neg_sub]

end Binary64

end PowerShare
