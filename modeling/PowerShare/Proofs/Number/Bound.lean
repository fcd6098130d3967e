import PowerShare.Proofs.Number.Sign

/-!
# Bounds that rounding keeps

A rounded result may be larger than the exact one, but never passes a number that is exact itself.
So bounds that are themselves sizes of finite numbers are kept by every operation, and what they
bound is finite:

* `Fits` -- a count of units that is the size of a finite number; `fits_mul_pow` says that any 53
  bits followed by zeros are one;
* `Within` -- a finite number of at most so many units;
* `within_nearest` and, from it, `Within.add`, `Within.sub`, `Within.mul`, `Within.div` -- what
  rounding and the four operations keep;
* `UpTo` -- the same bounds counted in ones, as far as they are exact;
* `iterate_add_one` -- counting by ones is exact as long as the count has no more than 53 bits.
-/

namespace PowerShare

/-- A quotient does not change when both numbers are multiplied. -/
theorem roundHalfEven_mul_right (num den : Nat) {k : Nat} (hk : 0 < k) :
    roundHalfEven (num * k) (den * k) = roundHalfEven num den := by
  have hquot : num * k / (den * k) = num / den := Nat.mul_div_mul_right num den hk
  have hrest : num * k % (den * k) = num % den * k := Nat.mul_mod_mul_right k num den
  have hless : 2 * (num % den * k) < den * k ↔ 2 * (num % den) < den := by
    rw [← Nat.mul_assoc]
    exact Nat.mul_lt_mul_right hk
  have hequal : 2 * (num % den * k) = den * k ↔ 2 * (num % den) = den := by
    rw [← Nat.mul_assoc]
    exact Nat.mul_left_inj (Nat.ne_of_gt hk)
  unfold roundHalfEven
  dsimp only
  simp only [hquot, hrest, hless, hequal]

namespace Binary64

theorem nearestMagnitude_mul_right (num den : Nat) {k : Nat} (hk : 0 < k) :
    nearestMagnitude (num * k) (den * k) = nearestMagnitude num den := by
  have hshift : shiftOf (num * k) (den * k) = shiftOf num den := by
    unfold shiftOf
    rw [Nat.mul_div_mul_right num den hk]
  rw [nearestMagnitude_eq, nearestMagnitude_eq, hshift, Nat.mul_right_comm,
    roundHalfEven_mul_right num _ hk]

/-! ## 1. Sizes of finite numbers -/

/-- The units that a magnitude with this exponent field and fraction stands for. -/
theorem units_of_magnitude {x : Binary64} {s q : Nat} (h : x.magnitude = s * 2 ^ 52 + q)
    (hlt : q < 2 ^ 53) (hle : s = 0 ∨ 2 ^ 52 ≤ q) : x.units = q * 2 ^ s := by
  unfold units
  dsimp only
  rw [h]
  by_cases hq : 2 ^ 52 ≤ q
  · have hexponent : (s * 2 ^ 52 + q) / 2 ^ 52 = s + 1 := by omega
    have hfraction : 2 ^ 52 + (s * 2 ^ 52 + q) % 2 ^ 52 = q := by omega
    rw [hexponent, if_neg (Nat.succ_ne_zero s), hfraction]
    rfl
  · have hs : s = 0 := hle.resolve_right hq
    subst hs
    have hexponent : (0 * 2 ^ 52 + q) / 2 ^ 52 = 0 := by omega
    rw [hexponent, if_pos rfl]
    omega

/-- A larger magnitude stands for a larger size. -/
theorem units_le_of_magnitude_le {x y : Binary64} (h : x.magnitude ≤ y.magnitude) :
    x.units ≤ y.units := by
  have hx : x.magnitude % 2 ^ 52 < 2 ^ 52 := Nat.mod_lt _ (by decide)
  rcases Nat.lt_or_eq_of_le (Nat.div_le_div_right h : x.magnitude / 2 ^ 52 ≤ y.magnitude / 2 ^ 52)
    with hlt | heq
  · -- A larger exponent outweighs any fraction.
    have hupper : x.units ≤ 2 ^ 52 * 2 ^ (x.magnitude / 2 ^ 52) := by
      unfold units
      dsimp only
      split
      · rename_i hzero
        rw [hzero]
        omega
      · rename_i hexponent
        have hsplit : 2 ^ (x.magnitude / 2 ^ 52) = 2 * 2 ^ (x.magnitude / 2 ^ 52 - 1) := by
          rw [← Nat.pow_succ', Nat.succ_eq_add_one, Nat.sub_add_cancel (by omega)]
        rw [hsplit, ← Nat.mul_assoc]
        exact Nat.mul_le_mul_right _ (by omega)
    have hlower : 2 ^ 52 * 2 ^ (y.magnitude / 2 ^ 52 - 1) ≤ y.units := by
      unfold units
      dsimp only
      rw [if_neg (by omega)]
      exact Nat.mul_le_mul_right _ (Nat.le_add_right _ _)
    have hpow : 2 ^ (x.magnitude / 2 ^ 52) ≤ 2 ^ (y.magnitude / 2 ^ 52 - 1) :=
      Nat.pow_le_pow_right (by decide) (by omega)
    exact Nat.le_trans hupper (Nat.le_trans (Nat.mul_le_mul_left _ hpow) hlower)
  · unfold units
    dsimp only
    rw [heq]
    split
    · omega
    · exact Nat.mul_le_mul_right _ (by omega)

/-- So many units are the size of a finite number. -/
def Fits (n : Nat) : Prop := ∃ x : Binary64, x.isFinite = true ∧ x.units = n

/-- **Any 53 bits followed by zeros are the size of a finite number,** up to the largest one. -/
theorem fits_mul_pow {m k : Nat} (hm : m < 2 ^ 53) (hk : k ≤ 2045) : Fits (m * 2 ^ k) := by
  generalize hn : m * 2 ^ k = n
  generalize hs : shiftOf n 1 = s
  have hlt : n < 2 ^ 53 * (1 * 2 ^ s) := hs ▸ num_lt_of_shift n (by decide)
  have hle : s = 0 ∨ 2 ^ 52 * (1 * 2 ^ s) ≤ n :=
    (Nat.eq_zero_or_pos s).imp_right fun h => hs ▸ le_num_of_shift (hs ▸ h)
  rw [Nat.one_mul] at hlt hle
  have hsk : s ≤ k := by
    rcases hle with rfl | hle
    · exact Nat.zero_le k
    · refine Nat.le_of_not_lt fun hlarger => ?_
      have hpow : 2 ^ (k + 1) ≤ 2 ^ s := Nat.pow_le_pow_right (by decide) hlarger
      have hbelow : n < 2 ^ 53 * 2 ^ k := hn ▸ Nat.mul_lt_mul_of_pos_right hm (Nat.two_pow_pos k)
      rw [Nat.pow_succ] at hpow
      omega
  have hdvd : 2 ^ s ∣ n := hn ▸ Nat.dvd_mul_left_of_dvd (Nat.pow_dvd_pow 2 hsk) m
  obtain ⟨q, rfl⟩ := hdvd
  have hpos : 0 < 2 ^ s := Nat.two_pow_pos s
  have hq : q < 2 ^ 53 := by
    rw [Nat.mul_comm] at hlt
    exact Nat.lt_of_mul_lt_mul_right hlt
  have hq' : s = 0 ∨ 2 ^ 52 ≤ q := hle.imp_right fun h => by
    rw [Nat.mul_comm] at h
    exact Nat.le_of_mul_le_mul_left h hpos
  have hbound : s * 2 ^ 52 + q < infinityMagnitude := by
    unfold infinityMagnitude
    omega
  have hword : infinityMagnitude < 2 ^ 63 := by decide
  refine ⟨⟨false, s * 2 ^ 52 + q, Nat.lt_trans hbound hword⟩, decide_eq_true hbound, ?_⟩
  rw [units_of_magnitude rfl hq hq', Nat.mul_comm]

theorem oneUnits_pos : 0 < oneUnits := by decide +kernel

/-! ## 2. Numbers within a bound -/

/-- A finite number of at most so many units. -/
structure Within (bound : Nat) (x : Binary64) : Prop where
  isFinite_eq : x.isFinite = true
  units_le : x.units ≤ bound

theorem Within.mono {a b : Nat} {x : Binary64} (h : x.Within a) (hab : a ≤ b) : x.Within b :=
  ⟨h.isFinite_eq, Nat.le_trans h.units_le hab⟩

theorem within_zero {bound : Nat} {x : Binary64} (h : x.magnitude = 0) : x.Within bound := by
  refine ⟨decide_eq_true (h ▸ by decide), ?_⟩
  have hunits : x.units = 0 := by
    unfold units
    rw [h]
    rfl
  rw [hunits]
  exact Nat.zero_le bound

/-- **Rounding keeps a bound that is the size of a finite number.** -/
theorem within_nearest {bound num den : Nat} (hfits : Fits bound) (hden : 0 < den)
    (h : num ≤ bound * den) (negative : Bool) : (nearest negative num den).Within bound := by
  obtain ⟨y, hy, rfl⟩ := hfits
  have hmagnitude : nearestMagnitude num den ≤ y.magnitude := by
    calc nearestMagnitude num den ≤ nearestMagnitude (y.units * den) den :=
          nearestMagnitude_mono hden h
      _ = nearestMagnitude (y.units * den) (1 * den) := by rw [Nat.one_mul]
      _ = nearestMagnitude y.units 1 := nearestMagnitude_mul_right _ _ hden
      _ = y.magnitude := nearestMagnitude_units hy
  have hlt : y.magnitude < infinityMagnitude := of_decide_eq_true hy
  exact ⟨decide_eq_true (Nat.lt_of_le_of_lt hmagnitude hlt), units_le_of_magnitude_le hmagnitude⟩

theorem natAbs_signedUnits (x : Binary64) : x.signedUnits.natAbs = x.units := by
  unfold signedUnits
  split
  · rw [Int.natAbs_neg, Int.natAbs_natCast]
  · rw [Int.natAbs_natCast]

theorem within_ofUnits {bound : Nat} (hfits : Fits bound) {n : Int} (h : n.natAbs ≤ bound) :
    (ofUnits n).Within bound :=
  within_nearest hfits (by decide) (by rw [Nat.mul_one]; exact h) _

namespace Within

variable {a b bound : Nat} {x y : Binary64}

theorem add (hx : x.Within a) (hy : y.Within b) (hfits : Fits bound) (h : a + b ≤ bound) :
    (x + y).Within bound := by
  have hsum : (x.signedUnits + y.signedUnits).natAbs ≤ bound := by
    have hboth := Int.natAbs_add_le x.signedUnits y.signedUnits
    rw [natAbs_signedUnits, natAbs_signedUnits] at hboth
    exact Nat.le_trans hboth (Nat.le_trans (Nat.add_le_add hx.units_le hy.units_le) h)
  rw [add_of_isFinite hx.isFinite_eq hy.isFinite_eq]
  split
  · exact within_zero rfl
  · exact within_ofUnits hfits hsum

theorem sub (hx : x.Within a) (hy : y.Within b) (hfits : Fits bound) (h : a + b ≤ bound) :
    (x - y).Within bound := by
  have hdifference : (x.signedUnits - y.signedUnits).natAbs ≤ bound := by
    have hboth := Int.natAbs_sub_le x.signedUnits y.signedUnits
    rw [natAbs_signedUnits, natAbs_signedUnits] at hboth
    exact Nat.le_trans hboth (Nat.le_trans (Nat.add_le_add hx.units_le hy.units_le) h)
  rw [sub_of_isFinite hx.isFinite_eq hy.isFinite_eq]
  split
  · exact within_zero rfl
  · exact within_ofUnits hfits hdifference

theorem mul (hx : x.Within a) (hy : y.Within b) (hfits : Fits bound)
    (h : a * b ≤ bound * oneUnits) : (x * y).Within bound := by
  have hproduct : x * y = nearest (x.negative != y.negative) (x.units * y.units) oneUnits := by
    show x.mul y = _
    unfold Binary64.mul orNaN
    simp only [isNaN_of_isFinite hx.isFinite_eq, isNaN_of_isFinite hy.isFinite_eq,
      isInfinite_of_isFinite hx.isFinite_eq, isInfinite_of_isFinite hy.isFinite_eq,
      Bool.false_eq_true, if_false, Bool.or_self]
  rw [hproduct]
  exact within_nearest hfits oneUnits_pos
    (Nat.le_trans (Nat.mul_le_mul hx.units_le hy.units_le) h) _

theorem div (hx : x.Within a) (hy : y.isFinite = true) (hpos : 0 < y.units) (hfits : Fits bound)
    (h : a * oneUnits ≤ bound * y.units) : (x / y).Within bound := by
  have hnonzero : y.isZero = false := by
    refine beq_eq_false_iff_ne.2 fun hzero => ?_
    have hnone : y.Within 0 := within_zero hzero
    exact Nat.not_le_of_lt hpos hnone.units_le
  have hquotient :
      x / y = nearest (x.negative != y.negative) (x.units * oneUnits) y.units := by
    show x.div y = _
    unfold Binary64.div orNaN
    simp only [isNaN_of_isFinite hx.isFinite_eq, isNaN_of_isFinite hy,
      isInfinite_of_isFinite hx.isFinite_eq, isInfinite_of_isFinite hy, hnonzero,
      Bool.false_eq_true, if_false]
  rw [hquotient]
  exact within_nearest hfits hpos (Nat.le_trans (Nat.mul_le_mul_right _ hx.units_le) h) _

end Within

/-! ## 3. Whole numbers -/

/-- A number that is the size of a binary one is not rounded. -/
theorem units_ofNat_of_fits {n : Nat} (h : Fits (n * oneUnits)) :
    (ofNat n).isFinite = true ∧ (ofNat n).units = n * oneUnits := by
  obtain ⟨y, hy, hunits⟩ := h
  have hmagnitude : (ofNat n).magnitude = y.magnitude := by
    show nearestMagnitude ((n : Int).natAbs * oneUnits) 1 = _
    rw [Int.natAbs_natCast, ← hunits, nearestMagnitude_units hy]
  refine ⟨?_, ?_⟩
  · unfold isFinite at hy ⊢
    rw [hmagnitude]
    exact hy
  · rw [← hunits]
    exact Nat.le_antisymm (units_le_of_magnitude_le (Nat.le_of_eq hmagnitude))
      (units_le_of_magnitude_le (Nat.le_of_eq hmagnitude.symm))

/-- Numbers of 53 bits are exact. -/
theorem units_ofNat {n : Nat} (h : n < 2 ^ 53) :
    (ofNat n).isFinite = true ∧ (ofNat n).units = n * oneUnits :=
  units_ofNat_of_fits (fits_mul_pow h (by decide))

theorem signedUnits_ofNat {n : Nat} (h : n < 2 ^ 53) :
    (ofNat n).signedUnits = (n * oneUnits : Nat) := by
  have hsign : (ofNat n).negative = false :=
    (nonneg_ofNat n).negative_eq
  unfold signedUnits
  rw [hsign, (units_ofNat h).2]
  rfl

/-! ## 4. Bounds counted in ones -/

/-- A finite number of size at most `n`. -/
def UpTo (n : Nat) (x : Binary64) : Prop := x.Within (n * oneUnits)

/-- Numbers of at most 53 bits, followed by zeros, are exact up to the largest finite one. -/
theorem fits_mul_two_pow {n a k : Nat} (hn : n < 2 ^ a) (ha : a ≤ 53) (hk : a + k ≤ 1024) :
    Fits (n * 2 ^ k * oneUnits) := by
  have hunits (m j : Nat) : m * 2 ^ j * oneUnits = m * 2 ^ (j + 1074) := by
    rw [Nat.mul_assoc, Nat.pow_add]
    rfl
  by_cases hsmall : k ≤ 971
  · rw [hunits]
    exact fits_mul_pow (Nat.lt_of_lt_of_le hn (Nat.pow_le_pow_right (by decide) ha)) (by omega)
  · have hsplit : n * 2 ^ k = n * 2 ^ (k - 971) * 2 ^ 971 := by
      rw [Nat.mul_assoc, ← Nat.pow_add, Nat.sub_add_cancel (by omega)]
    have hbits : n * 2 ^ (k - 971) < 2 ^ 53 := by
      calc n * 2 ^ (k - 971) < 2 ^ a * 2 ^ (k - 971) :=
            Nat.mul_lt_mul_of_pos_right hn (Nat.two_pow_pos _)
        _ = 2 ^ (a + (k - 971)) := (Nat.pow_add ..).symm
        _ ≤ 2 ^ 53 := Nat.pow_le_pow_right (by decide) (by omega)
    rw [hsplit, hunits]
    exact fits_mul_pow hbits (by decide)

theorem fits_two_pow {k : Nat} (hk : k < 1024) : Fits (2 ^ k * oneUnits) := by
  have h : Fits (1 * 2 ^ k * oneUnits) :=
    fits_mul_two_pow (by decide : 1 < 2 ^ 1) (by decide) (by omega)
  rwa [Nat.one_mul] at h

namespace UpTo

variable {a b n : Nat} {x y : Binary64}

theorem mono (h : x.UpTo a) (hab : a ≤ b) : x.UpTo b :=
  Within.mono h (Nat.mul_le_mul_right _ hab)

theorem add (hx : x.UpTo a) (hy : y.UpTo b) (hfits : Fits (n * oneUnits)) (h : a + b ≤ n) :
    (x + y).UpTo n := by
  refine Within.add hx hy hfits ?_
  rw [← Nat.add_mul]
  exact Nat.mul_le_mul_right _ h

theorem sub (hx : x.UpTo a) (hy : y.UpTo b) (hfits : Fits (n * oneUnits)) (h : a + b ≤ n) :
    (x - y).UpTo n := by
  refine Within.sub hx hy hfits ?_
  rw [← Nat.add_mul]
  exact Nat.mul_le_mul_right _ h

theorem mul (hx : x.UpTo a) (hy : y.UpTo b) (hfits : Fits (n * oneUnits)) (h : a * b ≤ n) :
    (x * y).UpTo n := by
  refine Within.mul hx hy hfits ?_
  calc a * oneUnits * (b * oneUnits) = a * b * oneUnits * oneUnits := by
        rw [Nat.mul_mul_mul_comm, Nat.mul_assoc (a * b)]
    _ ≤ n * oneUnits * oneUnits := Nat.mul_le_mul_right _ (Nat.mul_le_mul_right _ h)

theorem div_ofNat {d : Nat} (hx : x.UpTo a) (hd : d < 2 ^ 53) (hpos : 0 < d)
    (hfits : Fits (n * oneUnits)) (h : a ≤ n * d) : (x / ofNat d).UpTo n := by
  obtain ⟨hfinite, hunits⟩ := units_ofNat hd
  refine Within.div hx hfinite (hunits ▸ Nat.mul_pos hpos oneUnits_pos) hfits ?_
  calc a * oneUnits * oneUnits ≤ n * d * oneUnits * oneUnits :=
        Nat.mul_le_mul_right _ (Nat.mul_le_mul_right _ h)
    _ = n * oneUnits * (ofNat d).units := by
        rw [hunits, Nat.mul_right_comm n d, Nat.mul_assoc (n * oneUnits)]

/-- Sums of numbers within a bound, as long as the bound on them all is exact. -/
theorem foldl_add {xs : List Binary64} {start : Binary64} (hxs : ∀ x ∈ xs, x.UpTo b)
    (hstart : start.UpTo (n * b)) (hfits : ∀ m ≤ n + xs.length, Fits (m * b * oneUnits)) :
    (xs.foldl (· + ·) start).UpTo ((n + xs.length) * b) := by
  induction xs generalizing n start with
  | nil => exact hstart
  | cons x rest ih =>
    have hlength : n + (x :: rest).length = n + 1 + rest.length := by
      rw [List.length_cons]
      omega
    rw [hlength] at hfits ⊢
    have hsum : (start + x).UpTo ((n + 1) * b) :=
      hstart.add (hxs x List.mem_cons_self) (hfits (n + 1) (by omega))
        (Nat.le_of_eq (Nat.succ_mul n b).symm)
    exact ih (fun y hy => hxs y (List.mem_cons_of_mem x hy)) hsum hfits

end UpTo

theorem upTo_ofInt {i : Int} {n : Nat} (hfits : Fits (n * oneUnits)) (h : i.natAbs ≤ n) :
    (ofInt i).UpTo n :=
  within_nearest hfits (by decide) (by rw [Nat.mul_one]; exact Nat.mul_le_mul_right _ h) _

theorem upTo_ofNat_of_lt {n : Nat} (h : n < 2 ^ 64) : (ofNat n).UpTo (2 ^ 64) := by
  refine upTo_ofInt (fits_two_pow (by decide)) ?_
  rw [Int.natAbs_natCast]
  exact Nat.le_of_lt h

/-- The larger of two numbers is one of them. -/
theorem larger_cases (x y : Binary64) : x.larger y = x ∨ x.larger y = y := by
  unfold larger
  split
  · exact .inr rfl
  · split
    · exact .inr rfl
    · exact .inl rfl

/-! ## 5. Counting -/

theorem ofNat_eq_ofUnits (n : Nat) : ofNat n = ofUnits (n * oneUnits : Nat) := by
  unfold ofNat ofInt ofUnits
  rw [Int.natAbs_natCast, Int.natAbs_natCast, decide_eq_false (Int.not_lt.2 (Int.natCast_nonneg _)),
    decide_eq_false (Int.not_lt.2 (Int.natCast_nonneg _))]

theorem ofNat_add_one {n : Nat} (h : n + 1 < 2 ^ 53) : ofNat n + ofNat 1 = ofNat (n + 1) := by
  have hsum : (ofNat n).signedUnits + (ofNat 1).signedUnits = ((n + 1) * oneUnits : Nat) := by
    rw [signedUnits_ofNat (by omega), signedUnits_ofNat (by decide), ← Int.natCast_add,
      ← Nat.add_mul]
  have hpos : 0 < (n + 1) * oneUnits := Nat.mul_pos (Nat.succ_pos n) oneUnits_pos
  rw [add_of_isFinite (units_ofNat (by omega)).1 (units_ofNat (by decide)).1, hsum,
    if_neg (Int.natCast_ne_zero.2 (Nat.ne_of_gt hpos)), ofNat_eq_ofUnits]

/-- **Counting by ones is exact** as long as the count has no more than 53 bits. -/
theorem iterate_add_one {n : Nat} (h : n < 2 ^ 53) :
    Nat.repeat (· + ofNat 1) n zero = ofNat n := by
  induction n with
  | zero => decide +kernel
  | succ n ih =>
    show Nat.repeat (· + ofNat 1) n zero + ofNat 1 = ofNat (n + 1)
    rw [ih (by omega), ofNat_add_one h]

end Binary64

end PowerShare
