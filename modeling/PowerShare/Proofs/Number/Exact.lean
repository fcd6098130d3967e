import Mathlib.Algebra.Order.Field.Basic
import Mathlib.Algebra.Order.Ring.Rat
import Mathlib.Tactic.FieldSimp
import Mathlib.Tactic.Linarith
import Mathlib.Tactic.NormNum
import Mathlib.Tactic.Positivity
import PowerShare.Proofs.Number.Digits
import PowerShare.Proofs.Number.Monotone
import PowerShare.Proofs.Reader

/-!
# Numbers and decimals without rounding

What a finite number is and what a decimal text says are both rational numbers, so that a text can
be compared with the number that it was written for:

* `Binary64.value` -- the rational number that a finite number is;
* `rationalOf?` -- the rational number that a decimal text says, and `rationalOf?_fixedPlaces`: a
  text with a fixed count of places says `Binary64.roundedTo` of it;
* `Binary64.abs_roundedTo_sub_le` -- **a text with `p` places is at most half of the last place
  away**, and `roundedSize_mono`: with the same count of places, no two texts are out of order.

Not here: how many places a text has, which is for whoever writes it.
-/

namespace PowerShare

/-! ## 1. Exact values -/

/-- A size with its sign. -/
def signed (negative : Bool) (size : ℚ) : ℚ := if negative then -size else size

theorem signed_zero (negative : Bool) : signed negative 0 = 0 := by
  cases negative with
  | false => rfl
  | true => exact neg_zero

theorem abs_signed {size : ℚ} (h : 0 ≤ size) (negative : Bool) : |signed negative size| = size := by
  cases negative with
  | false => exact abs_of_nonneg h
  | true => exact (abs_neg size).trans (abs_of_nonneg h)

theorem abs_signed_sub (negative : Bool) (a b : ℚ) :
    |signed negative a - signed negative b| = |a - b| := by
  cases negative with
  | false => rfl
  | true =>
    show |-a - -b| = _
    rw [← neg_sub', abs_neg]

namespace Binary64

/-- The size of a finite number. -/
def exactSize (x : Binary64) : ℚ := x.units / oneUnits

/-- The rational number that a finite number is. -/
def value (x : Binary64) : ℚ := signed x.negative x.exactSize

theorem oneUnits_pos_rat : (0 : ℚ) < oneUnits := Nat.cast_pos.2 oneUnits_pos

theorem exactSize_nonneg (x : Binary64) : 0 ≤ x.exactSize :=
  div_nonneg (Nat.cast_nonneg _) oneUnits_pos_rat.le

theorem units_of_exactSize_eq_zero {x : Binary64} (h : x.exactSize = 0) : x.units = 0 :=
  Nat.cast_eq_zero.1 ((div_eq_zero_iff.1 h).resolve_right oneUnits_pos_rat.ne')

theorem abs_value (x : Binary64) : |x.value| = x.exactSize := abs_signed x.exactSize_nonneg _

/-- Whoever writes the larger one of two sizes with the larger decimal keeps both signs in order. -/
theorem signed_le_signed_of_le (size : Binary64 → ℚ) {x y : Binary64} (hx : x.isFinite = true)
    (hy : y.isFinite = true) (h : x ≤ y) (hzero : ∀ x : Binary64, x.units = 0 → size x = 0)
    (hnonneg : ∀ x, 0 ≤ size x)
    (hmono : ∀ {x y : Binary64}, x.isFinite = true → y.isFinite = true → x.units ≤ y.units →
      size x ≤ size y) :
    signed x.negative (size x) ≤ signed y.negative (size y) := by
  have hunits := signedUnits_le_of_le hx hy h
  unfold signedUnits at hunits
  unfold signed
  cases hxsign : x.negative <;> cases hysign : y.negative <;> rw [hxsign, hysign] at hunits <;>
    simp only [Bool.false_eq_true, if_false, if_true] at hunits ⊢
  · exact hmono hx hy (by omega)
  · -- Only two zeros are in this order.
    rw [hzero x (by omega), hzero y (by omega), neg_zero]
  · exact (neg_nonpos.2 (hnonneg x)).trans (hnonneg y)
  · exact neg_le_neg (hmono hy hx (by omega))

end Binary64

/-! ## 2. Decimals -/

/-- The number that a decimal text says, which has an optional sign, digits and perhaps a point with
further digits. -/
def rationalOf? (text : List Char) : Option ℚ :=
  let (negative, size) := splitSign text
  let whole := size.takeWhile isDecimal
  let (places, rest) := splitPlaces (size.dropWhile isDecimal)
  if whole.isEmpty || !rest.isEmpty then none
  else some (signed negative ((decimalValue (whole ++ places) : ℚ) / 10 ^ places.length))

theorem splitSign_of_isDigit {ds rest : List Char} (h : ∀ c ∈ ds, c.isDigit = true)
    (hne : ds ≠ []) : splitSign (ds ++ rest) = (false, ds ++ rest) := by
  obtain ⟨c, ds, rfl⟩ := List.exists_cons_of_ne_nil hne
  have hc := h c List.mem_cons_self
  unfold splitSign
  split
  · rename_i heq
    rw [(List.cons.inj heq).1] at hc
    exact absurd hc (by decide)
  · rename_i heq
    rw [(List.cons.inj heq).1] at hc
    exact absurd hc (by decide)
  · rfl

namespace PlainNumeral

variable (n : PlainNumeral)

theorem splitSign_text (negative : Bool) :
    splitSign (signedText negative n.text) = (negative, n.text) := by
  cases negative with
  | false => exact splitSign_of_isDigit n.isDigit_whole n.whole_ne_nil
  | true => rfl

/-- The digits and the places of a numeral are cut apart again, with nothing left over. -/
theorem parts_text : n.text.takeWhile isDecimal = n.whole ∧
    splitPlaces (n.text.dropWhile isDecimal) = (n.places, []) := by
  have hdigits : ∀ c ∈ n.whole, isDecimal c = true := n.isDigit_whole
  have hbehind : ∀ c ∈ n.places, isDecimal c = true := n.isDigit_places
  unfold text
  by_cases hplaces : n.places = []
  · rw [if_pos hplaces]
    obtain ⟨htake, hdrop⟩ := Reader.takeWhile_append_of_stop hdigits [] (by simp)
    rw [htake, hdrop, hplaces]
    exact ⟨rfl, rfl⟩
  · rw [if_neg hplaces]
    obtain ⟨htake, hdrop⟩ := Reader.takeWhile_append_of_stop hdigits ('.' :: n.places)
      fun c hc => by rw [← Option.some.inj hc]; rfl
    obtain ⟨hall, hnone⟩ := Reader.takeWhile_append_of_stop hbehind [] (by simp)
    rw [List.append_nil] at hall hnone
    rw [htake, hdrop]
    exact ⟨rfl, congr_arg₂ Prod.mk hall hnone⟩

/-- **A plain numeral says the digits divided by the power of ten of its places.** -/
theorem rationalOf?_text (negative : Bool) : rationalOf? (signedText negative n.text) =
    some (signed negative ((n.decimal.digits : ℚ) / 10 ^ n.places.length)) := by
  obtain ⟨hwhole, hplaces⟩ := n.parts_text
  unfold rationalOf?
  rw [n.splitSign_text]
  dsimp only
  rw [hwhole, hplaces]
  dsimp only
  rw [List.isEmpty_eq_false_iff.2 n.whole_ne_nil, if_neg (by decide), decimalValue_eq]
  rfl

end PlainNumeral

/-! ## 3. A fixed count of places -/

/-- A quotient that is rounded to `p` places is at most half of the last place away. -/
theorem abs_round_div_sub_le (p num : Nat) {den : Nat} (h : 0 < den) :
    |(roundHalfEven (num * 10 ^ p) den : ℚ) / 10 ^ p - num / den| ≤ 1 / (2 * 10 ^ p) := by
  have hden : (0 : ℚ) < den := Nat.cast_pos.2 h
  have hten : (0 : ℚ) < 10 ^ p := by positivity
  obtain ⟨hup, hdown⟩ := roundHalfEven_near (num * 10 ^ p) h
  generalize roundHalfEven (num * 10 ^ p) den = rounded at hup hdown
  have hnear : |(rounded : ℚ) * den - num * 10 ^ p| ≤ den / 2 := by
    have hup' : (2 * (rounded * den) : ℚ) ≤ 2 * (num * 10 ^ p) + den := by exact_mod_cast hup
    have hdown' : (2 * (num * 10 ^ p) : ℚ) ≤ 2 * (rounded * den) + den := by exact_mod_cast hdown
    exact abs_le.2 ⟨by linarith, by linarith⟩
  calc |(rounded : ℚ) / 10 ^ p - num / den|
      = |((rounded : ℚ) * den - num * 10 ^ p) / (10 ^ p * den)| := by
        congr 1
        field_simp
    _ = |(rounded : ℚ) * den - num * 10 ^ p| / (10 ^ p * den) := by
        rw [abs_div, abs_of_pos (mul_pos hten hden)]
    _ ≤ (den / 2) / (10 ^ p * den) := by gcongr
    _ = 1 / (2 * 10 ^ p) := by field_simp

namespace Binary64

/-- How many units of the last place the size of a number is rounded to. -/
def lastPlaces (p : Nat) (x : Binary64) : Nat := roundHalfEven (x.units * 10 ^ p) oneUnits

/-- The size of a number, rounded to `p` places. -/
def roundedSize (p : Nat) (x : Binary64) : ℚ := (x.lastPlaces p : ℚ) / 10 ^ p

/-- The number, rounded to `p` places. -/
def roundedTo (p : Nat) (x : Binary64) : ℚ := signed x.negative (x.roundedSize p)

theorem roundedSize_nonneg (p : Nat) (x : Binary64) : 0 ≤ x.roundedSize p := by
  unfold roundedSize
  positivity

theorem lastPlaces_mono (p : Nat) {x y : Binary64} (h : x.units ≤ y.units) :
    x.lastPlaces p ≤ y.lastPlaces p :=
  roundHalfEven_mono (Nat.mul_le_mul_right _ h) _

/-- With the same count of places, the larger size is not written with the smaller decimal. -/
theorem roundedSize_mono (p : Nat) {x y : Binary64} (h : x.units ≤ y.units) :
    x.roundedSize p ≤ y.roundedSize p := by
  unfold roundedSize
  have hcast : (x.lastPlaces p : ℚ) ≤ y.lastPlaces p := Nat.cast_le.2 (lastPlaces_mono p h)
  gcongr

theorem roundedSize_of_units_eq_zero (p : Nat) {x : Binary64} (h : x.units = 0) :
    x.roundedSize p = 0 := by
  unfold roundedSize lastPlaces
  rw [h, Nat.zero_mul, roundHalfEven_of_dvd oneUnits_pos (Nat.dvd_zero _), Nat.zero_div,
    Nat.cast_zero, zero_div]

/-- **A number that is rounded to `p` places is at most half of the last place away.** -/
theorem abs_roundedTo_sub_le (p : Nat) (x : Binary64) :
    |x.roundedTo p - x.value| ≤ 1 / (2 * 10 ^ p) :=
  (abs_signed_sub ..).trans_le (abs_round_div_sub_le p x.units oneUnits_pos)

theorem roundedTo_nonneg (p : Nat) {x : Binary64} (h : 0 ≤ x.value) : 0 ≤ x.roundedTo p := by
  unfold value at h
  unfold roundedTo
  cases hsign : x.negative <;> rw [hsign] at h
  · exact x.roundedSize_nonneg p
  · have hsize : x.exactSize = 0 := le_antisymm (neg_nonneg.1 h) x.exactSize_nonneg
    rw [roundedSize_of_units_eq_zero p (units_of_exactSize_eq_zero hsize), signed_zero]

theorem roundedTo_nonpos (p : Nat) {x : Binary64} (h : x.value ≤ 0) : x.roundedTo p ≤ 0 := by
  unfold value at h
  unfold roundedTo
  cases hsign : x.negative <;> rw [hsign] at h
  · have hsize : x.exactSize = 0 := le_antisymm h x.exactSize_nonneg
    rw [roundedSize_of_units_eq_zero p (units_of_exactSize_eq_zero hsize), signed_zero]
  · exact neg_nonpos.2 (x.roundedSize_nonneg p)

/-- **A text with a fixed count of places says the number rounded to that many.** -/
theorem rationalOf?_fixedPlaces (p : Nat) {x : Binary64} (h : x.isFinite = true) :
    rationalOf? (fixedPlaces p x) = some (x.roundedTo p) := by
  obtain ⟨n, htext, hdecimal⟩ := PlainNumeral.exists_fixedPlaces p (x.lastPlaces p)
  have hfixed : fixedPlaces p x = signedText x.negative n.text := by
    unfold fixedPlaces signedText
    rw [isNaN_of_isFinite h, isInfinite_of_isFinite h, if_neg Bool.false_ne_true,
      if_neg Bool.false_ne_true, htext]
    rfl
  have hplaces : n.places.length = p := by
    have hexponent : -(n.places.length : Int) = -p := congrArg Decimal.exponent hdecimal
    omega
  unfold roundedTo roundedSize
  rw [hfixed, n.rationalOf?_text, hdecimal, hplaces]

end Binary64

end PowerShare
