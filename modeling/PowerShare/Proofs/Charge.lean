import PowerShare.Charge
import PowerShare.Proofs.Number.Exact

/-!
# What the text of a charge says

A smaller charge is shown with more places, and each count of places begins at a power of ten. The
bounds of these bands are binary numbers, so that they are not the powers of ten but lie beside
them, and just below a bound a charge is rounded up to it:

* `Charge.lastPlaces_le` and `Charge.hundred_le` -- below the bound of its band a charge is rounded
  to at most 1000 units of its last place, and from the bound below on it has at least 100;
* `Charge.text_near` -- **a text says the charge up to half a percent,** or up to half a unit of
  the eighth place;
* `Charge.shown_mono` -- **no two texts are out of order,** whichever bands they belong to.
-/

namespace PowerShare

namespace Charge

/-! ## 1. Bands -/

/-- The charge at which a band ends. -/
def bound (band : Decimal × Nat) : Charge := band.1.toBinary64 false

theorem less_bound_iff {x : Charge} (h : x.isFinite = true) {band : Decimal × Nat}
    (hband : band ∈ bands) : x.abs.less (bound band) = true ↔ x.units < (bound band).units := by
  have hall : ∀ band ∈ bands, (bound band).isFinite = true ∧ (bound band).negative = false := by
    decide +kernel
  obtain ⟨hfinite, hsign⟩ := hall band hband
  rw [Binary64.less_iff_signedUnits_lt (x := x.abs) h hfinite]
  unfold Binary64.signedUnits
  rw [hsign]
  exact Int.ofNat_lt

/-- In a list of bands with ever fewer places, no band passes that has more places than the one
that was found. -/
theorem not_of_find? {rows : List (Decimal × Nat)} {p : Decimal × Nat → Bool}
    (hfewer : rows.Pairwise fun a b => b.2 < a.2) {band : Decimal × Nat} (hband : band ∈ rows)
    (h : ∀ found ∈ rows.find? p, found.2 < band.2) : p band = false := by
  cases hfound : rows.find? p with
  | none => exact Bool.not_eq_true _ ▸ List.find?_eq_none.1 hfound band hband
  | some found =>
    have hlt := h found hfound
    obtain ⟨-, before, behind, rfl, hbefore⟩ := List.find?_eq_some_iff_append.1 hfound
    rcases List.mem_append.1 hband with hmem | hmem
    · exact Bool.not_eq_eq_eq_not.1 (hbefore band hmem)
    · rcases List.mem_cons.1 hmem with rfl | hmem
      · exact absurd hlt (Nat.lt_irrefl _)
      · have hbehind := List.rel_of_pairwise_cons (List.pairwise_append.1 hfewer).2.1 hmem
        exact absurd hbehind (Nat.lt_asymm hlt)

/-- A charge that is shown with places lies below the bound of its band. -/
theorem exists_band {x : Charge} (h : x.isFinite = true) (hplaces : x.places ≠ 0) :
    ∃ band ∈ bands, band.2 = x.places ∧ x.units < (bound band).units := by
  unfold places at hplaces ⊢
  cases hfound : bands.find? fun band => x.abs.less (band.1.toBinary64 false) with
  | none =>
    rw [hfound] at hplaces
    exact absurd rfl hplaces
  | some band =>
    have hband := List.mem_of_find?_eq_some hfound
    exact ⟨band, hband, rfl, (less_bound_iff h hband).1 (List.find?_some hfound :)⟩

/-- A charge reaches the bound of every band with more places. -/
theorem units_bound_le {x : Charge} (h : x.isFinite = true) {band : Decimal × Nat}
    (hband : band ∈ bands) (hplaces : x.places < band.2) : (bound band).units ≤ x.units := by
  have hnot : x.abs.less (bound band) = false := by
    refine not_of_find? (p := fun band => x.abs.less (bound band)) (by decide) hband
      fun found hfound => ?_
    have heq : x.places = found.2 := by
      unfold bound at hfound
      unfold places
      rw [Option.mem_def.1 hfound]
    exact heq ▸ hplaces
  exact Nat.not_lt.1 fun hlt =>
    Bool.false_ne_true (hnot.symm.trans ((less_bound_iff h hband).2 hlt))

theorem places_le (x : Charge) : x.places ≤ 8 := by
  have hall : ∀ band ∈ bands, band.2 ≤ 8 := by decide
  unfold places
  split
  · rename_i hfound
    exact hall _ (List.mem_of_find?_eq_some hfound)
  · exact Nat.zero_le 8

/-- The greater charge is not shown with more places. -/
theorem places_anti {x y : Charge} (hx : x.isFinite = true) (hy : y.isFinite = true)
    (h : x.units ≤ y.units) : y.places ≤ x.places := by
  refine Nat.not_lt.1 fun hlt => ?_
  obtain ⟨band, hband, hplaces, hbelow⟩ := exists_band hy (Nat.ne_zero_of_lt hlt)
  have hreached := units_bound_le hx hband (hplaces ▸ hlt)
  omega

/-- **Below the bound of its band, a charge is rounded to at most 1000 units of its last place.** -/
theorem lastPlaces_le {x : Charge} (h : x.isFinite = true) (hplaces : x.places ≠ 0) :
    x.lastPlaces x.places ≤ 1000 := by
  have hall : ∀ band ∈ bands, (bound band).lastPlaces band.2 = 1000 := by decide +kernel
  obtain ⟨band, hband, heq, hbelow⟩ := exists_band h hplaces
  rw [← heq, ← hall band hband]
  exact Binary64.lastPlaces_mono _ hbelow.le

/-- **Outside the first band, a charge has at least 100 units of its last place.** -/
theorem hundred_le {x : Charge} (h : x.isFinite = true) (hplaces : x.places ≠ 8) :
    100 * Binary64.oneUnits ≤ x.units * 10 ^ x.places := by
  have hall : ∀ band ∈ bands,
      100 * Binary64.oneUnits ≤ (bound band).units * 10 ^ (band.2 - 1) := by decide +kernel
  have hnext : ∀ p < 8, ∃ band ∈ bands, band.2 = p + 1 := by decide
  have hlt : x.places < 8 := Nat.lt_of_le_of_ne x.places_le hplaces
  obtain ⟨band, hband, heq⟩ := hnext x.places hlt
  calc 100 * Binary64.oneUnits
      ≤ (bound band).units * 10 ^ (band.2 - 1) := hall band hband
    _ = (bound band).units * 10 ^ x.places := by rw [heq, Nat.add_sub_cancel]
    _ ≤ x.units * 10 ^ x.places :=
        Nat.mul_le_mul_right _ (units_bound_le h hband (by omega))

theorem hundred_le_lastPlaces {x : Charge} (h : x.isFinite = true) (hplaces : x.places ≠ 8) :
    100 ≤ x.lastPlaces x.places :=
  le_roundHalfEven Binary64.oneUnits_pos (hundred_le h hplaces)

/-! ## 2. What a text says -/

/-- The number that the text of a finite charge says. -/
def shown (x : Charge) : ℚ := x.roundedTo x.places

/-- **The text of a finite charge is a decimal.** Zero is shown without places. -/
theorem rationalOf?_text {x : Charge} (h : x.isFinite = true) :
    rationalOf? x.text.toList = some x.shown := by
  unfold text
  split
  · rename_i hzero
    have hunits : x.units = 0 := Binary64.units_of_magnitude_eq_zero (beq_iff_eq.1 hzero)
    have htext : rationalOf? "0".toList = some 0 := by decide +kernel
    rw [htext, shown, Binary64.roundedTo, Binary64.roundedSize_of_units_eq_zero _ hunits,
      signed_zero]
  · rw [String.toList_ofList]
    exact Binary64.rationalOf?_fixedPlaces x.places h

/-- Outside the first band, half a unit of the last place is at most half a percent. -/
theorem half_place_le {x : Charge} (h : x.isFinite = true) (hplaces : x.places ≠ 8) :
    1 / (2 * 10 ^ x.places) ≤ |x.value| / 200 := by
  have hone := Binary64.oneUnits_pos_rat
  have hunits : (100 * Binary64.oneUnits : ℚ) ≤ x.units * 10 ^ x.places := by
    exact_mod_cast hundred_le h hplaces
  rw [x.abs_value, Binary64.exactSize, div_div, div_le_div_iff₀ (by positivity) (by linarith)]
  linarith

/-- **A text says the charge up to half a percent,** and a charge below a millionth up to half a
unit of the eighth place. It never says the other sign. -/
theorem text_near {x : Charge} (h : x.isFinite = true) :
    ∃ d, rationalOf? x.text.toList = some d ∧
      (|x.value| < 1 / 10 ^ 6 → |d - x.value| ≤ 5 / 10 ^ 9) ∧
      (1 / 10 ^ 6 ≤ |x.value| → |d - x.value| ≤ |x.value| / 200) ∧
      (0 ≤ x.value → 0 ≤ d) ∧ (x.value ≤ 0 → d ≤ 0) := by
  have hnear : |x.shown - x.value| ≤ 1 / (2 * 10 ^ x.places) :=
    Binary64.abs_roundedTo_sub_le x.places x
  refine ⟨x.shown, rationalOf?_text h, fun hsmall => ?_, fun hlarge => ?_,
    Binary64.roundedTo_nonneg x.places, Binary64.roundedTo_nonpos x.places⟩
  · have hplaces : x.places = 8 := by
      by_contra hplaces
      have hhalf := half_place_le h hplaces
      have hten : (10 : ℚ) ^ x.places ≤ 10 ^ 7 :=
        pow_le_pow_right₀ (by norm_num) (by have := x.places_le; omega)
      have hleast : (1 : ℚ) / (2 * 10 ^ 7) ≤ 1 / (2 * 10 ^ x.places) := by gcongr
      linarith
    rw [hplaces] at hnear
    linarith
  · by_cases hplaces : x.places = 8
    · rw [hplaces] at hnear
      linarith
    · exact hnear.trans (half_place_le h hplaces)

/-- Just below one, a charge is shown as one with three places. -/
theorem text_near_one :
    let x : Charge := (⟨9996, -4⟩ : Decimal).toBinary64 false
    x.isFinite = true ∧ x.text = "1.000" ∧
      ∃ d, rationalOf? x.text.toList = some d ∧
        (|x.value| < 1 / 10 ^ 6 → |d - x.value| ≤ 5 / 10 ^ 9) ∧
        (1 / 10 ^ 6 ≤ |x.value| → |d - x.value| ≤ |x.value| / 200) ∧
        (0 ≤ x.value → 0 ≤ d) ∧ (x.value ≤ 0 → d ≤ 0) :=
  ⟨by decide +kernel, by decide +kernel, text_near (by decide +kernel)⟩

/-! ## 3. The order of texts -/

/-- **The greater charge is not shown as the smaller size.** In different bands, the smaller charge
is rounded to at most the power of ten that the greater one reaches. -/
theorem shownSize_mono {x y : Charge} (hx : x.isFinite = true) (hy : y.isFinite = true)
    (h : x.units ≤ y.units) : x.roundedSize x.places ≤ y.roundedSize y.places := by
  by_cases hplaces : y.places = x.places
  · rw [hplaces]
    exact Binary64.roundedSize_mono x.places h
  · have hlt : y.places < x.places := Nat.lt_of_le_of_ne (places_anti hx hy h) hplaces
    have hxmost : (x.lastPlaces x.places : ℚ) ≤ 1000 := by
      exact_mod_cast lastPlaces_le hx (Nat.ne_zero_of_lt hlt)
    have hyleast : (100 : ℚ) ≤ y.lastPlaces y.places := by
      exact_mod_cast hundred_le_lastPlaces hy fun heq => by have := x.places_le; omega
    have hten : (10 : ℚ) * 10 ^ y.places ≤ 10 ^ x.places := by
      rw [← pow_succ']
      exact pow_le_pow_right₀ (by norm_num) hlt
    calc x.roundedSize x.places
        ≤ 1000 / 10 ^ x.places := by
          unfold Binary64.roundedSize
          gcongr
      _ ≤ 1000 / (10 * 10 ^ y.places) := by gcongr
      _ = 100 / 10 ^ y.places := by field_simp; norm_num
      _ ≤ y.roundedSize y.places := by
          unfold Binary64.roundedSize
          gcongr

/-- **No two texts are out of order,** whichever bands the charges belong to and on either side of
zero. -/
theorem shown_mono {x y : Charge} (hx : x.isFinite = true) (hy : y.isFinite = true) (h : x ≤ y) :
    x.shown ≤ y.shown :=
  Binary64.signed_le_signed_of_le (fun x => x.roundedSize (places x)) hx hy h
    (fun x hzero => Binary64.roundedSize_of_units_eq_zero (places x) hzero)
    (fun x => x.roundedSize_nonneg _) shownSize_mono

end Charge

end PowerShare
