import PowerShare.Proofs.Attribution.Finite
import PowerShare.Proofs.Number.Monotone

/-!
# Charges grow with time and energy

A charge is estimated with nine roundings and rescaled from an energy with three, and over such
long times a duration itself is rounded and a product may pass the finite numbers. None of that
turns the order around:

* `Currents.estimate_le_estimate` -- longer times never draw a smaller charge, for any currents that
  pass the check;
* `Charge.ofEnergy_le_ofEnergy` -- more energy is never a smaller charge, and none below zero if the
  energy is not;
* `Charge.keeps_order` -- both together, and that no charge of them is a NaN.
-/

namespace PowerShare

open Binary64

/-! ## 1. Estimates -/

/-- A current that passes the check is finite and not below zero; it may be the negative zero. -/
theorem Currents.atLeastZero_of_isValid {value : Binary64} (h : isValid value = true) :
    value.isFinite = true ∧ value.AtLeastZero := by
  unfold isValid at h
  rw [Bool.and_eq_true_iff, Bool.not_eq_true'] at h
  exact ⟨h.1, atLeastZero_iff.2 ⟨isNaN_of_isFinite h.1, h.2⟩⟩

theorem isFinite_ofNat_toNat (d : Duration) : (ofNat d.toNat).isFinite = true :=
  (upTo_ofNat_toNat d).isFinite_eq

namespace Currents

variable {component : Component} {currents : Currents}

/-- What one mode draws in a time is not below zero, and no more in a shorter time. -/
theorem draw_le_draw {value : Binary64} (h : isValid value = true) {d d' : Duration}
    (hd : d.toNat ≤ d'.toNat) :
    (ofNat d.toNat * value).AtLeastZero ∧ ofNat d.toNat * value ≤ ofNat d'.toNat * value := by
  obtain ⟨hfinite, hzero⟩ := atLeastZero_of_isValid h
  have hd₀ := isFinite_ofNat_toNat d
  exact ⟨(atLeastZero_ofNat _).mul hd₀ hzero hfinite,
    mul_le_mul_right hd₀ (isFinite_ofNat_toNat d') (ofNat_le_ofNat hd) hfinite hzero⟩

/-- **Longer times never draw a smaller charge.** -/
theorem estimate_le_estimate (hcheck : currents.check component = .ok ())
    {idle rx tx idle' rx' tx' : Duration} (hidle : idle.toNat ≤ idle'.toNat)
    (hrx : rx.toNat ≤ rx'.toNat) (htx : tx.toNat ≤ tx'.toNat) :
    currents.estimate idle rx tx ≤ currents.estimate idle' rx' tx' := by
  have hvalid := check_eq_ok_iff.1 hcheck
  obtain ⟨hi, hidle⟩ := draw_le_draw (hvalid (.idle, currents.idle) (by simp [modes])) hidle
  obtain ⟨hr, hrx⟩ := draw_le_draw (hvalid (.rx, currents.rx) (by simp [modes])) hrx
  obtain ⟨ht, htx⟩ := draw_le_draw (hvalid (.tx, currents.tx) (by simp [modes])) htx
  have hboth := hi.add_le_add hr hidle hrx
  have hall := (hi.add_cases hr).1.add_le_add ht hboth htx
  exact div_le_div_right hall (positive_ofNat (by decide) (by decide))

end Currents

/-! ## 2. Energies -/

namespace Charge

/-- **More energy is never a smaller charge.** -/
theorem ofEnergy_le_ofEnergy {u v : Int64} (h : u ≤ v) : ofEnergy u ≤ ofEnergy v := by
  have hint : ofInt u.toInt ≤ ofInt v.toInt := ofInt_le_ofInt (Int64.le_iff_toInt_le.1 h)
  have hquotient := div_le_div_right hint (positive_ofNat (n := 3600000000) (by decide) (by decide))
  have hthousand : (ofNat 1000).isFinite = true := (units_ofNat (by decide)).1
  exact mul_le_mul_right (upTo_ofInt_div u).isFinite_eq (upTo_ofInt_div v).isFinite_eq hquotient
    hthousand (atLeastZero_ofNat 1000)

theorem zero_le_ofEnergy {energy : Int64} (h : 0 ≤ energy) : zero ≤ ofEnergy energy :=
  zero_le_iff.2 (nonneg_ofEnergy h).atLeastZero

/-- **Charges keep the order of times and of energies.** For currents that pass the check, longer
times draw charges that are no smaller, and neither charge is a NaN; of two energies the larger one
is no smaller a charge, and an energy that is not below zero is no charge below zero. -/
theorem keeps_order :
    (∀ (component : Component) (currents : Currents), currents.check component = .ok () →
      ∀ idle rx tx idle' rx' tx' : Duration, idle.toNat ≤ idle'.toNat → rx.toNat ≤ rx'.toNat →
        tx.toNat ≤ tx'.toNat →
        (currents.estimate idle rx tx).isNaN = false ∧
        (currents.estimate idle' rx' tx').isNaN = false ∧
        currents.estimate idle rx tx ≤ currents.estimate idle' rx' tx') ∧
    (∀ u v : Int64, u ≤ v → ofEnergy u ≤ ofEnergy v) ∧
    ∀ u : Int64, 0 ≤ u → zero ≤ ofEnergy u := by
  refine ⟨fun component currents hcheck idle rx tx idle' rx' tx' hidle hrx htx => ?_,
    fun u v h => ofEnergy_le_ofEnergy h, fun u h => zero_le_ofEnergy h⟩
  have hle := Currents.estimate_le_estimate hcheck hidle hrx htx
  exact ⟨isNaN_left_of_le hle, isNaN_right_of_le hle, hle⟩

/-- The largest current and the negative zero pass the check. In two milliseconds the one draws more
than a finite number says, and the charge is still no smaller than that of one millisecond. -/
theorem keeps_order_overflow :
    let currents : Currents := { idle := ⟨false, infinityMagnitude - 1, by decide⟩, rx := -zero }
    let short : Duration := ⟨1⟩
    let long : Duration := ⟨2⟩
    currents.check .wifi = .ok () ∧
      (currents.estimate long long long).isInfinite = true ∧
      currents.estimate short short short ≤ currents.estimate long long long ∧
      ofEnergy (-1) ≤ ofEnergy 1 ∧ zero ≤ ofEnergy 1 := by
  intro currents short long
  have hcheck : currents.check .wifi = .ok () := by decide +kernel
  have horder := keeps_order.1 .wifi currents hcheck short short short long long long (by decide)
    (by decide) (by decide)
  exact ⟨hcheck, by decide +kernel, horder.2.2, keeps_order.2.1 (-1) 1 (by decide),
    keeps_order.2.2 1 (by decide)⟩

end Charge

end PowerShare
