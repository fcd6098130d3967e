import PowerShare.Proofs.Attribution.Totals
import PowerShare.Proofs.Number.Nearest

/-!
# The charges of a report balance

The charge that is left to the system, the charge that the device is given and the event that tells
of a deficit are decided one by one: by the sign of a rounded difference, by a comparison, and by
that sign again. `charges_shareOut` says that the three agree on which side the device is of its
consumers, also where the two charges differ by less than any rounded step between larger numbers.

Not here: charges that are not finite. Two infinite charges have no difference.
-/

namespace PowerShare

namespace Observation

open Binary64

variable (o : Observation) (component : Component) (currents : Currents) (options : Options)

/-- **The charges of a report balance.** A device that drew no less than its consumers keeps its
charge and leaves the difference to the system; one that drew less is given the charge of its
consumers, leaves nothing, and is told of once, with the deficit. -/
theorem charges_shareOut (hdevice : (o.deviceDraw currents options).charge.isFinite = true)
    (htracked : (o.consumersCharge currents options).isFinite = true) :
    let run := o.shareOut component currents options
    let d := (o.deviceDraw currents options).charge
    let t := o.consumersCharge currents options
    run.value.tracked.charge = t ∧
    (t.signedUnits ≤ d.signedUnits →
      run.value.systemCharge = d - t ∧ run.value.device.charge = d ∧
        deficits .charge run.events = []) ∧
    (d.signedUnits < t.signedUnits →
      run.value.systemCharge = .zero ∧ run.value.device.charge = t ∧
        deficits .charge run.events = [(component, t - d)] ∧ Binary64.zero.less (t - d) = true) ∧
    (run.value.systemCharge.isNaN = false ∧ 0 ≤ run.value.systemCharge.place) ∧
    run.value.tracked.charge.signedUnits ≤ run.value.device.charge.signedUnits := by
  intro run d t
  have hvalue : run.value = _ := o.value_shareOut component currents options
  have htold : deficits .charge run.events = _ :=
    o.deficits_charge_shareOut component currents options
  have hless : d.less t = true ↔ d.signedUnits < t.signedUnits :=
    less_iff_signedUnits_lt hdevice htracked
  have hsign : (d - t).less .zero = true ↔ d.less t = true := sub_less_zero_iff hdevice htracked
  have hlarger : run.value.device.charge = if d.less t then t else d := by
    rw [← larger_of_isFinite hdevice, hvalue]
  rw [htold, hlarger, hvalue]
  unfold chargeLeft
  rcases remainingCharge_cases component d t with ⟨hrest, hleft⟩ | ⟨hrest, hleft⟩
  · -- The rounded difference is not below zero, so the device drew no less.
    have hnot : ¬ d.less t = true := fun h => Bool.false_ne_true (hrest.symm.trans (hsign.2 h))
    have hle : t.signedUnits ≤ d.signedUnits := Int.not_lt.1 fun h => hnot (hless.2 h)
    have hnumber : (d - t).isNaN = false := isNaN_sub_of_isFinite hdevice htracked
    rw [hleft, if_neg hnot]
    refine ⟨rfl, fun _ => ⟨rfl, rfl, rfl⟩, fun hlt => ?_, ⟨hnumber, ?_⟩, hle⟩
    · exact absurd hlt (Int.not_lt.2 hle)
    · refine Int.not_lt.1 fun hneg => ?_
      have hbelow : (d - t).less .zero = true := less_eq_true_iff.2 ⟨hnumber, by decide, hneg⟩
      exact Bool.false_ne_true (hrest.symm.trans hbelow)
  · have hsmaller : d.less t = true := hsign.1 hrest
    have hlt : d.signedUnits < t.signedUnits := hless.1 hsmaller
    rw [hleft, if_pos hsmaller]
    refine ⟨rfl, fun hle => ?_, fun _ => ⟨rfl, rfl, ?_, ?_⟩, ⟨rfl, Int.le_refl 0⟩, Int.le_refl _⟩
    · exact absurd hlt (Int.not_lt.2 hle)
    · rw [← neg_sub_of_less hdevice htracked hsmaller]
      rfl
    · rw [← neg_sub_of_less hdevice htracked hsmaller, zero_less_neg]
      exact hrest

/-- Consumers that drew one unit more than the device, the least there is above it: nothing is left,
and the event tells of just that unit. -/
theorem charges_shareOut_unit :
    let unit : Charge := ⟨false, 1, by decide⟩
    let currents : Currents := ⟨.ofNat 1, .ofNat 50, .ofNat 100⟩
    let o : Observation :=
      { consumers := .ofList [(⟨4⟩, { charge? := some unit }), (⟨7⟩, { charge? := some unit })]
        device := { charge? := some unit } }
    let run := o.shareOut .modem currents {}
    (o.deviceDraw currents {}).charge.isFinite = true ∧
      (o.consumersCharge currents {}).isFinite = true ∧ run.value.systemCharge = .zero ∧
      run.value.device.charge = unit + unit ∧ deficits .charge run.events = [(.modem, unit)] := by
  intro unit currents o run
  have hdevice : (o.deviceDraw currents {}).charge.isFinite = true := by decide +kernel
  have htracked : (o.consumersCharge currents {}).isFinite = true := by decide +kernel
  obtain ⟨-, -, hdeficit, -, -⟩ := o.charges_shareOut .modem currents {} hdevice htracked
  obtain ⟨hsystem, hcharge, htold, -⟩ := hdeficit (by decide +kernel)
  refine ⟨hdevice, htracked, hsystem, hcharge.trans ?_, htold.trans ?_⟩
  · decide +kernel
  · decide +kernel

end Observation

end PowerShare
