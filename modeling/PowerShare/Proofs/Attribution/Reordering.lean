import Mathlib.Algebra.Order.Group.MinMax
import PowerShare.Proofs.Attribution.Grounds
import PowerShare.Proofs.Attribution.Independence
import PowerShare.Proofs.Number.Sum

/-!
# Consumers in another order

The consumers of an observation are gone through in the order of their names, and what they drew is
added up on the way, every sum rounded. Other names give another order, and so perhaps other totals:

* `Observation.perm_consumerCharges_renamed` and `exists_consumerCharges_renamed` -- the orders that
  other names give are all orders there are;
* `Observation.ordinary_charge_bestDraw` -- no charge is a NaN other than the one for a missing
  result, so that two charges have one sum;
* `Report.NearTotals` and `Observation.nearTotals_shareOut` -- how far the totals may be from those
  of the exact sum, which knows no order;
* `Observation.totalCharges_renamed` -- **the totals are the same under all names just if the
  charges have one rounded sum in all orders;** so it is for two consumers, and for charges that are
  added without rounding, and otherwise the totals stay near the exact ones.
  `totalCharges_renamed_tenths` has three consumers with other totals under other names.

Not here: durations, which are added exactly.
-/

namespace PowerShare

open Binary64

/-! ## 1. Orders -/

/-- The charges that a report totals: of all consumers, of the device, and left to the system. -/
def Report.totalCharges (r : Report) : Charge × Charge × Charge :=
  (r.tracked.charge, r.device.charge, r.systemCharge)

namespace Observation

variable (o : Observation) (component : Component) (currents : Currents) (options : Options)

/-- What each consumer drew, in the order in which it is added up. -/
def consumerCharges : List Charge := (o.consumerDraws currents options).map (·.charge)

theorem consumersCharge_eq :
    o.consumersCharge currents options = (o.consumerCharges currents options).foldl (· + ·) .zero :=
  rfl

theorem consumerCharges_eq : o.consumerCharges currents options =
    o.consumers.values.map fun s => (s.bestDraw currents options options.breakdown).charge := by
  unfold consumerCharges consumerDraws
  rw [List.map_map]
  rfl

/-- Other names put the charges in another order. -/
theorem perm_consumerCharges_renamed {f : Consumer → Consumer} (hf : Function.Injective f) :
    ((o.renamed f).consumerCharges currents options).Perm (o.consumerCharges currents options) := by
  rw [consumerCharges_eq, consumerCharges_eq]
  exact (SortedMap.perm_values_rename hf o.consumers).map _

/-- **Any order of the charges is that of some other names.** -/
theorem exists_consumerCharges_renamed {charges : List Charge}
    (h : charges.Perm (o.consumerCharges currents options)) :
    ∃ f : Consumer → Consumer, Function.Injective f ∧
      (o.renamed f).consumerCharges currents options = charges := by
  rw [consumerCharges_eq] at h
  obtain ⟨samples, hsamples, rfl⟩ := SortedMap.exists_perm_map_eq h
  obtain ⟨f, hf, hvalues⟩ := SortedMap.exists_values_rename hsamples
  refine ⟨f, hf, ?_⟩
  rw [consumerCharges_eq, ← hvalues]
  rfl

/-- The totals depend on the device and on the rounded sum of the charges. -/
theorem totalCharges_shareOut : (o.shareOut component currents options).value.totalCharges =
    (o.consumersCharge currents options,
      (o.deviceDraw currents options).charge.larger (o.consumersCharge currents options),
      (remainingCharge component (o.deviceDraw currents options).charge
        (o.consumersCharge currents options)).value) := by
  unfold Report.totalCharges
  rw [value_shareOut]
  rfl

/-- Under other names with the same rounded sum, all totals are the same. -/
theorem totalCharges_renamed_of_consumersCharge {f : Consumer → Consumer}
    (h : (o.renamed f).consumersCharge currents options = o.consumersCharge currents options) :
    ((o.renamed f).shareOut component currents options).value.totalCharges =
      (o.shareOut component currents options).value.totalCharges := by
  have hdevice : (o.renamed f).deviceDraw currents options = o.deviceDraw currents options := rfl
  rw [totalCharges_shareOut, totalCharges_shareOut, hdevice, h]

end Observation

/-! ## 2. Charges and NaNs -/

theorem Charge.ordinary_ofEnergy (energy : Int64) : (Charge.ofEnergy energy).Ordinary :=
  ((ordinary_of_not_isNaN (isNaN_ofInt _)).div (ordinary_ofNat _)).mul (ordinary_ofNat _)

/-- Currents that can be used are finite, and products of finite numbers may be infinite, but a NaN
comes only from infinite ones of both signs. -/
theorem Counters.ordinary_estimate {currents : Currents} (h : currents.isUsable = true)
    (c : Counters) : (c.estimate currents).Ordinary := by
  have hcurrent (m : Mode × Binary64) (hm : m ∈ currents.modes) : m.2.Ordinary := by
    have hmode := List.all_eq_true.1 h m hm
    rw [Bool.and_eq_true] at hmode
    exact ordinary_of_not_isNaN (isNaN_of_isFinite hmode.2)
  have hidle : currents.idle.Ordinary := hcurrent (.idle, currents.idle) (by simp [Currents.modes])
  have hrx : currents.rx.Ordinary := hcurrent (.rx, currents.rx) (by simp [Currents.modes])
  have htx : currents.tx.Ordinary := hcurrent (.tx, currents.tx) (by simp [Currents.modes])
  exact ((((ordinary_ofNat _).mul hidle).add ((ordinary_ofNat _).mul hrx)).add
    ((ordinary_ofNat _).mul htx)).div (ordinary_ofNat _)

/-- **No charge is a NaN other than the one for a missing result,** with whatever currents. -/
theorem Sample.ordinary_charge_bestDraw (s : Sample) (currents : Currents) (options : Options)
    (asked : Bool) : (s.bestDraw currents options asked).charge.Ordinary := by
  cases hbasis : s.basis currents options with
  | measured =>
    obtain ⟨energy, henergy⟩ := (s.basis_eq_measured_iff currents options).1 hbasis
    rw [charge_bestDraw_measured hbasis henergy]
    exact Charge.ordinary_ofEnergy energy
  | reported =>
    obtain ⟨-, -, -, c, hc⟩ := (s.basis_eq_reported_iff currents options).1 hbasis
    rw [charge_bestDraw_reported hbasis hc]
    exact ordinary_of_not_isNaN (isNaN_of_isFinite (reported?_eq_some_iff.1 hc).2.2)
  | estimated =>
    obtain ⟨-, husable, -⟩ := (s.basis_eq_estimated_iff currents options).1 hbasis
    rw [charge_bestDraw_estimated hbasis]
    exact Counters.ordinary_estimate husable _
  | unavailable =>
    unfold bestDraw
    rw [hbasis]
    exact ordinary_of_not_isNaN rfl

/-! ## 3. Totals of the exact sum -/

/-- How near the totals of a report are to those that the exact sum `total` of the consumers'
charges gives beside the device's. The sum may be off by `off`, and what is left is rounded once
more. -/
structure Report.NearTotals (r : Report) (device total off : ℚ) : Prop where
  tracked_near : |r.tracked.charge.value - total| ≤ off
  device_near : |r.device.charge.value - max device total| ≤ off
  system_near :
    |r.systemCharge.value - max (device - total) 0| ≤ off + roundoff * (|device - total| + off)

/-- What is left is the exact difference, rounded once. Where it is cut at zero, nothing is off:
the rounded difference is below zero just where the exact one is. -/
theorem value_remainingCharge_near (component : Component) {d t : Charge} (hd : d.isFinite = true)
    (ht : t.isFinite = true) (hrest : (remainingCharge component d t).value.isFinite = true) :
    |(remainingCharge component d t).value.value - max (d.value - t.value) 0| ≤
      roundoff * |d.value - t.value| := by
  have hsign : (d - t).less .zero = true ↔ d.value < t.value :=
    (sub_less_zero_iff hd ht).trans (less_iff_value_lt hd ht)
  rcases remainingCharge_cases component d t with ⟨hkept, hleft⟩ | ⟨hcut, hleft⟩
  · have hle : t.value ≤ d.value :=
      not_lt.1 fun hlt => Bool.false_ne_true (hkept.symm.trans (hsign.2 hlt))
    rw [hleft] at hrest ⊢
    rw [max_eq_left (sub_nonneg.2 hle)]
    exact abs_value_sub_sub_le ht hrest
  · have hlt : d.value < t.value := hsign.1 hcut
    have hzero : Binary64.zero.value = 0 := value_of_magnitude_eq_zero rfl
    rw [hleft, max_eq_right (sub_nonpos.2 hlt.le)]
    dsimp only
    rw [hzero, sub_zero, abs_zero]
    exact mul_nonneg roundoff_nonneg (abs_nonneg _)

/-- The same beside a total that the consumers' is off from: the cut passes no more on than that. -/
theorem rest_near {rest device tracked total off : ℚ}
    (hrest : |rest - max (device - tracked) 0| ≤ roundoff * |device - tracked|)
    (hnear : |tracked - total| ≤ off) :
    |rest - max (device - total) 0| ≤ off + roundoff * (|device - total| + off) := by
  have hshift : |(device - tracked) - (device - total)| ≤ off := by
    rwa [sub_sub_sub_cancel_left, abs_sub_comm]
  have hcut : |max (device - tracked) 0 - max (device - total) 0| ≤ off :=
    (abs_max_sub_max_le_abs _ _ _).trans hshift
  have hsize : |device - tracked| ≤ |device - total| + off := by
    have htriangle := abs_sub_abs_le_abs_sub (device - tracked) (device - total)
    linarith
  have hrounded : roundoff * |device - tracked| ≤ roundoff * (|device - total| + off) :=
    mul_le_mul_of_nonneg_left hsize roundoff_nonneg
  calc |rest - max (device - total) 0|
      ≤ |rest - max (device - tracked) 0| +
          |max (device - tracked) 0 - max (device - total) 0| := abs_sub_le _ _ _
    _ ≤ off + roundoff * (|device - total| + off) := by linarith

namespace Observation

variable (o : Observation) (component : Component) (currents : Currents) (options : Options)

/-- What the rounded sum of the consumers' charges may be off. -/
def chargeSlack : ℚ :=
  slack (o.consumers.size - 1) * totalSize (o.consumerCharges currents options)

theorem length_consumerCharges :
    (o.consumerCharges currents options).length = o.consumers.size := by
  rw [consumerCharges_eq, List.length_map]
  exact List.length_map _

/-- **The totals of a report are near those of the exact sum,** as long as they are finite. -/
theorem nearTotals_shareOut
    (hdevice : (o.deviceDraw currents options).charge.isFinite = true)
    (htracked : (o.shareOut component currents options).value.tracked.charge.isFinite = true)
    (hsystem : (o.shareOut component currents options).value.systemCharge.isFinite = true) :
    (o.shareOut component currents options).value.NearTotals
      (o.deviceDraw currents options).charge.value
      (exactSum (o.consumerCharges currents options)) (o.chargeSlack currents options) := by
  rw [value_shareOut] at htracked hsystem ⊢
  dsimp only at htracked hsystem
  have hnear : |(o.consumersCharge currents options).value -
      exactSum (o.consumerCharges currents options)| ≤ o.chargeSlack currents options := by
    rw [consumersCharge_eq] at htracked ⊢
    unfold chargeSlack
    rw [← o.length_consumerCharges currents options]
    exact abs_value_sum_sub_le htracked
  have hrest := value_remainingCharge_near component hdevice htracked hsystem
  refine ⟨hnear, ?_, rest_near hrest hnear⟩
  dsimp only
  rw [value_larger hdevice htracked, max_comm, max_comm _ (exactSum _)]
  exact (abs_max_sub_max_le_abs _ _ _).trans hnear

/-! ## 4. Totals under other names -/

/-- The totals stay the same whatever other names the consumers are given. -/
def TotalsKept : Prop :=
  ∀ f : Consumer → Consumer, Function.Injective f →
    ((o.renamed f).shareOut component currents options).value.totalCharges =
      (o.shareOut component currents options).value.totalCharges

/-- **The totals are kept just if the charges have one rounded sum in all orders.** -/
theorem totalsKept_iff : o.TotalsKept component currents options ↔
    ∀ charges : List Charge, charges.Perm (o.consumerCharges currents options) →
      charges.foldl (· + ·) .zero = o.consumersCharge currents options := by
  constructor
  · -- Whatever order is asked for, some names give it.
    intro hkept charges hperm
    obtain ⟨f, hf, rfl⟩ := o.exists_consumerCharges_renamed currents options hperm
    have htotals := hkept f hf
    rw [totalCharges_shareOut, totalCharges_shareOut] at htotals
    rw [← consumersCharge_eq]
    exact (Prod.mk.inj htotals).1
  · intro hsame f hf
    refine o.totalCharges_renamed_of_consumersCharge component currents options ?_
    rw [consumersCharge_eq]
    exact hsame _ (o.perm_consumerCharges_renamed currents options hf)

theorem totalsKept_of_length_le (h : o.consumers.size ≤ 2) :
    o.TotalsKept component currents options := by
  have hordinary : ∀ charge ∈ o.consumerCharges currents options, charge.Ordinary := by
    intro charge hcharge
    rw [consumerCharges_eq] at hcharge
    obtain ⟨s, -, rfl⟩ := List.mem_map.1 hcharge
    exact s.ordinary_charge_bestDraw currents options _
  rw [← o.length_consumerCharges currents options] at h
  refine (o.totalsKept_iff component currents options).2 fun charges hperm => ?_
  rw [consumersCharge_eq]
  exact foldl_add_perm_of_length_le hordinary h hperm

theorem totalsKept_of_onGrid {k : Nat} (h : OnGrid k (o.consumerCharges currents options)) :
    o.TotalsKept component currents options := by
  refine (o.totalsKept_iff component currents options).2 fun charges hperm => ?_
  rw [consumersCharge_eq]
  exact h.foldl_add_perm hperm

/-- Other names leave the device, the exact sum of the charges and what it may be off. -/
theorem nearTotals_renamed {f : Consumer → Consumer} (hf : Function.Injective f)
    (hdevice : (o.deviceDraw currents options).charge.isFinite = true) :
    let r := ((o.renamed f).shareOut component currents options).value
    r.tracked.charge.isFinite = true → r.systemCharge.isFinite = true →
      r.NearTotals (o.deviceDraw currents options).charge.value
        (exactSum (o.consumerCharges currents options)) (o.chargeSlack currents options) := by
  intro r htracked hsystem
  have hperm := o.perm_consumerCharges_renamed currents options hf
  have hslack : (o.renamed f).chargeSlack currents options = o.chargeSlack currents options := by
    unfold chargeSlack
    rw [← length_consumerCharges _ currents options, ← length_consumerCharges _ currents options,
      hperm.length_eq, totalSize_perm hperm]
  rw [← exactSum_perm hperm, ← hslack]
  exact (o.renamed f).nearTotals_shareOut component currents options hdevice htracked hsystem

/-- **The totals are the same under all names just if the charges have one rounded sum in all
orders.** So it is for at most two consumers, whatever they drew, and for charges that are added
without rounding. For others, the totals stay near those of the exact sum, whatever the names, as
long as they are finite. -/
theorem totalCharges_renamed :
    (o.TotalsKept component currents options ↔
      ∀ charges : List Charge, charges.Perm (o.consumerCharges currents options) →
        charges.foldl (· + ·) .zero = o.consumersCharge currents options) ∧
    (o.consumers.size ≤ 2 ∨ (∃ k, OnGrid k (o.consumerCharges currents options)) →
      o.TotalsKept component currents options) ∧
    ∀ f : Consumer → Consumer, Function.Injective f →
      let r := ((o.renamed f).shareOut component currents options).value
      (o.deviceDraw currents options).charge.isFinite = true →
      r.tracked.charge.isFinite = true → r.systemCharge.isFinite = true →
        r.NearTotals (o.deviceDraw currents options).charge.value
          (exactSum (o.consumerCharges currents options)) (o.chargeSlack currents options) := by
  refine ⟨o.totalsKept_iff component currents options, fun hexact => ?_, fun f hf => ?_⟩
  · rcases hexact with hfew | ⟨k, hgrid⟩
    · exact o.totalsKept_of_length_le component currents options hfew
    · exact o.totalsKept_of_onGrid component currents options hgrid
  · intro r hdevice htracked hsystem
    exact o.nearTotals_renamed component currents options hf hdevice htracked hsystem

/-- Whole charges are on a grid: consumers 1 and 3 change places, and the totals stay. -/
theorem totalCharges_renamed_whole :
    let currents : Currents := ⟨.ofNat 1, .ofNat 50, .ofNat 100⟩
    let o : Observation :=
      { consumers := .ofList [(⟨1⟩, { charge? := some (.ofNat 3) }),
          (⟨2⟩, { charge? := some (.ofNat 5) }), (⟨3⟩, { charge? := some (.ofNat 9) })]
        device := { charge? := some (.ofNat 20) } }
    let swap : Consumer → Consumer := Equiv.swap ⟨1⟩ ⟨3⟩
    let r := ((o.renamed swap).shareOut .modem currents {}).value
    Function.Injective swap ∧ OnGrid 1074 (o.consumerCharges currents {}) ∧
      r.totalCharges = (o.shareOut .modem currents {}).value.totalCharges ∧
      r.totalCharges = (.ofNat 17, .ofNat 20, .ofNat 3) ∧
      r.NearTotals (o.deviceDraw currents {}).charge.value
        (exactSum (o.consumerCharges currents {})) (o.chargeSlack currents {}) := by
  intro currents o swap r
  have hswap : Function.Injective swap := (Equiv.swap _ _).injective
  have hgrid : OnGrid 1074 (o.consumerCharges currents {}) := by
    have hcharges : o.consumerCharges currents {} = [.ofNat 3, .ofNat 5, .ofNat 9] := by
      decide +kernel
    rw [hcharges]
    exact ⟨by decide, by decide +kernel, by decide +kernel, by decide +kernel⟩
  obtain ⟨-, hkept, hnear⟩ := o.totalCharges_renamed .modem currents {}
  refine ⟨hswap, hgrid, hkept (.inr ⟨1074, hgrid⟩) swap hswap, by decide +kernel, ?_⟩
  exact hnear swap hswap (by decide +kernel) (by decide +kernel) (by decide +kernel)

/-- Tenths are rounded: consumers 1 and 3 change places, and all three totals are others. Under one
naming the consumers seem to have drawn more than the device, which is told of, and under the other
less. -/
theorem totalCharges_renamed_tenths :
    let tenths (n : Nat) : Charge := (⟨n, -1⟩ : Decimal).toBinary64 false
    let currents : Currents := ⟨.ofNat 1, .ofNat 50, .ofNat 100⟩
    let o : Observation :=
      { consumers := .ofList [(⟨1⟩, { charge? := some (tenths 2) }),
          (⟨2⟩, { charge? := some (tenths 4) }), (⟨3⟩, { charge? := some (tenths 3) })]
        device := { charge? := some (tenths 9) } }
    let swap : Consumer → Consumer := Equiv.swap ⟨1⟩ ⟨3⟩
    let run := o.shareOut .modem currents {}
    let run' := (o.renamed swap).shareOut .modem currents {}
    Function.Injective swap ∧ run'.value.tracked.charge ≠ run.value.tracked.charge ∧
      run'.value.device.charge ≠ run.value.device.charge ∧
      run'.value.systemCharge ≠ run.value.systemCharge ∧
      (deficits .charge run.events).length = 1 ∧ deficits .charge run'.events = [] := by
  refine ⟨(Equiv.swap _ _).injective, ?_⟩
  decide +kernel

end Observation

end PowerShare
