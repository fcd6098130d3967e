import PowerShare.Proofs.Attribution.Totals

/-!
# Forced estimates

A run may be told to pass over the charges that components reported and to make estimates instead.
Reported charges count only beside currents that can be used, so an estimate is there whenever one
is passed over:

* `Sample.basis_forced` -- only a reported charge gives way, and always to an estimate;
* `Sample.bestDraw_withoutCharge` -- a forced draw is the draw of a sample without any reported
  charge;
* `Sample.duration_bestDraw_forced` -- it lasts as long as the draw that is not forced;
* `Report.ForcedFrom` -- how a forced report may differ from the one that is not, and
  `Observation.shareOut_forced`: so they differ, and the forced one never saw a reported charge.
-/

namespace PowerShare

/-! ## 1. Samples -/

/-- The sample as if the component had reported no charge. -/
def Sample.withoutCharge (s : Sample) : Sample := { s with charge? := none }

namespace Sample

variable (s : Sample) (currents : Currents) (asked forced : Bool)

/-- **Only a reported charge gives way to force, and always to an estimate.** -/
theorem basis_forced : s.basis currents ⟨asked, true⟩ =
    if s.basis currents ⟨asked, false⟩ = .reported then .estimated
    else s.basis currents ⟨asked, false⟩ := by
  unfold basis Basis.choose
  -- The cases are the guards of the choice. A reported charge is taken only beside usable currents,
  -- so in the one case where force matters there is an estimate to fall back on.
  by_cases henergy : s.measured?.any (0 ≤ ·) = true
  · simp only [henergy, if_true]
    rfl
  · cases husable : currents.isUsable with
    | false => simp [henergy]
    | true =>
      by_cases hcharge : (s.reported?.any fun c => !c.isZero && c.isFinite) = true
      · simp [henergy, hcharge]
      · simp [henergy, hcharge]

theorem basis_forced_ne_reported : s.basis currents ⟨asked, true⟩ ≠ .reported := by
  rw [basis_forced]
  split
  · decide
  · assumption

/-- Where no charge was reported, force changes nothing. -/
theorem basis_withoutCharge :
    s.withoutCharge.basis currents ⟨asked, forced⟩ = s.basis currents ⟨asked, true⟩ := by
  show Basis.choose s.measured? none currents.isUsable forced =
    Basis.choose s.measured? s.reported? currents.isUsable true
  unfold Basis.choose
  simp

/-- **A forced draw is the draw of a sample without any reported charge.** -/
theorem bestDraw_withoutCharge (split : Bool) :
    s.withoutCharge.bestDraw currents ⟨asked, forced⟩ split =
      s.bestDraw currents ⟨asked, true⟩ split := by
  have hbasis := s.basis_forced_ne_reported currents asked
  unfold bestDraw
  rw [basis_withoutCharge]
  cases h : s.basis currents ⟨asked, true⟩ with
  | reported => exact absurd h hbasis
  | measured | estimated | unavailable => rfl

theorem share_withoutCharge (k : Consumer) :
    s.withoutCharge.share k currents ⟨asked, forced⟩ = s.share k currents ⟨asked, true⟩ := by
  show (s.withoutCharge.bestDraw currents ⟨asked, forced⟩ asked).share k
      (s.withoutCharge.basis currents ⟨asked, forced⟩) s.withoutCharge =
    (s.bestDraw currents ⟨asked, true⟩ asked).share k (s.basis currents ⟨asked, true⟩) s
  rw [bestDraw_withoutCharge, basis_withoutCharge]
  rfl

/-- Without force there is a basis just where there is one with it, so a draw lasts as long. -/
theorem duration_bestDraw_forced (split : Bool) :
    (s.bestDraw currents ⟨asked, true⟩ split).duration =
      (s.bestDraw currents ⟨asked, false⟩ split).duration := by
  unfold bestDraw
  rw [basis_forced]
  cases s.basis currents ⟨asked, false⟩ <;> rfl

end Sample

/-! ## 2. Reports -/

/-- A basis under force differs from the one without it just where that is a reported charge, and
is then an estimate. -/
structure Basis.ForcedFrom (forced free : Basis) : Prop where
  differs_iff : forced ≠ free ↔ free = .reported
  estimated : free = .reported → forced = .estimated

/-- A share under force lasts as long as without it, and is another one only if it rests on a
reported charge. -/
structure Share.ForcedFrom (forced free : Share) : Prop where
  duration : forced.duration = free.duration
  basis : forced.basis.ForcedFrom free.basis
  kept : free.basis ≠ .reported → forced = free

/-- A scope under force lasts as long as without it. -/
structure Scope.ForcedFrom (forced free : Scope) : Prop where
  duration : forced.duration = free.duration
  basis : forced.basis.ForcedFrom free.basis

/-- **How a forced report may differ from the one without force.** -/
structure Report.ForcedFrom (forced free : Report) : Prop where
  component : forced.component = free.component
  device : forced.device.ForcedFrom free.device
  tracked : forced.tracked.ForcedFrom free.tracked
  systemDuration : forced.systemDuration = free.systemDuration
  keys : forced.shares.keys = free.shares.keys
  shares : ∀ k s t, forced.shares.get? k = some s → free.shares.get? k = some t → s.ForcedFrom t

theorem Sample.forcedFrom_basis (s : Sample) (currents : Currents) (asked : Bool) :
    (s.basis currents ⟨asked, true⟩).ForcedFrom (s.basis currents ⟨asked, false⟩) := by
  rw [basis_forced]
  constructor
  · cases s.basis currents ⟨asked, false⟩ <;> decide
  · intro h
    rw [if_pos h]

theorem Sample.forcedFrom_share (s : Sample) (k : Consumer) (currents : Currents) (asked : Bool) :
    (s.share k currents ⟨asked, true⟩).ForcedFrom (s.share k currents ⟨asked, false⟩) where
  duration := s.duration_bestDraw_forced currents asked asked
  basis := s.forcedFrom_basis currents asked
  kept h := by
    have hsame : s.basis currents ⟨asked, true⟩ = s.basis currents ⟨asked, false⟩ := by
      rw [basis_forced]
      exact if_neg h
    unfold share
    rw [hsame]

namespace Observation

variable (o : Observation) (component : Component) (currents : Currents) (asked : Bool)

/-- The observation as if the component had reported no charges. -/
def withoutCharges : Observation :=
  { o with
    consumers := o.consumers.mapValues fun _ s => s.withoutCharge
    device := o.device.withoutCharge }

theorem consumersDuration_forced :
    o.consumersDuration currents ⟨asked, true⟩ = o.consumersDuration currents ⟨asked, false⟩ := by
  have hdurations : (o.consumerDraws currents ⟨asked, true⟩).map (·.duration) =
      (o.consumerDraws currents ⟨asked, false⟩).map (·.duration) := by
    unfold consumerDraws
    rw [List.map_map, List.map_map]
    exact List.map_congr_left fun s _ => s.duration_bestDraw_forced currents asked asked
  unfold consumersDuration
  rw [hdurations]

theorem durationLeft_forced :
    o.durationLeft component currents ⟨asked, true⟩ =
      o.durationLeft component currents ⟨asked, false⟩ := by
  unfold durationLeft deviceDraw
  rw [consumersDuration_forced, Sample.duration_bestDraw_forced]

/-- A forced run does not see reported charges. -/
theorem shareOut_withoutCharges (forced : Bool) :
    o.withoutCharges.shareOut component currents ⟨asked, forced⟩ =
      o.shareOut component currents ⟨asked, true⟩ :=
  shareOut_of_samples (fun e _ => e.2.share_withoutCharge currents asked forced e.1)
    (o.device.basis_withoutCharge currents asked forced)
    (o.device.bestDraw_withoutCharge currents asked forced false) component

/-- **What force changes in a report.** No duration; a basis only where it is a reported charge,
which then is an estimate and never nothing; and no share that rests on something else. The forced
run is, bit by bit and event by event, the run of the observation without its reported charges, be
that forced or not. -/
theorem shareOut_forced :
    (o.shareOut component currents ⟨asked, true⟩).value.ForcedFrom
      (o.shareOut component currents ⟨asked, false⟩).value ∧
    ∀ forced, o.withoutCharges.shareOut component currents ⟨asked, forced⟩ =
      o.shareOut component currents ⟨asked, true⟩ := by
  refine ⟨?_, o.shareOut_withoutCharges component currents asked⟩
  have hdevice := o.device.forcedFrom_basis currents asked
  rw [value_shareOut, value_shareOut]
  constructor
  case component => rfl
  case device => exact ⟨o.device.duration_bestDraw_forced currents asked false, hdevice⟩
  case tracked => exact ⟨o.consumersDuration_forced currents asked, hdevice⟩
  case systemDuration => exact congrArg Traced.value (o.durationLeft_forced component currents asked)
  case keys => exact (SortedMap.keys_mapValues _ _).trans (SortedMap.keys_mapValues _ _).symm
  case shares =>
    intro k s t hs ht
    simp only [get?_consumerShares, Option.map_eq_some_iff] at hs ht
    obtain ⟨sample, hsample, rfl⟩ := hs
    obtain ⟨same, hsame, rfl⟩ := ht
    obtain rfl : sample = same := Option.some.inj (hsample.symm.trans hsame)
    exact sample.forcedFrom_share k currents asked

/-- A device and a consumer with reported charges, and one whose energy was measured: force makes
estimates of the former two and leaves the latter. -/
theorem shareOut_forced_reported :
    let currents : Currents := ⟨.ofNat 1, .ofNat 50, .ofNat 100⟩
    let reporting : Sample := { counters := { tx := ⟨9⟩ }, charge? := some (.ofNat 3) }
    let measured : Sample :=
      { counters := { rx := ⟨4⟩ }, energy? := some 7200000, charge? := some (.ofNat 5) }
    let o : Observation :=
      { consumers := .ofList [(⟨1⟩, reporting), (⟨2⟩, measured)], device := reporting }
    let free := (o.shareOut .modem currents ⟨true, false⟩).value
    let forced := (o.shareOut .modem currents ⟨true, true⟩).value
    free.device.basis = .reported ∧ forced.device.basis = .estimated ∧
      forced.tracked.duration = free.tracked.duration ∧
      forced.shares.get? ⟨2⟩ = free.shares.get? ⟨2⟩ ∧
      (forced.shares.get? ⟨1⟩).map (·.charge) = some (Charge.ofCurrentTime (.ofNat 900)) ∧
      (o.withoutCharges.shareOut .modem currents ⟨true, false⟩).value = forced := by
  intro currents reporting measured o free forced
  obtain ⟨hreport, herased⟩ := o.shareOut_forced .modem currents true
  have hdevice : free.device.basis = .reported := by decide +kernel
  have hbasis : (free.shares.get? ⟨2⟩).map (·.basis) = some .measured := by decide +kernel
  refine ⟨hdevice, hreport.device.basis.estimated hdevice, hreport.tracked.duration, ?_, ?_,
    congrArg Traced.value (herased false)⟩
  · obtain ⟨t, ht, hmeasured⟩ := Option.map_eq_some_iff.1 hbasis
    obtain ⟨s, hs⟩ : ∃ s, forced.shares.get? ⟨2⟩ = some s :=
      Option.isSome_iff_exists.1 (by decide +kernel)
    have hkept := (hreport.shares ⟨2⟩ s t hs ht).kept (by rw [hmeasured]; decide)
    rw [hs, ht, hkept]
  · decide +kernel

end Observation

end PowerShare
