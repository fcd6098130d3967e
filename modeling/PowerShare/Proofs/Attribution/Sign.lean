import PowerShare.Proofs.Attribution.Grounds
import PowerShare.Proofs.Attribution.Independence
import PowerShare.Proofs.Number.Addition
import PowerShare.Sample.Reading
import PowerShare.Text.Utf8

/-!
# Charges below zero

A checked profile holds no current below zero, and measured energy below zero does not count. A
charge that the component reported is taken over as it is, unless it is zero or not finite: so a
consumer's charge is below zero just where the component reported it so.

* `Currents.positive_of_check` -- what the check of a profile says of currents that can be used;
* `Sample.charge_bestDraw_cases` -- a draw is not below zero, or it is the charge reported;
* `Observations.charges_outcomes` -- what is below zero in the reports of a checked profile;
* `Observations.reported_below_zero` -- a file that is read without complaint and has a report in
  which all of it is below zero.
-/

namespace PowerShare

open Binary64

/-! ## 1. Checked currents -/

/-- Checks made one after another succeed if all of them do: the first that does not ends them. -/
theorem forM_eq_ok_iff {ε κ : Type} {check : κ → Except ε Unit} {ks : List κ} :
    ks.forM check = .ok () ↔ ∀ k ∈ ks, check k = .ok () := by
  induction ks with
  | nil => exact ⟨fun _ k hk => absurd hk List.not_mem_nil, fun _ => rfl⟩
  | cons first rest ih =>
    rw [show (first :: rest).forM check = (check first >>= fun _ => rest.forM check) from rfl,
      List.forall_mem_cons]
    cases hfirst : check first with
    | error e => exact ⟨nofun, fun h => nomatch h.1⟩
    | ok _ => exact ih.trans ⟨fun h => ⟨rfl, h⟩, And.right⟩

/-- Currents pass the check of whatever component they are if each of them is valid. -/
theorem Currents.check_eq_ok_iff {component : Component} {c : Currents} :
    c.check component = .ok () ↔ ∀ m ∈ c.modes, isValid m.2 = true := by
  unfold check
  cases hfind : c.modes.find? fun m => !isValid m.2 with
  | none => exact ⟨fun _ m hm => by simpa using List.find?_eq_none.1 hfind m hm, fun _ => rfl⟩
  | some m =>
    refine ⟨nofun, fun h => absurd (h m (List.mem_of_find?_eq_some hfind)) ?_⟩
    simpa using List.find?_some hfind

theorem Profile.check_eq_ok_iff {p : Profile} : p.check = .ok () ↔
    ∀ component ∈ Component.all, ∀ m ∈ (p.currents component).modes,
      Currents.isValid m.2 = true := by
  unfold check
  rw [forM_eq_ok_iff]
  exact forall₂_congr fun _ _ => Currents.check_eq_ok_iff

/-- Checked currents that can be used are finite and above zero. -/
theorem Currents.positive_of_check {component : Component} {c : Currents}
    (hcheck : c.check component = .ok ()) (husable : c.isUsable = true) :
    c.idle.Positive ∧ c.rx.Positive ∧ c.tx.Positive := by
  have hpositive (m : Mode × Binary64) (hm : m ∈ c.modes) : m.2.Positive := by
    have hv := check_eq_ok_iff.1 hcheck m hm
    have hu := List.all_eq_true.1 husable m hm
    simp only [isValid, Bool.and_eq_true, Bool.not_eq_true'] at hv hu
    have hnumber : m.2.isNaN = false := isNaN_of_isFinite hv.1
    exact ⟨nonneg_of_not_less_zero hnumber hu.1 hv.2, hv.1, hu.1⟩
  exact ⟨hpositive (.idle, c.idle) (by simp [modes]), hpositive (.rx, c.rx) (by simp [modes]),
    hpositive (.tx, c.tx) (by simp [modes])⟩

/-- A checked profile has checked currents for each component. -/
theorem Profile.check_currents {p : Profile} (h : p.check = .ok ()) (component : Component) :
    (p.currents component).check component = .ok () :=
  Currents.check_eq_ok_iff.2 (check_eq_ok_iff.1 h component (by cases component <;> decide))

/-! ## 2. Draws -/

theorem Charge.nonneg_ofEnergy {energy : Int64} (h : 0 ≤ energy) :
    (Charge.ofEnergy energy).Nonneg := by
  have hint : 0 ≤ energy.toInt := by simpa using Int64.le_iff_toInt_le.1 h
  have hscale : (ofNat 3600000000).Positive :=
    ⟨nonneg_ofNat _, by decide +kernel, by decide +kernel⟩
  have hthousand : (ofNat 1000).Positive := ⟨nonneg_ofNat _, by decide +kernel, by decide +kernel⟩
  exact ((nonneg_ofInt hint).div hscale).mul hthousand

theorem nonneg_measuredCharge (energy? : Option Int64) :
    (measuredCharge (measuredEnergy? energy?)).Nonneg := by
  cases h : measuredEnergy? energy? with
  | none => exact nonneg_zero
  | some energy =>
    have hsign : 0 ≤ energy := by
      obtain ⟨-, hsign⟩ := Option.filter_eq_some_iff.1 h
      simpa using hsign
    exact Charge.nonneg_ofEnergy hsign

theorem Counters.nonneg_estimate {component : Component} {currents : Currents}
    (hcheck : currents.check component = .ok ()) (husable : currents.isUsable = true)
    (c : Counters) : (c.estimate currents).Nonneg := by
  obtain ⟨hidle, hrx, htx⟩ := Currents.positive_of_check hcheck husable
  have hscale : (ofNat 3600000).Positive := ⟨nonneg_ofNat _, by decide +kernel, by decide +kernel⟩
  exact ((((nonneg_ofNat _).mul hidle).add ((nonneg_ofNat _).mul hrx)).add
    ((nonneg_ofNat _).mul htx)).div hscale

namespace Sample

variable (s : Sample) {component : Component} {currents : Currents} (options : Options)

/-- **A draw is not below zero, or it is the charge that the component reported,** which is finite
and not zero. -/
theorem charge_bestDraw_cases (hcheck : currents.check component = .ok ()) (asked : Bool) :
    (s.basis currents options ≠ .reported ∧ (s.bestDraw currents options asked).charge.Nonneg) ∨
    (s.basis currents options = .reported ∧
      ∃ c, s.charge? = some c ∧ c.isZero = false ∧ c.isFinite = true ∧
        (s.bestDraw currents options asked).charge = c) := by
  unfold bestDraw
  cases hbasis : s.basis currents options with
  | measured => exact .inl ⟨by decide, nonneg_measuredCharge _⟩
  | estimated =>
    refine .inl ⟨by decide, ?_⟩
    obtain ⟨-, husable, -⟩ := (s.basis_eq_estimated_iff currents options).1 hbasis
    exact Counters.nonneg_estimate hcheck husable s.counters
  | unavailable => exact .inl ⟨by decide, nonneg_zero⟩
  | reported =>
    obtain ⟨-, -, -, c, hreported⟩ := (s.basis_eq_reported_iff currents options).1 hbasis
    obtain ⟨hc, hnonzero, hfinite⟩ := reported?_eq_some_iff.1 hreported
    refine .inr ⟨rfl, c, hc, hnonzero, hfinite, ?_⟩
    simp only [Sample.draw, hreported]
    rfl

/-- A draw is broken down into charges that are not below zero, whatever its basis. -/
theorem exists_breakdown (hcheck : currents.check component = .ok ()) (asked : Bool) :
    ∃ charge, (∀ state, (charge state).Nonneg) ∧
      (s.bestDraw currents options asked).byState? = breakdown asked charge := by
  unfold bestDraw
  cases hbasis : s.basis currents options with
  | measured => exact ⟨_, fun _ => nonneg_measuredCharge _, rfl⟩
  | estimated =>
    obtain ⟨-, husable, -⟩ := (s.basis_eq_estimated_iff currents options).1 hbasis
    exact ⟨_, fun _ => Counters.nonneg_estimate hcheck husable _, rfl⟩
  | reported => exact ⟨_, fun _ => nonneg_zero, rfl⟩
  | unavailable => exact ⟨_, fun _ => nonneg_zero, rfl⟩

/-- A share's charge is below zero just where it is a reported one that is below zero. -/
theorem share_less_zero_iff (hcheck : currents.check component = .ok ()) (k : Consumer) :
    (s.share k currents options).charge.less .zero = true ↔
      (s.share k currents options).basis = .reported ∧
        ∃ c, s.charge? = some c ∧ c.less .zero = true ∧ (s.share k currents options).charge = c := by
  show (s.bestDraw currents options options.breakdown).charge.less .zero = true ↔
    s.basis currents options = .reported ∧ ∃ c, s.charge? = some c ∧ c.less .zero = true ∧
      (s.bestDraw currents options options.breakdown).charge = c
  rcases s.charge_bestDraw_cases options hcheck options.breakdown with
    ⟨hbasis, hsign⟩ | ⟨hbasis, c, hc, -, -, hcharge⟩
  · rw [hsign.less_zero]
    exact ⟨fun h => absurd h Bool.false_ne_true, fun h => absurd h.1 hbasis⟩
  · rw [hcharge]
    exact ⟨fun h => ⟨hbasis, c, hc, h, rfl⟩, fun ⟨_, _, _, h, hsame⟩ => hsame ▸ h⟩

theorem share_stateCharge_less_zero (hcheck : currents.check component = .ok ())
    {k consumer : Consumer} {state : RunState} {c : Charge}
    (h : (s.share k currents options).stateCharge? consumer state = some c) :
    c.less .zero = false := by
  unfold Share.stateCharge? at h
  obtain ⟨keys, hkeys, hc⟩ := Option.bind_eq_some_iff.1 h
  obtain ⟨m, hm, rfl⟩ := Option.map_eq_some_iff.1 hkeys
  obtain ⟨found, -, hfound⟩ := (SortedMap.get?_rename_eq_some_iff (StateKey.mk_injective k)).1 hc
  obtain ⟨charge, hcharge, hdraw⟩ := s.exists_breakdown options hcheck options.breakdown
  rw [get?_breakdown (hdraw.symm.trans hm) hfound]
  exact (hcharge found).less_zero

theorem isNaN_charge_bestDraw (hcheck : currents.check component = .ok ()) (asked : Bool) :
    (s.bestDraw currents options asked).charge.isNaN = false := by
  rcases s.charge_bestDraw_cases options hcheck asked with
    ⟨-, hsign⟩ | ⟨-, c, -, -, hfinite, hcharge⟩
  · exact hsign.isNaN_eq
  · rw [hcharge]
    exact isNaN_of_isFinite hfinite

end Sample

/-! ## 3. Reports -/

namespace Observation

variable (o : Observation) (component : Component) {currents : Currents} (options : Options)

theorem chargeLeft_less_zero :
    (o.chargeLeft component currents options).value.less .zero = false := by
  unfold chargeLeft
  rcases remainingCharge_cases component (o.deviceDraw currents options).charge
    (o.consumersCharge currents options) with ⟨hrest, h⟩ | ⟨-, h⟩
  · rw [h]
    exact hrest
  · rw [h]
    exact nonneg_zero.less_zero

/-- Consumers of which none is below zero are not below zero together. -/
theorem nonneg_consumersCharge (hcheck : currents.check component = .ok ())
    (h : ∀ k share, (o.consumerShares currents options).get? k = some share →
      share.charge.less .zero = false) : (o.consumersCharge currents options).Nonneg := by
  refine nonneg_foldl_add (fun c hc => ?_) nonneg_zero
  obtain ⟨d, hd, rfl⟩ := List.mem_map.1 hc
  obtain ⟨s, hs, rfl⟩ := List.mem_map.1 hd
  obtain ⟨⟨k, s⟩, hentry, rfl⟩ := List.mem_map.1 hs
  have hshare : (o.consumerShares currents options).get? k = some (s.share k currents options) := by
    rw [get?_consumerShares, SortedMap.get?_eq_some_iff.2 hentry]
    rfl
  have hless : (s.bestDraw currents options options.breakdown).charge.less .zero = false :=
    h k _ hshare
  rcases s.charge_bestDraw_cases options hcheck options.breakdown with
    ⟨-, hsign⟩ | ⟨-, c, -, hnonzero, hfinite, hcharge⟩
  · exact hsign
  · rw [hcharge] at hless ⊢
    exact nonneg_of_not_less_zero (isNaN_of_isFinite hfinite) hnonzero hless

/-- A sum from zero on that is not below zero has no minus sign. -/
theorem nonneg_consumersCharge_of_le (h : zero ≤ o.consumersCharge currents options) :
    (o.consumersCharge currents options).Nonneg := (plain_zero.foldl_add _).nonneg h

/-- Above consumers that are not below zero, the device is given no less than the system. -/
theorem larger_not_less_chargeLeft (hcheck : currents.check component = .ok ())
    (h : (o.consumersCharge currents options).Nonneg) :
    ((o.deviceDraw currents options).charge.larger (o.consumersCharge currents options)).less
      (o.chargeLeft component currents options).value = false := by
  have hnumber : (o.deviceDraw currents options).charge.isNaN = false :=
    o.device.isNaN_charge_bestDraw options hcheck false
  unfold chargeLeft
  rcases remainingCharge_cases component (o.deviceDraw currents options).charge
    (o.consumersCharge currents options) with ⟨-, hleft⟩ | ⟨-, hleft⟩
  · rw [hleft]
    exact less_eq_false_of_less hnumber (place_le_larger hnumber _) (not_less_sub hnumber h)
  · rw [hleft]
    exact h.larger_less_zero hnumber

end Observation

namespace Observations

/-- **What is below zero in the reports of a checked profile.** A consumer's charge is below zero
just where it rests on a reported charge that is, and then it is that charge. No charge of a
breakdown and no charge left to the system is below zero. Where no consumer's charge is, neither is
that of all consumers; and wherever that one is at least zero, whatever single consumers have, the
device's is not below zero and the system is left no more than the device has. -/
theorem charges_outcomes {profile : Profile} (hprofile : profile.check = .ok ())
    (os : Observations) (options : Options) {component : Component} {run : Traced Outcome}
    (hrun : (os.outcomes profile options).get? component = some run) {r : Report}
    (hreport : run.value = .report r) :
    ∃ o : Observation, os.get? component = some o ∧
      (∀ k share, r.shares.get? k = some share →
        (share.charge.less .zero = true ↔ share.basis = .reported ∧
          ∃ s c, o.consumers.get? k = some s ∧ s.charge? = some c ∧ c.less .zero = true ∧
            share.charge = c) ∧
        ∀ consumer state c, share.stateCharge? consumer state = some c →
          c.less .zero = false) ∧
      r.systemCharge.less .zero = false ∧
      ((∀ k share, r.shares.get? k = some share → share.charge.less .zero = false) →
        Binary64.zero ≤ r.tracked.charge) ∧
      (Binary64.zero ≤ r.tracked.charge →
        r.tracked.charge.less .zero = false ∧ r.device.charge.less .zero = false ∧
          r.device.charge.less r.systemCharge = false) := by
  have hcheck := Profile.check_currents hprofile component
  unfold outcomes at hrun
  rw [SortedMap.get?_mapValues, Option.map_eq_some_iff] at hrun
  obtain ⟨o, ho, rfl⟩ := hrun
  have hvalue : r = (o.shareOut component (profile.currents component) options).value := by
    unfold Observation.outcome at hreport
    split at hreport
    · exact (Outcome.report.inj hreport).symm
    · cases hreport
  rw [Observation.value_shareOut] at hvalue
  subst hvalue
  refine ⟨o, ho, fun k share hshare => ?_, o.chargeLeft_less_zero component options,
    fun hshares => ?_, fun hleast => ?_⟩
  · simp only at hshare
    rw [Observation.get?_consumerShares, Option.map_eq_some_iff] at hshare
    obtain ⟨s, hs, rfl⟩ := hshare
    refine ⟨(s.share_less_zero_iff options hcheck k).trans (and_congr_right fun _ => ?_),
      fun _ _ _ h => s.share_stateCharge_less_zero options hcheck h⟩
    constructor
    · intro ⟨c, hc⟩
      exact ⟨s, c, hs, hc⟩
    · intro ⟨s', c, hs', hc⟩
      obtain rfl := Option.some.inj (hs.symm.trans hs')
      exact ⟨c, hc⟩
  · have hsum := o.nonneg_consumersCharge component options hcheck hshares
    exact zero_le_iff.2 hsum.atLeastZero
  · have hsum := o.nonneg_consumersCharge_of_le options hleast
    have hnumber := o.device.isNaN_charge_bestDraw options hcheck false
    exact ⟨hsum.less_zero, hsum.larger_less_zero hnumber,
      o.larger_not_less_chargeLeft component options hcheck hsum⟩

/-- A consumer below zero next to a larger one: its share is the charge that it reported. The two
are not below zero together, so neither is the device, and the system is left no more than it has:
what the two do not cover together. -/
theorem charges_outcomes_reported :
    let profile : Profile := { wifi := ⟨.ofNat 1, .ofNat 50, .ofNat 100⟩ }
    let o : Observation :=
      { consumers :=
          .ofList [(⟨4⟩, { charge? := some (.ofNat 3) }), (⟨7⟩, { charge? := some (.ofInt (-2)) })]
        device := { charge? := some (.ofNat 5) } }
    let os : Observations := .ofList [(.wifi, o)]
    let r := (o.shareOut .wifi profile.wifi {}).value
    profile.check = .ok () ∧
      ((os.outcomes profile {}).get? .wifi).map (·.value) = some (.report r) ∧
      (∃ share, r.shares.get? ⟨7⟩ = some share ∧ share.basis = .reported ∧
        share.charge = .ofInt (-2)) ∧
      r.systemCharge.less .zero = false ∧ r.tracked.charge = .ofNat 1 ∧
      r.device.charge.less .zero = false ∧ r.device.charge.less r.systemCharge = false ∧
      r.systemCharge = .ofNat 4 := by
  intro profile o os r
  have hcheck : profile.check = .ok () := Profile.check_eq_ok_iff.2 (by decide +kernel)
  have hrun : (os.outcomes profile {}).get? .wifi = some (o.outcome .wifi profile.wifi {}) := by
    with_unfolding_all rfl
  have hvalue : (o.outcome .wifi profile.wifi {}).value = .report r := rfl
  obtain ⟨_, _, hshares, hsystem, -, hleast⟩ := charges_outcomes hcheck os {} hrun hvalue
  have htracked : r.tracked.charge = .ofNat 1 := by decide +kernel
  have hone : Binary64.zero ≤ r.tracked.charge := by
    rw [htracked]
    exact zero_le_iff.2 (nonneg_ofNat 1).atLeastZero
  obtain ⟨-, hdevice, hmost⟩ := hleast hone
  obtain ⟨share, hshare⟩ : ∃ share, r.shares.get? ⟨7⟩ = some share :=
    Option.isSome_iff_exists.1 (by decide +kernel)
  have hcharge : share.charge = .ofInt (-2) := by
    have h : (r.shares.get? ⟨7⟩).map (·.charge) = some (.ofInt (-2)) := by decide +kernel
    rw [hshare] at h
    exact Option.some.inj h
  have hbelow : share.charge.less .zero = true := by
    rw [hcharge]
    decide +kernel
  obtain ⟨hbasis, -⟩ := (hshares ⟨7⟩ share hshare).1.1 hbelow
  refine ⟨hcheck, ?_, ⟨share, hshare, hbasis, hcharge⟩, hsystem, htracked, hdevice, hmost, ?_⟩
  · rw [hrun]
    rfl
  · decide +kernel

/-- A file that reports charges below zero is read without complaint. The consumer's share, all
consumers together and the device are then below zero, and the system is left more than the device
has. -/
theorem reported_below_zero :
    let text :=
      "\x7b\"wifi\":\x7b\"consumers\":\x7b\"7\":\x7b\"reported_power_mah\":-2\x7d\x7d,".toList ++
        "\"device\":\x7b\"reported_power_mah\":-1\x7d\x7d\x7d".toList
    let profile : Profile := { wifi := ⟨.ofNat 1, .ofNat 50, .ofNat 100⟩ }
    let o : Observation :=
      { consumers := .ofList [(⟨7⟩, { charge? := some (.ofInt (-2)) })]
        device := { charge? := some (.ofInt (-1)) } }
    let os : Observations := .ofList [(.wifi, o)]
    let r := (o.shareOut .wifi profile.wifi {}).value
    Observations.parse (utf8 text) = .ok os ∧ profile.check = .ok () ∧
      ((os.outcomes profile {}).get? .wifi).map (·.value) = some (.report r) ∧
      ((r.shares.get? ⟨7⟩).map fun share => share.charge.less .zero) = some true ∧
      r.tracked.charge.less .zero = true ∧ r.device.charge.less .zero = true ∧
      r.device.charge.less r.systemCharge = true := by
  intro text profile o os r
  refine ⟨?_, ?_, ?_, ?_, ?_, ?_, ?_⟩
  · with_unfolding_all rfl
  · exact Profile.check_eq_ok_iff.2 (by decide +kernel)
  · decide +kernel
  · decide +kernel
  · decide +kernel
  · decide +kernel
  · decide +kernel

end Observations

end PowerShare
