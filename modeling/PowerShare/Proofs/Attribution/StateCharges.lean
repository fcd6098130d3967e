import PowerShare.Proofs.Attribution.Grounds

/-!
# The keys of a breakdown

A breakdown that was asked for lists the specified states, all of them and no other, whichever
slices a sample has; under each stands what the sample's basis makes of the slice:

* `Sample.stateCharge` -- the charge of one slice on a basis, a missing one counting as all zero;
* `Sample.byState?_share` -- the breakdown of a share, entry by entry;
* `Sample.stateCharge?_share` -- what is found in it under which key;
* `Observation.shareOut_stateCharges` -- so it is for every share of every report.
-/

namespace PowerShare

/-! ## 1. Slices -/

/-- The charge of the slice of one state. Energy that is missing or below zero counts as none, and a
missing slice as one that is all zero. -/
def Sample.stateCharge (s : Sample) (currents : Currents) (basis : Basis) (state : RunState) :
    Charge :=
  match basis with
  | .measured =>
    match (s.slices.get? state).bind (·.energy?) with
    | some energy => if 0 ≤ energy then .ofEnergy energy else .zero
    | none => .zero
  | .reported => .zero
  | .estimated =>
    match s.slices.get? state with
    | some slice => currents.estimate slice.counters.idle slice.counters.rx slice.counters.tx
    | none => currents.estimate .zero .zero .zero
  | .unavailable => .zero

theorem measuredCharge_measuredEnergy? (energy? : Option Int64) :
    measuredCharge (measuredEnergy? energy?) =
      match energy? with
      | some energy => if 0 ≤ energy then Charge.ofEnergy energy else .zero
      | none => .zero := by
  cases energy? with
  | none => rfl
  | some energy =>
    unfold measuredEnergy?
    by_cases h : 0 ≤ energy
    · simp only [Option.filter_some, h, decide_true, if_true, measuredCharge]
    · simp only [Option.filter_some, h, decide_false, if_false, measuredCharge, Bool.false_eq_true]

namespace Sample

variable (s : Sample) (currents : Currents)

/-- A draw is broken down into the charges of the slices. -/
theorem byState?_draw (basis : Basis) (asked : Bool) :
    (s.draw currents basis asked).byState? = breakdown asked (s.stateCharge currents basis) := by
  cases basis with
  | measured =>
    refine congrArg (breakdown asked) (funext fun state => ?_)
    show measuredCharge (measuredEnergy? (s.slice state).energy?) = _
    rw [measuredCharge_measuredEnergy?]
    unfold stateCharge slice
    cases s.slices.get? state <;> rfl
  | estimated =>
    refine congrArg (breakdown asked) (funext fun state => ?_)
    unfold stateCharge slice Counters.estimate
    cases s.slices.get? state <;> rfl
  | reported | unavailable => rfl

end Sample

/-! ## 2. Entries -/

/-- The keys of one consumer ascend as the states do. -/
theorem StateKey.ascending_map {states : List RunState} (h : SortedMap.Ascending states)
    (k : Consumer) : SortedMap.Ascending (states.map (StateKey.mk k)) := by
  refine List.pairwise_map.2 (List.Pairwise.imp (fun hlt => ?_) h)
  exact rank_stateKey_lt_iff.2 (.inr ⟨rfl, hlt⟩)

namespace Sample

variable (s : Sample) (k : Consumer) (currents : Currents) (options : Options)

theorem byState?_share_of_not_asked (h : options.breakdown = false) :
    (s.share k currents options).byState? = none := by
  show ((s.draw currents (s.basis currents options) options.breakdown).byState?).map _ = none
  rw [byState?_draw, h, breakdown_false]
  rfl

/-- **The breakdown of a share:** one entry for each specified state, under the consumer's own
keys. -/
theorem byState?_share (h : options.breakdown = true) :
    ∃ m, (s.share k currents options).byState? = some m ∧
      m.entries = RunState.specified.map fun state =>
        (⟨k, state⟩, s.stateCharge currents (s.basis currents options) state) := by
  obtain ⟨m, hm, hentries⟩ := entries_breakdown (s.stateCharge currents (s.basis currents options))
  refine ⟨SortedMap.ofList (m.entries.map fun e => (⟨k, e.1⟩, e.2)), ?_, ?_⟩
  · show ((s.draw currents (s.basis currents options) options.breakdown).byState?).map _ = _
    rw [byState?_draw, h, hm]
    rfl
  · rw [hentries, List.map_map]
    refine SortedMap.entries_ofList ?_
    rw [List.map_map]
    exact StateKey.ascending_map RunState.ascending_specified k

/-- **What a share has under a key:** the charge of the slice, if it was asked for, under the
consumer's own key of a specified state, and nothing under any other. -/
theorem stateCharge?_share (k' : Consumer) (state : RunState) :
    (s.share k currents options).stateCharge? k' state =
      if options.breakdown = true ∧ k' = k ∧ state ≠ .unspecified then
        some (s.stateCharge currents (s.basis currents options) state)
      else none := by
  unfold Share.stateCharge?
  cases hasked : options.breakdown with
  | false =>
    rw [byState?_share_of_not_asked s k currents options hasked]
    simp
  | true =>
    obtain ⟨m, hm, hentries⟩ := s.byState?_share k currents options hasked
    rw [hm, Option.bind_some]
    refine Option.ext fun c => ?_
    rw [SortedMap.get?_eq_some_iff, hentries]
    simp only [List.mem_map, RunState.mem_specified_iff, Prod.mk.injEq, StateKey.mk.injEq,
      true_and, Option.ite_none_right_eq_some, Option.some.injEq]
    constructor
    · intro hmem
      obtain ⟨state, hstate, ⟨rfl, rfl⟩, hc⟩ := hmem
      exact ⟨⟨rfl, hstate⟩, hc⟩
    · intro hfound
      obtain ⟨⟨rfl, hstate⟩, hc⟩ := hfound
      exact ⟨state, hstate, ⟨rfl, rfl⟩, hc⟩

end Sample

/-! ## 3. Reports -/

namespace Observation

/-- **Every share of a report is broken down by just the specified states, if that was asked for.**
It then has the consumer's own four keys, whichever states the sample has slices for, with the
charge that its basis makes of each slice; a look-up finds these charges and nothing else. If it was
not asked for there is no breakdown. -/
theorem shareOut_stateCharges (o : Observation) (component : Component) (currents : Currents)
    (options : Options) (k : Consumer) (share : Share)
    (h : (o.shareOut component currents options).value.shares.get? k = some share) :
    ∃ s, o.consumers.get? k = some s ∧ share.basis = s.basis currents options ∧
      (options.breakdown = false → share.byState? = none) ∧
      (options.breakdown = true → ∃ m, share.byState? = some m ∧
        m.entries =
          [(⟨k, .foreground⟩, s.stateCharge currents share.basis .foreground),
            (⟨k, .background⟩, s.stateCharge currents share.basis .background),
            (⟨k, .foregroundService⟩, s.stateCharge currents share.basis .foregroundService),
            (⟨k, .cached⟩, s.stateCharge currents share.basis .cached)]) ∧
      ∀ k' state, share.stateCharge? k' state =
        if options.breakdown = true ∧ k' = k ∧ state ≠ .unspecified then
          some (s.stateCharge currents share.basis state)
        else none := by
  rw [value_shareOut] at h
  obtain ⟨s, hs, rfl⟩ := Option.map_eq_some_iff.1 ((get?_consumerShares ..).symm.trans h)
  exact ⟨s, hs, rfl, s.byState?_share_of_not_asked k currents options,
    s.byState?_share k currents options, s.stateCharge?_share k currents options⟩

/-- A consumer whose energy was measured has a slice below zero, one without energy and one for the
state that a breakdown leaves out. Its four keys are there all the same. -/
theorem shareOut_stateCharges_measured :
    let s : Sample := {
      energy? := some 7200000
      slices := .ofList [(.unspecified, { energy? := some 7200000 }),
        (.foreground, { energy? := some 3600000 }), (.background, { energy? := some (-1) }),
        (.cached, { counters := { tx := ⟨9⟩ } })] }
    let o : Observation := { consumers := .ofList [(⟨4⟩, { charge? := some .nan }), (⟨7⟩, s)] }
    let r := (o.shareOut .wifi ⟨.ofNat 1, .ofNat 50, .ofNat 100⟩ ⟨true, false⟩).value
    ∃ share m, r.shares.get? ⟨7⟩ = some share ∧ share.byState? = some m ∧
      m.entries = [(⟨⟨7⟩, .foreground⟩, .ofNat 1), (⟨⟨7⟩, .background⟩, .zero),
        (⟨⟨7⟩, .foregroundService⟩, .zero), (⟨⟨7⟩, .cached⟩, .zero)] ∧
      share.stateCharge? ⟨7⟩ .foreground = some (.ofNat 1) ∧
      share.stateCharge? ⟨7⟩ .unspecified = none ∧ share.stateCharge? ⟨4⟩ .foreground = none := by
  intro s o r
  obtain ⟨share, hshare⟩ : ∃ share, r.shares.get? ⟨7⟩ = some share :=
    Option.isSome_iff_exists.1 (by decide +kernel)
  obtain ⟨sample, hsample, hbasis, -, hkeys, hfound⟩ :=
    o.shareOut_stateCharges .wifi ⟨.ofNat 1, .ofNat 50, .ofNat 100⟩ ⟨true, false⟩ ⟨7⟩ share hshare
  obtain ⟨m, hm, hentries⟩ := hkeys rfl
  have hown : o.consumers.get? ⟨7⟩ = some s := by decide +kernel
  obtain rfl : s = sample := Option.some.inj (hown.symm.trans hsample)
  have hmeasured : s.basis ⟨.ofNat 1, .ofNat 50, .ofNat 100⟩ ⟨true, false⟩ = .measured := by
    decide +kernel
  rw [hmeasured] at hbasis
  rw [hbasis] at hentries hfound
  have hforeground :
      s.stateCharge ⟨.ofNat 1, .ofNat 50, .ofNat 100⟩ .measured .foreground = .ofNat 1 := by
    decide +kernel
  refine ⟨share, m, hshare, hm, ?_, ?_, ?_, ?_⟩
  · rw [hentries, hforeground]
    rfl
  · rw [hfound, hforeground]
    rfl
  · rw [hfound]
    rfl
  · rw [hfound]
    rfl

end Observation

end PowerShare
