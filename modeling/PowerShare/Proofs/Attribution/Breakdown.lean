import PowerShare.Proofs.Attribution.Grounds

/-!
# Breakdowns

A run may be asked to break every consumer's charge down by run state. The slices of a sample are
looked at for that alone, and never the slice that does not tell states apart:

* `Sample.share_withSlices` -- a share without its breakdown, whatever the slices are, is the share
  of a run that was not asked for one;
* `Sample.share_congr_slices` -- a share is told by the slices of the specified states;
* `withoutBreakdown_settle` -- the rest of a report is made without a look at breakdowns;
* `Observation.shareOut_breakdown` -- so asking for a breakdown adds just that to a report, and the
  slices are seen in nothing else.
-/

namespace PowerShare

/-! ## 1. Samples -/

/-- The same share without a breakdown. -/
def Share.withoutBreakdown (s : Share) : Share := { s with byState? := none }

/-- The sample told apart by run state in another way. -/
def Sample.withSlices (s : Sample) (slices : SortedMap RunState Slice) : Sample :=
  { s with slices := slices }

/-- Both maps have the same slices for the states that a breakdown lists. -/
def AgreeOnSpecified (slices slices' : SortedMap RunState Slice) : Prop :=
  ∀ state, state ≠ .unspecified → slices.get? state = slices'.get? state

namespace Sample

variable (s : Sample) (slices : SortedMap RunState Slice) (currents : Currents)
  (asked asked' forced : Bool)

/-- The basis is chosen without a look at the slices, and whether or not they are asked for. -/
theorem basis_withSlices : (s.withSlices slices).basis currents ⟨asked, forced⟩ =
    s.basis currents ⟨asked', forced⟩ := by
  unfold basis
  rfl

/-- A draw without a breakdown does not look at them either. -/
theorem bestDraw_withSlices :
    (s.withSlices slices).bestDraw currents ⟨asked, forced⟩ false =
      s.bestDraw currents ⟨asked', forced⟩ false := by
  unfold bestDraw draw
  rw [s.basis_withSlices slices currents asked asked' forced]
  simp only [breakdown_false]
  rfl

/-- **Without its breakdown, a share is that of a run that was not asked for one.** -/
theorem share_withSlices (k : Consumer) :
    ((s.withSlices slices).share k currents ⟨asked, forced⟩).withoutBreakdown =
      s.share k currents ⟨false, forced⟩ := by
  unfold share
  rw [s.basis_withSlices slices currents asked false forced]
  cases s.basis currents ⟨false, forced⟩ <;> rfl

/-- **A share is told by the slices of the specified states.** -/
theorem share_congr_slices {slices : SortedMap RunState Slice}
    (h : AgreeOnSpecified slices s.slices) (k : Consumer) (options : Options) :
    (s.withSlices slices).share k currents options = s.share k currents options := by
  have hslice (state : RunState) (hstate : state ≠ .unspecified) :
      (s.withSlices slices).slice state = s.slice state := by
    unfold slice
    rw [← h state hstate]
    rfl
  have hagrees (basis : Basis) : AgreesOn basis (s.withSlices slices) s currents currents := by
    refine ⟨rfl, ?_⟩
    cases basis with
    | measured => exact ⟨rfl, fun state hstate => by rw [hslice state hstate]⟩
    | reported => exact rfl
    | estimated => exact ⟨rfl, fun state hstate => by rw [hslice state hstate]⟩
    | unavailable => exact trivial
  show ((s.withSlices slices).draw currents (s.basis currents options) options.breakdown).share k
    (s.basis currents options) (s.withSlices slices) = _
  rw [draw_congr (hagrees _)]
  rfl

end Sample

/-! ## 2. Reports -/

/-- The report without the breakdowns of its shares. -/
def Report.withoutBreakdown (r : Report) : Report :=
  { r with shares := r.shares.mapValues fun _ s => s.withoutBreakdown }

/-- **The rest of a report is made without a look at breakdowns.** -/
theorem withoutBreakdown_settle (component : Component) (shares : SortedMap Consumer Share)
    (basis : Basis) (device : Draw) :
    (settle component shares basis device).value.withoutBreakdown =
      (settle component (shares.mapValues fun _ s => s.withoutBreakdown) basis device).value := by
  have htotals : totals (shares.mapValues fun _ s => s.withoutBreakdown).values =
      totals shares.values := by
    unfold totals SortedMap.values
    rw [SortedMap.entries_mapValues, List.map_map, List.foldl_map, List.foldl_map]
    rfl
  unfold settle
  rw [htotals]
  rfl

namespace Observation

variable (o : Observation) (component : Component) (currents : Currents) (asked forced : Bool)

/-- The observation with every sample told apart by run state in another way. -/
def withSlices (slices : Consumer → SortedMap RunState Slice)
    (device : SortedMap RunState Slice) : Observation :=
  { o with
    consumers := o.consumers.mapValues fun k s => s.withSlices (slices k)
    device := o.device.withSlices device }

variable (slices : Consumer → SortedMap RunState Slice) (device : SortedMap RunState Slice)

/-- Without its breakdowns, a report is that of a run that was not asked for them. -/
theorem withoutBreakdown_shareOut :
    ((o.withSlices slices device).shareOut component currents
      ⟨asked, forced⟩).value.withoutBreakdown =
        (o.shareOut component currents ⟨false, forced⟩).value := by
  have hshares : (((o.withSlices slices device).consumerShares currents
      ⟨asked, forced⟩).mapValues fun _ s => s.withoutBreakdown) =
        o.consumerShares currents ⟨false, forced⟩ := by
    unfold consumerShares withSlices
    rw [SortedMap.mapValues_mapValues, SortedMap.mapValues_mapValues]
    exact SortedMap.mapValues_congr fun e _ =>
      e.2.share_withSlices (slices e.1) currents asked forced e.1
  have hbasis : (o.withSlices slices device).device.basis currents ⟨asked, forced⟩ =
      o.device.basis currents ⟨false, forced⟩ :=
    o.device.basis_withSlices device currents asked false forced
  have hdevice : (o.withSlices slices device).deviceDraw currents ⟨asked, forced⟩ =
      o.deviceDraw currents ⟨false, forced⟩ :=
    o.device.bestDraw_withSlices device currents asked false forced
  rw [shareOut_eq_settle, shareOut_eq_settle, withoutBreakdown_settle, hshares, hbasis, hdevice]

/-- Every observation is told apart by run state in its own way. -/
theorem withSlices_self :
    o.withSlices (fun k => ((o.consumers.get? k).map (·.slices)).getD {}) o.device.slices = o := by
  have hconsumers : (o.consumers.mapValues fun k s =>
      s.withSlices (((o.consumers.get? k).map (·.slices)).getD {})) = o.consumers := by
    refine SortedMap.ext_get? fun k => ?_
    rw [SortedMap.get?_mapValues]
    cases o.consumers.get? k <;> rfl
  unfold withSlices
  rw [hconsumers]
  rfl

/-- A run sees no slices of the device, and of the consumers' only those of specified states. -/
theorem shareOut_congr_slices
    (h : ∀ k s, o.consumers.get? k = some s → AgreeOnSpecified (slices k) s.slices) :
    (o.withSlices slices device).shareOut component currents ⟨asked, forced⟩ =
      o.shareOut component currents ⟨asked, forced⟩ :=
  shareOut_of_samples
    (fun e he => e.2.share_congr_slices currents (h e.1 e.2 (SortedMap.get?_eq_some_iff.2 he)) e.1 _)
    (o.device.basis_withSlices device currents asked asked forced)
    (o.device.bestDraw_withSlices device currents asked asked forced) component

/-- **A breakdown is added to a report and seen in nothing else.** The report with it is, breakdowns
left out, the report without it. Whatever slices the samples have, the report without it stays, and
so does all but the breakdowns of the report with it. And the slice that does not tell states apart
is seen in neither run, nor are the slices of the device. -/
theorem shareOut_breakdown :
    let run (o : Observation) (asked : Bool) := o.shareOut component currents ⟨asked, forced⟩
    (run o true).value.withoutBreakdown = (run o false).value ∧
    (∀ slices device,
      (run (o.withSlices slices device) false).value = (run o false).value ∧
      (run (o.withSlices slices device) true).value.withoutBreakdown =
        (run o true).value.withoutBreakdown) ∧
    ∀ slices device,
      (∀ k s, o.consumers.get? k = some s → AgreeOnSpecified (slices k) s.slices) →
        ∀ asked, run (o.withSlices slices device) asked = run o asked := by
  intro run
  -- Every run is the run of its own slices, so what is said of any slices is said of these as well.
  have hleft (o : Observation) (asked : Bool) :
      (run o asked).value.withoutBreakdown = (run o false).value := by
    have h := o.withoutBreakdown_shareOut component currents asked forced
      (fun k => ((o.consumers.get? k).map (·.slices)).getD {}) o.device.slices
    rwa [withSlices_self] at h
  have hother (slices : Consumer → SortedMap RunState Slice) (device : SortedMap RunState Slice)
      (asked : Bool) :
      (run (o.withSlices slices device) asked).value.withoutBreakdown = (run o false).value :=
    o.withoutBreakdown_shareOut component currents asked forced slices device
  refine ⟨hleft o true, fun slices device => ⟨?_, ?_⟩, fun slices device h asked => ?_⟩
  · rw [← hleft (o.withSlices slices device) false, hother]
  · rw [hother, hleft]
  · exact o.shareOut_congr_slices component currents asked forced slices device h

/-- One consumer is estimated and one was measured. Other slices for the state that is not
specified, and any for the device, leave the report with its breakdowns; a slice of the background
is seen there, and nowhere else. -/
theorem shareOut_breakdown_background :
    let currents : Currents := ⟨.ofNat 1, .ofNat 50, .ofNat 100⟩
    let spent : Slice := { counters := { tx := ⟨9⟩ }, energy? := some 3600000 }
    let estimated : Sample := { counters := { tx := ⟨18⟩ } }
    let measured : Sample := { energy? := some 7200000, slices := .ofList [(.cached, spent)] }
    let o : Observation := { consumers := .ofList [(⟨1⟩, estimated), (⟨2⟩, measured)] }
    let unspecified (k : Consumer) : SortedMap RunState Slice :=
      .ofList (if k = ⟨2⟩ then [(.unspecified, spent), (.cached, spent)] else [(.unspecified, spent)])
    let background (_ : Consumer) : SortedMap RunState Slice := .ofList [(.background, spent)]
    let run (o : Observation) := (o.shareOut .wifi currents ⟨true, false⟩).value
    (∀ k s, o.consumers.get? k = some s → AgreeOnSpecified (unspecified k) s.slices) ∧
      run (o.withSlices unspecified (background ⟨1⟩)) = run o ∧
      (run (o.withSlices background {})).withoutBreakdown = (run o).withoutBreakdown ∧
      ((run o).shares.get? ⟨1⟩).bind (·.stateCharge? ⟨1⟩ .background) = some .zero ∧
      ((run (o.withSlices background {})).shares.get? ⟨1⟩).bind (·.stateCharge? ⟨1⟩ .background) =
        some (Charge.ofCurrentTime (.ofNat 900)) := by
  intro currents spent estimated measured o unspecified background run
  have hslices : ∀ k s, o.consumers.get? k = some s →
      AgreeOnSpecified (unspecified k) s.slices := by
    intro k s hs state hstate
    have hentries : o.consumers.entries = [(⟨1⟩, estimated), (⟨2⟩, measured)] := by decide +kernel
    have hmem := SortedMap.get?_eq_some_iff.1 hs
    rw [hentries] at hmem
    simp only [List.mem_cons, List.not_mem_nil, or_false, Prod.mk.injEq] at hmem
    rcases hmem with ⟨rfl, rfl⟩ | ⟨rfl, rfl⟩
    · cases state <;> first | exact absurd rfl hstate | decide +kernel
    · cases state <;> first | exact absurd rfl hstate | decide +kernel
  obtain ⟨-, hothers, hsame⟩ := o.shareOut_breakdown .wifi currents false
  refine ⟨hslices, congrArg Traced.value (hsame unspecified (background ⟨1⟩) hslices true),
    (hothers background {}).2, ?_, ?_⟩
  · decide +kernel
  · decide +kernel

end Observation

end PowerShare
