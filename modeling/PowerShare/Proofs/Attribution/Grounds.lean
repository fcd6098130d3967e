import PowerShare.Proofs.Attribution.Totals

/-!
# What a draw rests on

The basis of a draw is chosen on the data that count, and the draw is made from the same data. So
what was chosen is there to be drawn on, and nothing else is looked at:

* `entries_breakdown` -- a breakdown lists the specified states, and `breakdown_congr`: it looks at
  these only;
* `Sample.basis_eq` -- the choice, said by which data are there at all;
* `Sample.choose_eq_basis` -- the choice on the bare data is the same: it passes over what does not
  count, whether or not that was left out before;
* `Sample.AgreesOn` -- what two samples must share for a draw on one basis, and `Sample.draw_congr`:
  so much is enough;
* `Sample.bestDraw_rests_on_basis` -- a chosen basis has its data, its charge is made from them, and
  from no others.
-/

namespace PowerShare

/-! ## 1. Breakdowns -/

namespace RunState

/-- The states that a breakdown lists are all but the one that does not tell states apart. -/
theorem mem_specified_iff {state : RunState} : state ∈ specified ↔ state ≠ .unspecified := by
  cases state <;> decide

theorem ascending_specified : SortedMap.Ascending specified := by
  unfold SortedMap.Ascending
  decide

end RunState

theorem breakdown_false (charge : RunState → Charge) : breakdown false charge = none := rfl

theorem breakdown_congr {asked : Bool} {charge charge' : RunState → Charge}
    (h : ∀ state, state ≠ .unspecified → charge state = charge' state) :
    breakdown asked charge = breakdown asked charge' := by
  have hcharges : (RunState.specified.map fun s => (s, charge s)) =
      RunState.specified.map fun s => (s, charge' s) :=
    List.map_congr_left fun s hs => by rw [h s (RunState.mem_specified_iff.1 hs)]
  unfold breakdown
  rw [hcharges]

/-- A breakdown has one entry for each specified state. -/
theorem entries_breakdown (charge : RunState → Charge) :
    ∃ m, breakdown true charge = some m ∧
      m.entries = RunState.specified.map fun state => (state, charge state) := by
  refine ⟨_, rfl, SortedMap.entries_ofList ?_⟩
  rw [List.map_map]
  show SortedMap.Ascending (RunState.specified.map id)
  rw [List.map_id]
  exact RunState.ascending_specified

/-- Each value of a breakdown is the one made for its state. -/
theorem get?_breakdown {asked : Bool} {charge : RunState → Charge}
    {m : SortedMap RunState Charge} (hm : breakdown asked charge = some m) {state : RunState}
    {c : Charge} (hc : m.get? state = some c) : c = charge state := by
  cases asked with
  | false => cases hm
  | true =>
    obtain ⟨m', hm', hentries⟩ := entries_breakdown charge
    obtain rfl := Option.some.inj (hm.symm.trans hm')
    rw [SortedMap.get?_eq_some_iff, hentries] at hc
    obtain ⟨s, -, hs⟩ := List.mem_map.1 hc
    cases hs
    rfl

namespace Sample

/-! ## 2. The choice -/

theorem measured?_eq_some_iff {s : Sample} {energy : Int64} :
    s.measured? = some energy ↔ s.energy? = some energy ∧ 0 ≤ energy := by
  unfold measured? measuredEnergy?
  rw [Option.filter_eq_some_iff, decide_eq_true_iff]

theorem reported?_eq_some_iff {s : Sample} {c : Charge} :
    s.reported? = some c ↔ s.charge? = some c ∧ c.isZero = false ∧ c.isFinite = true := by
  unfold reported?
  rw [Option.filter_eq_some_iff, Bool.and_eq_true, Bool.not_eq_true']

variable (s : Sample) (currents : Currents) (options : Options)

/-- **The choice on the bare data is the choice on the data that count.** -/
theorem choose_eq_basis :
    Basis.choose s.energy? s.charge? currents.isUsable options.forceEstimate =
      s.basis currents options := by
  have henergy : s.energy?.any (0 ≤ ·) = s.measured?.any (0 ≤ ·) := by
    unfold measured? measuredEnergy?
    rw [Option.any_filter]
    simp only [Bool.and_self]
  have hcharge : (s.charge?.any fun c => !c.isZero && c.isFinite) =
      s.reported?.any fun c => !c.isZero && c.isFinite := by
    unfold reported?
    rw [Option.any_filter]
    simp only [Bool.and_self]
  unfold basis Basis.choose
  rw [henergy, hcharge]

/-- The choice, said by which data are there. -/
theorem basis_eq : s.basis currents options =
    if s.measured?.isSome then .measured
    else if !options.forceEstimate && s.reported?.isSome && currents.isUsable then .reported
    else if currents.isUsable then .estimated
    else .unavailable := by
  have henergy : s.measured?.any (0 ≤ ·) = s.measured?.isSome := by
    cases h : s.measured? with
    | none => rfl
    | some energy => exact decide_eq_true (measured?_eq_some_iff.1 h).2
  have hcharge : (s.reported?.any fun c => !c.isZero && c.isFinite) = s.reported?.isSome := by
    cases h : s.reported? with
    | none => rfl
    | some c =>
      obtain ⟨-, hnonzero, hfinite⟩ := reported?_eq_some_iff.1 h
      simp only [Option.any_some, hnonzero, hfinite, Bool.not_false, Bool.and_self,
        Option.isSome_some]
  unfold basis Basis.choose
  rw [henergy, hcharge]

theorem basis_eq_measured_iff :
    s.basis currents options = .measured ↔ ∃ energy, s.measured? = some energy := by
  rw [basis_eq, ← Option.isSome_iff_exists]
  cases s.measured?.isSome <;> grind

theorem basis_eq_reported_iff : s.basis currents options = .reported ↔
    s.measured? = none ∧ options.forceEstimate = false ∧ currents.isUsable = true ∧
      ∃ c, s.reported? = some c := by
  rw [basis_eq, ← Option.isSome_iff_exists, ← Option.not_isSome_iff_eq_none]
  cases s.measured?.isSome <;> grind

theorem basis_eq_estimated_iff : s.basis currents options = .estimated ↔
    s.measured? = none ∧ currents.isUsable = true ∧
      (options.forceEstimate = true ∨ s.reported? = none) := by
  rw [basis_eq, ← Option.not_isSome_iff_eq_none, ← Option.not_isSome_iff_eq_none]
  cases s.measured?.isSome <;> grind

/-! ## 3. The draw -/

/-- Two samples with their currents have the same counters and, of the rest, the same data of one
basis. A breakdown does not look at the slice that does not tell states apart. -/
def AgreesOn (basis : Basis) (s s' : Sample) (currents currents' : Currents) : Prop :=
  s.counters = s'.counters ∧
    match basis with
    | .measured => s.measured? = s'.measured? ∧
      ∀ state, state ≠ .unspecified → (s.slice state).measured? = (s'.slice state).measured?
    | .reported => s.reported? = s'.reported?
    | .estimated => currents = currents' ∧
      ∀ state, state ≠ .unspecified → (s.slice state).counters = (s'.slice state).counters
    | .unavailable => True

variable {s s' : Sample} {currents currents' : Currents} {options options' : Options}

/-- **A draw looks at no more than the counters and the data of its basis.** -/
theorem draw_congr {basis : Basis} (h : AgreesOn basis s s' currents currents') (asked : Bool) :
    s.draw currents basis asked = s'.draw currents' basis asked := by
  obtain ⟨hcounters, hdata⟩ := h
  have hduration : s.duration = s'.duration := congrArg Counters.total hcounters
  cases basis with
  | measured =>
    obtain ⟨hmeasured, hslices⟩ := hdata
    have hbreakdown : breakdown asked (fun state => measuredCharge (s.slice state).measured?) =
        breakdown asked fun state => measuredCharge (s'.slice state).measured? :=
      breakdown_congr fun state hstate => by rw [hslices state hstate]
    simp only [draw, hduration, hmeasured, hbreakdown]
  | reported =>
    have hreported : s.reported? = s'.reported? := hdata
    simp only [draw, hduration, hreported]
  | estimated =>
    obtain ⟨rfl, hslices⟩ := hdata
    have hbreakdown : breakdown asked (fun state => (s.slice state).counters.estimate currents) =
        breakdown asked fun state => (s'.slice state).counters.estimate currents :=
      breakdown_congr fun state hstate => by rw [hslices state hstate]
    simp only [draw, hduration, hcounters, hbreakdown]
  | unavailable => rfl

theorem charge_bestDraw_measured {energy : Int64} (h : s.basis currents options = .measured)
    (henergy : s.measured? = some energy) (asked : Bool) :
    (s.bestDraw currents options asked).charge = Charge.ofEnergy energy := by
  unfold bestDraw
  simp only [h, draw, henergy, measuredCharge]

theorem charge_bestDraw_reported {c : Charge} (h : s.basis currents options = .reported)
    (hcharge : s.reported? = some c) (asked : Bool) :
    (s.bestDraw currents options asked).charge = c := by
  unfold bestDraw
  simp only [h, draw, hcharge, Option.getD_some]

theorem charge_bestDraw_estimated (h : s.basis currents options = .estimated) (asked : Bool) :
    (s.bestDraw currents options asked).charge = s.counters.estimate currents := by
  unfold bestDraw
  simp only [h, draw]

/-- **A draw rests on the data of the basis chosen, which are there, and on no others.** If measured
energy is chosen, there is some that is not below zero, and the charge is that of it. If a reported
charge is chosen, there is a finite one that is not zero, beside usable currents, and it is the
charge. If an estimate is chosen, the currents are usable. So nothing ever stands in for a figure
that is missing. The choice on the bare data is the same. And any other sample and currents for
which the same basis is chosen make the same draw, bit by bit, if they agree on the counters and on
the data of that basis. -/
theorem bestDraw_rests_on_basis (s : Sample) (currents : Currents) (options : Options) :
    (s.basis currents options = .measured →
      ∃ energy, s.measured? = some energy ∧ 0 ≤ energy ∧
        ∀ asked, (s.bestDraw currents options asked).charge = Charge.ofEnergy energy) ∧
    (s.basis currents options = .reported → currents.isUsable = true ∧
      ∃ c, s.reported? = some c ∧ c.isZero = false ∧ c.isFinite = true ∧
        ∀ asked, (s.bestDraw currents options asked).charge = c) ∧
    (s.basis currents options = .estimated → currents.isUsable = true ∧
      ∀ asked, (s.bestDraw currents options asked).charge = s.counters.estimate currents) ∧
    Basis.choose s.energy? s.charge? currents.isUsable options.forceEstimate =
      s.basis currents options ∧
    ∀ (s' : Sample) (currents' : Currents) (options' : Options),
      s'.basis currents' options' = s.basis currents options →
      AgreesOn (s.basis currents options) s' s currents' currents →
        ∀ asked, s'.bestDraw currents' options' asked = s.bestDraw currents options asked := by
  refine ⟨fun h => ?_, fun h => ?_, fun h => ?_, s.choose_eq_basis currents options,
    fun s' currents' options' hbasis hagrees asked => ?_⟩
  · obtain ⟨energy, henergy⟩ := (s.basis_eq_measured_iff currents options).1 h
    exact ⟨energy, henergy, (measured?_eq_some_iff.1 henergy).2, charge_bestDraw_measured h henergy⟩
  · obtain ⟨-, -, husable, c, hc⟩ := (s.basis_eq_reported_iff currents options).1 h
    obtain ⟨-, hnonzero, hfinite⟩ := reported?_eq_some_iff.1 hc
    exact ⟨husable, c, hc, hnonzero, hfinite, charge_bestDraw_reported h hc⟩
  · obtain ⟨-, husable, -⟩ := (s.basis_eq_estimated_iff currents options).1 h
    exact ⟨husable, charge_bestDraw_estimated h⟩
  · unfold bestDraw
    rw [hbasis]
    exact draw_congr hagrees asked

/-- A reported charge is drawn on beside energy that was not measured. Slices, byte counts and other
currents do not matter to that draw, and they would matter if an estimate were forced. -/
theorem bestDraw_rests_on_basis_reported :
    let currents : Currents := ⟨.ofNat 1, .ofNat 50, .ofNat 100⟩
    let s : Sample :=
      { counters := ⟨⟨5⟩, .zero, ⟨9⟩⟩, energy? := some (-1), charge? := some (.ofNat 3) }
    let currents' : Currents := ⟨.ofInt (-4), .ofNat 2, .ofNat 7⟩
    let s' : Sample := { s with
      energy? := none
      slices := .ofList [(.cached, { counters := ⟨⟨1⟩, ⟨2⟩, ⟨3⟩⟩, energy? := some 8 })]
      rxBytes? := some 6 }
    s.basis currents {} = .reported ∧ s'.basis currents' {} = .reported ∧
      s'.bestDraw currents' {} true = s.bestDraw currents {} true ∧
      (s.bestDraw currents {} true).charge = .ofNat 3 ∧
      s'.bestDraw currents' ⟨true, true⟩ true ≠ s.bestDraw currents ⟨true, true⟩ true := by
  intro currents s currents' s'
  have hbasis : s.basis currents {} = .reported := by decide +kernel
  have hbasis' : s'.basis currents' {} = .reported := by decide +kernel
  obtain ⟨-, hreported, -, -, hsame⟩ := bestDraw_rests_on_basis s currents {}
  obtain ⟨-, c, hc, -, -, hcharge⟩ := hreported hbasis
  have hagrees : AgreesOn (s.basis currents {}) s' s currents' currents := by
    rw [hbasis]
    exact ⟨rfl, rfl⟩
  have hthree : s.reported? = some (.ofNat 3) := by decide +kernel
  refine ⟨hbasis, hbasis', hsame s' currents' {} (hbasis'.trans hbasis.symm) hagrees true, ?_, ?_⟩
  · rw [hcharge true]
    exact Option.some.inj (hc.symm.trans hthree)
  · decide +kernel

end Sample

end PowerShare
