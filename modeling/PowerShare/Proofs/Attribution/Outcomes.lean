import PowerShare.Proofs.Attribution.Totals

/-!
# Outcomes of several components

Several components are attributed one by one, each with the currents that the profile has for it:

* `Observation.outcome_cases` -- the two outcomes that there can be for one component;
* `Observations.get?_outcomes` -- what stands under a component is the outcome of its observation;
* `Observations.outcomes_of_each` -- so the outcomes have the components that were observed, each
  says of its component what that observation says, and none of them depends on another component.
-/

namespace PowerShare

/-- **The two outcomes for one component:** it does not report its activity, and this is told; or
there is a report for it. -/
theorem Observation.outcome_cases (o : Observation) (component : Component) (currents : Currents)
    (options : Options) :
    (o.supported = false ∧
      o.outcome component currents options = ⟨.unsupported component, [.unsupported component]⟩) ∨
    (o.supported = true ∧ (o.outcome component currents options).value =
      .report (o.shareOut component currents options).value) := by
  unfold outcome
  cases o.supported with
  | false => exact .inl ⟨rfl, rfl⟩
  | true => exact .inr ⟨rfl, rfl⟩

namespace Observations

variable (os : Observations) (profile : Profile) (options : Options)

theorem get?_outcomes (component : Component) :
    (os.outcomes profile options).get? component =
      (SortedMap.get? os component).map fun o =>
        o.outcome component (profile.currents component) options :=
  SortedMap.get?_mapValues _ _ _

/-- **Every component has an outcome of its own.** There is one for just the components observed.
It is the bare component if that does not report its activity, and else the report that the
component's observation and currents make, under the component's name. It is the same in any other
run that has the same observation and the same currents for this component, whatever the others have;
and so it stays when another component is observed anew or gets other currents. -/
theorem outcomes_of_each :
    (os.outcomes profile options).keys = SortedMap.keys os ∧
    (∀ component o, SortedMap.get? os component = some o →
      ∃ run, (os.outcomes profile options).get? component = some run ∧
        (run.value = .unsupported component ↔ o.supported = false) ∧
        (o.supported = true → ∃ r, run.value = .report r ∧ r.component = component ∧
          r = (o.shareOut component (profile.currents component) options).value)) ∧
    (∀ (os' : Observations) (profile' : Profile) (component : Component),
      SortedMap.get? os' component = SortedMap.get? os component →
      profile'.currents component = profile.currents component →
        (os'.outcomes profile' options).get? component =
          (os.outcomes profile options).get? component) ∧
    ∀ (component other : Component) (o : Observation) (c : Currents), component ≠ other →
      (outcomes (SortedMap.insert os other o) (profile.set other c) options).get? component =
        (os.outcomes profile options).get? component := by
  have hown (os' : Observations) (profile' : Profile) (component : Component)
      (hos : SortedMap.get? os' component = SortedMap.get? os component)
      (hprofile : profile'.currents component = profile.currents component) :
      (os'.outcomes profile' options).get? component =
        (os.outcomes profile options).get? component := by
    rw [get?_outcomes, get?_outcomes, hos, hprofile]
  refine ⟨SortedMap.keys_mapValues _ _, fun component o ho => ?_, hown,
    fun component other o c hne => hown _ _ component ?_ ?_⟩
  · refine ⟨o.outcome component (profile.currents component) options, ?_, ?_⟩
    · rw [get?_outcomes, ho]
      rfl
    rcases o.outcome_cases component (profile.currents component) options with
      ⟨hsupported, hrun⟩ | ⟨hsupported, hrun⟩
    · rw [hrun, hsupported]
      exact ⟨⟨fun _ => rfl, fun _ => rfl⟩, nofun⟩
    · rw [hrun, hsupported]
      refine ⟨⟨nofun, nofun⟩, fun _ => ⟨_, rfl, ?_, rfl⟩⟩
      rw [Observation.value_shareOut]
  · refine Option.ext fun found => ?_
    rw [SortedMap.get?_insert_eq_some_iff]
    simp [hne]
  · rw [Profile.currents_set, if_neg hne]

/-- The modem does not report its activity and the other two do. Taking the modem away, observing
Bluetooth as something else and giving it other currents leaves the outcome for Wi-Fi. -/
theorem outcomes_of_each_neighbours :
    let profile : Profile :=
      { bluetooth := ⟨.ofNat 1, .ofNat 2, .ofNat 3⟩, wifi := ⟨.ofNat 1, .ofNat 50, .ofNat 100⟩ }
    let busy : Observation := { device := { counters := { tx := ⟨9⟩ } } }
    let silent : Observation := { supported := false, device := { counters := { tx := ⟨9⟩ } } }
    let os : Observations := .ofList [(.bluetooth, busy), (.wifi, busy), (.modem, silent)]
    let os' : Observations := .ofList [(.bluetooth, silent), (.wifi, busy)]
    let profile' := profile.set .bluetooth ⟨.ofNat 7, .ofNat 8, .ofNat 9⟩
    let options : Options := {}
    SortedMap.get? os' .wifi = SortedMap.get? os .wifi ∧
      profile'.currents .wifi = profile.currents .wifi ∧
      (os'.outcomes profile' options).get? .wifi = (os.outcomes profile options).get? .wifi ∧
      (os.outcomes profile options).keys = [.bluetooth, .wifi, .modem] ∧
      ((os.outcomes profile options).get? .modem).map (·.value) = some (.unsupported .modem) ∧
      ∃ r, ((os.outcomes profile options).get? .wifi).map (·.value) = some (.report r) ∧
        r.component = .wifi ∧ r.device.charge = Charge.ofCurrentTime (.ofNat 900) := by
  intro profile busy silent os os' profile' options
  have hos : SortedMap.get? os' .wifi = SortedMap.get? os .wifi := by decide +kernel
  have hprofile : profile'.currents .wifi = profile.currents .wifi := by decide +kernel
  obtain ⟨hkeys, heach, hown, -⟩ := os.outcomes_of_each profile options
  obtain ⟨modem, hmodem, hunsupported, -⟩ :=
    heach .modem silent (by with_unfolding_all rfl)
  obtain ⟨wifi, hwifi, -, hreport⟩ := heach .wifi busy (by with_unfolding_all rfl)
  obtain ⟨r, hr, hcomponent, hvalue⟩ := hreport rfl
  refine ⟨hos, hprofile, hown os' profile' .wifi hos hprofile, ?_, ?_, r, ?_, hcomponent, ?_⟩
  · rw [hkeys]
    decide +kernel
  · rw [hmodem, Option.map_some, hunsupported.2 rfl]
  · rw [hwifi, Option.map_some, hr]
  · rw [hvalue]
    decide +kernel

end Observations

end PowerShare
