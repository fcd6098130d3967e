import PowerShare.Attribution
import PowerShare.Proofs.SortedMap

/-!
# What an attribution adds up

One attribution draws every consumer and the device on the best basis each has, adds up the
consumers, and tells of a remainder below zero:

* `Sample.bestDraw` -- what a sample drew on the best basis it has;
* `Observation.shareOut_eq_settle` -- the parts of an observation that a run looks at, and
  `shareOut_of_samples`: samples may be replaced by others that show a run the same;
* `Observation.value_shareOut` -- a report said with the draws of the device and of the consumers
  alone;
* `deficits` -- what the events of a run tell of remainders below zero;
* `remainingDuration_cases` and `remainingCharge_cases` -- a remainder is the difference and tells
  nothing, or it is zero and one event tells of the deficit.
-/

namespace PowerShare

/-! ## 1. Draws -/

/-- What a sample drew on the best basis it has. -/
def Sample.bestDraw (s : Sample) (currents : Currents) (options : Options) (asked : Bool) : Draw :=
  s.draw currents (s.basis currents options) asked

namespace Observation

variable (o : Observation) (component : Component) (currents : Currents) (options : Options)

/-- What the whole device drew. -/
def deviceDraw : Draw := o.device.bestDraw currents options false

/-- What each consumer drew, in consumer order. -/
def consumerDraws : List Draw :=
  o.consumers.values.map fun s => s.bestDraw currents options options.breakdown

/-- The durations of all consumers, added up in order. -/
def consumersDuration : Duration :=
  ((o.consumerDraws currents options).map (·.duration)).foldl (· + ·) .zero

/-- The charges of all consumers, added up in order. -/
def consumersCharge : Charge :=
  ((o.consumerDraws currents options).map (·.charge)).foldl (· + ·) .zero

/-- Every consumer's share. -/
def consumerShares : SortedMap Consumer Share :=
  o.consumers.mapValues fun consumer s => s.share consumer currents options

end Observation

/-- What is done once every consumer has its share and the device is drawn. -/
def settle (component : Component) (shares : SortedMap Consumer Share) (basis : Basis)
    (device : Draw) : Traced Report := do
  let total := totals shares.values
  .tell (shares.entries.map fun e => e.2.event component e.1)
  let duration ← remainingDuration component device.duration total.1
  let charge ← remainingCharge component device.charge total.2
  .tell [.remaining component duration charge, .attributed component basis]
  return {
    component := component
    device := ⟨device.duration, device.charge.larger total.2, basis⟩
    tracked := ⟨total.1, total.2, basis⟩
    systemDuration := duration
    systemCharge := charge
    shares := shares }

/-- **A run looks at an observation only for the shares, the device's draw and its basis.** -/
theorem Observation.shareOut_eq_settle (o : Observation) (component : Component)
    (currents : Currents) (options : Options) :
    o.shareOut component currents options =
      settle component (o.consumerShares currents options) (o.device.basis currents options)
        (o.deviceDraw currents options) := rfl

/-- **Samples may be replaced by others that are shared alike,** perhaps under other options: the
run is the same. -/
theorem Observation.shareOut_of_samples {o : Observation} {samples : Consumer → Sample → Sample}
    {device : Sample} {currents : Currents} {options options' : Options}
    (hshares : ∀ e ∈ o.consumers.entries,
      (samples e.1 e.2).share e.1 currents options' = e.2.share e.1 currents options)
    (hbasis : device.basis currents options' = o.device.basis currents options)
    (hdevice : device.bestDraw currents options' false = o.device.bestDraw currents options false)
    (component : Component) :
    shareOut { o with consumers := o.consumers.mapValues samples, device := device } component
      currents options' = o.shareOut component currents options := by
  have hconsumers : ((o.consumers.mapValues samples).mapValues fun k s =>
      s.share k currents options') = o.consumerShares currents options :=
    (SortedMap.mapValues_mapValues _ _ _).trans (SortedMap.mapValues_congr hshares)
  rw [shareOut_eq_settle, shareOut_eq_settle]
  unfold consumerShares deviceDraw at *
  rw [hconsumers, hbasis, hdevice]

/-- The two totals do not depend on each other. -/
theorem totals_eq (shares : List Share) :
    totals shares =
      ((shares.map (·.duration)).foldl (· + ·) .zero, (shares.map (·.charge)).foldl (· + ·) .zero) := by
  have hfrom (d : Duration) (c : Charge) :
      shares.foldl (fun sum s => (sum.1 + s.duration, sum.2 + s.charge)) (d, c) =
        ((shares.map (·.duration)).foldl (· + ·) d, (shares.map (·.charge)).foldl (· + ·) c) := by
    induction shares generalizing d c with
    | nil => rfl
    | cons s rest ih => exact ih (d + s.duration) (c + s.charge)
  exact hfrom .zero .zero

namespace Observation

variable (o : Observation) (component : Component) (currents : Currents) (options : Options)

theorem get?_consumerShares (k : Consumer) :
    (o.consumerShares currents options).get? k =
      (o.consumers.get? k).map fun s => s.share k currents options :=
  SortedMap.get?_mapValues _ _ _

theorem fst_totals_consumerShares :
    (totals (o.consumerShares currents options).values).1 = o.consumersDuration currents options := by
  rw [totals_eq]
  unfold consumersDuration consumerDraws consumerShares SortedMap.values
  simp only [SortedMap.entries_mapValues, List.map_map]
  rfl

theorem snd_totals_consumerShares :
    (totals (o.consumerShares currents options).values).2 = o.consumersCharge currents options := by
  rw [totals_eq]
  unfold consumersCharge consumerDraws consumerShares SortedMap.values
  simp only [SortedMap.entries_mapValues, List.map_map]
  rfl

/-- What the device used for longer than its consumers. -/
def durationLeft : Traced Duration :=
  remainingDuration component (o.deviceDraw currents options).duration
    (o.consumersDuration currents options)

/-- What the device used beyond its consumers. -/
def chargeLeft : Traced Charge :=
  remainingCharge component (o.deviceDraw currents options).charge
    (o.consumersCharge currents options)

/-- **A report, said with the draws of the device and of the consumers alone.** -/
theorem value_shareOut :
    (o.shareOut component currents options).value =
      { component := component
        device :=
          ⟨(o.deviceDraw currents options).duration,
            (o.deviceDraw currents options).charge.larger (o.consumersCharge currents options),
            o.device.basis currents options⟩
        tracked :=
          ⟨o.consumersDuration currents options, o.consumersCharge currents options,
            o.device.basis currents options⟩
        systemDuration := (o.durationLeft component currents options).value
        systemCharge := (o.chargeLeft component currents options).value
        shares := o.consumerShares currents options } := by
  unfold durationLeft chargeLeft
  rw [← fst_totals_consumerShares, ← snd_totals_consumerShares]
  rfl

/-- **The events of a run:** every share, what the two remainders tell, and the end. -/
theorem events_shareOut :
    (o.shareOut component currents options).events =
      ((o.consumerShares currents options).entries.map fun e => e.2.event component e.1) ++
        ((o.durationLeft component currents options).events ++
          ((o.chargeLeft component currents options).events ++
            [.remaining component (o.durationLeft component currents options).value
                (o.chargeLeft component currents options).value,
              .attributed component (o.device.basis currents options)])) := by
  unfold durationLeft chargeLeft
  rw [← fst_totals_consumerShares, ← snd_totals_consumerShares]
  rfl

end Observation

/-! ## 2. Deficits -/

/-- The deficits that events tell of one part of a remainder, each with the component it is told
of. -/
def deficits (residual : Residual) (events : List Event) : List (Component × Binary64) :=
  events.filterMap fun
    | .clamped component r deficit => if r = residual then some (component, deficit) else none
    | _ => none

theorem deficits_append (residual : Residual) (a b : List Event) :
    deficits residual (a ++ b) = deficits residual a ++ deficits residual b :=
  List.filterMap_append

/-- **Only the two remainders tell of deficits.** -/
theorem Observation.deficits_shareOut (o : Observation) (component : Component)
    (currents : Currents) (options : Options) (residual : Residual) :
    deficits residual (o.shareOut component currents options).events =
      deficits residual (o.durationLeft component currents options).events ++
        deficits residual (o.chargeLeft component currents options).events := by
  have hshared (entries : List (Consumer × Share)) :
      deficits residual (entries.map fun e => e.2.event component e.1) = [] := by
    unfold deficits
    rw [List.filterMap_map, List.filterMap_eq_nil_iff]
    intro e _
    rfl
  have htold (duration : Duration) (charge : Charge) (basis : Basis) :
      deficits residual [.remaining component duration charge, .attributed component basis] = [] :=
    rfl
  rw [events_shareOut, deficits_append, deficits_append, deficits_append, hshared, htold,
    List.nil_append, List.append_nil]

/-! ## 3. What is left -/

/-- **The two ways of a duration left:** the difference, or nothing and one event that tells of the
deficit. -/
theorem remainingDuration_cases (component : Component) (device consumers : Duration) :
    (consumers.toNat ≤ device.toNat ∧
      ∃ rest : Duration, rest.toNat = device.toNat - consumers.toNat ∧
        remainingDuration component device consumers = ⟨rest, []⟩) ∨
    (device.toNat < consumers.toNat ∧
      remainingDuration component device consumers =
        ⟨.zero, [.clamped component .duration (.ofNat (consumers.toNat - device.toNat))]⟩) := by
  unfold remainingDuration
  cases h : device.minus? consumers with
  | some rest =>
    obtain ⟨hle, hrest⟩ := Duration.toNat_of_minus? h
    exact .inl ⟨hle, rest, hrest, rfl⟩
  | none =>
    refine .inr ⟨?_, rfl⟩
    unfold Duration.minus? at h
    split at h
    · cases h
    · rename_i hlt
      exact Nat.lt_of_not_le hlt

/-- **The two ways of a charge left:** the difference, or nothing and one event that tells of the
deficit. -/
theorem remainingCharge_cases (component : Component) (device consumers : Charge) :
    ((device - consumers).less .zero = false ∧
      remainingCharge component device consumers = ⟨device - consumers, []⟩) ∨
    ((device - consumers).less .zero = true ∧
      remainingCharge component device consumers =
        ⟨.zero, [.clamped component .charge (-(device - consumers))]⟩) := by
  unfold remainingCharge
  dsimp only
  cases h : (device - consumers).less .zero with
  | false => exact .inl ⟨rfl, rfl⟩
  | true => exact .inr ⟨rfl, rfl⟩

namespace Observation

variable (o : Observation) (component : Component) (currents : Currents) (options : Options)

theorem deficits_duration_shareOut :
    deficits .duration (o.shareOut component currents options).events =
      deficits .duration (o.durationLeft component currents options).events := by
  rw [deficits_shareOut]
  unfold chargeLeft
  rcases remainingCharge_cases component (o.deviceDraw currents options).charge
    (o.consumersCharge currents options) with ⟨-, h⟩ | ⟨-, h⟩
  · rw [h]
    exact List.append_nil _
  · rw [h]
    exact List.append_nil _

theorem deficits_charge_shareOut :
    deficits .charge (o.shareOut component currents options).events =
      deficits .charge (o.chargeLeft component currents options).events := by
  rw [deficits_shareOut]
  unfold durationLeft
  rcases remainingDuration_cases component (o.deviceDraw currents options).duration
    (o.consumersDuration currents options) with ⟨-, rest, -, h⟩ | ⟨-, h⟩
  · rw [h]
    rfl
  · rw [h]
    rfl

end Observation

end PowerShare
