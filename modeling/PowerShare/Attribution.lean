import PowerShare.Event

/-!
# Attribution

`Observation.shareOut` shares one component's usage out among its consumers. Every consumer's share
depends on its own sample alone; the totals are taken over the shares in consumer order; the device
is drawn like one more consumer, without a breakdown; and what the device used beyond the totals is
left to the system.
A remainder below zero is told as an event and counts as zero.
-/

namespace PowerShare

/-- A consumer's share, from its own sample. -/
def Sample.share (s : Sample) (consumer : Consumer) (currents : Currents) (options : Options) :
    Share :=
  let basis := s.basis currents options
  (s.draw currents basis options.breakdown).share consumer basis s

/-- The duration of all shares, and their charge added up in order. -/
def totals (shares : List Share) : Duration × Charge :=
  shares.foldl (fun sum s => (sum.1 + s.duration, sum.2 + s.charge)) (.zero, .zero)

/-- The device's duration beyond the consumers', zero if they used more. -/
def remainingDuration (component : Component) (device consumers : Duration) : Traced Duration :=
  match device.minus? consumers with
  | some rest => pure rest
  | none =>
    let deficit := Binary64.ofNat (consumers.toNat - device.toNat)
    ⟨.zero, [.clamped component .duration deficit]⟩

/-- The device's charge beyond the consumers', zero if they used more. -/
def remainingCharge (component : Component) (device consumers : Charge) : Traced Charge :=
  let rest := device - consumers
  if rest.less .zero then ⟨.zero, [.clamped component .charge (-rest)]⟩ else pure rest

/-- The event that tells of a share. -/
def Share.event (s : Share) (component : Component) (consumer : Consumer) : Event :=
  .shared component consumer s.basis s.duration s.charge

/-- Shares one component's usage out among its consumers. -/
def Observation.shareOut (o : Observation) (component : Component) (currents : Currents)
    (options : Options) : Traced Report := do
  let shares := o.consumers.mapValues fun consumer s => s.share consumer currents options
  let total := totals shares.values
  let basis := o.device.basis currents options
  let device := o.device.draw currents basis false
  .tell (shares.entries.map fun e => e.2.event component e.1)
  let duration ← remainingDuration component device.duration total.1
  let charge ← remainingCharge component device.charge total.2
  .tell [.remaining component duration charge, .attributed component basis]
  return {
    component := component
    device := ⟨device.duration, device.charge.larger total.2, basis⟩
    tracked := ⟨total.1, total.2, basis⟩
    systemDuration := duration
    systemCharge := charge
    shares := shares }

/-- The outcome for one component: a report, unless the component reports no activity. -/
def Observation.outcome (o : Observation) (component : Component) (currents : Currents)
    (options : Options) : Traced Outcome :=
  if o.supported then do
    return .report (← o.shareOut component currents options)
  else ⟨.unsupported component, [.unsupported component]⟩

/-- Observations of several components. -/
abbrev Observations := SortedMap Component Observation

/-- The outcome for every observed component, in component order. -/
def Observations.outcomes (os : Observations) (profile : Profile) (options : Options) :
    SortedMap Component (Traced Outcome) :=
  SortedMap.mapValues
    (fun component o => o.outcome component (profile.currents component) options) os

end PowerShare
