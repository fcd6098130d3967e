import PowerShare.Basis

/-!
# What one sample drew

`Sample.draw` is the duration and the charge of one sample on a given basis, split by run state if
asked. The duration is the sum of the counters whatever the basis; only without any basis is it
zero. A reported charge cannot be split, so its breakdown is zero in every state.
-/

namespace PowerShare

/-- The duration and the charge of one sample. -/
structure Draw where
  duration : Duration
  charge : Charge
  /-- The charge in every specified run state, if a breakdown was asked for. -/
  byState? : Option (SortedMap RunState Charge)
  deriving DecidableEq, Inhabited

/-- A charge for every specified run state, if a breakdown was asked for. -/
def breakdown (asked : Bool) (charge : RunState → Charge) : Option (SortedMap RunState Charge) :=
  if asked then some (SortedMap.ofList (RunState.specified.map fun s => (s, charge s))) else none

/-- The charge of a measured energy, zero if none was measured. -/
def measuredCharge (energy? : Option Int64) : Charge :=
  match energy? with
  | some energy => Charge.ofEnergy energy
  | none => .zero

/-- The charge that the currents draw over the counted times. -/
def Counters.estimate (c : Counters) (currents : Currents) : Charge :=
  currents.estimate c.idle c.rx c.tx

/-- The duration and the charge of a sample on the given basis. -/
def Sample.draw (s : Sample) (currents : Currents) (basis : Basis) (asked : Bool) : Draw :=
  match basis with
  | .measured =>
    ⟨s.duration, measuredCharge s.measured?,
      breakdown asked fun state => measuredCharge (s.slice state).measured?⟩
  | .reported => ⟨s.duration, s.reported?.getD .zero, breakdown asked fun _ => .zero⟩
  | .estimated =>
    ⟨s.duration, s.counters.estimate currents,
      breakdown asked fun state => (s.slice state).counters.estimate currents⟩
  | .unavailable => ⟨.zero, .zero, breakdown asked fun _ => .zero⟩

end PowerShare
