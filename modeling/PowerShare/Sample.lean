import PowerShare.Profile

/-!
# Samples and observations

What was observed of a component: how long it idled, received and transmitted, perhaps the energy
that was measured and the charge that the component itself reported. A `Sample` holds that for one
consumer or for the whole device; an `Observation` holds the samples of one component.

Measured energy below zero means that nothing was measured; a reported charge that is zero or not
finite means that nothing was reported. `measured?` and `reported?` leave those out.
-/

namespace PowerShare

/-- Time spent in each mode. -/
structure Counters where
  idle : Duration := .zero
  rx : Duration := .zero
  tx : Duration := .zero
  deriving DecidableEq, Inhabited

/-- The time spent in all modes together. -/
def Counters.total (c : Counters) : Duration := c.idle + c.rx + c.tx

/-- An energy figure, unless its sign says that there is none. -/
def measuredEnergy? (energy? : Option Int64) : Option Int64 := energy?.filter (0 ≤ ·)

/-- What was observed while a consumer was in one run state. -/
structure Slice where
  counters : Counters := {}
  /-- Measured energy in microjoules; below zero when it was not available. -/
  energy? : Option Int64 := none
  deriving DecidableEq, Inhabited

def Slice.measured? (s : Slice) : Option Int64 := measuredEnergy? s.energy?

/-- What was observed of a component for one consumer, or for the whole device. -/
structure Sample where
  counters : Counters := {}
  /-- Measured energy in microjoules; below zero when it was not available. -/
  energy? : Option Int64 := none
  /-- The charge that the component itself reported. -/
  charge? : Option Charge := none
  /-- The same observation told apart by run state; states may be missing. -/
  slices : SortedMap RunState Slice := {}
  rxBytes? : Option UInt64 := none
  txBytes? : Option UInt64 := none
  deriving DecidableEq, Inhabited

namespace Sample

def duration (s : Sample) : Duration := s.counters.total

def measured? (s : Sample) : Option Int64 := measuredEnergy? s.energy?

/-- The reported charge, unless it is zero or not finite. -/
def reported? (s : Sample) : Option Charge := s.charge?.filter fun c => !c.isZero && c.isFinite

/-- The slice of a run state; a missing one is all zero. -/
def slice (s : Sample) (state : RunState) : Slice := (s.slices.get? state).getD {}

end Sample

/-- Everything that was observed of one component. -/
structure Observation where
  /-- Whether the component reports its activity at all. -/
  supported : Bool := true
  consumers : SortedMap Consumer Sample := {}
  device : Sample := {}
  deriving DecidableEq, Inhabited

end PowerShare
