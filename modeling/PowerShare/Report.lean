import PowerShare.Draw

/-!
# Reports

A `Report` says how one component's usage was shared out: a `Share` for every consumer, the whole
device and all consumers together as two `Scope`s, and what is left to the system alone. An
`Outcome` is a report, or the fact that the component does not report activity.

`Report.ranked` lists the shares by charge, the greatest first in the total order of binary words
and the smaller consumer first among equal ones.
-/

namespace PowerShare

/-- One consumer's share of a component's usage. -/
structure Share where
  duration : Duration
  charge : Charge
  /-- The charge by consumer and run state, if a breakdown was asked for. -/
  byState? : Option (SortedMap StateKey Charge)
  basis : Basis
  rxBytes? : Option UInt64
  txBytes? : Option UInt64
  deriving DecidableEq, Inhabited

/-- The charge of a consumer in a run state, if the share has it. -/
def Share.stateCharge? (s : Share) (consumer : Consumer) (state : RunState) : Option Charge :=
  s.byState?.bind fun m => m.get? ⟨consumer, state⟩

/-- A draw as the share of a consumer. -/
def Draw.share (d : Draw) (consumer : Consumer) (basis : Basis) (sample : Sample) : Share :=
  { duration := d.duration
    charge := d.charge
    byState? := d.byState?.map fun m =>
      SortedMap.ofList (m.entries.map fun e => (⟨consumer, e.1⟩, e.2))
    basis := basis
    rxBytes? := sample.rxBytes?
    txBytes? := sample.txBytes? }

/-- Usage of one aggregate: the device, or all consumers together. -/
structure Scope where
  duration : Duration
  charge : Charge
  basis : Basis
  deriving DecidableEq, Inhabited

/-- How one component's usage was shared out. -/
structure Report where
  component : Component
  /-- The whole device. An attribution never puts its charge below that of all consumers. -/
  device : Scope
  /-- All consumers together. -/
  tracked : Scope
  /-- Device usage that belongs to no consumer; zero if the consumers used more. -/
  systemDuration : Duration
  systemCharge : Charge
  shares : SortedMap Consumer Share
  deriving DecidableEq, Inhabited

namespace Report

/-- The sum of the shares' charges, in consumer order. -/
def sharedCharge (r : Report) : Charge := r.shares.values.foldl (fun sum s => sum + s.charge) .zero

/-- The shares by charge, greatest first; among equal charges the smaller consumer first. -/
def ranked (r : Report) : List (Consumer × Share) :=
  r.shares.entries.mergeSort fun a b => decide (b.2.charge.totalPlace ≤ a.2.charge.totalPlace)

/-- The consumers with the greatest charges, at most so many. -/
def top (r : Report) (limit : Nat) : List (Consumer × Charge) :=
  let charges := r.shares.entries.map fun e => (e.1, e.2.charge)
  (charges.mergeSort fun a b => decide (b.2.totalPlace ≤ a.2.totalPlace)).take limit

end Report

/-- What came of an attribution. -/
inductive Outcome where
  /-- The component reports no activity; what was known of it before stays. -/
  | unsupported (component : Component)
  | report (report : Report)
  deriving DecidableEq

instance : Inhabited Outcome := ⟨.unsupported .bluetooth⟩

def Outcome.report? : Outcome → Option Report
  | .unsupported _ => none
  | .report r => some r

end PowerShare
