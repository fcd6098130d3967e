import PowerShare.Attribution

/-!
# System usage

The flat summary of one component: every consumer's share, marked if it belongs to the system, and
one entry for the system itself. The entry starts from what the attribution left to the system and
absorbs the listed system consumers in ascending order; it is kept only if its charge is above
zero. The summary never breaks shares down and never forces an estimate.
-/

namespace PowerShare

/-- A consumer's share, and whether it was added to the system's usage. -/
structure MarkedShare where
  share : Share
  absorbed : Bool
  deriving DecidableEq, Inhabited

/-- Usage that belongs to no ordinary consumer. -/
structure SystemUsage where
  component : Component
  duration : Duration
  charge : Charge
  /-- The system consumers whose usage was added, ascending. -/
  absorbed : List Consumer
  deriving DecidableEq, Inhabited

/-- The flat summary of one component. -/
structure Summary where
  component : Component
  shares : SortedMap Consumer MarkedShare
  /-- The system's usage, if its charge is above zero. -/
  system? : Option SystemUsage
  deriving DecidableEq, Inhabited

namespace SystemUsage

/-- What the attribution left to the system. -/
def ofReport (r : Report) : SystemUsage := ⟨r.component, r.systemDuration, r.systemCharge, []⟩

/-- The usage with one more consumer's share added. -/
def absorb (u : SystemUsage) (consumer : Consumer) (s : Share) : SystemUsage :=
  { u with
    duration := u.duration + s.duration
    charge := u.charge + s.charge
    absorbed := u.absorbed ++ [consumer] }

end SystemUsage

/-- The summary of one component, if its currents are usable and it reports activity. -/
def Observation.summarize (o : Observation) (component : Component) (currents : Currents)
    (systemConsumers : List Consumer) : Traced (Option Summary) := do
  if !currents.isUsable || !o.supported then return none
  let r ← o.shareOut component currents {}
  let rest := SystemUsage.ofReport r
  if !rest.charge.isZero then .tell [.started component rest.duration rest.charge]
  let mine := r.shares.entries.filter fun e => systemConsumers.contains e.1
  .tell (mine.map fun e => .absorbed component e.1)
  let usage := mine.foldl (fun u e => u.absorb e.1 e.2) rest
  return some {
    component := component
    shares := r.shares.mapValues fun consumer s => ⟨s, systemConsumers.contains consumer⟩
    system? := if Binary64.zero.less usage.charge then some usage else none }

end PowerShare
