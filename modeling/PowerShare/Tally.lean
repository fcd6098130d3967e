import PowerShare.Event

/-!
# Tally

Events of three kinds are counted, each under its labels. A `Tally` holds the counts; its text is
the Prometheus exposition format: families by name, samples by label, and nothing for a family
without a sample. The text is a function of the counts alone, so the order of the events behind
them does not matter.
-/

namespace PowerShare

/-- Something that is counted. -/
inductive Counter where
  | attributed (component : Component) (basis : Basis)
  | clamped (component : Component) (residual : Residual)
  | unsupported (component : Component)
  deriving DecidableEq

/-- What an event counts towards. -/
def Event.counter? : Event → Option Counter
  | .attributed component basis => some (.attributed component basis)
  | .clamped component residual _ => some (.clamped component residual)
  | .unsupported component => some (.unsupported component)
  | _ => none

/-- How often each counter was hit. -/
structure Tally where
  count : Counter → Nat

namespace Tally

def zero : Tally := ⟨fun _ => 0⟩

instance : Inhabited Tally := ⟨zero⟩

/-- The tally after one more event. -/
def record (t : Tally) (e : Event) : Tally :=
  match e.counter? with
  | none => t
  | some c => ⟨fun d => if d = c then t.count d + 1 else t.count d⟩

/-- The tally after more events. -/
def recordAll (t : Tally) (events : List Event) : Tally := events.foldl record t

/-! ## The text of a tally -/

/-- A family of counters: its name, its help text, and its counters in label order. -/
structure Family where
  name : String
  help : String
  counters : List Counter

/-- Components in the order of their names. -/
def componentsByName : List Component := [.bluetooth, .modem, .wifi]

/-- Bases in the order of their names. -/
def basesByName : List Basis := [.measured, .estimated, .reported, .unavailable]

/-- All families, in the order of their names. -/
def families : List Family :=
  [{ name := "ampere_attributions_total"
     help := "Component attributions computed, by device-level power model"
     counters := componentsByName.flatMap fun c => basesByName.map (.attributed c) },
   { name := "ampere_residual_clamped_total"
     help := "System-only residuals that went negative and were clamped to zero"
     counters := componentsByName.flatMap fun c => [.clamped c .duration, .clamped c .charge] },
   { name := "ampere_unsupported_total"
     help := "Attributions skipped because the hardware reports no activity"
     counters := componentsByName.map .unsupported }]

/-- A label and its value. -/
def label (name value : String) : String := name ++ "=\"" ++ value ++ "\""

def labels : Counter → String
  | .attributed c b => label "component" c.name ++ "," ++ label "model" b.name
  | .clamped c r => label "component" c.name ++ "," ++ label "field" r.name
  | .unsupported c => label "component" c.name

/-- The lines of one family, none if nothing of it was counted. -/
def familyLines (t : Tally) (f : Family) : List String :=
  let samples := f.counters.filter fun c => t.count c != 0
  if samples.isEmpty then []
  else
    ["# HELP " ++ f.name ++ " " ++ f.help, "# TYPE " ++ f.name ++ " counter"] ++
      samples.map fun c => f.name ++ "\x7b" ++ labels c ++ "\x7d " ++ toString (t.count c)

/-- The tally in lines of text. -/
def lines (t : Tally) : List String := families.flatMap t.familyLines

end Tally

end PowerShare
