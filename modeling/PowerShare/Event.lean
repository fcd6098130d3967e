import PowerShare.Report
import PowerShare.Text.Terminal

/-!
# Events

What happens on the way to a result is told as a list of `Event`s beside it: `Traced α` is a value
with the events that led to it, and `do` puts the events of the steps one after another. Two
readers look at events: the log (`Event.logLine?`) and the counters of the metrics
(`PowerShare.Tally`).
-/

namespace PowerShare

/-- The part of a remainder that went below zero. -/
inductive Residual where
  | duration
  | charge
  deriving DecidableEq, Inhabited

def Residual.name : Residual → String
  | duration => "duration"
  | charge => "power"

/-- Something worth telling about a computation. -/
inductive Event where
  /-- A consumer got its share. -/
  | shared (component : Component) (consumer : Consumer) (basis : Basis) (duration : Duration)
      (charge : Charge)
  /-- What is left to the system. -/
  | remaining (component : Component) (duration : Duration) (charge : Charge)
  /-- The consumers used more than the device, by the given deficit. -/
  | clamped (component : Component) (residual : Residual) (deficit : Binary64)
  /-- The component does not report its activity. -/
  | unsupported (component : Component)
  /-- A component was attributed; the device figure had the given basis. -/
  | attributed (component : Component) (basis : Basis)
  /-- What the system's usage in a summary starts from. -/
  | started (component : Component) (duration : Duration) (charge : Charge)
  /-- A system consumer was added to the system's usage. -/
  | absorbed (component : Component) (consumer : Consumer)
  /-- An unsupported outcome was not written. -/
  | skipped (component : Component)
  | loadingSettings (path : String)
  | loadedConsumers (count : Nat) (path : String)
  | loadedComponents (count : Nat) (path : String)
  | writingReport (path : String)
  deriving DecidableEq

/-! ## 1. The log -/

/-- How urgent a log line is. -/
inductive Level where
  | error
  | warn
  | info
  | debug
  | trace
  deriving DecidableEq, Inhabited

namespace Level

def name : Level → String
  | error => "ERROR"
  | warn => "WARN"
  | info => "INFO"
  | debug => "DEBUG"
  | trace => "TRACE"

/-- How much a log that shows this level lets through. -/
def verbosity : Level → Nat
  | error => 1
  | warn => 2
  | info => 3
  | debug => 4
  | trace => 5

end Level

/-- What a log line says: a sentence, or the fields of a diagnostic event. -/
inductive LogBody where
  | message (text : String)
  | diagnostic (event : String) (component : Component) (clamp? : Option (Residual × Binary64))
  deriving DecidableEq

/-- A line of the log. The topic is what log filters select by. -/
structure LogLine where
  level : Level
  topic : String
  body : LogBody
  deriving DecidableEq

/-- The names of what a line says. A sentence has a name too. -/
def LogLine.fields (l : LogLine) : List String :=
  match l.body with
  | .message _ => ["message"]
  | .diagnostic _ _ none => ["event", "component"]
  | .diagnostic _ _ (some _) => ["event", "component", "field", "deficit"]

/-- The topic of diagnostic events. -/
def diagnosticsTopic : String := "ampere::diagnostics"

namespace Event

def usageText (duration : Duration) (charge : Charge) : String :=
  "time=" ++ duration.text ++ "ms power=" ++ charge.text

/-- The topic of an event's log line. -/
def topic : Event → String
  | shared .. | remaining .. => "ampere_aggregator::aggregate"
  | clamped .. | unsupported .. | attributed .. => diagnosticsTopic
  | started .. | absorbed .. => "ampere_aggregator::legacy"
  | skipped .. | writingReport .. => "ampere_aggregator::export"
  | loadingSettings .. => "ampere_aggregator::config"
  | loadedConsumers .. | loadedComponents .. => "ampere_aggregator::input"

/-- The name of a component as a constructor is shown. -/
def shownName : Component → String
  | .bluetooth => "Bluetooth"
  | .wifi => "Wifi"
  | .modem => "Modem"

/-- What the log says about an event; an attribution is counted and not logged. -/
def logBody? : Event → Option (Level × LogBody)
  | shared component consumer basis duration charge =>
    some (.debug, .message (component.name ++ " consumer " ++ consumer.text ++ ": model=" ++
      basis.name ++ " " ++ usageText duration charge))
  | remaining component duration charge | started component duration charge =>
    some (.debug, .message (component.name ++ " active: " ++ usageText duration charge))
  | clamped component residual deficit =>
    some (.debug, .diagnostic "residual_clamped" component (some (residual, deficit)))
  | unsupported component =>
    some (.debug, .diagnostic "activity_reporting_unsupported" component none)
  | attributed .. => none
  | absorbed component consumer =>
    some (.debug, .message (component.name ++ " adding system consumer " ++ consumer.text))
  | skipped component =>
    some (.debug, .message
      ("Skipping unsupported attribution: Unsupported(" ++ shownName component ++ ")"))
  | loadingSettings path =>
    some (.debug, .message ("Loading engine configuration from " ++ path))
  | loadedConsumers count path =>
    some (.info, .message ("Loaded " ++ toString count ++ " consumer snapshots from " ++ path))
  | loadedComponents count path =>
    some (.info, .message
      ("Loaded activity for " ++ toString count ++ " components from " ++ path))
  | writingReport path => some (.info, .message ("Writing attribution report: " ++ path))

def logLine? (e : Event) : Option LogLine :=
  e.logBody?.map fun (level, body) => ⟨level, e.topic, body⟩

end Event

/-- Numbers in log fields keep their point and change to an exponent outside `1e-4 … 1e16`. -/
def logNotation : Notation := ⟨.up, some (-4), some 15, true, false⟩

/-- A log line as it is printed, without a time. -/
def LogLine.text (l : LogLine) : String :=
  l.level.name ++ " " ++
    match l.body with
    | .message text => harmless text
    | .diagnostic event component clamp? =>
      "event=\"" ++ event ++ "\" component=" ++ component.name ++
        match clamp? with
        | none => ""
        | some (residual, deficit) =>
          " field=\"" ++ residual.name ++ "\" deficit=" ++
            String.ofList (logNotation.render deficit)

/-! ## 2. Values with the events that led to them -/

/-- A value and the events on the way to it, oldest first. -/
structure Traced (α : Type) where
  value : α
  events : List Event := []

namespace Traced

instance : Monad Traced where
  pure a := ⟨a, []⟩
  bind t f := ⟨(f t.value).value, t.events ++ (f t.value).events⟩

/-- Nothing but events. -/
def tell (events : List Event) : Traced Unit := ⟨(), events⟩

variable {α β : Type}

theorem ext {t u : Traced α} (hvalue : t.value = u.value) (hevents : t.events = u.events) :
    t = u := by
  cases t; cases u; simp_all

@[simp] theorem value_bind (t : Traced α) (f : α → Traced β) :
    (t >>= f).value = (f t.value).value := rfl

@[simp] theorem events_bind (t : Traced α) (f : α → Traced β) :
    (t >>= f).events = t.events ++ (f t.value).events := rfl

@[simp] theorem events_pure (a : α) : (pure a : Traced α).events = [] := rfl

@[simp] theorem events_tell (events : List Event) : (tell events).events = events := rfl

end Traced

end PowerShare
