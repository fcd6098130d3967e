import PowerShare.Proofs.Attribution.Totals
import PowerShare.Proofs.Number.Bound
import PowerShare.Proofs.SystemUsage
import PowerShare.Tally

/-!
# What the counters say about the calls made

A process answers calls one after another, each of which tells some events, and the tally counts
them. The counters say just how often what happened:

* `Call` -- a call is an attribution or a summary of one component;
* `Sharing` -- what a call shares out, if it comes to that; `Sharing.exceeds` says on which
  remainder its consumers used more than the device;
* `Sharing.counters_shareOut` -- what one run of the sharing adds to the counters, and from it, call
  by call, `Tally.count_after`;
* `Tally.counts_after` -- the counters after any calls, the log lines that go with them, and that
  the order of the calls does not matter.
-/

namespace PowerShare

/-! ## 1. Calls -/

/-- A call for the usage of one component. -/
inductive Call where
  /-- The usage, shared out among the consumers. -/
  | attribution (component : Component) (currents : Currents) (options : Options) (o : Observation)
  /-- The flat summary. -/
  | summary (component : Component) (currents : Currents) (systemConsumers : List Consumer)
      (o : Observation)

/-- What is shared out among consumers. -/
structure Sharing where
  component : Component
  currents : Currents
  options : Options
  observation : Observation

namespace Sharing

/-- The basis of the device's figures. -/
def basis (s : Sharing) : Basis := s.observation.device.basis s.currents s.options

/-- Whether the consumers together used more than the device. -/
def exceeds (s : Sharing) : Residual → Bool
  | .duration =>
    (s.observation.deviceDraw s.currents s.options).duration.toNat <
      (s.observation.consumersDuration s.currents s.options).toNat
  | .charge =>
    (s.observation.deviceDraw s.currents s.options).charge.less
      (s.observation.consumersCharge s.currents s.options)

end Sharing

namespace Call

/-- The events that a call tells. -/
def events : Call → List Event
  | attribution component currents options o => (o.outcome component currents options).events
  | summary component currents systemConsumers o =>
    (o.summarize component currents systemConsumers).events

/-- What a call shares out: an attribution if the component reports its activity, a summary if there
is one. -/
def sharing? : Call → Option Sharing
  | attribution component currents options o =>
    if o.supported then some ⟨component, currents, options, o⟩ else none
  | summary component currents systemConsumers o =>
    if (o.summarize component currents systemConsumers).value.isSome then
      some ⟨component, currents, {}, o⟩
    else none

/-- The component that an attribution was asked for although it reports no activity. -/
def unsupported? : Call → Option Component
  | attribution component _ _ o => if o.supported then none else some component
  | summary .. => none

end Call

/-! ## 2. What events count towards -/

/-- What events count towards, one after another. -/
def counters (events : List Event) : List Counter := events.filterMap Event.counter?

@[simp] theorem counters_append (a b : List Event) : counters (a ++ b) = counters a ++ counters b :=
  List.filterMap_append

namespace Tally

theorem count_record (t : Tally) (e : Event) (c : Counter) :
    (t.record e).count c = t.count c + (counters [e]).count c := by
  unfold record counters
  cases h : e.counter? with
  | none => simp [h]
  | some d =>
    by_cases hc : c = d
    · simp [h, hc]
    · simp [h, hc, Ne.symm hc]

/-- **Events add to each counter as often as they count towards it.** -/
theorem count_recordAll (t : Tally) (events : List Event) (c : Counter) :
    (t.recordAll events).count c = t.count c + (counters events).count c := by
  induction events generalizing t with
  | nil => rfl
  | cons e rest ih =>
    have hsplit : counters (e :: rest) = counters [e] ++ counters rest := counters_append [e] rest
    rw [hsplit, List.count_append, ← Nat.add_assoc, ← count_record]
    exact ih (t.record e)

end Tally

/-- **What one run of the sharing adds to the counters:** each remainder below zero, and the run. -/
theorem Sharing.counters_shareOut (s : Sharing) :
    counters (s.observation.shareOut s.component s.currents s.options).events =
      (if s.exceeds .duration then [.clamped s.component .duration] else []) ++
        ((if s.exceeds .charge then [.clamped s.component .charge] else []) ++
          [.attributed s.component s.basis]) := by
  have hshares (entries : List (Consumer × Share)) :
      counters (entries.map fun e => e.2.event s.component e.1) = [] := by
    unfold counters
    rw [List.filterMap_map, List.filterMap_eq_nil_iff]
    intro e _
    rfl
  have hduration :
      counters (s.observation.durationLeft s.component s.currents s.options).events =
        if s.exceeds .duration then [.clamped s.component .duration] else [] := by
    unfold Observation.durationLeft exceeds
    rcases remainingDuration_cases s.component
      (s.observation.deviceDraw s.currents s.options).duration
      (s.observation.consumersDuration s.currents s.options) with ⟨hle, rest, -, h⟩ | ⟨hlt, h⟩
    · rw [h, if_neg (by simpa using hle)]
      rfl
    · rw [h, if_pos (decide_eq_true hlt)]
      rfl
  have hcharge :
      counters (s.observation.chargeLeft s.component s.currents s.options).events =
        if s.exceeds .charge then [.clamped s.component .charge] else [] := by
    unfold Observation.chargeLeft exceeds
    rw [← Binary64.less_zero_sub]
    rcases remainingCharge_cases s.component (s.observation.deviceDraw s.currents s.options).charge
      (s.observation.consumersCharge s.currents s.options) with ⟨hsign, h⟩ | ⟨hsign, h⟩
    · rw [h, hsign]
      rfl
    · rw [h, hsign]
      rfl
  rw [Observation.events_shareOut, counters_append, counters_append, counters_append, hshares,
    hduration, hcharge]
  rfl

theorem Report.counters_summaryEvents (r : Report) (systemConsumers : List Consumer) :
    counters (r.summaryEvents systemConsumers) = [] := by
  unfold counters summaryEvents
  rw [List.filterMap_append, List.filterMap_map, List.append_eq_nil_iff]
  refine ⟨?_, List.filterMap_eq_nil_iff.2 fun e _ => rfl⟩
  split <;> rfl

namespace Observation

variable (o : Observation) (component : Component) (currents : Currents)
  (systemConsumers : List Consumer)

/-- A summary tells the events of the sharing, and behind them what is counted nowhere. -/
theorem counters_summarize (h : (currents.isUsable && o.supported) = true) :
    (o.summarize component currents systemConsumers).value.isSome = true ∧
      counters (o.summarize component currents systemConsumers).events =
        counters (o.shareOut component currents {}).events := by
  rw [o.summarize_eq component currents systemConsumers h]
  refine ⟨rfl, ?_⟩
  rw [counters_append, Report.counters_summaryEvents, List.append_nil]

end Observation

/-! ## 3. One call -/

namespace Call

/-- Whether a call counts towards a counter: an attribution by component and basis of the device, a
deficit by component and remainder, and a component that reports no activity. -/
def countsTowards (call : Call) : Counter → Bool
  | .attributed component basis =>
    call.sharing?.any fun s => s.component = component && s.basis = basis
  | .clamped component residual =>
    call.sharing?.any fun s => s.component = component && s.exceeds residual
  | .unsupported component => call.unsupported? = some component

/-- **What a call adds to the counters:** what the sharing adds, or that there was none because the
component reports no activity. -/
theorem counters_events (call : Call) :
    (∃ s, call.sharing? = some s ∧ call.unsupported? = none ∧
      counters call.events =
        counters (s.observation.shareOut s.component s.currents s.options).events) ∨
    (call.sharing? = none ∧
      counters call.events = (call.unsupported?.map Counter.unsupported).toList) := by
  cases call with
  | attribution component currents options o =>
    cases h : o.supported with
    | true =>
      refine .inl ⟨_, if_pos h, if_pos h, ?_⟩
      show counters (o.outcome component currents options).events = _
      unfold Observation.outcome
      rw [if_pos h]
      simp only [Traced.events_bind, Traced.events_pure, List.append_nil]
    | false =>
      have hnot : ¬ o.supported = true := by
        rw [h]
        exact Bool.false_ne_true
      have hunsupported : unsupported? (.attribution component currents options o) =
          some component := if_neg hnot
      refine .inr ⟨if_neg hnot, ?_⟩
      show counters (o.outcome component currents options).events = _
      unfold Observation.outcome
      rw [if_neg hnot, hunsupported]
      rfl
  | summary component currents systemConsumers o =>
    cases h : currents.isUsable && o.supported with
    | true =>
      obtain ⟨hsome, hcounters⟩ := o.counters_summarize component currents systemConsumers h
      exact .inl ⟨_, if_pos hsome, rfl, hcounters⟩
    | false =>
      have hnone := o.summarize_eq_none component currents systemConsumers h
      refine .inr ⟨if_neg ?_, ?_⟩
      · rw [hnone]
        exact Bool.false_ne_true
      · show counters (o.summarize component currents systemConsumers).events = _
        rw [hnone]
        rfl

/-- **A call adds one to the counters that it counts towards,** and nothing to the others. -/
theorem count_counters (call : Call) (c : Counter) :
    (counters call.events).count c = if call.countsTowards c then 1 else 0 := by
  have hone (p : Bool) (a : Counter) :
      (if p then [a] else []).count c = if p && decide (a = c) then 1 else 0 := by
    cases p <;> simp [List.count_singleton]
  unfold countsTowards
  -- A call either comes to a sharing or, at most, is told of as unsupported.
  rcases call.counters_events with ⟨s, hs, hnone, h⟩ | ⟨hs, h⟩
  · rw [h, s.counters_shareOut, hs, hnone, List.count_append, List.count_append, hone, hone]
    cases c with
    | attributed component basis => simp [List.count_singleton]
    | clamped component residual => cases residual <;> simp [and_comm]
    | unsupported component => simp
  · rw [h, hs]
    cases call.unsupported? with
    | none => cases c <;> rfl
    | some component => cases c <;> simp [List.count_singleton]

end Call

/-! ## 4. Any number of calls -/

/-- What a line of the log says of a remainder or of a component without reports. -/
def LogLine.diagnosis? (l : LogLine) : Option Counter :=
  if l.topic = diagnosticsTopic then
    match l.body with
    | .diagnostic "residual_clamped" component (some (residual, _)) =>
      some (.clamped component residual)
    | .diagnostic "activity_reporting_unsupported" component none => some (.unsupported component)
    | _ => none
  else none

/-- Whether the log tells of what a counter counts. Attributions are counted only. -/
def Counter.isLogged : Counter → Bool
  | .attributed .. => false
  | .clamped .. | .unsupported .. => true

theorem Event.diagnosis?_logLine? (e : Event) :
    e.logLine?.bind LogLine.diagnosis? = e.counter?.filter Counter.isLogged := by
  cases e <;> rfl

/-- The diagnoses of a log are what its events count towards, attributions apart. -/
theorem diagnoses_eq (events : List Event) :
    (events.filterMap Event.logLine?).filterMap LogLine.diagnosis? =
      (counters events).filter Counter.isLogged := by
  unfold counters
  rw [List.filterMap_filterMap, List.filter_filterMap]
  exact congrArg (fun f => events.filterMap f) (funext Event.diagnosis?_logLine?)

namespace Tally

/-- The tally of a process that has answered these calls. -/
def after (calls : List Call) : Tally := zero.recordAll (calls.flatMap Call.events)

/-- **Each counter is the number of calls that count towards it.** -/
theorem count_after (calls : List Call) (c : Counter) :
    (after calls).count c = calls.countP (·.countsTowards c) := by
  unfold after
  rw [count_recordAll]
  show 0 + _ = _
  rw [Nat.zero_add]
  induction calls with
  | nil => rfl
  | cons call rest ih =>
    rw [List.flatMap_cons, counters_append, List.count_append, call.count_counters, ih,
      List.countP_cons, Nat.add_comm]

/-- Tallies with the same counts have the same text. -/
theorem lines_congr {t t' : Tally} (h : ∀ c, t.count c = t'.count c) : t.lines = t'.lines := by
  obtain ⟨count⟩ := t
  obtain ⟨count'⟩ := t'
  obtain rfl : count = count' := funext h
  rfl

/-- A summary that there is none of tells nothing. -/
theorem recordAll_summary (t : Tally) {o : Observation} {component : Component}
    {currents : Currents} {systemConsumers : List Consumer}
    (h : (o.summarize component currents systemConsumers).value = none) :
    t.recordAll (Call.summary component currents systemConsumers o).events = t := by
  cases hearly : currents.isUsable && o.supported with
  | true =>
    obtain ⟨hsome, -⟩ := o.counters_summarize component currents systemConsumers hearly
    rw [h] at hsome
    cases hsome
  | false =>
    show t.recordAll (o.summarize component currents systemConsumers).events = t
    rw [o.summarize_eq_none component currents systemConsumers hearly]
    rfl

/-- **The counters after any calls.** Attributions are the calls that came to a sharing, by component
and basis of the device; deficits are those among them whose consumers used more than the device;
the rest are attributions of a component without reports. A summary that there is none of changes
nothing. Deficits and components without reports are what the log tells of. Counting by ones in
binary is exact as long as there are few enough calls, and the text does not depend on their
order. -/
theorem counts_after (calls : List Call) :
    let t := after calls
    let log := (calls.flatMap Call.events).filterMap Event.logLine?
    (∀ component basis, t.count (.attributed component basis) =
      calls.countP fun call =>
        call.sharing?.any fun s => s.component = component && s.basis = basis) ∧
    (∀ component, t.count (.unsupported component) =
      calls.countP fun call => call.unsupported? = some component) ∧
    (∀ component residual, t.count (.clamped component residual) =
      calls.countP fun call =>
        call.sharing?.any fun s => s.component = component && s.exceeds residual) ∧
    (∀ (before : Tally) (o : Observation) component currents systemConsumers,
      (o.summarize component currents systemConsumers).value = none →
        before.recordAll (Call.summary component currents systemConsumers o).events = before) ∧
    (∀ c, c.isLogged = true → t.count c = (log.filterMap LogLine.diagnosis?).count c) ∧
    (calls.length < 2 ^ 53 →
      ∀ c, Nat.repeat (· + Binary64.ofNat 1) (t.count c) .zero = .ofNat (t.count c)) ∧
    ∀ calls' : List Call, calls.Perm calls' → (after calls').lines = t.lines := by
  intro t log
  refine ⟨fun _ _ => count_after .., fun _ => count_after .., fun _ _ => count_after ..,
    fun before _ _ _ _ h => before.recordAll_summary h, fun c hc => ?_, fun hfew c => ?_,
    fun calls' hperm => lines_congr fun c => ?_⟩
  · have hcount : t.count c = (counters (calls.flatMap Call.events)).count c := by
      show (zero.recordAll _).count c = _
      rw [count_recordAll]
      exact Nat.zero_add _
    rw [hcount, diagnoses_eq, List.count_filter hc]
  · refine Binary64.iterate_add_one (Nat.lt_of_le_of_lt ?_ hfew)
    rw [count_after]
    exact List.countP_le_length
  · rw [count_after, count_after]
    exact (hperm.countP_eq _).symm

/-- A device that drew less than its consumer, asked for in both ways, beside a component without
reports and a summary without currents. -/
theorem counts_after_five_calls :
    let currents : Currents := ⟨.ofNat 1, .ofNat 50, .ofNat 100⟩
    let o : Observation :=
      { consumers := .ofList [(⟨4⟩, { charge? := some (.ofNat 3) })]
        device := { charge? := some (.ofNat 2) } }
    let unsupported : Call := .attribution .modem currents {} { supported := false }
    let attribution : Call := .attribution .wifi currents {} o
    let summary : Call := .summary .wifi currents [⟨4⟩] o
    let empty : Call := .summary .wifi {} [] o
    let calls := [unsupported, attribution, empty, summary, unsupported]
    (after calls).count (.attributed .wifi .reported) = 2 ∧
      (after calls).count (.clamped .wifi .charge) = 2 ∧
      (after calls).count (.clamped .wifi .duration) = 0 ∧
      (after calls).count (.unsupported .modem) = 2 ∧
      (∀ before : Tally, before.recordAll empty.events = before) ∧
      (((calls.flatMap Call.events).filterMap Event.logLine?).filterMap LogLine.diagnosis?).count
        (.clamped .wifi .charge) = 2 ∧
      Nat.repeat (· + Binary64.ofNat 1) ((after calls).count (.unsupported .modem)) .zero =
        .ofNat 2 ∧
      (after [attribution, summary, unsupported, unsupported, empty]).lines =
        (after calls).lines := by
  intro currents o unsupported attribution summary empty calls
  obtain ⟨hattributed, hunsupported, hclamped, hnone, hlogged, hexact, horder⟩ := counts_after calls
  have hcharge : (after calls).count (.clamped .wifi .charge) = 2 := by
    rw [hclamped]
    decide +kernel
  have hmodem : (after calls).count (.unsupported .modem) = 2 := by
    rw [hunsupported]
    decide +kernel
  have hperm : calls.Perm [attribution, summary, unsupported, unsupported, empty] := by
    have hfront : calls.Perm (attribution :: [unsupported, empty, summary, unsupported]) :=
      .swap ..
    refine hfront.trans (.cons _ ?_)
    have hsummary : ([unsupported, empty] ++ summary :: [unsupported]).Perm
        (summary :: ([unsupported, empty] ++ [unsupported])) :=
      List.perm_middle
    exact hsummary.trans (.cons _ (.cons _ (.swap ..)))
  refine ⟨?_, hcharge, ?_, hmodem, fun before => hnone before o .wifi {} [] rfl, ?_, ?_,
    horder _ hperm⟩
  · rw [hattributed]
    decide +kernel
  · rw [hclamped]
    decide +kernel
  · rw [← hlogged _ rfl]
    exact hcharge
  · have h := hexact (by decide) (.unsupported .modem)
    rw [hmodem] at h
    rw [hmodem]
    exact h

end Tally

end PowerShare
