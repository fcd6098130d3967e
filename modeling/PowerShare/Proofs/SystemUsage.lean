import PowerShare.Proofs.Attribution.Durations
import PowerShare.Proofs.Number.Sign
import PowerShare.SystemUsage

/-!
# What a summary adds up

A summary takes the report of the same component apart: each share is marked or not, and the marked
ones are added to what the report leaves to the system.

* `Report.summary` -- the summary of a report, and `Observation.summarize_eq`: there is no other;
* `SystemUsage.Gathers` -- what a usage must hold to be that of the listed consumers, and
  `Report.gathers_systemUsage`: the one that is added up holds it;
* `Observation.summarize_outcome` -- so a summary is the outcome of an attribution without options,
  read another way, and depends on which observed consumers are listed and on nothing else of the
  list;
* `Observation.toNat_durations_summarize` -- absorbing a consumer moves its time and loses none;
* `Observation.absorbed_without_usage` and `Observation.mem_absorbed_summarize` -- a usage
  without a charge is left out together with the time in it, and one with a charge has absorbed just
  the marked consumers.
-/

namespace PowerShare

/-! ## 1. The summary of a report -/

namespace Report

variable (r : Report) (systemConsumers : List Consumer)

/-- The shares of the listed consumers, in consumer order. -/
def listed : List (Consumer × Share) :=
  r.shares.entries.filter fun e => systemConsumers.contains e.1

/-- What is left to the system, with the shares of the listed consumers added. -/
def systemUsage : SystemUsage :=
  (r.listed systemConsumers).foldl (fun u e => u.absorb e.1 e.2) (.ofReport r)

/-- Every share, marked if its consumer is listed. -/
def marked : SortedMap Consumer MarkedShare :=
  r.shares.mapValues fun consumer s => ⟨s, systemConsumers.contains consumer⟩

/-- The summary of a report. -/
def summary : Summary :=
  { component := r.component
    shares := r.marked systemConsumers
    system? :=
      if Binary64.zero.less (r.systemUsage systemConsumers).charge then
        some (r.systemUsage systemConsumers)
      else none }

/-- What a summary tells of itself, behind the events of the sharing. -/
def summaryEvents : List Event :=
  (if r.systemCharge.isZero then []
    else [.started r.component r.systemDuration r.systemCharge]) ++
    (r.listed systemConsumers).map fun e => .absorbed r.component e.1

end Report

namespace Observation

variable (o : Observation) (component : Component) (currents : Currents)
  (systemConsumers : List Consumer)

theorem summarize_eq_none (h : (currents.isUsable && o.supported) = false) :
    o.summarize component currents systemConsumers = ⟨none, []⟩ := by
  have hearly : (!currents.isUsable || !o.supported) = true := by
    rw [← Bool.not_and, h, Bool.not_false]
  unfold summarize
  rw [if_pos hearly]
  rfl

/-- **A summary is made from the report alone,** once the currents are usable and the component
reports its activity. -/
theorem summarize_eq (h : (currents.isUsable && o.supported) = true) :
    o.summarize component currents systemConsumers =
      ⟨some ((o.shareOut component currents {}).value.summary systemConsumers),
        (o.shareOut component currents {}).events ++
          (o.shareOut component currents {}).value.summaryEvents systemConsumers⟩ := by
  have hlate : ¬ (!currents.isUsable || !o.supported) = true := by
    rw [← Bool.not_and, h]
    exact Bool.false_ne_true
  unfold summarize
  rw [if_neg hlate]
  cases hzero : (SystemUsage.ofReport (o.shareOut component currents {}).value).charge.isZero with
  | true =>
    have hstart : (o.shareOut component currents {}).value.systemCharge.isZero = true := hzero
    refine Traced.ext ?_ ?_
    · simp only [Traced.value_bind, hzero]
      rfl
    · simp only [Traced.events_bind, hzero, Report.summaryEvents, hstart]
      exact congrArg _ (List.append_nil _)
  | false =>
    have hstart : (o.shareOut component currents {}).value.systemCharge.isZero = false := hzero
    refine Traced.ext ?_ ?_
    · simp only [Traced.value_bind, hzero]
      rfl
    · simp only [Traced.events_bind, hzero, Report.summaryEvents, hstart]
      exact congrArg (fun told => _ ++ (_ :: told)) (List.append_nil _)

end Observation

/-! ## 2. What is added up -/

/-- **Absorbing consumers one after another adds up what they used.** -/
theorem SystemUsage.foldl_absorb (entries : List (Consumer × Share)) (u : SystemUsage) :
    entries.foldl (fun u e => u.absorb e.1 e.2) u =
      { component := u.component
        duration := (entries.map (·.2.duration)).foldl (· + ·) u.duration
        charge := (entries.map (·.2.charge)).foldl (· + ·) u.charge
        absorbed := u.absorbed ++ entries.map (·.1) } := by
  induction entries generalizing u with
  | nil => simp only [List.foldl_nil, List.map_nil, List.append_nil]
  | cons e rest ih =>
    rw [List.foldl_cons, ih]
    simp only [absorb, List.map_cons, List.foldl_cons, List.append_assoc, List.singleton_append]

/-- What a usage holds that is the system's own and that of the listed consumers. -/
structure SystemUsage.Gathers (u : SystemUsage) (r : Report) (systemConsumers : List Consumer) :
    Prop where
  component_eq : u.component = r.component
  /-- Nobody is absorbed twice. -/
  ascending : SortedMap.Ascending u.absorbed
  mem_absorbed_iff : ∀ k, k ∈ u.absorbed ↔ k ∈ r.shares.keys ∧ k ∈ systemConsumers
  /-- The time is the exact sum, or the longest duration. -/
  toNat_duration : u.duration.toNat = min (2 ^ 64 - 1)
    (r.systemDuration.toNat + ((u.absorbed.filterMap r.shares.get?).map (·.duration.toNat)).sum)
  /-- The charges are added in the order of the consumers. -/
  charge_eq :
    u.charge = ((u.absorbed.filterMap r.shares.get?).map (·.charge)).foldl (· + ·) r.systemCharge

/-- No two usages are gathered from the same consumers of a report. -/
theorem SystemUsage.Gathers.unique {u u' : SystemUsage} {r : Report}
    {systemConsumers : List Consumer} (h : u.Gathers r systemConsumers)
    (h' : u'.Gathers r systemConsumers) : u = u' := by
  have habsorbed : u.absorbed = u'.absorbed :=
    h.ascending.eq_of_mem_iff h'.ascending fun k =>
      (h.mem_absorbed_iff k).trans (h'.mem_absorbed_iff k).symm
  have hcomponent : u.component = u'.component := h.component_eq.trans h'.component_eq.symm
  have hduration : u.duration = u'.duration := by
    refine Duration.ext ?_
    rw [h.toNat_duration, h'.toNat_duration, habsorbed]
  have hcharge : u.charge = u'.charge := by
    rw [h.charge_eq, h'.charge_eq, habsorbed]
  cases u
  cases u'
  simp_all

namespace Report

variable (r : Report) (systemConsumers : List Consumer)

theorem systemUsage_eq :
    r.systemUsage systemConsumers =
      { component := r.component
        duration := ((r.listed systemConsumers).map (·.2.duration)).foldl (· + ·) r.systemDuration
        charge := ((r.listed systemConsumers).map (·.2.charge)).foldl (· + ·) r.systemCharge
        absorbed := (r.listed systemConsumers).map (·.1) } :=
  SystemUsage.foldl_absorb _ _

theorem system?_summary_eq_some_iff {u : SystemUsage} :
    (r.summary systemConsumers).system? = some u ↔
      r.systemUsage systemConsumers = u ∧ Binary64.zero.less u.charge = true := by
  unfold summary
  simp only [Option.ite_none_right_eq_some, Option.some.injEq]
  constructor
  · intro ⟨hcharge, hu⟩
    exact ⟨hu, hu ▸ hcharge⟩
  · intro ⟨hu, hcharge⟩
    exact ⟨hu ▸ hcharge, hu⟩

/-- The absorbed consumers are the keys that are listed. -/
theorem absorbed_systemUsage :
    (r.systemUsage systemConsumers).absorbed = r.shares.keys.filter systemConsumers.contains := by
  rw [systemUsage_eq]
  show (r.listed systemConsumers).map (·.1) = _
  unfold listed SortedMap.keys
  rw [List.filter_map]
  rfl

theorem filterMap_get?_absorbed :
    (r.systemUsage systemConsumers).absorbed.filterMap r.shares.get? =
      (r.listed systemConsumers).map (·.2) := by
  rw [systemUsage_eq]
  exact SortedMap.filterMap_get?_of_subset fun _ he => List.mem_of_mem_filter he

theorem toNat_duration_systemUsage :
    (r.systemUsage systemConsumers).duration.toNat = min (2 ^ 64 - 1)
      (r.systemDuration.toNat + ((r.listed systemConsumers).map (·.2.duration.toNat)).sum) := by
  rw [systemUsage_eq]
  simp only
  rw [Duration.toNat_foldl_add, List.map_map]
  rfl

/-- **The usage that is added up is that of the listed consumers.** -/
theorem gathers_systemUsage :
    (r.systemUsage systemConsumers).Gathers r systemConsumers where
  component_eq := by rw [systemUsage_eq]
  ascending := by
    rw [absorbed_systemUsage]
    exact List.Pairwise.filter _ r.shares.ascending_keys
  mem_absorbed_iff k := by
    rw [absorbed_systemUsage, List.mem_filter, List.contains_iff_mem]
  toNat_duration := by
    rw [toNat_duration_systemUsage, filterMap_get?_absorbed, List.map_map]
    rfl
  charge_eq := by
    rw [filterMap_get?_absorbed, List.map_map, systemUsage_eq]
    rfl

theorem get?_marked (k : Consumer) :
    (r.marked systemConsumers).get? k =
      (r.shares.get? k).map fun share => ⟨share, decide (k ∈ systemConsumers)⟩ := by
  unfold marked
  rw [SortedMap.get?_mapValues]
  simp only [List.contains_eq_mem]

section Same

variable {r systemConsumers} {systemConsumers' : List Consumer}
  (h : ∀ k ∈ r.shares.keys, k ∈ systemConsumers' ↔ k ∈ systemConsumers)

include h

theorem contains_congr {e : Consumer × Share} (he : e ∈ r.shares.entries) :
    systemConsumers'.contains e.1 = systemConsumers.contains e.1 := by
  rw [Bool.eq_iff_iff, List.contains_iff_mem, List.contains_iff_mem]
  exact h e.1 (List.mem_map_of_mem he)

theorem listed_congr : r.listed systemConsumers' = r.listed systemConsumers :=
  List.filter_congr fun _ he => contains_congr h he

/-- **Lists that have the same consumers of a report in them make the same summary of it.** -/
theorem summary_congr : r.summary systemConsumers' = r.summary systemConsumers := by
  have hmarked : r.marked systemConsumers' = r.marked systemConsumers :=
    SortedMap.mapValues_congr fun e he => congrArg (MarkedShare.mk e.2) (contains_congr h he)
  unfold summary systemUsage
  rw [hmarked, listed_congr h]

theorem summaryEvents_congr :
    r.summaryEvents systemConsumers' = r.summaryEvents systemConsumers := by
  unfold summaryEvents
  rw [listed_congr h]

end Same

end Report

/-! ## 3. A summary and the outcome of an attribution -/

namespace Observation

variable (o : Observation) (component : Component) (currents : Currents)
  (systemConsumers : List Consumer)

theorem keys_shares_shareOut (options : Options) :
    (o.shareOut component currents options).value.shares.keys = o.consumers.keys := by
  rw [value_shareOut]
  exact SortedMap.keys_mapValues _ _

/-- There is a summary just where currents are usable and the component reports its activity, and it
is that of the report that an attribution comes to. -/
theorem value_summarize_cases :
    ((currents.isUsable && o.supported) = false ∧
      (o.summarize component currents systemConsumers).value = none) ∨
    ((currents.isUsable && o.supported) = true ∧
      ∃ r, (o.outcome component currents {}).value = .report r ∧
        r = (o.shareOut component currents {}).value ∧
        (o.summarize component currents systemConsumers).value =
          some (r.summary systemConsumers)) := by
  cases h : currents.isUsable && o.supported with
  | false =>
    rw [o.summarize_eq_none component currents systemConsumers h]
    exact .inl ⟨rfl, rfl⟩
  | true =>
    have hsupported : o.supported = true := (Bool.and_eq_true_iff.1 h).2
    rw [o.summarize_eq component currents systemConsumers h]
    refine .inr ⟨rfl, _, ?_, rfl, rfl⟩
    unfold outcome
    rw [if_pos hsupported]
    rfl

/-- **A summary is the outcome of an attribution without options, read another way.** There is none
just where the currents are not usable or the component reports no activity. Otherwise it has the
shares of the attribution, each marked if its consumer is listed, and what the system has is
gathered from the listed consumers and kept if its charge is above zero. Of the list it matters only
which of the observed consumers are in it. -/
theorem summarize_outcome :
    ((o.summarize component currents systemConsumers).value = none ↔
      currents.isUsable = false ∨ o.supported = false) ∧
    (∀ s, (o.summarize component currents systemConsumers).value = some s →
      ∃ r u, (o.outcome component currents {}).value = .report r ∧
        s.component = component ∧ r.shares.keys = o.consumers.keys ∧
        (∀ k, s.shares.get? k =
          (r.shares.get? k).map fun share => ⟨share, decide (k ∈ systemConsumers)⟩) ∧
        u.Gathers r systemConsumers ∧
        s.system? = if Binary64.zero.less u.charge then some u else none) ∧
    ∀ systemConsumers' : List Consumer,
      (∀ k ∈ o.consumers.keys, k ∈ systemConsumers' ↔ k ∈ systemConsumers) →
        o.summarize component currents systemConsumers' =
          o.summarize component currents systemConsumers := by
  refine ⟨?_, fun s hs => ?_, fun systemConsumers' hsame => ?_⟩
  · rw [← Bool.and_eq_false_iff]
    rcases o.value_summarize_cases component currents systemConsumers with
      ⟨hearly, hnone⟩ | ⟨hlate, r, -, -, hsome⟩
    · exact iff_of_true hnone hearly
    · rw [hsome, hlate]
      exact iff_of_false (by simp) (by simp)
  · rcases o.value_summarize_cases component currents systemConsumers with
      ⟨-, hnone⟩ | ⟨-, r, hreport, hr, hsome⟩
    · rw [hnone] at hs
      cases hs
    · rw [hsome] at hs
      obtain rfl := Option.some.inj hs
      refine ⟨r, r.systemUsage systemConsumers, hreport, ?_, ?_, fun k => ?_,
        r.gathers_systemUsage systemConsumers, rfl⟩
      · rw [hr]
        rfl
      · rw [hr]
        exact o.keys_shares_shareOut component currents {}
      · exact r.get?_marked systemConsumers k
  · cases h : currents.isUsable && o.supported with
    | false => rw [o.summarize_eq_none _ _ _ h, o.summarize_eq_none _ _ _ h]
    | true =>
      have hshares := o.keys_shares_shareOut component currents {}
      rw [← hshares] at hsame
      rw [o.summarize_eq _ _ _ h, o.summarize_eq _ _ _ h, Report.summary_congr hsame,
        Report.summaryEvents_congr hsame]

/-- Two of three consumers are listed, once in order and once backwards, twice and beside a
stranger: the summary is the same, and the system has absorbed the two in their own order. -/
theorem summarize_outcome_reordered :
    let currents : Currents := ⟨.ofNat 1, .ofNat 50, .ofNat 100⟩
    let busy : Sample := { counters := { tx := ⟨900⟩ } }
    let o : Observation :=
      { consumers := .ofList [(⟨9⟩, busy), (⟨3⟩, busy), (⟨5⟩, busy)], device := busy }
    (∀ k ∈ o.consumers.keys, k ∈ [⟨9⟩, ⟨4⟩, ⟨3⟩, ⟨9⟩] ↔ k ∈ [(⟨3⟩ : Consumer), ⟨9⟩]) ∧
      o.summarize .wifi currents [⟨9⟩, ⟨4⟩, ⟨3⟩, ⟨9⟩] = o.summarize .wifi currents [⟨3⟩, ⟨9⟩] ∧
      ∃ s r u, (o.summarize .wifi currents [⟨3⟩, ⟨9⟩]).value = some s ∧
        (o.outcome .wifi currents {}).value = .report r ∧ u.Gathers r [⟨3⟩, ⟨9⟩] ∧
        s.system? = some u ∧ u.absorbed = [⟨3⟩, ⟨9⟩] := by
  intro currents busy o
  obtain ⟨hnone, hsome, hsame⟩ := o.summarize_outcome .wifi currents [⟨3⟩, ⟨9⟩]
  have hlisted : ∀ k ∈ o.consumers.keys,
      k ∈ [⟨9⟩, ⟨4⟩, ⟨3⟩, ⟨9⟩] ↔ k ∈ [(⟨3⟩ : Consumer), ⟨9⟩] := by decide +kernel
  have hexists : ¬ (o.summarize .wifi currents [⟨3⟩, ⟨9⟩]).value = none := by
    rw [hnone]
    decide +kernel
  obtain ⟨s, hs⟩ := Option.ne_none_iff_exists'.1 hexists
  obtain ⟨r, u, hr, -, -, -, hgathers, hsystem⟩ := hsome s hs
  obtain rfl : (o.shareOut .wifi currents {}).value = r := Outcome.report.inj hr
  obtain rfl := hgathers.unique (Report.gathers_systemUsage _ _)
  refine ⟨hlisted, hsame _ hlisted, s, _, _, hs, rfl, hgathers, hsystem.trans (if_pos ?_), ?_⟩
  · decide +kernel
  · decide +kernel

/-! ## 4. The time of a summary -/

/-- The sum of the shares is the time of all consumers. -/
theorem toNat_consumersDuration_shares (options : Options) :
    (o.consumersDuration currents options).toNat = min (2 ^ 64 - 1)
      ((o.shareOut component currents options).value.shares.values.map (·.duration.toNat)).sum := by
  rw [value_shareOut, ← fst_totals_consumerShares, totals_eq, Duration.toNat_foldl_add,
    Duration.toNat_zero, Nat.zero_add, List.map_map]
  rfl

/-- What is left to the system lasts as long as the device beyond its consumers. -/
theorem toNat_systemDuration_shareOut (options : Options) :
    let r := (o.shareOut component currents options).value
    r.systemDuration.toNat =
      r.device.duration.toNat - min (2 ^ 64 - 1) (r.shares.values.map (·.duration.toNat)).sum := by
  intro r
  rw [← o.toNat_consumersDuration_shares component currents options]
  show (o.shareOut component currents options).value.systemDuration.toNat =
    (o.shareOut component currents options).value.device.duration.toNat - _
  rw [value_shareOut]
  exact o.toNat_durationLeft component currents options

end Observation

namespace Report

variable (r : Report) (systemConsumers : List Consumer)

theorem values_marked :
    (r.marked systemConsumers).values =
      r.shares.entries.map fun e => ⟨e.2, systemConsumers.contains e.1⟩ := by
  unfold marked SortedMap.values
  rw [SortedMap.entries_mapValues, List.map_map]
  rfl

theorem map_share_values_marked :
    (r.marked systemConsumers).values.map (·.share) = r.shares.values := by
  rw [values_marked, List.map_map]
  rfl

theorem sum_duration_marked :
    ((r.marked systemConsumers).values.map (·.share.duration.toNat)).sum =
      (r.shares.values.map (·.duration.toNat)).sum := by
  rw [← r.map_share_values_marked systemConsumers, List.map_map]
  rfl

/-- The marked shares are those of the listed consumers. -/
theorem map_share_filter_marked :
    ((r.marked systemConsumers).values.filter (·.absorbed)).map (·.share) =
      (r.listed systemConsumers).map (·.2) := by
  rw [values_marked, List.filter_map, List.map_map]
  rfl

/-- **The time in the system's usage and the time of the shares that are not marked is the time that
was left and that of all shares,** as long as no sum is cut at the longest duration. -/
theorem toNat_duration_systemUsage_add
    (hfits : r.systemDuration.toNat + (r.shares.values.map (·.duration.toNat)).sum < 2 ^ 64) :
    (r.systemUsage systemConsumers).duration.toNat +
        (((r.marked systemConsumers).values.filter fun m => !m.absorbed).map
          (·.share.duration.toNat)).sum =
      r.systemDuration.toNat + (r.shares.values.map (·.duration.toNat)).sum := by
  have hparts := List.sum_map_filter_add_sum_map_filter_not
    (fun m : MarkedShare => m.absorbed = true) (fun m => m.share.duration.toNat)
    (r.marked systemConsumers).values
  have hmarked : (((r.marked systemConsumers).values.filter (·.absorbed)).map
      (·.share.duration.toNat)).sum =
      ((r.listed systemConsumers).map (·.2.duration.toNat)).sum := by
    have hmap := congrArg (List.map (·.duration.toNat)) (r.map_share_filter_marked systemConsumers)
    rw [List.map_map, List.map_map] at hmap
    exact congrArg List.sum hmap
  simp only [Bool.decide_eq_true, Bool.not_eq_true, Bool.decide_eq_false] at hparts
  rw [hmarked, sum_duration_marked] at hparts
  rw [toNat_duration_systemUsage]
  omega

end Report

namespace Observation

variable (o : Observation) (component : Component) (currents : Currents)
  (systemConsumers : List Consumer)

/-- **Absorbing a consumer moves its time and loses none of it.** The time in the system's usage and
that of the consumers that were not absorbed is the device's, or that of all consumers if they were
at work for longer, whichever consumers are listed. -/
theorem toNat_durations_summarize {s : Summary} {u : SystemUsage}
    (hsummary : (o.summarize component currents systemConsumers).value = some s)
    (husage : s.system? = some u)
    (hfits : (s.shares.values.map (·.share.duration.toNat)).sum < 2 ^ 64) :
    ∃ r, (o.outcome component currents {}).value = .report r ∧
      u.duration.toNat +
          ((s.shares.values.filter fun m => !m.absorbed).map (·.share.duration.toNat)).sum =
        max r.device.duration.toNat (s.shares.values.map (·.share.duration.toNat)).sum := by
  rcases o.value_summarize_cases component currents systemConsumers with
    ⟨-, hnone⟩ | ⟨-, r, hreport, hr, hsome⟩
  · rw [hnone] at hsummary
    cases hsummary
  · rw [hsome] at hsummary
    obtain rfl := Option.some.inj hsummary
    obtain ⟨rfl, -⟩ := (r.system?_summary_eq_some_iff systemConsumers).1 husage
    refine ⟨r, hreport, ?_⟩
    have hleft : r.systemDuration.toNat = r.device.duration.toNat -
        min (2 ^ 64 - 1) (r.shares.values.map (·.duration.toNat)).sum := by
      rw [hr]
      exact o.toNat_systemDuration_shareOut component currents {}
    have hdevice := r.device.duration.toNat_lt
    have hsum := r.sum_duration_marked systemConsumers
    show _ = max _ ((r.marked systemConsumers).values.map (·.share.duration.toNat)).sum
    change ((r.marked systemConsumers).values.map (·.share.duration.toNat)).sum < _ at hfits
    rw [hsum] at hfits ⊢
    refine (r.toNat_duration_systemUsage_add systemConsumers ?_).trans ?_
    · omega
    · omega

/-- A device at work for one second without measured energy, and a service that did six tenths of
it: absorbing the service moves its time, and the consumer beside it keeps its own. -/
theorem toNat_durations_summarize_service :
    let currents : Currents := ⟨.ofNat 1, .ofNat 50, .ofNat 100⟩
    let service : Sample := { counters := { idle := ⟨200⟩, tx := ⟨400⟩ } }
    let app : Sample := { counters := { rx := ⟨700⟩ } }
    let o : Observation :=
      { consumers := .ofList [(⟨1002⟩, service), (⟨10050⟩, app)]
        device := { counters := { idle := ⟨300⟩, tx := ⟨700⟩ } } }
    ∃ s u, (o.summarize .bluetooth currents [⟨1002⟩]).value = some s ∧ s.system? = some u ∧
      (s.shares.values.map (·.share.duration.toNat)).sum = 1300 ∧ u.duration.toNat = 600 ∧
      u.duration.toNat +
          ((s.shares.values.filter fun m => !m.absorbed).map (·.share.duration.toNat)).sum =
        1300 := by
  intro currents service app o
  let r := (o.shareOut .bluetooth currents {}).value
  have hsummary : (o.summarize .bluetooth currents [⟨1002⟩]).value = some (r.summary [⟨1002⟩]) := by
    rw [o.summarize_eq .bluetooth currents [⟨1002⟩] (by decide +kernel)]
  have husage : (r.summary [⟨1002⟩]).system? = some (r.systemUsage [⟨1002⟩]) :=
    (r.system?_summary_eq_some_iff _).2 ⟨rfl, by decide +kernel⟩
  have hsum : ((r.summary [⟨1002⟩]).shares.values.map (·.share.duration.toNat)).sum = 1300 := by
    decide +kernel
  obtain ⟨r', hreport, htime⟩ :=
    o.toNat_durations_summarize .bluetooth currents [⟨1002⟩] hsummary husage (by rw [hsum]; decide)
  obtain rfl : r = r' := Outcome.report.inj hreport
  have hdevice : r.device.duration.toNat = 1000 := by decide +kernel
  rw [hsum, hdevice] at htime
  exact ⟨_, _, hsummary, husage, hsum, by decide +kernel, htime⟩

/-! ## 5. The charge of a summary -/

/-- **A usage has absorbed just the marked consumers, and is kept if its charge is above zero.** The
charge is that left to the system with those of the marked consumers added to it. Where none of
these is below zero, it is above zero just where one of them is: no charge is left out. -/
theorem mem_absorbed_summarize (husable : currents.isUsable = true)
    (hsupported : o.supported = true) :
    ∃ s r, (o.summarize component currents systemConsumers).value = some s ∧
      (o.outcome component currents {}).value = .report r ∧
      let charges := (s.shares.values.filter (·.absorbed)).map (·.share.charge)
      let charge := charges.foldl (· + ·) r.systemCharge
      (Binary64.zero.less charge = true → ∃ u, s.system? = some u ∧ u.absorbed.Nodup ∧
        ∀ k, k ∈ u.absorbed ↔ ∃ m, s.shares.get? k = some m ∧ m.absorbed = true) ∧
      (Binary64.zero.less charge = false → s.system? = none) ∧
      ((∀ c ∈ r.systemCharge :: charges, c.isNaN = false ∧ c.less .zero = false) →
        (Binary64.zero.less charge = true ↔
          ∃ c ∈ r.systemCharge :: charges, Binary64.zero.less c = true)) := by
  rcases o.value_summarize_cases component currents systemConsumers with
    ⟨hearly, -⟩ | ⟨-, r, hreport, -, hsome⟩
  · rw [husable, hsupported] at hearly
    cases hearly
  · have hcharge : (((r.marked systemConsumers).values.filter (·.absorbed)).map
        (·.share.charge)).foldl (· + ·) r.systemCharge =
        (r.systemUsage systemConsumers).charge := by
      have hmap := congrArg (List.map (·.charge)) (r.map_share_filter_marked systemConsumers)
      rw [List.map_map, List.map_map] at hmap
      rw [Report.systemUsage_eq]
      exact congrArg (List.foldl (· + ·) r.systemCharge) hmap
    have hgathers := r.gathers_systemUsage systemConsumers
    refine ⟨_, r, hsome, hreport, fun hpos => ⟨_, ?_, hgathers.ascending.nodup, fun k => ?_⟩,
      fun hnone => ?_, fun h => ?_⟩
    · exact (r.system?_summary_eq_some_iff systemConsumers).2 ⟨rfl, hcharge ▸ hpos⟩
    · rw [hgathers.mem_absorbed_iff, SortedMap.mem_keys_iff]
      show _ ↔ ∃ m, (r.marked systemConsumers).get? k = some m ∧ m.absorbed = true
      rw [r.get?_marked]
      constructor
      · intro ⟨⟨share, hshare⟩, hlisted⟩
        exact ⟨_, by rw [hshare]; rfl, decide_eq_true hlisted⟩
      · intro ⟨m, hm, habsorbed⟩
        obtain ⟨share, hshare, rfl⟩ := Option.map_eq_some_iff.1 hm
        exact ⟨⟨share, hshare⟩, of_decide_eq_true habsorbed⟩
    · refine if_neg ?_
      rw [← hcharge]
      exact Bool.not_eq_true _ ▸ hnone
    · exact Binary64.AtLeastZero.zero_less_foldl_add_iff fun c hc =>
        Binary64.atLeastZero_iff.2 (h c hc)

/-- Two services of which one drew nothing, and what the device used beyond them. -/
theorem mem_absorbed_summarize_services :
    let currents : Currents := ⟨.ofNat 1, .ofNat 50, .ofNat 100⟩
    let idle : Sample := { energy? := some 0 }
    let busy : Sample := { charge? := some (.ofNat 3) }
    let o : Observation :=
      { consumers := .ofList [(⟨1002⟩, idle), (⟨1027⟩, busy), (⟨10050⟩, busy)]
        device := { charge? := some (.ofNat 8) } }
    currents.isUsable = true ∧ o.supported = true ∧
      ∃ s u, (o.summarize .bluetooth currents [⟨1027⟩, ⟨7⟩, ⟨1002⟩]).value = some s ∧
        s.system? = some u ∧ u.absorbed.Nodup ∧
        ∀ k, k ∈ u.absorbed ↔ ∃ m, s.shares.get? k = some m ∧ m.absorbed = true := by
  intro currents idle busy o
  have husable : currents.isUsable = true := by decide +kernel
  obtain ⟨s, r, hs, hr, husage, -, hcharges⟩ :=
    o.mem_absorbed_summarize .bluetooth currents [⟨1027⟩, ⟨7⟩, ⟨1002⟩] husable rfl
  obtain rfl : (o.shareOut .bluetooth currents {}).value = r := Outcome.report.inj hr
  rw [o.summarize_eq .bluetooth currents _ (by decide +kernel)] at hs
  obtain rfl := Option.some.inj hs
  have hpos := (hcharges (by decide +kernel)).2 (by decide +kernel)
  obtain ⟨u, hu, hnodup, hmem⟩ := husage hpos
  refine ⟨husable, rfl, _, u, ?_, hu, hnodup, hmem⟩
  rw [o.summarize_eq .bluetooth currents _ (by decide +kernel)]

/-- A service at work for six tenths of a second that drew nothing measurable: it is marked as
absorbed, and there is no usage that it was absorbed into. -/
theorem absorbed_without_usage :
    let currents : Currents := ⟨.ofNat 1, .ofNat 50, .ofNat 100⟩
    let service : Sample := { counters := { rx := ⟨600⟩ }, energy? := some 0 }
    let o : Observation :=
      { consumers := .ofList [(⟨1002⟩, service)]
        device := { counters := { idle := ⟨400⟩, rx := ⟨600⟩ }, energy? := some 0 } }
    currents.isUsable = true ∧ o.supported = true ∧
      ∃ s m, (o.summarize .bluetooth currents [⟨1002⟩]).value = some s ∧
        s.shares.get? ⟨1002⟩ = some m ∧ m.absorbed = true ∧ m.share.duration = ⟨600⟩ ∧
        s.system? = none := by
  intro currents service o
  have hlate : (currents.isUsable && o.supported) = true := by decide +kernel
  refine ⟨by decide +kernel, rfl,
    (o.shareOut .bluetooth currents {}).value.summary [⟨1002⟩],
    ⟨service.share ⟨1002⟩ currents {}, true⟩, ?_, ?_, rfl, ?_, ?_⟩
  · rw [o.summarize_eq .bluetooth currents [⟨1002⟩] hlate]
  · decide +kernel
  · decide +kernel
  · decide +kernel

end Observation

end PowerShare
