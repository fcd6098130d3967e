import PowerShare.Proofs.Json.Tokens
import PowerShare.Proofs.Number.TotalOrder
import PowerShare.Proofs.SortedMap
import PowerShare.Report.Document

/-!
# How a report is listed

A report is listed with its greatest charges first, in two places: where its shares are flattened
into a document, and where the first few consumers are picked to be printed. Each sorts rows of its
own kind.

* `pairwise_mergeSort_key` -- sorting by a key keeps rows with equal keys in the order they had, and
  `map_mergeSort_key`: rows may be sorted before or after they are changed;
* `FlatReport` -- a report with its maps flattened into lists, and `Report.document_flat`: it says
  what the document of the report says;
* `FlatReport.document_injective` and `Report.report_flat` -- nothing gets lost on the way;
* `FlatShare.Outranks` -- which of two shares is listed first, and `Report.eq_shares_flat`: this
  leaves one list only;
* `Report.listing` -- so each share is listed once and in this order, the first few consumers are
  the first of the list, and no two reports have the same document.
-/

namespace PowerShare

open Json

/-! ## 1. Sorting by a key -/

section Sorting

variable {α β : Type} (key : α → Int)

theorem sortsBefore_trans (a b c : α) (hab : decide (key b ≤ key a) = true)
    (hbc : decide (key c ≤ key b) = true) : decide (key c ≤ key a) = true := by
  simp only [decide_eq_true_eq] at hab hbc ⊢
  omega

theorem sortsBefore_total (a b : α) :
    (decide (key b ≤ key a) || decide (key a ≤ key b)) = true := by
  simp only [Bool.or_eq_true, decide_eq_true_eq]
  omega

theorem pairwise_mergeSort_le (rows : List α) :
    (rows.mergeSort fun a b => decide (key b ≤ key a)).Pairwise fun a b => key b ≤ key a :=
  (List.pairwise_mergeSort (sortsBefore_trans key) (sortsBefore_total key) rows).imp
    of_decide_eq_true

/-- Among rows with one key, sorting keeps the order. -/
theorem filter_mergeSort_key (rows : List α) (k : Int) :
    (rows.mergeSort fun a b => decide (key b ≤ key a)).filter (key · = k) =
      rows.filter (key · = k) := by
  have hequal : (rows.filter (key · = k)).Pairwise fun a b => decide (key b ≤ key a) = true := by
    refine List.pairwise_of_forall_mem_list fun a ha b hb => ?_
    have hka : key a = k := of_decide_eq_true (List.mem_filter.1 ha).2
    have hkb : key b = k := of_decide_eq_true (List.mem_filter.1 hb).2
    exact decide_eq_true (by omega)
  have hkept : (rows.filter (key · = k)).Sublist
      (rows.mergeSort fun a b => decide (key b ≤ key a)) :=
    List.sublist_mergeSort (sortsBefore_trans key) (sortsBefore_total key) hequal
      List.filter_sublist
  -- They stand in the sorted list in their order, and there are no more of them than before.
  have hsub := hkept.filter (key · = k)
  rw [List.filter_filter] at hsub
  simp only [Bool.and_self] at hsub
  exact (hsub.eq_of_length ((List.mergeSort_perm _ _).filter _).length_eq.symm).symm

/-- **Sorting by a key keeps rows with equal keys in the order they had.** -/
theorem pairwise_mergeSort_key {rows : List α} {before : α → α → Prop}
    (h : rows.Pairwise before) :
    (rows.mergeSort fun a b => decide (key b ≤ key a)).Pairwise fun a b =>
      key b < key a ∨ (key a = key b ∧ before a b) := by
  refine List.pairwise_iff_forall_sublist.2 fun {a b} hsub => ?_
  have hle : key b ≤ key a :=
    List.pairwise_iff_forall_sublist.1 (pairwise_mergeSort_le key rows) hsub
  rcases Int.lt_or_eq_of_le hle with hlt | heq
  · exact .inl hlt
  · refine .inr ⟨heq.symm, List.pairwise_iff_forall_sublist.1 h ?_⟩
    have hpair := hsub.filter (key · = key a)
    rw [filter_mergeSort_key] at hpair
    simp only [List.filter_cons, heq, decide_true, if_true, List.filter_nil] at hpair
    exact hpair.trans List.filter_sublist

/-- Rows may be sorted before or after they are changed, as long as they keep their keys. -/
theorem map_mergeSort_key (key' : β → Int) (f : α → β) (h : ∀ a, key' (f a) = key a)
    (rows : List α) :
    (rows.mergeSort fun a b => decide (key b ≤ key a)).map f =
      (rows.map f).mergeSort fun a b => decide (key' b ≤ key' a) := by
  refine List.map_mergeSort fun a _ b _ => ?_
  rw [h, h]

end Sorting

/-! ## 2. Flat reports -/

/-- A share with its consumer, the breakdown as a list. -/
structure FlatShare where
  consumer : Consumer
  duration : Duration
  charge : Charge
  basis : Basis
  byState? : Option (List (StateKey × Charge))
  rxBytes? : Option UInt64
  txBytes? : Option UInt64
  deriving DecidableEq

/-- A report with its shares as a list. -/
structure FlatReport where
  component : Component
  device : Scope
  tracked : Scope
  systemDuration : Duration
  systemCharge : Charge
  shares : List FlatShare
  deriving DecidableEq

def Share.flat (s : Share) (consumer : Consumer) : FlatShare :=
  { consumer := consumer
    duration := s.duration
    charge := s.charge
    basis := s.basis
    byState? := s.byState?.map (·.entries)
    rxBytes? := s.rxBytes?
    txBytes? := s.txBytes? }

/-- The report with its shares flattened, in consumer order, and then sorted by charge. -/
def Report.flat (r : Report) : FlatReport :=
  { component := r.component
    device := r.device
    tracked := r.tracked
    systemDuration := r.systemDuration
    systemCharge := r.systemCharge
    shares :=
      (r.shares.entries.map fun e => e.2.flat e.1).mergeSort
        fun a b => decide (b.charge.totalPlace ≤ a.charge.totalPlace) }

def FlatShare.document (s : FlatShare) : Document :=
  .object <|
    [("consumer", .integer s.consumer.id.toNat), ("duration_ms", .integer s.duration.toNat),
      ("power_mah", .number s.charge), ("model", .text s.basis.name)] ++
    Document.optional "per_key" (fun keys => .list (keys.map fun e => e.1.document e.2))
      s.byState? ++
    Document.optional "rx_bytes" byteCountDocument s.rxBytes? ++
    Document.optional "tx_bytes" byteCountDocument s.txBytes?

def FlatReport.document (r : FlatReport) : Document :=
  .object
    [("component", .text r.component.name),
      ("aggregate", .object
        [("device", r.device.document), ("all_consumers", r.tracked.document),
          ("system_only_duration_ms", .integer r.systemDuration.toNat),
          ("system_only_power_mah", .number r.systemCharge)]),
      ("consumers", .list (r.shares.map FlatShare.document))]

theorem Share.document_flat (s : Share) (consumer : Consumer) :
    (s.flat consumer).document = s.document consumer := by
  unfold FlatShare.document Share.document flat
  cases s.byState? <;> rfl

namespace Report

variable (r : Report)

/-- The shares of a flat report are the ranked ones. -/
theorem shares_flat : r.flat.shares = r.ranked.map fun e => e.2.flat e.1 :=
  (map_mergeSort_key (fun e : Consumer × Share => e.2.charge.totalPlace)
    (fun s : FlatShare => s.charge.totalPlace) (fun e => e.2.flat e.1) (fun _ => rfl) _).symm

/-- **A flat report says what the document of the report says.** -/
theorem document_flat : r.flat.document = r.document := by
  unfold FlatReport.document
  rw [shares_flat, List.map_map]
  have hshares : (r.ranked.map fun e => (e.2.flat e.1).document) =
      r.ranked.map fun e => e.2.document e.1 :=
    List.map_congr_left fun e _ => e.2.document_flat e.1
  exact congrArg (fun items => Document.object
    [_, _, ("consumers", .list items)]) hshares

/-- The first few consumers are the first of the ranked ones. -/
theorem top_eq (limit : Nat) :
    r.top limit = (r.ranked.take limit).map fun e => (e.1, e.2.charge) := by
  rw [List.map_take]
  exact congrArg (List.take limit)
    (map_mergeSort_key (fun e : Consumer × Share => e.2.charge.totalPlace)
      (fun p : Consumer × Charge => p.2.totalPlace) (fun e => (e.1, e.2.charge))
      (fun _ => rfl) _).symm

end Report

/-! ## 3. Nothing gets lost -/

theorem Component.name_injective : Function.Injective Component.name := by
  intro a b h
  cases a <;> cases b <;> first | rfl | exact absurd h (by decide)

theorem Basis.name_injective : Function.Injective Basis.name := by
  intro a b h
  cases a <;> cases b <;> first | rfl | exact absurd h (by decide)

theorem RunState.name_injective : Function.Injective RunState.name := by
  intro a b h
  cases a <;> cases b <;> first | rfl | exact absurd h (by decide)

theorem byteCountDocument_injective : Function.Injective byteCountDocument := by
  intro a b h
  exact UInt64.toNat_inj.1 (Int.ofNat.inj (Document.integer.inj h))

theorem Scope.document_injective : Function.Injective Scope.document := by
  intro ⟨duration, charge, basis⟩ ⟨duration', charge', basis'⟩ h
  have hmembers := Document.object.inj h
  simp only [List.cons.injEq, Prod.mk.injEq, true_and, and_true, Document.integer.injEq,
    Document.number.injEq, Document.text.injEq, Int.natCast_inj] at hmembers
  obtain ⟨hduration, rfl, hbasis⟩ := hmembers
  rw [Duration.ext hduration, Basis.name_injective hbasis]

/-- The document of an entry of a breakdown tells the entry. -/
theorem StateKey.document_injective :
    Function.Injective fun e : StateKey × Charge => e.1.document e.2 := by
  intro ⟨⟨⟨id⟩, state⟩, charge⟩ ⟨⟨⟨id'⟩, state'⟩, charge'⟩ h
  have hmembers := Document.object.inj h
  simp only [List.cons.injEq, Prod.mk.injEq, true_and, and_true, Document.integer.injEq,
    Document.number.injEq, Document.text.injEq, Int.natCast_inj] at hmembers
  obtain ⟨hid, hstate, rfl⟩ := hmembers
  rw [UInt32.toNat_inj.1 hid, RunState.name_injective hstate]

theorem FlatShare.document_injective : Function.Injective FlatShare.document := by
  intro ⟨⟨id⟩, duration, charge, basis, byState?, rxBytes?, txBytes?⟩
    ⟨⟨id'⟩, duration', charge', basis', byState?', rxBytes?', txBytes?'⟩ h
  have hmembers := Document.object.inj h
  simp only [List.cons_append, List.nil_append, List.append_assoc, List.cons.injEq, Prod.mk.injEq,
    true_and, Document.integer.injEq, Document.number.injEq, Document.text.injEq,
    Int.natCast_inj] at hmembers
  obtain ⟨hid, hduration, rfl, hbasis, hoptional⟩ := hmembers
  -- The members that may be left out are told by their names.
  have hkeys : Function.Injective fun keys : List (StateKey × Charge) =>
      Document.list (keys.map fun e => e.1.document e.2) := fun _ _ h =>
    List.map_injective_iff.2 StateKey.document_injective (Document.list.inj h)
  have hbytes (rx? tx? : Option UInt64) :
      ∀ m ∈ Document.optional "rx_bytes" byteCountDocument rx? ++
        Document.optional "tx_bytes" byteCountDocument tx?, m.1 ≠ "per_key" := by
    intro m hm
    rcases List.mem_append.1 hm with hm | hm
    · rw [Document.fst_of_mem_optional hm]
      decide
    · rw [Document.fst_of_mem_optional hm]
      decide
  have hsent (tx? : Option UInt64) : ∀ m ∈ Document.optional "tx_bytes" byteCountDocument tx?,
      m.1 ≠ "rx_bytes" := by
    intro m hm
    rw [Document.fst_of_mem_optional hm]
    decide
  obtain ⟨rfl, hcounts⟩ := Document.optional_append_inj hkeys (hbytes _ _) (hbytes _ _) hoptional
  obtain ⟨rfl, htx⟩ :=
    Document.optional_append_inj byteCountDocument_injective (hsent _) (hsent _) hcounts
  obtain rfl := Document.optional_injective byteCountDocument_injective htx
  rw [UInt32.toNat_inj.1 hid, Duration.ext hduration, Basis.name_injective hbasis]

/-- **Different flat reports have different documents.** -/
theorem FlatReport.document_injective : Function.Injective FlatReport.document := by
  intro ⟨component, device, tracked, systemDuration, systemCharge, shares⟩
    ⟨component', device', tracked', systemDuration', systemCharge', shares'⟩ h
  have hmembers := Document.object.inj h
  simp only [List.cons.injEq, Prod.mk.injEq, true_and, and_true, Document.object.injEq,
    Document.list.injEq, Document.integer.injEq, Document.number.injEq, Document.text.injEq,
    Int.natCast_inj] at hmembers
  obtain ⟨hcomponent, ⟨hdevice, htracked, hduration, rfl⟩, hshares⟩ := hmembers
  rw [Component.name_injective hcomponent, Scope.document_injective hdevice,
    Scope.document_injective htracked, Duration.ext hduration,
    List.map_injective_iff.2 FlatShare.document_injective hshares]

/-- The share that was flattened. -/
def FlatShare.share (f : FlatShare) : Share :=
  { duration := f.duration
    charge := f.charge
    byState? := f.byState?.map SortedMap.ofList
    basis := f.basis
    rxBytes? := f.rxBytes?
    txBytes? := f.txBytes? }

/-- The report that was flattened. -/
def FlatReport.report (f : FlatReport) : Report :=
  { component := f.component
    device := f.device
    tracked := f.tracked
    systemDuration := f.systemDuration
    systemCharge := f.systemCharge
    shares := SortedMap.ofList (f.shares.map fun s => (s.consumer, s.share)) }

theorem Share.share_flat (s : Share) (consumer : Consumer) : (s.flat consumer).share = s := by
  have hkeys : (s.byState?.map (·.entries)).map SortedMap.ofList = s.byState? := by
    cases s.byState? with
    | none => rfl
    | some m => exact congrArg some (SortedMap.ofList_of_perm (.refl m.entries))
  unfold flat FlatShare.share
  rw [hkeys]

/-- **A flat report still says what the report said**, in whichever order the shares come. -/
theorem Report.report_flat (r : Report) : r.flat.report = r := by
  have hrows : (r.flat.shares.map fun s => (s.consumer, s.share)).Perm r.shares.entries := by
    have hrow : ((fun s : FlatShare => (s.consumer, s.share)) ∘
        fun e : Consumer × Share => e.2.flat e.1) = id :=
      funext fun e => Prod.ext rfl (e.2.share_flat e.1)
    refine ((List.mergeSort_perm _ _).map _).trans (.of_eq ?_)
    rw [List.map_map, hrow, List.map_id]
  unfold FlatReport.report
  rw [SortedMap.ofList_of_perm hrows]
  rfl

theorem Report.flat_injective : Function.Injective Report.flat := fun r r' h => by
  calc r = r.flat.report := r.report_flat.symm
    _ = r'.flat.report := congrArg _ h
    _ = r' := r'.report_flat

/-! ## 4. The order of the shares -/

/-- **Which of two shares is listed first.** Its charge is the greater word in the total order; or
both charges are the same word, and its consumer is the smaller one. -/
def FlatShare.Outranks (a b : FlatShare) : Prop :=
  b.charge.Precedes a.charge ∨ (a.charge = b.charge ∧ a.consumer.id < b.consumer.id)

theorem FlatShare.outranks_iff {a b : FlatShare} : a.Outranks b ↔
    b.charge.totalPlace < a.charge.totalPlace ∨
      (a.charge.totalPlace = b.charge.totalPlace ∧ a.consumer.id.toNat < b.consumer.id.toNat) := by
  unfold Outranks
  rw [Binary64.precedes_iff, UInt32.lt_iff_toNat_lt]
  exact or_congr_right (and_congr_left' ⟨congrArg _, Binary64.totalPlace_injective⟩)

instance : DecidableRel FlatShare.Outranks := fun _ _ =>
  decidable_of_iff _ FlatShare.outranks_iff.symm

theorem FlatShare.Outranks.asymm {a b : FlatShare} (h : a.Outranks b) : ¬ b.Outranks a := by
  rw [outranks_iff] at h ⊢
  omega

/-- The list has just the entries of the breakdown, by consumer and then by run state. -/
structure ListsStates (keys : List (StateKey × Charge)) (m : SortedMap StateKey Charge) : Prop where
  mem_iff : ∀ k charge, (k, charge) ∈ keys ↔ m.get? k = some charge
  ascending : keys.Pairwise fun a b => a.1.consumer.id < b.1.consumer.id ∨
    (a.1.consumer = b.1.consumer ∧ a.1.state.number < b.1.state.number)

/-- A flat share says what a share says. A missing breakdown is not an empty one. -/
structure FlatShare.Tells (f : FlatShare) (s : Share) : Prop where
  duration : f.duration = s.duration
  charge : f.charge = s.charge
  basis : f.basis = s.basis
  rxBytes : f.rxBytes? = s.rxBytes?
  txBytes : f.txBytes? = s.txBytes?
  missing : f.byState? = none ↔ s.byState? = none
  empty : f.byState? = some [] ↔ s.byState? = some .empty
  states : ∀ keys m, f.byState? = some keys → s.byState? = some m → ListsStates keys m

theorem listsStates_entries (m : SortedMap StateKey Charge) : ListsStates m.entries m where
  mem_iff _ _ := SortedMap.get?_eq_some_iff.symm
  ascending := by
    refine m.ascending.imp fun {a b} h => ?_
    refine (rank_stateKey_lt_iff.1 h).imp UInt32.lt_iff_toNat_lt.2 fun hsame => ⟨?_, hsame.2⟩
    obtain ⟨⟨⟨i⟩, s⟩, c⟩ := a
    exact congrArg Consumer.mk (UInt32.toNat_inj.1 hsame.1)

theorem Share.tells_flat (s : Share) (consumer : Consumer) : (s.flat consumer).Tells s where
  duration := rfl
  charge := rfl
  basis := rfl
  rxBytes := rfl
  txBytes := rfl
  missing := Option.map_eq_none_iff
  empty := by
    show s.byState?.map (·.entries) = some [] ↔ _
    cases s.byState? with
    | none => simp
    | some m =>
      rw [Option.map_some, Option.some.injEq, Option.some.injEq]
      exact ⟨fun h => SortedMap.ext h, fun h => h ▸ rfl⟩
  states keys m hkeys hm := by
    have hentries : s.byState?.map (·.entries) = some keys := hkeys
    rw [hm, Option.map_some, Option.some.injEq] at hentries
    exact hentries ▸ listsStates_entries m

namespace Report

variable (r : Report)

theorem mem_shares_flat {f : FlatShare} :
    f ∈ r.flat.shares ↔ ∃ s, r.shares.get? f.consumer = some s ∧ s.flat f.consumer = f := by
  show f ∈ List.mergeSort _ _ ↔ _
  simp only [List.mem_mergeSort, List.mem_map, SortedMap.get?_eq_some_iff]
  constructor
  · intro hmem
    obtain ⟨⟨k, s⟩, hs, rfl⟩ := hmem
    exact ⟨s, hs, rfl⟩
  · intro hmem
    obtain ⟨s, hs, hf⟩ := hmem
    exact ⟨(f.consumer, s), hs, hf⟩

/-- Each consumer of the report has one flat share. -/
theorem consumers_flat : (r.flat.shares.map (·.consumer)).Perm r.shares.keys := by
  refine ((List.mergeSort_perm _ _).map _).trans (.of_eq ?_)
  rw [List.map_map]
  rfl

/-- **The flat shares stand in one strict order.** -/
theorem pairwise_shares_flat : r.flat.shares.Pairwise FlatShare.Outranks := by
  have hconsumers : (r.shares.entries.map fun e => e.2.flat e.1).Pairwise fun a b =>
      a.consumer.id.toNat < b.consumer.id.toNat := List.pairwise_map.2 r.shares.ascending
  exact (pairwise_mergeSort_key _ hconsumers).imp FlatShare.outranks_iff.2

/-- **No other list of the shares has this order.** -/
theorem eq_shares_flat {rows : List FlatShare}
    (hrows : rows.Perm (r.shares.entries.map fun e => e.2.flat e.1))
    (horder : rows.Pairwise FlatShare.Outranks) : rows = r.flat.shares := by
  have hperm : rows.Perm r.flat.shares := hrows.trans (List.mergeSort_perm _ _).symm
  exact hperm.eq_of_pairwise (fun _ _ _ _ h h' => absurd h' h.asymm) horder r.pairwise_shares_flat

/-- **A report is listed without loss and in one strict order.** Every consumer has its share in the
list once, and unchanged. A share with the greater word for a charge stands first, and of two with
the same word that of the smaller consumer; the first few consumers are the first of this list. The
document says what the list says, and tells the report from all others. -/
theorem listing :
    (∀ k s, r.shares.get? k = some s → ∃ f ∈ r.flat.shares, f.consumer = k ∧ f.Tells s) ∧
    (∀ f ∈ r.flat.shares, ∃ s, r.shares.get? f.consumer = some s ∧ f.Tells s) ∧
    (r.flat.shares.map (·.consumer)).Nodup ∧
    r.flat.shares.Pairwise FlatShare.Outranks ∧
    (∀ limit, r.top limit = (r.flat.shares.take limit).map fun f => (f.consumer, f.charge)) ∧
    r.flat.document = r.document ∧
    (∀ r' : Report, r'.flat = r.flat → r' = r) ∧
    (∀ r' : Report, r'.document = r.document → r' = r) := by
  refine ⟨fun k s hs => ⟨s.flat k, r.mem_shares_flat.2 ⟨s, hs, rfl⟩, rfl, s.tells_flat k⟩,
    fun f hf => ?_, (r.consumers_flat.nodup_iff).2 r.shares.ascending_keys.nodup,
    r.pairwise_shares_flat, fun limit => ?_, r.document_flat, fun r' h => flat_injective h,
    fun r' h => ?_⟩
  · obtain ⟨s, hs, hflat⟩ := r.mem_shares_flat.1 hf
    exact ⟨s, hs, hflat ▸ s.tells_flat f.consumer⟩
  · rw [r.top_eq, r.shares_flat, ← List.map_take, List.map_map]
    rfl
  · rw [← r'.document_flat, ← r.document_flat] at h
    exact flat_injective (FlatReport.document_injective h)

/-- Charges of every kind: both zeros, both infinities, NaNs with either sign bit and two ones, of
which the second has an empty breakdown. -/
theorem listing_words :
    let share (charge : Charge) : Share := ⟨⟨100⟩, charge, none, .estimated, none, none⟩
    let r : Report :=
      { component := .bluetooth
        device := ⟨⟨0⟩, .zero, .estimated⟩
        tracked := ⟨⟨0⟩, .zero, .estimated⟩
        systemDuration := ⟨0⟩
        systemCharge := .zero
        shares := .ofList [(⟨1⟩, share (-.zero)), (⟨2⟩, share .zero), (⟨3⟩, share (.infinity true)),
          (⟨4⟩, share (.infinity false)), (⟨5⟩, share .invalid), (⟨6⟩, share .nan),
          (⟨7⟩, share (.ofNat 1)), (⟨8⟩, { share (.ofNat 1) with byState? := some .empty })] }
    r.flat.shares.map (·.consumer) = [⟨6⟩, ⟨4⟩, ⟨7⟩, ⟨8⟩, ⟨2⟩, ⟨1⟩, ⟨3⟩, ⟨5⟩] ∧
      r.top 2 = [(⟨6⟩, .nan), (⟨4⟩, .infinity false)] ∧
      ∃ f ∈ r.flat.shares, f.consumer = ⟨8⟩ ∧ f.byState? = some [] := by
  intro share r
  have hshares : [(share .nan).flat ⟨6⟩, (share (.infinity false)).flat ⟨4⟩,
      (share (.ofNat 1)).flat ⟨7⟩, { (share (.ofNat 1)).flat ⟨8⟩ with byState? := some [] },
      (share .zero).flat ⟨2⟩, (share (-.zero)).flat ⟨1⟩, (share (.infinity true)).flat ⟨3⟩,
      (share .invalid).flat ⟨5⟩] = r.flat.shares :=
    r.eq_shares_flat (by decide +kernel) (by decide +kernel)
  have hget : r.shares.get? ⟨8⟩ = some { share (.ofNat 1) with byState? := some .empty } := by
    decide +kernel
  obtain ⟨heach, -, -, -, htop, -⟩ := r.listing
  obtain ⟨f, hf, hconsumer, htells⟩ := heach ⟨8⟩ _ hget
  refine ⟨by rw [← hshares]; rfl, by rw [htop, ← hshares]; rfl, f, hf, hconsumer, ?_⟩
  exact htells.empty.2 rfl

end Report

end PowerShare
