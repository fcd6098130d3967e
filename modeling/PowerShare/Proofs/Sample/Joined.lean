import PowerShare.Proofs.Json.Joined
import PowerShare.Sample.Reading

/-!
# Observations put together from texts

* `Sample.local_fields`, `Observation.local_fields` -- the records of an observation file are read
  in front of more as they are read alone;
* `readsKey_nameKey` -- a name whose bytes stand for themselves is read as a key;
* `Observations.parse_object` -- an object put together from texts of observations is read as the
  map of what they are read as.
-/

namespace PowerShare

open Json Reader

/-! ## 1. Records -/

theorem local_counterFields {change : σ → (Counters → Counters) → σ} {rest : List (RecordField σ)}
    (hrest : ∀ f ∈ rest, ∀ s, Local (f.read s)) :
    ∀ f ∈ counterFields change ++ rest, ∀ s, Local (f.read s) := by
  unfold counterFields
  simp only [List.cons_append, List.nil_append, List.forall_mem_cons]
  exact ⟨fun _ => local_uint64.bind fun _ => local_pure _,
    fun _ => local_uint64.bind fun _ => local_pure _,
    fun _ => local_uint64.bind fun _ => local_pure _, hrest⟩

theorem Slice.local_fields : ∀ f ∈ record.fields, ∀ s, Local (f.read s) := by
  refine local_counterFields ?_
  simp only [List.forall_mem_cons]
  exact ⟨fun _ => (local_int64.optional rfl).bind fun _ => local_pure _, fun _ h => nomatch h⟩

theorem Sample.local_fields : ∀ f ∈ record.fields, ∀ s, Local (f.read s) := by
  refine local_counterFields ?_
  simp only [List.forall_mem_cons]
  refine ⟨fun _ => (local_int64.optional rfl).bind fun _ => local_pure _,
    fun _ => (local_binary64.optional rfl).bind fun _ => local_pure _, fun _ => ?_,
    fun _ => (local_uint64.optional rfl).bind fun _ => local_pure _,
    fun _ => (local_uint64.optional rfl).bind fun _ => local_pure _, fun _ h => nomatch h⟩
  exact (local_mapOf (local_nameKey _ _) (Record.local_read Slice.local_fields {})).bind fun _ =>
    local_pure _

theorem local_consumerKey : Local consumerKey := local_uint32Key.bind fun _ => local_pure _

theorem Observation.local_fields : ∀ f ∈ record.fields, ∀ s, Local (f.read s) := by
  unfold record
  simp only [List.forall_mem_cons]
  refine ⟨fun _ => local_boolean.bind fun _ => local_pure _, fun _ => ?_,
    fun _ => (Record.local_read Sample.local_fields {}).bind fun _ => local_pure _,
    fun _ h => nomatch h⟩
  exact (local_mapOf local_consumerKey (Record.local_read Sample.local_fields {})).bind fun _ =>
    local_pure _

/-! ## 2. Keys -/

/-- A name whose bytes stand for themselves is read as what it names. -/
theorem readsKey_nameKey {names : List String} {ofName? : String → Option α} {text : String}
    {a : α} (hplain : ∀ b ∈ utf8 text.toList, PlainByte b) (hname : ofName? text = some a) :
    ReadsKey (nameKey names ofName?) (utf8 text.toList) (some a) := by
  intro rest _
  unfold nameKey textAfterQuote
  rw [textBytes_eq]
  simp only [run?_bind, run?_textFrom_plain hplain, run?_textFrom_quote, Option.bind_some,
    List.append_nil, List.reverse_reverse, fromUTF8?_utf8, run?_pure, String.ofList_toList, hname,
    Option.map_some]

theorem Component.readsKey_name (c : Component) :
    ReadsKey (nameKey (all.map name) ofName?) (utf8 c.name.toList) (some c) :=
  readsKey_nameKey (by cases c <;> decide +kernel) (ofName?_name c)

/-! ## 3. Files -/

/-- **An object put together from texts of observations** is read as the map that has for each
component what its last text is read as. -/
theorem Observations.parse_object {entries : List (Component × List UInt8)} {text : List UInt8}
    (hentries : ∀ e ∈ entries, ∃ o, Observation.parse e.2 = .ok o)
    (htext : IsObject (entries.map fun e => (utf8 e.1.name.toList, e.2)) text) :
    ∃ os, parse text = .ok os ∧ ∀ c o, os.get? c = some o ↔
      ∃ t, SortedMap.LastValue entries c t ∧ Observation.parse t = .ok o := by
  let name (c : Component) : List UInt8 := utf8 c.name.toList
  have hinjective : Function.Injective name := by
    intro c c' h
    cases c <;> cases c' <;> first | rfl | exact absurd h (by decide)
  let members : List RawMember := entries.map fun e => (name e.1, e.2)
  have hmembers : ∀ m ∈ members, (∃ c, m.1 = name c) ∧
      ∃ o, readAll (Observation.record.read {}) m.2 = .ok o := by
    intro m hm
    obtain ⟨e, he, rfl⟩ := List.mem_map.1 hm
    exact ⟨⟨e.1, rfl⟩, hentries e he⟩
  obtain ⟨os, hsteps, hlast⟩ := exists_steps_entries Component.readsKey_name
    (Record.local_read Observation.local_fields {}) hmembers
  refine ⟨os, eq_ok_of_toOption (reads_mapOf htext hsteps).toOption_readAll, fun c o => ?_⟩
  rw [hlast]
  exact exists_congr fun t => and_congr_left' (SortedMap.lastValue_map_iff hinjective)

end PowerShare
