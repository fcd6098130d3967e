import Mathlib.Algebra.Ring.Nat
import Mathlib.Data.List.Induction
import Mathlib.Data.List.Nodup
import Mathlib.Data.List.Perm.Subperm
import Mathlib.Data.List.Range
import Mathlib.Logic.Equiv.Basic
import PowerShare.Order.SortedMap

/-!
# What a sorted map holds

A map is the list of its entries, and its look-ups say all there is to say about it:

* `get?_eq_some_iff` -- a look-up finds exactly the entries;
* `ext_get?` -- maps with the same look-ups are the same map;
* `HoldsLast` -- the map has, for each key of a list of entries, the last value given there, and
  nothing else. `ofList` makes the only such map (`ofList_eq_iff`), and for entries that already
  ascend it keeps the list as it is (`entries_eq_iff_holdsLast`);
* `length_le_of_rank_lt` -- a map has no more entries than there are ranks;
* `get?_mapValues` and `get?_rename_eq_some_iff` -- what stands where in a map whose values are
  replaced, or whose keys get other names;
* `perm_values_rename` and `exists_values_rename` -- other names put the values in another order,
  and any order is that of some names.
-/

namespace PowerShare

open Ranked

namespace SortedMap

variable {κ α : Type} [Ranked κ]

/-! ## 1. Look-ups -/

/-- Entries in the order that a map keeps them in. -/
def Ascending (keys : List κ) : Prop := keys.Pairwise fun a b => rank a < rank b

theorem ascending_keys (m : SortedMap κ α) : Ascending m.keys :=
  List.pairwise_map.2 m.ascending

theorem Ascending.nodup {keys : List κ} (h : Ascending keys) : keys.Nodup := by
  refine List.Pairwise.imp (fun hlt => ?_) h
  intro heq
  subst heq
  exact Nat.lt_irrefl _ hlt

/-- Ascending keys are told by which there are. -/
theorem Ascending.eq_of_mem_iff {keys keys' : List κ} (h : Ascending keys) (h' : Ascending keys')
    (hmem : ∀ k, k ∈ keys ↔ k ∈ keys') : keys = keys' := by
  have hperm : keys.Perm keys' := (List.perm_ext_iff_of_nodup h.nodup h'.nodup).2 hmem
  refine hperm.eq_of_pairwise ?_ h h'
  intro a b _ _ hab hba
  omega

/-- **A look-up finds exactly the entries of the map.** -/
theorem get?_eq_some_iff {m : SortedMap κ α} {k : κ} {v : α} :
    m.get? k = some v ↔ (k, v) ∈ m.entries := by
  obtain ⟨entries, ascending⟩ := m
  simp only [get?, Option.map_eq_some_iff]
  induction entries with
  | nil => simp
  | cons e rest ih =>
    obtain ⟨hfirst, hrest⟩ := List.pairwise_cons.1 ascending
    by_cases h : rank e.1 = rank k
    · have hk : e.1 = k := rank_injective h
      have hnot : (k, v) ∉ rest := fun hmem => by
        have := hfirst _ hmem
        simp only at this
        omega
      simp only [List.find?_cons, h, BEq.rfl, Option.some.injEq, List.mem_cons, hnot, or_false]
      constructor
      · intro hfound
        obtain ⟨_, rfl, rfl⟩ := hfound
        rw [← hk]
      · intro heq
        subst heq
        exact ⟨_, rfl, rfl⟩
    · have hne : e ≠ (k, v) := fun he => h (by rw [he])
      simp only [List.find?_cons, beq_eq_false_iff_ne.2 h, List.mem_cons, hne.symm, false_or]
      exact ih hrest

theorem mem_keys_iff {m : SortedMap κ α} {k : κ} : k ∈ m.keys ↔ ∃ v, m.get? k = some v := by
  simp only [keys, List.mem_map, get?_eq_some_iff]
  constructor
  · intro hmem
    obtain ⟨⟨k, v⟩, hv, rfl⟩ := hmem
    exact ⟨v, hv⟩
  · intro hmem
    obtain ⟨v, hv⟩ := hmem
    exact ⟨(k, v), hv, rfl⟩

/-- Looking up the keys of some entries finds their values. -/
theorem filterMap_get?_of_subset {m : SortedMap κ α} {entries : List (κ × α)}
    (h : ∀ e ∈ entries, e ∈ m.entries) :
    (entries.map (·.1)).filterMap m.get? = entries.map (·.2) := by
  induction entries with
  | nil => rfl
  | cons e rest ih =>
    have hfirst : m.get? e.1 = some e.2 := get?_eq_some_iff.2 (h e List.mem_cons_self)
    rw [List.map_cons, List.filterMap_cons_some hfirst, List.map_cons,
      ih fun f hf => h f (List.mem_cons_of_mem e hf)]

/-- **Maps with the same look-ups are the same map.** -/
theorem ext_get? {m n : SortedMap κ α} (h : ∀ k, m.get? k = n.get? k) : m = n := by
  have hmem : ∀ e, e ∈ m.entries ↔ e ∈ n.entries := fun ⟨k, v⟩ => by
    rw [← get?_eq_some_iff, ← get?_eq_some_iff, h k]
  have hperm : m.entries.Perm n.entries :=
    (List.perm_ext_iff_of_nodup (List.Nodup.of_map _ m.ascending_keys.nodup)
      (List.Nodup.of_map _ n.ascending_keys.nodup)).2 hmem
  refine ext (hperm.eq_of_pairwise ?_ m.ascending n.ascending)
  intro a b _ _ hab hba
  omega

/-- Putting a value under a key changes the look-up of that key alone. -/
theorem get?_insert_eq_some_iff {m : SortedMap κ α} {k j : κ} {v w : α} :
    (m.insert k v).get? j = some w ↔ (j = k ∧ w = v) ∨ (j ≠ k ∧ m.get? j = some w) := by
  rw [get?_eq_some_iff, get?_eq_some_iff, entries_insert]
  have hasc := m.ascending
  generalize m.entries = entries at hasc
  induction entries with
  | nil => simp [insertEntry]
  | cons e rest ih =>
    obtain ⟨hfirst, hrest⟩ := List.pairwise_cons.1 hasc
    unfold insertEntry
    split
    · rename_i hlt
      have hnot : ∀ x ∈ e :: rest, x.1 ≠ k := by
        intro x hx heq
        subst heq
        rcases List.mem_cons.1 hx with rfl | hx
        · omega
        · have := hfirst x hx
          omega
      rw [List.mem_cons, Prod.mk.injEq]
      refine or_congr_right ⟨fun hm => ⟨hnot _ hm, hm⟩, fun hm => hm.2⟩
    · split
      · rename_i heq
        have hk : k = e.1 := rank_injective heq
        have hnot : ∀ x ∈ rest, x.1 ≠ k := by
          intro x hx heq
          subst heq
          have := hfirst x hx
          omega
        rw [List.mem_cons, Prod.mk.injEq]
        refine or_congr_right ⟨fun hm => ⟨hnot _ hm, List.mem_cons_of_mem _ hm⟩, ?_⟩
        intro hj
        obtain ⟨hne, hm⟩ := hj
        rcases List.mem_cons.1 hm with rfl | hm
        · exact absurd hk.symm hne
        · exact hm
      · rename_i hne
        have hk : e.1 ≠ k := fun h => hne (h ▸ rfl)
        simp only [List.mem_cons, ih hrest]
        constructor
        · intro hin
          rcases hin with rfl | ⟨hj, hw⟩ | ⟨hj, hm⟩
          · exact .inr ⟨hk, .inl rfl⟩
          · exact .inl ⟨hj, hw⟩
          · exact .inr ⟨hj, .inr hm⟩
        · intro hin
          rcases hin with ⟨hj, hw⟩ | ⟨hj, rfl | hm⟩
          · exact .inr (.inl ⟨hj, hw⟩)
          · exact .inl rfl
          · exact .inr (.inr ⟨hj, hm⟩)

/-- A key behind all others gets the last place. -/
theorem insertEntry_of_forall_lt {k : κ} {v : α} {entries : List (κ × α)}
    (h : ∀ e ∈ entries, rank e.1 < rank k) :
    insertEntry k v entries = entries ++ [(k, v)] := by
  induction entries with
  | nil => rfl
  | cons e rest ih =>
    have hfirst : rank e.1 < rank k := h e List.mem_cons_self
    unfold insertEntry
    rw [if_neg (Nat.not_lt_of_lt hfirst), if_neg (Nat.ne_of_gt hfirst),
      ih fun f hf => h f (List.mem_cons_of_mem e hf)]
    rfl

/-! ## 2. The last value for each key -/

/-- In the list, the key has this value, and none behind it. -/
def LastValue (entries : List (κ × α)) (k : κ) (v : α) : Prop :=
  ∃ before after, entries = before ++ (k, v) :: after ∧ k ∉ after.map (·.1)

/-- The map has the last value that the list gives for each key, and nothing else. -/
def HoldsLast (m : SortedMap κ α) (entries : List (κ × α)) : Prop :=
  ∀ k v, m.get? k = some v ↔ LastValue entries k v

omit [Ranked κ] in
theorem lastValue_concat {entries : List (κ × α)} {e : κ × α} {k : κ} {v : α} :
    LastValue (entries ++ [e]) k v ↔ (k = e.1 ∧ v = e.2) ∨ (k ≠ e.1 ∧ LastValue entries k v) := by
  constructor
  · intro hlast
    obtain ⟨before, after, h, hnot⟩ := hlast
    induction after using List.reverseRecOn with
    | nil =>
      obtain ⟨-, rfl⟩ := List.append_inj' h rfl |>.imp_right (List.cons.inj · |>.1)
      exact .inl ⟨rfl, rfl⟩
    | append_singleton after f _ =>
      rw [← List.cons_append, ← List.append_assoc] at h
      obtain ⟨rfl, hf⟩ := List.append_inj' h rfl
      obtain rfl := (List.cons.inj hf).1
      rw [List.map_append, List.mem_append, not_or] at hnot
      exact .inr ⟨fun hk => hnot.2 (by simp [hk]), before, after, rfl, hnot.1⟩
  · intro hcase
    rcases hcase with ⟨rfl, rfl⟩ | ⟨hk, before, after, rfl, hnot⟩
    · exact ⟨entries, [], rfl, List.not_mem_nil⟩
    · refine ⟨before, after ++ [e], by simp, ?_⟩
      simpa [hk] using hnot

omit [Ranked κ] in
/-- Keys that are told apart under other names have the same last values. -/
theorem lastValue_map_iff {name : κ → η} (hname : Function.Injective name)
    {entries : List (κ × α)} {k : κ} {v : α} :
    LastValue (entries.map fun e => (name e.1, e.2)) (name k) v ↔ LastValue entries k v := by
  induction entries using List.reverseRecOn with
  | nil => simp [LastValue]
  | append_singleton entries e ih =>
    rw [List.map_append, List.map_singleton, lastValue_concat, lastValue_concat, ih, hname.eq_iff,
      ne_eq, hname.eq_iff]

theorem ofList_concat (entries : List (κ × α)) (e : κ × α) :
    ofList (entries ++ [e]) = (ofList entries).insert e.1 e.2 := by
  simp [ofList]

/-- **Inserting from left to right keeps the last value of each key.** -/
theorem holdsLast_ofList (entries : List (κ × α)) : HoldsLast (ofList entries) entries := by
  induction entries using List.reverseRecOn with
  | nil =>
    intro k v
    simp [ofList, LastValue, get?]
  | append_singleton entries e ih =>
    intro k v
    rw [ofList_concat, get?_insert_eq_some_iff, lastValue_concat, ih k v]

theorem mem_values_ofList {entries : List (κ × α)} {v : α}
    (h : v ∈ (ofList entries).values) : v ∈ entries.map (·.2) := by
  obtain ⟨⟨k, v⟩, hmem, rfl⟩ := List.mem_map.1 h
  obtain ⟨before, after, rfl, -⟩ := (holdsLast_ofList entries k v).1 (get?_eq_some_iff.2 hmem)
  exact List.mem_map.2 ⟨(k, v), List.mem_append_right _ List.mem_cons_self, rfl⟩

theorem HoldsLast.unique {m n : SortedMap κ α} {entries : List (κ × α)} (hm : HoldsLast m entries)
    (hn : HoldsLast n entries) : m = n :=
  ext_get? fun k => Option.ext fun v => (hm k v).trans (hn k v).symm

theorem ofList_eq_iff {entries : List (κ × α)} {m : SortedMap κ α} :
    ofList entries = m ↔ HoldsLast m entries :=
  ⟨fun h => h ▸ holdsLast_ofList entries, (holdsLast_ofList entries).unique⟩

omit [Ranked κ] in
/-- Where no key is repeated, every value is the last one of its key. -/
theorem lastValue_iff_mem {entries : List (κ × α)} (h : (entries.map (·.1)).Nodup) {k : κ} {v : α} :
    LastValue entries k v ↔ (k, v) ∈ entries := by
  constructor
  · intro hlast
    obtain ⟨before, after, rfl, -⟩ := hlast
    simp
  · intro hm
    obtain ⟨before, after, rfl⟩ := List.append_of_mem hm
    refine ⟨before, after, rfl, ?_⟩
    rw [List.map_append, List.map_cons] at h
    exact (List.nodup_cons.1 (List.nodup_append.1 h).2.1).1

theorem holdsLast_entries (m : SortedMap κ α) : HoldsLast m m.entries := fun _ _ =>
  get?_eq_some_iff.trans (lastValue_iff_mem m.ascending_keys.nodup).symm

/-- The entries of a map make the map in whichever order they are inserted. -/
theorem ofList_of_perm {entries : List (κ × α)} {m : SortedMap κ α} (h : entries.Perm m.entries) :
    ofList entries = m := by
  refine ofList_eq_iff.2 fun k v => get?_eq_some_iff.trans ?_
  have hnodup : (entries.map (·.1)).Nodup := ((h.map _).nodup_iff).2 m.ascending_keys.nodup
  exact h.mem_iff.symm.trans (lastValue_iff_mem hnodup).symm

/-- **Of ascending entries, a map that holds the last values has exactly these entries.** -/
theorem entries_eq_iff_holdsLast {entries : List (κ × α)} (h : Ascending (entries.map (·.1)))
    {m : SortedMap κ α} : m.entries = entries ↔ HoldsLast m entries := by
  constructor
  · intro hentries
    subst hentries
    exact m.holdsLast_entries
  · intro hm
    have hasc : entries.Pairwise fun a b => rank a.1 < rank b.1 := by
      simpa only [Ascending, List.pairwise_map] using h
    rw [hm.unique (holdsLast_entries ⟨entries, hasc⟩)]

/-- Entries that ascend keep their places when a map is made of them. -/
theorem entries_ofList {entries : List (κ × α)} (h : Ascending (entries.map (·.1))) :
    (ofList entries).entries = entries :=
  (entries_eq_iff_holdsLast h).2 (holdsLast_ofList entries)

/-! ## 3. Sizes -/

/-- A map has no more entries than there are ranks. -/
theorem length_le_of_rank_lt {bound : Nat} (h : ∀ k : κ, rank k < bound) (m : SortedMap κ α) :
    m.entries.length ≤ bound := by
  have hnodup : (m.entries.map fun e => rank e.1).Nodup := by
    refine List.Pairwise.imp (fun hlt => Nat.ne_of_lt hlt) ?_
    exact List.pairwise_map.2 m.ascending
  have hsub : (m.entries.map fun e => rank e.1) ⊆ List.range bound := by
    intro r hr
    obtain ⟨e, -, rfl⟩ := List.mem_map.1 hr
    exact List.mem_range.2 (h e.1)
  simpa using (hnodup.subperm hsub).length_le

/-- Inserting an entry adds no more than its own weight, however entries are weighed. -/
theorem sum_insertEntry_le (weight : κ × α → Nat) (k : κ) (v : α) (entries : List (κ × α)) :
    ((insertEntry k v entries).map weight).sum ≤ (entries.map weight).sum + weight (k, v) := by
  induction entries with
  | nil => simp [insertEntry]
  | cons e rest ih =>
    unfold insertEntry
    split
    · simp only [List.map_cons, List.sum_cons]
      omega
    · split
      · simp only [List.map_cons, List.sum_cons]
        omega
      · simp only [List.map_cons, List.sum_cons]
        omega

/-- The entries that stay weigh no more than those that were given. -/
theorem sum_ofList_le (weight : κ × α → Nat) (entries : List (κ × α)) :
    ((ofList entries).entries.map weight).sum ≤ (entries.map weight).sum := by
  induction entries using List.reverseRecOn with
  | nil => simp [ofList]
  | append_singleton entries e ih =>
    rw [ofList_concat, entries_insert, List.map_append, List.sum_append]
    calc ((insertEntry e.1 e.2 (ofList entries).entries).map weight).sum
        ≤ ((ofList entries).entries.map weight).sum + weight e := sum_insertEntry_le weight ..
      _ ≤ (entries.map weight).sum + weight e := Nat.add_le_add_right ih _
      _ = (entries.map weight).sum + ([e].map weight).sum := by simp

/-! ## 4. Other values and other names -/

variable {ι : Type} [Ranked ι] {β : Type}

theorem get?_mapValues (f : κ → α → β) (m : SortedMap κ α) (k : κ) :
    (m.mapValues f).get? k = (m.get? k).map (f k) := by
  refine Option.ext fun w => ?_
  simp only [get?_eq_some_iff, Option.map_eq_some_iff, entries_mapValues, List.mem_map,
    Prod.mk.injEq]
  constructor
  · intro hmem
    obtain ⟨⟨j, v⟩, hv, rfl, rfl⟩ := hmem
    exact ⟨v, hv, rfl⟩
  · intro hmem
    obtain ⟨v, hv, rfl⟩ := hmem
    exact ⟨(k, v), hv, rfl, rfl⟩

theorem mapValues_congr {f g : κ → α → β} {m : SortedMap κ α}
    (h : ∀ e ∈ m.entries, f e.1 e.2 = g e.1 e.2) : m.mapValues f = m.mapValues g := by
  refine ext (List.map_congr_left fun e he => ?_)
  rw [h e he]

theorem mapValues_mapValues {γ : Type} (f : κ → α → β) (g : κ → β → γ) (m : SortedMap κ α) :
    (m.mapValues f).mapValues g = m.mapValues fun k v => g k (f k v) := by
  refine ext ?_
  simp only [entries_mapValues, List.map_map]
  rfl

/-- The map with other names for its keys. Of two keys that get one name, the later one stays. -/
def rename (f : κ → ι) (m : SortedMap κ α) : SortedMap ι α :=
  ofList (m.entries.map fun e => (f e.1, e.2))

omit [Ranked ι] in
theorem nodup_names {f : κ → ι} (hf : Function.Injective f) (m : SortedMap κ α) :
    ((m.entries.map fun e => (f e.1, e.2)).map (·.1)).Nodup := by
  have hnames : (m.entries.map fun e => (f e.1, e.2)).map (·.1) = m.keys.map f := by
    simp [keys]
  rw [hnames]
  exact m.ascending_keys.nodup.map hf

/-- **Where no two keys get one name, each value stands under the new name of its key.** -/
theorem get?_rename_eq_some_iff {f : κ → ι} (hf : Function.Injective f) {m : SortedMap κ α} {j : ι}
    {v : α} : (m.rename f).get? j = some v ↔ ∃ k, f k = j ∧ m.get? k = some v := by
  rw [rename, holdsLast_ofList, lastValue_iff_mem (m.nodup_names hf), List.mem_map]
  simp only [get?_eq_some_iff, Prod.mk.injEq]
  constructor
  · intro hmem
    obtain ⟨⟨k, w⟩, hw, rfl, rfl⟩ := hmem
    exact ⟨k, rfl, hw⟩
  · intro hmem
    obtain ⟨k, rfl, hv⟩ := hmem
    exact ⟨(k, v), hv, rfl, rfl⟩

/-- Two renamings one after another are one. -/
theorem rename_rename {κ' : Type} [Ranked κ'] {f : κ → ι} {g : ι → κ'} (hf : Function.Injective f)
    (hg : Function.Injective g) (m : SortedMap κ α) :
    (m.rename f).rename g = m.rename fun k => g (f k) := by
  have hboth : Function.Injective fun k => g (f k) := hg.comp hf
  refine ext_get? fun j => Option.ext fun v => ?_
  rw [get?_rename_eq_some_iff hg, get?_rename_eq_some_iff hboth]
  constructor
  · intro hmem
    obtain ⟨i, rfl, hi⟩ := hmem
    obtain ⟨k, rfl, hk⟩ := (get?_rename_eq_some_iff hf).1 hi
    exact ⟨k, rfl, hk⟩
  · intro hmem
    obtain ⟨k, rfl, hk⟩ := hmem
    exact ⟨f k, rfl, (get?_rename_eq_some_iff hf).2 ⟨k, rfl, hk⟩⟩

theorem rename_mapValues {f : κ → ι}
    (hf : Function.Injective f) {g : κ → α → β} {g' : ι → α → β} (hg : ∀ k a, g' (f k) a = g k a)
    (m : SortedMap κ α) : (m.rename f).mapValues g' = (m.mapValues g).rename f := by
  refine ext_get? fun j => Option.ext fun b => ?_
  rw [get?_mapValues, Option.map_eq_some_iff, get?_rename_eq_some_iff hf]
  constructor
  · intro hmem
    obtain ⟨a, ha, rfl⟩ := hmem
    obtain ⟨k, rfl, hk⟩ := (get?_rename_eq_some_iff hf).1 ha
    refine ⟨k, rfl, ?_⟩
    rw [get?_mapValues, hk, hg]
    rfl
  · intro hmem
    obtain ⟨k, rfl, hk⟩ := hmem
    rw [get?_mapValues] at hk
    obtain ⟨a, ha, rfl⟩ := Option.map_eq_some_iff.1 hk
    exact ⟨a, (get?_rename_eq_some_iff hf).2 ⟨k, rfl, ha⟩, hg k a⟩

/-! ## 5. Values in another order -/

/-- Entries without a repeated key are the entries of their map, in another order. -/
theorem perm_entries_ofList {entries : List (κ × α)} (h : (entries.map (·.1)).Nodup) :
    (ofList entries).entries.Perm entries := by
  refine (List.perm_ext_iff_of_nodup (ofList entries).ascending_keys.nodup.of_map h.of_map).2 ?_
  intro e
  rw [← lastValue_iff_mem h, ← holdsLast_ofList, get?_eq_some_iff]

/-- **Other names for the keys put the values in another order,** and do nothing else to them. -/
theorem perm_values_rename {f : κ → ι} (hf : Function.Injective f) (m : SortedMap κ α) :
    (m.rename f).values.Perm m.values := by
  have hvalues := (perm_entries_ofList (m.nodup_names hf)).map (·.2)
  rw [List.map_map] at hvalues
  exact hvalues

omit [Ranked κ] in
/-- Keys of which no two are the same can have each other's names in any order, and no other key
gets a new name. -/
theorem exists_injective_map_eq [DecidableEq κ] {names keys : List κ} (h : names.Perm keys)
    (hnodup : keys.Nodup) :
    ∃ f : κ → κ, Function.Injective f ∧ (∀ k, k ∉ keys → f k = k) ∧ names.map f = keys := by
  induction h with
  | nil => exact ⟨id, Function.injective_id, fun _ _ => rfl, rfl⟩
  | cons k _ ih =>
    obtain ⟨hk, hrest⟩ := List.nodup_cons.1 hnodup
    obtain ⟨f, hf, hother, hmap⟩ := ih hrest
    refine ⟨f, hf, fun j hj => hother j fun h => hj (List.mem_cons_of_mem k h), ?_⟩
    rw [List.map_cons, hother k hk, hmap]
  | swap k j rest =>
    obtain ⟨hk, hrest⟩ := List.nodup_cons.1 hnodup
    obtain ⟨hj, -⟩ := List.nodup_cons.1 hrest
    have hother (i : κ) (hi : i ∉ k :: j :: rest) : Equiv.swap k j i = i := by
      simp only [List.mem_cons, not_or] at hi
      exact Equiv.swap_apply_of_ne_of_ne hi.1 hi.2.1
    have hbehind : ∀ i ∈ rest, Equiv.swap k j i = i := fun i hi =>
      Equiv.swap_apply_of_ne_of_ne (fun h => hk (List.mem_cons_of_mem j (h ▸ hi)))
        fun h => hj (h ▸ hi)
    refine ⟨Equiv.swap k j, Equiv.injective _, hother, ?_⟩
    rw [List.map_cons, List.map_cons, Equiv.swap_apply_left, Equiv.swap_apply_right,
      List.map_congr_left hbehind, List.map_id']
  | trans _ hsecond ih ih' =>
    obtain ⟨f, hf, hother, hmap⟩ := ih (hsecond.nodup_iff.2 hnodup)
    obtain ⟨g, hg, hother', hmap'⟩ := ih' hnodup
    refine ⟨g ∘ f, hg.comp hf, fun k hk => ?_, ?_⟩
    · have hbefore : f k = k := hother k fun h => hk (hsecond.mem_iff.1 h)
      rw [Function.comp_apply, hbefore, hother' k hk]
    · rw [← List.map_map, hmap, hmap']

omit [Ranked κ] in
/-- Results in another order are those of the same inputs in another order. -/
theorem exists_perm_map_eq {f : α → β} {inputs : List α} {results : List β}
    (h : results.Perm (inputs.map f)) :
    ∃ reordered : List α, reordered.Perm inputs ∧ reordered.map f = results := by
  have hresults : List.Forall₂ (fun b a => f a = b) (inputs.map f) inputs :=
    List.forall₂_map_left_iff.2 (List.forall₂_same.2 fun _ _ => rfl)
  obtain ⟨reordered, hreordered, hperm⟩ := List.perm_comp_forall₂ h hresults
  refine ⟨reordered, hperm, ?_⟩
  clear h hperm
  induction hreordered with
  | nil => rfl
  | cons hfirst _ ih => rw [List.map_cons, hfirst, ih]

/-- **Any order of the values is that of the same keys with each other's names.** -/
theorem exists_values_rename [DecidableEq κ] {m : SortedMap κ α} {values : List α}
    (h : values.Perm m.values) :
    ∃ f : κ → κ, Function.Injective f ∧ (m.rename f).values = values := by
  obtain ⟨entries, hentries, rfl⟩ := exists_perm_map_eq h
  have hnames : (entries.map (·.1)).Perm m.keys := hentries.map _
  obtain ⟨f, hf, -, hkeys⟩ := exists_injective_map_eq hnames m.ascending_keys.nodup
  refine ⟨f, hf, ?_⟩
  have hnamed : (entries.map fun e => (f e.1, e.2)).map (·.1) = m.keys := by
    rw [← hkeys, List.map_map, List.map_map]
    rfl
  have hascending : Ascending ((entries.map fun e => (f e.1, e.2)).map (·.1)) :=
    hnamed ▸ m.ascending_keys
  have hrename : m.rename f = ofList (entries.map fun e => (f e.1, e.2)) := by
    refine ofList_of_perm ?_
    rw [entries_ofList hascending]
    exact (hentries.map _).symm
  unfold values
  rw [hrename, entries_ofList hascending, List.map_map]
  rfl

end SortedMap

end PowerShare
