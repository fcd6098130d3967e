/-!
# Maps that list their entries in key order

Keys are ranked by natural numbers (`Ranked`), a map is the list of its entries in strictly
ascending rank (`SortedMap`), and so two maps with the same look-ups are the same map.

* `insert` puts an entry in its place and replaces the one with an equal key;
* `ofList` inserts from left to right, so that the last of several equal keys stays;
* `mapValues` keeps the keys, and with them the order.
-/

namespace PowerShare

/-- Keys that are told apart and ordered by a natural number. -/
class Ranked (κ : Type) where
  rank : κ → Nat
  rank_injective : ∀ {a b : κ}, rank a = rank b → a = b

open Ranked

/-- Entries whose keys ascend strictly. -/
structure SortedMap (κ : Type) (α : Type) [Ranked κ] where
  entries : List (κ × α)
  ascending : entries.Pairwise fun a b => rank a.1 < rank b.1

namespace SortedMap

variable {κ α β : Type} [Ranked κ]

theorem ext {m n : SortedMap κ α} (h : m.entries = n.entries) : m = n := by
  cases m; cases n; simp_all

instance [DecidableEq κ] [DecidableEq α] : DecidableEq (SortedMap κ α) := fun m n =>
  if h : m.entries = n.entries then isTrue (ext h) else isFalse fun e => h (e ▸ rfl)

def empty : SortedMap κ α := ⟨[], .nil⟩

instance : Inhabited (SortedMap κ α) := ⟨empty⟩
instance : EmptyCollection (SortedMap κ α) := ⟨empty⟩

def isEmpty (m : SortedMap κ α) : Bool := m.entries.isEmpty

def size (m : SortedMap κ α) : Nat := m.entries.length

def keys (m : SortedMap κ α) : List κ := m.entries.map (·.1)

def values (m : SortedMap κ α) : List α := m.entries.map (·.2)

/-- The value under a key. -/
def get? (m : SortedMap κ α) (k : κ) : Option α :=
  (m.entries.find? fun e => rank e.1 == rank k).map (·.2)

/-- An entry put in its place among ascending ones, instead of one with the same key. -/
def insertEntry (k : κ) (v : α) : List (κ × α) → List (κ × α)
  | [] => [(k, v)]
  | e :: rest =>
    if rank k < rank e.1 then (k, v) :: e :: rest
    else if rank k = rank e.1 then (k, v) :: rest
    else e :: insertEntry k v rest

theorem mem_insertEntry {k : κ} {v : α} {e : κ × α} : ∀ {es : List (κ × α)},
    e ∈ insertEntry k v es → e = (k, v) ∨ e ∈ es
  | [], h => by simp [insertEntry] at h; exact .inl h
  | f :: rest, h => by
      unfold insertEntry at h
      split at h
      · simp at h ⊢; exact h
      · split at h
        · simp at h ⊢
          exact h.imp_right .inr
        · rcases List.mem_cons.1 h with rfl | h
          · simp
          · exact (mem_insertEntry h).imp_right (List.mem_cons_of_mem _)

theorem ascending_insertEntry (k : κ) (v : α) : ∀ (es : List (κ × α)),
    (es.Pairwise fun a b => rank a.1 < rank b.1) →
      (insertEntry k v es).Pairwise fun a b => rank a.1 < rank b.1
  | [], _ => by simp [insertEntry]
  | e :: rest, h => by
      have hrest := List.pairwise_cons.1 h
      unfold insertEntry
      split
      · rename_i hlt
        refine List.pairwise_cons.2 ⟨fun f hf => ?_, h⟩
        rcases List.mem_cons.1 hf with rfl | hf
        · exact hlt
        · exact Nat.lt_trans hlt (hrest.1 f hf)
      · split
        · rename_i heq
          exact List.pairwise_cons.2 ⟨fun f hf => heq ▸ hrest.1 f hf, hrest.2⟩
        · rename_i hlt hne
          refine List.pairwise_cons.2 ⟨fun f hf => ?_, ascending_insertEntry k v rest hrest.2⟩
          rcases mem_insertEntry hf with rfl | hf
          · simp only; omega
          · exact hrest.1 f hf

/-- The map with the given value under the key, whatever was there before. -/
def insert (m : SortedMap κ α) (k : κ) (v : α) : SortedMap κ α :=
  ⟨insertEntry k v m.entries, ascending_insertEntry k v m.entries m.ascending⟩

/-- The entries inserted from left to right. -/
def ofList (es : List (κ × α)) : SortedMap κ α := es.foldl (fun m e => m.insert e.1 e.2) empty

/-- Every value replaced by a function of its key and itself. -/
def mapValues (f : κ → α → β) (m : SortedMap κ α) : SortedMap κ β :=
  ⟨m.entries.map fun e => (e.1, f e.1 e.2), List.pairwise_map.2 m.ascending⟩

/-! ## What the operations do to the entries -/

@[simp] theorem entries_empty : (empty : SortedMap κ α).entries = [] := rfl

@[simp] theorem entries_insert (m : SortedMap κ α) (k : κ) (v : α) :
    (m.insert k v).entries = insertEntry k v m.entries := rfl

@[simp] theorem entries_mapValues (f : κ → α → β) (m : SortedMap κ α) :
    (m.mapValues f).entries = m.entries.map fun e => (e.1, f e.1 e.2) := rfl

@[simp] theorem keys_mapValues (f : κ → α → β) (m : SortedMap κ α) :
    (m.mapValues f).keys = m.keys := by
  simp [keys]

end SortedMap

end PowerShare
