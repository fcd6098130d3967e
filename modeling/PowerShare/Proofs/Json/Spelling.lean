import PowerShare.Proofs.Json.Key
import PowerShare.Proofs.Json.ShortNumeral
import PowerShare.Proofs.SortedMap

/-!
# Spellings of values

* `Spelling` -- which trees spell which values, and what is made of a tree; the two agree, and of a
  tree in which some record has a field twice nothing is made;
* `Spelling.boolean`, `integer`, `binary64` and `optional` -- a number may have any digits and any
  power of ten that are read as it, and `null` stands for what is absent;
* `spells_binary64_of_isShort` -- a short number spells the binary number nearest to it;
* `Spelling.map` -- a map lists its entries in any order.
-/

namespace PowerShare.Json

/-- The spellings of the values of a type. -/
structure Spelling (α : Type) where
  /-- The tree spells the value. -/
  Spells : Tree → α → Prop
  /-- Some record inside the tree has a field given twice. -/
  Repeats : Tree → Prop
  /-- What is made of a tree. -/
  value? : Tree → Option α
  value?_of_spells : ∀ {t : Tree} {a : α}, Spells t a → value? t = some a
  value?_of_repeats : ∀ {t : Tree}, Repeats t → value? t = none

/-- The spellings of the keys of a map. -/
structure KeySpelling (κ : Type) where
  /-- The text between the quotes spells the key. -/
  Spells : List TextUnit → κ → Prop
  /-- What is made of a text. -/
  key? : List TextUnit → Option κ
  key?_of_spells : ∀ {units : List TextUnit} {k : κ}, Spells units k → key? units = some k

/-! ## 1. Scalars -/

theorem Numeral.number?_of_integer? {n : Numeral} {i : Int} (h : n.integer? = some i) :
    n.number? = some (.integer i) := by
  unfold number?
  rw [h]

theorem Numeral.integer?_of_number? {n : Numeral} {i : Int}
    (h : n.number? = some (.integer i)) : n.integer? = some i := by
  unfold number? at h
  split at h
  · rename_i hinteger
    cases h
    exact hinteger
  · split at h <;> cases h

namespace Spelling

/-- Either word. -/
def boolean : Spelling Bool where
  Spells t b := t = .boolean b
  Repeats _ := False
  value? := Tree.boolean?
  value?_of_spells := by
    rintro t b rfl
    rfl
  value?_of_repeats := nofun

/-- An integer of some type: digits alone, with a minus sign if it is below zero. -/
def integer (least greatest : Int) (toInt : α → Int) (ofInt : Int → α)
    (h : ∀ a, least ≤ toInt a ∧ toInt a ≤ greatest ∧ ofInt (toInt a) = a) : Spelling α where
  Spells t a := ∃ n, t = .number n ∧ n.integer? = some (toInt a)
  Repeats _ := False
  value? t := (t.number?.bind (Number.between? least greatest)).map ofInt
  value?_of_spells := by
    rintro t a ⟨n, rfl, hn⟩
    obtain ⟨hleast, hgreatest, ha⟩ := h a
    have hnumber : (Tree.number n).number? = some (.integer (toInt a)) :=
      Numeral.number?_of_integer? hn
    have hbounds : (decide (least ≤ toInt a) && decide (toInt a ≤ greatest)) = true := by
      simp [hleast, hgreatest]
    rw [hnumber, Option.bind_some]
    unfold Number.between?
    dsimp only
    rw [if_pos hbounds, Option.map_some, ha]
  value?_of_repeats := nofun

def uint64 : Spelling UInt64 :=
  integer 0 (2 ^ 64 - 1) (fun n => n.toNat) (fun i => .ofNat i.toNat) fun n => by
    have hlt := n.toNat_lt
    refine ⟨by omega, by omega, ?_⟩
    rw [Int.toNat_natCast, UInt64.ofNat_toNat]

def int64 : Spelling Int64 :=
  integer (-2 ^ 63) (2 ^ 63 - 1) Int64.toInt .ofInt fun n =>
    ⟨n.le_toInt, by have := n.toInt_lt; omega, Int64.ofInt_toInt n⟩

/-- A finite number: any digits and any power of ten that are read as it. -/
def binary64 : Spelling Binary64 where
  Spells t x := ∃ n, t = .number n ∧ n.read = x ∧ x.isFinite = true
  Repeats _ := False
  value? t := t.number?.map Number.toBinary64
  value?_of_spells := by
    rintro t x ⟨n, rfl, rfl, hfinite⟩
    unfold Tree.number? Numeral.number?
    dsimp only
    cases hn : n.integer? with
    | some i => exact congrArg some (Numeral.ofInt_of_integer? hn)
    | none =>
      dsimp only
      rw [if_pos hfinite]
      rfl
  value?_of_repeats := nofun

/-- A short number spells the binary number nearest to it. -/
theorem spells_binary64_of_isShort {n : Numeral} (h : n.IsShort) :
    binary64.Spells (.number n) n.toBinary64 := ⟨n, rfl, h.read_eq, h.isFinite_toBinary64⟩

/-- What is there, or `null`. -/
def optional (s : Spelling α) : Spelling (Option α) where
  Spells t a? := match a? with
    | some a => t ≠ .null ∧ s.Spells t a
    | none => t = .null
  Repeats t := t ≠ .null ∧ s.Repeats t
  value? := Tree.optional? s.value?
  value?_of_spells := by
    intro t a? h
    cases a? with
    | none =>
      subst h
      rfl
    | some a => rw [Tree.optional?_of_ne h.1, s.value?_of_spells h.2, Option.map_some]
  value?_of_repeats := by
    intro t h
    rw [Tree.optional?_of_ne h.1, s.value?_of_repeats h.2, Option.map_none]

theorem interprets_uint64 : Interprets Json.uint64 uint64.value? :=
  (interprets_integerBetween 0 (2 ^ 64 - 1) "u64").map fun _ => rfl

theorem interprets_int64 : Interprets Json.int64 int64.value? :=
  (interprets_integerBetween (-2 ^ 63) (2 ^ 63 - 1) "i64").map fun _ => rfl

end Spelling

/-! ## 2. Keys -/

namespace KeySpelling

/-- The name of a value, one of a few. -/
def names (name : α → String) (ofName? : String → Option α)
    (h : ∀ a, ofName? (name a) = some a) : KeySpelling α where
  Spells units a := textOf? units = some (name a)
  key? units := (textOf? units).bind ofName?
  key?_of_spells {units a} hname := by rw [hname, Option.bind_some, h]

/-- A number, without escapes. -/
def uint32 : KeySpelling UInt32 where
  Spells units k := ∃ n : Numeral, unitBytes units = n.bytes ∧ n.integer? = some (k.toNat : Int)
  key? := uint32Of?
  key?_of_spells := by
    rintro units k ⟨n, hbytes, hn⟩
    have hrun := n.run?_number Stops.nil
    rw [List.append_nil, Numeral.number?_of_integer? hn] at hrun
    have hlt := k.toNat_lt
    have hbounds :
        (decide ((0 : Int) ≤ k.toNat) && decide ((k.toNat : Int) ≤ 2 ^ 32 - 1)) = true := by
      simp
      omega
    unfold uint32Of? numberOf?
    rw [hbytes, hrun]
    show ((if decide ((0 : Int) ≤ k.toNat) && decide ((k.toNat : Int) ≤ 2 ^ 32 - 1)
      then some (k.toNat : Int) else none).map fun i => .ofNat i.toNat) = some k
    rw [if_pos hbounds, Option.map_some, Int.toNat_natCast, UInt32.ofNat_toNat]

end KeySpelling

/-! ## 3. Maps -/

section

variable [Ranked κ] (key : KeySpelling κ) (value : Spelling α)

/-- A member spells an entry. -/
def SpellsEntry (m : List TextUnit × Tree) (e : κ × α) : Prop :=
  key.Spells m.1 e.1 ∧ value.Spells m.2 e.2

variable {key value}

theorem foldlM_entryOf? {members : List (List TextUnit × Tree)} {entries : List (κ × α)}
    (h : List.Forall₂ (SpellsEntry key value) members entries) (m : SortedMap κ α) :
    members.foldlM (entryOf? key.key? value.value?) m =
      some (entries.foldl (fun m e => m.insert e.1 e.2) m) := by
  induction h generalizing m with
  | nil => rfl
  | @cons member e members entries hentry _ ih =>
    have hstep : entryOf? key.key? value.value? m member = some (m.insert e.1 e.2) := by
      unfold entryOf?
      rw [key.key?_of_spells hentry.1, value.value?_of_spells hentry.2]
      rfl
    rw [List.foldlM_cons, hstep]
    exact ih _

/-- Members that are read have values that are read. -/
theorem read_of_foldlM_entryOf? {members : List (List TextUnit × Tree)} {m last : SortedMap κ α}
    (h : members.foldlM (entryOf? key.key? value.value?) m = some last)
    {member : List TextUnit × Tree} (hm : member ∈ members) :
    (value.value? member.2).isSome = true := by
  induction members generalizing m with
  | nil => exact absurd hm List.not_mem_nil
  | cons first members ih =>
    rw [List.foldlM_cons] at h
    obtain ⟨next, hstep, hrest⟩ := Option.bind_eq_some_iff.1 h
    rcases List.mem_cons.1 hm with rfl | hm
    · obtain ⟨k, -, hvalue⟩ := Option.bind_eq_some_iff.1 hstep
      obtain ⟨v, hv, -⟩ := Option.map_eq_some_iff.1 hvalue
      rw [hv]
      rfl
    · exact ih hrest hm

variable (key value) in
/-- **The entries of a map, in any order.** -/
def Spelling.map : Spelling (SortedMap κ α) where
  Spells t m := ∃ members entries, t = .object members ∧ entries.Perm m.entries ∧
    List.Forall₂ (SpellsEntry key value) members entries
  Repeats t := ∃ members, t = .object members ∧ ∃ m ∈ members, value.Repeats m.2
  value? := Tree.map? key.key? value.value?
  value?_of_spells := by
    rintro t m ⟨members, entries, rfl, hperm, hentries⟩
    rw [← SortedMap.ofList_of_perm hperm]
    exact foldlM_entryOf? hentries {}
  value?_of_repeats := by
    rintro t ⟨members, rfl, m, hm, hrepeats⟩
    refine Option.eq_none_iff_forall_ne_some.2 fun last hlast => ?_
    have hread := read_of_foldlM_entryOf? hlast hm
    rw [value.value?_of_repeats hrepeats] at hread
    cases hread

end

end PowerShare.Json
