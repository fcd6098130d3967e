import PowerShare.Proofs.Json.RecordSpelling
import PowerShare.Proofs.Json.Writing

/-!
# What is written spells what it was written for

A tree that says a document spells the value that the document was made from:

* `ReadsBack` -- a number whose text is read as the number. Those with short texts do
  (`readsBack_of_isShort`), but a text of many digits may be rounded more than once and miss it;
* scalars and keys, where an integer has 64 bits and a number is finite and reads back;
* `Spelling.spells_map` -- maps, entry by entry;
* `SaysFields` -- members that say the fields of a record one after the other, but for some that
  have the values of missing ones; `RecordShape.spells_of_says` -- **such members spell the
  record.**
-/

namespace PowerShare.Json

variable {t : Tree}

/-! ## 1. Scalars -/

/-- The text of the number is read as the number. -/
def ReadsBack (x : Binary64) : Prop :=
  (readAll binary64 (utf8 (numberText x))).toOption = some x

instance : DecidablePred ReadsBack := fun _ => inferInstanceAs (Decidable (_ = _))

/-- A numeral alone is a whole text. -/
theorem isText_number (n : Numeral) : IsText (.number n) n.bytes :=
  ⟨[], n.bytes, [], .nil, .number n, .nil, (List.append_nil _).symm⟩

theorem ReadsBack.read_eq {x : Binary64} (h : ReadsBack x) {n : Numeral}
    (hbytes : n.bytes = utf8 (numberText x)) : n.read = x := by
  have hread := toOption_readAll interprets_binary64 (isText_number n)
  rw [hbytes] at hread
  exact Numeral.read_of_number? (hread.symm.trans h)

/-- **A number with a short text is read back,** if the number is the one nearest to that text. -/
theorem readsBack_of_isShort {x : Binary64} {n : Numeral} (h : n.IsShort)
    (hbytes : n.bytes = utf8 (numberText x)) (hnearest : n.toBinary64 = x) : ReadsBack x := by
  have hvalue : (Tree.number n).number?.map Number.toBinary64 = some n.toBinary64 :=
    Spelling.binary64.value?_of_spells (Spelling.spells_binary64_of_isShort h)
  have hread := toOption_readAll interprets_binary64 (isText_number n)
  rw [hvalue, hbytes, hnearest] at hread
  exact hread

namespace Spelling

theorem spells_boolean {b : Bool} (h : Says t (.boolean b)) : boolean.Spells t b := by
  cases h
  rfl

theorem spells_uint64 {n : UInt64} (h : Says t (.integer n.toNat)) : uint64.Spells t n := by
  have hlt := n.toNat_lt
  cases h with
  | integer hn => exact ⟨_, rfl, hn.integer?_eq (by omega) (by omega)⟩

theorem spells_int64 {n : Int64} (h : Says t (.integer n.toInt)) : int64.Spells t n := by
  have hle := n.le_toInt
  have hlt := n.toInt_lt
  cases h with
  | integer hn => exact ⟨_, rfl, hn.integer?_eq (by omega) (by omega)⟩

/-- An integer is not `null`. -/
theorem spells_optional_integer {s : Spelling α} {a : α} {i : Int} (h : Says t (.integer i))
    (ha : s.Spells t a) : s.optional.Spells t (some a) := by
  cases h
  exact ⟨nofun, ha⟩

/-- A number that is not finite is written as if it were absent. -/
theorem spells_optional_number {x : Binary64} (hback : x.isFinite = true → ReadsBack x)
    (h : Says t (.number x)) : binary64.optional.Spells t (some x |>.filter Binary64.isFinite) := by
  cases h with
  | number hfinite hbytes _ =>
    rw [Option.filter_some_pos hfinite]
    exact ⟨nofun, _, rfl, (hback hfinite).read_eq hbytes, hfinite⟩
  | notFinite hx =>
    rw [Option.filter_some_neg hx]
    rfl

end Spelling

/-! ## 2. Keys -/

/-- A digit is written as itself. -/
theorem quotedChar_of_isDigit {c : Char} (h : c.isDigit = true) : quotedChar c = [c] := by
  have hc := toNat_of_isDigit h
  have hother : ∀ e ∈ lettered, e.2 ≠ c := by
    intro e he heq
    have hout : ∀ e ∈ lettered, e.2.toNat < 48 ∨ 57 < e.2.toNat := by decide
    have := hout e he
    rw [heq] at this
    omega
  rw [quotedChar_of_forall_ne hother, if_neg (by omega)]

namespace KeySpelling

theorem spells_names {name : α → String} {ofName? : String → Option α}
    {h : ∀ a, ofName? (name a) = some a} {units : List TextUnit} {a : α}
    (hunits : Quotes units (name a)) : (names name ofName? h).Spells units a := hunits.2

theorem spells_uint32 {k : UInt32} {units : List TextUnit}
    (h : Quotes units (toString k.toNat)) : uint32.Spells units k := by
  have hlt := k.toNat_lt
  have hdigits : (toString k.toNat).toList = digitsOf k.toNat := Nat.toList_repr
  have hplain : (digitsOf k.toNat).flatMap quotedChar = (digitsOf k.toNat).flatMap ([·]) :=
    List.flatMap_congr fun _ hc => quotedChar_of_isDigit (isDigit_of_mem_digitsOf hc)
  have htext : integerText k.toNat = digitsOf k.toNat := if_neg (by omega)
  obtain ⟨n, hbytes, hn⟩ := exists_numeral_integer k.toNat
  refine ⟨n, ?_, hn.integer?_eq (by omega) (by omega)⟩
  rw [h.1, hdigits, hplain, List.flatMap_singleton', hbytes, htext]

end KeySpelling

/-! ## 3. Maps -/

theorem Spelling.spells_map [Ranked κ] {key : KeySpelling κ} {value : Spelling β}
    {name : κ → String} {document : α → Document} {f : α → β}
    (hkey : ∀ {units k}, Quotes units (name k) → key.Spells units k)
    {m : SortedMap κ α}
    (hvalue : ∀ e ∈ m.entries, ∀ {t}, Says t (document e.2) → value.Spells t (f e.2))
    (h : Says t (.object (m.entries.map fun e => (name e.1, document e.2)))) :
    (map key value).Spells t (m.mapValues fun _ => f) := by
  cases h with
  | @object ms _ hmembers =>
    refine ⟨ms, _, rfl, .refl _, ?_⟩
    rw [SortedMap.entries_mapValues]
    generalize m.entries = entries at hvalue hmembers
    induction entries generalizing ms with
    | nil =>
      cases hmembers
      exact .nil
    | cons e entries ih =>
      cases hmembers with
      | cons hname ht hrest =>
        exact .cons ⟨hkey hname, hvalue e List.mem_cons_self ht⟩
          (ih (fun e he => hvalue e (List.mem_cons_of_mem _ he)) hrest)

/-! ## 4. Records -/

section

variable {σ : Type}

/-- The members say the fields of the record one after the other; a field may be left out where the
record has the value that a missing one has. -/
inductive SaysFields (start s : σ) : List (Field σ) → List (String × Document) → Prop where
  | nil : SaysFields start s [] []
  | given {f : Field σ} {value : Document} {fs : List (Field σ)}
      {members : List (String × Document)} :
      (∀ {t}, Says t value → f.spelling.Spells t (f.get s)) → SaysFields start s fs members →
        SaysFields start s (f :: fs) ((f.name, value) :: members)
  | missing {f : Field σ} {fs : List (Field σ)} {members : List (String × Document)} :
      f.get s = f.get start → SaysFields start s fs members →
        SaysFields start s (f :: fs) members

variable {start s : σ} {fs : List (Field σ)} {members : List (String × Document)}
  {ms : List (List TextUnit × Tree)}

/-- A field that is written only if it has a value. -/
theorem SaysFields.optional {f : Field σ} {document : α → Document} {a? : Option α}
    (hgiven : ∀ {a}, a? = some a → ∀ {t}, Says t (document a) → f.spelling.Spells t (f.get s))
    (hmissing : a? = none → f.get s = f.get start) (h : SaysFields start s fs members) :
    SaysFields start s (f :: fs) (Document.optional f.name document a? ++ members) := by
  cases a? with
  | none => exact .missing (hmissing rfl) h
  | some a => exact .given (hgiven rfl) h

/-- An optional field, which a missing one does not have. -/
theorem SaysFields.optionalField {name : String} {get : σ → Option α} {set : σ → Option α → σ}
    {value : Spelling α} {document : α → Document}
    (hvalue : ∀ {a t}, Says t (document a) → value.optional.Spells t (some a))
    (hstart : get start = none) (h : SaysFields start s fs members) :
    SaysFields start s (⟨name, Option α, get, set, value.optional⟩ :: fs)
      (Document.optional name document (get s) ++ members) := by
  refine .optional (fun {a} ha {t} ht => ?_) (fun hnone => hnone.trans hstart.symm) h
  show value.optional.Spells t (get s)
  rw [ha]
  exact hvalue ht

theorem SaysFields.sublist_names (h : SaysFields start s fs members) :
    (members.map (·.1)).Sublist (fs.map (·.name)) := by
  induction h with
  | nil => exact .slnil
  | given _ _ ih => exact ih.cons_cons _
  | missing _ _ ih => exact ih.cons _

/-- Every member says a field. -/
theorem SaysFields.exists_field (h : SaysFields start s fs members) {e : String × Document}
    (he : e ∈ members) :
    ∃ f ∈ fs, f.name = e.1 ∧ ∀ {t}, Says t e.2 → f.spelling.Spells t (f.get s) := by
  induction h with
  | nil => exact absurd he List.not_mem_nil
  | @given f _ _ _ hgiven _ ih =>
    rcases List.mem_cons.1 he with rfl | he
    · exact ⟨f, List.mem_cons_self, rfl, hgiven⟩
    · obtain ⟨g, hg, hname⟩ := ih he
      exact ⟨g, List.mem_cons_of_mem _ hg, hname⟩
  | missing _ _ ih =>
    obtain ⟨g, hg, hname⟩ := ih he
    exact ⟨g, List.mem_cons_of_mem _ hg, hname⟩

theorem SaysFields.eq_of_not_mem (h : SaysFields start s fs members) {f : Field σ} (hf : f ∈ fs)
    (hname : f.name ∉ members.map (·.1)) : f.get s = f.get start := by
  induction h with
  | nil => exact absurd hf List.not_mem_nil
  | given _ _ ih =>
    rw [List.map_cons, List.mem_cons, not_or] at hname
    rcases List.mem_cons.1 hf with rfl | hf
    · exact absurd rfl hname.1
    · exact ih hf hname.2
  | missing hmissing _ ih =>
    rcases List.mem_cons.1 hf with rfl | hf
    · exact hmissing
    · exact ih hf hname

theorem SaysMembers.timesGiven_eq (h : SaysMembers ms members) (name : String) :
    timesGiven ms name = (members.map (·.1)).count name := by
  induction members generalizing ms with
  | nil =>
    cases h
    rfl
  | cons member members ih =>
    cases h with
    | cons hname _ hrest =>
      rw [timesGiven_cons, List.map_cons, List.count_cons, ih hrest, hname.2]
      simp

theorem SaysMembers.exists_says (h : SaysMembers ms members) {m : List TextUnit × Tree}
    (hm : m ∈ ms) : ∃ e ∈ members, textOf? m.1 = some e.1 ∧ Says m.2 e.2 := by
  induction members generalizing ms with
  | nil =>
    cases h
    exact absurd hm List.not_mem_nil
  | cons member members ih =>
    cases h with
    | cons hname ht hrest =>
      rcases List.mem_cons.1 hm with rfl | hm
      · exact ⟨_, List.mem_cons_self, hname.2, ht⟩
      · obtain ⟨e, he, hsays⟩ := ih hrest hm
        exact ⟨e, List.mem_cons_of_mem _ he, hsays⟩

/-- **Members that say the fields of a record spell the record.** -/
theorem RecordShape.spells_of_says {r : RecordShape σ} (h : SaysFields r.start s r.fields members)
    (ht : Says t (.object members)) : r.Spells t s := by
  cases ht with
  | object hmembers =>
    -- The members have the fields' order, so no name comes twice.
    have hnodup : (members.map (·.1)).Nodup := h.sublist_names.nodup r.nodup_names
    refine ⟨fun m hm => ?_, fun f hf => ?_, fun f hf m hm hname => ?_, fun f hf htimes => ?_⟩
    · obtain ⟨e, -, hname, -⟩ := hmembers.exists_says hm
      rw [hname]
      rfl
    · rw [hmembers.timesGiven_eq]
      exact List.nodup_iff_count_le_one.1 hnodup f.name
    · obtain ⟨e, he, htext, hsays⟩ := hmembers.exists_says hm
      obtain ⟨g, hg, hsame, hspells⟩ := h.exists_field he
      have heq : f.name = e.1 := Option.some.inj (hname.symm.trans htext)
      rw [eq_of_name_eq hf hg (heq.trans hsame.symm)]
      exact hspells hsays
    · rw [hmembers.timesGiven_eq] at htimes
      exact h.eq_of_not_mem hf (List.count_eq_zero.1 htimes)

end

end PowerShare.Json
