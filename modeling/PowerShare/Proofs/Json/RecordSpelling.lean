import Mathlib.Data.List.Nodup
import PowerShare.Proofs.Json.Spelling

/-!
# How records are spelled

One record has many spellings. As an object it has its fields in any order among members of other
names, and a field may be left out where the record has the value that a missing field has; as a
list it has its fields in order, and the last ones may be left out in the same way.

* `RecordShape` -- the fields of a record; `RecordShape.spelling` are its spellings;
* `RecordShape.value?_of_spells` -- **whatever spells a record is read as that record;**
* `RecordShape.value?_of_repeats` -- **where a field is given twice nothing is read.**
-/

namespace PowerShare.Json

/-! ## 1. Fields -/

/-- A field: where it is in a record, and how its value is spelled. -/
structure Field (σ : Type) where
  name : String
  Value : Type
  get : σ → Value
  set : σ → Value → σ
  spelling : Spelling Value

/-- What is made of the field. -/
def Field.reading (f : Field σ) : FieldReading σ :=
  ⟨f.name, fun s t => (f.spelling.value? t).map (f.set s)⟩

/-- The fields of a record, told apart by their names. Together they are the whole record. -/
structure RecordShape (σ : Type) where
  fields : List (Field σ)
  /-- The record that has no field given. -/
  start : σ
  nodup_names : (fields.map (·.name)).Nodup
  get_set : ∀ f ∈ fields, ∀ s v, f.get (f.set s v) = v
  get_set_of_ne : ∀ f ∈ fields, ∀ g ∈ fields, f.name ≠ g.name →
    ∀ s v, f.get (g.set s v) = f.get s
  ext : ∀ {s s' : σ}, (∀ f ∈ fields, f.get s = f.get s') → s = s'

/-- How many members give the field of that name. -/
def timesGiven (members : List (List TextUnit × Tree)) (name : String) : Nat :=
  members.countP fun m => textOf? m.1 == some name

theorem timesGiven_cons (m : List TextUnit × Tree) (members : List (List TextUnit × Tree))
    (name : String) :
    timesGiven (m :: members) name =
      timesGiven members name + if textOf? m.1 = some name then 1 else 0 := by
  unfold timesGiven
  rw [List.countP_cons]
  simp only [beq_iff_eq]

namespace RecordShape

variable (r : RecordShape σ)

/-! ## 2. Spellings of records -/

/-- The members spell the record: its fields in any order, among other members. -/
structure MembersSpell (members : List (List TextUnit × Tree)) (s : σ) : Prop where
  /-- Every name is a text, also of the other members. -/
  named : ∀ m ∈ members, (textOf? m.1).isSome = true
  once : ∀ f ∈ r.fields, timesGiven members f.name ≤ 1
  given : ∀ f ∈ r.fields, ∀ m ∈ members, textOf? m.1 = some f.name →
    f.spelling.Spells m.2 (f.get s)
  /-- A field may be left out that has the value of a missing one. -/
  missing : ∀ f ∈ r.fields, timesGiven members f.name = 0 → f.get s = f.get r.start

/-- The items spell the record: its fields in order, but for some at the end that have the values
of missing ones. -/
def ItemsSpell (items : List Tree) (s : σ) : Prop :=
  ∃ given missing, r.fields = given ++ missing ∧
    List.Forall₂ (fun f t => f.spelling.Spells t (f.get s)) given items ∧
    ∀ f ∈ missing, f.get s = f.get r.start

/-- The tree spells the record. -/
def Spells : Tree → σ → Prop
  | .object members, s => r.MembersSpell members s
  | .list items, s => r.ItemsSpell items s
  | _, _ => False

/-- A field is given twice, of the record itself or of one inside it. -/
def Repeats : Tree → Prop
  | .object members =>
    (∃ f ∈ r.fields, 2 ≤ timesGiven members f.name) ∨
      ∃ f ∈ r.fields, ∃ m ∈ members, textOf? m.1 = some f.name ∧ f.spelling.Repeats m.2
  | .list items => ∃ p ∈ r.fields.zip items, p.1.spelling.Repeats p.2
  | _ => False

/-- What is made of the fields. -/
def readings : List (FieldReading σ) := r.fields.map Field.reading

/-- What is made of a tree. -/
def value? : Tree → Option σ := Tree.record? r.readings r.start

/-! ## 3. One member -/

variable {r} {state : σ} {seen : List String} {name : List TextUnit} {t : Tree}

theorem eq_of_name_eq {f g : Field σ} (hf : f ∈ r.fields) (hg : g ∈ r.fields)
    (h : f.name = g.name) : f = g :=
  List.inj_on_of_nodup_map r.nodup_names hf hg h

/-- A member of another name changes nothing. -/
theorem member?_of_unknown {text : String} (htext : textOf? name = some text)
    (h : ∀ f ∈ r.fields, f.name ≠ text) :
    member? r.readings (state, seen) (name, t) = some (state, seen) := by
  have hfind : r.readings.find? (·.name == text) = none := by
    refine List.find?_eq_none.2 fun g hg => ?_
    obtain ⟨f, hf, rfl⟩ := List.mem_map.1 hg
    exact fun hname => h f hf (beq_iff_eq.1 hname)
  unfold member?
  dsimp only
  rw [htext, Option.bind_some, hfind]

/-- A member that gives a field is read into the record, unless the field was given before. -/
theorem member?_of_mem {f : Field σ} (hf : f ∈ r.fields) (htext : textOf? name = some f.name) :
    member? r.readings (state, seen) (name, t) =
      if f.name ∈ seen then none
      else (f.spelling.value? t).map fun v => (f.set state v, f.name :: seen) := by
  have hfind : r.readings.find? (·.name == f.name) = some f.reading := by
    unfold readings
    rw [List.find?_map]
    cases hg : r.fields.find? ((·.name == f.name) ∘ Field.reading) with
    | none => exact absurd (beq_self_eq_true f.name) (List.find?_eq_none.1 hg f hf)
    | some g =>
      have hname : g.name = f.name := by simpa [Field.reading] using List.find?_some hg
      rw [eq_of_name_eq (List.mem_of_find?_eq_some hg) hf hname]
      rfl
  unfold member?
  dsimp only
  rw [htext, Option.bind_some, hfind]
  simp only [List.contains_iff_mem, Field.reading, Option.map_map]
  rfl

/-- A name that was seen stays so. -/
theorem mem_of_member? {fs : List (FieldReading σ)} {m : List TextUnit × Tree} {next : σ}
    {seen' : List String} (h : member? fs (state, seen) m = some (next, seen')) {x : String}
    (hx : x ∈ seen) : x ∈ seen' := by
  obtain ⟨text, -, h⟩ := Option.bind_eq_some_iff.1 h
  split at h
  · cases h
    exact hx
  · split at h
    · cases h
    · obtain ⟨s, -, hnext⟩ := Option.map_eq_some_iff.1 h
      cases hnext
      exact List.mem_cons_of_mem _ hx

/-! ## 4. All members -/

/-- Behind a member that gives a field, the field was not given before and is not given again. -/
theorem once_of_given {m : List TextUnit × Tree} {members : List (List TextUnit × Tree)}
    {f : Field σ} (hf : f ∈ r.fields) (htext : textOf? m.1 = some f.name)
    (honce : ∀ g ∈ r.fields,
      timesGiven (m :: members) g.name + (if g.name ∈ seen then 1 else 0) ≤ 1) :
    f.name ∉ seen ∧ timesGiven members f.name = 0 ∧ ∀ g ∈ r.fields,
      timesGiven members g.name + (if g.name ∈ f.name :: seen then 1 else 0) ≤ 1 := by
  have hself := honce f hf
  rw [timesGiven_cons, if_pos htext] at hself
  have hbehind : timesGiven members f.name = 0 := by omega
  refine ⟨fun hseen => ?_, hbehind, fun g hg => ?_⟩
  · rw [if_pos hseen] at hself
    omega
  · have hle := honce g hg
    rw [timesGiven_cons, htext] at hle
    by_cases hname : g.name = f.name
    · rw [hname, hbehind]
      split <;> omega
    · simp only [List.mem_cons, hname, false_or]
      omega

/-- **Members that spell a record are read as its fields.** A field that is given before is not
given again, and every field ends with the value spelled, or the one it started with. -/
theorem exists_foldlM (state : σ) (seen : List String) {s : σ}
    {members : List (List TextUnit × Tree)}
    (hnamed : ∀ m ∈ members, (textOf? m.1).isSome = true)
    (hgiven : ∀ f ∈ r.fields, ∀ m ∈ members, textOf? m.1 = some f.name →
      f.spelling.Spells m.2 (f.get s))
    (honce : ∀ f ∈ r.fields, timesGiven members f.name + (if f.name ∈ seen then 1 else 0) ≤ 1) :
    ∃ last, members.foldlM (member? r.readings) (state, seen) = some last ∧
      ∀ f ∈ r.fields, f.get last.1 =
        if timesGiven members f.name = 0 then f.get state else f.get s := by
  induction members generalizing state seen with
  | nil => exact ⟨(state, seen), rfl, fun _ _ => rfl⟩
  | cons m members ih =>
    obtain ⟨text, htext⟩ := Option.isSome_iff_exists.1 (hnamed m List.mem_cons_self)
    have hnamed' m hm := hnamed m (List.mem_cons_of_mem _ hm)
    have hgiven' f hf m hm := hgiven f hf m (List.mem_cons_of_mem _ hm)
    -- A known name gives its field for good: `hbehind` keeps later members from changing it.
    by_cases hknown : ∃ f ∈ r.fields, f.name = text
    · obtain ⟨f, hf, rfl⟩ := hknown
      obtain ⟨hunseen, hbehind, honce'⟩ := once_of_given hf htext honce
      have hvalue := f.spelling.value?_of_spells (hgiven f hf m List.mem_cons_self htext)
      obtain ⟨last, hlast, hfields⟩ :=
        ih (f.set state (f.get s)) (f.name :: seen) hnamed' hgiven' honce'
      refine ⟨last, ?_, fun g hg => ?_⟩
      · rw [List.foldlM_cons, member?_of_mem hf htext, if_neg hunseen, hvalue]
        exact hlast
      · rw [hfields g hg, timesGiven_cons, htext]
        by_cases hname : g.name = f.name
        · obtain rfl := eq_of_name_eq hg hf hname
          rw [if_pos hbehind, if_pos rfl, if_neg (Nat.succ_ne_zero _), r.get_set g hg]
        · have hne : ¬ some f.name = some g.name := fun h => hname (Option.some.inj h).symm
          rw [if_neg hne, Nat.add_zero, r.get_set_of_ne g hg f hf hname]
    · have hunknown f (hf : f ∈ r.fields) : f.name ≠ text := fun h => hknown ⟨f, hf, h⟩
      have htimes f (hf : f ∈ r.fields) :
          timesGiven (m :: members) f.name = timesGiven members f.name := by
        rw [timesGiven_cons, htext, if_neg fun h => hunknown f hf (Option.some.inj h).symm,
          Nat.add_zero]
      obtain ⟨last, hlast, hfields⟩ :=
        ih state seen hnamed' hgiven' fun f hf => htimes f hf ▸ honce f hf
      refine ⟨last, ?_, fun f hf => (htimes f hf).symm ▸ hfields f hf⟩
      rw [List.foldlM_cons, member?_of_unknown htext hunknown]
      exact hlast

/-- **Members that are read give no field twice,** and what gives a field is read. -/
theorem once_of_foldlM {members : List (List TextUnit × Tree)} {last : σ × List String}
    (h : members.foldlM (member? r.readings) (state, seen) = some last) {f : Field σ}
    (hf : f ∈ r.fields) :
    timesGiven members f.name + (if f.name ∈ seen then 1 else 0) ≤ 1 ∧
      ∀ m ∈ members, textOf? m.1 = some f.name → (f.spelling.value? m.2).isSome = true := by
  induction members generalizing state seen with
  | nil =>
    refine ⟨?_, fun m hm => absurd hm List.not_mem_nil⟩
    show 0 + _ ≤ 1
    split <;> omega
  | cons m members ih =>
    rw [List.foldlM_cons] at h
    obtain ⟨⟨next, seen'⟩, hstep, hrest⟩ := Option.bind_eq_some_iff.1 h
    obtain ⟨hle, hread⟩ := ih hrest
    rw [timesGiven_cons]
    by_cases hname : textOf? m.1 = some f.name
    · rw [member?_of_mem hf hname] at hstep
      by_cases hseen : f.name ∈ seen
      · rw [if_pos hseen] at hstep
        cases hstep
      · rw [if_neg hseen] at hstep
        obtain ⟨v, hv, hnext⟩ := Option.map_eq_some_iff.1 hstep
        cases hnext
        rw [if_pos List.mem_cons_self] at hle
        rw [if_pos hname, if_neg hseen]
        refine ⟨by omega, fun m' hm' htext => ?_⟩
        rcases List.mem_cons.1 hm' with rfl | hm'
        · rw [hv]
          rfl
        · exact hread m' hm' htext
    · have hseen : f.name ∈ seen → f.name ∈ seen' := mem_of_member? hstep
      rw [if_neg hname]
      refine ⟨?_, fun m' hm' htext => ?_⟩
      · split at hle
        · split <;> omega
        · rename_i hnot
          rw [if_neg fun h => hnot (hseen h)]
          omega
      · rcases List.mem_cons.1 hm' with rfl | hm'
        · exact absurd htext hname
        · exact hread m' hm' htext

/-! ## 5. Items -/

/-- **Items that spell the first fields are read as these,** and the other fields stay. -/
theorem exists_items? {given missing : List (Field σ)} {items : List Tree} {s : σ}
    (hfields : ∀ f ∈ given ++ missing, f ∈ r.fields)
    (hnodup : ((given ++ missing).map (·.name)).Nodup)
    (h : List.Forall₂ (fun f t => f.spelling.Spells t (f.get s)) given items) (state : σ) :
    ∃ last, items? ((given ++ missing).map Field.reading) state items = some last ∧
      (∀ f ∈ given, f.get last = f.get s) ∧
      ∀ f ∈ r.fields, f.name ∉ given.map (·.name) → f.get last = f.get state := by
  induction h generalizing state with
  | nil => exact ⟨state, by cases missing <;> rfl, nofun, fun _ _ _ => rfl⟩
  | @cons f t given items hf _ ih =>
    rw [List.cons_append, List.map_cons, List.nodup_cons] at hnodup
    have hmem : f ∈ r.fields := hfields f List.mem_cons_self
    obtain ⟨last, hlast, hgiven, hother⟩ :=
      ih (fun g hg => hfields g (List.mem_cons_of_mem _ hg)) hnodup.2 (f.set state (f.get s))
    have hnot : f.name ∉ given.map (·.name) := fun hname =>
      hnodup.1 (List.map_append ▸ List.mem_append_left _ hname)
    refine ⟨last, ?_, fun g hg => ?_, fun g hg hname => ?_⟩
    · show ((f.spelling.value? t).map (f.set state)).bind _ = some last
      rw [f.spelling.value?_of_spells hf]
      exact hlast
    · rcases List.mem_cons.1 hg with rfl | hg
      · rw [hother g hmem hnot, r.get_set g hmem]
      · exact hgiven g hg
    · rw [List.map_cons, List.mem_cons, not_or] at hname
      rw [hother g hg hname.2, r.get_set_of_ne g hg f hmem hname.1]

/-- Items that are read are read one by one. -/
theorem read_of_items? {fs : List (Field σ)} {items : List Tree} {last : σ}
    (h : items? (fs.map Field.reading) state items = some last) {f : Field σ} {t : Tree}
    (hft : (f, t) ∈ fs.zip items) : (f.spelling.value? t).isSome = true := by
  induction fs generalizing items state with
  | nil => exact absurd hft List.not_mem_nil
  | cons g fs ih =>
    cases items with
    | nil => exact absurd hft List.not_mem_nil
    | cons t' items =>
      obtain ⟨next, hnext, hrest⟩ := Option.bind_eq_some_iff.1 h
      obtain ⟨v, hv, -⟩ := Option.map_eq_some_iff.1 hnext
      rcases List.mem_cons.1 hft with heq | hft
      · cases heq
        rw [hv]
        rfl
      · exact ih hrest hft

/-! ## 6. Records -/

/-- **Whatever spells a record is read as that record.** -/
theorem value?_of_spells {t : Tree} {s : σ} (h : r.Spells t s) : r.value? t = some s := by
  cases t with
  | object members =>
    have honce f (hf : f ∈ r.fields) :
        timesGiven members f.name + (if f.name ∈ ([] : List String) then 1 else 0) ≤ 1 := by
      rw [if_neg List.not_mem_nil]
      exact h.once f hf
    obtain ⟨last, hlast, hfields⟩ := exists_foldlM r.start [] h.named h.given honce
    have hs : last.1 = s := r.ext fun f hf => by
      rw [hfields f hf]
      split
      · rename_i hmissing
        exact (h.missing f hf hmissing).symm
      · rfl
    show (members.foldlM (member? r.readings) (r.start, [])).map Prod.fst = some s
    rw [hlast, ← hs]
    rfl
  | list items =>
    obtain ⟨given, missing, hfields, hgiven, hmissing⟩ := h
    obtain ⟨last, hlast, hsame, hother⟩ := exists_items? (fun f hf => hfields ▸ hf)
      (hfields ▸ r.nodup_names) hgiven r.start
    have hs : last = s := r.ext fun f hf => by
      rw [hfields] at hf
      rcases List.mem_append.1 hf with hf | hf
      · exact hsame f hf
      · have hnodup := hfields ▸ r.nodup_names
        rw [List.map_append] at hnodup
        have hnot : f.name ∉ given.map (·.name) := fun hname =>
          List.disjoint_of_nodup_append hnodup hname (List.mem_map_of_mem hf)
        rw [hother f (hfields ▸ List.mem_append_right given hf) hnot, hmissing f hf]
    show items? r.readings r.start items = some s
    unfold readings
    rw [hfields, hlast, hs]
  | null | boolean | number | text => exact absurd h id

/-- **Where a field is given twice nothing is read.** -/
theorem value?_of_repeats {t : Tree} (h : r.Repeats t) : r.value? t = none := by
  refine Option.eq_none_iff_forall_ne_some.2 fun s hs => ?_
  cases t with
  | object members =>
    obtain ⟨last, hlast, -⟩ := Option.map_eq_some_iff.1 hs
    rcases h with ⟨f, hf, htwice⟩ | ⟨f, hf, m, hm, htext, hinside⟩
    · have hle := (once_of_foldlM hlast hf).1
      omega
    · have hread := (once_of_foldlM hlast hf).2 m hm htext
      rw [f.spelling.value?_of_repeats hinside] at hread
      cases hread
  | list items =>
    obtain ⟨⟨f, t⟩, hft, hinside⟩ := h
    have hread := read_of_items? hs hft
    rw [f.spelling.value?_of_repeats hinside] at hread
    cases hread
  | null | boolean | number | text => exact h

variable (r) in
/-- The spellings of a record. -/
def spelling : Spelling σ := ⟨r.Spells, r.Repeats, r.value?, value?_of_spells, value?_of_repeats⟩

end RecordShape

end PowerShare.Json
