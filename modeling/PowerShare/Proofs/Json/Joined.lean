import Mathlib.Data.List.TakeWhile
import PowerShare.Proofs.Json.Key
import PowerShare.Proofs.Json.Local
import PowerShare.Proofs.SortedMap

/-!
# Objects put together from texts

The texts of values can be put into an object as they are, blanks around them and all. Here the
parts of an object are bytes, of which nothing is known but what a reader makes of each alone:

* `RawMember`, `IsObject` -- the bytes of a name and of a value, and the texts of objects that are
  put together from them;
* `Reads p v a?` -- in front of anything that stops a number, `p` makes `a?` of the bytes `v`;
  `Local.reads` -- so it is where `p` accepts `v` as a whole text and is local;
* `Steps`, `run?_membersFrom_joins` -- the loop over members goes from state to state member by
  member, and ends where it is refused;
* `exists_steps_entries`, `reads_mapOf` -- a map holds the last entry of each key;
* `Record.memberOf?`, `Record.reads_read_object` and `reads_read_list` -- what a record makes of the
  parts of an object or a list, read each alone, it makes of the whole.
-/

namespace PowerShare.Json

open Reader

/-! ## 1. Objects -/

/-- A member of an object: the bytes of its name between the quotes, and the bytes of its value
with any blanks around it. -/
abbrev RawMember := List UInt8 × List UInt8

/-- The member behind the opening quote of its name, with blanks in front of the colon. -/
def RawMember.bytes (m : RawMember) (w : List UInt8) : List UInt8 :=
  m.1 ++ byte '"' :: (w ++ byte ':' :: m.2)

/-- Members up to the closing brace; behind the first one each has a comma in front of it. -/
inductive Joins : Bool → List RawMember → List UInt8 → Prop where
  | stop {isFirst : Bool} {w : List UInt8} : Blank w → Joins isFirst [] (w ++ [byte '\x7d'])
  | first {m : RawMember} {ms : List RawMember} {u w tail : List UInt8} :
      Blank u → Blank w → Joins false ms tail →
        Joins true (m :: ms) (u ++ byte '"' :: (m.bytes w ++ tail))
  | next {m : RawMember} {ms : List RawMember} {u v w tail : List UInt8} :
      Blank u → Blank v → Blank w → Joins false ms tail →
        Joins false (m :: ms) (u ++ byte ',' :: (v ++ byte '"' :: (m.bytes w ++ tail)))

/-- The text is an object with these members, and there are blanks around it. -/
def IsObject (ms : List RawMember) (text : List UInt8) : Prop :=
  ∃ u body w, Blank u ∧ Joins true ms body ∧ Blank w ∧ text = u ++ byte '\x7b' :: (body ++ w)

/-- What follows a member stops a number. -/
theorem Joins.stops {ms : List RawMember} {body : List UInt8} (h : Joins false ms body)
    (rest : List UInt8) : Stops (body ++ rest) := by
  cases h with
  | stop hw =>
    rw [List.append_assoc]
    exact hw.stops (.cons (by decide) _)
  | next hu =>
    rw [List.append_assoc]
    exact hu.stops (.cons (by decide) _)

/-! ## 2. What is made of bytes in front of more -/

/-- Of these bytes, in front of anything that stops a number, the reader makes just this, and takes
all of them but blanks. -/
def Reads (p : ByteReader α) (v : List UInt8) (a? : Option α) : Prop :=
  ∀ tail, Stops tail →
    match a? with
    | none => p.run? (v ++ tail) = none
    | some a => ∃ w, Blank w ∧ p.run? (v ++ tail) = some (a, w ++ tail)

theorem readAll_eq_ok_iff {p : ByteReader α} {v : List UInt8} {a : α} :
    readAll p v = .ok a ↔ ∃ w, Blank w ∧ p.run? v = some (a, w) := by
  have hblank {w : List UInt8} : (w.dropWhile isBlank).isEmpty = true ↔ Blank w := by
    rw [List.isEmpty_iff, List.dropWhile_eq_nil_iff]
    rfl
  unfold readAll run?
  cases hrun : p.run v with
  | error e => simp [Except.toOption]
  | ok r =>
    obtain ⟨b, rest⟩ := r
    dsimp only
    constructor
    · intro h
      split at h
      · rename_i hempty
        cases h
        exact ⟨rest, hblank.1 hempty, rfl⟩
      · cases h
    · intro ⟨w, hw, heq⟩
      cases heq
      rw [if_pos (hblank.2 hw)]

/-- **A local reader makes of an accepted text the same in front of more.** -/
theorem Local.reads {p : ByteReader α} (hp : Local p) {v : List UInt8} {a : α}
    (h : readAll p v = .ok a) : Reads p v (some a) := by
  obtain ⟨w, hw, hrun⟩ := readAll_eq_ok_iff.1 h
  exact fun tail htail => ⟨w, hw, hp v hrun htail⟩

/-- What is made of bytes in front of more is made of them alone. -/
theorem Reads.toOption_readAll {p : ByteReader α} {v : List UInt8} {a? : Option α}
    (h : Reads p v a?) : (readAll p v).toOption = a? := by
  have hnil := h [] .nil
  rw [List.append_nil] at hnil
  cases a? with
  | some a =>
    obtain ⟨w, hw, hrun⟩ := hnil
    rw [List.append_nil] at hrun
    rw [readAll_eq_ok_iff.2 ⟨w, hw, hrun⟩]
    rfl
  | none =>
    cases hread : readAll p v with
    | error e => rfl
    | ok a =>
      obtain ⟨w, -, hrun⟩ := readAll_eq_ok_iff.1 hread
      exact absurd (hnil.symm.trans hrun) (by simp)

/-- What is made of a whole text when something is made of what was read. -/
theorem toOption_readAll_map (p : ByteReader α) (g : α → β) (v : List UInt8) :
    (readAll (do return g (← p)) v).toOption = (readAll p v).toOption.map g := by
  unfold readAll
  rw [run_bind]
  cases p.run v with
  | error e => rfl
  | ok r =>
    dsimp only
    rw [run_pure]
    dsimp only
    split <;> rfl

/-- A reader that goes on with what another one read. -/
theorem Reads.map {p : ByteReader α} {v : List UInt8} {a? : Option α} (h : Reads p v a?)
    {q : α → ByteReader β} {g : α → β} (hq : ∀ a, q a = pure (g a)) :
    Reads (p >>= q) v (a?.map g) := by
  intro tail htail
  have hrun := h tail htail
  cases a? with
  | none => simp [show p.run? (v ++ tail) = none from hrun]
  | some a =>
    obtain ⟨w, hw, hrun⟩ := hrun
    exact ⟨w, hw, by simp [hrun, hq]⟩

/-- Of the bytes of a key and its closing quote the reader makes just this. -/
def ReadsKey (p : ByteReader κ) (name : List UInt8) (k? : Option κ) : Prop :=
  ∀ rest, Stops rest → p.run? (name ++ byte '"' :: rest) = k?.map (·, rest)

/-- Whatever stands behind a name stops a number. -/
theorem stops_colon {w : List UInt8} (hw : Blank w) (rest : List UInt8) :
    Stops (w ++ byte ':' :: rest) :=
  hw.stops (.cons (by decide) _)

/-! ## 3. Members one after another -/

section

variable {member : σ → ByteReader σ}

/-- From this state the members lead one by one to the other, or there is one that is refused. -/
inductive Steps (member : σ → ByteReader σ) : List RawMember → σ → Option σ → Prop where
  | nil {state : σ} : Steps member [] state (some state)
  | refused {m : RawMember} {ms : List RawMember} {state : σ} :
      (∀ w, Blank w → Reads (member state) (m.bytes w) none) → Steps member (m :: ms) state none
  | cons {m : RawMember} {ms : List RawMember} {state next : σ} {a? : Option σ} :
      (∀ w, Blank w → Reads (member state) (m.bytes w) (some next)) → Steps member ms next a? →
        Steps member (m :: ms) state a?

theorem Steps.append {before after : List RawMember} {state next : σ} {a? : Option σ}
    (hbefore : Steps member before state (some next)) (hafter : Steps member after next a?) :
    Steps member (before ++ after) state a? := by
  generalize hnext : some next = next? at hbefore
  induction hbefore with
  | nil =>
    cases hnext
    exact hafter
  | refused _ => cases hnext
  | cons hm _ ih => exact .cons hm (ih hnext)

/-- **The loop over members goes from state to state.** -/
theorem run?_membersFrom_joins {ms : List RawMember} {state : σ} {a? : Option σ}
    (hsteps : Steps member ms state a?) {isFirst : Bool} {body : List UInt8}
    (h : Joins isFirst ms body) (rest : List UInt8) :
    (membersFrom member isFirst state).run? (body ++ rest) = a?.map (·, rest) := by
  -- behind its opening quote a member is read the same way, the first one or a later one
  have hmember {m : RawMember} {ms : List RawMember} {state : σ} {a? : Option σ} {w : List UInt8}
      (hw : Blank w) {tail : List UInt8} (htail : Joins false ms tail)
      (hsteps : Steps member (m :: ms) state a?)
      (hmore : ∀ next, Steps member ms next a? →
        (membersFrom member false next).run? (tail ++ rest) = a?.map (·, rest)) :
      (((member state).run? (m.bytes w ++ (tail ++ rest))).bind fun r =>
        (membersFrom member false r.1).run? r.2) = a?.map (·, rest) := by
    cases hsteps with
    | refused hm =>
      have hrun : (member state).run? (m.bytes w ++ (tail ++ rest)) = none :=
        hm w hw _ (htail.stops rest)
      rw [hrun]
      rfl
    | @cons _ _ _ next _ hm hms =>
      obtain ⟨left, hleft, hrun⟩ := hm w hw _ (htail.stops rest)
      rw [hrun, Option.bind_some, run?_membersFrom_blank member hleft]
      exact hmore next hms
  induction ms generalizing isFirst body state with
  | nil =>
    cases h with
    | stop hw =>
      cases hsteps
      rw [List.append_assoc, run?_membersFrom_blank member hw, List.singleton_append,
        run?_membersFrom_end]
      rfl
  | cons m ms ih =>
    cases h with
    | first hu hw htail =>
      rw [List.append_assoc, run?_membersFrom_blank member hu, List.cons_append, List.append_assoc,
        run?_membersFrom_first]
      exact hmember hw htail hsteps fun next hms => ih hms htail
    | next hu hv hw htail =>
      rw [List.append_assoc, run?_membersFrom_blank member hu, List.cons_append, List.append_assoc,
        List.cons_append, List.append_assoc, run?_membersFrom_next member hv]
      exact hmember hw htail hsteps fun next hms => ih hms htail

/-- An object behind the blanks in front of it and its opening brace. -/
theorem IsObject.run?_valueStart_bind {ms : List RawMember} {text : List UInt8}
    (h : IsObject ms text) {q : UInt8 → ByteReader α} {a? : Option α}
    (hq : ∀ body tail, Joins true ms body →
      (q (byte '\x7b')).run? (byte '\x7b' :: (body ++ tail)) = a?.map (·, tail)) :
    Reads (valueStart >>= q) text a? := by
  obtain ⟨u, body, w, hu, hbody, hw, rfl⟩ := h
  intro tail _
  have hrun := hq body (w ++ tail) hbody
  rw [List.append_assoc, List.cons_append, List.append_assoc, run?_bind,
    run?_valueStart hu (by decide), Option.bind_some]
  dsimp only
  rw [hrun]
  cases a? with
  | none => rfl
  | some a => exact ⟨w, hw, rfl⟩

end

/-! ## 4. Maps -/

section

variable [Ranked κ] {key : ByteReader κ} {value : ByteReader α}

variable (key value) in
/-- One more entry of a map, behind the opening quote of its key. -/
def entryReader (m : SortedMap κ α) : ByteReader (SortedMap κ α) := do
  let k ← key
  colon
  return m.insert k (← value)

/-- An entry is put into the map, unless its key is refused. -/
theorem reads_entry {e : RawMember} {k? : Option κ} {a : α} (hkey : ReadsKey key e.1 k?)
    (hvalue : Reads value e.2 (some a)) (m : SortedMap κ α) {w : List UInt8} (hw : Blank w) :
    Reads (entryReader key value m) (e.bytes w) (k?.map (m.insert · a)) := by
  intro tail htail
  unfold RawMember.bytes entryReader
  rw [List.append_assoc, List.cons_append, List.append_assoc, List.cons_append, run?_bind,
    hkey _ (stops_colon hw _)]
  cases k? with
  | none => rfl
  | some k =>
    obtain ⟨left, hleft, hrun⟩ := hvalue tail htail
    exact ⟨left, hleft, by simp [run?_colon hw, hrun]⟩

/-- **Entries put in from left to right leave the last of each key,** where the bytes of every key
are those of a name. -/
theorem exists_steps_entries {name : κ → List UInt8} (hkey : ∀ k, ReadsKey key (name k) (some k))
    (hvalue : Local value) {entries : List RawMember}
    (hentries : ∀ e ∈ entries, (∃ k, e.1 = name k) ∧ ∃ a, readAll value e.2 = .ok a) :
    ∃ m, Steps (entryReader key value) entries {} (some m) ∧ ∀ k a, m.get? k = some a ↔
      ∃ v, SortedMap.LastValue entries (name k) v ∧ readAll value v = .ok a := by
  have hinjective {k k' : κ} (h : name k = name k') : k = k' := by
    have hrun := hkey k [] .nil
    rw [h, hkey k' [] .nil] at hrun
    cases hrun
    rfl
  induction entries using List.reverseRecOn with
  | nil =>
    refine ⟨{}, .nil, fun k a => ?_⟩
    simp [SortedMap.LastValue, SortedMap.get?, SortedMap.empty, EmptyCollection.emptyCollection]
  | append_singleton entries e ih =>
    obtain ⟨m, hsteps, hlast⟩ := ih fun e he => hentries e (List.mem_append_left _ he)
    obtain ⟨⟨k₀, hk₀⟩, a₀, ha₀⟩ := hentries e (List.mem_append_right _ (List.mem_singleton_self e))
    refine ⟨m.insert k₀ a₀, hsteps.append (.cons (fun w hw => ?_) .nil), fun k a => ?_⟩
    · exact reads_entry (hk₀ ▸ hkey k₀) (hvalue.reads ha₀) m hw
    · rw [SortedMap.get?_insert_eq_some_iff, hlast]
      simp only [SortedMap.lastValue_concat, hk₀]
      by_cases hk : k = k₀
      · subst hk
        simp [ha₀, eq_comm]
      · have hname : name k ≠ name k₀ := fun h => hk (hinjective h)
        simp [hk, hname]

/-- A key that is no name is refused, and with it all entries. -/
theorem steps_entries_refused {name : κ → List UInt8} (hkey : ∀ k, ReadsKey key (name k) (some k))
    (hvalue : Local value) {entries : List RawMember}
    (hother : ∀ e ∈ entries, (∀ k, e.1 ≠ name k) → ReadsKey key e.1 none)
    (hvalues : ∀ e ∈ entries, ∃ a, readAll value e.2 = .ok a)
    (hrefused : ∃ e ∈ entries, ∀ k, e.1 ≠ name k) (m : SortedMap κ α) :
    Steps (entryReader key value) entries m none := by
  induction entries generalizing m with
  | nil =>
    obtain ⟨e, he, -⟩ := hrefused
    cases he
  | cons e entries ih =>
    obtain ⟨a, ha⟩ := hvalues e List.mem_cons_self
    by_cases hname : ∃ k, e.1 = name k
    · obtain ⟨k, hk⟩ := hname
      refine .cons (fun w hw => reads_entry (hk ▸ hkey k) (hvalue.reads ha) m hw) ?_
      refine ih (fun f hf => hother f (List.mem_cons_of_mem e hf))
        (fun f hf => hvalues f (List.mem_cons_of_mem e hf)) ?_ (m.insert k a)
      obtain ⟨f, hf, hnone⟩ := hrefused
      rcases List.mem_cons.1 hf with rfl | hf
      · exact absurd hk (hnone k)
      · exact ⟨f, hf, hnone⟩
    · have hnone : ReadsKey key e.1 none :=
        hother e List.mem_cons_self fun k hk => hname ⟨k, hk⟩
      exact .refused fun w hw => reads_entry hnone (hvalue.reads ha) m hw

/-- **What a map makes of an object:** the entries one by one, up to a key that is refused. -/
theorem reads_mapOf {ms : List RawMember} {text : List UInt8} (h : IsObject ms text)
    {a? : Option (SortedMap κ α)} (hsteps : Steps (entryReader key value) ms {} a?) :
    Reads (mapOf key value) text a? := by
  unfold mapOf
  refine h.run?_valueStart_bind fun body tail hbody => ?_
  rw [if_pos rfl, run?_bind, run?_advance, Option.bind_some, List.tail_cons, members_eq]
  exact run?_membersFrom_joins hsteps hbody tail

end

/-! ## 5. Records -/

/-- The text that a name spells, if its quote is not closed before the end. -/
def RawMember.name? (m : RawMember) : Option String :=
  (textAfterQuote.run? (m.1 ++ [byte '"'])).bind fun r => if r.2.isEmpty then some r.1 else none

theorem RawMember.readsKey {m : RawMember} {name : String} (h : m.name? = some name) :
    ReadsKey textAfterQuote m.1 (some name) := by
  intro rest hrest
  obtain ⟨⟨text, left⟩, hrun, hleft⟩ := Option.bind_eq_some_iff.1 h
  dsimp only at hleft
  split at hleft
  · rename_i hempty
    cases hleft
    rw [List.isEmpty_iff.1 hempty] at hrun
    have hmore := local_textAfterQuote _ hrun hrest
    rwa [List.append_assoc] at hmore
  · cases hleft

namespace Record

variable {r : Record σ}

/-- What a record makes of one more member, the parts of which are read each alone. -/
def memberOf? (r : Record σ) : σ × List String → RawMember → Option (σ × List String)
  | (state, seen), m =>
    m.name?.bind fun name =>
      match r.fields.find? (·.name == name) with
      | none => (readAll skipValue m.2).toOption.map fun _ => (state, seen)
      | some f =>
        if seen.contains name then none
        else (readAll (f.read state) m.2).toOption.map (·, name :: seen)

/-- A field that is read for the first time is remembered. -/
theorem seen_of_memberOf? {m : RawMember} {state next : σ × List String}
    (h : r.memberOf? state m = some next) {name : String} (hname : name ∈ state.2) :
    name ∈ next.2 := by
  obtain ⟨text, -, h⟩ := Option.bind_eq_some_iff.1 h
  split at h
  · obtain ⟨_, -, rfl⟩ := Option.map_eq_some_iff.1 h
    exact hname
  · split at h
    · cases h
    · obtain ⟨_, -, rfl⟩ := Option.map_eq_some_iff.1 h
      exact List.mem_cons_of_mem text hname

/-- The member of a field, which is read for the first time. -/
theorem reads_field {m : RawMember} {name : String} (hname : m.name? = some name)
    {f : RecordField σ} (hf : r.fields.find? (·.name == name) = some f) {state : σ}
    {seen : List String} (hseen : seen.contains name = false) {a? : Option σ}
    (hvalue : Reads (f.read state) m.2 a?) {w : List UInt8} (hw : Blank w) :
    Reads (r.member (state, seen)) (m.bytes w) (a?.map (·, name :: seen)) := by
  intro tail htail
  have hrun := hvalue tail htail
  unfold RawMember.bytes Record.member
  simp only [List.append_assoc, List.cons_append, run?_bind,
    RawMember.readsKey hname _ (stops_colon hw _), Option.map_some, Option.bind_some, hf, hseen,
    Bool.false_eq_true, if_false, run?_colon hw]
  cases a? with
  | none => simp [show (f.read state).run? (m.2 ++ tail) = none from hrun]
  | some a =>
    obtain ⟨left, hleft, hrun⟩ := hrun
    exact ⟨left, hleft, by simp [hrun]⟩

/-- The member of a name that the record does not know. -/
theorem reads_unknown {m : RawMember} {name : String} (hname : m.name? = some name)
    (hf : r.fields.find? (·.name == name) = none) (hvalue : Reads skipValue m.2 (some ()))
    (state : σ × List String) {w : List UInt8} (hw : Blank w) :
    Reads (r.member state) (m.bytes w) (some state) := by
  intro tail htail
  obtain ⟨left, hleft, hrun⟩ := hvalue tail htail
  refine ⟨left, hleft, ?_⟩
  unfold RawMember.bytes Record.member
  simp only [List.append_assoc, List.cons_append, run?_bind,
    RawMember.readsKey hname _ (stops_colon hw _), Option.map_some, Option.bind_some, hf,
    run?_colon hw, hrun, run?_pure]

/-- **What is made of the parts of a member is made of the member.** -/
theorem reads_member (hfields : ∀ f ∈ r.fields, ∀ state, Local (f.read state)) {m : RawMember}
    {state next : σ × List String} (h : r.memberOf? state m = some next) {w : List UInt8}
    (hw : Blank w) : Reads (r.member state) (m.bytes w) (some next) := by
  obtain ⟨state, seen⟩ := state
  obtain ⟨name, hname, h⟩ := Option.bind_eq_some_iff.1 h
  split at h
  · rename_i hf
    obtain ⟨_, hread, rfl⟩ := Option.map_eq_some_iff.1 h
    exact reads_unknown hname hf (local_skipValue.reads (eq_ok_of_toOption hread)) _ hw
  · rename_i f hf
    split at h
    · cases h
    · rename_i hseen
      obtain ⟨a, hread, rfl⟩ := Option.map_eq_some_iff.1 h
      have hlocal := hfields f (List.mem_of_find?_eq_some hf) state
      exact reads_field hname hf (Bool.eq_false_iff.2 hseen)
        (hlocal.reads (eq_ok_of_toOption hread)) hw

theorem steps_of_foldlM (hfields : ∀ f ∈ r.fields, ∀ state, Local (f.read state))
    {ms : List RawMember} {state last : σ × List String}
    (h : ms.foldlM r.memberOf? state = some last) : Steps r.member ms state (some last) := by
  induction ms generalizing state with
  | nil =>
    cases h
    exact .nil
  | cons m ms ih =>
    rw [List.foldlM_cons] at h
    obtain ⟨next, hm, hms⟩ := Option.bind_eq_some_iff.1 h
    exact .cons (fun _ hw => reads_member hfields hm hw) (ih hms)

/-- **What a record makes of an object,** up to a member that is refused. -/
theorem reads_read_object {ms : List RawMember} {text : List UInt8} (h : IsObject ms text)
    {start : σ} {a? : Option (σ × List String)} (hsteps : Steps r.member ms (start, []) a?) :
    Reads (r.read start) text (a?.map Prod.fst) := by
  unfold Record.read
  refine h.run?_valueStart_bind fun body tail hbody => ?_
  rw [if_neg (by decide), if_pos rfl, run?_bind, run?_advance, Option.bind_some, List.tail_cons,
    run?_bind, members_eq, run?_membersFrom_joins hsteps hbody]
  cases a? <;> rfl

end Record

/-! ## 6. Records as lists -/

/-- Bytes that a value may start with. -/
def StartsValue (v : List UInt8) : Prop := ∃ b tail, v = b :: tail ∧ startsValue b = true

/-- Items up to the closing bracket; behind the first one each has a comma in front of it. -/
inductive JoinsItems : Bool → List (List UInt8) → List UInt8 → Prop where
  | stop {isFirst : Bool} {w : List UInt8} : Blank w → JoinsItems isFirst [] (w ++ [byte ']'])
  | first {v : List UInt8} {vs : List (List UInt8)} {w tail : List UInt8} :
      Blank w → StartsValue v → JoinsItems false vs tail →
        JoinsItems true (v :: vs) (w ++ (v ++ tail))
  | next {v : List UInt8} {vs : List (List UInt8)} {u w tail : List UInt8} :
      Blank u → Blank w → StartsValue v → JoinsItems false vs tail →
        JoinsItems false (v :: vs) (u ++ byte ',' :: (w ++ (v ++ tail)))

/-- The text is a list with these items, and there are blanks around it. -/
def IsList (vs : List (List UInt8)) (text : List UInt8) : Prop :=
  ∃ u body w, Blank u ∧ JoinsItems true vs body ∧ Blank w ∧ text = u ++ byte '[' :: (body ++ w)

namespace JoinsItems

variable {vs : List (List UInt8)} {body : List UInt8}

theorem blank (h : JoinsItems false vs body) {left : List UInt8} (hleft : Blank left) :
    JoinsItems false vs (left ++ body) := by
  have happend {w : List UInt8} (hw : Blank w) : Blank (left ++ w) :=
    fun b hb => (List.mem_append.1 hb).elim (hleft b) (hw b)
  cases h with
  | stop hw =>
    rw [← List.append_assoc]
    exact .stop (happend hw)
  | next hu hw hv htail =>
    rw [← List.append_assoc]
    exact .next (happend hu) hw hv htail

/-- What follows an item stops a number. -/
theorem stops (h : JoinsItems false vs body) (rest : List UInt8) : Stops (body ++ rest) := by
  cases h with
  | stop hw =>
    rw [List.append_assoc]
    exact hw.stops (.cons (by decide) _)
  | next hu =>
    rw [List.append_assoc]
    exact hu.stops (.cons (by decide) _)

theorem run?_endOfList {isFirst : Bool} (h : JoinsItems isFirst [] body) (rest : List UInt8) :
    endOfList.run? (body ++ rest) = some ((), rest) := by
  cases h with
  | stop hw =>
    unfold endOfList
    rw [run?_bind, List.append_assoc, List.singleton_append, run?_peekToken? hw (by decide)]
    rfl

theorem run?_anotherItem_nil {isFirst : Bool} (h : JoinsItems isFirst [] body)
    (rest : List UInt8) : (anotherItem isFirst).run? (body ++ rest) = some (false, rest) := by
  cases h with
  | stop hw =>
    unfold anotherItem
    rw [run?_bind, List.append_assoc, List.singleton_append, run?_peekToken? hw (by decide)]
    rfl

/-- The comma in front of an item is taken, and the blanks. -/
theorem run?_anotherItem_cons {isFirst : Bool} {v : List UInt8}
    (h : JoinsItems isFirst (v :: vs) body) (rest : List UInt8) :
    ∃ tail, JoinsItems false vs tail ∧
      (anotherItem isFirst).run? (body ++ rest) = some (true, v ++ (tail ++ rest)) := by
  unfold anotherItem
  rw [run?_bind]
  cases h with
  | @first _ _ w tail hw hv htail =>
    refine ⟨tail, htail, ?_⟩
    obtain ⟨b, vs, rfl, hb⟩ := hv
    rw [List.append_assoc, List.append_assoc, List.cons_append,
      run?_peekToken? hw (not_isBlank_of_startsValue hb), Option.bind_some]
    dsimp only
    rw [if_neg (ne_of_startsValue hb (by decide)), if_pos rfl]
    rfl
  | @next _ _ u w tail hu hw hv htail =>
    refine ⟨tail, htail, ?_⟩
    obtain ⟨b, vs, rfl, hb⟩ := hv
    rw [List.append_assoc, List.cons_append, List.append_assoc, List.append_assoc, List.cons_append,
      run?_peekToken? hu (by decide), Option.bind_some]
    dsimp only
    rw [if_neg (by decide), if_neg Bool.false_ne_true, if_pos rfl, run?_bind, run?_advance,
      Option.bind_some, List.tail_cons, run?_bind,
      run?_peekToken? hw (not_isBlank_of_startsValue hb), Option.bind_some]
    dsimp only
    rw [if_neg (ne_of_startsValue hb (by decide))]
    rfl

end JoinsItems

/-- From this state the items lead one by one to the other, or there is one that is refused. -/
inductive ItemSteps {σ : Type} :
    List (RecordField σ) → List (List UInt8) → σ → Option σ → Prop where
  | nil {fs : List (RecordField σ)} {state : σ} : ItemSteps fs [] state (some state)
  | refused {f : RecordField σ} {fs : List (RecordField σ)} {v : List UInt8}
      {vs : List (List UInt8)} {state : σ} :
      Reads (f.read state) v none → ItemSteps (f :: fs) (v :: vs) state none
  | cons {f : RecordField σ} {fs : List (RecordField σ)} {v : List UInt8}
      {vs : List (List UInt8)} {state next : σ} {a? : Option σ} :
      Reads (f.read state) v (some next) → ItemSteps fs vs next a? →
        ItemSteps (f :: fs) (v :: vs) state a?

theorem run?_items_joins {fs : List (RecordField σ)} {vs : List (List UInt8)} {state : σ}
    {a? : Option σ} (hsteps : ItemSteps fs vs state a?) {isFirst : Bool} {body : List UInt8}
    (h : JoinsItems isFirst vs body) (rest : List UInt8) :
    (items fs isFirst state).run? (body ++ rest) = a?.map (·, rest) := by
  induction hsteps generalizing isFirst body with
  | @nil fs state =>
    cases fs with
    | nil =>
      unfold items
      rw [run?_bind, h.run?_endOfList]
      rfl
    | cons f fs =>
      unfold items
      rw [run?_bind, h.run?_anotherItem_nil]
      rfl
  | refused hv =>
    obtain ⟨tail, htail, hitem⟩ := h.run?_anotherItem_cons rest
    have hrun := hv _ (htail.stops rest)
    unfold items
    simp only [run?_bind, hitem, Option.bind_some, if_true, hrun]
    rfl
  | cons hv _ ih =>
    obtain ⟨tail, htail, hitem⟩ := h.run?_anotherItem_cons rest
    obtain ⟨left, hleft, hrun⟩ := hv _ (htail.stops rest)
    unfold items
    simp only [run?_bind, hitem, Option.bind_some, if_true, hrun]
    rw [← List.append_assoc]
    exact ih (htail.blank hleft)

/-- **What a record makes of a list,** up to an item that is refused. -/
theorem Record.reads_read_list {r : Record σ} {vs : List (List UInt8)} {text : List UInt8}
    (h : IsList vs text) {start : σ} {a? : Option σ} (hsteps : ItemSteps r.fields vs start a?) :
    Reads (r.read start) text a? := by
  obtain ⟨u, body, w, hu, hbody, hw, rfl⟩ := h
  intro tail _
  have hrun := run?_items_joins hsteps hbody (w ++ tail)
  unfold Record.read
  rw [List.append_assoc, List.cons_append, List.append_assoc, run?_bind,
    run?_valueStart hu (by decide), Option.bind_some]
  dsimp only
  rw [if_pos rfl, run?_bind, run?_advance, Option.bind_some, List.tail_cons, hrun]
  cases a? with
  | none => rfl
  | some a => exact ⟨w, hw, rfl⟩

end PowerShare.Json
