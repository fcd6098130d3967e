import Mathlib.Data.List.Forall2
import PowerShare.Json.Record
import PowerShare.Proofs.Json.Scalar
import PowerShare.Proofs.Json.Skipping
import PowerShare.Proofs.Json.Text

/-!
# What readers make of records and maps

* `run?_members` -- the loop over the members of an object is a fold over them;
* `Tree.record?` -- what is made of a tree where a record is wanted: of an object, the members of
  known name, each at most once; of a list, the first fields in order;
* `interprets_read` and `interprets_mapOf` -- the readers make just that.
-/

namespace PowerShare.Json

open Reader

/-! ## 1. Members -/

/-- The reader of members behind some of them. -/
def membersFrom (member : σ → ByteReader σ) (isFirst : Bool) (state : σ) : ByteReader σ :=
  scan (fun _ => .ended .object) (fun ((isFirst, state) : Bool × σ) b =>
    if isBlank b then pure (.inl (isFirst, state))
    else if b = byte '\x7d' then pure (.inr state)
    else if isFirst then
      if b = byte '"' then do return .inl (false, ← member state)
      else malformed .keyMustBeText
    else if b = byte ',' then do
      nameBehindComma
      return .inl (false, ← member state)
    else malformed .expectedMemberEnd) (isFirst, state)

theorem members_eq (member : σ → ByteReader σ) (start : σ) :
    members member start = membersFrom member true start := rfl

section

variable (member : σ → ByteReader σ)

theorem run?_membersFrom_blank {w : List UInt8} (hw : Blank w) (isFirst : Bool) (state : σ)
    (rest : List UInt8) :
    (membersFrom member isFirst state).run? (w ++ rest) =
      (membersFrom member isFirst state).run? rest := by
  induction w with
  | nil => rfl
  | cons b w ih =>
    have hb : isBlank b = true := hw b List.mem_cons_self
    refine Eq.trans ?_ (ih fun c hc => hw c (List.mem_cons_of_mem b hc))
    unfold membersFrom
    rw [List.cons_append, run?_scan_cons]
    simp only [hb, if_true, run?_pure, Option.bind_some]

theorem run?_membersFrom_end (isFirst : Bool) (state : σ) (rest : List UInt8) :
    (membersFrom member isFirst state).run? (byte '\x7d' :: rest) = some (state, rest) := by
  unfold membersFrom
  rw [run?_scan_cons]
  rfl

theorem run?_membersFrom_first (state : σ) (rest : List UInt8) :
    (membersFrom member true state).run? (byte '"' :: rest) =
      ((member state).run? rest).bind fun r => (membersFrom member false r.1).run? r.2 := by
  unfold membersFrom
  rw [run?_scan_cons]
  have hblank : isBlank (byte '"') = false := by decide
  have hend : byte '"' ≠ byte '\x7d' := by decide
  simp only [hblank, hend, Bool.false_eq_true, if_false, if_true, run?_bind, run?_pure,
    Option.bind_assoc, Option.bind_some]

theorem run?_nameBehindComma {w : List UInt8} (hw : Blank w) (rest : List UInt8) :
    nameBehindComma.run? (w ++ byte '"' :: rest) = some ((), rest) := by
  unfold nameBehindComma
  rw [run?_bind, run?_peekToken? hw (by decide)]
  rfl

theorem run?_membersFrom_next {w : List UInt8} (hw : Blank w) (state : σ) (rest : List UInt8) :
    (membersFrom member false state).run? (byte ',' :: (w ++ byte '"' :: rest)) =
      ((member state).run? rest).bind fun r => (membersFrom member false r.1).run? r.2 := by
  unfold membersFrom
  rw [run?_scan_cons]
  have hblank : isBlank (byte ',') = false := by decide
  have hend : byte ',' ≠ byte '\x7d' := by decide
  simp only [hblank, hend, Bool.false_eq_true, if_false, if_true, run?_bind, run?_pure,
    run?_nameBehindComma hw, Option.bind_assoc, Option.bind_some]

variable {member}

/-- **The loop over members is a fold over them.** -/
theorem run?_members {step : σ → List TextUnit × Tree → Option σ}
    (hstep : ∀ (state : σ) {name : List TextUnit} {t : Tree} {m rest : List UInt8},
      WritesMember name t m → Stops rest →
        (member state).run? (m ++ rest) = (step state (name, t)).map (·, rest))
    {isFirst : Bool} {ms : List (List TextUnit × Tree)} {body : List UInt8}
    (h : WritesMembers isFirst ms body) (state : σ) (rest : List UInt8) :
    (membersFrom member isFirst state).run? (body ++ rest) =
      (ms.foldlM step state).map (·, rest) := by
  induction ms generalizing isFirst body state with
  | nil =>
    cases h with
    | stop hw =>
      rw [List.append_assoc, run?_membersFrom_blank member hw, List.singleton_append,
        run?_membersFrom_end]
      rfl
  | cons m ms ih =>
    -- behind its opening quote a member is read the same way, the first one or a later one
    have hmember {bytes tail : List UInt8} (hm : WritesMember m.1 m.2 bytes)
        (htail : WritesMembers false ms tail) :
        (((member state).run? (bytes ++ (tail ++ rest))).bind fun r =>
          (membersFrom member false r.1).run? r.2) =
          ((m :: ms).foldlM step state).map (·, rest) := by
      rw [hstep state hm (htail.stops rest), List.foldlM_cons]
      cases step state (m.1, m.2) with
      | none => rfl
      | some next => exact ih htail next
    cases h with
    | first hw hm htail =>
      rw [List.append_assoc, run?_membersFrom_blank member hw, List.cons_append, List.append_assoc,
        run?_membersFrom_first]
      exact hmember hm htail
    | next hu hw hm htail =>
      rw [List.append_assoc, run?_membersFrom_blank member hu, List.cons_append, List.append_assoc,
        List.cons_append, List.append_assoc, run?_membersFrom_next member hw]
      exact hmember hm htail

end

/-! ## 2. Items -/

/-- A list that has no room is at its end, or is refused. -/
theorem run?_endOfList {isFirst : Bool} {ts : List Tree} {body : List UInt8}
    (h : WritesItems isFirst ts body) (rest : List UInt8) :
    endOfList.run? (body ++ rest) = if ts.isEmpty then some ((), rest) else none := by
  unfold endOfList
  rw [run?_bind]
  cases h with
  | stop hw =>
    rw [List.append_assoc, List.singleton_append, run?_peekToken? hw (by decide)]
    rfl
  | first hw hv htail =>
    obtain ⟨b, tail, rfl, hb⟩ := hv.exists_eq_cons
    have hvalue := startsValue_of_startsWith hb
    rw [List.append_assoc, List.append_assoc, List.cons_append,
      run?_peekToken? hw (not_isBlank_of_startsValue hvalue), Option.bind_some]
    dsimp only
    rw [if_neg (ne_of_startsValue hvalue (by decide)),
      if_neg (ne_of_startsValue hvalue (by decide))]
    rfl
  | next hu hw hv htail =>
    rw [List.append_assoc, List.cons_append, run?_peekToken? hu (by decide), Option.bind_some]
    dsimp only
    rw [if_neg (by decide), if_pos rfl]
    refine run?_bind_of_none (fun _ items => ?_) _
    refine run?_bind_of_none (fun _ items => ?_) _
    rw [run?_ite, run?_malformed, run?_malformed, ite_self]

theorem run?_anotherItem_nil {isFirst : Bool} {body : List UInt8} (h : WritesItems isFirst [] body)
    (rest : List UInt8) : (anotherItem isFirst).run? (body ++ rest) = some (false, rest) := by
  unfold anotherItem
  cases h with
  | stop hw =>
    rw [run?_bind, List.append_assoc, List.singleton_append, run?_peekToken? hw (by decide)]
    rfl

/-- The comma in front of an item is taken, and the blanks. -/
theorem run?_anotherItem_cons {isFirst : Bool} {t : Tree} {ts : List Tree} {body : List UInt8}
    (h : WritesItems isFirst (t :: ts) body) (rest : List UInt8) :
    ∃ v tail, Writes t v ∧ WritesItems false ts tail ∧
      (anotherItem isFirst).run? (body ++ rest) = some (true, v ++ (tail ++ rest)) := by
  unfold anotherItem
  rw [run?_bind]
  cases h with
  | @first _ _ w v tail hw hv htail =>
    refine ⟨v, tail, hv, htail, ?_⟩
    obtain ⟨b, vs, rfl, hb⟩ := hv.exists_eq_cons
    have hvalue := startsValue_of_startsWith hb
    rw [List.append_assoc, List.append_assoc, List.cons_append,
      run?_peekToken? hw (not_isBlank_of_startsValue hvalue), Option.bind_some]
    dsimp only
    rw [if_neg (ne_of_startsValue hvalue (by decide)), if_pos rfl]
    rfl
  | @next _ _ u w v tail hu hw hv htail =>
    refine ⟨v, tail, hv, htail, ?_⟩
    obtain ⟨b, vs, rfl, hb⟩ := hv.exists_eq_cons
    have hvalue := startsValue_of_startsWith hb
    rw [List.append_assoc, List.cons_append, List.append_assoc, List.append_assoc, List.cons_append,
      run?_peekToken? hu (by decide), Option.bind_some]
    dsimp only
    rw [if_neg (by decide), if_neg Bool.false_ne_true, if_pos rfl, run?_bind, run?_advance,
      Option.bind_some, List.tail_cons, run?_bind,
      run?_peekToken? hw (not_isBlank_of_startsValue hvalue), Option.bind_some]
    dsimp only
    rw [if_neg (ne_of_startsValue hvalue (by decide))]
    rfl

/-! ## 3. Records -/

/-- What is made of a field: the record with the field as a tree says. -/
structure FieldReading (σ : Type) where
  name : String
  put? : σ → Tree → Option σ

/-- The reader of the field makes just that. -/
def FieldReading.Of (f : RecordField σ) (g : FieldReading σ) : Prop :=
  f.name = g.name ∧ ∀ state, Interprets (f.read state) (g.put? state)

section

variable (fs : List (FieldReading σ))

/-- What is made of a member, with the names of the fields that were read so far. -/
def member? : σ × List String → List TextUnit × Tree → Option (σ × List String)
  | (state, seen), (name, t) =>
    (textOf? name).bind fun text =>
      match fs.find? (·.name == text) with
      | none => some (state, seen)
      | some f => if seen.contains text then none else (f.put? state t).map (·, text :: seen)

/-- What is made of the items of a list. -/
def items? : List (FieldReading σ) → σ → List Tree → Option σ
  | _, state, [] => some state
  | [], _, _ :: _ => none
  | f :: fs, state, t :: ts => (f.put? state t).bind fun next => items? fs next ts

/-- What is made of a tree where a record is wanted. -/
def Tree.record? (start : σ) : Tree → Option σ
  | .list ts => items? fs start ts
  | .object ms => (ms.foldlM (member? fs) (start, [])).map Prod.fst
  | _ => none

variable {fs}

theorem rel_find? {rs : List (RecordField σ)} (h : List.Forall₂ FieldReading.Of rs fs)
    (text : String) :
    Option.Rel FieldReading.Of (rs.find? (·.name == text)) (fs.find? (·.name == text)) := by
  induction h with
  | nil => exact .none
  | @cons f g rs fs hfg _ ih =>
    rw [List.find?_cons, List.find?_cons, hfg.1]
    cases g.name == text with
    | true => exact .some hfg
    | false => exact ih

/-- **A member is read by its name:** skipped, read, or refused as given twice. -/
theorem run?_member {r : Record σ} (h : List.Forall₂ FieldReading.Of r.fields fs)
    (state : σ × List String) {name : List TextUnit} {t : Tree} {m rest : List UInt8}
    (hm : WritesMember name t m) (hrest : Stops rest) :
    (r.member state).run? (m ++ rest) = (member? fs state (name, t)).map (·, rest) := by
  obtain ⟨u, w, v, hu, hw, hv, hbytes⟩ := hm.exists_append_eq rest
  obtain ⟨state, seen⟩ := state
  unfold Record.member member?
  dsimp only
  rw [hbytes, run?_bind, run?_textAfterQuote]
  cases textOf? name with
  | none => rfl
  | some text =>
    simp only [Option.map_some, Option.bind_some]
    have hfind := rel_find? h text
    generalize r.fields.find? (·.name == text) = f? at hfind ⊢
    generalize fs.find? (·.name == text) = g? at hfind ⊢
    cases hfind with
    | none =>
      rw [run?_bind, run?_colon hu, Option.bind_some, run?_bind, run?_skipValue hv hw hrest]
      rfl
    | @some f g hfg =>
      dsimp only
      rw [run?_ite, run?_unfit]
      cases seen.contains text with
      | true => rfl
      | false =>
        simp only [Bool.false_eq_true, if_false, run?_bind, run?_colon hu, Option.bind_some,
          (hfg.2 state).run?_eq hv hw hrest]
        cases g.put? state t <;> rfl

/-- **The fields of a list are read in order,** as many as there are. -/
theorem run?_items {rs : List (RecordField σ)} (h : List.Forall₂ FieldReading.Of rs fs)
    {isFirst : Bool} {ts : List Tree} {body : List UInt8} (hts : WritesItems isFirst ts body)
    (state : σ) (rest : List UInt8) :
    (items rs isFirst state).run? (body ++ rest) = (items? fs state ts).map (·, rest) := by
  induction h generalizing isFirst ts body state with
  | nil =>
    unfold items
    rw [run?_bind, run?_endOfList hts]
    cases ts <;> rfl
  | @cons f g rs fs hfg _ ih =>
    unfold items
    rw [run?_bind]
    cases ts with
    | nil =>
      rw [run?_anotherItem_nil hts]
      rfl
    | cons t ts =>
      obtain ⟨v, tail, hv, htail, hitem⟩ := run?_anotherItem_cons hts rest
      rw [hitem, Option.bind_some]
      dsimp only
      rw [if_pos rfl, run?_bind, ← List.nil_append (v ++ _),
        (hfg.2 state).run?_eq hv .nil (htail.stops rest)]
      unfold items?
      cases g.put? state t with
      | none => rfl
      | some next => exact ih htail next

/-- The items of a list behind its bracket. -/
theorem Writes.items {ts : List Tree} {b : UInt8} {tail : List UInt8}
    (h : Writes (.list ts) (b :: tail)) : WritesItems true ts tail := by
  generalize hv : b :: tail = v at h
  cases h with
  | list hts =>
    cases hv
    exact hts

/-- The members of an object behind its brace. -/
theorem Writes.members {ms : List (List TextUnit × Tree)} {b : UInt8} {tail : List UInt8}
    (h : Writes (.object ms) (b :: tail)) : WritesMembers true ms tail := by
  generalize hv : b :: tail = v at h
  cases h with
  | object hms =>
    cases hv
    exact hms

/-- **The reader of a record makes of a tree what is wanted.** -/
theorem interprets_read {r : Record σ} (h : List.Forall₂ FieldReading.Of r.fields fs) (start : σ) :
    Interprets (r.read start) (Tree.record? fs start) := by
  refine interprets_valueStart fun {t b tail rest} hv hb hrest => ?_
  cases t with
  | list ts =>
    rw [if_pos (beq_iff_eq.1 hb), run?_bind, run?_advance, Option.bind_some, List.tail_cons,
      run?_items h hv.items]
    rfl
  | object ms =>
    rw [if_neg (ne_of_startsWith hb rfl), if_pos (beq_iff_eq.1 hb), run?_bind, run?_advance,
      Option.bind_some, List.tail_cons, run?_bind, members_eq,
      run?_members (fun state => run?_member h state) hv.members]
    show _ = ((ms.foldlM (member? fs) (start, [])).map Prod.fst).map (·, rest)
    cases ms.foldlM (member? fs) (start, []) <;> rfl
  | boolean value =>
    cases value <;>
      rw [if_neg (ne_of_startsWith hb rfl), if_neg (ne_of_startsWith hb rfl), run?_wrongType] <;> rfl
  | null | number | text =>
    rw [if_neg (ne_of_startsWith hb rfl), if_neg (ne_of_startsWith hb rfl), run?_wrongType]
    rfl

end

/-! ## 4. Maps -/

/-- However a key is written, the reader makes of it what the function says. -/
def InterpretsKey (p : ByteReader κ) (f : List TextUnit → Option κ) : Prop :=
  ∀ (units : List TextUnit) (rest : List UInt8),
    p.run? (unitBytes units ++ byte '"' :: rest) = (f units).map (·, rest)

section

variable [Ranked κ] (key? : List TextUnit → Option κ) (value? : Tree → Option α)

/-- One more entry of a map; a later one of the same key takes its place. -/
def entryOf? (m : SortedMap κ α) (e : List TextUnit × Tree) : Option (SortedMap κ α) :=
  (key? e.1).bind fun k => (value? e.2).map (m.insert k)

/-- What is made of a tree where a map is wanted. -/
def Tree.map? : Tree → Option (SortedMap κ α)
  | .object ms => ms.foldlM (entryOf? key? value?) {}
  | _ => none

variable {key? value?}

/-- **The reader of a map makes of a tree what is wanted.** -/
theorem interprets_mapOf {key : ByteReader κ} {value : ByteReader α}
    (hkey : InterpretsKey key key?) (hvalue : Interprets value value?) :
    Interprets (mapOf key value) (Tree.map? key? value?) := by
  refine interprets_valueStart fun {t b tail rest} hv hb hrest => ?_
  cases t with
  | object ms =>
    rw [if_pos (beq_iff_eq.1 hb), run?_bind, run?_advance, Option.bind_some, List.tail_cons,
      members_eq]
    refine run?_members (fun (m : SortedMap κ α) {name t bytes rest} hm hrest => ?_) hv.members {}
      rest
    obtain ⟨u, w, v, hu, hw, hv, hbytes⟩ := hm.exists_append_eq rest
    unfold entryOf?
    dsimp only
    rw [hbytes, run?_bind, hkey]
    cases key? name with
    | none => rfl
    | some k =>
      simp only [Option.map_some, Option.bind_some, run?_bind, run?_colon hu,
        hvalue.run?_eq hv hw hrest]
      cases value? t <;> rfl
  | boolean value => cases value <;> rw [if_neg (ne_of_startsWith hb rfl), run?_wrongType] <;> rfl
  | null | number | text | list =>
    rw [if_neg (ne_of_startsWith hb rfl), run?_wrongType]
    rfl

end

/-! ## 5. Whole texts -/

/-- **A whole text is read as its tree says.** -/
theorem toOption_readAll {p : ByteReader α} {f : Tree → Option α} (hp : Interprets p f) {t : Tree}
    {text : List UInt8} (h : IsText t text) : (readAll p text).toOption = f t := by
  obtain ⟨u, v, w, hu, hv, hw, rfl⟩ := h
  have hrun : (p.run (u ++ (v ++ w))).toOption = (f t).map (·, w) :=
    hp.run?_eq hv hu (List.append_nil w ▸ hw.stops .nil)
  have hblank : (w.dropWhile isBlank).isEmpty = true := by
    rw [← List.append_nil w, hw.dropWhile_append]
    rfl
  unfold readAll
  cases hresult : p.run (u ++ (v ++ w)) with
  | error e =>
    rw [hresult] at hrun
    exact (Option.map_eq_none_iff.1 hrun.symm).symm
  | ok r =>
    rw [hresult] at hrun
    obtain ⟨a, ha, rfl⟩ := Option.map_eq_some_iff.1 hrun.symm
    dsimp only
    rw [if_pos hblank, ha]
    rfl

end PowerShare.Json
