import PowerShare.Proofs.Settings.Tree

/-!
# Records in settings

A record that is read from a table with distinct keys has from each key what stands there, whatever
the order, and from a key that is missing the value to start from:

* `RecordFields` -- the fields of a record, told apart by an index; there is one for each of the
  four records of settings;
* `RecordFields.read_table_iff` -- what is read from a table, field by field, and
  `RecordFields.read_entries` where the table gives them all;
* `RecordFields.read_within` -- what is read after one member was changed: that field has its new
  value, and the others keep theirs, unless the record was given as a list; then they start anew, as
  the table has the changed member only.
-/

namespace PowerShare

open Setting

/-! ## 1. Members of what may be missing -/

namespace Setting

/-- The setting is there and is a list. -/
def IsListed (s? : Option Setting) : Prop := ∃ origin? items, s? = some (.list origin? items)

theorem not_isListed_table {origin? : Option String} {ms : List (String × Setting)} :
    ¬ IsListed (some (.table origin? ms)) := by
  rintro ⟨o, items, h⟩
  cases h

/-- The keys of the setting are distinct, if it is there. -/
def AllDistinct (s? : Option Setting) : Prop := ∀ s, s? = some s → s.Distinct

theorem AllDistinct.nodup {s? : Option Setting} (h : AllDistinct s?) :
    ((members s?).map (·.1)).Nodup := by
  unfold members
  split
  · rename_i ms
    exact (h _ rfl).nodup
  · exact List.nodup_nil

theorem AllDistinct.lookup {s? : Option Setting} (h : AllDistinct s?) (key : String) :
    AllDistinct ((members s?).lookup key) := by
  unfold members
  split
  · rename_i ms
    exact fun s hs => (h _ rfl).of_lookup hs
  · exact nofun

/-- A member is changed in what may be missing. -/
def within (key : String) (change : Option Setting → Setting) (s? : Option Setting) : Setting :=
  (s?.getD nothing).onTable (alterMember key change)

theorem within_eq (key : String) (change : Option Setting → Setting) (s? : Option Setting) :
    ∃ origin?, within key change s? = .table origin? (alterMember key change (members s?)) := by
  cases s? with
  | none => exact nothing.onTable_eq (alterMember key change)
  | some s => exact s.onTable_eq (alterMember key change)

theorem members_within (key : String) (change : Option Setting → Setting) (s? : Option Setting) :
    members (some (within key change s?)) = alterMember key change (members s?) := by
  obtain ⟨origin?, h⟩ := within_eq key change s?
  rw [h]
  rfl

theorem not_isListed_within {key : String} {change : Option Setting → Setting}
    {s? : Option Setting} : ¬ IsListed (some (within key change s?)) := by
  obtain ⟨origin?, h⟩ := within_eq key change s?
  rw [h]
  exact not_isListed_table

end Setting

/-! ## 2. Fields -/

/-- The fields of a record, each with its place in the record and the conversion of its setting.
Together they are the whole record. -/
structure RecordFields (ι σ : Type) where
  wanted : String
  /-- The record of which no field is given. -/
  start : σ
  all : List ι
  name : ι → String
  Value : ι → Type
  get : (i : ι) → σ → Value i
  put : (i : ι) → Value i → σ → σ
  convert : (i : ι) → Setting → Except SettingsError (Value i)
  mem_all : ∀ i, i ∈ all
  name_injective : ∀ {i j}, name i = name j → i = j
  get_put : ∀ i v r, get i (put i v r) = v
  get_put_of_ne : ∀ {i j}, i ≠ j → ∀ v r, get j (put i v r) = get j r
  ext : ∀ {r r'}, (∀ i, get i r = get i r') → r = r'

namespace RecordFields

variable {ι σ : Type} (F : RecordFields ι σ)

/-- A field as it is read. -/
def field (i : ι) : SettingField σ := ⟨F.name i, fun s r => (F.convert i s).map (F.put i · r)⟩

/-- The record that a setting gives, if there is one. -/
def read : Option Setting → Except SettingsError σ
  | none => .ok F.start
  | some s => s.toRecord F.wanted (F.all.map F.field) F.start

/-- The record has in this field what the setting says, and what the other record has if there is
no setting. -/
def Gives (i : ι) (old r : σ) : Option Setting → Prop
  | none => F.get i r = F.get i old
  | some s => F.convert i s = .ok (F.get i r)

variable {F} in
/-- A record that is a field of another is read from what that field is given. -/
theorem read_of_given {s? : Option Setting} {r : σ}
    (h : match s? with
      | none => r = F.start
      | some s => F.read (some s) = .ok r) : F.read s? = .ok r := by
  cases s? with
  | none => exact congrArg Except.ok h.symm
  | some s => exact h

theorem find?_field (i : ι) : (F.all.map F.field).find? (·.name == F.name i) = some (F.field i) := by
  rw [List.find?_map]
  cases h : F.all.find? ((·.name == F.name i) ∘ F.field) with
  | none => exact absurd (beq_self_eq_true (F.name i)) (List.find?_eq_none.1 h i (F.mem_all i))
  | some j =>
    have hname : F.name j = F.name i := by simpa [field] using List.find?_some h
    rw [F.name_injective hname]
    rfl

theorem find?_field_of_ne {key : String} (h : ∀ i, F.name i ≠ key) :
    (F.all.map F.field).find? (·.name == key) = none := by
  refine List.find?_eq_none.2 fun f hf => ?_
  obtain ⟨i, -, rfl⟩ := List.mem_map.1 hf
  exact fun hname => h i (beq_iff_eq.1 hname)

/-- A field that is given is set, and then the others are. -/
theorem setMembers_field (i : ι) (s : Setting) (rest : List (String × Setting)) (old r : σ) :
    setMembers (F.all.map F.field) ((F.name i, s) :: rest) old = .ok r ↔
      ∃ v, F.convert i s = .ok v ∧
        setMembers (F.all.map F.field) rest (F.put i v old) = .ok r := by
  rw [setMembers, F.find?_field i]
  dsimp only [field]
  cases F.convert i s with
  | error e => simp [under, Except.map, Except.mapError, bind, Except.bind]
  | ok v => simp [under, Except.map, Except.mapError, bind, Except.bind]

variable {F} in
/-- Setting another field before makes no difference. -/
theorem gives_put_of_ne {i j : ι} (h : j ≠ i) {v : F.Value i} {old r : σ} {s? : Option Setting} :
    F.Gives j (F.put i v old) r s? ↔ F.Gives j old r s? := by
  cases s? with
  | none =>
    unfold Gives
    rw [F.get_put_of_ne (Ne.symm h)]
  | some s => exact Iff.rfl

variable {F} in
/-- Nor does setting another field behind. -/
theorem gives_of_ne_put {i j : ι} (h : j ≠ i) {v : F.Value i} {old r : σ} {s? : Option Setting} :
    F.Gives j old (F.put i v r) s? ↔ F.Gives j old r s? := by
  cases s? with
  | none =>
    unfold Gives
    rw [F.get_put_of_ne (Ne.symm h)]
  | some s =>
    unfold Gives
    rw [F.get_put_of_ne (Ne.symm h)]

/-- Members one after another say of each field what stands under its name. -/
theorem setMembers_eq_ok_iff {ms : List (String × Setting)} (h : (ms.map (·.1)).Nodup) (old r : σ) :
    setMembers (F.all.map F.field) ms old = .ok r ↔
      ∀ i, F.Gives i old r (ms.lookup (F.name i)) := by
  induction ms generalizing old with
  | nil =>
    rw [setMembers]
    constructor
    · intro hr i
      rw [Except.ok.inj hr]
      exact rfl
    · exact fun hr => congrArg Except.ok (F.ext fun i => (hr i).symm)
  | cons m rest ih =>
    obtain ⟨key, s⟩ := m
    rw [List.map_cons, List.nodup_cons] at h
    by_cases hkey : ∃ i, F.name i = key
    · obtain ⟨i, rfl⟩ := hkey
      have hmissing : rest.lookup (F.name i) = none := List.lookup_eq_none_iff.2 fun m hm =>
        bne_iff_ne.2 fun hname => h.1 (List.mem_map.2 ⟨m, hm, hname.symm⟩)
      rw [F.setMembers_field]
      constructor
      · rintro ⟨v, hv, hrest⟩ j
        have hj := (ih h.2 _).1 hrest j
        rw [lookup_cons]
        by_cases hji : j = i
        · subst hji
          rw [hmissing] at hj
          rw [if_pos rfl]
          exact hv.trans (congrArg Except.ok ((F.get_put j v old).symm.trans hj.symm))
        · rw [if_neg fun hname => hji (F.name_injective hname)]
          exact (gives_put_of_ne hji).1 hj
      · intro hall
        have hi := hall i
        rw [lookup_cons, if_pos rfl] at hi
        refine ⟨F.get i r, hi, (ih h.2 _).2 fun j => ?_⟩
        by_cases hji : j = i
        · subst hji
          rw [hmissing]
          exact (F.get_put j _ old).symm
        · have hj := hall j
          rw [lookup_cons, if_neg fun hname => hji (F.name_injective hname)] at hj
          exact (gives_put_of_ne hji).2 hj
    · have hne : ∀ i, F.name i ≠ key := fun i hi => hkey ⟨i, hi⟩
      rw [setMembers, F.find?_field_of_ne hne]
      simp only [lookup_cons, hne, if_false]
      exact ih h.2 old

/-- **What is read from a table, field by field.** -/
theorem read_table_iff {origin? : Option String} {ms : List (String × Setting)}
    (h : (ms.map (·.1)).Nodup) (r : σ) :
    F.read (some (.table origin? ms)) = .ok r ↔
      ∀ i, F.Gives i F.start r (ms.lookup (F.name i)) :=
  F.setMembers_eq_ok_iff h F.start r

/-- A value under the name of every field. -/
def entries {α : Type} (value : ι → α) : List (String × α) := F.all.map fun i => (F.name i, value i)

theorem nodup_entries (hall : F.all.Nodup) {α : Type} (value : ι → α) :
    ((F.entries value).map (·.1)).Nodup := by
  unfold entries
  rw [List.map_map]
  exact hall.map fun _ _ hname => F.name_injective hname

theorem lookup_entries (value : ι → Setting) (j : ι) :
    (F.entries value).lookup (F.name j) = some (value j) := by
  have hlookup (is : List ι) (hj : j ∈ is) :
      (is.map fun i => (F.name i, value i)).lookup (F.name j) = some (value j) := by
    induction is with
    | nil => cases hj
    | cons i is ih =>
      rw [List.map_cons, lookup_cons]
      by_cases hji : j = i
      · rw [hji, if_pos rfl]
      · rw [if_neg fun hname => hji (F.name_injective hname)]
        exact ih ((List.mem_cons.1 hj).resolve_left hji)
  exact hlookup F.all (F.mem_all j)

/-- **A table that gives every field is read as the record with these values.** -/
theorem read_entries (origin? : Option String) (hall : F.all.Nodup) {value : ι → Setting} {r : σ}
    (h : ∀ i, F.convert i (value i) = .ok (F.get i r)) :
    F.read (some (.table origin? (F.entries value))) = .ok r := by
  refine (F.read_table_iff (F.nodup_entries hall value) r).2 fun j => ?_
  rw [F.lookup_entries value j]
  exact h j

/-- Fields are put where nothing was one by one. -/
theorem putsAs_entries (origin? : Option String) (hall : F.all.Nodup) {value value' : ι → Setting}
    (h : ∀ i, PutsAs (value i) (value' i)) :
    PutsAs (.table origin? (F.entries value)) (.table none (F.entries value')) := by
  refine putsAs_table origin? ?_ (F.nodup_entries hall value)
  unfold entries
  rw [List.forall₂_map_left_iff, List.forall₂_map_right_iff, List.forall₂_same]
  exact fun i _ => ⟨rfl, h i⟩

/-- The record that stays when a table takes the place of a list. -/
def kept : Option Setting → σ → σ
  | some (.list _ _), _ => F.start
  | _, r => r

variable {F} {s? : Option Setting} {r : σ}

theorem kept_of_isListed (h : IsListed s?) : F.kept s? r = F.start := by
  obtain ⟨o, items, rfl⟩ := h
  rfl

theorem kept_of_not_isListed (h : ¬ IsListed s?) : F.kept s? r = r := by
  unfold kept
  split
  · exact absurd ⟨_, _, rfl⟩ h
  · rfl

/-- The members of what was read say what is kept of it. -/
theorem gives_of_read (hs : AllDistinct s?) (h : F.read s? = .ok r) (i : ι) :
    F.Gives i F.start (F.kept s? r) ((members s?).lookup (F.name i)) := by
  match s? with
  | none =>
    cases h
    exact rfl
  | some (.scalar o v) => cases h
  | some (.list o items) => exact rfl
  | some (.table o ms) => exact (F.read_table_iff (hs _ rfl).nodup r).1 h i

/-- **What is read after one member was changed.** -/
theorem read_within (hs : AllDistinct s?) (h : F.read s? = .ok r) (i : ι)
    (change : Option Setting → Setting) {v : F.Value i}
    (hv : F.convert i (change ((members s?).lookup (F.name i))) = .ok v) :
    F.read (some (within (F.name i) change s?)) = .ok (F.put i v (F.kept s? r)) := by
  obtain ⟨origin?, hwithin⟩ := within_eq (F.name i) change s?
  rw [hwithin, F.read_table_iff (nodup_alterMember hs.nodup)]
  intro j
  rw [lookup_alterMember]
  by_cases hji : j = i
  · subst hji
    rw [if_pos rfl]
    exact hv.trans (congrArg Except.ok (F.get_put j v _).symm)
  · rw [if_neg fun hname => hji (F.name_injective hname)]
    exact (gives_of_ne_put hji).2 (gives_of_read hs h j)

end RecordFields

/-! ## 3. The records of settings -/

/-- A flag among the options. -/
inductive Flag where
  | breakdown
  | forceEstimate
  deriving DecidableEq

namespace Options

def flag (o : Options) : Flag → Bool
  | .breakdown => o.breakdown
  | .forceEstimate => o.forceEstimate

def set (o : Options) (f : Flag) (b : Bool) : Options :=
  match f with
  | .breakdown => { o with breakdown := b }
  | .forceEstimate => { o with forceEstimate := b }

theorem flag_set (o : Options) (f g : Flag) (b : Bool) :
    (o.set f b).flag g = if g = f then b else o.flag g := by
  cases f <;> cases g <;> rfl

theorem ext_flag {o o' : Options} (h : ∀ f, o.flag f = o'.flag f) : o = o' := by
  obtain ⟨b, e⟩ := o
  obtain ⟨b', e'⟩ := o'
  cases h .breakdown
  cases h .forceEstimate
  rfl

end Options

namespace Currents

def current (c : Currents) : Mode → Binary64
  | .idle => c.idle
  | .rx => c.rx
  | .tx => c.tx

def set (c : Currents) (mode : Mode) (x : Binary64) : Currents :=
  match mode with
  | .idle => { c with idle := x }
  | .rx => { c with rx := x }
  | .tx => { c with tx := x }

theorem current_set (c : Currents) (m n : Mode) (x : Binary64) :
    (c.set m x).current n = if n = m then x else c.current n := by
  cases m <;> cases n <;> rfl

theorem ext_current {c c' : Currents} (h : ∀ m, c.current m = c'.current m) : c = c' := by
  obtain ⟨i, r, t⟩ := c
  obtain ⟨i', r', t'⟩ := c'
  cases h .idle
  cases h .rx
  cases h .tx
  rfl

end Currents

theorem Profile.ext_currents {p p' : Profile} (h : ∀ c, p.currents c = p'.currents c) : p = p' := by
  obtain ⟨b, w, m⟩ := p
  obtain ⟨b', w', m'⟩ := p'
  cases h .bluetooth
  cases h .wifi
  cases h .modem
  rfl

/-- The flags of options. -/
def optionRecord : RecordFields Flag Options where
  wanted := "struct AttributionOptions"
  start := {}
  all := [.breakdown, .forceEstimate]
  name
    | .breakdown => "per_state_breakdown"
    | .forceEstimate => "force_profile_model"
  Value _ := Bool
  get f o := o.flag f
  put f b o := o.set f b
  convert _ := toBool
  mem_all f := by cases f <;> decide
  name_injective {f g} h := by cases f <;> cases g <;> first | rfl | exact absurd h (by decide)
  get_put f b o := (o.flag_set f f b).trans (if_pos rfl)
  get_put_of_ne {f g} h b o := (o.flag_set f g b).trans (if_neg (Ne.symm h))
  ext := Options.ext_flag

/-- The currents of a component, by mode. -/
def currentRecord : RecordFields Mode Currents where
  wanted := "struct ControllerConstants"
  start := {}
  all := [.idle, .rx, .tx]
  name
    | .idle => "idle_ma"
    | .rx => "rx_ma"
    | .tx => "tx_ma"
  Value _ := Binary64
  get m c := c.current m
  put m x c := c.set m x
  convert _ := toBinary64
  mem_all m := by cases m <;> decide
  name_injective {m n} h := by cases m <;> cases n <;> first | rfl | exact absurd h (by decide)
  get_put m x c := (c.current_set m m x).trans (if_pos rfl)
  get_put_of_ne {m n} h x c := (c.current_set m n x).trans (if_neg (Ne.symm h))
  ext := Currents.ext_current

/-- The currents of a profile, by component. -/
def profileRecord : RecordFields Component Profile where
  wanted := "struct PowerProfile"
  start := {}
  all := Component.all
  name := Component.name
  Value _ := Currents
  get c p := p.currents c
  put c currents p := p.set c currents
  convert _ s := currentRecord.read (some s)
  mem_all c := by cases c <;> decide
  name_injective {c d} h := by cases c <;> cases d <;> first | rfl | exact absurd h (by decide)
  get_put c currents p := (p.currents_set c c currents).trans (if_pos rfl)
  get_put_of_ne {c d} h currents p := (p.currents_set d c currents).trans (if_neg (Ne.symm h))
  ext := Profile.ext_currents

/-- A part of the settings. -/
inductive Part where
  | options
  | profile
  | system
  deriving DecidableEq

/-- What a part of the settings is. -/
def Part.Value : Part → Type
  | options => Options
  | profile => Profile
  | system => List Consumer

/-- The parts of the settings. -/
def settingsRecord : RecordFields Part Settings where
  wanted := "struct EngineConfig"
  start := {}
  all := [.options, .profile, .system]
  name
    | .options => "options"
    | .profile => "profile"
    | .system => "system_consumers"
  Value := Part.Value
  get
    | .options, t => t.options
    | .profile, t => t.profile
    | .system, t => t.system
  put
    | .options, o, t => { t with options := o }
    | .profile, p, t => { t with profile := p }
    | .system, cs, t => { t with system := cs }
  convert
    | .options, s => optionRecord.read (some s)
    | .profile, s => profileRecord.read (some s)
    | .system, s => s.toList Setting.toConsumer
  mem_all p := by cases p <;> decide
  name_injective {p q} h := by cases p <;> cases q <;> first | rfl | exact absurd h (by decide)
  get_put p _ _ := by cases p <;> rfl
  get_put_of_ne {p q} h _ _ := by cases p <;> cases q <;> first | rfl | exact absurd rfl h
  ext {t t'} h := by
    obtain ⟨o, p, cs⟩ := t
    obtain ⟨o', p', cs'⟩ := t'
    cases h .options
    cases h .profile
    cases h .system
    rfl

/-- **The settings of a tree are its record.** -/
theorem read_settingsRecord (root : Setting) :
    settingsRecord.read (some root) = Settings.ofTree root := rfl

end PowerShare
