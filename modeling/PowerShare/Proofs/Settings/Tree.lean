import Mathlib.Data.List.Forall2
import Mathlib.Data.List.Nodup
import PowerShare.Settings

/-!
# Keys of settings

In a tree that was made by setting values, no table gives a key twice, as long as one comes to it
through tables only:

* `Setting.lookup_alterMember` -- changing the member of one key leaves those of all others;
* `Setting.Distinct` -- no key is given twice, and `Setting.distinct_setAt`: that stays so, whatever
  is set at whatever path;
* `Setting.PutsAs` -- what a value becomes where nothing was, and `Setting.putsAs_table`: a table
  comes member by member;
* `Settings.isSound_treeOfFile` -- so the settings of a file are a table with distinct keys.
-/

namespace PowerShare

namespace Setting

/-! ## 1. Members -/

/-- The members of a table; what is no table, or is missing, has none. -/
def members : Option Setting → List (String × Setting)
  | some (.table _ ms) => ms
  | _ => []

/-- What is changed as a table is a table of the changed members. -/
theorem onTable_eq (s : Setting) (change : List (String × Setting) → List (String × Setting)) :
    ∃ origin?, s.onTable change = .table origin? (change (members (some s))) := by
  cases s <;> exact ⟨_, rfl⟩

variable {key : String} {change : Option Setting → Setting} {ms : List (String × Setting)}

theorem lookup_cons (k first : String) (s : Setting) :
    ((first, s) :: ms).lookup k = if k = first then some s else ms.lookup k := by
  rw [List.lookup_cons]
  by_cases h : k = first
  · rw [if_pos h, beq_iff_eq.2 h]
  · rw [if_neg h, beq_eq_false_iff_ne.2 h]

theorem lookup_alterMember (k : String) :
    (alterMember key change ms).lookup k =
      if k = key then some (change (ms.lookup key)) else ms.lookup k := by
  induction ms with
  | nil => exact lookup_cons k key _
  | cons m rest ih =>
    obtain ⟨first, s⟩ := m
    unfold alterMember
    by_cases hfirst : first = key
    · subst hfirst
      rw [if_pos (beq_self_eq_true first), lookup_cons, lookup_cons, lookup_cons, if_pos rfl]
      split <;> rfl
    · rw [if_neg (by simpa using hfirst), lookup_cons, lookup_cons, lookup_cons, ih,
        if_neg (Ne.symm hfirst)]
      by_cases h : k = first
      · rw [if_pos h, if_pos h, if_neg (h ▸ hfirst)]
      · rw [if_neg h, if_neg h]

theorem mem_alterMember {m : String × Setting} (h : m ∈ alterMember key change ms) :
    m.1 = key ∧ (∃ old?, (∀ s, old? = some s → (key, s) ∈ ms) ∧ m.2 = change old?) ∨
      m ∈ ms := by
  induction ms with
  | nil =>
    rw [alterMember, List.mem_singleton] at h
    rw [h]
    exact .inl ⟨rfl, none, nofun, rfl⟩
  | cons first rest ih =>
    unfold alterMember at h
    split at h
    · rename_i hfirst
      rcases List.mem_cons.1 h with rfl | h
      · refine .inl ⟨beq_iff_eq.1 hfirst, some first.2, fun s hs => ?_, rfl⟩
        rw [← beq_iff_eq.1 hfirst, ← Option.some.inj hs]
        exact List.mem_cons_self
      · exact .inr (List.mem_cons_of_mem first h)
    · rcases List.mem_cons.1 h with rfl | h
      · exact .inr List.mem_cons_self
      · rcases ih h with ⟨hkey, old?, hold, hm⟩ | h
        · exact .inl ⟨hkey, old?, fun s hs => List.mem_cons_of_mem first (hold s hs), hm⟩
        · exact .inr (List.mem_cons_of_mem first h)

theorem nodup_alterMember (h : (ms.map (·.1)).Nodup) :
    ((alterMember key change ms).map (·.1)).Nodup := by
  induction ms with
  | nil => exact List.nodup_singleton key
  | cons first rest ih =>
    rw [List.map_cons, List.nodup_cons] at h
    unfold alterMember
    split
    · exact List.nodup_cons.2 h
    · rename_i hfirst
      refine List.nodup_cons.2 ⟨fun hmem => ?_, ih h.2⟩
      obtain ⟨m, hm, hname⟩ := List.mem_map.1 hmem
      rcases mem_alterMember hm with ⟨hkey, -⟩ | hm
      · exact hfirst (beq_iff_eq.2 (hname.symm.trans hkey))
      · exact h.1 (List.mem_map.2 ⟨m, hm, hname⟩)

/-! ## 2. Distinct keys -/

/-- No table that one comes to through tables gives a key twice. -/
inductive Distinct : Setting → Prop where
  | scalar (origin? : Option String) (value : Scalar) : Distinct (.scalar origin? value)
  | list (origin? : Option String) (items : List Setting) : Distinct (.list origin? items)
  | table (origin? : Option String) {ms : List (String × Setting)}
      (nodup : (ms.map (·.1)).Nodup) (inner : ∀ m ∈ ms, Distinct m.2) :
      Distinct (.table origin? ms)

variable {s : Setting}

theorem distinct_empty (origin? : Option String) : Distinct (.table origin? []) :=
  .table origin? List.nodup_nil fun _ hm => absurd hm List.not_mem_nil

theorem Distinct.nodup {origin? : Option String} (h : Distinct (.table origin? ms)) :
    (ms.map (·.1)).Nodup := by
  cases h with
  | table _ nodup => exact nodup

theorem Distinct.inner {origin? : Option String} (h : Distinct (.table origin? ms)) :
    ∀ m ∈ ms, Distinct m.2 := by
  cases h with
  | table _ _ inner => exact inner

theorem Distinct.of_lookup {origin? : Option String} (h : Distinct (.table origin? ms))
    (hs : ms.lookup key = some s) : s.Distinct := by
  obtain ⟨before, after, rfl, -⟩ := List.lookup_eq_some_iff.1 hs
  exact h.inner (key, s) (List.mem_append_right before List.mem_cons_self)

/-- Changing one member, which gets distinct keys too. -/
theorem Distinct.onTable (h : s.Distinct)
    (hchange : ∀ old?, (∀ s, old? = some s → s.Distinct) → (change old?).Distinct) :
    (s.onTable (alterMember key change)).Distinct := by
  have halter {origin? : Option String} {ms : List (String × Setting)}
      (hm : Distinct (.table origin? ms)) (o : Option String) :
      Distinct (.table o (alterMember key change ms)) := by
    refine .table o (nodup_alterMember hm.nodup) fun m hmem => ?_
    rcases mem_alterMember hmem with ⟨-, old?, hold, hnew⟩ | hmem
    · rw [hnew]
      exact hchange old? fun s hs => hm.inner (key, s) (hold s hs)
    · exact hm.inner m hmem
  cases s with
  | scalar => exact halter (distinct_empty none) none
  | list => exact halter (distinct_empty none) none
  | table origin? ms => exact halter h origin?

theorem distinct_getD {old? : Option Setting} {default : Setting} (hdefault : default.Distinct)
    (h : ∀ s, old? = some s → s.Distinct) : (old?.getD default).Distinct := by
  cases old? with
  | none => exact hdefault
  | some s => exact h s rfl

mutual

theorem distinct_put : ∀ (value : Setting) {parent : Setting} (key : String), parent.Distinct →
    (parent.put key value).Distinct
  | .table _ ms, _, _, h => by
    unfold put
    exact h.onTable fun _ hold =>
      distinct_putAll ms (distinct_getD (distinct_empty none) hold)
  | .scalar o v, _, _, h => by
    unfold put
    exact h.onTable fun _ _ => .scalar o v
  | .list o items, _, _, h => by
    unfold put
    exact h.onTable fun _ _ => .list o items

theorem distinct_putAll : ∀ (ms : List (String × Setting)) {parent : Setting},
    parent.Distinct → (parent.putAll ms).Distinct
  | [], _, h => by
    unfold putAll
    exact h
  | (key, value) :: rest, _, h => by
    unfold putAll
    exact distinct_putAll rest (distinct_put value key h)

end

/-- **Whatever is set at whatever path, no key is given twice.** -/
theorem distinct_setAt (value : Setting) (rest : List Step) (step : Step) {parent : Setting}
    (h : parent.Distinct) : (setAt value step rest parent).Distinct := by
  induction rest generalizing step parent with
  | nil =>
    cases step with
    | name key => exact distinct_put value key h
    | item index => cases parent <;> exact .list _ _
  | cons next rest ih =>
    cases step with
    | name key => exact h.onTable fun _ hold => ih next (distinct_getD (.scalar _ _) hold)
    | item index => cases parent <;> exact .list _ _

/-! ## 3. Values where nothing was -/

theorem alterMember_of_not_mem (h : key ∉ ms.map (·.1)) :
    alterMember key change ms = ms ++ [(key, change none)] := by
  induction ms with
  | nil => rfl
  | cons m ms ih =>
    rw [List.map_cons, List.mem_cons, not_or] at h
    rw [alterMember, if_neg fun heq => h.1 (beq_iff_eq.1 heq).symm, ih h.2]
    rfl

/-- Put under a new key, the value stands behind the other members as the second one. -/
def PutsAs (value value' : Setting) : Prop :=
  ∀ (origin? : Option String) (ms : List (String × Setting)) (key : String),
    key ∉ ms.map (·.1) →
    (Setting.table origin? ms).put key value = .table origin? (ms ++ [(key, value')])

theorem putsAs_scalar (origin? : Option String) (v : Scalar) :
    PutsAs (.scalar origin? v) (.scalar origin? v) := by
  intro _ ms key hnew
  unfold put
  exact congrArg (Setting.table _) (alterMember_of_not_mem hnew)

/-- Members with new keys are put one behind another. -/
theorem putAll_of_putsAs {ms ms' : List (String × Setting)}
    (h : List.Forall₂ (fun m m' => m.1 = m'.1 ∧ PutsAs m.2 m'.2) ms ms') {origin? : Option String}
    {done : List (String × Setting)} (hkeys : (done.map (·.1) ++ ms.map (·.1)).Nodup) :
    (Setting.table origin? done).putAll ms = .table origin? (done ++ ms') := by
  induction h generalizing done with
  | nil =>
    rw [List.append_nil]
    unfold putAll
    rfl
  | @cons m m' ms ms' hm _ ih =>
    obtain ⟨key, value⟩ := m
    obtain ⟨key', value'⟩ := m'
    obtain ⟨rfl, hput⟩ := hm
    have hnew : key ∉ done.map (·.1) := fun hmem =>
      List.disjoint_of_nodup_append hkeys hmem List.mem_cons_self
    have hrest : ((done ++ [(key, value')]).map (·.1) ++ ms.map (·.1)).Nodup := by
      rw [List.map_append, List.append_assoc]
      exact hkeys
    unfold putAll
    rw [hput _ _ _ hnew, ih hrest, List.append_assoc]
    rfl

/-- **A table with distinct keys is put as the table of what its members are put as.** -/
theorem putsAs_table (origin? : Option String) {ms ms' : List (String × Setting)}
    (h : List.Forall₂ (fun m m' => m.1 = m'.1 ∧ PutsAs m.2 m'.2) ms ms')
    (hkeys : (ms.map (·.1)).Nodup) : PutsAs (.table origin? ms) (.table none ms') := by
  intro _ others key hnew
  unfold put
  refine congrArg (Setting.table _) ((alterMember_of_not_mem hnew).trans ?_)
  exact congrArg (fun s => others ++ [(key, s)]) (putAll_of_putsAs h hkeys)

/-! ## 4. Sources -/

theorem name_stepsOfKey (k : List Char) : ∃ name rest, stepsOfKey k = (.name name, rest) := by
  unfold stepsOfKey stepsOf? nameAt?
  dsimp only
  split
  · exact ⟨_, _, rfl⟩
  · rw [Option.bind_eq_bind, Option.bind_some]
    cases furtherSteps? _ _ with
    | none => exact ⟨_, _, rfl⟩
    | some rest => exact ⟨_, rest, rfl⟩

/-- What a value is set in is a table, as keys begin with a name. -/
theorem assign_eq_table (root : Setting) (k : List Char) (value : Setting) :
    ∃ origin? ms, root.assign k value = .table origin? ms := by
  have htable (change : List (String × Setting) → List (String × Setting)) :
      ∃ origin? ms, root.onTable change = .table origin? ms := by
    obtain ⟨origin?, h⟩ := root.onTable_eq change
    exact ⟨origin?, _, h⟩
  obtain ⟨name, rest, hsteps⟩ := name_stepsOfKey k
  unfold assign
  rw [hsteps]
  cases rest with
  | nil => cases value <;> (unfold setAt put; exact htable _)
  | cons step rest => exact htable _

end Setting

namespace Settings

open Setting

/-- A table with distinct keys. -/
def IsSound (root : Setting) : Prop :=
  root.Distinct ∧ ∃ origin? ms, root = .table origin? ms

theorem isSound_assign {root : Setting} (h : root.Distinct) (k : List Char) (value : Setting) :
    IsSound (root.assign k value) := by
  refine ⟨?_, assign_eq_table root k value⟩
  unfold assign
  exact distinct_setAt value _ _ h

theorem isSound_foldl_assign (entries : List (String × Toml.Value)) (origin : String)
    {root : Setting} (h : IsSound root) :
    IsSound (entries.foldl (fun root m => root.assign m.1.toList (ofToml origin m.2)) root) := by
  induction entries generalizing root with
  | nil => exact h
  | cons m rest ih => exact ih (isSound_assign h.1 _ _)

/-- **The settings of a file are a table with distinct keys.** -/
theorem isSound_treeOfFile {folder : Folder} {path : String} {root : Setting}
    (h : treeOfFile folder path = .ok root) : IsSound root := by
  have hempty : IsSound emptyTable := ⟨distinct_empty none, none, [], rfl⟩
  unfold treeOfFile at h
  cases hfind : find folder path with
  | error e =>
    rw [hfind] at h
    cases h
  | ok found =>
    simp only [hfind, bind, Except.bind] at h
    split at h
    · unfold treeOfText at h
      split at h
      · rw [← Except.ok.inj h]
        exact isSound_foldl_assign _ _ hempty
      · rw [← Except.ok.inj h]
        exact hempty
      · cases h
    · cases h

end Settings

end PowerShare
