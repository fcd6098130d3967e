import PowerShare.Proofs.Settings.Leaves

/-!
# Settings of a file with variables laid over them

An environment in which variables name leaves changes just these leaves of what a file says,
whatever the order, and what comes out is checked as if it had stood in the file:

* `Settings.LaidOver` -- what is said of each leaf;
* `Settings.exists_laidOver` -- there are such settings, from one lemma for a single variable;
* `Settings.checked_eq` -- the check of a profile names the first current that is not valid;
* `Settings.load_laidOver` -- **what is loaded from a file and an environment.**

The exception are records that the file gives as lists. Where a variable names a leaf of one, the
list as a whole gives way (`Settings.GivesWay`).
-/

namespace PowerShare

open Setting

/-! ## 1. One variable -/

/-- The text of a variable is read as the value it gives its leaf. -/
theorem Leaf.converts_of_value? {l : Leaf} {text : String} {v : LeafValue}
    (h : l.value? text = some v) (origin? : Option String) :
    l.Converts (.scalar origin? (Settings.variableValue text)) v := by
  unfold value? at h
  split at h
  · cases h
    exact rfl
  · cases h
    exact rfl
  · cases h
  · obtain ⟨x, hx, rfl⟩ := Option.map_eq_some_iff.1 h
    exact Settings.toBinary64_variableValue hx origin?

namespace Settings

variable {root : Setting} {t merged : Settings} {environment : Environment}

/-- The tree in which a variable set a leaf. -/
def withVariable (root : Setting) (l : Leaf) (text : String) : Setting :=
  setNames (.scalar (some environmentName) (variableValue text)) l.path (some root)

/-- A variable that names a leaf sets it, and the others follow. -/
theorem withEnvironment_leaf (root : Setting) (l : Leaf) (text : String) (rest : Environment) :
    withEnvironment root ((l.variableName, text) :: rest) =
        withEnvironment (withVariable root l text) rest ∧
      (root.Distinct → IsSound (withVariable root l text)) := by
  obtain ⟨key, hkey, first, names, hpath, hsteps⟩ := l.variableKey?_variableName
  have hassign : root.assign key (.scalar (some environmentName) (variableValue text)) =
      withVariable root l text := by
    unfold assign withVariable
    rw [hsteps, hpath]
    exact setAt_names (some environmentName) (variableValue text) names first (some root)
  constructor
  · unfold withEnvironment
    rw [List.foldl_cons, hkey]
    exact congrArg (List.foldl _ · rest) hassign
  · intro hroot
    rw [← hassign]
    exact isSound_assign hroot key _

/-- A variable that holds no setting is passed over. -/
theorem withEnvironment_other {name : String} (h : variableKey? name = none) (root : Setting)
    (text : String) (rest : Environment) :
    withEnvironment root ((name, text) :: rest) = withEnvironment root rest := by
  unfold withEnvironment
  rw [List.foldl_cons, h]

/-! ## 2. Many variables -/

/-- The environment has a variable that names the leaf. -/
def IsNamed (environment : Environment) (l : Leaf) : Prop :=
  ∃ text, (l.variableName, text) ∈ environment

/-- The variables of the environment name leaves and give each a value of its kind, or they hold no
settings. No name is there twice. -/
structure NamesLeaves (environment : Environment) : Prop where
  leaves : ∀ v ∈ environment, variableKey? v.1 = none ∨
    ∃ l : Leaf, v.1 = l.variableName ∧ (l.value? v.2).isSome = true
  distinct : (environment.map (·.1)).Nodup

theorem NamesLeaves.perm {other : Environment} (h : NamesLeaves environment)
    (hperm : environment.Perm other) : NamesLeaves other where
  leaves v hv := h.leaves v (hperm.mem_iff.2 hv)
  distinct := (hperm.map (·.1)).nodup_iff.1 h.distinct

/-- The leaf stands in a list from which a variable names a leaf. -/
def GivesWay (root : Setting) (environment : Environment) (l : Leaf) : Prop :=
  ∃ named, IsNamed environment named ∧ Displaces root named l

/-- The settings of a tree with the variables laid over them: the named leaves have the values of
their variables and all others what they had, but those in a list that gives way have what missing
ones have. -/
structure LaidOver (root : Setting) (t : Settings) (environment : Environment) (merged : Settings) :
    Prop where
  named : ∀ (l : Leaf) text, (l.variableName, text) ∈ environment →
    l.value? text = some (merged.leaf l)
  others : ∀ l, ¬ IsNamed environment l → ¬ GivesWay root environment l →
    merged.leaf l = t.leaf l
  listed : ∀ l, ¬ IsNamed environment l → GivesWay root environment l →
    merged.leaf l = ({} : Settings).leaf l
  system : merged.system = t.system

theorem IsNamed.cons {entry : String × String} {l : Leaf} (h : IsNamed environment l) :
    IsNamed (entry :: environment) l := by
  obtain ⟨text, hmem⟩ := h
  exact ⟨text, List.mem_cons_of_mem entry hmem⟩

theorem isNamed_leaf_iff {l other : Leaf} {text : String} :
    IsNamed ((l.variableName, text) :: environment) other ↔
      other = l ∨ IsNamed environment other := by
  constructor
  · rintro ⟨text', hmem⟩
    rcases List.mem_cons.1 hmem with heq | hmem
    · exact .inl (Leaf.variableName_injective (Prod.mk.inj heq).1)
    · exact .inr ⟨text', hmem⟩
  · rintro (rfl | h)
    · exact ⟨text, List.mem_cons_self⟩
    · exact h.cons

/-- A variable that holds no setting names no leaf. -/
theorem ne_variableName {name : String} (h : variableKey? name = none) (l : Leaf) :
    l.variableName ≠ name := by
  rintro rfl
  obtain ⟨key, hkey, -⟩ := l.variableKey?_variableName
  rw [h] at hkey
  cases hkey

theorem isNamed_other_iff {name text : String} (h : variableKey? name = none) {l : Leaf} :
    IsNamed ((name, text) :: environment) l ↔ IsNamed environment l := by
  constructor
  · rintro ⟨text', hmem⟩
    rcases List.mem_cons.1 hmem with heq | hmem
    · exact absurd (Prod.mk.inj heq).1 (ne_variableName h l)
    · exact ⟨text', hmem⟩
  · exact IsNamed.cons

/-- Variables that hold no settings make no difference. -/
theorem LaidOver.other {name text : String} (h : LaidOver root t environment merged)
    (hname : variableKey? name = none) : LaidOver root t ((name, text) :: environment) merged where
  named l text' hmem := by
    rcases List.mem_cons.1 hmem with heq | hmem
    · exact absurd (Prod.mk.inj heq).1 (ne_variableName hname l)
    · exact h.named l text' hmem
  others l hl hway := by
    rw [isNamed_other_iff hname] at hl
    refine h.others l hl fun ⟨named, hnamed, hlist⟩ => hway ⟨named, hnamed.cons, hlist⟩
  listed l hl hway := by
    rw [isNamed_other_iff hname] at hl
    obtain ⟨named, hnamed, hlist⟩ := hway
    exact h.listed l hl ⟨named, (isNamed_other_iff hname).1 hnamed, hlist⟩
  system := h.system

/-- Lists in which a leaf was set are no longer there, and other lists are the same. -/
theorem displaces_withVariable_iff {l named other : Leaf} {text : String} :
    Displaces (withVariable root l text) named other ↔
      ∃ record ∈ other.records, record ∈ named.records ∧ record ∉ l.records ∧
        IsListed (at? (some root) record) := by
  constructor
  · rintro ⟨record, hother, hnamed, hlisted⟩
    have hl : record ∉ l.records := fun hl => not_isListed_setNames hl hlisted
    unfold withVariable at hlisted
    rw [at?_setNames_of_not_mem hother hl] at hlisted
    exact ⟨record, hother, hnamed, hl, hlisted⟩
  · rintro ⟨record, hother, hnamed, hl, hlisted⟩
    refine ⟨record, hother, hnamed, ?_⟩
    unfold withVariable
    rw [at?_setNames_of_not_mem hother hl]
    exact hlisted

/-- **One variable more.** What is laid over the settings in which it set its leaf is laid over the
settings from before. -/
theorem LaidOver.leaf {l : Leaf} {text : String} {v : LeafValue}
    (h : LaidOver (withVariable root l text) (overlay root t l v) environment merged)
    (hv : l.value? text = some v) (hl : ¬ IsNamed environment l) :
    LaidOver root t ((l.variableName, text) :: environment) merged := by
  have hconverts := Leaf.converts_of_value? hv none
  have hstays : ¬ GivesWay (withVariable root l text) environment l := by
    rintro ⟨named, -, hlist⟩
    obtain ⟨record, hother, -, hnot, -⟩ := displaces_withVariable_iff.1 hlist
    exact hnot hother
  constructor
  case named =>
    intro other text' hmem
    rcases List.mem_cons.1 hmem with heq | hmem
    · obtain ⟨hname, rfl⟩ := Prod.mk.inj heq
      obtain rfl := Leaf.variableName_injective hname
      rw [h.others other hl hstays, leaf_overlay_self hconverts]
      exact hv
    · exact h.named other text' hmem
  case others =>
    intro other hother hway
    rw [isNamed_leaf_iff, not_or] at hother
    have hnot : ¬ Displaces root l other := fun hlist =>
      hway ⟨l, isNamed_leaf_iff.2 (.inl rfl), hlist⟩
    rw [h.others other hother.2, leaf_overlay_of_not_displaces hother.1 hnot]
    rintro ⟨named, hnamed, hlist⟩
    obtain ⟨record, hrecord, hshared, -, hlisted⟩ := displaces_withVariable_iff.1 hlist
    exact hway ⟨named, hnamed.cons, record, hrecord, hshared, hlisted⟩
  case listed =>
    intro other hother hway
    rw [isNamed_leaf_iff, not_or] at hother
    obtain ⟨named, hnamed, record, hrecord, hshared, hlisted⟩ := hway
    by_cases hl' : record ∈ l.records
    · -- The list went with the first variable, and what missing leaves have is what they keep.
      have hdefault : (overlay root t l v).leaf other = ({} : Settings).leaf other :=
        leaf_overlay_of_displaces hother.1 hconverts ⟨record, hrecord, hl', hlisted⟩
      by_cases hrest : GivesWay (withVariable root l text) environment other
      · exact h.listed other hother.2 hrest
      · exact (h.others other hother.2 hrest).trans hdefault
    · have hrest : IsNamed environment named := by
        refine (isNamed_leaf_iff.1 hnamed).resolve_left fun heq => hl' ?_
        rw [← heq]
        exact hshared
      exact h.listed other hother.2 ⟨named, hrest,
        displaces_withVariable_iff.2 ⟨record, hrecord, hshared, hl', hlisted⟩⟩
  case system => exact h.system.trans system_overlay

/-- **Variables laid over the settings of a tree.** -/
theorem exists_laidOver (hroot : IsSound root) (ht : ofTree root = .ok t)
    (h : NamesLeaves environment) :
    ∃ merged, ofTree (withEnvironment root environment) = .ok merged ∧
      LaidOver root t environment merged := by
  -- On the variables, for whatever tree the first of them leaves.
  induction environment generalizing root t with
  | nil =>
    refine ⟨t, ht, ⟨fun l text hmem => absurd hmem List.not_mem_nil, fun l _ _ => rfl, ?_, rfl⟩⟩
    rintro l - ⟨named, ⟨text, hmem⟩, -⟩
    exact absurd hmem List.not_mem_nil
  | cons entry rest ih =>
    obtain ⟨name, text⟩ := entry
    have hdistinct := List.nodup_cons.1 h.distinct
    have hrest : NamesLeaves rest :=
      ⟨fun v hv => h.leaves v (List.mem_cons_of_mem _ hv), hdistinct.2⟩
    rcases h.leaves (name, text) List.mem_cons_self with hother | ⟨l, hname, hvalue⟩
    · rw [withEnvironment_other hother]
      obtain ⟨merged, hmerged, hlaid⟩ := ih hroot ht hrest
      exact ⟨merged, hmerged, hlaid.other hother⟩
    · obtain rfl : name = l.variableName := hname
      obtain ⟨v, hv⟩ := Option.isSome_iff_exists.1 hvalue
      have hl : ¬ IsNamed rest l := by
        rintro ⟨text', hmem⟩
        exact hdistinct.1 (List.mem_map.2 ⟨_, hmem, rfl⟩)
      obtain ⟨henvironment, hsound⟩ := withEnvironment_leaf root l text rest
      have hstep := ofTree_setNames hroot ht
        (Leaf.converts_of_value? hv (some environmentName))
      rw [henvironment]
      obtain ⟨merged, hmerged, hlaid⟩ := ih (hsound hroot.1) hstep hrest
      exact ⟨merged, hmerged, hlaid.leaf hv hl⟩

/-- Settings are known from their leaves and the consumers of the system. -/
theorem ext_leaf {t t' : Settings} (h : ∀ l, t.leaf l = t'.leaf l) (hsystem : t.system = t'.system) :
    t = t' := by
  have hoptions : t.options = t'.options :=
    Options.ext_flag fun f => LeafValue.flag.inj (h (.flag f))
  have hprofile : t.profile = t'.profile := Profile.ext_currents fun component =>
    Currents.ext_current fun mode => LeafValue.current.inj (h (.current component mode))
  obtain ⟨o, p, cs⟩ := t
  obtain ⟨o', p', cs'⟩ := t'
  cases hoptions
  cases hprofile
  cases hsystem
  rfl

/-- No more than one thing comes out, and the order of the variables does not matter to it. -/
theorem LaidOver.unique {other : Environment} {merged' : Settings}
    (h : LaidOver root t environment merged) (h' : LaidOver root t other merged')
    (hsame : ∀ v, v ∈ other ↔ v ∈ environment) : merged = merged' := by
  have hnamed (l : Leaf) : IsNamed other l ↔ IsNamed environment l :=
    exists_congr fun text => hsame (l.variableName, text)
  refine ext_leaf (fun l => ?_) (h.system.trans h'.system.symm)
  by_cases hl : IsNamed environment l
  · obtain ⟨text, hmem⟩ := hl
    exact Option.some.inj ((h.named l text hmem).symm.trans (h'.named l text ((hsame _).2 hmem)))
  · have hl' : ¬ IsNamed other l := fun hother => hl ((hnamed l).1 hother)
    have hway : GivesWay root other l ↔ GivesWay root environment l :=
      exists_congr fun named => and_congr_left' (hnamed named)
    by_cases hgives : GivesWay root environment l
    · exact (h.listed l hl hgives).trans (h'.listed l hl' (hway.2 hgives)).symm
    · exact (h.others l hl hgives).trans
        (h'.others l hl' fun hother => hgives (hway.1 hother)).symm

end Settings

/-! ## 3. The check -/

namespace Profile

/-- The currents of these components in their order, each with its modes in order. -/
def currentsOf (p : Profile) (components : List Component) : List (Component × Mode × Binary64) :=
  components.flatMap fun component => (p.currents component).modes.map (component, ·)

/-- The first of all currents that is not valid. -/
def firstInvalid? (p : Profile) : Option (Component × Mode × Binary64) :=
  (p.currentsOf Component.all).find? fun current => !Currents.isValid current.2.2

/-- What the check makes of the first current that is not valid. -/
def refusal : Option (Component × Mode × Binary64) → Except ProfileError Unit
  | some (component, mode, x) => .error (.invalidCurrent component mode x)
  | none => .ok ()

theorem forM_check (p : Profile) (components : List Component) :
    (components.forM fun component => (p.currents component).check component) =
      refusal ((p.currentsOf components).find? fun current => !Currents.isValid current.2.2) := by
  induction components with
  | nil => rfl
  | cons component rest ih =>
    have hfirst : ((p.currents component).modes.map (component, ·)).find?
        (fun current => !Currents.isValid current.2.2) =
          ((p.currents component).modes.find? fun m => !Currents.isValid m.2).map (component, ·) :=
      List.find?_map
    show ((p.currents component).check component >>= fun _ =>
      rest.forM fun component => (p.currents component).check component) = _
    unfold currentsOf
    rw [List.flatMap_cons, List.find?_append, hfirst, ih, Currents.check]
    cases (p.currents component).modes.find? fun m => !Currents.isValid m.2 with
    | none => rfl
    | some m => rfl

/-- **The check names the first current that is not valid,** in the order of components and modes. -/
theorem check_eq (p : Profile) : p.check = refusal p.firstInvalid? := p.forM_check Component.all

theorem mem_currentsOf {p : Profile} {current : Component × Mode × Binary64} :
    current ∈ p.currentsOf Component.all ↔
      current.2.2 = (p.currents current.1).current current.2.1 := by
  obtain ⟨component, mode, x⟩ := current
  have hcomponent : component ∈ Component.all := profileRecord.mem_all component
  unfold currentsOf
  rw [List.mem_flatMap]
  constructor
  · rintro ⟨component', -, hmem⟩
    obtain ⟨⟨mode', x'⟩, hmode, heq⟩ := List.mem_map.1 hmem
    cases heq
    simp only [Currents.modes, List.mem_cons, Prod.mk.injEq, List.not_mem_nil, or_false] at hmode
    rcases hmode with ⟨rfl, rfl⟩ | ⟨rfl, rfl⟩ | ⟨rfl, rfl⟩ <;> rfl
  · intro hx
    refine ⟨component, hcomponent, List.mem_map.2 ⟨(mode, x), ?_, rfl⟩⟩
    dsimp only at hx
    rw [hx]
    cases mode <;> simp [Currents.modes, Currents.current]

/-- There is no such current where all are valid. -/
theorem firstInvalid?_eq_none {p : Profile} : p.firstInvalid? = none ↔
    ∀ component mode, Currents.isValid ((p.currents component).current mode) = true := by
  unfold firstInvalid?
  rw [List.find?_eq_none]
  constructor
  · intro h component mode
    simpa using h (component, mode, _) (mem_currentsOf.2 rfl)
  · intro h current hmem
    rw [mem_currentsOf.1 hmem]
    simpa using h current.1 current.2.1

end Profile

/-- A value that a file may hold: any flag, and a valid current. -/
def LeafValue.IsValid : LeafValue → Prop
  | flag _ => True
  | current x => Currents.isValid x = true

instance (v : LeafValue) : Decidable v.IsValid :=
  match v with
  | .flag _ => isTrue trivial
  | .current x => inferInstanceAs (Decidable (Currents.isValid x = true))

/-! ## 4. Loading -/

namespace Settings

variable {root : Setting} {t merged : Settings} {environment : Environment}

theorem checked_eq (t : Settings) : t.checked =
    match t.profile.firstInvalid? with
    | some (component, mode, x) => .error (.invalidProfile (.invalidCurrent component mode x))
    | none => .ok t := by
  unfold checked
  rw [t.profile.check_eq]
  cases t.profile.firstInvalid? with
  | none => rfl
  | some current => rfl

theorem firstInvalid?_eq_none_iff : t.profile.firstInvalid? = none ↔ ∀ l, (t.leaf l).IsValid := by
  rw [Profile.firstInvalid?_eq_none]
  constructor
  · intro h l
    cases l with
    | flag f => exact trivial
    | current component mode => exact h component mode
  · exact fun h component mode => h (.current component mode)

theorem isValid_leaf_default (l : Leaf) : (({} : Settings).leaf l).IsValid := by
  have hdefault : ({} : Settings).profile.firstInvalid? = none := by decide +kernel
  exact firstInvalid?_eq_none_iff.1 hdefault l

/-- **What is loaded from a file and an environment.** The file has settings, and the variables name
leaves of them. Laying the variables over the file gives settings in which each named leaf has the
value of its variable and every other leaf what the file says, but for lists that give way; they are
loaded if all nine currents in them are valid, and else the first one that is not is refused. So the
order of the variables does not matter; valid variables mend invalid currents of the file, if the
other currents are valid; and one invalid variable is enough to be refused. Without variables that
hold settings, loading is the same as reading the file alone, whatever that comes to. -/
theorem load_laidOver :
    (∀ {folder path root t environment}, treeOfFile folder path = .ok root → ofTree root = .ok t →
      NamesLeaves environment →
      ∃ merged, LaidOver root t environment merged ∧
        (load folder (some path) environment).value =
          (match merged.profile.firstInvalid? with
          | some (component, mode, x) => .error (.invalidProfile (.invalidCurrent component mode x))
          | none => .ok merged) ∧
        (∀ other, other.Perm environment →
          (load folder (some path) other).value = (load folder (some path) environment).value) ∧
        ((∀ l, ¬ IsNamed environment l → (t.leaf l).IsValid) →
          (∀ l, IsNamed environment l → (merged.leaf l).IsValid) →
          (load folder (some path) environment).value = .ok merged) ∧
        ((∃ l, IsNamed environment l ∧ ¬ (merged.leaf l).IsValid) →
          ∃ component mode x, (load folder (some path) environment).value =
            .error (.invalidProfile (.invalidCurrent component mode x)))) ∧
    ∀ folder path environment, (∀ v ∈ environment, variableKey? v.1 = none) →
      (load folder (some path) environment).value = ofFile folder path := by
  constructor
  · intro folder path root t environment hroot ht henvironment
    have hsound := isSound_treeOfFile hroot
    obtain ⟨merged, hmerged, hlaid⟩ := exists_laidOver hsound ht henvironment
    have hload {env : Environment} {m : Settings} (h : ofTree (withEnvironment root env) = .ok m) :
        (load folder (some path) env).value = m.checked := by
      show ofSources folder (some path) env = m.checked
      simp only [ofSources, hroot, bind, Except.bind, h]
    have hchecked := (hload hmerged).trans merged.checked_eq
    refine ⟨merged, hlaid, hchecked, fun other hperm => ?_, fun hothers hnamed => ?_, ?_⟩
    · obtain ⟨merged', hmerged', hlaid'⟩ := exists_laidOver hsound ht (henvironment.perm hperm.symm)
      rw [hload hmerged, hload hmerged', hlaid.unique hlaid' fun _ => hperm.mem_iff]
    · have hvalid : ∀ l, (merged.leaf l).IsValid := by
        intro l
        by_cases hl : IsNamed environment l
        · exact hnamed l hl
        · by_cases hway : GivesWay root environment l
          · rw [hlaid.listed l hl hway]
            exact isValid_leaf_default l
          · rw [hlaid.others l hl hway]
            exact hothers l hl
      rw [hchecked, firstInvalid?_eq_none_iff.2 hvalid]
    · rintro ⟨l, -, hinvalid⟩
      rw [hchecked]
      cases hfirst : merged.profile.firstInvalid? with
      | none => exact absurd (firstInvalid?_eq_none_iff.1 hfirst l) hinvalid
      | some current => exact ⟨_, _, _, rfl⟩
  · intro folder path environment h
    have hsame (root : Setting) : withEnvironment root environment = root := by
      induction environment with
      | nil => rfl
      | cons entry rest ih =>
        obtain ⟨name, text⟩ := entry
        rw [withEnvironment_other (h (name, text) List.mem_cons_self)]
        exact ih fun v hv => h v (List.mem_cons_of_mem _ hv)
    show ofSources folder (some path) environment = _
    simp only [ofSources, ofFile, hsame]

/-- A file with a current below zero is refused, and loaded with a variable that mends it. -/
theorem load_laidOver_mended :
    let text := "[profile.wifi]\nrx_ma = -5\ntx_ma = 3\n"
    let folder : Folder := { files := [("c.toml", utf8 text.toList)] }
    let environment := [("HOME", "/"), ("AMPERE_PROFILE__WIFI__RX_MA", "25e-1")]
    let below := -Binary64.ofNat 5
    let half := Binary64.ofNat 5 / Binary64.ofNat 2
    ∃ root t merged, treeOfFile folder "c.toml" = .ok root ∧ ofTree root = .ok t ∧
      NamesLeaves environment ∧ LaidOver root t environment merged ∧
      ofFile folder "c.toml" = .error (.invalidProfile (.invalidCurrent .wifi .rx below)) ∧
      (load folder (some "c.toml") environment).value = .ok merged ∧
      merged = { profile := { wifi := { rx := half, tx := Binary64.ofNat 3 } } } := by
  intro text folder environment below half
  let t : Settings := { profile := { wifi := { rx := below, tx := Binary64.ofNat 3 } } }
  have hread : (do ofTree (← treeOfFile folder "c.toml")) = .ok t := by decide +kernel
  obtain ⟨root, hroot⟩ : ∃ root, treeOfFile folder "c.toml" = .ok root := by
    cases hfile : treeOfFile folder "c.toml" with
    | ok root => exact ⟨root, rfl⟩
    | error e =>
      rw [hfile] at hread
      cases hread
  have ht : ofTree root = .ok t := by
    rw [hroot] at hread
    exact hread
  have henvironment : NamesLeaves environment := by
    refine ⟨fun v hv => ?_, by decide⟩
    simp only [environment, List.mem_cons, List.not_mem_nil, or_false] at hv
    rcases hv with rfl | rfl
    · exact .inl (by decide +kernel)
    · exact .inr ⟨.current .wifi .rx, by decide +kernel, by decide +kernel⟩
  obtain ⟨merged, hlaid, -, -, hmended, -⟩ := load_laidOver.1 hroot ht henvironment
  have hnamed (l : Leaf) : IsNamed environment l ↔ l = .current .wifi .rx := by
    rw [isNamed_other_iff (by decide +kernel)]
    refine (isNamed_leaf_iff (l := .current .wifi .rx)).trans (or_iff_left ?_)
    exact fun ⟨_, hmem⟩ => absurd hmem List.not_mem_nil
  have hothers : ∀ l ∈ Leaf.all, l ≠ .current .wifi .rx → (t.leaf l).IsValid := by decide +kernel
  have hloaded : (load folder (some "c.toml") environment).value = .ok merged := by
    refine hmended (fun l hl => hothers l l.mem_all fun heq => hl ((hnamed l).2 heq)) fun l hl => ?_
    obtain rfl := (hnamed l).1 hl
    have hvalue := hlaid.named (.current .wifi .rx) "25e-1" (by decide +kernel)
    rw [show Leaf.value? (.current .wifi .rx) "25e-1" = some (.current half) by decide +kernel]
      at hvalue
    rw [← Option.some.inj hvalue]
    decide +kernel
  refine ⟨root, t, merged, hroot, ht, henvironment, hlaid, by decide +kernel, hloaded, ?_⟩
  have hvalue : (load folder (some "c.toml") environment).value =
      .ok { profile := { wifi := { rx := half, tx := Binary64.ofNat 3 } } } := by decide +kernel
  exact Except.ok.inj (hloaded.symm.trans hvalue)

/-- A list of options gives way as a whole to the variable that names one of them. -/
theorem load_laidOver_list :
    let folder : Folder := { files := [("c.toml", utf8 "options = [true]\n".toList)] }
    let environment := [("AMPERE_OPTIONS__FORCE_PROFILE_MODEL", "true")]
    NamesLeaves environment ∧
      ofFile folder "c.toml" = .ok { options := { breakdown := true } } ∧
      (load folder (some "c.toml") environment).value =
        .ok { options := { forceEstimate := true } } ∧
      (load folder (some "c.toml") environment).value ≠
        .ok { options := { breakdown := true, forceEstimate := true } } := by
  intro folder environment
  refine ⟨⟨fun v hv => ?_, by decide⟩, by decide +kernel, by decide +kernel, by decide +kernel⟩
  rw [List.mem_singleton.1 hv]
  exact .inr ⟨.flag .forceEstimate, rfl, by decide⟩

end Settings

end PowerShare
