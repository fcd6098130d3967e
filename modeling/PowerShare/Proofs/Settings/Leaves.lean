import PowerShare.Proofs.Settings.NumberText
import PowerShare.Proofs.Settings.Records

/-!
# Leaves of settings

A variable may set a single leaf of the settings: one of the two flags or one of the nine currents.
In the tree this changes the records in which the leaf stands, and one of them that is a list gives
way to a table:

* `Leaf` -- the leaves, each with its variable (`Leaf.variableName`) and the texts that are values
  for it (`Leaf.value?`);
* `Settings.overlay` -- settings with a value for a leaf; `Settings.ofTree_setNames` says that they
  are what is read from the tree in which the value was set;
* `Settings.leaf_overlay_of_displaces` and the two lemmas above it -- what becomes of each leaf;
* `Settings.at?_setNames_of_not_mem` -- the records in which the leaf does not stand.
-/

namespace PowerShare

open Setting

/-! ## 1. Leaves -/

/-- A single value of the settings that a variable can name. -/
inductive Leaf where
  | flag (flag : Flag)
  | current (component : Component) (mode : Mode)
  deriving DecidableEq

/-- The value of a leaf. -/
inductive LeafValue where
  | flag (value : Bool)
  | current (value : Binary64)
  deriving DecidableEq

/-- The value of a leaf in settings. -/
def Settings.leaf (t : Settings) : Leaf → LeafValue
  | .flag f => .flag (t.options.flag f)
  | .current component mode => .current ((t.profile.currents component).current mode)

namespace Leaf

/-- Where a leaf stands in the tree of settings. -/
def path : Leaf → List String
  | flag f => ["options", optionRecord.name f]
  | current component mode => ["profile", component.name, currentRecord.name mode]

/-- The records in which a leaf stands. -/
def records : Leaf → List (List String)
  | flag _ => [["options"]]
  | current component _ => [["profile"], ["profile", component.name]]

/-- The variable that names a leaf. -/
def variableName : Leaf → String
  | flag .breakdown => "AMPERE_OPTIONS__PER_STATE_BREAKDOWN"
  | flag .forceEstimate => "AMPERE_OPTIONS__FORCE_PROFILE_MODEL"
  | current component mode =>
    "AMPERE_PROFILE__" ++
      (match component with
        | .bluetooth => "BLUETOOTH"
        | .wifi => "WIFI"
        | .modem => "MODEM") ++ "__" ++
      (match mode with
        | .idle => "IDLE_MA"
        | .rx => "RX_MA"
        | .tx => "TX_MA")

/-- The value that a variable with this text gives the leaf, if it is one for it. -/
def value? : Leaf → String → Option LeafValue
  | flag _, "true" => some (.flag true)
  | flag _, "false" => some (.flag false)
  | flag _, _ => none
  | current _ _, text => (numberOf? text).map .current

def all : List Leaf :=
  [.flag .breakdown, .flag .forceEstimate] ++
    Component.all.flatMap fun component => [Mode.idle, .rx, .tx].map (.current component)

theorem mem_all (l : Leaf) : l ∈ all := by
  cases l with
  | flag f => cases f <;> decide
  | current component mode => cases component <;> cases mode <;> decide

/-- Every leaf has a variable of its own. -/
theorem variableName_injective {l l' : Leaf} (h : l.variableName = l'.variableName) : l = l' := by
  have hall : ∀ l ∈ all, ∀ l' ∈ all, l.variableName = l'.variableName → l = l' := by
    decide +kernel
  exact hall l l.mem_all l' l'.mem_all h

/-- The records in which two leaves stand. -/
theorem records_cases {l other : Leaf} {record : List String} (hl : record ∈ l.records)
    (hother : record ∈ other.records) :
    (∃ f g, l = .flag f ∧ other = .flag g ∧ record = ["options"]) ∨
    ∃ component mode component' mode', l = .current component mode ∧
      other = .current component' mode' ∧
      (record = ["profile"] ∨ component' = component ∧ record = ["profile", component.name]) := by
  cases l with
  | flag f =>
    obtain rfl := List.mem_singleton.1 hl
    cases other with
    | flag g => exact .inl ⟨f, g, rfl, rfl, rfl⟩
    | current component' mode' => simp [records] at hother
  | current component mode =>
    cases other with
    | flag g =>
      obtain rfl := List.mem_singleton.1 hother
      simp [records] at hl
    | current component' mode' =>
      refine .inr ⟨component, mode, component', mode', rfl, rfl, ?_⟩
      simp only [records, List.mem_cons, List.not_mem_nil, or_false] at hl hother
      rcases hl with rfl | rfl
      · exact .inl rfl
      · simp only [List.cons.injEq, and_true, true_and, reduceCtorEq, and_false, false_or] at hother
        exact .inr ⟨profileRecord.name_injective hother.symm, rfl⟩

/-- The setting is converted to this value of the leaf. -/
def Converts (s : Setting) : Leaf → LeafValue → Prop
  | flag _, .flag b => s.toBool = .ok b
  | current _ _, .current x => s.toBinary64 = .ok x
  | _, _ => False

/-- The key that the variable sets leads to the leaf. -/
theorem variableKey?_variableName (l : Leaf) : ∃ key,
    Settings.variableKey? l.variableName = some key ∧
      ∃ first rest, l.path = first :: rest ∧ stepsOfKey key = (.name first, rest.map .name) := by
  cases l with
  | flag f =>
    cases f
    · exact ⟨"options.per_state_breakdown".toList, by decide +kernel, _, _, rfl, by decide +kernel⟩
    · exact ⟨"options.force_profile_model".toList, by decide +kernel, _, _, rfl, by decide +kernel⟩
  | current component mode =>
    refine ⟨"profile.".toList ++ component.name.toList ++ '.' :: (currentRecord.name mode).toList,
      ?_, _, _, rfl, ?_⟩
    · cases component <;> cases mode <;> decide +kernel
    · cases component <;> cases mode <;> decide +kernel

end Leaf

/-! ## 2. One leaf -/

namespace Setting

/-- What stands at a path of names. -/
def at? (s? : Option Setting) : List String → Option Setting
  | [] => s?
  | key :: rest => at? ((members s?).lookup key) rest

/-- A value set at a path of names. -/
def setNames (value : Setting) : List String → Option Setting → Setting
  | [], _ => value
  | key :: rest, s? => within key (setNames value rest) s?

theorem setAt_names (origin? : Option String) (v : Scalar) (rest : List String) (key : String)
    (s? : Option Setting) :
    setAt (.scalar origin? v) (.name key) (rest.map .name) (s?.getD nothing) =
      setNames (.scalar origin? v) (key :: rest) s? := by
  induction rest generalizing key s? with
  | nil => rfl
  | cons next rest ih =>
    show (s?.getD nothing).onTable (alterMember key fun old? =>
      setAt (.scalar origin? v) (.name next) (rest.map .name) (old?.getD nothing)) = _
    simp only [ih]
    rfl

end Setting

namespace Settings

variable {root s : Setting} {t : Settings}

theorem IsSound.allDistinct (h : IsSound root) : AllDistinct (some root) :=
  fun _ hs => Option.some.inj hs ▸ h.1

theorem IsSound.kept (h : IsSound root) : settingsRecord.kept (some root) t = t := by
  obtain ⟨-, origin?, ms, rfl⟩ := h
  rfl

/-- Each part of the settings is what stands under its name. -/
theorem gives_of_ofTree (hroot : IsSound root) (ht : ofTree root = .ok t) (part : Part) :
    settingsRecord.Gives part {} t (at? (some root) [settingsRecord.name part]) := by
  rw [← read_settingsRecord] at ht
  have h := RecordFields.gives_of_read hroot.allDistinct ht part
  rw [hroot.kept] at h
  exact h

theorem read_options (hroot : IsSound root) (ht : ofTree root = .ok t) :
    optionRecord.read (at? (some root) ["options"]) = .ok t.options :=
  RecordFields.read_of_given (gives_of_ofTree hroot ht .options)

theorem read_profile (hroot : IsSound root) (ht : ofTree root = .ok t) :
    profileRecord.read (at? (some root) ["profile"]) = .ok t.profile :=
  RecordFields.read_of_given (gives_of_ofTree hroot ht .profile)

/-- The profile that stays when a member of it is set. -/
def keptProfile (root : Setting) (t : Settings) : Profile :=
  profileRecord.kept (at? (some root) ["profile"]) t.profile

theorem read_currents (hroot : IsSound root) (ht : ofTree root = .ok t) (component : Component) :
    currentRecord.read (at? (some root) ["profile", component.name]) =
      .ok ((keptProfile root t).currents component) := by
  have h : profileRecord.Gives component {} (keptProfile root t)
      (at? (some root) ["profile", component.name]) :=
    RecordFields.gives_of_read (hroot.allDistinct.lookup "profile") (read_profile hroot ht) component
  refine RecordFields.read_of_given ?_
  cases component <;> exact h

/-- The settings with a value for a leaf. A list in which the leaf stands gives way to a table, and
with it go the other leaves in it. -/
def overlay (root : Setting) (t : Settings) : Leaf → LeafValue → Settings
  | .flag f, .flag b =>
    { t with options := (optionRecord.kept (at? (some root) ["options"]) t.options).set f b }
  | .current component mode, .current x =>
    let currents := currentRecord.kept (at? (some root) ["profile", component.name])
      ((keptProfile root t).currents component)
    { t with profile := (keptProfile root t).set component (currents.set mode x) }
  | _, _ => t

variable {l other : Leaf} {v : LeafValue}

/-- **A leaf is set.** -/
theorem ofTree_setNames (hroot : IsSound root) (ht : ofTree root = .ok t) (hs : l.Converts s v) :
    ofTree (setNames s l.path (some root)) = .ok (overlay root t l v) := by
  match l, v, hs with
  | .flag f, .flag b, hs =>
    have hoptions := RecordFields.read_within (F := optionRecord)
      (hroot.allDistinct.lookup "options") (read_options hroot ht) f (setNames s []) (v := b) hs
    have hsettings := RecordFields.read_within (F := settingsRecord) hroot.allDistinct ht .options
      (setNames s [optionRecord.name f]) hoptions
    rw [hroot.kept] at hsettings
    exact hsettings
  | .current component mode, .current x, hs =>
    have hcurrents := RecordFields.read_within (F := currentRecord)
      ((hroot.allDistinct.lookup "profile").lookup component.name)
      (read_currents hroot ht component) mode (setNames s []) (v := x) hs
    have hprofile := RecordFields.read_within (F := profileRecord)
      (hroot.allDistinct.lookup "profile") (read_profile hroot ht) component
      (setNames s [currentRecord.name mode]) hcurrents
    have hsettings := RecordFields.read_within (F := settingsRecord) hroot.allDistinct ht .profile
      (setNames s [component.name, currentRecord.name mode]) hprofile
    rw [hroot.kept] at hsettings
    exact hsettings

/-! ## 3. The other leaves -/

theorem system_overlay : (overlay root t l v).system = t.system := by
  unfold overlay
  split <;> rfl

theorem leaf_overlay_self (hs : l.Converts s v) : (overlay root t l v).leaf l = v := by
  match l, v, hs with
  | .flag f, .flag b, _ =>
    exact congrArg LeafValue.flag ((Options.flag_set _ f f b).trans (if_pos rfl))
  | .current component mode, .current x, _ =>
    show LeafValue.current (((Profile.set _ component _).currents component).current mode) = _
    rw [Profile.currents_set, if_pos rfl, Currents.current_set, if_pos rfl]

/-- A list in which both leaves stand. -/
def Displaces (root : Setting) (l other : Leaf) : Prop :=
  ∃ record ∈ other.records, record ∈ l.records ∧ IsListed (at? (some root) record)

/-- **Leaves that stand in no list with the one that is set keep their values.** -/
theorem leaf_overlay_of_not_displaces (hne : other ≠ l) (h : ¬ Displaces root l other) :
    (overlay root t l v).leaf other = t.leaf other := by
  have hshared {record : List String} (hother : record ∈ other.records) (hl : record ∈ l.records) :
      ¬ IsListed (at? (some root) record) := fun hlisted => h ⟨record, hother, hl, hlisted⟩
  unfold overlay
  split
  · rename_i f b
    cases other with
    | current => rfl
    | flag g =>
      have hg : g ≠ f := fun heq => hne (heq ▸ rfl)
      show LeafValue.flag ((Options.set _ f b).flag g) = .flag (t.options.flag g)
      rw [Options.flag_set, if_neg hg, RecordFields.kept_of_not_isListed
        (hshared List.mem_cons_self List.mem_cons_self)]
  · rename_i component mode x
    cases other with
    | flag => rfl
    | current component' mode' =>
      have hprofile : keptProfile root t = t.profile := RecordFields.kept_of_not_isListed
        (hshared List.mem_cons_self List.mem_cons_self)
      show LeafValue.current (((Profile.set _ component _).currents component').current mode') =
        .current ((t.profile.currents component').current mode')
      rw [hprofile, Profile.currents_set]
      split
      · rename_i hc
        subst hc
        have hm : mode' ≠ mode := fun heq => hne (heq ▸ rfl)
        rw [Currents.current_set, if_neg hm, RecordFields.kept_of_not_isListed
          (hshared (List.mem_cons_of_mem _ List.mem_cons_self)
            (List.mem_cons_of_mem _ List.mem_cons_self))]
      · rfl
  · rfl

/-- **Leaves that stand in a list with the one that is set get the values of missing ones.** -/
theorem leaf_overlay_of_displaces (hne : other ≠ l) (hs : l.Converts s v)
    (h : Displaces root l other) :
    (overlay root t l v).leaf other = ({} : Settings).leaf other := by
  obtain ⟨record, hother, hl, hlisted⟩ := h
  rcases Leaf.records_cases hl hother with ⟨f, g, rfl, rfl, rfl⟩ |
    ⟨component, mode, component', mode', rfl, rfl, hrecord⟩
  · match v, hs with
    | .flag b, _ =>
      have hg : g ≠ f := fun heq => hne (heq ▸ rfl)
      show LeafValue.flag ((Options.set _ f b).flag g) = .flag (({} : Options).flag g)
      rw [Options.flag_set, if_neg hg, RecordFields.kept_of_isListed hlisted]
      rfl
  · match v, hs with
    | .current x, _ =>
      show LeafValue.current (((Profile.set _ component _).currents component').current mode') =
        .current ((({} : Profile).currents component').current mode')
      rw [Profile.currents_set]
      rcases hrecord with rfl | ⟨rfl, rfl⟩
      · -- The profile is a list, so nothing is kept of it, nor of what would stand in it.
        have hprofile : keptProfile root t = {} := RecordFields.kept_of_isListed hlisted
        obtain ⟨origin?, items, hitems⟩ := hlisted
        have hmissing : at? (some root) ["profile", component.name] = none := by
          show (members (at? (some root) ["profile"])).lookup component.name = none
          rw [hitems]
          rfl
        rw [hprofile, hmissing]
        split
        · rename_i hc
          have hm : mode' ≠ mode := fun heq => hne (by rw [hc, heq])
          rw [Currents.current_set, if_neg hm, hc]
          rfl
        · rfl
      · have hm : mode' ≠ mode := fun heq => hne (by rw [heq])
        rw [if_pos rfl, Currents.current_set, if_neg hm, RecordFields.kept_of_isListed hlisted]
        cases component' <;> rfl

/-! ## 4. The other records -/

theorem at?_within (key : String) (change : Option Setting → Setting) (s? : Option Setting)
    (first : String) (rest : List String) :
    at? (some (within key change s?)) (first :: rest) =
      if first = key then at? (some (change ((members s?).lookup key))) rest
      else at? s? (first :: rest) := by
  show at? ((members (some (within key change s?))).lookup first) rest =
    if first = key then _ else at? ((members s?).lookup first) rest
  rw [members_within, lookup_alterMember]
  split <;> rfl

/-- A record with a leaf that was set is no list. -/
theorem not_isListed_setNames {record : List String} (h : record ∈ l.records) :
    ¬ IsListed (at? (some (setNames s l.path (some root))) record) := by
  cases l with
  | flag f =>
    obtain rfl := List.mem_singleton.1 h
    show ¬ IsListed (at? (some (within "options" _ _)) _)
    rw [at?_within, if_pos rfl]
    exact not_isListed_within
  | current component mode =>
    simp only [Leaf.records, List.mem_cons, List.not_mem_nil, or_false] at h
    rcases h with rfl | rfl
    · show ¬ IsListed (at? (some (within "profile" _ _)) _)
      rw [at?_within, if_pos rfl]
      exact not_isListed_within
    · show ¬ IsListed (at? (some (within "profile" _ _)) _)
      rw [at?_within, if_pos rfl]
      show ¬ IsListed (at? (some (within component.name _ _)) _)
      rw [at?_within, if_pos rfl]
      exact not_isListed_within

/-- The other records stay where they are. -/
theorem at?_setNames_of_not_mem {record : List String} (hother : record ∈ other.records)
    (h : record ∉ l.records) :
    at? (some (setNames s l.path (some root))) record = at? (some root) record := by
  cases l with
  | flag f =>
    show at? (some (within "options" _ _)) record = _
    cases other with
    | flag g => exact absurd hother h
    | current component' mode' =>
      simp only [Leaf.records, List.mem_cons, List.not_mem_nil, or_false] at hother
      rcases hother with rfl | rfl
      · rw [at?_within, if_neg (by decide)]
      · rw [at?_within, if_neg (by decide)]
  | current component mode =>
    show at? (some (within "profile" _ _)) record = _
    cases other with
    | flag g =>
      obtain rfl := List.mem_singleton.1 hother
      rw [at?_within, if_neg (by decide)]
    | current component' mode' =>
      simp only [Leaf.records, List.mem_cons, List.not_mem_nil, or_false] at hother
      rcases hother with rfl | rfl
      · exact absurd List.mem_cons_self h
      · have hc : component'.name ≠ component.name := fun heq =>
          h (by rw [heq]; exact List.mem_cons_of_mem _ List.mem_cons_self)
        rw [at?_within, if_pos rfl]
        show at? (some (within component.name _ _)) _ = _
        rw [at?_within, if_neg hc]
        rfl

end Settings

end PowerShare
