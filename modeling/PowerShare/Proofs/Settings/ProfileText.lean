import PowerShare.Proofs.Command.Loading
import PowerShare.Proofs.Folder
import PowerShare.Proofs.Settings.Variables
import PowerShare.Proofs.Toml.Tables

/-!
# A printed profile is a settings file

The profile that the command prints as TOML is a settings file as soon as its tables stand beneath
the name of the profile:

* `beneathProfile` -- a line, with the table whose header it may be moved there, and `profileText`,
  all of them;
* `writes_tomlEntry` -- every finite current is written as a number with a point, and
  `writes_profileText`: the lines of all tables;
* `Settings.treeOfText_profileText`, `Settings.ofTree_profile` -- the text and its tree say the
  profile and nothing else, and `Settings.ofFile_profileText`: so does a file;
* `Settings.load_profileText` -- **a profile that was loaded is printed as a text that loads as the
  same profile.**
-/

namespace PowerShare

open Setting Toml

/-- The name of the profile among the settings. -/
def profileKey : String := settingsRecord.name .profile

/-- A line of a printed profile, with the table whose header it is moved beneath the profile. -/
def beneathProfile (line : String) : String :=
  match line.toList with
  | '[' :: rest => "[" ++ profileKey ++ "." ++ String.ofList rest
  | _ => line

/-- The text of a profile as it may stand in a settings file. -/
def profileText (p : Profile) : String := textOfLines ((profileToml p).map beneathProfile)

/-! ## 1. Lines -/

theorem isBareKey_currentName (mode : Mode) : IsBareKey (currentRecord.name mode).toList := by
  cases mode <;> exact isBareKey_of_all (by decide) (by decide)

theorem isBareKey_componentName (component : Component) : IsBareKey component.name.toList := by
  cases component <;> exact isBareKey_of_all (by decide) (by decide)

theorem isBareKey_profileKey : IsBareKey profileKey.toList :=
  isBareKey_of_all (by decide) (by decide)

/-- A finite number is written with its digits and a point among them. -/
theorem render_settingNotation {x : Binary64} (h : x.isFinite = true) :
    ∃ n : PlainNumeral, n.places ≠ [] ∧ settingNotation.render x = signedText x.negative n.text ∧
      n.decimal.toBinary64 x.negative = x := by
  obtain ⟨n, hplaces, htext, hread⟩ := PlainNumeral.exists_positional (x.shortest .up)
    (Binary64.exponent_shortest h .up) rfl
  refine ⟨n, hplaces, ?_, (hread x.negative).trans (Binary64.toBinary64_shortest h .up)⟩
  unfold Notation.render
  rw [if_neg (by simp [Binary64.isNaN_of_isFinite h]), htext]
  simp only [Binary64.isInfinite_of_isFinite h, Bool.false_eq_true, if_false]
  rfl

theorem toList_tomlEntry (mode : Mode) (x : Binary64) :
    (tomlEntry mode x).toList =
      (currentRecord.name mode).toList ++ [' ', '=', ' '] ++ settingNotation.render x := by
  have hname : mode.name.toList ++ "_ma = ".toList =
      (currentRecord.name mode).toList ++ [' ', '=', ' '] := by
    cases mode <;> rfl
  unfold tomlEntry
  rw [String.toList_append, String.toList_append, hname]
  exact congrArg (_ ++ ·) String.toList_ofList

/-- A current is no header. -/
theorem beneathProfile_tomlEntry (mode : Mode) (x : Binary64) :
    beneathProfile (tomlEntry mode x) = tomlEntry mode x := by
  unfold beneathProfile
  rw [toList_tomlEntry]
  cases mode <;> rfl

/-- **A finite current is written as a number,** whatever its size. -/
theorem writes_tomlEntry {x : Binary64} (h : x.isFinite = true) (mode : Mode) :
    Writes ((tomlEntry mode x).toList ++ ['\n'])
      [.entry ⟨currentRecord.name mode, []⟩ (.value (.number x))] := by
  obtain ⟨n, hplaces, hrender, hread⟩ := render_settingNotation h
  have hrow := writes_row (.number (currentRecord.name mode).toList (isBareKey_currentName mode) n
    hplaces x.negative (by rw [hread]; exact h))
  have hline : Line.entry ⟨String.ofList (currentRecord.name mode).toList, []⟩
      (.value (.number (n.decimal.toBinary64 x.negative))) =
        .entry ⟨currentRecord.name mode, []⟩ (.value (.number x)) := by
    rw [hread, String.ofList_toList]
  rw [toList_tomlEntry, hrender, ← hline]
  exact hrow

theorem writes_header (component : Component) :
    Writes ((beneathProfile ("[" ++ component.name ++ "]")).toList ++ ['\n'])
      [.header false ⟨profileKey, [component.name]⟩] := by
  have hrow := writes_row (.header profileKey.toList component.name.toList isBareKey_profileKey
    (isBareKey_componentName component))
  cases component <;> exact hrow

example : beneathProfile "[wifi]" = "[profile.wifi]" := by decide +kernel

/-! ## 2. Tables -/

/-- The table of a component as it is read. -/
def profileTable (p : Profile) (component : Component) : NamedTable :=
  (component.name, currentRecord.entries fun mode => .number ((p.currents component).current mode))

variable {p : Profile}

theorem writes_tomlTable (h : ∀ component mode, ((p.currents component).current mode).isFinite)
    (component : Component) :
    Writes (textOfLines ((tomlTable component (p.currents component)).map beneathProfile)).toList
      (linesOfTable profileKey (profileTable p component)) := by
  have hentries := writes_flatMap currentRecord.all fun mode _ =>
    writes_tomlEntry (h component mode) mode
  have hall := (writes_header component).append hentries
  have hlines : linesOfTable profileKey (profileTable p component) =
      [.header false ⟨profileKey, [component.name]⟩] ++ currentRecord.all.flatMap fun mode =>
        [.entry ⟨currentRecord.name mode, []⟩
          (.value (.number ((p.currents component).current mode)))] := by
    rw [← List.map_eq_flatMap, linesOfTable, profileTable, RecordFields.entries, List.map_map]
    rfl
  have htext : (tomlTable component (p.currents component)).map beneathProfile =
      beneathProfile ("[" ++ component.name ++ "]") ::
        currentRecord.all.map fun mode => tomlEntry mode ((p.currents component).current mode) := by
    show _ :: (currentRecord.all.map fun mode =>
      tomlEntry mode ((p.currents component).current mode)).map beneathProfile = _
    rw [List.map_map]
    exact congrArg (_ :: List.map · _) (funext fun mode => beneathProfile_tomlEntry mode _)
  rw [hlines, htext, toList_textOfLines, List.flatMap_cons, List.flatMap_map]
  exact hall

/-- **The tables of all components are written one after another.** -/
theorem writes_profileText (h : ∀ component mode, ((p.currents component).current mode).isFinite) :
    Writes (profileText p).toList
      (linesOfTables profileKey (Component.all.map (profileTable p))) := by
  -- On the components, as an empty line stands behind each but the last one.
  have hwrites (components : List Component) :
      Writes (textOfLines (([""].intercalate (components.map fun component =>
          tomlTable component (p.currents component))).map beneathProfile)).toList
        (linesOfTables profileKey (components.map (profileTable p))) := by
    induction components with
    | nil => exact writes_nil
    | cons component rest ih =>
      have hfirst := writes_tomlTable h component
      cases rest with
      | nil =>
        rw [List.map_singleton, List.map_singleton, List.intercalate_singleton, linesOfTables,
          List.flatMap_singleton]
        exact hfirst
      | cons next rest =>
        rw [List.map_cons, List.map_cons, List.intercalate_cons_cons, List.map_append,
          List.map_append, textOfLines_append, textOfLines_append, String.toList_append,
          String.toList_append]
        have hempty : Writes (textOfLines ([""].map beneathProfile)).toList [] := writes_row .empty
        have hall := (hfirst.append hempty).append ih
        rw [List.append_nil] at hall
        exact hall
  exact hwrites Component.all

theorem areSound_tables (p : Profile) : AreSound (Component.all.map (profileTable p)) where
  names := by
    rw [List.map_map]
    show (Component.all.map Component.name).Nodup
    decide
  keys t ht := by
    obtain ⟨component, -, rfl⟩ := List.mem_map.1 ht
    exact currentRecord.nodup_entries (by decide) _
  name_ne := by
    rw [List.map_map]
    show momentKey ∉ Component.all.map Component.name
    decide
  key_ne t ht := by
    obtain ⟨component, -, rfl⟩ := List.mem_map.1 ht
    unfold profileTable RecordFields.entries
    rw [List.map_map]
    show momentKey ∉ currentRecord.all.map currentRecord.name
    decide

/-! ## 3. Settings -/

/-- The settings of a text that holds a profile alone. -/
def profileSetting (origin : String) (p : Profile) : Setting :=
  .table none (profileRecord.entries fun component =>
    .table none (currentRecord.entries fun mode =>
      .scalar (some origin) (.number ((p.currents component).current mode))))

theorem ofTomlMembers_eq_map (origin : String) (ms : List (String × Value)) :
    ofTomlMembers origin ms = ms.map fun m => (m.1, ofToml origin m.2) := by
  induction ms with
  | nil => rfl
  | cons m ms ih =>
    rw [ofTomlMembers, ih]
    rfl

/-- The tables are put as the settings of the profile. -/
theorem putsAs_tables (origin : String) (p : Profile) :
    PutsAs
      (ofToml origin (.table ((Component.all.map (profileTable p)).map fun t => (t.1, .table t.2))))
      (profileSetting origin p) := by
  have htables : ofTomlMembers origin ((Component.all.map (profileTable p)).map fun t =>
        (t.1, .table t.2)) =
      profileRecord.entries fun component => .table (some origin) (currentRecord.entries fun mode =>
        .scalar (some origin) (.number ((p.currents component).current mode))) := by
    rw [ofTomlMembers_eq_map, List.map_map, List.map_map]
    refine List.map_congr_left fun component _ => ?_
    show (component.name, Setting.table (some origin) (ofTomlMembers origin _)) = _
    rw [ofTomlMembers_eq_map, profileTable, RecordFields.entries, List.map_map]
    rfl
  rw [ofToml, htables]
  exact profileRecord.putsAs_entries (some origin) (by decide) fun component =>
    currentRecord.putsAs_entries (some origin) (by decide) fun mode => putsAs_scalar _ _

/-- A profile passes the check if its currents are finite and none is below zero. -/
theorem Profile.check_eq_ok_iff_finite : p.check = .ok () ↔ ∀ component mode,
    ((p.currents component).current mode).isFinite = true ∧
      ((p.currents component).current mode).less .zero = false := by
  have hvalid : p.check = .ok () ↔ p.firstInvalid? = none := by
    rw [p.check_eq]
    cases p.firstInvalid? with
    | none => exact ⟨fun _ => rfl, fun _ => rfl⟩
    | some current => exact ⟨nofun, nofun⟩
  rw [hvalid, Profile.firstInvalid?_eq_none]
  simp only [Currents.isValid, Bool.and_eq_true, Bool.not_eq_true']

namespace Settings

/-- **The tree of a profile's text.** -/
theorem treeOfText_profileText
    (h : ∀ component mode, ((p.currents component).current mode).isFinite) (origin : String) :
    treeOfText origin (profileText p).toList =
      .ok (.table none [(profileKey, profileSetting origin p)]) := by
  have hparse := parse_tables (writes_profileText h) (List.cons_ne_nil _ _) (by decide +kernel)
    (areSound_tables p)
  have hsteps : stepsOfKey profileKey.toList = (.name profileKey, []) := by decide +kernel
  unfold treeOfText
  rw [hparse]
  dsimp only
  rw [List.foldl_cons, List.foldl_nil]
  unfold assign
  rw [hsteps]
  exact congrArg Except.ok (putsAs_tables origin p none [] profileKey List.not_mem_nil)

/-- **The settings of a profile alone** have everything else by default. -/
theorem ofTree_profile (origin : String) (p : Profile) :
    ofTree (.table none [(profileKey, profileSetting origin p)]) = .ok { profile := p } := by
  have hcurrents (component : Component) :
      currentRecord.read (some (.table none (currentRecord.entries fun mode =>
        .scalar (some origin) (.number ((p.currents component).current mode))))) =
          .ok (p.currents component) :=
    currentRecord.read_entries none (by decide) fun _ => rfl
  have hprofile : profileRecord.read (some (profileSetting origin p)) = .ok p :=
    profileRecord.read_entries none (by decide) hcurrents
  have hnodup : ([(profileKey, profileSetting origin p)].map (·.1)).Nodup := List.nodup_singleton _
  refine (settingsRecord.read_table_iff hnodup { profile := p }).2 ?_
  rintro (_ | _ | _)
  · exact rfl
  · exact hprofile
  · exact rfl

/-! ## 4. Loading -/

theorem checked_eq_ok_iff {t s : Settings} :
    t.checked = .ok s ↔ t.profile.check = .ok () ∧ t = s := by
  unfold checked
  cases t.profile.check with
  | ok _ => simp
  | error e => simp

/-- What is loaded was checked. -/
theorem check_of_load {folder : Folder} {path? : Option String} {environment : Environment}
    {s : Settings} (h : (load folder path? environment).value = .ok s) :
    s.profile.check = .ok () := by
  have htree (tree : Except SettingsError Setting)
      (hs : (do (← ofTree (withEnvironment (← tree) environment)).checked) = Except.ok s) :
      s.profile.check = .ok () := by
    cases tree with
    | error e => cases hs
    | ok root =>
      simp only [bind, Except.bind] at hs
      cases hroot : ofTree (withEnvironment root environment) with
      | error e =>
        rw [hroot] at hs
        cases hs
      | ok t =>
        rw [hroot] at hs
        obtain ⟨hcheck, rfl⟩ := checked_eq_ok_iff.1 hs
        exact hcheck
  cases path? with
  | none => exact htree (.ok emptyTable) h
  | some path => exact htree (treeOfFile folder path) h

/-- What is read of a file is what its text says. -/
theorem treeOfFile_of_find {folder : Folder} {path origin : String} {text : List Char}
    (h : find folder path = .ok (origin, utf8 text)) :
    treeOfFile folder path = treeOfText origin text := by
  have htext : ofUtf8? (utf8 text) = some text := ofUtf8?_eq_some_iff.2 rfl
  simp only [treeOfFile, h, htext, bind, Except.bind]

/-- **A file with the text of a checked profile** has the settings of the profile alone. -/
theorem ofFile_profileText {folder : Folder} {path origin : String} (h : p.check = .ok ())
    (hfind : find folder path = .ok (origin, utf8 (profileText p).toList)) :
    ofFile folder path = .ok { profile := p } := by
  have hfinite (component : Component) (mode : Mode) :
      ((p.currents component).current mode).isFinite = true :=
    (Profile.check_eq_ok_iff_finite.1 h component mode).1
  have htree := (treeOfFile_of_find hfind).trans (treeOfText_profileText hfinite origin)
  simp only [ofFile, htree, bind, Except.bind, ofTree_profile]
  exact checked_eq_ok_iff.2 ⟨h, rfl⟩

/-- A file with the extension of settings is found where it was put. -/
theorem find_put {folder : Folder} {path name : String} (bytes : List UInt8)
    (h : folder.Takes path name) (hdevice : folder.hasDevice (Place.ofPath path) = false)
    (hextension : (leadingSegments path).getLast?.bind extension? = some fileExtension) :
    find (folder.put name bytes) path = .ok (plainPath path, bytes) := by
  have hread : (folder.put name bytes).read path = .ok bytes := (h.put h).read Folder.get?_put
  unfold find Folder.kept?
  rw [Folder.hasDevice_put, hdevice, hread, hextension]
  rfl

/-- Any content may stand in a settings file. -/
theorem exists_find (bytes : List UInt8) :
    ∃ folder path origin, find folder path = .ok (origin, bytes) := by
  have htakes : ({} : Folder).Takes "profile.toml" "profile.toml" :=
    Folder.takes_of_name (by decide +kernel) (by decide +kernel) (by decide +kernel)
      (by decide +kernel)
  exact ⟨_, _, _, find_put bytes htakes rfl (by decide +kernel)⟩

/-- Without variables a file is loaded as it is read alone. -/
theorem load_of_ofFile {folder : Folder} {path : String} {s : Settings}
    (h : ofFile folder path = .ok s) : (load folder (some path) []).value = .ok s := by
  rw [load_laidOver.2 folder path [] fun v hv => absurd hv List.not_mem_nil]
  exact h

/-! ## 5. The command -/

/-- **What the command prints of a profile.** -/
theorem run_profileToml {words : List String} {a : ProfileArguments} {folder : Folder}
    {environment : Environment} {s : Settings}
    (hwords : Request.ofWords? words = some (.profile a)) (htoml : a.toml = true)
    (h : (load folder a.settings? environment).value = .ok s) :
    run words environment folder =
      { code := 0
        output := textOfLines ((filterOf environment a.verbose).linesOf
          (a.settings?.toList.map .loadingSettings) ++ profileToml s.profile)
        folder := folder } := by
  let start : Console := { filter := filterOf environment a.verbose, folder, environment }
  have hload := Shell.run_loadSettings a.settings? start
  have hshow : (showProfile a).run.run start =
      (.ok (), { start with
        lines := start.filter.linesOf (a.settings?.toList.map .loadingSettings) ++
          profileToml s.profile
        tally := start.tally.recordAll (a.settings?.toList.map .loadingSettings) }) := by
    unfold showProfile
    rw [Shell.run_bind, hload, h, htoml]
    rfl
  rw [run_eq_ofEnd hwords]
  show Run.ofEnd ((showProfile a).run.run start) = _
  rw [hshow]
  rfl

/-- **A printed profile loads again as the same profile.** Whatever was loaded from a file, if there
is one, and an environment, the command prints its nine currents as TOML behind what the log tells.
With the tables moved beneath the name of the profile, this text is a settings file that comes to
just this profile, bit by bit, and to nothing else. What may be loaded is any profile of finite
currents none of which is below zero: the negative zero, the numbers next to zero and the largest
one are among them. -/
theorem load_profileText :
    (∀ {folder path? environment s}, (load folder path? environment).value = .ok s →
      (∀ {words a}, Request.ofWords? words = some (.profile a) → a.toml = true →
        a.settings? = path? →
        run words environment folder =
          { code := 0
            output := textOfLines ((filterOf environment a.verbose).linesOf
              (path?.toList.map .loadingSettings) ++ profileToml s.profile)
            folder := folder }) ∧
      ∀ {folder' path' origin},
        find folder' path' = .ok (origin, utf8 (profileText s.profile).toList) →
        ofFile folder' path' = .ok { profile := s.profile }) ∧
    ∀ p : Profile, (∀ component mode, ((p.currents component).current mode).isFinite = true ∧
        ((p.currents component).current mode).less .zero = false) →
      ∃ folder path, (load folder (some path) []).value = .ok { profile := p } := by
  constructor
  · intro folder path? environment s h
    refine ⟨fun hwords htoml hpath => ?_, fun hfind => ofFile_profileText (check_of_load h) hfind⟩
    subst hpath
    exact run_profileToml hwords htoml h
  · intro p hp
    obtain ⟨folder, path, origin, hfind⟩ := exists_find (utf8 (profileText p).toList)
    exact ⟨folder, path,
      load_of_ofFile (ofFile_profileText (Profile.check_eq_ok_iff_finite.2 hp) hfind)⟩

/-- The negative zero, the number next to zero and the largest finite number, which is printed as a
whole number of 309 digits. -/
theorem load_profileText_extreme :
    let text := "[profile.wifi]\nidle_ma = -0.0\nrx_ma = 5e-324\ntx_ma = 1.7976931348623157e308\n"
    let folder : Folder := { files := [("c.toml", utf8 text.toList)] }
    let words := ["profile", "--config", "c.toml", "--toml"]
    let largest : Binary64 := ⟨false, Binary64.infinityMagnitude - 1, by decide⟩
    let c : Currents := ⟨-.zero, ⟨false, 1, by decide⟩, largest⟩
    ∃ s, (load folder (some "c.toml") []).value = .ok s ∧ s.profile = { wifi := c } ∧
      (run words [] folder).output = textOfLines (profileToml s.profile) ∧
      ofFile (folder.put "d.toml" (utf8 (profileText s.profile).toList)) "d.toml" =
        .ok { profile := { wifi := c } } := by
  intro text folder words largest c
  have hload : (load folder (some "c.toml") []).value = .ok { profile := { wifi := c } } := by
    decide +kernel
  have htakes : folder.Takes "d.toml" "d.toml" :=
    Folder.takes_of_name (by decide +kernel) (by decide +kernel) (by decide +kernel)
      (by decide +kernel)
  have hwords : Request.ofWords? words =
      some (.profile { settings? := some "c.toml", toml := true }) := by decide +kernel
  have hrun := (load_profileText.1 hload).1 hwords rfl rfl
  refine ⟨_, hload, rfl, ?_, ?_⟩
  · rw [hrun]
    rfl
  · exact (load_profileText.1 hload).2
      (find_put _ htakes (by decide +kernel) (by decide +kernel))

end Settings

end PowerShare
