import PowerShare.Proofs.Command.Loading
import PowerShare.Proofs.Sample.Joined

/-!
# One text alone and in an object

The text of one component can be attributed as it is, or as the only member of an object. A command
never looks at what it printed, so after loading the same observations it goes on alike:

* `Shell.Appends` -- a step does the same whatever was printed before, and prints behind it;
* `showLoaded`, `appends_showLoaded` -- the command behind its loading is such a step;
* `Run.AgreeBut` -- two runs that leave the same but for some lines of their output, and
  `Run.agreeBut_of_told` -- two ways to load the same observations;
* `Observations.parse_joined` -- **what is read of texts is read of them in an object,** and a run
  comes to the same either way.
-/

namespace PowerShare

open Json Shell

/-! ## 1. What was printed before -/

namespace Shell

/-- Whatever was printed before, the step does the same and prints the same behind it. -/
def Appends (step : Shell α) : Prop :=
  ∀ (front : List String) (c : Console),
    step.run.run { c with lines := front ++ c.lines } =
      ((step.run.run c).1,
        { (step.run.run c).2 with lines := front ++ (step.run.run c).2.lines })

theorem appends_pure (a : α) : Appends (pure a) := fun _ _ => rfl

theorem appends_throw (e : Failure) : Appends (throw e : Shell α) := fun _ _ => rfl

theorem appends_orFail (failure : ε → Failure) (x : Except ε α) : Appends (orFail failure x) := by
  cases x with
  | ok a => exact appends_pure a
  | error e => exact appends_throw (failure e)

theorem Appends.bind {step : Shell α} {next : α → Shell β} (h : Appends step)
    (hnext : ∀ a, Appends (next a)) : Appends (step >>= next) := by
  intro front c
  rw [run_bind, run_bind, h front c]
  cases (step.run.run c).1 with
  | ok a => exact hnext a front _
  | error e => rfl

/-- What a step says about the console is not what was printed. -/
theorem appends_get_bind {next : Console → Shell α} (h : ∀ c, Appends (next c))
    (hsame : ∀ c lines, next { c with lines := lines } = next c) : Appends (get >>= next) := by
  intro front c
  show (next { c with lines := front ++ c.lines }).run.run { c with lines := front ++ c.lines } = _
  rw [hsame]
  exact h c front c

theorem appends_print (lines : List String) : Appends (print lines) := by
  intro front c
  show (_, { c with lines := front ++ c.lines ++ lines }) = _
  rw [List.append_assoc]
  rfl

theorem appends_traced (t : Traced α) : Appends (traced t) := by
  intro front c
  show (_, { c with
    lines := front ++ c.lines ++ c.filter.linesOf t.events
    tally := c.tally.recordAll t.events }) = _
  rw [List.append_assoc]
  rfl

theorem appends_writeFile (path : String) (bytes : List UInt8) :
    Appends (writeFile path bytes) := by
  unfold writeFile
  refine appends_get_bind (fun c => ?_) fun _ _ => rfl
  exact (appends_orFail _ _).bind fun folder => fun _ _ => rfl

theorem appends_mapM_traced (ts : List (Traced α)) : Appends (ts.mapM traced) := by
  induction ts with
  | nil =>
    rw [List.mapM_nil]
    exact appends_pure []
  | cons t ts ih =>
    rw [List.mapM_cons]
    exact (appends_traced t).bind fun _ => ih.bind fun _ => appends_pure _

end Shell

theorem appends_writeReports (outcomes : List Outcome) (path : String) :
    Appends (writeReports outcomes path) := by
  unfold writeReports
  split
  · exact (appends_traced _).bind fun _ => appends_writeFile _ _
  · refine (appends_writeFile _ _).bind fun _ => (appends_orFail _ _).bind fun sink => ?_
    exact (appends_traced _).bind fun _ => appends_writeFile _ _

theorem appends_writeEnvelopes (outcomes : List Outcome) (path : String) :
    Appends (writeEnvelopes outcomes path) := by
  unfold writeEnvelopes
  refine (appends_writeFile _ _).bind fun _ => ?_
  split
  · exact appends_throw _
  · exact appends_pure ()

theorem appends_printSummaries (settings : Settings) (entries : List (Component × Observation)) :
    Appends (printSummaries settings entries) := by
  induction entries with
  | nil => exact appends_pure ()
  | cons entry entries ih =>
    exact (appends_traced _).bind fun _ => (appends_print _).bind fun _ => ih

/-! ## 2. What is done with what was loaded -/

/-- The command behind its loading. -/
def showLoaded (settings : Settings) (observations : Observations) (a : AttributionArguments) :
    Shell Unit := do
  if observations.isEmpty then print [noteLine "Snapshot contains no components."]
  else
    let outcomes ← (observations.outcomes settings.profile (settings.options.joined a)).values.mapM
      traced
    print (outcomes.flatMap (outcomeLines a.top))
    if let some path := a.json? then
      writeReports outcomes path
      print [doneLine ("Reports written to " ++ path)]
    if let some path := a.wire? then
      writeEnvelopes outcomes path
      print [doneLine ("Envelopes written to " ++ path)]
    if a.legacy then printSummaries settings observations.entries
    if a.metrics then print (titleLines "Diagnostics" ++ (← get).tally.lines)

/-- Which file the arguments name, and which component, matters to loading alone. -/
theorem showAttribution_eq (snapshot : String) (a : AttributionArguments) (path? : Option String)
    (component? : Option Component) :
    showAttribution snapshot { a with snapshot? := path?, component? := component? } = (do
      let settings ← loadSettings a.settings?
      let observations ← loadSnapshot snapshot component?
      showLoaded settings observations a) := rfl

section

variable {a : AttributionArguments} {c c' : Console}

theorem run_showAttribution_ok {settings : Settings}
    (h : (loadSettings a.settings?).run.run c = (.ok settings, c')) (snapshot : String)
    (path? : Option String) (component? : Option Component) :
    (showAttribution snapshot { a with snapshot? := path?, component? := component? }).run.run c =
      ((loadSnapshot snapshot component?) >>= fun os => showLoaded settings os a).run.run c' := by
  rw [showAttribution_eq, run_bind, h]

theorem run_showAttribution_error {e : Failure}
    (h : (loadSettings a.settings?).run.run c = (.error e, c')) (snapshot : String)
    (path? : Option String) (component? : Option Component) :
    (showAttribution snapshot { a with snapshot? := path?, component? := component? }).run.run c =
      (.error e, c') := by
  rw [showAttribution_eq, run_bind, h]

end

theorem appends_showLoaded (settings : Settings) (os : Observations) (a : AttributionArguments) :
    Appends (showLoaded settings os a) := by
  have hmetrics : Appends
      (if a.metrics then do print (titleLines "Diagnostics" ++ (← get).tally.lines)
        else pure ()) := by
    split
    · exact appends_get_bind (fun c => appends_print _) fun _ _ => rfl
    · exact appends_pure ()
  unfold showLoaded
  split
  · exact appends_print _
  refine (appends_mapM_traced _).bind fun outcomes => (appends_print _).bind fun _ => ?_
  have hlegacy : Appends (do
      if a.legacy then printSummaries settings os.entries
      if a.metrics then print (titleLines "Diagnostics" ++ (← get).tally.lines)) := by
    cases a.legacy with
    | false => exact hmetrics
    | true => exact (appends_printSummaries _ _).bind fun _ => hmetrics
  have hwire : Appends (do
      if let some path := a.wire? then
        writeEnvelopes outcomes path
        print [doneLine ("Envelopes written to " ++ path)]
      if a.legacy then printSummaries settings os.entries
      if a.metrics then print (titleLines "Diagnostics" ++ (← get).tally.lines)) := by
    cases a.wire? with
    | none => exact hlegacy
    | some path =>
      exact (appends_writeEnvelopes _ _).bind fun _ => (appends_print _).bind fun _ => hlegacy
  cases a.json? with
  | none => exact hwire
  | some path =>
    exact (appends_writeReports _ _).bind fun _ => (appends_print _).bind fun _ => hwire

/-! ## 3. Runs -/

/-- The runs leave the same, but for some lines in the middle of what they print. -/
structure Run.AgreeBut (told told' : List String) (r r' : Run) : Prop where
  folder_eq : r.folder = r'.folder
  code_eq : r.code = r'.code
  errors_eq : r.errors = r'.errors
  output_eq : ∃ front back, r.output = front ++ textOfLines told ++ back ∧
    r'.output = front ++ textOfLines told' ++ back

/-- **Two ways to load the same observations,** of which other lines tell, go on alike. -/
theorem Run.agreeBut_of_told {load load' : Shell Observations} {c : Console} {os : Observations}
    {told told' : List String}
    (h : load.run.run c = (.ok os, { c with lines := c.lines ++ told }))
    (h' : load'.run.run c = (.ok os, { c with lines := c.lines ++ told' }))
    {next : Observations → Shell Unit} (hnext : Appends (next os)) :
    AgreeBut told told' (ofEnd ((load >>= next).run.run c))
      (ofEnd ((load' >>= next).run.run c)) := by
  obtain ⟨result, last, hlast⟩ :
      ∃ result last, (next os).run.run { c with lines := [] } = (result, last) := ⟨_, _, rfl⟩
  have hbehind (told : List String) :
      (next os).run.run { c with lines := c.lines ++ told } =
        (result, { last with lines := c.lines ++ told ++ last.lines }) := by
    have happends := hnext (c.lines ++ told) { c with lines := [] }
    rw [hlast, List.append_nil] at happends
    exact happends
  have houtput (told : List String) : textOfLines (c.lines ++ told ++ last.lines) =
      textOfLines c.lines ++ textOfLines told ++ textOfLines last.lines := by
    rw [textOfLines_append, textOfLines_append]
  rw [run_bind, run_bind, h, h']
  dsimp only
  rw [hbehind, hbehind]
  cases result with
  | ok _ => exact ⟨rfl, rfl, rfl, _, _, houtput told, houtput told'⟩
  | error _ => exact ⟨rfl, rfl, rfl, _, _, houtput told, houtput told'⟩

/-- A text alone and the same text in an object are loaded as the same observations. -/
theorem Observations.ofFile_joined {folder : Folder} {path path' : String}
    {component : Component} {text joined : List UInt8} {o : Observation}
    (hread : folder.read path = .ok text) (ho : Observation.parse text = .ok o)
    (hread' : folder.read path' = .ok joined)
    (hjoined : IsObject [(utf8 component.name.toList, text)] joined) :
    ofFile folder path (some component) = .ok (SortedMap.ofList [(component, o)]) ∧
      ofFile folder path' none = .ok (SortedMap.ofList [(component, o)]) := by
  have hentries : ∀ e ∈ [(component, text)], ∃ o, Observation.parse e.2 = .ok o := by
    simp [ho]
  obtain ⟨os, hos, hlast⟩ := parse_object hentries hjoined
  have hmap : SortedMap.ofList [(component, o)] = os := by
    refine SortedMap.ofList_eq_iff.2 fun c p => (hlast c p).trans ?_
    rw [SortedMap.lastValue_iff_mem (by simp)]
    constructor
    · intro ⟨t, ht, hp⟩
      rw [SortedMap.lastValue_iff_mem (by simp)] at ht
      cases List.mem_singleton.1 ht
      rw [ho] at hp
      cases hp
      exact List.mem_singleton_self _
    · intro hmem
      cases List.mem_singleton.1 hmem
      exact ⟨text, (SortedMap.lastValue_iff_mem (by simp)).2 (List.mem_singleton_self _), ho⟩
  constructor
  · simp only [ofFile, readSnapshot, hread, ho, Except.map]
  · simp only [ofFile, readSnapshot, hread', hos, hmap]

/-- **A text alone and in an object are attributed alike.** -/
theorem run_joined {words words' : List String} {environment : Settings.Environment}
    {folder : Folder} {snapshot snapshot' : String} {a : AttributionArguments}
    {component : Component} {text joined : List UInt8} {o : Observation}
    (hwords : Request.ofWords? words = some (.attribution snapshot
      { a with snapshot? := some snapshot, component? := some component }))
    (hwords' : Request.ofWords? words' = some (.attribution snapshot'
      { a with snapshot? := some snapshot', component? := none }))
    (hread : folder.read snapshot = .ok text) (ho : Observation.parse text = .ok o)
    (hread' : folder.read snapshot' = .ok joined)
    (hjoined : IsObject [(utf8 component.name.toList, text)] joined) :
    let filter := filterOf environment a.verbose
    run words environment folder = run words' environment folder ∨
      Run.AgreeBut (filter.linesOf [.loadedConsumers o.consumers.size snapshot])
        (filter.linesOf [.loadedComponents 1 snapshot']) (run words environment folder)
        (run words' environment folder) := by
  intro filter
  obtain ⟨halone, hobject⟩ := Observations.ofFile_joined hread ho hread' hjoined
  let start : Console := { filter, folder, environment }
  obtain ⟨settings?, c, hsettings, hfolder, hfilter⟩ : ∃ settings? c,
      (loadSettings a.settings?).run.run start = (settings?, c) ∧ c.folder = folder ∧
        c.filter = filter := ⟨_, _, run_loadSettings a.settings? start, rfl, rfl⟩
  rw [← hfolder] at halone hobject
  have hruns : run words environment folder = Run.ofEnd ((showAttribution snapshot
        { a with snapshot? := some snapshot, component? := some component }).run.run start) ∧
      run words' environment folder = Run.ofEnd ((showAttribution snapshot'
        { a with snapshot? := some snapshot', component? := none }).run.run start) :=
    ⟨run_eq_ofEnd hwords, run_eq_ofEnd hwords'⟩
  rw [hruns.1, hruns.2, ← hfilter]
  cases settings? with
  | error e =>
    rw [run_showAttribution_error hsettings, run_showAttribution_error hsettings]
    exact .inl rfl
  | ok settings =>
    have hfirst := run_loadSnapshot snapshot (some component) c
    have hsecond := run_loadSnapshot snapshot' none c
    rw [halone] at hfirst
    rw [hobject] at hsecond
    rw [run_showAttribution_ok hsettings, run_showAttribution_ok hsettings,
      ← loadedEvent_single snapshot component o]
    exact .inr (Run.agreeBut_of_told hfirst hsecond (appends_showLoaded settings _ a))

/-- **What is read of a text is read of it in an object.** Texts of observations that are put under
the names of components, blanks and all, are read as the map that has for each component what its
last text is read as. And a run on the text of one component comes to the same as a run on the
object that has this text as its only member: the same files, the same code, and the same output
but for the line that tells of loading. -/
theorem Observations.parse_joined :
    (∀ (entries : List (Component × List UInt8)) (text : List UInt8),
      (∀ e ∈ entries, ∃ o, Observation.parse e.2 = .ok o) →
      IsObject (entries.map fun e => (utf8 e.1.name.toList, e.2)) text →
      ∃ os, parse text = .ok os ∧ ∀ c o, os.get? c = some o ↔
        ∃ t, SortedMap.LastValue entries c t ∧ Observation.parse t = .ok o) ∧
    ∀ (words words' : List String) (environment : Settings.Environment) (folder : Folder)
      (snapshot snapshot' : String) (a : AttributionArguments) (component : Component)
      (text joined : List UInt8) (o : Observation),
      Request.ofWords? words = some (.attribution snapshot
        { a with snapshot? := some snapshot, component? := some component }) →
      Request.ofWords? words' = some (.attribution snapshot'
        { a with snapshot? := some snapshot', component? := none }) →
      folder.read snapshot = .ok text → Observation.parse text = .ok o →
      folder.read snapshot' = .ok joined →
      IsObject [(utf8 component.name.toList, text)] joined →
      let filter := filterOf environment a.verbose
      run words environment folder = run words' environment folder ∨
        Run.AgreeBut (filter.linesOf [.loadedConsumers o.consumers.size snapshot])
          (filter.linesOf [.loadedComponents 1 snapshot']) (run words environment folder)
          (run words' environment folder) :=
  ⟨fun _ _ hentries htext => parse_object hentries htext,
    fun _ _ _ _ _ _ _ _ _ _ _ hwords hwords' hread ho hread' hjoined =>
      run_joined hwords hwords' hread ho hread' hjoined⟩

/-- A component that is named twice, and one text in two files. -/
theorem Observations.parse_joined_twice :
    let text := utf8 " \x7b\"consumers\": \x7b\"7\": []\x7d\x7d ".toList
    let joined := utf8 "\x7b\"wifi\": \x7b\"consumers\": \x7b\"7\": []\x7d\x7d \x7d".toList
    let entries : List (Component × List UInt8) :=
      [(.wifi, utf8 "[false]".toList), (.modem, utf8 "\x7b\x7d".toList), (.wifi, text)]
    let twice := utf8 ("\x7b\"wifi\":[false], \"modem\":\x7b\x7d, " ++
      "\"wifi\": \x7b\"consumers\": \x7b\"7\": []\x7d\x7d \x7d").toList
    let o : Observation := { consumers := SortedMap.ofList [(⟨7⟩, {})] }
    let folder : Folder := { files := [("a", text), ("b", joined)] }
    let words :=
      ["attribute", "--snapshot", "a", "--component", "wifi", "--json", "r", "--wire", "e"]
    let words' := ["attribute", "--snapshot", "b", "--json", "r", "--wire", "e"]
    let a : AttributionArguments := { json? := some "r", wire? := some "e" }
    (∀ e ∈ entries, ∃ o, Observation.parse e.2 = .ok o) ∧
      IsObject (entries.map fun e => (utf8 e.1.name.toList, e.2)) twice ∧
      (∃ os, parse twice = .ok os ∧ os.get? .wifi = some o) ∧
      Request.ofWords? words = some (.attribution "a"
        { a with snapshot? := some "a", component? := some .wifi }) ∧
      Request.ofWords? words' = some (.attribution "b"
        { a with snapshot? := some "b", component? := none }) ∧
      folder.read "a" = .ok text ∧ Observation.parse text = .ok o ∧ folder.read "b" = .ok joined ∧
      IsObject [(utf8 Component.wifi.name.toList, text)] joined ∧
      (run words [] folder).folder = (run words' [] folder).folder := by
  intro text joined entries twice o folder words words' a
  have ho : Observation.parse text = .ok o := by decide +kernel
  have hentries : ∀ e ∈ entries, ∃ o, Observation.parse e.2 = .ok o := by
    simp only [entries, List.forall_mem_cons]
    exact ⟨⟨{ supported := false }, by decide +kernel⟩, ⟨{}, by decide +kernel⟩, ⟨o, ho⟩,
      fun _ h => nomatch h⟩
  have hspace : Blank [byte ' '] := fun b hb => List.mem_singleton.1 hb ▸ by decide
  have htwice : IsObject (entries.map fun e => (utf8 e.1.name.toList, e.2)) twice :=
    ⟨[], _, [], .nil, .first .nil .nil (.next .nil hspace .nil (.next .nil hspace .nil
      (.stop .nil))), .nil, by decide +kernel⟩
  have hjoined : IsObject [(utf8 Component.wifi.name.toList, text)] joined :=
    ⟨[], _, [], .nil, .first .nil .nil (.stop .nil), .nil, by decide +kernel⟩
  have hwords : Request.ofWords? words = some (.attribution "a"
      { a with snapshot? := some "a", component? := some .wifi }) := by decide +kernel
  have hwords' : Request.ofWords? words' = some (.attribution "b"
      { a with snapshot? := some "b", component? := none }) := by decide +kernel
  have hread : folder.read "a" = .ok text := by decide +kernel
  have hread' : folder.read "b" = .ok joined := by decide +kernel
  refine ⟨hentries, htwice, ?_, hwords, hwords', hread, ho, hread', hjoined, ?_⟩
  · obtain ⟨os, hos, hlast⟩ := parse_joined.1 entries twice hentries htwice
    exact ⟨os, hos, (hlast _ _).2 ⟨text, ⟨entries.take 2, [], rfl, List.not_mem_nil⟩, ho⟩⟩
  · rcases parse_joined.2 words words' [] folder "a" "b" a .wifi text joined o hwords hwords' hread
      ho hread' hjoined with hsame | hagree
    · rw [hsame]
    · exact hagree.folder_eq

end PowerShare
