import PowerShare.Proofs.Command.Shell

/-!
# What a command loads

A command starts with its settings and with what was observed. Loading either of them adds to what
is printed and counted, and leaves the files as they are:

* `Observations.ofFile` -- the observations of a file, and `loadedEvent` -- what the log tells of
  them;
* `Shell.run_loadSettings`, `Shell.run_loadSnapshot` -- what each step comes to, to the last line;
* `loaded` -- settings and observations, and `does_loaded`: what is done with them is done only if
  both are there.
-/

namespace PowerShare

/-! ## 1. Observations -/

/-- The observations of a file: those of one component, or of those it names. -/
def Observations.ofFile (folder : Folder) (path : String) (component? : Option Component) :
    Except SnapshotError Observations :=
  match component? with
  | some component =>
    (readSnapshot Observation.parse folder path).map fun o => SortedMap.ofList [(component, o)]
  | none => readSnapshot Observations.parse folder path

/-- What the log tells of loading: how many consumers the one component has, or how many components
there are. -/
def loadedEvent (path : String) (component? : Option Component) (os : Observations) : Event :=
  match component? with
  | some component => .loadedConsumers ((os.get? component).elim 0 (·.consumers.size)) path
  | none => .loadedComponents os.size path

theorem loadedEvent_single (path : String) (component : Component) (o : Observation) :
    loadedEvent path (some component) (SortedMap.ofList [(component, o)]) =
      .loadedConsumers o.consumers.size path := by
  cases component <;> rfl

/-! ## 2. Steps -/

namespace Shell

theorem run_loadSettings (path? : Option String) (c : Console) :
    let t := Settings.load c.folder path? c.environment
    (loadSettings path?).run.run c =
      (t.value.mapError .settings,
        { c with
          lines := c.lines ++ c.filter.linesOf t.events
          tally := c.tally.recordAll t.events }) := by
  intro t
  show (orFail .settings t.value).run.run _ = _
  cases t.value with
  | ok settings => rfl
  | error e => rfl

/-- A snapshot is loaded with an event that counts it, or refused without one. -/
theorem run_loadSnapshot (path : String) (component? : Option Component) (c : Console) :
    (loadSnapshot path component?).run.run c =
      match Observations.ofFile c.folder path component? with
      | .ok os =>
        (.ok os,
          { c with lines := c.lines ++ c.filter.linesOf [loadedEvent path component? os] })
      | .error e => (.error (.snapshot component? path e), c) := by
  unfold loadSnapshot Observations.ofFile
  cases component? with
  | none =>
    show ((orFail _ (readSnapshot Observations.parse c.folder path)) >>= _).run.run c = _
    cases readSnapshot Observations.parse c.folder path with
    | ok os => rfl
    | error e => rfl
  | some component =>
    show ((orFail _ (readSnapshot Observation.parse c.folder path)) >>= _).run.run c = _
    cases readSnapshot Observation.parse c.folder path with
    | error e => rfl
    | ok o =>
      show _ = (_, { c with lines := c.lines ++ c.filter.linesOf [loadedEvent path
        (some component) (SortedMap.ofList [(component, o)])] })
      rw [loadedEvent_single]
      rfl

variable {environment : Settings.Environment} {folder : Folder}

theorem does_loadSettings (path? : Option String) :
    Does environment folder (loadSettings path?)
      ((Settings.ofSources folder path? environment).mapError .settings) folder := by
  rintro c rfl rfl
  rw [run_loadSettings]
  exact ⟨rfl, rfl, rfl⟩

theorem does_loadSnapshot (path : String) (component? : Option Component) :
    Does environment folder (loadSnapshot path component?)
      ((Observations.ofFile folder path component?).mapError (.snapshot component? path))
      folder := by
  rintro c rfl rfl
  rw [run_loadSnapshot]
  cases Observations.ofFile c.folder path component? with
  | ok os => exact ⟨rfl, rfl, rfl⟩
  | error e => exact ⟨rfl, rfl, rfl⟩

end Shell

/-! ## 3. Settings and observations -/

open Shell

/-- What an attribution works on, or why it fails before anything is attributed. -/
def loaded (folder : Folder) (environment : Settings.Environment) (snapshot : String)
    (a : AttributionArguments) : Except Failure (Settings × Observations) := do
  let settings ← (Settings.ofSources folder a.settings? environment).mapError .settings
  let observations ← (Observations.ofFile folder snapshot a.component?).mapError
    (.snapshot a.component? snapshot)
  return (settings, observations)

variable {environment : Settings.Environment} {folder : Folder} {snapshot : String}
  {a : AttributionArguments}

theorem loaded_eq_ok {settings : Settings} {os : Observations}
    (hsettings : Settings.ofSources folder a.settings? environment = .ok settings)
    (hos : Observations.ofFile folder snapshot a.component? = .ok os) :
    loaded folder environment snapshot a = .ok (settings, os) := by
  unfold loaded
  rw [hsettings, hos]
  rfl

/-- Whatever is done with what was loaded is done only if all of it was. -/
theorem does_loaded {β : Type} {next : Settings → Observations → Shell β} {after : Folder}
    {result : Except Failure β}
    (hok : ∀ settings os, loaded folder environment snapshot a = .ok (settings, os) →
      Does environment folder (next settings os) result after)
    (herror : ∀ e, loaded folder environment snapshot a = .error e →
      result = .error e ∧ after = folder) :
    Does environment folder
      (do next (← loadSettings a.settings?) (← loadSnapshot snapshot a.component?))
      result after := by
  unfold loaded at hok herror
  refine (does_loadSettings _).andThen (fun settings hs => ?_) fun e he => herror e ?_
  · rw [hs] at hok herror
    refine (does_loadSnapshot _ _).andThen (fun os ho => ?_) fun e he => herror e ?_
    · exact hok settings os (by rw [ho]; rfl)
    · rw [he]
      rfl
  · rw [he]
    rfl

end PowerShare
