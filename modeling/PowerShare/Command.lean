import PowerShare.Command.Help
import PowerShare.Listing
import PowerShare.LogFilter
import PowerShare.Sample.Reading
import PowerShare.Sink
import PowerShare.Tally

/-!
# Commands

A run of the program as a function: words, environment variables and files go in, and an exit
code, the text of both outputs and the files come out (`run`).

While a command runs, its `Console` holds the lines printed so far, log lines among them, the
files, and the tally of all events. A command that fails stops there, and what it printed and wrote
up to then stays.
-/

namespace PowerShare

/-! ## 1. Failures -/

/-- Why a snapshot is not loaded. -/
inductive SnapshotError where
  | unread (error : FileError)
  | refused (error : Json.ReadError)
  /-- The path is that of a directory, which opens like a file and cannot be read. -/
  | isDirectory
  deriving DecidableEq, Inhabited

/-- Why a command fails. -/
inductive Failure where
  | settings (error : SettingsError)
  | snapshot (component? : Option Component) (path : String) (error : SnapshotError)
  | output (path : String) (error : FileError)
  | sink (error : SinkError)

/-- A message and the message of its cause. -/
def withCause (message cause : String) : String := message ++ ": " ++ cause

/-- What is wrong with a snapshot. The cause is told twice, once in the sentence itself. -/
def SnapshotError.message (path : String) : SnapshotError → String
  | unread error => withCause (withCause ("failed to read " ++ path) error.message) error.message
  | refused error => withCause (withCause ("failed to parse " ++ path) error.message) error.message
  | isDirectory =>
    withCause (withCause ("failed to parse " ++ path) FileError.isDirectory.message)
      FileError.isDirectory.message

/-- What is wrong with the settings. An invalid profile speaks for itself; the cause of any other
error is told twice. -/
def SettingsError.causes : SettingsError → String
  | .invalidProfile error => error.message
  | error => withCause (withCause "configuration error" error.message) error.message

def Failure.message : Failure → String
  | settings error => withCause "Failed to load engine configuration" error.causes
  | snapshot (some component) path error =>
    withCause ("Failed to load " ++ component.name ++ " snapshot") (error.message path)
  | snapshot none path error => withCause "Failed to load snapshot" (error.message path)
  | output path error => withCause ("Failed to create output file: " ++ path) error.message
  | sink error => error.message

/-! ## 2. The console -/

/-- What a running command has printed, and what it works on. -/
structure Console where
  filter : LogFilter
  folder : Folder
  environment : Settings.Environment := []
  lines : List String := []
  tally : Tally := .zero

/-- A step of a command: it works on the console and may fail. -/
abbrev Shell (α : Type) := ExceptT Failure (StateM Console) α

namespace Shell

def print (lines : List String) : Shell Unit :=
  modify fun c => { c with lines := c.lines ++ lines }

/-- A value whose events are counted, and logged as far as the filter lets them through. -/
def traced (t : Traced α) : Shell α := do
  modify fun c =>
    { c with lines := c.lines ++ c.filter.linesOf t.events, tally := c.tally.recordAll t.events }
  return t.value

/-- A result, or the failure that an error is. -/
def orFail (failure : ε → Failure) : Except ε α → Shell α
  | .ok a => pure a
  | .error e => throw (failure e)

/-- Writes a file, of which nothing was there before or all is replaced. -/
def writeFile (path : String) (bytes : List UInt8) : Shell Unit := do
  let folder ← orFail (.output path) ((← get).folder.write path bytes)
  modify fun c => { c with folder := folder }

end Shell

open Shell

/-! ## 3. Loading -/

def loadSettings (path? : Option String) : Shell Settings := do
  let c ← get
  orFail .settings (← traced (Settings.load c.folder path? c.environment))

/-- What a file spells. -/
def readSnapshot (parse : List UInt8 → Except Json.ReadError α) (folder : Folder) (path : String) :
    Except SnapshotError α :=
  match folder.read path with
  | .ok bytes =>
    match parse bytes with
    | .ok a => .ok a
    | .error e => .error (.refused e)
  | .error .isDirectory => .error .isDirectory
  | .error e => .error (.unread e)

/-- The observations of a file: those of one component, or of those it names. -/
def loadSnapshot (path : String) (component? : Option Component) : Shell Observations := do
  let folder := (← get).folder
  match component? with
  | some component =>
    let o ← orFail (.snapshot component? path) (readSnapshot Observation.parse folder path)
    traced ⟨(), [.loadedConsumers o.consumers.size path]⟩
    return SortedMap.ofList [(component, o)]
  | none =>
    let os ← orFail (.snapshot none path) (readSnapshot Observations.parse folder path)
    traced ⟨(), [.loadedComponents os.size path]⟩
    return os

/-! ## 4. Writing -/

/-- Writes the file of reports: a single report in full, any other number as lines. -/
def writeReports (outcomes : List Outcome) (path : String) : Shell Unit := do
  match outcomes.filterMap Outcome.report? with
  | [report] =>
    let text ← traced (report.file path)
    writeFile path (utf8 text)
  | _ =>
    writeFile path []
    let sink ← orFail .sink (JsonLines.acceptAll {} outcomes)
    traced ⟨(), outcomes.flatMap JsonLines.events⟩
    writeFile path sink.buffer.bytes

/-- Writes the file of envelopes. -/
def writeEnvelopes (outcomes : List Outcome) (path : String) : Shell Unit := do
  let (stream, error?) := EnvelopeStream.acceptAll {} outcomes
  writeFile path stream.buffer.bytes
  match error? with
  | some e => throw (.sink e)
  | none => pure ()

/-! ## 5. Commands -/

/-- The options of the settings, each of which the command line can switch on. -/
def Options.joined (o : Options) (a : AttributionArguments) : Options :=
  { breakdown := o.breakdown || a.breakdown
    forceEstimate := o.forceEstimate || a.forceEstimate }

/-- The summaries of all components, each behind its events. -/
def printSummaries (settings : Settings) : List (Component × Observation) → Shell Unit
  | [] => pure ()
  | (component, o) :: rest => do
    let summary? ← traced
      (o.summarize component (settings.profile.currents component) settings.system)
    print (summaryLines component summary?)
    printSummaries settings rest

/-- Attributes what a snapshot observed, and prints and writes what is asked for. -/
def showAttribution (snapshot : String) (a : AttributionArguments) : Shell Unit := do
  let settings ← loadSettings a.settings?
  let observations ← loadSnapshot snapshot a.component?
  if observations.isEmpty then print [noteLine "Snapshot contains no components."]
  else
    let outcomes ← (observations.outcomes settings.profile (settings.options.joined a)).values.mapM
      traced
    print (outcomes.flatMap (outcomeLines a.top))
    if let some path := a.json? then
      writeReports outcomes path
      print [doneLine ("Reports written to " ++ path)]
    if let some path := a.wire? then
      writeEnvelopes outcomes path
      print [doneLine ("Envelopes written to " ++ path)]
    if a.legacy then printSummaries settings observations.entries
    if a.metrics then print (titleLines "Diagnostics" ++ (← get).tally.lines)

/-- Prints the profile of the settings. -/
def showProfile (a : ProfileArguments) : Shell Unit := do
  let settings ← loadSettings a.settings?
  print (if a.toml then profileToml settings.profile else settingsLines settings)

/-- The paths at which a settings file is looked for. -/
def settingsPaths (path? : Option String) : List String :=
  path?.toList.flatMap fun path => path :: (Settings.longerPath? path).toList

/-- Does what is asked for. -/
def Request.perform : Request → Shell Unit
  | .attribution snapshot arguments => showAttribution snapshot arguments
  | .profile arguments => showProfile arguments
  | .help page => print page.lines
  | .version => print [versionLine]

/-- The paths of all files that a request may read or write. -/
def Request.paths : Request → List String
  | .attribution snapshot a =>
    snapshot :: (settingsPaths a.settings? ++ a.json?.toList ++ a.wire?.toList)
  | .profile a => settingsPaths a.settings?
  | .help _ => []
  | .version => []

/-! ## 6. Runs -/

/-- What a run of the program leaves behind. -/
structure Run where
  code : Nat
  output : String := ""
  errors : String := ""
  folder : Folder

/-- Lines as text. -/
def textOfLines (lines : List String) : String := String.join (lines.map (· ++ "\n"))

/-- The variable that holds the filter of the log. -/
def filterVariable : String := "RUST_LOG"

/-- The filter of the log: the one of the environment, if there is one that can be read, and else
one that shows details only if asked to. -/
def filterOf (environment : Settings.Environment) (verbose : Bool) : LogFilter :=
  let own? := (environment.find? (·.1 == filterVariable)).bind fun v => LogFilter.parse? v.2
  own?.getD (.upTo (if verbose then .debug else .info))

/-- Runs the program. The code is 0 if all went well, 1 if a command failed and 2 if the words ask
for nothing. -/
def run (words : List String) (environment : Settings.Environment) (folder : Folder) : Run :=
  match Request.ofWords? words with
  | none => { code := 2, errors := textOfLines (HelpPage.lines .overview), folder := folder }
  | some request =>
    let start : Console :=
      { filter := filterOf environment request.verbose, folder, environment }
    let (result, console) := request.perform.run.run start
    let finished : Run :=
      { code := 0, output := textOfLines console.lines, folder := console.folder }
    match result with
    | .ok () => finished
    | .error e => { finished with code := 1, errors := textOfLines [failedLine e.message] }

end PowerShare
