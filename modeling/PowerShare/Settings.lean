import PowerShare.Basis
import PowerShare.Event
import PowerShare.Folder
import PowerShare.Settings.Conversion
import PowerShare.Text.Utf8
import PowerShare.Toml.Reading

/-!
# Settings

What stays the same from run to run: the options of attributions, the power profile and the
consumers that belong to the system. Settings come from a TOML file and from environment
variables, which are laid over the file, and everything that neither gives has its default.

* `Settings.ofTree` converts a tree of settings;
* `Settings.checked` refuses a profile with an invalid current;
* `Settings.ofFile` reads a file alone, `Settings.load` a file, if there is one, and the
  environment.

Not here: settings files in other formats than TOML. A file with another extension is refused as
one of an unknown format.
-/

namespace PowerShare

structure Settings where
  options : Options := {}
  profile : Profile := {}
  /-- The consumers that belong to the system. -/
  system : List Consumer := []
  deriving DecidableEq, Inhabited

namespace Settings

open Setting

/-! ## 1. From a tree -/

def optionFields : List (SettingField Options) :=
  [⟨"per_state_breakdown", fun s o => do return { o with breakdown := ← s.toBool }⟩,
    ⟨"force_profile_model", fun s o => do return { o with forceEstimate := ← s.toBool }⟩]

def currentFields : List (SettingField Currents) :=
  [⟨"idle_ma", fun s c => do return { c with idle := ← s.toBinary64 }⟩,
    ⟨"rx_ma", fun s c => do return { c with rx := ← s.toBinary64 }⟩,
    ⟨"tx_ma", fun s c => do return { c with tx := ← s.toBinary64 }⟩]

def profileFields : List (SettingField Profile) :=
  Component.all.map fun component => ⟨component.name, fun s p => do
    return p.set component (← s.toRecord "struct ControllerConstants" currentFields {})⟩

def fields : List (SettingField Settings) :=
  [⟨"options", fun s t => do
      return { t with options := ← s.toRecord "struct AttributionOptions" optionFields {} }⟩,
    ⟨"profile", fun s t => do
      return { t with profile := ← s.toRecord "struct PowerProfile" profileFields {} }⟩,
    ⟨"system_consumers", fun s t => do return { t with system := ← s.toList Setting.toConsumer }⟩]

/-- The settings of a tree. Nothing is checked beyond the kinds of values. -/
def ofTree (root : Setting) : Except SettingsError Settings :=
  root.toRecord "struct EngineConfig" fields {}

/-- The settings, if their profile is valid. -/
def checked (t : Settings) : Except SettingsError Settings :=
  match t.profile.check with
  | .ok () => .ok t
  | .error e => .error (.invalidProfile e)

/-! ## 2. From a file -/

/-- The tree of a TOML text. The keys outside of all tables are paths, and a text that is not a
table has none. -/
def treeOfText (origin : String) (text : List Char) : Except SettingsError Setting :=
  match Toml.parse text with
  | .ok (.table members) =>
    .ok (members.foldl
      (fun root m => root.assign m.1.toList (Setting.ofToml origin m.2)) emptyTable)
  | .ok _ => .ok emptyTable
  | .error _ => .error .malformedFile

/-- What follows the last point of a name, if something precedes it. -/
def extension? (name : List Char) : Option (List Char) :=
  match name.reverse.dropWhile (· != '.') with
  | '.' :: _ :: _ => some (name.reverse.takeWhile (· != '.')).reverse
  | _ => none

/-- The extension of settings files, which may be left out of a path. TOML is the only format that
is registered. -/
def fileExtension : List Char := "toml".toList

/-- A path with the extension added to the name at its end, if it ends with a name. -/
def longerPath? (path : String) : Option String :=
  match (leadingSegments path).getLast? with
  | none => none
  | some name =>
    if name.isEmpty || name == upward then none
    else some (plainPath path ++ String.ofList ('.' :: fileExtension))

/-- The plain path and the content of the settings file that a path names. Only a path that names
no file may lack the extension. A file with the extension of another format that settings may be
kept in, such as `json` or `yaml`, counts as one of an unknown format like any other file, and is
not looked for in place of a path without extension. -/
def find (folder : Folder) (path : String) : Except SettingsError (String × List UInt8) :=
  match folder.kept? path with
  | some bytes =>
    if (leadingSegments path).getLast?.bind extension? == some fileExtension then
      .ok (plainPath path, bytes)
    else .error (.unknownFormat path)
  | none =>
    match (longerPath? path).bind fun longer => (folder.kept? longer).map (longer, ·) with
    | some found => .ok found
    | none => .error (.fileNotFound path)

/-- The tree of the settings file at a path. -/
def treeOfFile (folder : Folder) (path : String) : Except SettingsError Setting := do
  let (origin, bytes) ← find folder path
  match ofUtf8? bytes with
  | some text => treeOfText origin text
  | none => .error .notText

/-- The settings of a file alone. -/
def ofFile (folder : Folder) (path : String) : Except SettingsError Settings := do
  (← ofTree (← treeOfFile folder path)).checked

/-! ## 3. From the environment -/

/-- The variables of an environment with their values. -/
abbrev Environment := List (String × String)

/-- The names of variables that hold settings start so, in any case. -/
def variableStart : List Char := "ampere_".toList

/-- A text with a point for every two underscores. -/
def pointed : List Char → List Char
  | '_' :: '_' :: rest => '.' :: pointed rest
  | c :: rest => c :: pointed rest
  | [] => []

/-- The key that a variable sets. -/
def variableKey? (name : String) : Option (List Char) :=
  let small := (lowercase name).toList
  if variableStart.isPrefixOf small then some (pointed (small.drop variableStart.length)) else none

/-- The value of a variable: a flag, an integer, a number or else a text. -/
def variableValue (text : String) : Scalar :=
  match lowercase text with
  | "true" => .boolean true
  | "false" => .boolean false
  | _ =>
    match (integerOf? text.toList).filter fun i => -2 ^ 63 ≤ i && i < 2 ^ 63 with
    | some i => .integer (Int64.ofInt i)
    | none =>
      match Binary64.ofText? text.toList with
      | some x => .number x
      | none => .text text

/-- What messages call the environment. -/
def environmentName : String := "the environment"

/-- The tree with the variables laid over it, one after another. -/
def withEnvironment (root : Setting) (environment : Environment) : Setting :=
  environment.foldl (fun root v =>
    match variableKey? v.1 with
    | some key => root.assign key (.scalar (some environmentName) (variableValue v.2))
    | none => root) root

/-! ## 4. Loading -/

/-- The settings of a file, if one is given, and of the environment. -/
def ofSources (folder : Folder) (path? : Option String) (environment : Environment) :
    Except SettingsError Settings := do
  let root ← match path? with
    | some path => treeOfFile folder path
    | none => .ok emptyTable
  (← ofTree (withEnvironment root environment)).checked

/-- Loads settings and tells of the file. -/
def load (folder : Folder) (path? : Option String) (environment : Environment) :
    Traced (Except SettingsError Settings) :=
  ⟨ofSources folder path? environment, path?.toList.map .loadingSettings⟩

end Settings

end PowerShare
