import PowerShare.Number.Literal
import PowerShare.Number.Notation
import PowerShare.Profile
import PowerShare.Settings.Path
import PowerShare.Text.Shown

/-!
# Converting settings

Single values are converted generously: a flag may be a number or a word, a number may be a flag
or a text. What cannot be converted is refused with the path that led to it and its origin.

A record is read from a table by the names of its fields or from a list by their order. Fields
that are missing keep the value they had, members that are no fields are passed over.
-/

namespace PowerShare

/-! ## 1. What is refused -/

/-- A setting as messages name it. -/
inductive Given where
  | nothing
  | boolean (value : Bool)
  | integer (value : Int64)
  | number (value : Binary64)
  | text (value : String)
  | list
  | table
  deriving DecidableEq

/-- Why settings are not loaded. -/
inductive SettingsError where
  /-- The file is not TOML. Where the parser gave up, and why, is not kept. -/
  | malformedFile
  /-- The file is not text. -/
  | notText
  | fileNotFound (path : String)
  | unknownFormat (path : String)
  /-- A setting that has no conversion. -/
  | wrongType (path : List Step) (origin? : Option String) (given : Given) (wanted : String)
  /-- A setting in the place of a record or list. -/
  | wrongShape (given : Given) (wanted : String)
  | invalidProfile (error : ProfileError)
  deriving DecidableEq

/-- Numbers in messages are written positionally, and whole ones keep their point. -/
def settingNotation : Notation := ⟨.up, none, none, true, false⟩

def Given.name : Given → String
  | nothing => "unit value"
  | boolean value => "boolean `" ++ (if value then "true" else "false") ++ "`"
  | integer value => "integer `" ++ String.ofList (integerText value.toInt) ++ "`"
  | number value => "floating point `" ++ String.ofList (settingNotation.render value) ++ "`"
  | text value => "string " ++ String.ofList (shown value)
  | list => "sequence"
  | table => "map"

/-- An integer without a conversion is named with its width. -/
def Given.refusedName : Given → String
  | integer value => "integer 64 bit `" ++ String.ofList (integerText value.toInt) ++ "`"
  | given => given.name

/-- The text of an error. That a file is not TOML is told in the words of the TOML parser, which
point into the file; they are left out here, so this text alone is empty. -/
def SettingsError.message : SettingsError → String
  | malformedFile => ""
  | notText => "stream did not contain valid UTF-8"
  | fileNotFound path => "configuration file \"" ++ path ++ "\" not found"
  | unknownFormat path =>
    "configuration file \"" ++ path ++ "\" is not of a registered file format"
  | wrongType path origin? given wanted =>
    "invalid type: " ++ given.refusedName ++ ", expected " ++ wanted ++ " for key `" ++
      String.ofList (pathText path) ++ "`" ++
        match origin? with
        | some origin => " in " ++ origin
        | none => ""
  | wrongShape given wanted => "invalid type: " ++ given.name ++ ", expected " ++ wanted
  | invalidProfile error => error.message

/-- The error seen from one step further up. -/
def SettingsError.below (step : Step) : SettingsError → SettingsError
  | wrongType path origin? given wanted => wrongType (step :: path) origin? given wanted
  | e => e

def Scalar.given : Scalar → Given
  | nothing => .nothing
  | boolean value => .boolean value
  | integer value => .integer value
  | number value => .number value
  | text value => .text value

namespace Setting

def given : Setting → Given
  | .scalar _ value => value.given
  | .list _ _ => .list
  | .table _ _ => .table

def origin? : Setting → Option String
  | .scalar origin? _ | .list origin? _ | .table origin? _ => origin?

/-- Refuses a setting that has no conversion to what is wanted. -/
def refuse (s : Setting) (wanted : String) : Except SettingsError α :=
  .error (.wrongType [] s.origin? s.given wanted)

/-! ## 2. Single values -/

/-- The words that mean yes and no. -/
def flagOf? (text : String) : Option Bool :=
  match lowercase text with
  | "true" | "on" | "yes" => some true
  | "false" | "off" | "no" => some false
  | _ => none

/-- A flag. Of the texts, `1` and `0` are flags too; any other one is named in small letters. -/
def toBool (s : Setting) : Except SettingsError Bool :=
  match s with
  | .scalar _ (.boolean b) => .ok b
  | .scalar _ (.integer i) => .ok (i != 0)
  | .scalar _ (.number x) => .ok !x.isZero
  | .scalar origin? (.text t) =>
    match flagOf? t with
    | some b => .ok b
    | none =>
      match lowercase t with
      | "1" => .ok true
      | "0" => .ok false
      | small => .error (.wrongType [] origin? (.text small) "a boolean")
  | s => s.refuse "a boolean"

def toBinary64 (s : Setting) : Except SettingsError Binary64 :=
  match s with
  | .scalar _ (.boolean b) => .ok (Binary64.ofNat b.toNat)
  | .scalar _ (.integer i) => .ok (Binary64.ofInt i.toInt)
  | .scalar _ (.number x) => .ok x
  | .scalar _ (.text t) =>
    match flagOf? t with
    | some b => .ok (Binary64.ofNat b.toNat)
    | none =>
      match Binary64.ofText? t.toList with
      | some x => .ok x
      | none => s.refuse "a floating point"
  | s => s.refuse "a floating point"

/-- A number without its sign as a whole number of 64 bits, the nearest one, a half going up. -/
def wholeOf (x : Binary64) : Nat :=
  if x.isNaN || x.negative then 0
  else if x.isInfinite then 2 ^ 64 - 1
  else min ((2 * x.units + Binary64.oneUnits) / (2 * Binary64.oneUnits)) (2 ^ 64 - 1)

/-- The whole number of a text, with an optional plus sign. It has to fit 64 bits. -/
def wholeOfText? (text : List Char) : Option Nat :=
  let digits := if text.head? == some '+' then text.tail else text
  (naturalOf? digits).filter (· < 2 ^ 64)

/-- A whole number of 64 bits. -/
def toWhole (s : Setting) : Except SettingsError Nat :=
  match s with
  | .scalar _ (.boolean b) => .ok b.toNat
  | .scalar _ (.integer i) =>
    if i < 0 then s.refuse "an unsigned 64 bit or less integer" else .ok i.toInt.toNat
  | .scalar _ (.number x) => .ok (wholeOf x)
  | .scalar _ (.text t) =>
    match flagOf? t with
    | some b => .ok b.toNat
    | none =>
      match wholeOfText? t.toList with
      | some n => .ok n
      | none => s.refuse "an integer"
  | s => s.refuse "an integer"

/-- A consumer: of its number the lower 32 bits count. -/
def toConsumer (s : Setting) : Except SettingsError Consumer := do
  return ⟨UInt32.ofNat (← s.toWhole)⟩

/-! ## 3. Lists and records -/

/-- What a conversion says, seen from one step further up. -/
def under (step : Step) (r : Except SettingsError α) : Except SettingsError α :=
  r.mapError (SettingsError.below step)

/-- The items of a list, converted one after another from the given position on. -/
def itemsFrom (item : Setting → Except SettingsError α) : Nat → List Setting →
    Except SettingsError (List α)
  | _, [] => .ok []
  | i, s :: rest => do
    let a ← under (.item i) (item s)
    return a :: (← itemsFrom item (i + 1) rest)

def toList (item : Setting → Except SettingsError α) : Setting → Except SettingsError (List α)
  | .list _ items => itemsFrom item 0 items
  | s => .error (.wrongShape s.given "a sequence")

/-- A field of a record: its name and how a setting changes the record. -/
structure SettingField (σ : Type) where
  name : String
  set : Setting → σ → Except SettingsError σ

/-- A record changed by the members of a table. -/
def setMembers (fields : List (SettingField σ)) :
    List (String × Setting) → σ → Except SettingsError σ
  | [], record => .ok record
  | (key, s) :: rest, record =>
    match fields.find? (·.name == key) with
    | some field => do setMembers fields rest (← under (.name key) (field.set s record))
    | none => setMembers fields rest record

/-- A record changed by the items of a list from the given position on. -/
def setItems : Nat → List (SettingField σ) → List Setting → σ → Except SettingsError σ
  | i, field :: fields, s :: rest, record => do
    setItems (i + 1) fields rest (← under (.item i) (field.set s record))
  | _, _, _, record => .ok record

/-- The record that a setting changes the given one into. -/
def toRecord (wanted : String) (fields : List (SettingField σ)) (start : σ) :
    Setting → Except SettingsError σ
  | .table _ members => setMembers fields members start
  | .list _ items => setItems 0 fields items start
  | s => .error (.wrongShape s.given wanted)

end Setting

end PowerShare
