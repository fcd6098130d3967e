import PowerShare.Number.Literal
import PowerShare.Profile

/-!
# Command lines

A command line asks for a `Request`, or it is refused. Every option has a long name, behind two
dashes, and may have a letter, behind one; a value follows in the same word or in the next one,
which must not look like an option itself. No option may be given twice. Words are looked at from
left to right, and the first request for help or mistake decides.
-/

namespace PowerShare

/-- What an attribution is asked for. -/
structure AttributionArguments where
  /-- The file with the observations. -/
  snapshot? : Option String := none
  settings? : Option String := none
  /-- The component that the file observes. Without it the file names its components. -/
  component? : Option Component := none
  breakdown : Bool := false
  forceEstimate : Bool := false
  json? : Option String := none
  wire? : Option String := none
  legacy : Bool := false
  metrics : Bool := false
  /-- How many consumers are listed of each component. -/
  top : Nat := 10
  verbose : Bool := false
  deriving DecidableEq, Inhabited

/-- What a look at the profile is asked for. -/
structure ProfileArguments where
  settings? : Option String := none
  toml : Bool := false
  verbose : Bool := false
  deriving DecidableEq, Inhabited

/-- The page of help that is asked for. -/
inductive HelpPage where
  | overview
  | attribution
  | profile
  /-- The page about help itself. -/
  | help
  deriving DecidableEq, Inhabited

/-- What a command line asks for. -/
inductive Request where
  | attribution (snapshot : String) (arguments : AttributionArguments)
  | profile (arguments : ProfileArguments)
  | help (page : HelpPage)
  | version
  deriving DecidableEq, Inhabited

/-- Why the arguments of a command are not read to their end. -/
inductive Stop where
  | mistake
  | help
  deriving DecidableEq, Inhabited

/-! ## 1. Options -/

/-- What an option does to the arguments read so far. -/
inductive Effect (σ : Type) where
  | switch (set : σ → σ)
  | value (set : String → σ → Option σ)
  | help

/-- An option of a command. -/
structure Choice (σ : Type) where
  long : String
  letter? : Option Char
  effect : Effect σ

/-- Arguments read so far, and the options that were used for them. -/
structure Gathered (σ : Type) where
  arguments : σ
  used : List String := []

namespace Choice

/-- Notes that an option is used, which may happen once. -/
def mark (c : Choice σ) (g : Gathered σ) : Except Stop (Gathered σ) :=
  if g.used.contains c.long then .error .mistake else .ok { g with used := c.long :: g.used }

/-- Uses an option with a value. -/
def give (c : Choice σ) (value : String) (g : Gathered σ) : Except Stop (Gathered σ) := do
  let marked ← c.mark g
  match c.effect with
  | .value set =>
    match set value marked.arguments with
    | some arguments => return { marked with arguments := arguments }
    | none => .error .mistake
  | .switch _ => .error .mistake
  | .help => .error .mistake

end Choice

/-! ## 2. Words -/

/-- What was read up to the end of a word. -/
structure AfterWord (σ : Type) where
  gathered : Gathered σ
  /-- The option that takes the next word as its value, if there is one. -/
  awaiting? : Option (Choice σ) := none

/-- An option by its long name, with the value in the same word. -/
def readLong (choices : List (Choice σ)) (name : List Char) (value? : Option (List Char))
    (g : Gathered σ) : Except Stop (AfterWord σ) :=
  match choices.find? fun c => c.long.toList == name with
  | none => .error .mistake
  | some c =>
    match value? with
    | some value => do return { gathered := ← c.give (String.ofList value) g }
    | none =>
      match c.effect with
      | .switch set => do
        let marked ← c.mark g
        return { gathered := { marked with arguments := set marked.arguments } }
      | .value _ => .ok ⟨g, some c⟩
      | .help => .error .help

/-- Options by their letters. The first one that takes a value takes the rest of the word, without
an equals sign in front. -/
def readLetters (choices : List (Choice σ)) : List Char → Gathered σ → Except Stop (AfterWord σ)
  | [], g => .ok { gathered := g }
  | letter :: rest, g =>
    match choices.find? fun c => c.letter? == some letter with
    | none => .error .mistake
    | some c =>
      match c.effect with
      | .switch set => do
        let marked ← c.mark g
        readLetters choices rest { marked with arguments := set marked.arguments }
      | .value _ =>
        match rest with
        | [] => .ok ⟨g, some c⟩
        | '=' :: value => do return { gathered := ← c.give (String.ofList value) g }
        | value => do return { gathered := ← c.give (String.ofList value) g }
      | .help => .error .help

/-- Two dashes, behind which nothing is an option. -/
def optionsEnd : List Char := ['-', '-']

/-- What one word does. -/
def readWord (choices : List (Choice σ)) (word : List Char) (g : Gathered σ) :
    Except Stop (AfterWord σ) :=
  match word with
  | '-' :: '-' :: text =>
    let name := text.takeWhile (· != '=')
    readLong choices name ((text.dropWhile (· != '=')).tail?) g
  | '-' :: letter :: letters => readLetters choices (letter :: letters) g
  | _ => .error .mistake

/-- Whether a word looks like an option and so is no value. A single dash does not. -/
def looksLikeOption (word : List Char) : Bool := word.head? == some '-' && word != ['-']

/-- All words of a command. -/
def readWords (choices : List (Choice σ)) : List String → Gathered σ → Except Stop σ
  | [], g => .ok g.arguments
  | word :: rest, g =>
    if word.toList == optionsEnd then
      if rest.isEmpty then .ok g.arguments else .error .mistake
    else
      match readWord choices word.toList g with
      | .error stop => .error stop
      | .ok ⟨next, none⟩ => readWords choices rest next
      | .ok ⟨next, some c⟩ =>
        match rest with
        | [] => .error .mistake
        | value :: further =>
          if looksLikeOption value.toList then .error .mistake
          else
            match c.give value next with
            | .error stop => .error stop
            | .ok given => readWords choices further given

/-! ## 3. Commands -/

/-- A path is any text but the empty one. -/
def pathValue (set : String → σ → σ) : Effect σ :=
  .value fun text arguments => if text.isEmpty then none else some (set text arguments)

/-- A count of at most 64 bits. -/
def countOf? (text : String) : Option Nat :=
  let (negative, digits) := splitSign text.toList
  if negative then none else (naturalOf? digits).filter (· < 2 ^ 64)

def helpChoice : Choice σ := ⟨"help", some 'h', .help⟩

def attributionChoices : List (Choice AttributionArguments) :=
  [⟨"snapshot", some 's', pathValue fun p a => { a with snapshot? := some p }⟩,
    ⟨"config", some 'c', pathValue fun p a => { a with settings? := some p }⟩,
    ⟨"component", none, .value fun text a =>
      (Component.ofAlias? text).map fun c => { a with component? := some c }⟩,
    ⟨"per-state", none, .switch fun a => { a with breakdown := true }⟩,
    ⟨"force-profile", none, .switch fun a => { a with forceEstimate := true }⟩,
    ⟨"json", none, pathValue fun p a => { a with json? := some p }⟩,
    ⟨"wire", none, pathValue fun p a => { a with wire? := some p }⟩,
    ⟨"legacy", none, .switch fun a => { a with legacy := true }⟩,
    ⟨"metrics", none, .switch fun a => { a with metrics := true }⟩,
    ⟨"top", some 'n', .value fun text a => (countOf? text).map fun n => { a with top := n }⟩,
    ⟨"verbose", some 'v', .switch fun a => { a with verbose := true }⟩,
    helpChoice]

def profileChoices : List (Choice ProfileArguments) :=
  [⟨"config", some 'c', pathValue fun p a => { a with settings? := some p }⟩,
    ⟨"toml", none, .switch fun a => { a with toml := true }⟩,
    ⟨"verbose", some 'v', .switch fun a => { a with verbose := true }⟩,
    helpChoice]

/-- The request of an attribution, which needs a snapshot. -/
def attributionRequest? (words : List String) : Option Request :=
  match readWords attributionChoices words ⟨{}, []⟩ with
  | .ok arguments => arguments.snapshot?.map fun snapshot => .attribution snapshot arguments
  | .error .help => some (.help .attribution)
  | .error .mistake => none

def profileRequest? (words : List String) : Option Request :=
  match readWords profileChoices words ⟨{}, []⟩ with
  | .ok arguments => some (.profile arguments)
  | .error .help => some (.help .profile)
  | .error .mistake => none

/-- The page of help for the command of this name. -/
def helpRequest? : List String → Option Request
  | [] => some (.help .overview)
  | ["attribute"] => some (.help .attribution)
  | ["profile"] => some (.help .profile)
  | ["help"] => some (.help .help)
  | _ => none

/-- What a command line asks for, if it is a correct one. -/
def Request.ofWords? : List String → Option Request
  | [] => none
  | first :: rest =>
    match first.toList with
    | '-' :: 'h' :: _ => some (.help .overview)
    | '-' :: 'V' :: _ => some .version
    | _ =>
      match first with
      | "--help" => some (.help .overview)
      | "--version" => some .version
      | "attribute" => attributionRequest? rest
      | "profile" => profileRequest? rest
      | "help" => helpRequest? rest
      | _ => none

/-- Whether a request asks for a log of details. -/
def Request.verbose : Request → Bool
  | .attribution _ arguments => arguments.verbose
  | .profile arguments => arguments.verbose
  | .help _ => false
  | .version => false

end PowerShare
