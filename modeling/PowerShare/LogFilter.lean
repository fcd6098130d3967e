import PowerShare.Event
import PowerShare.Number.Literal
import PowerShare.Text.Letters
import PowerShare.Text.Pattern
import PowerShare.Text.Split
import PowerShare.Text.Utf8

/-!
# Log filters

A filter is a list of directives, each a level for the lines that it speaks of: lines on any topic
or on those that start with a given text, and lines with a given field. The directive that fits a
line most closely decides about it, and a line without one is not shown.

* `LogFilter.shows` says which lines are shown.
* `LogFilter.parse?` reads a filter; one mistake makes the whole text invalid.
-/

namespace PowerShare

/-- A field that is asked for, with a pattern for its value or for any value. -/
structure FieldTest where
  name : List Char
  value? : Option (List Char)
  deriving DecidableEq, Inhabited

/-- A level for some of the lines. -/
structure Directive where
  /-- How the topics start. -/
  topic? : Option (List Char) := none
  /-- The span of time in which the lines are written. -/
  span? : Option (List Char) := none
  field? : Option FieldTest := none
  /-- Levels up to this verbosity are shown. -/
  verbosity : Nat := Level.trace.verbosity
  deriving DecidableEq, Inhabited

/-- Directives, of which later ones win over earlier ones for the same lines. -/
structure LogFilter where
  directives : List Directive
  deriving DecidableEq, Inhabited

namespace LogFilter

/-! ## 1. What a filter shows -/

/-- A filter that shows all topics up to a level. -/
def upTo (level : Level) : LogFilter := ⟨[{ verbosity := level.verbosity }]⟩

/-- How closely a directive fits a line: how much of the topic it names, and then by which field. -/
structure Fit where
  topic : Nat
  field? : Option (List Char)
  deriving DecidableEq, Inhabited

/-- Whether the second fit is as close as the first one. Of two fields the later name is closer. -/
def Fit.upTo (a b : Fit) : Bool :=
  a.topic < b.topic || (a.topic == b.topic &&
    match a.field?, b.field? with
    | none, _ => true
    | some _, none => false
    | some x, some y => !decide (y < x))

/-- How closely a directive fits a line, if it speaks of it. No line belongs to a span, and the
values of its fields are not compared. -/
def Directive.fit? (l : LogLine) (d : Directive) : Option Fit :=
  let topic? :=
    match d.topic? with
    | none => some 0
    | some start => if start.isPrefixOf l.topic.toList then some (start.length + 1) else none
  match d.span?, topic?, d.field? with
  | none, some topic, none => some ⟨topic, none⟩
  | none, some topic, some ⟨name, none⟩ =>
    if l.fields.contains (String.ofList name) then some ⟨topic, some name⟩ else none
  | _, _, _ => none

/-- The fit and verbosity of the directive that decides about a line. -/
def closest? (l : LogLine) (directives : List Directive) : Option (Fit × Nat) :=
  directives.foldl (fun best? d =>
    match Directive.fit? l d with
    | none => best?
    | some fit => if best?.all (·.1.upTo fit) then some (fit, d.verbosity) else best?) none

/-- Whether a line is shown. -/
def shows (f : LogFilter) (l : LogLine) : Bool :=
  (closest? l f.directives).any fun best => l.level.verbosity ≤ best.2

/-- The lines that events leave in the log. -/
def linesOf (f : LogFilter) (events : List Event) : List String :=
  ((events.filterMap Event.logLine?).filter f.shows).map LogLine.text

/-! ## 2. Levels and fields -/

/-- The verbosity of a level by its number. -/
def numberedVerbosity? (text : List Char) : Option Nat :=
  let (negative, digits) := splitSign text
  if negative then none else (naturalOf? digits).filter (· ≤ Level.trace.verbosity)

/-- The verbosity of a level by its name in any case or its number. -/
def verbosityOf? (text : List Char) : Option Nat :=
  match String.ofList (text.map Char.toLower) with
  | "off" => some 0
  | "error" => some Level.error.verbosity
  | "warn" => some Level.warn.verbosity
  | "info" => some Level.info.verbosity
  | "debug" => some Level.debug.verbosity
  | "trace" => some Level.trace.verbosity
  | _ => numberedVerbosity? text

/-- A directive with the level of a text, which shows everything if it is empty. -/
def withLevel (d : Directive) (text : List Char) : Option Directive :=
  if text.isEmpty then some d else (verbosityOf? text).map fun v => { d with verbosity := v }

/-- The field that a text asks for: a name, and a number or pattern behind an equals sign. What
follows a second equals sign does not matter. -/
def fieldTest? (text : List Char) : Option FieldTest :=
  match splitAt '=' text with
  | name :: value :: _ =>
    if (Binary64.ofText? value).isSome || isPattern value then some ⟨name, some value⟩ else none
  | _ => if text.isEmpty then none else some ⟨text, none⟩

/-! ## 3. Directives -/

/-- Marks, each beside the bytes that it stands for. -/
abbrev Marked := List (Char × List UInt8)

/-- A text that is read by the marks of another one, and what is left behind the last mark. -/
structure Guided where
  marked : Marked
  tail : List UInt8

/-- Bytes beside the marks of a text: each mark stands for as many bytes as it takes itself. -/
def Guided.of : List Char → List UInt8 → Guided
  | [], bytes => ⟨[], bytes⟩
  | mark :: marks, bytes =>
    let further := Guided.of marks (bytes.drop mark.utf8Size)
    { further with marked := (mark, bytes.take mark.utf8Size) :: further.marked }

/-- A directive is read by its text without the spaces around it, but its parts are taken from the
whole text, as many bytes from the start. So spaces in front push the parts apart from their marks,
and spaces behind belong to the last part. -/
def Guided.ofText (text : List Char) : Guided := Guided.of (withoutWhite text) (utf8 text)

/-- The bytes that marks stand for. -/
def bytesOf (marked : Marked) : List UInt8 := marked.flatMap (·.2)

/-- What marks stand for up to the first one that is one of the given ones. A part that begins or
ends inside a character is no text. -/
def upToMark? (marks : List Char) (marked : Marked) : Option (List Char) :=
  ofUtf8? (bytesOf (marked.takeWhile fun p => !marks.contains p.1))

/-- The marks from the first one on that is one of the given ones. -/
def fromMark (marks : List Char) (marked : Marked) : Marked :=
  marked.dropWhile fun p => !marks.contains p.1

/-- A directive with the level that marks and the tail stand for. -/
def withMarkedLevel (d : Directive) (tail : List UInt8) (marked : Marked) : Option Directive :=
  (ofUtf8? (bytesOf marked ++ tail)).bind (withLevel d)

/-- What may follow the bracket that closes a span: a level. -/
def afterSpan? (d : Directive) (tail : List UInt8) : Marked → Option Directive
  | [] => some d
  | ('=', _) :: level => withMarkedLevel d tail level
  | _ => none

/-- A field up to its closing brace, and what follows. -/
def field? (d : Directive) (tail : List UInt8) (marked : Marked) : Option Directive :=
  match fromMark ['\x7d'] marked with
  | _ :: (']', _) :: rest => do
    let test ← fieldTest? (← upToMark? ['\x7d'] marked)
    afterSpan? { d with field? := some test } tail rest
  | _ => none

/-- A span behind its opening bracket, a field in it, and what follows. A span may lack a name
only in front of a field. -/
def span? (d : Directive) (tail : List UInt8) (marked : Marked) : Option Directive := do
  let name ← upToMark? [']', '\x7b'] marked
  match fromMark [']', '\x7b'] marked with
  | [] => none
  | (']', _) :: rest => afterSpan? { d with span? := some name } tail rest
  | _ :: rest => field? (if name.isEmpty then d else { d with span? := some name }) tail rest

/-- A character that a topic may start with. -/
def startsTopic (c : Char) : Bool := isLetterOrNumber c || c == '_' || c == ':' || c == '-'

/-- A directive that is one word: a level, or a topic of which everything is shown. -/
def wordDirective (text : List Char) : Directive :=
  match verbosityOf? text with
  | some v => { verbosity := v }
  | none => { topic? := some text }

/-- A directive: a word, a topic and a level, or either of them around a span. -/
def directiveOf? (text : List Char) : Option Directive :=
  let ⟨marked, tail⟩ := Guided.ofText text
  match marked with
  | [] => none
  | ('[', _) :: rest => span? {} tail rest
  | (c, _) :: _ =>
    if !startsTopic c then none
    else
      match fromMark ['=', '['] marked with
      | [] => some (wordDirective text)
      | (mark, _) :: rest => do
        let d : Directive := { topic? := some (← upToMark? ['=', '['] marked) }
        if mark == '=' then withMarkedLevel d tail rest else span? d tail rest

/-- The filter of a text. Without directives only errors are shown. -/
def parse? (text : String) : Option LogFilter := do
  let directives ← ((splitAt ',' text.toList).filter fun p => !p.isEmpty).mapM directiveOf?
  return if directives.isEmpty then upTo .error else ⟨directives⟩

end LogFilter

end PowerShare
