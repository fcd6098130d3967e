import PowerShare.Text.Letters

/-!
# Patterns

A `Pattern` is a regular expression, with as much of it as decides whether it can be used: which
characters it names, but not how often something is repeated. Patterns stand between braces where
they are written, so a brace cannot close inside of one: counted repetitions and whatever else
needs braces are refused.

`Pattern.parse?` reads one. The steps are bounded by a number, for which twice the length of the
text is enough: at least every second step takes a character.
-/

namespace PowerShare

/-! ## 1. Patterns -/

/-- Settings that are switched on or off by their letters. -/
structure PatternSwitch where
  settings : List (Char × Bool) := []
  deriving DecidableEq, Inhabited

/-- Whether a setting is switched on or off, if it is switched. -/
def PatternSwitch.setting? (s : PatternSwitch) (letter : Char) : Option Bool :=
  (s.settings.find? (·.1 == letter)).map (·.2)

/-- Characters of which one is to match. -/
inductive CharSet where
  | nothing
  | char (c : Char)
  | span (first last : Char)
  /-- A class with a name of its own. -/
  | named (negated : Bool)
  /-- Digits, spaces or the characters of words. -/
  | short (negated : Bool)
  | union (sets : List CharSet)
  /-- Two sets, of whose characters some are left out. -/
  | operation (left right : CharSet)
  | bracketed (negated : Bool) (inner : CharSet)
  deriving Inhabited

inductive Pattern where
  | nothing
  /-- A character. It may be given as a byte. -/
  | char (c : Char) (asByte : Bool)
  | any
  /-- The start or the end of a line or of the text. -/
  | edge
  /-- The start or the end of a word, or a place that is neither. -/
  | wordEdge
  /-- Digits, spaces or the characters of words. -/
  | short (negated : Bool)
  | set (negated : Bool) (inner : CharSet)
  /-- A switch for the rest of the group. -/
  | switch (s : PatternSwitch)
  | repeated (p : Pattern)
  | group (s : PatternSwitch) (p : Pattern)
  | sequence (ps : List Pattern)
  | choice (ps : List Pattern)
  deriving Inhabited

namespace Pattern

/-! ## 2. Spaces -/

/-- What is still to be read. -/
structure Unread where
  text : List Char
  /-- Spaces and comments are passed over. -/
  spaced : Bool := false
  /-- The names of the groups so far. -/
  names : List (List Char) := []

/-- A text without the spaces and comments at its start. A comment ends with its line. -/
def withoutComments (inComment : Bool) : List Char → List Char
  | [] => []
  | c :: rest =>
    if inComment then withoutComments (c != '\n') rest
    else if c == '#' then withoutComments true rest
    else if isWhite c then withoutComments false rest
    else c :: rest

/-- A text without the spaces and comments at its start, if they are passed over. -/
def skipped (spaced : Bool) (text : List Char) : List Char :=
  if spaced then withoutComments false text else text

/-- What is to be read behind spaces and comments. -/
def Unread.next (u : Unread) : Unread := { u with text := skipped u.spaced u.text }

/-- What is to be read behind the given text and spaces and comments. -/
def Unread.from (u : Unread) (text : List Char) : Unread :=
  { u with text := skipped u.spaced text }

/-- The first character behind spaces. Of a comment only the mark in front is passed over. -/
def glimpse? (inComment : Bool) : List Char → Option Char
  | [] => none
  | c :: rest =>
    if isWhite c then glimpse? inComment rest
    else if !inComment && c == '#' then glimpse? true rest
    else some c

/-- The character that a look ahead of a dash finds. -/
def Unread.ahead? (u : Unread) (text : List Char) : Option Char :=
  if u.spaced then (glimpse? false text).or text.head? else text.head?

/-! ## 3. Escapes -/

/-- The value of a digit of base 16. -/
def hexDigit? (c : Char) : Option Nat :=
  if c.isDigit then some (c.toNat - 48)
  else if 'a' ≤ c && c ≤ 'f' then some (c.toNat - 87)
  else if 'A' ≤ c && c ≤ 'F' then some (c.toNat - 55)
  else none

/-- The number that so many digits of base 16 spell behind others, and what follows. -/
def hexNumber? (spaced : Bool) : Nat → Nat → List Char → Option (Nat × List Char)
  | 0, value, text => some (value, text)
  | _ + 1, _, [] => none
  | count + 1, value, c :: rest =>
    (hexDigit? c).bind fun d => hexNumber? spaced count (value * 16 + d) (skipped spaced rest)

/-- A character by its code point of so many digits. -/
def codePoint? (u : Unread) (count : Nat) (asByte : Bool) (text : List Char) :
    Option (Pattern × Unread) := do
  let (value, rest) ← hexNumber? u.spaced count 0 (skipped u.spaced text)
  if value.isValidChar then some (.char (Char.ofNat value) asByte, { u with text := rest })
  else none

/-- What an escape stands for, behind its backslash. All characters but letters and digits stand
for themselves. -/
def escape? (u : Unread) : Option (Pattern × Unread) :=
  match u.text with
  | [] => none
  | c :: rest =>
    let plain (p : Pattern) := some (p, { u with text := rest })
    match c with
    | 'x' => codePoint? u 2 true rest
    | 'u' => codePoint? u 4 false rest
    | 'U' => codePoint? u 8 false rest
    | 'd' | 's' | 'w' => plain (.short false)
    | 'D' | 'S' | 'W' => plain (.short true)
    | 'A' | 'z' => plain .edge
    | 'b' | 'B' | '<' | '>' => plain .wordEdge
    | 'a' => plain (.char '\x07' false)
    | 'f' => plain (.char '\x0c' false)
    | 't' => plain (.char '\t' false)
    | 'n' => plain (.char '\n' false)
    | 'r' => plain (.char '\r' false)
    | 'v' => plain (.char '\x0b' false)
    | c => if c.isAlphanum || 128 ≤ c.toNat then none else plain (.char c false)

/-! ## 4. Sets of characters -/

/-- The names of the classes that have one. -/
def classNames : List String :=
  ["alnum", "alpha", "ascii", "blank", "cntrl", "digit", "graph", "lower", "print", "punct",
    "space", "upper", "word", "xdigit"]

/-- A class by its name between colons, behind its opening bracket. -/
def namedClass? (text : List Char) : Option (CharSet × List Char) :=
  match text with
  | ':' :: text =>
    let negated := text.head? == some '^'
    let text := if negated then text.tail else text
    match text.dropWhile (· != ':') with
    | ':' :: ']' :: rest =>
      if classNames.contains (String.ofList (text.takeWhile (· != ':'))) then
        some (.named negated, rest)
      else none
    | _ => none
  | _ => none

/-- One set of some sets, the last of which is given first. -/
def unionOf : List CharSet → CharSet
  | [] => .nothing
  | [one] => one
  | sets => .union sets.reverse

/-- A set behind the ones that an operation joins it to. -/
def joined (left? : Option CharSet) (right : CharSet) : CharSet :=
  match left? with
  | none => right
  | some left => .operation left right

/-- A character or an escape in a set. -/
def setPart? (u : Unread) : Option (Pattern × Unread) :=
  match u.text with
  | [] => none
  | '\\' :: rest => escape? { u with text := rest }
  | c :: rest => some (.char c false, { u with text := rest })

/-- A range of characters, or what it would start with. -/
def range? (u : Unread) : Option (CharSet × Unread) := do
  let (first, v) ← setPart? u
  let v := v.next
  let single : Option (CharSet × Unread) :=
    match first with
    | .char c _ => some (.char c, v)
    | .short negated => some (.short negated, v)
    | _ => none
  match v.text with
  | [] => none
  | '-' :: rest =>
    let ahead? := v.ahead? rest
    if ahead? == some ']' || ahead? == some '-' then single
    else
      let (last, w) ← setPart? (v.from rest)
      match first, last with
      | .char a _, .char b _ => if a ≤ b then some (.span a b, w) else none
      | _, _ => none
  | _ => single

/-- The dashes at the start of a set, which stand for themselves, and what follows them. -/
def leadingDashes (u : Unread) : Nat → List Char → List CharSet × List Char
  | 0, text => ([], text)
  | steps + 1, text =>
    match text with
    | '-' :: rest =>
      let (dashes, further) := leadingDashes u steps (skipped u.spaced rest)
      (.char '-' :: dashes, further)
    | _ => ([], text)

/-- The start of a set behind its bracket: whether it is turned around, and the characters that
stand for themselves only here. -/
def setStart (u : Unread) : Bool × List CharSet × Unread :=
  let u := u.next
  let negated := u.text.head? == some '^'
  let u := if negated then u.from u.text.tail else u
  let (dashes, text) := leadingDashes u u.text.length u.text
  match dashes, text with
  | [], ']' :: rest => (negated, [.char ']'], u.from rest)
  | _, _ => (negated, dashes, { u with text := text })

/-- The rest of a set up to and with its closing bracket. The sets so far are given, the last of
them first, and those in front of the last operation. -/
def setRest? : Nat → Option CharSet → List CharSet → Unread → Option (CharSet × Unread)
  | 0, _, _, _ => none
  | steps + 1, left?, sets, u =>
    let u := u.next
    let operation (rest : List Char) :=
      setRest? steps (some (joined left? (unionOf sets))) [] { u with text := rest }
    match u.text with
    | [] => none
    | ']' :: rest => some (joined left? (unionOf sets), { u with text := rest })
    | '&' :: '&' :: rest => operation rest
    | '-' :: '-' :: rest => operation rest
    | '~' :: '~' :: rest => operation rest
    | '[' :: rest =>
      match namedClass? rest with
      | some (named, further) => setRest? steps left? (named :: sets) { u with text := further }
      | none => do
        let (negated, first, v) := setStart { u with text := rest }
        let (inner, w) ← setRest? steps none first v
        setRest? steps left? (.bracketed negated inner :: sets) w
    | _ => do
      let (range, v) ← range? u
      setRest? steps left? (range :: sets) v

/-! ## 5. Groups -/

/-- The letters of the settings. -/
def settingLetters : List Char := ['i', 'm', 's', 'U', 'u', 'R', 'x']

/-- The settings that letters switch on, or off behind a dash. None is named twice, and something
follows the dash. -/
def switch? (on : Bool) : List Char → Option PatternSwitch
  | [] => some {}
  | '-' :: rest => if on && !rest.isEmpty then switch? false rest else none
  | c :: rest => do
    let s ← switch? on rest
    if settingLetters.contains c && (s.setting? c).isNone then
      some { settings := (c, on) :: s.settings }
    else none

/-- Whether a text may name a group. -/
def isGroupName : List Char → Bool
  | [] => false
  | c :: rest =>
    (isLetter c || c == '_') &&
      rest.all fun c => isLetterOrNumber c || c == '_' || c == '.' || c == '[' || c == ']'

/-- The start of a group or a switch. -/
inductive GroupStart where
  | group (s : PatternSwitch)
  | switch (s : PatternSwitch)

/-- The start of a group with a new name, which ends with a bracket. -/
def groupName? (u : Unread) (text : List Char) : Option (GroupStart × Unread) :=
  let name := text.takeWhile (· != '>')
  match text.dropWhile (· != '>') with
  | _ :: rest =>
    if isGroupName name && !u.names.contains name then
      some (.group {}, { u with text := rest, names := name :: u.names })
    else none
  | [] => none

/-- The start of a group behind its bracket. -/
def groupStart? (u : Unread) : Option (GroupStart × Unread) :=
  let u := u.next
  match u.text with
  | '?' :: 'P' :: '<' :: text => groupName? u text
  | '?' :: '<' :: text => groupName? u text
  | '?' :: text =>
    let letters := text.takeWhile fun c => c != ':' && c != ')'
    match text.dropWhile fun c => c != ':' && c != ')' with
    | ':' :: rest => (switch? true letters).map fun s => (.group s, { u with text := rest })
    | _ :: rest =>
      if letters.isEmpty then none
      else (switch? true letters).map fun s => (.switch s, { u with text := rest })
    | [] => none
  | _ => some (.group {}, u)

/-- Whether spaces are passed over behind a switch. -/
def Unread.switched (u : Unread) (s : PatternSwitch) : Unread :=
  { u with spaced := (s.setting? 'x').getD u.spaced }

/-! ## 6. Patterns -/

/-- One pattern of a row of patterns, the last of which is given first. -/
def sequenceOf : List Pattern → Pattern
  | [] => .nothing
  | [p] => p
  | ps => .sequence ps.reverse

/-- Whether a mark of repetition may follow. -/
def isRepeatable : Pattern → Bool
  | .switch _ => false
  | _ => true

mutual

/-- Patterns up to the end of a group or to the next choice. Those so far are given, the last of
them first. -/
def parts? : Nat → List Pattern → Unread → Option (Pattern × Unread)
  | 0, _, _ => none
  | steps + 1, ps, u =>
    let u := u.next
    match u.text with
    | [] => some (sequenceOf ps, u)
    | c :: rest =>
      let v : Unread := { u with text := rest }
      match c with
      | ')' | '|' => some (sequenceOf ps, u)
      | '(' => do
        match ← groupStart? v with
        | (.switch s, w) => parts? steps (.switch s :: ps) (w.switched s)
        | (.group s, w) =>
          let (p, x) ← choices? steps [] (w.switched s)
          match x.text with
          | ')' :: further =>
            parts? steps (.group s p :: ps) { x with text := further, spaced := u.spaced }
          | _ => none
      | '[' => do
        let (negated, first, w) := setStart v
        let (inner, x) ← setRest? steps none first w
        parts? steps (.set negated inner :: ps) x
      | '*' | '+' | '?' =>
        match ps with
        | [] => none
        | p :: earlier =>
          if isRepeatable p then
            let further := if rest.head? == some '?' then rest.tail else rest
            parts? steps (.repeated p :: earlier) { u with text := further }
          else none
      | '{' => none
      | '\\' => do
        let (p, w) ← escape? v
        parts? steps (p :: ps) w
      | '.' => parts? steps (.any :: ps) v
      | '^' | '$' => parts? steps (.edge :: ps) v
      | c => parts? steps (.char c false :: ps) v

/-- A choice of patterns up to the end of a group. Those so far are given, the last of them
first. -/
def choices? : Nat → List Pattern → Unread → Option (Pattern × Unread)
  | 0, _, _ => none
  | steps + 1, ps, u => do
    let (p, v) ← parts? steps [] u
    match v.text with
    | '|' :: rest => choices? steps (p :: ps) { v with text := rest }
    | _ =>
      if ps.isEmpty then some (p, v) else some (.choice (p :: ps).reverse, v)

end

/-- The pattern that a whole text spells. -/
def parse? (text : List Char) : Option Pattern := do
  let (p, u) ← choices? (2 * text.length + 2) [] { text }
  if u.text.isEmpty then some p else none

end Pattern

end PowerShare
