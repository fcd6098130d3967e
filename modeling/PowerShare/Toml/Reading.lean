import PowerShare.Toml.Number

/-!
# Reading TOML values and lines

* `value` reads a value from its first token on. Lists may go over several lines, tables in braces
  may not. The nesting is bounded by a depth, for which the number of tokens is always enough.
* `line` reads a header or a key with its value, which has a line to itself.

A word is a date or time by its look alone (`looksLikeMoment`); then it has to be one.
-/

namespace PowerShare.Toml

open Reader

/-! ## 1. Keys -/

/-- Passes over spaces. -/
def skipBlanks : TokenReader Unit := do
  match ← peek? with
  | some (.blank _) => advance
  | _ => pure ()

/-- Takes this token, which has to be next. -/
def expect (t : Token) : TokenReader Unit := do
  if !(← eat t) then refuse

/-- One part of a key. -/
def keyPart : TokenReader String := do
  match ← next? with
  | some (.word key) => return String.ofList key
  | some (.text key false) => return String.ofList key
  | _ => refuse

/-- The further parts of a key, each behind a dot. What follows the last one has to be the token
`closing`, and is taken. -/
def keyParts (closing : Token) : TokenReader (List String) := do
  let parts ← scan (fun _ => Refused.malformed) (fun (parts : List String) t =>
    match t with
    | .dot => do
      skipBlanks
      let part ← keyPart
      skipBlanks
      return .inl (part :: parts)
    | t => if t == closing then pure (.inr parts) else refuse) []
  return parts.reverse

/-- A key up to and with the token that closes it. -/
def path (closing : Token) : TokenReader Path := do
  let first ← keyPart
  skipBlanks
  return ⟨first, ← keyParts closing⟩

/-! ## 2. Dates and times -/

/-- Whether a word has a negative exponent somewhere. -/
def hasNegativeExponent (word : List Char) : Bool :=
  (word.zip word.tail).any fun p => (p.1 == 'e' || p.1 == 'E') && p.2 == '-'

/-- Whether a word is to be read as a date or time. -/
def looksLikeMoment (word : List Char) : Bool :=
  word.contains 'T' || word.contains 't' ||
    (word.tail.contains '-' && !hasNegativeExponent word)

/-- A word that has to be next. -/
def wordText : TokenReader (List Char) := do
  match ← next? with
  | some (.word w) => return w
  | _ => refuse

/-- A mark and the word behind it, if the mark is next. -/
def marked (mark : Token) (c : Char) : TokenReader (List Char) := do
  if ← eat mark then return c :: (← wordText) else return []

/-- The time behind a date, if one blank and a word stand between them. -/
def spacedTime : TokenReader (List Char) := do
  match ← upcoming 2 with
  | [.blank [' '], .word w] =>
    advance
    advance
    return ' ' :: w
  | _ => return []

/-- The minutes, seconds and what may follow them, behind the colon of the hour. -/
def afterHour : TokenReader (List Char) := do
  let minute ← wordText
  expect .colon
  let second ← wordText
  let places ← marked .dot '.'
  let east ← marked .plus '+'
  let minutes ← marked .colon ':'
  return minute ++ ':' :: second ++ places ++ east ++ minutes

/-- A date or time that starts with the given word, the colon behind which may have been taken. -/
def momentText (word : List Char) (colonTaken : Bool) : TokenReader Value := do
  let time ← if colonTaken then pure [] else spacedTime
  let hasMinutes ← if colonTaken then pure true else eat .colon
  let minutes ← if hasMinutes then do pure (':' :: (← afterHour)) else pure []
  return .moment (← orFail (Moment.parse (word ++ time ++ minutes)))

/-! ## 3. Values -/

/-- A number, a date or a time that starts with the given word. -/
def numberOrMoment (word : List Char) : TokenReader Value := do
  if looksLikeMoment word then momentText word false
  else if ← eat .colon then momentText word true
  else number word

/-- A value whose first token is a word. -/
def wordValue (word : List Char) : TokenReader Value :=
  match String.ofList word with
  | "true" => pure (.boolean true)
  | "false" => pure (.boolean false)
  | "inf" | "nan" => numberOrMoment word
  | _ => if word.head?.any (fun c => c == '-' || isDecimal c) then numberOrMoment word else refuse

/-- Passes over spaces, line ends and comments. -/
def skipLines : TokenReader Unit := do
  let _ ← takeWhile fun
    | .blank _ | .newline | .comment => true
    | _ => false

/-- A list behind its opening bracket. -/
def listItems (item : Token → TokenReader Node) : TokenReader Node := do
  skipLines
  scan (fun _ => Refused.malformed) (fun (read : List Node) t =>
    if t == .closeBracket then pure (.inr (.list read.reverse))
    else do
      let v ← item t
      skipLines
      if ← eat .comma then
        skipLines
        return .inl (v :: read)
      else
        expect .closeBracket
        return .inr (.list (v :: read).reverse)) []

/-- One key with its value in a table in braces, and the blanks behind it. -/
def tableEntry (item : Token → TokenReader Node) (members : Members) : TokenReader Members := do
  let key ← path .equals
  skipBlanks
  match ← next? with
  | some t =>
    let v ← item t
    skipBlanks
    orFail (members.addValue v key.first key.rest)
  | none => refuse

/-- A table behind its opening brace. -/
def tableEntries (item : Token → TokenReader Node) : TokenReader Node := do
  skipBlanks
  if ← eat .closeBrace then return .table .braced []
  let first ← tableEntry item []
  scan (fun _ => Refused.malformed) (fun (members : Members) t =>
    match t with
    | .comma => do
      skipBlanks
      return .inl (← tableEntry item members)
    | .closeBrace => pure (.inr (.table .braced members))
    | _ => refuse) first

/-- The value whose first token is given. -/
def valueFrom : Nat → Token → TokenReader Node
  | 0, _ => refuse
  | depth + 1, t =>
    match t with
    | .text value _ => pure (.value (.text (String.ofList value)))
    | .word word => do return .value (← wordValue word)
    | .plus => do return .value (← number (← wordText))
    | .openBracket => listItems (valueFrom depth)
    | .openBrace => tableEntries (valueFrom depth)
    | _ => refuse

/-! ## 4. Lines -/

inductive Line where
  /-- A header of one table, or of one more table of a list. -/
  | header (many : Bool) (path : Path)
  | entry (path : Path) (value : Node)

/-- The end of a line, behind blanks and a comment. -/
def lineEnd : TokenReader Unit := do
  skipBlanks
  match ← next? with
  | some .comment =>
    match ← next? with
    | some .newline | none => pure ()
    | some _ => refuse
  | some .newline | none => pure ()
  | some _ => refuse

/-- A header behind its first bracket. -/
def header : TokenReader Line := do
  let many ← eat .openBracket
  skipBlanks
  let path ← path .closeBracket
  if many then expect .closeBracket
  lineEnd
  return .header many path

/-- A value and the end of its line. -/
def lineValue (depth : Nat) : TokenReader Node := do
  skipBlanks
  match ← next? with
  | some t =>
    let v ← valueFrom depth t
    lineEnd
    return v
  | none => refuse

/-- A key, its value and the end of the line. The first token of the key is given. -/
def entry (depth : Nat) (first : String) : TokenReader Line := do
  skipBlanks
  let path : Path := ⟨first, ← keyParts .equals⟩
  return .entry path (← lineValue depth)

/-- The line that starts with the given token, if it holds anything. -/
def lineFrom (depth : Nat) : Token → TokenReader (Option Line)
  | .blank _ | .newline | .comment => pure none
  | .openBracket => do return some (← header)
  | .word key => do return some (← entry depth (String.ofList key))
  | .text key false => do return some (← entry depth (String.ofList key))
  | _ => refuse

/-! ## 5. Texts -/

/-- What was read of a text: the tables that are complete, and the one that lines add to. -/
structure Progress where
  complete : Members := []
  /-- The header of the open table; the first one has none. -/
  header? : Option (Bool × Path) := none
  body : Members := []

/-- All tables, the open one in its place. -/
def Progress.settled (p : Progress) : Members :=
  match p.header? with
  | none => p.body
  | some (true, path) =>
    p.complete.place (Members.addTable p.body) (.tables [] p.body []) path.first path.rest
  | some (false, path) =>
    p.complete.place (Members.stateTable p.body) (.table .stated p.body) path.first path.rest

/-- What was read with one more line. -/
def Progress.add (p : Progress) : Line → Except Refused Progress
  | .header many path => .ok { complete := p.settled, header? := some (many, path) }
  | .entry path value => do return { p with body := ← p.body.addValue value path.first path.rest }

/-- The lines of a text. -/
def linesOf (tokens : List Token) : Except Refused (List Line) := do
  let read ← readToEnd (fun (read : List Line) t => do
    match ← lineFrom tokens.length t with
    | some line => return line :: read
    | none => return read) [] tokens
  return read.reverse

/-- What a whole text spells: a table, or a moment. -/
def parse (text : List Char) : Except Refused Value := do
  let lines ← linesOf (← tokens text)
  let progress ← lines.foldlM Progress.add {}
  Node.close (.table .stated progress.settled)

end PowerShare.Toml
