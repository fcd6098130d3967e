import PowerShare.Reader

/-!
# Tokens of a TOML text

A settings file is read in two steps, tokens first. A `word` is a run of letters, digits, `-` and
`_`: a bare key, a number or a part of one. Texts are tokens with their escapes resolved; a text
over several lines says so, because it cannot be a key.

A line ends in a line feed, with or without a carriage return in front of it.
-/

namespace PowerShare.Toml

/-- A text is TOML or it is not; what is wrong with it is not told. -/
inductive Refused where
  | malformed
  deriving DecidableEq, Inhabited

inductive Token where
  /-- Spaces and tabs. -/
  | blank (text : List Char)
  | newline
  | comment
  | equals
  | dot
  | comma
  | colon
  | plus
  | openBrace
  | closeBrace
  | openBracket
  | closeBracket
  | word (text : List Char)
  | text (value : List Char) (manyLines : Bool)
  deriving DecidableEq, Inhabited

open Reader

/-- A reader of characters. -/
abbrev CharReader (α : Type) := Reader Char Refused α

/-- The text is not TOML. -/
def refuse : Reader τ Refused α := fail .malformed

/-! ## 1. Classes of characters -/

def isBlankChar (c : Char) : Bool := c == ' ' || c == '\t'

def isWordChar (c : Char) : Bool :=
  ('a' ≤ c && c ≤ 'z') || ('A' ≤ c && c ≤ 'Z') || ('0' ≤ c && c ≤ '9') || c == '-' || c == '_'

/-- A character that may stand in a comment. -/
def isCommentChar (c : Char) : Bool := c == '\t' || ' ' ≤ c

/-- A character that may stand in a text as it is. -/
def isTextChar (c : Char) : Bool := c == '\t' || (' ' ≤ c && c != '\x7f')

/-- The text with every line ended by a line feed alone. -/
def foldLineEnds : List Char → List Char
  | '\r' :: '\n' :: rest => '\n' :: foldLineEnds rest
  | c :: rest => c :: foldLineEnds rest
  | [] => []

/-! ## 2. Escapes -/

def hexValue? (c : Char) : Option Nat :=
  if '0' ≤ c && c ≤ '9' then some (c.toNat - 48)
  else if 'a' ≤ c && c ≤ 'f' then some (c.toNat - 87)
  else if 'A' ≤ c && c ≤ 'F' then some (c.toNat - 55)
  else none

/-- So many hexadecimal digits, behind the digits of the given value. -/
def hexDigits : Nat → Nat → CharReader Nat
  | 0, value => pure value
  | n + 1, value => do
    match (← next?).bind hexValue? with
    | some d => hexDigits n (value * 16 + d)
    | none => refuse

/-- The character of so many hexadecimal digits. -/
def hexChar (count : Nat) : CharReader (List Char) := do
  let n ← hexDigits count 0
  if h : n.isValidChar then return [Char.ofNatAux n h] else refuse

/-- A line end behind a backslash is left out, with the blanks and line ends around it. -/
def skippedLineEnd (first : Char) : CharReader (List Char) := do
  if first != '\n' then
    let _ ← takeWhile isBlankChar
    match ← next? with
    | some '\n' => pure ()
    | _ => refuse
  let _ ← takeWhile fun c => isBlankChar c || c == '\n'
  return []

/-- The characters that an escape stands for, behind its backslash. -/
def escape (manyLines : Bool) : CharReader (List Char) := do
  match ← next? with
  | some '"' => pure ['"']
  | some '\\' => pure ['\\']
  | some 'b' => pure ['\x08']
  | some 'f' => pure ['\x0c']
  | some 'n' => pure ['\n']
  | some 'r' => pure ['\r']
  | some 't' => pure ['\t']
  | some 'u' => hexChar 4
  | some 'U' => hexChar 8
  | some c =>
    if manyLines && (isBlankChar c || c == '\n') then skippedLineEnd c else refuse
  | none => refuse

/-! ## 3. Texts -/

/-- One character of a text that is neither a quote nor a line end. -/
def textChar (quote : Char) (manyLines : Bool) (c : Char) : CharReader (List Char) :=
  if quote == '"' && c == '\\' then escape manyLines
  else if isTextChar c then pure [c]
  else refuse

/-- A text on one line, behind its opening quote. -/
def oneLine (quote : Char) : CharReader (List Char) :=
  scan (fun _ => .malformed) (fun (read : List Char) c =>
    if c == quote then pure (.inr read.reverse)
    else do return .inl ((← textChar quote false c).reverse ++ read)) []

/-- The quotes at the end of a text over several lines, behind the first one: the text ends if
three stand together, and up to two more in front of them belong to it. -/
def closingQuotes (quote : Char) (read : List Char) : CharReader (List Char ⊕ List Char) := do
  if !(← eat quote) then return .inl (quote :: read)
  if !(← eat quote) then return .inl (quote :: quote :: read)
  if !(← eat quote) then return .inr read
  if !(← eat quote) then return .inr (quote :: read)
  return .inr (quote :: quote :: read)

/-- A text over several lines, behind its three opening quotes. A line end right behind them does
not belong to it. -/
def manyLinesText (quote : Char) : CharReader (List Char) := do
  let _ ← eat '\n'
  let read ← scan (fun _ => Refused.malformed) (fun (read : List Char) c =>
    if c == '\n' then pure (.inl (c :: read))
    else if c == quote then closingQuotes quote read
    else do return .inl ((← textChar quote true c).reverse ++ read)) []
  return read.reverse

/-- A text behind its first quote. -/
def textFrom (quote : Char) : CharReader Token := do
  if ← eat quote then
    if ← eat quote then return .text (← manyLinesText quote) true else return .text [] false
  else return .text (← oneLine quote) false

/-! ## 4. Tokens -/

/-- The token that starts with the given character. -/
def tokenFrom (c : Char) : CharReader Token :=
  match c with
  | '\n' => pure .newline
  | '=' => pure .equals
  | '.' => pure .dot
  | ',' => pure .comma
  | ':' => pure .colon
  | '+' => pure .plus
  | '\x7b' => pure .openBrace
  | '\x7d' => pure .closeBrace
  | '[' => pure .openBracket
  | ']' => pure .closeBracket
  | '#' => do
    let _ ← takeWhile isCommentChar
    return .comment
  | '\'' => textFrom c
  | '"' => textFrom c
  | c =>
    if isBlankChar c then do return .blank (c :: (← takeWhile isBlankChar))
    else if isWordChar c then do return .word (c :: (← takeWhile isWordChar))
    else refuse

/-- The tokens of a whole text. A byte order mark at its start is passed over. -/
def tokens (text : List Char) : Except Refused (List Token) := do
  let cs := foldLineEnds text
  let cs := if cs.head? == some '\ufeff' then cs.tail else cs
  let read ← readToEnd (fun read c => do return (← tokenFrom c) :: read) [] cs
  return read.reverse

end PowerShare.Toml
