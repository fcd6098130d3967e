import PowerShare.Json.Scalar

/-!
# Skipping a value

A member of unknown name is skipped whatever its value is, to any depth. Skipping checks the shape
of the text alone: numbers may have any size, surrogates need not pair up, and bytes inside a text
need not be UTF-8.

The skipper goes byte by byte and keeps the open containers on a stack.
-/

namespace PowerShare.Json

open Reader

/-! ## 1. Scalars -/

/-- A number whose first byte was taken. -/
def skipNumber (first : UInt8) : ByteReader Unit := do
  let lead ← if first = byte '-' then do pure ((← next?).getD 0) else pure first
  if !isDigit lead then malformed .invalidNumber
  else
    let more ← takeWhile isDigit
    if lead = byte '0' && !more.isEmpty then malformed .invalidNumber
    else
      if (← peek?) = some (byte '.') then
        advance
        if (← takeWhile isDigit).isEmpty then malformed .invalidNumber
      let b ← peek?
      if b = some (byte 'e') || b = some (byte 'E') then
        advance
        let sign ← peek?
        if sign = some (byte '+') || sign = some (byte '-') then advance
        if (← takeWhile isDigit).isEmpty then malformed .invalidNumber

/-- An escape behind its backslash. -/
def skipEscape : ByteReader Unit := do
  let b ← textByte
  if (shortEscape? b).isSome then pure ()
  else if b = byte 'u' then do
    let _ ← hexEscape
  else malformed .invalidEscape

/-- A text whose opening quote was taken. -/
def skipText : ByteReader Unit :=
  scan (fun _ => .ended .text) (fun (_ : Unit) b =>
    if b = byte '"' then pure (.inr ())
    else if b = byte '\\' then do
      skipEscape
      return .inl ()
    else if b < 32 then malformed .controlCharacter
    else pure (.inl ())) ()

/-! ## 2. Containers -/

/-- A container that is still open. -/
inductive Frame where
  | list
  | object
  deriving DecidableEq

/-- What may come next. -/
inductive Expecting where
  | value
  /-- An item, or the end of a list that was just opened. -/
  | firstItem
  /-- A member, or the end of an object that was just opened. -/
  | firstName
  | name
  /-- A comma or the end of the innermost container. -/
  | separator
  deriving DecidableEq

/-- Where the skipper stands: what may come next, and the open containers, innermost first. -/
structure SkipState where
  expecting : Expecting
  stack : List Frame

def SkipState.inside (s : SkipState) : Ended :=
  match s.expecting, s.stack with
  | .value, _ => .value
  | .firstItem, _ => .list
  | .firstName, _ | .name, _ => .object
  | .separator, .object :: _ => .object
  | .separator, _ => .list

/-- The state behind a value: nothing is left to do once no container is open. -/
def behindValue (stack : List Frame) : SkipState ⊕ Unit :=
  if stack.isEmpty then .inr () else .inl ⟨.separator, stack⟩

/-- Goes on behind the first byte of a value. -/
def skipFrom (stack : List Frame) (b : UInt8) : ByteReader (SkipState ⊕ Unit) :=
  if b = byte '[' then pure (.inl ⟨.firstItem, .list :: stack⟩)
  else if b = byte '\x7b' then pure (.inl ⟨.firstName, .object :: stack⟩)
  else do
    if b = byte 'n' then restOfWord ['u', 'l', 'l']
    else if b = byte 't' then restOfWord ['r', 'u', 'e']
    else if b = byte 'f' then restOfWord ['a', 'l', 's', 'e']
    else if b = byte '"' then skipText
    else if b = byte '-' || isDigit b then skipNumber b
    else malformed .expectedValue
    return behindValue stack

/-- The colon behind a name. -/
def colon : ByteReader Unit := do
  match ← peekToken? with
  | none => ended .object
  | some b => if b = byte ':' then advance else malformed .expectedColon

/-- Goes on behind the opening quote of a name. -/
def skipName (stack : List Frame) : ByteReader (SkipState ⊕ Unit) := do
  skipText
  colon
  return .inl ⟨.value, stack⟩

/-- One byte of a skipped value that is not inside a scalar. -/
def skipRound (s : SkipState) (b : UInt8) : ByteReader (SkipState ⊕ Unit) :=
  if isBlank b then pure (.inl s)
  else
    match s.expecting with
    | .value => skipFrom s.stack b
    | .firstItem =>
      if b = byte ']' then pure (behindValue s.stack.tail) else skipFrom s.stack b
    | .firstName =>
      if b = byte '\x7d' then pure (behindValue s.stack.tail)
      else if b = byte '"' then skipName s.stack
      else malformed .keyMustBeText
    | .name => if b = byte '"' then skipName s.stack else malformed .keyMustBeText
    | .separator =>
      match s.stack with
      | .object :: outer =>
        if b = byte '\x7d' then pure (behindValue outer)
        else if b = byte ',' then pure (.inl ⟨.name, s.stack⟩)
        else malformed .expectedMemberEnd
      | .list :: outer =>
        if b = byte ']' then pure (behindValue outer)
        else if b = byte ',' then pure (.inl ⟨.value, s.stack⟩)
        else malformed .expectedItemEnd
      | [] => malformed .expectedItemEnd

/-- Takes one value and forgets it. -/
def skipValue : ByteReader Unit := scan (fun s => .ended s.inside) skipRound ⟨.value, []⟩

end PowerShare.Json
