import PowerShare.Json.Skipping
import PowerShare.Order.SortedMap

/-!
# Reading records and maps

A record is an object or a list. As an object it names its fields in any order, may leave fields
out and may have members of other names, which are skipped; a field that stands twice is refused.
As a list it holds the fields in their order and may end early.

In a map the last of several equal keys stays.
-/

namespace PowerShare.Json

/-- A field: its name, and the reader of its value into the record. -/
structure RecordField (σ : Type) where
  name : String
  read : σ → ByteReader σ

/-- A kind of record: what messages call it, and its fields in order. -/
structure Record (σ : Type) where
  wanted : String
  fields : List (RecordField σ)

open Reader

/-! ## 1. Objects -/

/-- What a member behind a comma starts with. -/
def nameBehindComma : ByteReader Unit := do
  match ← peekToken? with
  | none => ended .value
  | some b =>
    if b = byte '"' then advance
    else if b = byte '\x7d' then malformed .trailingComma
    else malformed .keyMustBeText

/-- The members of an object whose opening brace was taken. `member` goes on behind the opening
quote of a name. -/
def members (member : σ → ByteReader σ) (start : σ) : ByteReader σ :=
  scan (fun _ => .ended .object) (fun ((isFirst, state) : Bool × σ) b =>
    if isBlank b then pure (.inl (isFirst, state))
    else if b = byte '\x7d' then pure (.inr state)
    else if isFirst then
      if b = byte '"' then do return .inl (false, ← member state)
      else malformed .keyMustBeText
    else if b = byte ',' then do
      nameBehindComma
      return .inl (false, ← member state)
    else malformed .expectedMemberEnd) (true, start)

/-! ## 2. Lists of fields -/

/-- The end of a list that has no room for more items. -/
def endOfList : ByteReader Unit := do
  match ← peekToken? with
  | none => ended .list
  | some b =>
    if b = byte ']' then advance
    else if b = byte ',' then
      advance
      if (← peekToken?) = some (byte ']') then malformed .trailingComma
      else malformed .trailingCharacters
    else malformed .trailingCharacters

/-- Whether another item follows; the comma in front of it is taken, or the end of the list. -/
def anotherItem (isFirst : Bool) : ByteReader Bool := do
  match ← peekToken? with
  | none => ended .list
  | some b =>
    if b = byte ']' then
      advance
      return false
    else if isFirst then return true
    else if b = byte ',' then
      advance
      match ← peekToken? with
      | none => ended .value
      | some c => if c = byte ']' then malformed .trailingComma else return true
    else malformed .expectedItemEnd

/-- The fields of a list whose opening bracket was taken, in order. -/
def items : List (RecordField σ) → Bool → σ → ByteReader σ
  | [], _, state => do
    endOfList
    return state
  | f :: fs, isFirst, state => do
    if ← anotherItem isFirst then items fs false (← f.read state) else return state

/-! ## 3. Records -/

namespace Record

/-- A member of an object that spells a record, with the names of the fields read so far. -/
def member (r : Record σ) : σ × List String → ByteReader (σ × List String)
  | (state, seen) => do
    let name ← textAfterQuote
    match r.fields.find? (·.name == name) with
    | none =>
      colon
      skipValue
      return (state, seen)
    | some f =>
      if seen.contains name then unfit (.duplicateField name)
      else
        colon
        return (← f.read state, name :: seen)

/-- A record, starting from the values that missing fields have. -/
def read (r : Record σ) (start : σ) : ByteReader σ := do
  let b ← valueStart
  if b = byte '[' then
    advance
    items r.fields true start
  else if b = byte '\x7b' then
    advance
    return (← members r.member (start, [])).1
  else wrongType b r.wanted

end Record

/-! ## 4. Maps -/

/-- A map; the reader of a key goes on behind its opening quote. -/
def mapOf [Ranked κ] (key : ByteReader κ) (value : ByteReader α) : ByteReader (SortedMap κ α) := do
  let b ← valueStart
  if b = byte '\x7b' then
    advance
    members (fun m => do
      let k ← key
      colon
      return m.insert k (← value)) {}
  else wrongType b "a map"

/-- A key that is one of a few names. -/
def nameKey (names : List String) (ofName? : String → Option α) : ByteReader α := do
  let text ← textAfterQuote
  match ofName? text with
  | some a => pure a
  | none => unfit (.unknownVariant text names)

/-- A key that is a number between its quotes, without escapes. -/
def uint32Key : ByteReader UInt32 := do
  if (← peek?).any (fun b => isDigit b || b = byte '-') then
    let n ← uint32
    if (← peek?) = some (byte '"') then
      advance
      return n
    else malformed .expectedQuote
  else malformed .expectedNumericKey

/-- The value that a whole text spells. -/
def readAll (p : ByteReader α) (bytes : List UInt8) : Except ReadError α :=
  match p.run bytes with
  | .error e => .error e
  | .ok (a, rest) =>
    if (rest.dropWhile isBlank).isEmpty then .ok a else .error (.malformed .trailingCharacters)

end PowerShare.Json
