import PowerShare.Json.Reader
import PowerShare.Json.Scaling

/-!
# Reading words, numbers and texts

A number that is written as an integer and fits 64 bits is an integer; every other one is a binary
number, the one that `binary64Of` makes of its digits, and one that is too large for that is
refused. Minus zero is not an integer.

A text is its bytes between quotes with the escapes resolved. It has to be UTF-8 as a whole, and a
surrogate has to be half of a pair.
-/

namespace PowerShare.Json

/-- A number as it is written. -/
inductive Number where
  | integer (value : Int)
  | real (value : Binary64)
  deriving DecidableEq, Inhabited

def Number.met : Number → Met
  | integer value => .integer value
  | real value => .number value

open Reader

/-! ## 1. Words -/

/-- The remaining bytes of a word whose first byte was taken. -/
def restOfWord : List Char → ByteReader Unit
  | [] => pure ()
  | c :: cs => do
    match ← next? with
    | none => ended .value
    | some b => if b = byte c then restOfWord cs else malformed .expectedIdent

/-! ## 2. Numbers -/

/-- The number that decimal digits spell. -/
def digitsValue (ds : List UInt8) : Nat := ds.foldl (fun n d => n * 10 + (d.toNat - 48)) 0

/-- Digits in front of a point: one zero, or any digits that do not start with one. -/
def wholeDigits : ByteReader (List UInt8) := do
  match ← peek? with
  | none => ended .value
  | some b =>
    if !isDigit b then malformed .invalidNumber
    else
      let ds ← takeWhile isDigit
      if b = byte '0' && ds.length != 1 then malformed .invalidNumber else pure ds

/-- Digits of which there has to be one. -/
def someDigits : ByteReader (List UInt8) := do
  let ds ← takeWhile isDigit
  if ds.isEmpty then
    match ← peek? with
    | none => ended .value
    | some _ => malformed .invalidNumber
  else pure ds

/-- The digits behind a point, if there is one. -/
def fraction? : ByteReader (Option (List UInt8)) := do
  if (← peek?) = some (byte '.') then
    advance
    return some (← someDigits)
  else return none

/-- The power of ten behind an `e`, if there is one. -/
def exponent? : ByteReader (Option Int) := do
  let b ← peek?
  if b = some (byte 'e') || b = some (byte 'E') then
    advance
    let sign ← peek?
    if sign = some (byte '+') || sign = some (byte '-') then advance
    let e := digitsValue (← someDigits)
    return some (if sign = some (byte '-') then -(e : Int) else e)
  else return none

/-- The number whose parts were read. -/
def numberOf (negative : Bool) (whole : List UInt8) (fraction? : Option (List UInt8))
    (exponent? : Option Int) : ByteReader Number :=
  let n := digitsValue whole
  let isInteger := fraction?.isNone && exponent?.isNone
  if isInteger && !negative && n < 2 ^ 64 then pure (.integer n)
  else if isInteger && negative && n != 0 && n ≤ 2 ^ 63 then pure (.integer (-n))
  else
    let x := binary64Of negative whole (fraction?.getD []) (exponent?.getD 0)
    if x.isFinite then pure (.real x) else malformed .numberOutOfRange

/-- A number whose first byte, a minus sign or a digit, is still there. -/
def number : ByteReader Number := do
  let negative := (← peek?) = some (byte '-')
  if negative then advance
  let whole ← wholeDigits
  let fraction ← fraction?
  let exponent ← exponent?
  numberOf negative whole fraction exponent

/-! ## 3. Texts -/

/-- The next byte of a text. -/
def textByte : ByteReader UInt8 := do
  match ← next? with
  | none => ended .text
  | some b => pure b

def hexValue? (b : UInt8) : Option Nat :=
  if isDigit b then some (b.toNat - 48)
  else if byte 'a' ≤ b && b ≤ byte 'f' then some (b.toNat - 87)
  else if byte 'A' ≤ b && b ≤ byte 'F' then some (b.toNat - 55)
  else none

/-- The four digits of an escape. -/
def hexEscape : ByteReader Nat := do
  let a ← textByte
  let b ← textByte
  let c ← textByte
  let d ← textByte
  match hexValue? a, hexValue? b, hexValue? c, hexValue? d with
  | some a, some b, some c, some d => pure (((a * 16 + b) * 16 + c) * 16 + d)
  | _, _, _, _ => malformed .invalidEscape

/-- A byte that has to follow the first half of a pair of surrogates. -/
def pairByte (c : Char) : ByteReader Unit := do
  if (← textByte) = byte c then pure () else malformed .unexpectedHexEnd

/-- The bytes of the character that an escape with digits stands for. -/
def unicodeEscape : ByteReader (List UInt8) := do
  let n ← hexEscape
  if 0xDC00 ≤ n && n ≤ 0xDFFF then malformed .loneSurrogate
  else if 0xD800 ≤ n && n ≤ 0xDBFF then
    pairByte '\\'
    pairByte 'u'
    let m ← hexEscape
    if 0xDC00 ≤ m && m ≤ 0xDFFF then
      pure (String.utf8EncodeChar (Char.ofNat (0x10000 + (n - 0xD800) * 1024 + (m - 0xDC00))))
    else malformed .loneSurrogate
  else pure (String.utf8EncodeChar (Char.ofNat n))

/-- The characters behind a backslash that stand for one byte each. -/
def shortEscapes : List (Char × Char) :=
  [('"', '"'), ('\\', '\\'), ('/', '/'), ('b', '\x08'), ('f', '\x0c'), ('n', '\n'), ('r', '\r'),
    ('t', '\t')]

def shortEscape? (b : UInt8) : Option UInt8 :=
  (shortEscapes.find? fun e => byte e.1 == b).map fun e => byte e.2

/-- The bytes that an escape stands for, behind its backslash. -/
def escape : ByteReader (List UInt8) := do
  let b ← textByte
  match shortEscape? b with
  | some c => pure [c]
  | none => if b = byte 'u' then unicodeEscape else malformed .invalidEscape

/-- The bytes of a text up to its closing quote, the last ones first. -/
def textBytes : ByteReader (List UInt8) :=
  scan (fun _ => .ended .text) (fun (read : List UInt8) b =>
    if b = byte '"' then pure (.inr read)
    else if b = byte '\\' then do return .inl ((← escape).reverse ++ read)
    else if b < 32 then malformed .controlCharacter
    else pure (.inl (b :: read))) []

/-- A text whose opening quote was taken. -/
def textAfterQuote : ByteReader String := do
  let read ← textBytes
  match String.fromUTF8? ⟨read.reverse.toArray⟩ with
  | some s => pure s
  | none => malformed .invalidCodePoint

/-! ## 4. Values of the wrong type -/

/-- Refuses the value whose first byte is next, as something else than what is wanted. -/
def wrongType (first : UInt8) (wanted : String) : ByteReader α := do
  let met : Met ←
    if first = byte 'n' then do
      advance
      restOfWord ['u', 'l', 'l']
      pure Met.null
    else if first = byte 't' then do
      advance
      restOfWord ['r', 'u', 'e']
      pure (Met.boolean true)
    else if first = byte 'f' then do
      advance
      restOfWord ['a', 'l', 's', 'e']
      pure (Met.boolean false)
    else if first = byte '-' || isDigit first then do pure (← number).met
    else if first = byte '"' then do
      advance
      pure (Met.text (← textAfterQuote))
    else if first = byte '[' then pure Met.list
    else if first = byte '\x7b' then pure Met.object
    else malformed .expectedValue
  unfit (.wrongType met wanted)

/-- The first byte of a value, behind blanks; it stays. -/
def valueStart : ByteReader UInt8 := do
  match ← peekToken? with
  | none => ended .value
  | some b => pure b

/-- `true` or `false`. -/
def boolean : ByteReader Bool := do
  let b ← valueStart
  if b = byte 't' then
    advance
    restOfWord ['r', 'u', 'e']
    return true
  else if b = byte 'f' then
    advance
    restOfWord ['a', 'l', 's', 'e']
    return false
  else wrongType b "a boolean"

/-- A number, or the refusal of what else is there. -/
def numberFor (wanted : String) : ByteReader Number := do
  let b ← valueStart
  if b = byte '-' || isDigit b then number else wrongType b wanted

/-- An integer between two bounds. -/
def integerBetween (least greatest : Int) (wanted : String) : ByteReader Int := do
  match ← numberFor wanted with
  | .integer i =>
    if least ≤ i && i ≤ greatest then pure i else unfit (.outOfRange i wanted)
  | .real x => unfit (.wrongType (.number x) wanted)

def uint64 : ByteReader UInt64 := do
  return UInt64.ofNat (← integerBetween 0 (2 ^ 64 - 1) "u64").toNat

def uint32 : ByteReader UInt32 := do
  return UInt32.ofNat (← integerBetween 0 (2 ^ 32 - 1) "u32").toNat

def int64 : ByteReader Int64 := do
  return Int64.ofInt (← integerBetween (-2 ^ 63) (2 ^ 63 - 1) "i64")

/-- Any number; an integer is rounded. -/
def binary64 : ByteReader Binary64 := do
  match ← numberFor "f64" with
  | .integer i => pure (Binary64.ofInt i)
  | .real x => pure x

/-- A value or `null`. -/
def optional (value : ByteReader α) : ByteReader (Option α) := do
  if (← peekToken?) = some (byte 'n') then
    advance
    restOfWord ['u', 'l', 'l']
    return none
  else return some (← value)

end PowerShare.Json
