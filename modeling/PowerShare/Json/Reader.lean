import PowerShare.Json.Error
import PowerShare.Reader

/-!
# Readers of JSON texts

JSON is read from bytes, because a skipped text need not be UTF-8. This module has the small
readers that all others are made of: what to say of a bad text, and the next byte behind blanks.
-/

namespace PowerShare.Json

/-- A reader of a JSON text. -/
abbrev ByteReader (α : Type) := Reader UInt8 ReadError α

open Reader

/-- The text ends where it may not. -/
def ended (inside : Ended) : ByteReader α := fail (.ended inside)

/-- The text breaks a rule. -/
def malformed (what : Malformed) : ByteReader α := fail (.malformed what)

/-- The text says what does not fit. -/
def unfit (what : Unfit) : ByteReader α := fail (.unfit what)

/-- The byte of a character of ASCII. -/
def byte (c : Char) : UInt8 := UInt8.ofNat c.toNat

def isBlank (b : UInt8) : Bool :=
  b == byte ' ' || b == byte '\n' || b == byte '\t' || b == byte '\r'

def isDigit (b : UInt8) : Bool := byte '0' ≤ b && b ≤ byte '9'

/-- The next byte behind blanks, which stays. -/
def peekToken? : ByteReader (Option UInt8) := do
  let _ ← takeWhile isBlank
  peek?

end PowerShare.Json
