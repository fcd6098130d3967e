import PowerShare.Order.SortedMap
import PowerShare.Number.Binary64

/-!
# Codecs: values as bytes of fixed layout

A `Codec` writes a value as bytes and reads one value off the front of some bytes, leaving the
rest. The layout has fixed widths and the least significant byte first:

* a word takes its width, a count of elements eight bytes, the number of an alternative four;
* an optional value is one byte, `0` or `1`, and then the value;
* a map is its count and its entries, and on reading the last of equal keys stays.
-/

namespace PowerShare

/-- Why bytes are not an envelope, or not a sequence of envelopes. -/
inductive WireError where
  /-- The bytes end inside a value. -/
  | endOfBytes
  /-- There is no alternative of this number among so many. -/
  | unknownAlternative (number count : Nat)
  /-- The byte in front of an optional value is neither `0` nor `1`. -/
  | badOptionTag (tag : Nat)
  /-- The envelope carries another version than the expected one. -/
  | unsupportedVersion (version expected : Nat)
  /-- The bytes end inside the length of an envelope. -/
  | truncatedLength
  /-- Fewer bytes are left than the length of an envelope says. -/
  | truncatedBody
  deriving DecidableEq, Inhabited

def WireError.message : WireError → String
  | endOfBytes => "io error: unexpected end of file"
  | unknownAlternative number count =>
    "invalid value: integer `" ++ toString number ++ "`, expected variant index 0 <= i < " ++
      toString count
  | badOptionTag tag => "tag for enum is not valid, found " ++ toString tag
  | unsupportedVersion version expected =>
    "unsupported protocol version " ++ toString version ++ " (expected " ++ toString expected ++ ")"
  | truncatedLength => "Truncated envelope length"
  | truncatedBody => "Truncated envelope body"

/-- The given count of bytes of a number, the least significant first. -/
def littleEndian : Nat → Nat → List UInt8
  | 0, _ => []
  | width + 1, n => UInt8.ofNat n :: littleEndian width (n / 256)

/-- The number whose bytes these are, the least significant first. -/
def ofLittleEndian : List UInt8 → Nat
  | [] => 0
  | b :: rest => b.toNat + 256 * ofLittleEndian rest

/-- How values of a type are written as bytes and read back. -/
structure Codec (α : Type) where
  encode : α → List UInt8
  decode : List UInt8 → Except WireError (α × List UInt8)

namespace Codec

/-- A number in the given count of bytes. -/
def word (width : Nat) : Codec Nat where
  encode := littleEndian width
  decode bytes :=
    if bytes.length < width then .error .endOfBytes
    else .ok (ofLittleEndian (bytes.take width), bytes.drop width)

/-- Another type with the same layout. -/
def map (c : Codec α) (f : α → β) (g : β → α) : Codec β where
  encode b := c.encode (g b)
  decode bytes := do
    let (a, rest) ← c.decode bytes
    return (f a, rest)

/-- Two values, one behind the other. -/
def pair (c : Codec α) (d : Codec β) : Codec (α × β) where
  encode v := c.encode v.1 ++ d.encode v.2
  decode bytes := do
    let (a, rest) ← c.decode bytes
    let (b, rest) ← d.decode rest
    return ((a, b), rest)

/-- A value that may be missing. -/
def option (c : Codec α) : Codec (Option α) where
  encode
    | none => [0]
    | some a => 1 :: c.encode a
  decode
    | [] => .error .endOfBytes
    | tag :: bytes =>
      if tag = 0 then .ok (none, bytes)
      else if tag = 1 then do
        let (a, rest) ← c.decode bytes
        return (some a, rest)
      else .error (.badOptionTag tag.toNat)

/-- So many values, read one behind the other. -/
def decodeMany (c : Codec α) : Nat → List UInt8 → Except WireError (List α × List UInt8)
  | 0, bytes => .ok ([], bytes)
  | n + 1, bytes => do
    let (a, rest) ← c.decode bytes
    let (as, rest) ← decodeMany c n rest
    return (a :: as, rest)

/-- A count and so many values. -/
def list (c : Codec α) : Codec (List α) where
  encode as := (word 8).encode as.length ++ as.flatMap c.encode
  decode bytes := do
    let (n, rest) ← (word 8).decode bytes
    decodeMany c n rest

/-- The entries of a map. -/
def sortedMap [Ranked κ] (k : Codec κ) (v : Codec α) : Codec (SortedMap κ α) :=
  (list (pair k v)).map SortedMap.ofList SortedMap.entries

/-- One of a few values, written as its number among them. -/
def oneOf [DecidableEq α] (values : List α) : Codec α where
  encode a := (word 4).encode (values.idxOf a)
  decode bytes := do
    let (number, rest) ← (word 4).decode bytes
    match values[number]? with
    | some a => return (a, rest)
    | none => throw (.unknownAlternative number values.length)

def uint32 : Codec UInt32 := (word 4).map UInt32.ofNat UInt32.toNat

def uint64 : Codec UInt64 := (word 8).map UInt64.ofNat UInt64.toNat

def binary64 : Codec Binary64 := (word 8).map Binary64.ofWord Binary64.toWord

end Codec

end PowerShare
