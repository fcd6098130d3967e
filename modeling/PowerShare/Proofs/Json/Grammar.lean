import PowerShare.Json.Skipping

/-!
# JSON texts as they are written

A value can be written in many ways: a number with more or fewer digits, a character as itself or
as an escape, and blanks around every token. A `Tree` keeps the ways apart, all but the blanks:

* `Numeral` -- a number as it is spelled; `Numeral.toBinary64` is the binary number nearest to it,
  and `Numeral.number?` the number it is read as;
* `TextUnit` -- a character or an escape of a text; `charsOf?` gives the characters, and there are
  none where half a pair of surrogates stands alone;
* `Tree` -- a value with its parts as they are spelled, members in the order written;
* `Writes` -- a tree and the bytes of one way to write it, blanks and all.

Every parser of JSON agrees on these texts; not here is what a reader makes of bytes that are no
JSON text.
-/

namespace PowerShare.Json

/-- Bytes that may stand between tokens. -/
def Blank (w : List UInt8) : Prop := ∀ b ∈ w, isBlank b = true

theorem Blank.nil : Blank [] := fun _ h => absurd h List.not_mem_nil

/-- A byte that a number may go on with. -/
def continuesNumber (b : UInt8) : Bool :=
  isDigit b || b == byte '.' || b == byte 'e' || b == byte 'E'

/-- Bytes behind a number that do not belong to it. -/
def Stops (rest : List UInt8) : Prop := ∀ b ∈ rest.head?, continuesNumber b = false

/-! ## 1. Numbers -/

/-- Digits, of which there is one at least. -/
structure Digits where
  bytes : List UInt8
  isDigit_eq : ∀ b ∈ bytes, isDigit b = true
  ne_nil : bytes ≠ []

/-- A power of ten behind a number. -/
structure Power where
  /-- Whether its mark is the capital letter. -/
  capital : Bool
  /-- The sign, if there is one: `true` for minus. -/
  sign? : Option Bool
  digits : Digits

namespace Power

def bytes (p : Power) : List UInt8 :=
  (if p.capital then byte 'E' else byte 'e') ::
    ((p.sign?.map fun minus => if minus then byte '-' else byte '+').toList ++ p.digits.bytes)

def value (p : Power) : Int :=
  if p.sign? = some true then -(digitsValue p.digits.bytes : Int) else digitsValue p.digits.bytes

end Power

/-- A number as it is spelled. -/
structure Numeral where
  negative : Bool
  /-- The digits in front of the point. -/
  whole : Digits
  /-- Only zero itself starts with a zero. -/
  length_eq_one : whole.bytes.head? = some (byte '0') → whole.bytes.length = 1
  /-- The digits behind the point, if there is one. -/
  places? : Option Digits
  power? : Option Power

namespace Numeral

/-- The bytes behind the sign. -/
def sizeBytes (n : Numeral) : List UInt8 :=
  n.whole.bytes ++
    ((n.places?.elim [] fun ds => byte '.' :: ds.bytes) ++ n.power?.elim [] Power.bytes)

def bytes (n : Numeral) : List UInt8 :=
  if n.negative then byte '-' :: n.sizeBytes else n.sizeBytes

/-- The digits behind the point, none if there is no point. -/
def places (n : Numeral) : List UInt8 := n.places?.elim [] Digits.bytes

/-- The size of the number, as a decimal. -/
def decimal (n : Numeral) : Decimal :=
  ⟨digitsValue (n.whole.bytes ++ n.places), n.power?.elim 0 Power.value - n.places.length⟩

/-- The binary number nearest to the one spelled. -/
def toBinary64 (n : Numeral) : Binary64 := n.decimal.toBinary64 n.negative

/-- The binary number that the digits are read as, which need not be the nearest one. -/
def read (n : Numeral) : Binary64 :=
  binary64Of n.negative n.whole.bytes n.places (n.power?.elim 0 Power.value)

/-- The integer, if it is spelled as one and has 64 bits. -/
def integer? (n : Numeral) : Option Int :=
  let value := digitsValue n.whole.bytes
  if n.places?.isNone && n.power?.isNone then
    if n.negative then if value ≠ 0 ∧ value ≤ 2 ^ 63 then some (-value) else none
    else if value < 2 ^ 64 then some value else none
  else none

/-- The number that is read, unless it is too large. -/
def number? (n : Numeral) : Option Number :=
  match n.integer? with
  | some i => some (.integer i)
  | none => if n.read.isFinite then some (.real n.read) else none

end Numeral

/-! ## 2. Texts -/

/-- A digit of an escape, as it is written. -/
structure HexDigit where
  byte : UInt8
  value : Nat
  hexValue?_eq : hexValue? byte = some value

/-- A piece of a text between quotes. -/
inductive TextUnit where
  /-- A character that stands for itself. -/
  | plain (c : Char) (h : c ≠ '"' ∧ c ≠ '\\' ∧ 32 ≤ c.toNat)
  /-- An escape of one letter. -/
  | short (escape : Char × Char) (h : escape ∈ shortEscapes)
  /-- An escape of four digits. -/
  | code (a b c d : HexDigit)

namespace TextUnit

def bytes : TextUnit → List UInt8
  | plain c _ => String.utf8EncodeChar c
  | short e _ => [byte '\\', byte e.1]
  | code a b c d => [byte '\\', byte 'u', a.byte, b.byte, c.byte, d.byte]

theorem bytes_plain (c : Char) (h : c ≠ '"' ∧ c ≠ '\\' ∧ 32 ≤ c.toNat) :
    (plain c h).bytes = String.utf8EncodeChar c := rfl

theorem bytes_short (e : Char × Char) (h : e ∈ shortEscapes) :
    (short e h).bytes = [byte '\\', byte e.1] := rfl

theorem bytes_code (a b c d : HexDigit) :
    (code a b c d).bytes = [byte '\\', byte 'u', a.byte, b.byte, c.byte, d.byte] := rfl

end TextUnit

/-- The number of an escape of four digits. -/
def codeOf (a b c d : HexDigit) : Nat := ((a.value * 16 + b.value) * 16 + c.value) * 16 + d.value

/-- The second half of a pair of surrogates. -/
def isLow (n : Nat) : Bool := 0xDC00 ≤ n && n ≤ 0xDFFF

/-- The first half of a pair of surrogates. -/
def isHigh (n : Nat) : Bool := 0xD800 ≤ n && n ≤ 0xDBFF

/-- The character of a pair of surrogates. -/
def pairChar (high low : Nat) : Char :=
  Char.ofNat (0x10000 + (high - 0xD800) * 1024 + (low - 0xDC00))

/-- The characters of a text, if its surrogates pair up. -/
def charsOf? : List TextUnit → Option (List Char)
  | [] => some []
  | .plain c _ :: rest => (charsOf? rest).map (c :: ·)
  | .short e _ :: rest => (charsOf? rest).map (e.2 :: ·)
  | .code a b c d :: rest =>
    let n := codeOf a b c d
    if isLow n then none
    else if isHigh n then
      match rest with
      | .code a' b' c' d' :: rest =>
        let m := codeOf a' b' c' d'
        if isLow m then (charsOf? rest).map (pairChar n m :: ·) else none
      | _ => none
    else (charsOf? rest).map (Char.ofNat n :: ·)

/-- The text that is spelled, if its surrogates pair up. -/
def textOf? (units : List TextUnit) : Option String := (charsOf? units).map String.ofList

/-- The bytes of a text between its quotes. -/
def unitBytes (units : List TextUnit) : List UInt8 := units.flatMap TextUnit.bytes

theorem unitBytes_cons_append (unit : TextUnit) (units : List TextUnit) (rest : List UInt8) :
    unitBytes (unit :: units) ++ rest = unit.bytes ++ (unitBytes units ++ rest) := by
  unfold unitBytes
  rw [List.flatMap_cons, List.append_assoc]

/-! ## 3. Values -/

/-- A value as it is written, without the blanks. -/
inductive Tree where
  | null
  | boolean (value : Bool)
  | number (numeral : Numeral)
  | text (units : List TextUnit)
  | list (items : List Tree)
  | object (members : List (List TextUnit × Tree))

instance : Inhabited Tree := ⟨.null⟩

mutual

/-- The tree is written with these bytes. -/
inductive Writes : Tree → List UInt8 → Prop where
  | null : Writes .null ("null".toList.map byte)
  | boolean (value : Bool) : Writes (.boolean value) ((booleanText value).map byte)
  | number (numeral : Numeral) : Writes (.number numeral) numeral.bytes
  | text (units : List TextUnit) :
      Writes (.text units) (byte '"' :: (unitBytes units ++ [byte '"']))
  | list {items : List Tree} {body : List UInt8} :
      WritesItems true items body → Writes (.list items) (byte '[' :: body)
  | object {members : List (List TextUnit × Tree)} {body : List UInt8} :
      WritesMembers true members body → Writes (.object members) (byte '\x7b' :: body)

/-- Items up to the closing bracket; behind the first one each has a comma in front of it. -/
inductive WritesItems : Bool → List Tree → List UInt8 → Prop where
  | stop {isFirst : Bool} {w : List UInt8} : Blank w → WritesItems isFirst [] (w ++ [byte ']'])
  | first {t : Tree} {items : List Tree} {w v tail : List UInt8} :
      Blank w → Writes t v → WritesItems false items tail →
        WritesItems true (t :: items) (w ++ (v ++ tail))
  | next {t : Tree} {items : List Tree} {u w v tail : List UInt8} :
      Blank u → Blank w → Writes t v → WritesItems false items tail →
        WritesItems false (t :: items) (u ++ byte ',' :: (w ++ (v ++ tail)))

/-- Members up to the closing brace; behind the first one each has a comma in front of it. -/
inductive WritesMembers : Bool → List (List TextUnit × Tree) → List UInt8 → Prop where
  | stop {isFirst : Bool} {w : List UInt8} : Blank w → WritesMembers isFirst [] (w ++ [byte '\x7d'])
  | first {name : List TextUnit} {t : Tree} {members : List (List TextUnit × Tree)}
      {w m tail : List UInt8} :
      Blank w → WritesMember name t m → WritesMembers false members tail →
        WritesMembers true ((name, t) :: members) (w ++ byte '"' :: (m ++ tail))
  | next {name : List TextUnit} {t : Tree} {members : List (List TextUnit × Tree)}
      {u w m tail : List UInt8} :
      Blank u → Blank w → WritesMember name t m → WritesMembers false members tail →
        WritesMembers false ((name, t) :: members) (u ++ byte ',' :: (w ++ byte '"' :: (m ++ tail)))

/-- A member behind the opening quote of its name. -/
inductive WritesMember : List TextUnit → Tree → List UInt8 → Prop where
  | mk {name : List TextUnit} {t : Tree} {u w v : List UInt8} :
      Blank u → Blank w → Writes t v →
        WritesMember name t (unitBytes name ++ byte '"' :: (u ++ byte ':' :: (w ++ v)))

end

theorem WritesMember.exists_append_eq {name : List TextUnit} {t : Tree} {m : List UInt8}
    (h : WritesMember name t m) (rest : List UInt8) : ∃ u w v, Blank u ∧ Blank w ∧ Writes t v ∧
      m ++ rest = unitBytes name ++ byte '"' :: (u ++ byte ':' :: (w ++ (v ++ rest))) := by
  cases h with
  | mk hu hw hv => exact ⟨_, _, _, hu, hw, hv, by simp⟩

/-- The whole text is the tree, with blanks around it. -/
def IsText (t : Tree) (text : List UInt8) : Prop :=
  ∃ u v w, Blank u ∧ Writes t v ∧ Blank w ∧ text = u ++ (v ++ w)

end PowerShare.Json
