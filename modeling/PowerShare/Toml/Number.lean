import PowerShare.Number.Decimal
import PowerShare.Toml.Value

/-!
# TOML numbers

A number is one word or, where it has a point or an exponent with a plus sign, a few tokens. Its
digits may have single underscores between them (`digitsAhead`), but none at either end; a whole
number does not start with a zero it could do without.

* An integer has to fit 64 bits. In base 16, 8 or 2 it has no sign and may start with zeros.
* Any other number is the nearest binary number to what it says, and refused if that is infinite.
-/

namespace PowerShare.Toml

open Reader

/-- A reader of tokens. -/
abbrev TokenReader (α : Type) := Reader Token Refused α

/-! ## 1. Runs of digits -/

/-- The digits of a base, of which there may be a sign in front and anything behind. -/
structure Digits where
  negative : Bool
  digits : List Nat
  /-- What follows them in the same word. -/
  rest : List Char

/-- What a digit of the base stands for. -/
def digitValue? (base : Nat) (c : Char) : Option Nat := (hexValue? c).filter (· < base)

/-- The digits and the single underscores between them at the front of a word. -/
def digitsAhead (base : Nat) (afterUnderscore : Bool) : List Char → List Char × List Char
  | [] => ([], [])
  | c :: rest =>
    if (digitValue? base c).isSome then
      let (run, left) := digitsAhead base false rest
      (c :: run, left)
    else if c == '_' && !afterUnderscore then
      let (run, left) := digitsAhead base true rest
      (c :: run, left)
    else ([], c :: rest)

/-- The digits at the front of a word, of which there has to be one. -/
def digitsOfWord (base : Nat) (signed leadingZeros : Bool) (word : List Char) :
    Except Refused Digits :=
  let negative := signed && word.head? == some '-'
  let (run, rest) := digitsAhead base false (if negative then word.tail else word)
  let digits := run.filterMap (digitValue? base)
  if digits.isEmpty || run.head? == some '_' || run.getLast? == some '_' then .error .malformed
  else if !leadingZeros && digits.head? == some 0 && digits.length != 1 then .error .malformed
  else .ok ⟨negative, digits, rest⟩

/-- The number that digits of a base spell. -/
def valueOfDigits (base : Nat) (digits : List Nat) : Nat :=
  digits.foldl (fun n d => n * base + d) 0

/-! ## 2. Integers -/

/-- The integer that a word spells, apart from the mark of its base. -/
def integerOf (base : Nat) (word : List Char) : Except Refused Value := do
  let d ← digitsOfWord base (base == 10) (base != 10) word
  let size := valueOfDigits base d.digits
  let value : Int := if d.negative then -size else size
  if d.rest.isEmpty && -2 ^ 63 ≤ value && value < 2 ^ 63 then
    return .integer (Int64.ofInt value)
  else .error .malformed

/-! ## 3. Other numbers -/

/-- The exponent that starts with the given letters, if it does. -/
def exponentFrom (word : List Char) : TokenReader Int :=
  match word with
  | [] => pure 0
  | mark :: power =>
    if mark == 'e' || mark == 'E' then do
      let d ←
        if power.isEmpty then do
          let _ ← eat .plus
          match ← next? with
          | some (.word power) => orFail (digitsOfWord 10 false true power)
          | _ => refuse
        else orFail (digitsOfWord 10 true true power)
      if !d.rest.isEmpty then refuse
      let size := valueOfDigits 10 d.digits
      return if d.negative then -size else size
    else refuse

/-- The number of a word and, if a point follows it, the word behind the point. -/
def numberOf (word : List Char) (places? : Option (List Char)) : TokenReader Value := do
  let whole ← orFail (digitsOfWord 10 true false word)
  let fraction ←
    match places? with
    | none => pure ⟨false, [], whole.rest⟩
    | some places =>
      if whole.rest.isEmpty then orFail (digitsOfWord 10 false true places) else refuse
  let exponent ← exponentFrom fraction.rest
  let d : Decimal :=
    ⟨valueOfDigits 10 (whole.digits ++ fraction.digits), exponent - fraction.digits.length⟩
  let x := d.toBinary64 whole.negative
  if x.isFinite then return .number x else refuse

/-- The numbers that are words of letters. -/
def namedNumber? (word : List Char) : Option Binary64 :=
  match String.ofList word with
  | "inf" => some (.infinity false)
  | "-inf" => some (.infinity true)
  | "nan" | "-nan" => some .nan
  | _ => none

/-- The number that starts with the given word. -/
def number (word : List Char) : TokenReader Value :=
  match word with
  | '0' :: 'x' :: digits => orFail (integerOf 16 digits)
  | '0' :: 'o' :: digits => orFail (integerOf 8 digits)
  | '0' :: 'b' :: digits => orFail (integerOf 2 digits)
  | _ =>
    if word.contains 'e' || word.contains 'E' then numberOf word none
    else do
      if ← eat .dot then
        match ← next? with
        | some (.word places) => numberOf word (some places)
        | _ => refuse
      else
        match namedNumber? word with
        | some x => return .number x
        | none => orFail (integerOf 10 word)

end PowerShare.Toml
