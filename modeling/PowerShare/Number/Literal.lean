import PowerShare.Number.Decimal

/-!
# Numbers as people write them

A whole text is a number or it is not; nothing is skipped, not even blanks.

* `naturalOf?` and `integerOf?` take decimal digits, an integer also a sign of either kind;
* `Binary64.ofText?` takes any decimal with an optional sign, point and exponent, of which either
  side of the point may be missing, and the words for infinity and for a NaN in any case. A number
  that is too large is infinite.
-/

namespace PowerShare

def isDecimal (c : Char) : Bool := '0' ≤ c && c ≤ '9'

/-- The number that decimal digits spell. -/
def decimalValue (digits : List Char) : Nat :=
  digits.foldl (fun n c => n * 10 + (c.toNat - 48)) 0

/-- A sign in front of a number, if there is one, and what follows: `true` for minus. -/
def splitSign : List Char → Bool × List Char
  | '-' :: rest => (true, rest)
  | '+' :: rest => (false, rest)
  | text => (false, text)

/-- The number of a text of digits. -/
def naturalOf? (text : List Char) : Option Nat :=
  if !text.isEmpty && text.all isDecimal then some (decimalValue text) else none

/-- The number of a text of digits with an optional sign. -/
def integerOf? (text : List Char) : Option Int :=
  let (negative, digits) := splitSign text
  (naturalOf? digits).map fun n => if negative then -(n : Int) else n

/-- The digits behind a point, if there is a point, and what follows. -/
def splitPlaces : List Char → List Char × List Char
  | '.' :: rest => (rest.takeWhile isDecimal, rest.dropWhile isDecimal)
  | text => ([], text)

/-- The power of ten that stands at the end of a number, if it is one. -/
def exponentOf? : List Char → Option Int
  | [] => some 0
  | mark :: power => if mark == 'e' || mark == 'E' then integerOf? power else none

namespace Binary64

/-- The number of a text without a sign. -/
def sizeOf? (negative : Bool) (text : List Char) : Option Binary64 :=
  match String.ofList (text.map Char.toLower) with
  | "inf" | "infinity" => some (infinity negative)
  | "nan" => some { nan with negative := negative }
  | _ =>
    let whole := text.takeWhile isDecimal
    let (places, rest) := splitPlaces (text.dropWhile isDecimal)
    if whole.isEmpty && places.isEmpty then none
    else (exponentOf? rest).map fun e =>
      (Decimal.mk (decimalValue (whole ++ places)) (e - places.length)).toBinary64 negative

/-- The number that a text spells. -/
def ofText? (text : List Char) : Option Binary64 :=
  let (negative, size) := splitSign text
  sizeOf? negative size

end Binary64

end PowerShare
