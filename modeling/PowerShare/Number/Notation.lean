import PowerShare.Number.Decimal

/-!
# How numbers are written

* `Notation` holds what a text format decides about the shortest digits of a number: where
  positional writing ends, whether a whole number keeps its point, whether an exponent carries a
  plus sign. `Notation.render` does the rest. Each format is one value of this type, kept in the
  module whose text it belongs to.
* `fixedPlaces` writes a number with a fixed count of places after the point, rounding the exact
  value; a tie goes to the even last place, and a number that rounds to zero keeps its sign.
-/

namespace PowerShare

/-- What a text format decides about a number whose digits are already chosen. -/
structure Notation where
  /-- The choice between two equally near shortest decimals. -/
  tie : Tie
  /-- The least place of the first digit that is written positionally, if there is one. -/
  positionalFrom : Option Int
  /-- The greatest place of the first digit that is written positionally, if there is one. -/
  positionalTo : Option Int
  /-- A whole number written positionally ends in a point and a zero. -/
  wholePoint : Bool
  /-- A positive exponent carries a plus sign. -/
  exponentPlus : Bool

/-- The decimal digits of a natural number. -/
def digitsOf (n : Nat) : List Char := Nat.toDigits 10 n

/-- The decimal digits of an integer, with a minus sign if it is negative. -/
def integerText (i : Int) : List Char :=
  if i < 0 then '-' :: digitsOf i.natAbs else digitsOf i.natAbs

def zeros (n : Nat) : List Char := List.replicate n '0'

namespace Notation

/-- Digits with a point after the digit of place zero. -/
def positional (wholePoint : Bool) (ds : List Char) (place : Int) : List Char :=
  if place < 0 then '0' :: '.' :: zeros (place.natAbs - 1) ++ ds
  else
    let whole := place.natAbs + 1
    if ds.length ≤ whole then
      ds ++ zeros (whole - ds.length) ++ (if wholePoint then ['.', '0'] else [])
    else ds.take whole ++ '.' :: ds.drop whole

/-- One digit, the others after a point, and the exponent. -/
def scientific (exponentPlus : Bool) (ds : List Char) (place : Int) : List Char :=
  let mantissa := match ds with
    | [] => []
    | [d] => [d]
    | d :: rest => d :: '.' :: rest
  let exponent :=
    if place < 0 then integerText place
    else if exponentPlus then '+' :: integerText place else integerText place
  mantissa ++ 'e' :: exponent

/-- Whether a number whose first digit has the given place is written positionally. -/
def isPositional (n : Notation) (place : Int) : Bool :=
  (n.positionalFrom.all (· ≤ place)) && (n.positionalTo.all (place ≤ ·))

/-- The size of a finite number, without a sign. -/
def size (n : Notation) (x : Binary64) : List Char :=
  let d := x.shortest n.tie
  let ds := digitsOf d.digits
  let place := d.exponent + ds.length - 1
  if n.isPositional place then positional n.wholePoint ds place
  else scientific n.exponentPlus ds place

/-- The text of a number. -/
def render (n : Notation) (x : Binary64) : List Char :=
  if x.isNaN then "NaN".toList
  else
    let size := if x.isInfinite then "inf".toList else n.size x
    if x.negative then '-' :: size else size

/-- Positional writing throughout, whole numbers without a point. -/
def plain : Notation := ⟨.up, none, none, false, false⟩

end Notation

/-- The text of a number with the given count of places after the point. -/
def fixedPlaces (places : Nat) (x : Binary64) : List Char :=
  if x.isNaN then "NaN".toList
  else
    let size :=
      if x.isInfinite then "inf".toList
      else
        let scaled := roundHalfEven (x.units * 10 ^ places) Binary64.oneUnits
        let fraction := digitsOf (scaled % 10 ^ places)
        digitsOf (scaled / 10 ^ places) ++
          (if places = 0 then [] else '.' :: zeros (places - fraction.length) ++ fraction)
    if x.negative then '-' :: size else size

end PowerShare
