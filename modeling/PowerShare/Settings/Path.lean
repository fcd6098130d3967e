import PowerShare.Number.Literal
import PowerShare.Number.Notation
import PowerShare.Settings.Tree

/-!
# Paths of settings

A path is written with a point in front of every name but the first, and a position in brackets.
The first step is always a name.

* `stepsOf?` reads a path from a key; a key that is no path is one name as a whole (`stepsOfKey`);
* `pathText` writes one for a message.
-/

namespace PowerShare

/-! ## 1. Reading -/

/-- A character that a name in a path may have. -/
def isNameChar (c : Char) : Bool :=
  ('a' ≤ c && c ≤ 'z') || ('A' ≤ c && c ≤ 'Z') || isDecimal c || c == ' ' || c == '_' || c == '-'

def isSpace (c : Char) : Bool := c == ' ' || c == '\t'

/-- The position between brackets. It has to fit 64 bits. -/
def indexOf? (text : List Char) : Option Int :=
  let inner := ((text.dropWhile isSpace).reverse.dropWhile isSpace).reverse
  if inner.head? == some '+' then none
  else (integerOf? inner).filter fun i => -2 ^ 63 ≤ i && i < 2 ^ 63

/-- A name and what follows it. -/
def nameAt? (text : List Char) : Option (Step × List Char) :=
  let name := text.takeWhile isNameChar
  if name.isEmpty then none
  else some (.name (String.ofList name), text.dropWhile isNameChar)

/-- One further step and what follows it. -/
def stepAt? : List Char → Option (Step × List Char)
  | '.' :: rest => nameAt? rest
  | '[' :: rest =>
    match rest.dropWhile (· != ']') with
    | ']' :: left => (indexOf? (rest.takeWhile (· != ']'))).map fun i => (.item i, left)
    | _ => none
  | _ => none

/-- The further steps of a text, of which there are no more than the given number. -/
def furtherSteps? : Nat → List Char → Option (List Step)
  | _, [] => some []
  | 0, _ :: _ => none
  | bound + 1, text => do
    let (step, rest) ← stepAt? text
    return step :: (← furtherSteps? bound rest)

/-- The first step and the others, if the key is a path. -/
def stepsOf? (key : List Char) : Option (Step × List Step) := do
  let (first, rest) ← nameAt? key
  return (first, ← furtherSteps? rest.length rest)

/-- The steps of a key, which is a name if it is no path. -/
def stepsOfKey (key : List Char) : Step × List Step :=
  (stepsOf? key).getD (.name (String.ofList key), [])

/-- Sets a value under a key of a source. -/
def Setting.assign (root : Setting) (key : List Char) (value : Setting) : Setting :=
  let (first, rest) := stepsOfKey key
  Setting.setAt value first rest root

/-! ## 2. Writing -/

/-- A path as messages name it. A point stands only between two names. -/
def pathText : List Step → List Char
  | [] => []
  | .item index :: rest => '[' :: integerText index ++ ']' :: pathText rest
  | .name key :: rest =>
    match rest with
    | .name _ :: _ => key.toList ++ '.' :: pathText rest
    | _ => key.toList ++ pathText rest

end PowerShare
