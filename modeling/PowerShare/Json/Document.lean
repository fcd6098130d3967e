import PowerShare.Number.Notation

/-!
# JSON documents and their texts

A `Document` is what a JSON text says: members of an object stay in the order given. It is written
in two ways, which differ in blanks and line ends only:

* `Document.compact` writes nothing between tokens;
* `Document.pretty` puts every item and member on a line of its own, two spaces deeper than its
  container, and a space after a member's colon; an empty container stays on its line.

A number that is not finite has no JSON text and is written as `null`.
-/

namespace PowerShare.Json

/-- What a JSON text says. -/
inductive Document where
  | null
  | boolean (value : Bool)
  | integer (value : Int)
  | number (value : Binary64)
  | text (value : String)
  | list (items : List Document)
  | object (members : List (String × Document))

instance : Inhabited Document := ⟨.null⟩

/-- JSON numbers are positional between `0.00001` and sixteen digits before the point, keep the
point of a whole number, and sign a positive exponent. -/
def numberNotation : Notation := ⟨.toEven, some (-5), some 15, true, true⟩

/-! ## 1. Texts of scalars -/

/-- The digit of a number below sixteen. -/
def hexDigit (n : Nat) : Char := Nat.digitChar n

/-- A character as it stands in a quoted text. -/
def quotedChar (c : Char) : List Char :=
  match c with
  | '"' => ['\\', '"']
  | '\\' => ['\\', '\\']
  | '\x08' => ['\\', 'b']
  | '\t' => ['\\', 't']
  | '\n' => ['\\', 'n']
  | '\x0c' => ['\\', 'f']
  | '\r' => ['\\', 'r']
  | c =>
    if c.toNat < 32 then
      ['\\', 'u', '0', '0', hexDigit (c.toNat / 16), hexDigit (c.toNat % 16)]
    else [c]

/-- A text between quotes. -/
def quoted (s : String) : List Char := '"' :: s.toList.flatMap quotedChar ++ ['"']

def numberText (x : Binary64) : List Char :=
  if x.isFinite then numberNotation.render x else "null".toList

def booleanText (b : Bool) : List Char := if b then "true".toList else "false".toList

namespace Document

/-! ## 2. The compact text -/

mutual

/-- The text without any blanks. -/
def compact : Document → List Char
  | null => "null".toList
  | boolean b => booleanText b
  | integer i => integerText i
  | number x => numberText x
  | text s => quoted s
  | list items => '[' :: compactItems items ++ [']']
  | object members => '\x7b' :: compactMembers members ++ ['\x7d']

/-- Items with commas between them. -/
def compactItems : List Document → List Char
  | [] => []
  | [item] => item.compact
  | item :: rest => item.compact ++ ',' :: compactItems rest

/-- Members with commas between them. -/
def compactMembers : List (String × Document) → List Char
  | [] => []
  | [(name, value)] => quoted name ++ ':' :: value.compact
  | (name, value) :: rest => quoted name ++ ':' :: value.compact ++ ',' :: compactMembers rest

end

/-! ## 3. The text on many lines -/

/-- A line end and the blanks in front of what stands at this depth. -/
def lineBreak (depth : Nat) : List Char := '\n' :: List.replicate (2 * depth) ' '

mutual

/-- The text with one item or member a line, for a container that stands at this depth. -/
def prettyAt (depth : Nat) : Document → List Char
  | null => "null".toList
  | boolean b => booleanText b
  | integer i => integerText i
  | number x => numberText x
  | text s => quoted s
  | list [] => ['[', ']']
  | list items => '[' :: prettyItems (depth + 1) items ++ lineBreak depth ++ [']']
  | object [] => ['\x7b', '\x7d']
  | object members => '\x7b' :: prettyMembers (depth + 1) members ++ lineBreak depth ++ ['\x7d']

/-- Items, each on its line. -/
def prettyItems (depth : Nat) : List Document → List Char
  | [] => []
  | [item] => lineBreak depth ++ item.prettyAt depth
  | item :: rest => lineBreak depth ++ item.prettyAt depth ++ ',' :: prettyItems depth rest

/-- Members, each on its line. -/
def prettyMembers (depth : Nat) : List (String × Document) → List Char
  | [] => []
  | [(name, value)] => lineBreak depth ++ quoted name ++ ':' :: ' ' :: value.prettyAt depth
  | (name, value) :: rest =>
    lineBreak depth ++ quoted name ++ ':' :: ' ' :: value.prettyAt depth ++
      ',' :: prettyMembers depth rest

end

/-- The text on many lines, without a line end at its end. -/
def pretty (d : Document) : List Char := d.prettyAt 0

/-- A member that is left out when it has no value. -/
def optional (name : String) (document : α → Document) (value? : Option α) :
    List (String × Document) :=
  match value? with
  | some value => [(name, document value)]
  | none => []

end Document

end PowerShare.Json
