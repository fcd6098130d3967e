import PowerShare.Text.Case

/-!
# Small letters

A text in small letters, letter by letter, with two exceptions: a capital I with a dot becomes two
characters, and a capital sigma becomes a final one at the end of a word.
-/

namespace PowerShare

/-- The small letter of a character outside of the basic alphabet, if it has one. -/
def otherSmallLetter? (c : Char) : Option Char :=
  (smallLetterRuns.find? fun (first, last, stride, _) =>
    first ≤ c.toNat && c.toNat ≤ last && (c.toNat - first) % stride == 0).map
      fun (_, _, _, offset) => Char.ofNat (c.toNat + offset).toNat

/-- The small letter of a character, which is the character itself if it has none. -/
def smallLetter (c : Char) : Char :=
  if c.toNat < 128 then c.toLower else (otherSmallLetter? c).getD c

/-- Whether the next character that separates letters is itself a letter with a case. -/
def startsCased (text : List Char) : Bool :=
  ((text.dropWhile caseIgnorableRanges.has).head?).any casedRanges.has

/-- The small letters of a text. The characters before it are given from the last to the first. -/
def smallLetters (before : List Char) : List Char → List Char
  | [] => []
  | c :: rest =>
    let small :=
      if c == 'Σ' then [if startsCased before && !startsCased rest then 'ς' else 'σ']
      else if c == 'İ' then ['i', '\u0307']
      else [smallLetter c]
    small ++ smallLetters (c :: before) rest

/-- A text in small letters. -/
def lowercase (text : String) : String := String.ofList (smallLetters [] text.toList)

end PowerShare
