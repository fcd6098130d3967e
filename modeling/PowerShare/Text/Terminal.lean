import PowerShare.Text.Ranges

/-!
# Texts on a terminal

Some characters make a terminal act in place of showing them. Where a text is not trusted, they are
named by their code points.
-/

namespace PowerShare

/-- The control characters of one byte that make a terminal act: bell, backspace, form feed, escape
and delete. -/
def terminalControls : List Char := ['\x07', '\x08', '\x0c', '\x1b', '\x7f']

/-- The control characters of the second set, which a terminal may take for escapes. -/
def secondControls : CharRanges := [(0x80, 0x9f)]

/-- A character as a terminal may show it. -/
def harmlessChar (c : Char) : List Char :=
  let digits := Nat.toDigits 16 c.toNat
  if terminalControls.contains c then
    '\\' :: 'x' :: List.replicate (2 - digits.length) '0' ++ digits
  else if secondControls.has c then '\\' :: 'u' :: '\x7b' :: digits ++ ['\x7d']
  else [c]

/-- A text as a terminal may show it. -/
def harmless (text : String) : String := String.ofList (text.toList.flatMap harmlessChar)

end PowerShare
