import PowerShare.Text.Printable

/-!
# Texts in messages

A text is shown between quotes. Quotes, backslashes and line ends inside it get a backslash, and
what cannot be shown is named by its code point in base 16.
-/

namespace PowerShare

/-- A character of a text in a message. -/
def shownChar (c : Char) : List Char :=
  match c with
  | '\x00' => ['\\', '0']
  | '\t' => ['\\', 't']
  | '\r' => ['\\', 'r']
  | '\n' => ['\\', 'n']
  | '\\' => ['\\', '\\']
  | '"' => ['\\', '"']
  | c =>
    if isPrintable c then [c]
    else '\\' :: 'u' :: '\x7b' :: Nat.toDigits 16 c.toNat ++ ['\x7d']

/-- A text in a message. -/
def shown (text : String) : List Char := '"' :: text.toList.flatMap shownChar ++ ['"']

end PowerShare
