import PowerShare.Proofs.Toml.Numbers
import PowerShare.Proofs.Toml.Tokens

/-!
# Lines that are written one after another

A line is known by its characters, by its tokens and by what it says. A `Row` has all three, with
the proofs that they belong together whatever follows the line:

* `Row.empty`, `Row.header` and `Row.number` -- an empty line, the header of a table beneath another
  one, and a key with a number that has a point;
* `linesOf_rows` -- **rows one after another are read line by line;**
* `Writes` -- a text that is made of rows, and the lines that they say; such texts can be joined.
-/

namespace PowerShare.Toml

open Reader

/-! ## 1. Rows -/

/-- A line as it is written, with its tokens and what it says, whatever follows it. -/
structure Row where
  text : List Char
  first : Token
  others : List Token
  line? : Option Line
  spells : ∀ {ts : List Token} {rest : List Char}, Spells ts rest →
    Spells (first :: (others ++ ts)) (text ++ rest)
  reads : ∀ {depth : Nat}, 0 < depth → ∀ rest : List Token,
    (lineFrom depth first).run? (others ++ rest) = some (line?, rest)

namespace Row

def tokens (row : Row) : List Token := row.first :: row.others

/-- The text of rows is cut into their tokens. -/
theorem spells_rows (rows : List Row) : Spells (rows.flatMap tokens) (rows.flatMap Row.text) := by
  induction rows with
  | nil => exact .nil
  | cons row rows ih => exact row.spells ih

/-- A round for each row adds what the row says, if it says anything. -/
theorem readToEnd_rows {depth : Nat} (hdepth : 0 < depth) (rows : List Row) (read : List Line) :
    readToEnd (fun (read : List Line) t => do
      match ← lineFrom depth t with
      | some line => return line :: read
      | none => return read) read (rows.flatMap tokens) =
    Except.ok (ε := Refused) ((rows.filterMap Row.line?).reverse ++ read) := by
  induction rows generalizing read with
  | nil => rw [List.flatMap_nil, readToEnd]; rfl
  | cons row rows ih =>
    have hline := row.reads hdepth (rows.flatMap tokens)
    rw [List.flatMap_cons, tokens, List.cons_append]
    cases hrow : row.line? with
    | none =>
      rw [hrow] at hline
      rw [readToEnd_cons (by rw [run?_bind, hline]; rfl), ih, List.filterMap_cons_none hrow]
    | some line =>
      rw [hrow] at hline
      rw [readToEnd_cons (by rw [run?_bind, hline]; rfl), ih, List.filterMap_cons_some hrow]
      simp

/-- **Rows one after another are read line by line.** -/
theorem linesOf_rows (rows : List Row) :
    linesOf (rows.flatMap tokens) = .ok (rows.filterMap Row.line?) := by
  cases rows with
  | nil =>
    unfold linesOf
    rw [List.flatMap_nil, readToEnd]
    rfl
  | cons row rows =>
    have hdepth : 0 < ((row :: rows).flatMap tokens).length := Nat.succ_pos _
    refine (congrArg (Except.map List.reverse) (readToEnd_rows hdepth (row :: rows) [])).trans ?_
    show Except.ok (((row :: rows).filterMap Row.line?).reverse ++ []).reverse = _
    simp

end Row

/-! ## 2. Keys -/

theorem run?_keyPart (key : List Char) (rest : List Token) :
    keyPart.run? (.word key :: rest) = some (String.ofList key, rest) := rfl

theorem run?_skipBlanks (cs : List Char) (rest : List Token) :
    skipBlanks.run? (.blank cs :: rest) = some ((), rest) := rfl

theorem run?_skipBlanks_of_ne {t : Token} (h : ∀ cs, t ≠ .blank cs) (rest : List Token) :
    skipBlanks.run? (t :: rest) = some ((), t :: rest) := by
  cases t with
  | blank cs => exact absurd rfl (h cs)
  | _ => rfl

theorem run?_keyParts_equals (rest : List Token) :
    (keyParts .equals).run? (.equals :: rest) = some ([], rest) := by
  unfold keyParts
  rw [run?_bind, run?_scan_cons]
  rfl

theorem run?_keyParts_closeBracket (key : List Char) (rest : List Token) :
    (keyParts .closeBracket).run? (.dot :: .word key :: .closeBracket :: rest) =
      some ([String.ofList key], rest) := by
  unfold keyParts
  rw [run?_bind, run?_scan_cons]
  show ((scan _ _ [String.ofList key]).run? (.closeBracket :: rest)).bind _ = _
  rw [run?_scan_cons]
  rfl

/-- The header of a table beneath another one. -/
theorem run?_lineFrom_header (a b : List Char) (depth : Nat) (rest : List Token) :
    (lineFrom depth .openBracket).run?
      (.word a :: .dot :: .word b :: .closeBracket :: .newline :: rest) =
    some (some (.header false ⟨String.ofList a, [String.ofList b]⟩), rest) := by
  have hpath : (path .closeBracket).run?
      (.word a :: .dot :: .word b :: .closeBracket :: .newline :: rest) =
      some (⟨String.ofList a, [String.ofList b]⟩, .newline :: rest) := by
    unfold path
    rw [run?_bind, run?_keyPart, Option.bind_some, run?_bind,
      run?_skipBlanks_of_ne (fun _ => Token.noConfusion), Option.bind_some, run?_bind,
      run?_keyParts_closeBracket]
    rfl
  unfold lineFrom header
  rw [run?_bind, run?_bind, run?_eat_of_ne Token.noConfusion, Option.bind_some, run?_bind,
    run?_skipBlanks_of_ne (fun _ => Token.noConfusion), Option.bind_some, run?_bind, hpath,
    Option.bind_some]
  rfl

/-- A key with a value that is written in three tokens. -/
theorem run?_lineFrom_entry (key w f : List Char) {v : Value} {rest : List Token}
    (hv : (wordValue w).run? (.dot :: .word f :: .newline :: rest) = some (v, .newline :: rest))
    {depth : Nat} (hdepth : 0 < depth) :
    (lineFrom depth (.word key)).run?
      (.blank [' '] :: .equals :: .blank [' '] :: .word w :: .dot :: .word f :: .newline :: rest) =
    some (some (.entry ⟨String.ofList key, []⟩ (.value v)), rest) := by
  obtain ⟨depth, rfl⟩ : ∃ d, depth = d + 1 := ⟨depth - 1, by omega⟩
  have hvalue : (lineValue (depth + 1)).run?
      (.blank [' '] :: .word w :: .dot :: .word f :: .newline :: rest) =
      some (.value v, rest) := by
    unfold lineValue
    rw [run?_bind, run?_skipBlanks, Option.bind_some, run?_bind, run?_next?, Option.bind_some]
    show ((valueFrom (depth + 1) (.word w) >>= fun v => _).run?
      (.dot :: .word f :: .newline :: rest)) = _
    rw [valueFrom, run?_bind, run?_bind, hv]
    rfl
  unfold lineFrom entry
  rw [run?_bind, run?_bind, run?_skipBlanks, Option.bind_some, run?_bind, run?_keyParts_equals,
    Option.bind_some, run?_bind, hvalue]
  rfl

/-! ## 3. Rows of each kind -/

/-- Characters that are a key without quotes. -/
structure IsBareKey (key : List Char) : Prop where
  isWordChar_eq : ∀ c ∈ key, isWordChar c = true
  ne_nil : key ≠ []

theorem isBareKey_of_all {key : List Char} (h : key.all isWordChar = true) (hne : key ≠ []) :
    IsBareKey key := ⟨List.all_eq_true.1 h, hne⟩

theorem IsBareKey.spelled {key : List Char} (h : IsBareKey key) : Spelled (.word key) key :=
  .word h.isWordChar_eq h.ne_nil

theorem spelled_space : Spelled (.blank [' ']) [' '] :=
  .blank (fun c hc => by rw [List.mem_singleton.1 hc]; rfl) (List.cons_ne_nil _ _)

theorem isWordChar_of_isDigit {c : Char} (h : c.isDigit = true) : isWordChar c = true := by
  have hdigit : (decide ('0' ≤ c) && decide (c ≤ '9')) = true := h
  unfold isWordChar
  rw [hdigit]
  simp

theorem isBareKey_digits {cs : List Char} (h : ∀ c ∈ cs, c.isDigit = true) (hne : cs ≠ []) :
    IsBareKey cs := ⟨fun c hc => isWordChar_of_isDigit (h c hc), hne⟩

theorem isBareKey_signedText (negative : Bool) {cs : List Char} (h : IsBareKey cs) :
    IsBareKey (signedText negative cs) := by
  cases negative with
  | false => exact h
  | true =>
    refine ⟨fun c hc => ?_, List.cons_ne_nil _ _⟩
    rcases List.mem_cons.1 hc with rfl | hc
    · rfl
    · exact h.isWordChar_eq c hc

namespace Row

/-- An empty line says nothing. -/
def empty : Row where
  text := ['\n']
  first := .newline
  others := []
  line? := none
  spells h := .cons .newline trivial h
  reads _ _ := rfl

/-- The header of a table beneath another one. -/
def header (a b : List Char) (ha : IsBareKey a) (hb : IsBareKey b) : Row where
  text := '[' :: (a ++ '.' :: (b ++ [']', '\n']))
  first := .openBracket
  others := [.word a, .dot, .word b, .closeBracket, .newline]
  line? := some (.header false ⟨String.ofList a, [String.ofList b]⟩)
  spells {ts rest} h := by
    have hend : Spells (.closeBracket :: .newline :: ts) (']' :: '\n' :: rest) :=
      .cons .closeBracket trivial (.cons .newline trivial h)
    have hb' := Spells.cons hb.spelled (ends_of_head (by rfl) _) hend
    have ha' := Spells.cons ha.spelled (ends_of_head (by rfl) _) (.cons .dot trivial hb')
    have hall := Spells.cons .openBracket trivial ha'
    simpa using hall
  reads _ rest := run?_lineFrom_header a b _ rest

/-- A key with a number that has a point. -/
def number (key : List Char) (hkey : IsBareKey key) (n : PlainNumeral) (hplaces : n.places ≠ [])
    (negative : Bool) (hfinite : (n.decimal.toBinary64 negative).isFinite = true) : Row where
  text := key ++ [' ', '=', ' '] ++ signedText negative n.text ++ ['\n']
  first := .word key
  others := [.blank [' '], .equals, .blank [' '], .word (signedText negative n.whole), .dot,
    .word n.places, .newline]
  line? := some (.entry ⟨String.ofList key, []⟩ (.value (.number (n.decimal.toBinary64 negative))))
  spells {ts rest} h := by
    have hwhole := isBareKey_signedText negative (isBareKey_digits n.isDigit_whole n.whole_ne_nil)
    have hbehind := isBareKey_digits n.isDigit_places hplaces
    obtain ⟨c, cs, hcs⟩ := List.exists_cons_of_ne_nil hwhole.ne_nil
    have hc : isBlankChar c = false :=
      isBlankChar_of_isWordChar (hwhole.isWordChar_eq c (hcs ▸ List.mem_cons_self))
    have hend := Spells.cons hbehind.spelled (ends_of_head (by rfl) _) (.cons .newline trivial h)
    have hword := Spells.cons hwhole.spelled (ends_of_head (by rfl) _) (.cons .dot trivial hend)
    have hspace := Spells.cons spelled_space (by rw [hcs]; exact ends_of_head hc _) hword
    have hequals := Spells.cons spelled_space (ends_of_head (by rfl) _)
      (.cons .equals trivial hspace)
    have hall := Spells.cons hkey.spelled (ends_of_head (by rfl) _) hequals
    have htext : signedText negative n.text =
        signedText negative n.whole ++ '.' :: n.places := by
      rw [n.text_eq hplaces]
      cases negative <;> rfl
    rw [htext]
    simpa using hall
  reads hdepth rest := run?_lineFrom_entry key _ _
    (run?_wordValue_point hplaces hfinite (.newline :: rest)) hdepth

end Row

/-! ## 4. Texts made of rows -/

/-- A text that is made of rows, and the lines that they say. -/
def Writes (text : List Char) (lines : List Line) : Prop :=
  ∃ rows : List Row, rows.flatMap Row.text = text ∧ rows.filterMap Row.line? = lines

theorem writes_nil : Writes [] [] := ⟨[], rfl, rfl⟩

theorem writes_row (row : Row) : Writes row.text row.line?.toList := by
  refine ⟨[row], by simp, ?_⟩
  cases h : row.line? with
  | none => exact List.filterMap_cons_none h
  | some line => exact List.filterMap_cons_some h

theorem Writes.append {text text' : List Char} {lines lines' : List Line} (h : Writes text lines)
    (h' : Writes text' lines') : Writes (text ++ text') (lines ++ lines') := by
  obtain ⟨rows, rfl, rfl⟩ := h
  obtain ⟨rows', rfl, rfl⟩ := h'
  exact ⟨rows ++ rows', List.flatMap_append, List.filterMap_append⟩

theorem writes_flatMap {α : Type} (l : List α) {text : α → List Char} {lines : α → List Line}
    (h : ∀ a ∈ l, Writes (text a) (lines a)) : Writes (l.flatMap text) (l.flatMap lines) := by
  induction l with
  | nil => exact writes_nil
  | cons a l ih =>
    rw [List.flatMap_cons, List.flatMap_cons]
    exact (h a List.mem_cons_self).append (ih fun b hb => h b (List.mem_cons_of_mem a hb))

/-- **A text that is made of rows is read as the lines that they say.** -/
theorem Writes.linesOf_eq {text : List Char} {lines : List Line} (h : Writes text lines) :
    (do linesOf (← tokens text)) = .ok lines := by
  obtain ⟨rows, rfl, rfl⟩ := h
  rw [tokens_of_spells (Row.spells_rows rows)]
  exact Row.linesOf_rows rows

end PowerShare.Toml
