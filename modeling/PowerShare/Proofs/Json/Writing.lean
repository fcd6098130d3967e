import PowerShare.Proofs.Json.NumberText

/-!
# What is written says the document

* `Says` -- a tree says what a document says: every number is nearest to its own text, but `null`
  stands for one that is not finite;
* `exists_quotes` -- the text between quotes spells its characters;
* `Document.saidBy_compact` and `Document.saidBy_pretty` -- **both texts of a document are those of
  a tree that says the document.**
-/

namespace PowerShare.Json

/-! ## 1. Characters -/

/-- A digit of an escape. -/
def hexDigitOf (n : Nat) (h : n < 16) : HexDigit where
  byte := byte (hexDigit n)
  value := n
  hexValue?_eq := by
    have hall : ∀ k < 16, hexValue? (byte (hexDigit k)) = some k := by decide
    exact hall n h

theorem toNat_hexDigit {n : Nat} (h : n < 16) : (hexDigit n).toNat ≤ 127 := by
  have hall : ∀ k < 16, (hexDigit k).toNat ≤ 127 := by decide
  exact hall n h

/-- The characters that have an escape of one letter when they are written. -/
def lettered : List (Char × Char) :=
  [('"', '"'), ('\\', '\\'), ('b', '\x08'), ('t', '\t'), ('n', '\n'), ('f', '\x0c'), ('r', '\r')]

theorem quotedChar_of_mem {e : Char × Char} (he : e ∈ lettered) :
    e ∈ shortEscapes ∧ quotedChar e.2 = ['\\', e.1] := by
  simp only [lettered, List.mem_cons, List.not_mem_nil, or_false] at he
  rcases he with rfl | rfl | rfl | rfl | rfl | rfl | rfl <;> exact ⟨by decide, rfl⟩

theorem quotedChar_of_forall_ne {c : Char} (h : ∀ e ∈ lettered, e.2 ≠ c) :
    quotedChar c =
      if c.toNat < 32 then
        ['\\', 'u', '0', '0', hexDigit (c.toNat / 16), hexDigit (c.toNat % 16)]
      else [c] := by
  unfold quotedChar
  split
  · exact absurd rfl (h ('"', '"') (by decide))
  · exact absurd rfl (h ('\\', '\\') (by decide))
  · exact absurd rfl (h ('b', '\x08') (by decide))
  · exact absurd rfl (h ('t', '\t') (by decide))
  · exact absurd rfl (h ('n', '\n') (by decide))
  · exact absurd rfl (h ('f', '\x0c') (by decide))
  · exact absurd rfl (h ('r', '\r') (by decide))
  · rfl

/-- **A character is written as one unit,** which spells it. -/
theorem exists_unit (c : Char) :
    ∃ unit : TextUnit, unit.bytes = utf8 (quotedChar c) ∧
      ∀ rest, charsOf? (unit :: rest) = (charsOf? rest).map (c :: ·) := by
  by_cases hnamed : ∃ e ∈ lettered, e.2 = c
  · obtain ⟨e, he, rfl⟩ := hnamed
    obtain ⟨hshort, htext⟩ := quotedChar_of_mem he
    have hascii : ∀ e ∈ shortEscapes, e.1.toNat ≤ 127 := by decide
    refine ⟨.short e hshort, ?_, fun rest => by rw [charsOf?]⟩
    rw [htext, utf8_cons_of_le (by decide), utf8_cons_of_le (hascii e hshort)]
    rfl
  · have hother : ∀ e ∈ lettered, e.2 ≠ c := fun e he hc => hnamed ⟨e, he, hc⟩
    rw [quotedChar_of_forall_ne hother]
    -- Other control characters are escapes of four digits, which are no surrogates.
    by_cases hcontrol : c.toNat < 32
    · have hhigh : c.toNat / 16 < 16 := by omega
      have hlow : c.toNat % 16 < 16 := by omega
      have hcode : codeOf (hexDigitOf 0 (by decide)) (hexDigitOf 0 (by decide))
          (hexDigitOf _ hhigh) (hexDigitOf _ hlow) = c.toNat := by
        show ((0 * 16 + 0) * 16 + c.toNat / 16) * 16 + c.toNat % 16 = c.toNat
        omega
      refine ⟨.code (hexDigitOf 0 (by decide)) (hexDigitOf 0 (by decide)) (hexDigitOf _ hhigh)
        (hexDigitOf _ hlow), ?_, fun rest => ?_⟩
      · rw [if_pos hcontrol, utf8_eq_map_byte]
        · rfl
        · intro d hd
          simp only [List.mem_cons, List.not_mem_nil, or_false] at hd
          rcases hd with rfl | rfl | rfl | rfl | rfl | rfl
          iterate 4 decide
          · exact toNat_hexDigit hhigh
          · exact toNat_hexDigit hlow
      · have hnotLow : isLow c.toNat = false := by
          unfold isLow
          rw [decide_eq_false (by omega), Bool.false_and]
        have hnotHigh : isHigh c.toNat = false := by
          unfold isHigh
          rw [decide_eq_false (by omega), Bool.false_and]
        conv_lhs => unfold charsOf?
        dsimp only
        rw [hcode, hnotLow, hnotHigh, if_neg Bool.false_ne_true, if_neg Bool.false_ne_true,
          Char.ofNat_toNat]
    · have hplain : c ≠ '"' ∧ c ≠ '\\' ∧ 32 ≤ c.toNat :=
        ⟨(hother ('"', '"') (by decide)).symm, (hother ('\\', '\\') (by decide)).symm, by omega⟩
      refine ⟨.plain c hplain, ?_, fun rest => by rw [charsOf?]⟩
      rw [if_neg hcontrol]
      unfold utf8
      rw [List.flatMap_singleton]
      rfl

/-- The text between quotes is written for these characters, and spells them. -/
def Quotes (units : List TextUnit) (s : String) : Prop :=
  unitBytes units = utf8 (s.toList.flatMap quotedChar) ∧ textOf? units = some s

/-- **The text between quotes spells its characters.** -/
theorem exists_quotes (s : String) : ∃ units, Quotes units s := by
  have hchars (cs : List Char) :
      ∃ units, unitBytes units = utf8 (cs.flatMap quotedChar) ∧ charsOf? units = some cs := by
    induction cs with
    | nil => exact ⟨[], rfl, rfl⟩
    | cons c cs ih =>
      obtain ⟨unit, hunit, hchar⟩ := exists_unit c
      obtain ⟨units, hunits, hchars⟩ := ih
      refine ⟨unit :: units, ?_, ?_⟩
      · rw [List.flatMap_cons, utf8_append, ← hunit, ← hunits]
        rfl
      · rw [hchar, hchars, Option.map_some]
  obtain ⟨units, hbytes, hunits⟩ := hchars s.toList
  refine ⟨units, hbytes, ?_⟩
  unfold textOf?
  rw [hunits, Option.map_some, String.ofList_toList]

theorem Quotes.utf8_quoted {units : List TextUnit} {s : String} (h : Quotes units s) :
    utf8 (quoted s) = byte '"' :: (unitBytes units ++ [byte '"']) := by
  unfold quoted
  rw [List.cons_append, utf8_cons_of_le (by decide), utf8_append, h.1]
  rfl

/-! ## 2. What a tree says -/

mutual

/-- The tree says what the document says. -/
inductive Says : Tree → Document → Prop where
  | null : Says .null .null
  | boolean (value : Bool) : Says (.boolean value) (.boolean value)
  | integer {n : Numeral} {i : Int} : n.Says i → Says (.number n) (.integer i)
  | number {n : Numeral} {x : Binary64} :
      x.isFinite = true → n.bytes = utf8 (numberText x) → n.toBinary64 = x →
        Says (.number n) (.number x)
  | notFinite {x : Binary64} : x.isFinite = false → Says .null (.number x)
  | text {units : List TextUnit} {s : String} :
      Quotes units s → Says (.text units) (.text s)
  | list {ts : List Tree} {items : List Document} :
      SaysItems ts items → Says (.list ts) (.list items)
  | object {ms : List (List TextUnit × Tree)} {members : List (String × Document)} :
      SaysMembers ms members → Says (.object ms) (.object members)

/-- The trees say the items, one by one. -/
inductive SaysItems : List Tree → List Document → Prop where
  | nil : SaysItems [] []
  | cons {t : Tree} {ts : List Tree} {item : Document} {items : List Document} :
      Says t item → SaysItems ts items → SaysItems (t :: ts) (item :: items)

/-- The named trees say the members, one by one. -/
inductive SaysMembers : List (List TextUnit × Tree) → List (String × Document) → Prop where
  | nil : SaysMembers [] []
  | cons {units : List TextUnit} {t : Tree} {ms : List (List TextUnit × Tree)} {name : String}
      {value : Document} {members : List (String × Document)} :
      Quotes units name → Says t value → SaysMembers ms members →
        SaysMembers ((units, t) :: ms) ((name, value) :: members)

end

/-! ## 3. Texts put together -/

namespace Document

/-- The bytes are those of a tree that says the document. -/
def SaidBy (d : Document) (bytes : List UInt8) : Prop := ∃ t, Says t d ∧ Writes t bytes

/-- The same of items up to the closing bracket. -/
def ItemsSaidBy (items : List Document) (body : List UInt8) : Prop :=
  ∃ ts, SaysItems ts items ∧ WritesItems true ts body

/-- The same of members up to the closing brace. -/
def MembersSaidBy (members : List (String × Document)) (body : List UInt8) : Prop :=
  ∃ ms, SaysMembers ms members ∧ WritesMembers true ms body

/-- What stands behind an item or a member: what is left, with a comma if that is not the end. -/
def behind (left : List α) (body : List UInt8) : List UInt8 :=
  if left.isEmpty then body else byte ',' :: body

/-- The bytes are a whole text. -/
theorem SaidBy.exists_isText {d : Document} {bytes : List UInt8} (h : d.SaidBy bytes) :
    ∃ t, Says t d ∧ IsText t bytes := by
  obtain ⟨t, ht, hv⟩ := h
  exact ⟨t, ht, [], bytes, [], .nil, hv, .nil, (List.append_nil bytes).symm⟩

theorem itemsSaidBy_nil {w : List UInt8} (hw : Blank w) : ItemsSaidBy [] (w ++ [byte ']']) :=
  ⟨[], .nil, .stop hw⟩

theorem membersSaidBy_nil {w : List UInt8} (hw : Blank w) :
    MembersSaidBy [] (w ++ [byte '\x7d']) := ⟨[], .nil, .stop hw⟩

variable {w bytes body : List UInt8} {value : Document}

/-- One more item, with blanks in front of it. -/
theorem ItemsSaidBy.cons {items : List Document} (hw : Blank w) (hvalue : value.SaidBy bytes)
    (h : ItemsSaidBy items body) :
    ItemsSaidBy (value :: items) (w ++ (bytes ++ behind items body)) := by
  obtain ⟨t, ht, hv⟩ := hvalue
  obtain ⟨ts, hts, hbody⟩ := h
  refine ⟨t :: ts, .cons ht hts, ?_⟩
  -- The item behind was written as the first one; now its comma makes it a later one.
  cases hts with
  | nil => exact .first hw hv (match hbody with | .stop hend => .stop hend)
  | cons hnext hrest =>
    cases hbody with
    | first hw' hv' htail => exact .first hw hv (.next .nil hw' hv' htail)

/-- One more member, with blanks in front of its name and of its value. -/
theorem MembersSaidBy.cons {members : List (String × Document)} {gap : List UInt8} (hw : Blank w)
    (name : String) (hgap : Blank gap) (hvalue : value.SaidBy bytes)
    (h : MembersSaidBy members body) :
    MembersSaidBy ((name, value) :: members)
      (w ++ (utf8 (quoted name) ++ byte ':' :: (gap ++ (bytes ++ behind members body)))) := by
  obtain ⟨t, ht, hv⟩ := hvalue
  obtain ⟨ms, hms, hbody⟩ := h
  obtain ⟨units, hname⟩ := exists_quotes name
  have hm : WritesMember units t
      (unitBytes units ++ byte '"' :: ([] ++ byte ':' :: (gap ++ bytes))) := .mk .nil hgap hv
  have hrow : w ++ (utf8 (quoted name) ++ byte ':' :: (gap ++ (bytes ++ behind members body))) =
      w ++ byte '"' :: ((unitBytes units ++ byte '"' :: ([] ++ byte ':' :: (gap ++ bytes))) ++
        behind members body) := by
    rw [hname.utf8_quoted]
    simp
  refine ⟨(units, t) :: ms, .cons hname ht hms, ?_⟩
  rw [hrow]
  cases hms with
  | nil => exact .first hw hm (match hbody with | .stop hend => .stop hend)
  | cons hname hnext hrest =>
    cases hbody with
    | first hw' hm' htail => exact .first hw hm (.next .nil hw' hm' htail)

theorem SaidBy.list {items : List Document} (h : ItemsSaidBy items body) :
    (list items).SaidBy (byte '[' :: body) := by
  obtain ⟨ts, hts, hbody⟩ := h
  exact ⟨.list ts, .list hts, .list hbody⟩

theorem SaidBy.object {members : List (String × Document)} (h : MembersSaidBy members body) :
    (object members).SaidBy (byte '\x7b' :: body) := by
  obtain ⟨ms, hms, hbody⟩ := h
  exact ⟨.object ms, .object hms, .object hbody⟩

/-! ## 4. Scalars -/

theorem saidBy_null : null.SaidBy (utf8 "null".toList) := by
  rw [utf8_eq_map_byte (List.all_iff_forall_prop.1 (by decide))]
  exact ⟨.null, .null, .null⟩

theorem saidBy_boolean (b : Bool) : (boolean b).SaidBy (utf8 (booleanText b)) := by
  rw [utf8_eq_map_byte (List.all_iff_forall_prop.1 (by cases b <;> decide))]
  exact ⟨.boolean b, .boolean b, .boolean b⟩

theorem saidBy_integer (i : Int) : (integer i).SaidBy (utf8 (integerText i)) := by
  obtain ⟨n, hbytes, hn⟩ := exists_numeral_integer i
  exact ⟨.number n, .integer hn, hbytes ▸ .number n⟩

theorem saidBy_number (x : Binary64) : (number x).SaidBy (utf8 (numberText x)) := by
  by_cases hx : x.isFinite = true
  · obtain ⟨n, hbytes, hn⟩ := exists_numeral_number hx
    exact ⟨.number n, .number hx hbytes hn, hbytes ▸ .number n⟩
  · unfold numberText
    rw [if_neg hx, utf8_eq_map_byte (List.all_iff_forall_prop.1 (by decide))]
    exact ⟨.null, .notFinite (Bool.not_eq_true _ ▸ hx), .null⟩

theorem saidBy_text (s : String) : (text s).SaidBy (utf8 (quoted s)) := by
  obtain ⟨units, hs⟩ := exists_quotes s
  exact ⟨.text units, .text hs, hs.utf8_quoted ▸ .text units⟩

/-! ## 5. Both texts of a document -/

mutual

/-- **The compact text of a document says the document.** -/
theorem saidBy_compact : ∀ d : Document, d.SaidBy (utf8 d.compact)
  | null => saidBy_null
  | boolean b => saidBy_boolean b
  | integer i => saidBy_integer i
  | number x => saidBy_number x
  | text s => saidBy_text s
  | list items => by
    unfold compact
    rw [List.cons_append, utf8_cons_of_le (by decide), utf8_append]
    exact .list (saidBy_compactItems items)
  | object members => by
    unfold compact
    rw [List.cons_append, utf8_cons_of_le (by decide), utf8_append]
    exact .object (saidBy_compactMembers members)

theorem saidBy_compactItems :
    ∀ items : List Document, ItemsSaidBy items (utf8 (compactItems items) ++ utf8 [']'])
  | [] => itemsSaidBy_nil .nil
  | [item] =>
    have h := ItemsSaidBy.cons .nil (saidBy_compact item) (itemsSaidBy_nil .nil)
    h
  | item :: next :: rest => by
    unfold compactItems
    rw [utf8_append, utf8_cons_of_le (by decide), List.append_assoc]
    exact .cons .nil (saidBy_compact item) (saidBy_compactItems (next :: rest))

theorem saidBy_compactMembers : ∀ members : List (String × Document),
    MembersSaidBy members (utf8 (compactMembers members) ++ utf8 ['\x7d'])
  | [] => membersSaidBy_nil .nil
  | [(name, value)] => by
    unfold compactMembers
    rw [utf8_append, utf8_cons_of_le (by decide), List.append_assoc]
    have h := MembersSaidBy.cons .nil name .nil (saidBy_compact value) (membersSaidBy_nil .nil)
    exact h
  | (name, value) :: next :: rest => by
    unfold compactMembers
    have h := MembersSaidBy.cons .nil name .nil (saidBy_compact value)
      (saidBy_compactMembers (next :: rest))
    simp only [utf8_append, utf8_cons_of_le (c := ':') (by decide),
      utf8_cons_of_le (c := ',') (by decide), List.append_assoc, List.cons_append]
    exact h

end

theorem blank_lineBreak (depth : Nat) : Blank (utf8 (lineBreak depth)) := by
  have hchar : ∀ c ∈ lineBreak depth, c.toNat ≤ 127 ∧ isBlank (byte c) = true := by
    intro c hc
    rcases List.mem_cons.1 hc with rfl | hc
    · decide
    · rw [List.eq_of_mem_replicate hc]
      decide
  rw [utf8_eq_map_byte fun c hc => (hchar c hc).1]
  intro b hb
  obtain ⟨c, hc, rfl⟩ := List.mem_map.1 hb
  exact (hchar c hc).2

theorem blank_space : Blank [byte ' '] := List.all_iff_forall_prop.1 (by decide)

mutual

/-- **The text of a document on many lines says the document.** -/
theorem saidBy_prettyAt (depth : Nat) : ∀ d : Document, d.SaidBy (utf8 (d.prettyAt depth))
  | null => saidBy_null
  | boolean b => saidBy_boolean b
  | integer i => saidBy_integer i
  | number x => saidBy_number x
  | text s => saidBy_text s
  | list [] => .list (itemsSaidBy_nil .nil)
  | list (item :: rest) => by
    unfold prettyAt
    rw [List.cons_append, List.cons_append, utf8_cons_of_le (by decide), utf8_append, utf8_append,
      List.append_assoc]
    exact .list (saidBy_prettyItems depth (item :: rest))
  | object [] => .object (membersSaidBy_nil .nil)
  | object (member :: rest) => by
    unfold prettyAt
    rw [List.cons_append, List.cons_append, utf8_cons_of_le (by decide), utf8_append, utf8_append,
      List.append_assoc]
    exact .object (saidBy_prettyMembers depth (member :: rest))

theorem saidBy_prettyItems (depth : Nat) : ∀ items : List Document, ItemsSaidBy items
      (utf8 (prettyItems (depth + 1) items) ++ (utf8 (lineBreak depth) ++ utf8 [']']))
  | [] => itemsSaidBy_nil (blank_lineBreak depth)
  | [item] => by
    unfold prettyItems
    rw [utf8_append, List.append_assoc]
    exact .cons (blank_lineBreak (depth + 1)) (saidBy_prettyAt (depth + 1) item)
      (itemsSaidBy_nil (blank_lineBreak depth))
  | item :: next :: rest => by
    unfold prettyItems
    have h := ItemsSaidBy.cons (blank_lineBreak (depth + 1)) (saidBy_prettyAt (depth + 1) item)
      (saidBy_prettyItems depth (next :: rest))
    simp only [utf8_append, utf8_cons_of_le (c := ',') (by decide), List.append_assoc,
      List.cons_append]
    exact h

theorem saidBy_prettyMembers (depth : Nat) : ∀ members : List (String × Document),
    MembersSaidBy members
      (utf8 (prettyMembers (depth + 1) members) ++ (utf8 (lineBreak depth) ++ utf8 ['\x7d']))
  | [] => membersSaidBy_nil (blank_lineBreak depth)
  | [(name, value)] => by
    unfold prettyMembers
    have h := MembersSaidBy.cons (blank_lineBreak (depth + 1)) name blank_space
      (saidBy_prettyAt (depth + 1) value) (membersSaidBy_nil (blank_lineBreak depth))
    simp only [utf8_append, utf8_cons_of_le (c := ':') (by decide),
      utf8_cons_of_le (c := ' ') (by decide), List.append_assoc, List.cons_append]
    exact h
  | (name, value) :: next :: rest => by
    unfold prettyMembers
    have h := MembersSaidBy.cons (blank_lineBreak (depth + 1)) name blank_space
      (saidBy_prettyAt (depth + 1) value) (saidBy_prettyMembers depth (next :: rest))
    simp only [utf8_append, utf8_cons_of_le (c := ':') (by decide),
      utf8_cons_of_le (c := ' ') (by decide), utf8_cons_of_le (c := ',') (by decide),
      List.append_assoc, List.cons_append]
    exact h

end

/-- The text of a document on many lines says the document. -/
theorem saidBy_pretty (d : Document) : d.SaidBy (utf8 d.pretty) := saidBy_prettyAt 0 d

end Document

end PowerShare.Json
