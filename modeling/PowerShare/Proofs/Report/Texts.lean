import PowerShare.Proofs.Sink.Lines

/-!
# One report, two texts

A report that stands alone in a file is written on many lines, and one among others on a single
line. Both texts are made of the same tokens, so the blanks and line ends between tokens are all
that tells them apart:

* `withoutBlanks` -- a text with its blanks and line ends deleted;
* `Spaced.filter_isInk` -- of a text made of tokens, the tokens are left;
* `Document.Solid` -- no text in the document has a blank inside. A line end inside a text is
  written as an escape, so blanks are all that could be deleted from it;
* `Document.filter_pretty` -- of the text on many lines of such a document, the compact text is
  left;
* `Report.withoutBlanks_file` -- so of the file of a report, the line is left that a sink of lines
  writes for it.
-/

namespace PowerShare

namespace Json

/-! ## 1. Deleting blanks -/

/-- A character that is neither a blank nor a line end. -/
def isInk (c : Char) : Bool := c != ' ' && c != '\n'

theorem isInk_eq_true_iff {c : Char} : isInk c = true ↔ c ≠ ' ' ∧ c ≠ '\n' := by
  unfold isInk
  rw [Bool.and_eq_true_iff, bne_iff_ne, bne_iff_ne]

/-- Blanks and line ends are among the first characters. -/
theorem isInk_of_lt {c : Char} (h : 32 < c.toNat) : isInk c = true := by
  rw [isInk_eq_true_iff]
  constructor
  · rintro rfl
    exact absurd h (by decide)
  · rintro rfl
    exact absurd h (by decide)

/-- The bytes of a text with its blanks and line ends deleted. -/
def withoutBlanks (bytes : List UInt8) : List UInt8 :=
  bytes.filter fun b => b != byte ' ' && b != lineEnd

/-- No byte inside the code of another character is that of a blank or a line end. -/
theorem withoutBlanks_utf8EncodeChar (c : Char) :
    withoutBlanks (String.utf8EncodeChar c) = if isInk c then String.utf8EncodeChar c else [] := by
  unfold withoutBlanks
  by_cases hascii : c.toNat ≤ 127
  · have hbyte {d : Char} (hd : d.toNat ≤ 127) : byte c = byte d ↔ c = d := by
      constructor
      · intro h
        have hnat : c.toNat % 256 = d.toNat % 256 := congrArg UInt8.toNat h
        exact Char.toNat_inj.1 (by omega)
      · exact congrArg byte
    have hink : (byte c != byte ' ' && byte c != lineEnd) = isInk c := by
      rw [Bool.eq_iff_iff, isInk_eq_true_iff, Bool.and_eq_true_iff, bne_iff_ne, bne_iff_ne, Ne,
        Ne, hbyte (by decide), lineEnd, hbyte (by decide)]
    rw [utf8EncodeChar_of_le hascii, List.filter_singleton, hink]
    cases isInk c <;> rfl
  · have hlarge : ∀ b ∈ String.utf8EncodeChar c, (b != byte ' ' && b != lineEnd) = true := by
      intro b hb
      have hle : 128 ≤ b.toNat := le_toNat_of_mem_utf8EncodeChar (Nat.lt_of_not_le hascii) hb
      rw [Bool.and_eq_true_iff, bne_iff_ne, bne_iff_ne]
      constructor
      · rintro rfl
        exact absurd hle (by decide)
      · rintro rfl
        exact absurd hle (by decide)
    have hink : isInk c = true := isInk_of_lt (by omega)
    rw [List.filter_eq_self.2 hlarge, hink, if_pos rfl]

/-- Deleting from the bytes of a text is deleting from its characters. -/
theorem withoutBlanks_utf8 (text : List Char) :
    withoutBlanks (utf8 text) = utf8 (text.filter isInk) := by
  induction text with
  | nil => rfl
  | cons c text ih =>
    have hfirst : withoutBlanks (utf8 (c :: text)) =
        withoutBlanks (String.utf8EncodeChar c) ++ withoutBlanks (utf8 text) := by
      unfold withoutBlanks utf8
      rw [List.flatMap_cons, List.filter_append]
    rw [hfirst, ih, withoutBlanks_utf8EncodeChar, List.filter_cons]
    split
    · rfl
    · rfl

/-- **What is left of a text made of tokens are the tokens,** if there are no blanks in them. -/
theorem Spaced.filter_isInk {tokens : List (List Char)} {text : List Char}
    (h : Spaced tokens text) (htokens : ∀ t ∈ tokens, ∀ c ∈ t, isInk c = true) :
    text.filter isInk = tokens.flatten := by
  induction h with
  | nil => rfl
  | token t _ ih =>
    rw [List.filter_append, List.flatten_cons, List.filter_eq_self.2 (htokens t List.mem_cons_self),
      ih fun u hu => htokens u (List.mem_cons_of_mem t hu)]
  | @blank _ _ c hc _ ih =>
    have hdeleted : isInk c ≠ true := by
      intro hink
      obtain ⟨hspace, hend⟩ := isInk_eq_true_iff.1 hink
      exact hc.elim hspace hend
    rw [List.filter_cons_of_neg hdeleted, ih htokens]

/-! ## 2. Documents -/

theorem IsNumeric.isInk {c : Char} (h : IsNumeric c) : isInk c = true := by
  rcases h with hdigit | hmem
  · obtain ⟨hlow, -⟩ := Bool.and_eq_true_iff.1 hdigit
    have hzero : 48 ≤ c.toNat := UInt32.le_iff_toNat_le.1 (of_decide_eq_true hlow)
    exact isInk_of_lt (by omega)
  · have hmarks : ∀ c ∈ ['-', '+', '.', 'e'], Json.isInk c = true :=
      List.all_eq_true.1 (by decide)
    exact hmarks c hmem

theorem isInk_of_mem_numberText {x : Binary64} {c : Char} (h : c ∈ numberText x) :
    isInk c = true := by
  cases hx : x.isFinite with
  | true => exact (isNumeric_of_mem_numberText hx h).isInk
  | false =>
    unfold numberText at h
    rw [hx] at h
    have hnull : ∀ c ∈ "null".toList, isInk c = true := List.all_eq_true.1 (by decide)
    exact hnull c h

/-- Only a blank is written with a blank. -/
theorem eq_of_blank_mem_quotedChar {c : Char} (h : ' ' ∈ quotedChar c) : c = ' ' := by
  have hdigits : ∀ n < 16, hexDigit n ≠ ' ' := by decide
  unfold quotedChar at h
  split at h
  iterate 7 exact absurd h (by decide)
  split at h
  · simp only [List.mem_cons, List.not_mem_nil, or_false] at h
    rcases h with h | h | h | h | h | h
    iterate 4 exact absurd h (by decide)
    · exact absurd h.symm (hdigits _ (by omega))
    · exact absurd h.symm (hdigits _ (by omega))
  · exact (List.mem_singleton.1 h).symm

/-- A text without blanks is written without blanks, and never with a line end. -/
theorem isInk_of_mem_quoted {s : String} (hs : ' ' ∉ s.toList) {c : Char} (h : c ∈ quoted s) :
    isInk c = true := by
  have hcontrol : 32 ≤ c.toNat := le_toNat_of_mem_quoted h
  rw [isInk_eq_true_iff]
  refine ⟨?_, ?_⟩
  · rintro rfl
    unfold quoted at h
    rw [List.mem_append, List.mem_cons, List.mem_singleton] at h
    rcases h with (h | h) | h
    · exact absurd h (by decide)
    · obtain ⟨e, he, h⟩ := List.mem_flatMap.1 h
      exact hs (eq_of_blank_mem_quotedChar h ▸ he)
    · exact absurd h (by decide)
  · rintro rfl
    exact absurd hcontrol (by decide)

namespace Document

/-- No text in the document has a blank inside, the names of members among them. -/
def Solid (d : Document) : Prop := ∀ s, text s ∈ d.leaves → ' ' ∉ s.toList

/-- There is no blank in a token of such a document. -/
theorem Solid.isInk_of_mem_tokens {d : Document} (h : d.Solid) :
    ∀ t ∈ d.tokens, ∀ c ∈ t, isInk c = true := by
  intro t ht c hc
  rcases mem_tokens ht with ⟨mark, hmark, rfl⟩ | ⟨leaf, hleaf, rfl⟩
  · have hmarks : ∀ c ∈ marks, isInk c = true := List.all_eq_true.1 (by decide)
    rw [List.mem_singleton.1 hc]
    exact hmarks mark hmark
  · have hscalar := isScalar_of_mem_leaves hleaf
    cases leaf with
    | null =>
      have hnull : ∀ c ∈ null.compact, isInk c = true := List.all_eq_true.1 (by decide)
      exact hnull c hc
    | boolean b =>
      have hword : ∀ c ∈ (boolean b).compact, isInk c = true :=
        List.all_eq_true.1 (by cases b <;> decide)
      exact hword c hc
    | integer i => exact (isNumeric_of_mem_integerText hc).isInk
    | number x => exact isInk_of_mem_numberText hc
    | text s => exact isInk_of_mem_quoted (h s hleaf) hc
    | list _ | object _ => exact hscalar.elim

/-- **Both texts of a document differ in blanks and line ends only:** of the text on many lines, the
compact text is left when they are deleted. -/
theorem filter_pretty {d : Document} (h : d.Solid) : d.pretty.filter isInk = d.compact := by
  rw [d.spaced_pretty.filter_isInk h.isInk_of_mem_tokens, d.flatten_tokens]

/-- A text with a blank inside is not left as it is. -/
example : (text "a b").pretty.filter isInk ≠ (text "a b").compact := by decide

/-! ## 3. The documents of reports -/

theorem solid_integer (i : Int) : (integer i).Solid := by
  intro s hs
  cases List.mem_singleton.1 hs

theorem solid_number (x : Binary64) : (number x).Solid := by
  intro s hs
  cases List.mem_singleton.1 hs

theorem solid_text {s : String} (h : ' ' ∉ s.toList) : (text s).Solid := by
  intro t ht
  cases List.mem_singleton.1 ht
  exact h

theorem solid_list {items : List Document} (h : ∀ item ∈ items, item.Solid) :
    (list items).Solid := by
  intro s hs
  obtain ⟨item, hitem, hs⟩ := mem_leaves_list.1 hs
  exact h item hitem s hs

/-- A member whose name has no blank inside, and no text of whose value has. -/
def SolidMember (m : String × Document) : Prop := ' ' ∉ m.1.toList ∧ m.2.Solid

theorem solidMember {name : String} {value : Document} (hname : ' ' ∉ name.toList)
    (hvalue : value.Solid) : SolidMember (name, value) := ⟨hname, hvalue⟩

theorem solid_object {members : List (String × Document)} (h : ∀ m ∈ members, SolidMember m) :
    (object members).Solid := by
  intro s hs
  obtain ⟨m, hm, hname | hs⟩ := mem_leaves_object.1 hs
  · cases hname
    exact (h m hm).1
  · exact (h m hm).2 s hs

end Document

end Json

open Json Document

theorem Scope.solid (s : Scope) : s.document.Solid := by
  have hbasis : ' ' ∉ s.basis.name.toList := by cases s.basis <;> decide
  refine solid_object ?_
  simp only [List.forall_mem_cons, List.not_mem_nil, false_imp_iff, implies_true, and_true]
  exact ⟨solidMember (by decide) (solid_integer _), solidMember (by decide) (solid_number _),
    solidMember (by decide) (solid_text hbasis)⟩

theorem StateKey.solid (k : StateKey) (charge : Charge) : (k.document charge).Solid := by
  have hstate : ' ' ∉ k.state.name.toList := by cases k.state <;> decide
  refine solid_object ?_
  simp only [List.forall_mem_cons, List.not_mem_nil, false_imp_iff, implies_true, and_true]
  exact ⟨solidMember (by decide) (solid_integer _), solidMember (by decide) (solid_text hstate),
    solidMember (by decide) (solid_number _)⟩

theorem Share.solid (s : Share) (consumer : Consumer) : (s.document consumer).Solid := by
  have hbasis : ' ' ∉ s.basis.name.toList := by cases s.basis <;> decide
  refine solid_object fun m hm => ?_
  simp only [List.mem_append, List.mem_cons, List.not_mem_nil, or_false, mem_optional] at hm
  rcases hm with (((rfl | rfl | rfl | rfl) | ⟨keys, -, rfl⟩) | ⟨n, -, rfl⟩) | ⟨n, -, rfl⟩
  · exact solidMember (by decide) (solid_integer _)
  · exact solidMember (by decide) (solid_integer _)
  · exact solidMember (by decide) (solid_number _)
  · exact solidMember (by decide) (solid_text hbasis)
  · refine solidMember (by decide) (solid_list fun item hitem => ?_)
    obtain ⟨e, -, rfl⟩ := List.mem_map.1 hitem
    exact e.1.solid e.2
  · exact solidMember (by decide) (solid_integer _)
  · exact solidMember (by decide) (solid_integer _)

namespace Report

/-- **No text in a report has a blank inside.** -/
theorem solid (r : Report) : r.document.Solid := by
  have hcomponent : ' ' ∉ r.component.name.toList := by cases r.component <;> decide
  have haggregate : (object [("device", r.device.document), ("all_consumers", r.tracked.document),
      ("system_only_duration_ms", .integer r.systemDuration.toNat),
      ("system_only_power_mah", .number r.systemCharge)]).Solid := by
    refine solid_object ?_
    simp only [List.forall_mem_cons, List.not_mem_nil, false_imp_iff, implies_true, and_true]
    exact ⟨solidMember (by decide) r.device.solid, solidMember (by decide) r.tracked.solid,
      solidMember (by decide) (solid_integer _), solidMember (by decide) (solid_number _)⟩
  have hshares : (list (r.ranked.map fun e => e.2.document e.1)).Solid := by
    refine solid_list fun item hitem => ?_
    obtain ⟨e, -, rfl⟩ := List.mem_map.1 hitem
    exact e.2.solid e.1
  refine solid_object ?_
  simp only [List.forall_mem_cons, List.not_mem_nil, false_imp_iff, implies_true, and_true]
  exact ⟨solidMember (by decide) (solid_text hcomponent), solidMember (by decide) haggregate,
    solidMember (by decide) hshares⟩

/-- **The file of a report and its line are the same document.** Of the file, the line is left when
all blanks and line ends are deleted; and it is this line, with a line end behind it, that a sink of
lines writes, as far as its buffer has room. -/
theorem withoutBlanks_file (r : Report) (path : String) :
    withoutBlanks (utf8 (r.file path).value) = r.line ∧
      ∀ s : JsonLines, s.accept (.report r) =
        match s.buffer.write? (r.line ++ [lineEnd]) with
        | some buffer => .ok { buffer := buffer, written := s.written + 1 }
        | none => .error .jsonBufferFull := by
  refine ⟨?_, fun s => ?_⟩
  · show withoutBlanks (utf8 r.document.pretty) = utf8 r.document.compact
    rw [withoutBlanks_utf8, filter_pretty r.solid]
  · rw [← r.utf8_compact_append]
    rfl

end Report

end PowerShare
