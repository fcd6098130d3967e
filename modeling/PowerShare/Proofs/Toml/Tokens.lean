import PowerShare.Proofs.Reader
import PowerShare.Toml.Token

/-!
# Tokens that are written one after another

Keys, numbers and the signs around them are written without quotes and without comments. Of such a
text nothing is lost when it is cut into tokens, if only no word and no blanks run into the next
ones:

* `Spelled` -- a token and the characters that it is written with;
* `Spells` -- tokens and their text, in which each ends where the next one begins;
* `tokens_of_spells` -- **the text is cut into just these tokens.**

Not here: texts in quotes, which have escapes, and comments.
-/

namespace PowerShare.Toml

open Reader

/-! ## 1. Single tokens -/

/-- A token without quotes, and its characters. -/
inductive Spelled : Token → List Char → Prop
  | newline : Spelled .newline ['\n']
  | equals : Spelled .equals ['=']
  | dot : Spelled .dot ['.']
  | openBracket : Spelled .openBracket ['[']
  | closeBracket : Spelled .closeBracket [']']
  | blank {cs : List Char} (h : ∀ c ∈ cs, isBlankChar c = true) (hne : cs ≠ []) :
      Spelled (.blank cs) cs
  | word {cs : List Char} (h : ∀ c ∈ cs, isWordChar c = true) (hne : cs ≠ []) :
      Spelled (.word cs) cs

/-- A text in front of which the token ends. -/
def Token.EndsBefore : Token → List Char → Prop
  | .blank _, behind => ∀ c ∈ behind.head?, isBlankChar c = false
  | .word _, behind => ∀ c ∈ behind.head?, isWordChar c = false
  | _, _ => True

theorem eq_of_isBlankChar {c : Char} (h : isBlankChar c = true) : c = ' ' ∨ c = '\t' := by
  unfold isBlankChar at h
  rcases Bool.or_eq_true_iff.1 h with h | h
  · exact .inl (beq_iff_eq.1 h)
  · exact .inr (beq_iff_eq.1 h)

theorem isBlankChar_of_isWordChar {c : Char} (h : isWordChar c = true) : isBlankChar c = false := by
  refine Bool.eq_false_iff.2 fun hblank => ?_
  rcases eq_of_isBlankChar hblank with rfl | rfl
  · exact absurd h (by decide)
  · exact absurd h (by decide)

/-- A character of a word does not stand for a token of its own. -/
theorem tokenFrom_wordChar {c : Char} (h : isWordChar c = true) :
    tokenFrom c = do return .word (c :: (← takeWhile isWordChar)) := by
  unfold tokenFrom
  split
  all_goals first
    | exact absurd h (by decide)
    | rw [isBlankChar_of_isWordChar h, h, if_neg Bool.false_ne_true, if_pos rfl]

/-- **A token is read as it is written,** and nothing behind it. -/
theorem Spelled.run?_tokenFrom {t : Token} {c : Char} {cs : List Char} (h : Spelled t (c :: cs))
    {rest : List Char} (hends : t.EndsBefore rest) :
    (tokenFrom c).run? (cs ++ rest) = some (t, rest) := by
  cases h with
  | newline => rfl
  | equals => rfl
  | dot => rfl
  | openBracket => rfl
  | closeBracket => rfl
  | blank h =>
    obtain ⟨htake, hdrop⟩ :=
      takeWhile_append_of_stop (fun d hd => h d (List.mem_cons_of_mem c hd)) rest hends
    rcases eq_of_isBlankChar (h c List.mem_cons_self) with rfl | rfl
    all_goals
      show some (Token.blank (_ :: (cs ++ rest).takeWhile isBlankChar),
        (cs ++ rest).dropWhile isBlankChar) = _
      rw [htake, hdrop]
  | word h =>
    obtain ⟨htake, hdrop⟩ :=
      takeWhile_append_of_stop (fun d hd => h d (List.mem_cons_of_mem c hd)) rest hends
    rw [tokenFrom_wordChar (h c List.mem_cons_self), run?_bind, run?_takeWhile, htake, hdrop]
    rfl

/-- Everything that is written so is plain text on lines that end in line feeds alone. -/
theorem Spelled.plain {t : Token} {cs : List Char} (h : Spelled t cs) {c : Char} (hc : c ∈ cs) :
    c.toNat ≤ 127 ∧ c ≠ '\r' := by
  have hword : ∀ {c : Char}, isWordChar c = true → c.toNat ≤ 127 ∧ c ≠ '\r' := by
    intro c hc
    refine ⟨?_, fun heq => absurd (heq ▸ hc) (by decide)⟩
    have hrange {low high : Char} (hr : (decide (low ≤ c) && decide (c ≤ high)) = true) :
        c.toNat ≤ high.toNat :=
      UInt32.le_iff_toNat_le.1 (of_decide_eq_true (Bool.and_eq_true_iff.1 hr).2)
    unfold isWordChar at hc
    simp only [Bool.or_eq_true, beq_iff_eq] at hc
    rcases hc with (((hc | hc) | hc) | rfl) | rfl
    · exact Nat.le_trans (hrange hc) (by decide)
    · exact Nat.le_trans (hrange hc) (by decide)
    · exact Nat.le_trans (hrange hc) (by decide)
    · decide
    · decide
  cases h with
  | newline => rw [List.mem_singleton.1 hc]; decide
  | equals => rw [List.mem_singleton.1 hc]; decide
  | dot => rw [List.mem_singleton.1 hc]; decide
  | openBracket => rw [List.mem_singleton.1 hc]; decide
  | closeBracket => rw [List.mem_singleton.1 hc]; decide
  | blank h =>
    rcases eq_of_isBlankChar (h c hc) with rfl | rfl
    · decide
    · decide
  | word h => exact hword (h c hc)

theorem Spelled.exists_cons {t : Token} {cs : List Char} (h : Spelled t cs) :
    ∃ c rest, cs = c :: rest := by
  cases h with
  | blank _ hne => exact List.exists_cons_of_ne_nil hne
  | word _ hne => exact List.exists_cons_of_ne_nil hne
  | _ => exact ⟨_, _, rfl⟩

/-! ## 2. Texts -/

/-- Tokens and the text that they are written as, in which each ends where the next one begins. -/
inductive Spells : List Token → List Char → Prop
  | nil : Spells [] []
  | cons {t : Token} {cs : List Char} {ts : List Token} {text : List Char} (h : Spelled t cs)
      (hends : t.EndsBefore text) (hrest : Spells ts text) : Spells (t :: ts) (cs ++ text)

/-- A token ends in front of a character of another kind. -/
theorem ends_of_head {test : Char → Bool} {c : Char} (h : test c = false) (rest : List Char) :
    ∀ d ∈ (c :: rest).head?, test d = false := fun _ hd => Option.some.inj hd ▸ h

theorem Spells.plain {ts : List Token} {text : List Char} (h : Spells ts text) :
    ∀ c ∈ text, c.toNat ≤ 127 ∧ c ≠ '\r' := by
  induction h with
  | nil => exact nofun
  | cons h _ _ ih =>
    intro c hc
    exact (List.mem_append.1 hc).elim h.plain (ih c)

theorem foldLineEnds_of_not_mem {text : List Char} (h : '\r' ∉ text) :
    foldLineEnds text = text := by
  induction text with
  | nil => rfl
  | cons c rest ih =>
    rw [List.mem_cons, not_or] at h
    unfold foldLineEnds
    split
    · rename_i heq
      exact absurd (List.cons.inj heq).1.symm h.1
    · rename_i heq
      obtain ⟨rfl, rfl⟩ := List.cons.inj heq
      exact congrArg _ (ih h.2)
    · rename_i heq
      cases heq

/-- **The text of tokens is cut into just these tokens.** -/
theorem tokens_of_spells {ts : List Token} {text : List Char} (h : Spells ts text) :
    tokens text = .ok ts := by
  have hends : foldLineEnds text = text :=
    foldLineEnds_of_not_mem fun hmem => (h.plain _ hmem).2 rfl
  have hmark : ¬ (text.head? == some '\ufeff') = true := fun heq => by
    have hle := (h.plain _ (List.mem_of_mem_head? (beq_iff_eq.1 heq))).1
    exact absurd hle (by decide)
  have hread (read : List Token) :
      readToEnd (fun read c => do return (← tokenFrom c) :: read) read text =
        Except.ok (ε := Refused) (ts.reverse ++ read) := by
    clear hends hmark
    induction h generalizing read with
    | nil => rw [readToEnd]; rfl
    | @cons t cs ts text h hends _ ih =>
      obtain ⟨c, cs, rfl⟩ := h.exists_cons
      have hround : (do return (← tokenFrom c) :: read : CharReader (List Token)).run?
          (cs ++ text) = some (t :: read, text) := by
        rw [run?_bind, h.run?_tokenFrom hends]
        rfl
      rw [List.cons_append, readToEnd_cons hround, ih]
      simp
  unfold tokens
  dsimp only
  rw [hends, if_neg hmark, hread]
  show Except.ok (ts.reverse ++ []).reverse = _
  simp

end PowerShare.Toml
