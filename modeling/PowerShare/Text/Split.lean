/-!
# Texts in parts

`splitAt mark` cuts a text at every occurrence of a character, which belongs to no part; a text
without one is one part. Putting the mark between the parts gives the text back, and parts without
a mark inside are cut apart again.
-/

namespace PowerShare

/-- The parts of a text between the marks. -/
def splitAt (mark : Char) : List Char → List (List Char)
  | [] => [[]]
  | c :: rest =>
    if c == mark then [] :: splitAt mark rest
    else
      match splitAt mark rest with
      | [] => [[c]]
      | part :: parts => (c :: part) :: parts

/-- There is always a part. -/
theorem splitAt_ne_nil (mark : Char) (text : List Char) : splitAt mark text ≠ [] := by
  cases text with
  | nil => simp [splitAt]
  | cons c rest =>
    unfold splitAt
    split
    · simp
    · split <;> simp

/-- No part has a mark inside. -/
theorem not_mem_of_mem_splitAt {mark : Char} {text part : List Char}
    (h : part ∈ splitAt mark text) : mark ∉ part := by
  induction text generalizing part with
  | nil =>
    rw [splitAt, List.mem_singleton] at h
    rw [h]
    exact List.not_mem_nil
  | cons c rest ih =>
    unfold splitAt at h
    split at h
    · rcases List.mem_cons.1 h with rfl | h
      · exact List.not_mem_nil
      · exact ih h
    · rename_i hc
      have hne : mark ≠ c := fun heq => hc (by simp [heq])
      cases hs : splitAt mark rest with
      | nil => exact absurd hs (splitAt_ne_nil mark rest)
      | cons first parts =>
        rw [hs] at h ih
        rcases List.mem_cons.1 h with rfl | h
        · rw [List.mem_cons, not_or]
          exact ⟨hne, ih List.mem_cons_self⟩
        · exact ih (List.mem_cons_of_mem first h)

/-- A text without a mark is one part. -/
theorem splitAt_of_not_mem {mark : Char} {text : List Char} (h : mark ∉ text) :
    splitAt mark text = [text] := by
  induction text with
  | nil => rfl
  | cons c rest ih =>
    rw [List.mem_cons, not_or] at h
    obtain ⟨hc, hrest⟩ := h
    unfold splitAt
    rw [if_neg (by simpa using fun heq : c = mark => hc heq.symm), ih hrest]

/-- A mark parts what stands in front of it from what stands behind it. -/
theorem splitAt_append_mark (mark : Char) (text rest : List Char) :
    splitAt mark (text ++ mark :: rest) = splitAt mark text ++ splitAt mark rest := by
  induction text with
  | nil => simp [splitAt]
  | cons c text ih =>
    rw [List.cons_append, splitAt, splitAt, ih]
    cases hparts : splitAt mark text with
    | nil => exact absurd hparts (splitAt_ne_nil mark text)
    | cons part parts =>
      split <;> rfl

/-- The text in front of the first mark is the first part. -/
theorem splitAt_append {mark : Char} {text : List Char} (h : mark ∉ text) (rest : List Char) :
    splitAt mark (text ++ mark :: rest) = text :: splitAt mark rest := by
  induction text with
  | nil => simp [splitAt]
  | cons c text ih =>
    rw [List.mem_cons, not_or] at h
    obtain ⟨hc, htext⟩ := h
    rw [List.cons_append, splitAt,
      if_neg (by simpa using fun heq : c = mark => hc heq.symm), ih htext]

/-- **Parts without a mark inside are cut apart again.** -/
theorem splitAt_intercalate {mark : Char} {parts : List (List Char)} (hne : parts ≠ [])
    (h : ∀ part ∈ parts, mark ∉ part) : splitAt mark ([mark].intercalate parts) = parts := by
  induction parts with
  | nil => exact absurd rfl hne
  | cons first rest ih =>
    have hfirst : mark ∉ first := h first List.mem_cons_self
    cases rest with
    | nil =>
      rw [show [mark].intercalate [first] = first by simp [List.intercalate]]
      exact splitAt_of_not_mem hfirst
    | cons second rest =>
      have hjoin : [mark].intercalate (first :: second :: rest) =
          first ++ mark :: [mark].intercalate (second :: rest) := by
        simp [List.intercalate, List.intersperse]
      rw [hjoin, splitAt_append hfirst,
        ih (List.cons_ne_nil _ _) fun part hpart => h part (List.mem_cons_of_mem first hpart)]

end PowerShare
