import Mathlib.Data.List.Basic
import PowerShare.Settings

/-!
# Numbers in variables

What a variable says is told by its text, and a flag is looked for first. A text of a number is no
flag, as its first character tells:

* `numberOf?` -- the number that a text spells;
* `StartsNumber` -- the characters that such a text begins with, which are not those of a flag;
* `toBinary64_variableValue` -- so a variable with the text of a number sets that number.
-/

namespace PowerShare

/-! ## 1. First characters -/

/-- The number of a text: a whole one of 64 bits, or else any that is written as a decimal or by its
name. -/
def numberOf? (text : String) : Option Binary64 :=
  match (integerOf? text.toList).filter fun i => -2 ^ 63 ≤ i && i < 2 ^ 63 with
  | some i => some (Binary64.ofInt i)
  | none => Binary64.ofText? text.toList

theorem toLower_of_not_basic {c : Char} (hc : ¬ c.toNat < 128) : c.toLower = c := by
  unfold Char.toLower
  refine dif_neg fun h => hc ?_
  have hlast : c.toNat ≤ 'Z'.toNat := UInt32.le_iff_toNat_le.1 h.2
  exact Nat.lt_of_le_of_lt hlast (by decide)

/-- A character that a number may begin with. -/
def StartsNumber (c : Char) : Prop := c.toNat < 128 ∧ c.toLower ≠ 't' ∧ c.toLower ≠ 'f'

instance (c : Char) : Decidable (StartsNumber c) := inferInstanceAs (Decidable (_ ∧ _))

theorem startsNumber_of_isDecimal {c : Char} (h : isDecimal c = true) : StartsNumber c := by
  have hbasic : c.toNat < 128 := by
    simp only [isDecimal, Bool.and_eq_true, decide_eq_true_eq, Char.le_def,
      UInt32.le_iff_toNat_le] at h
    exact Nat.lt_of_le_of_lt h.2 (by decide)
  have hall : ∀ n < 128, isDecimal (Char.ofNat n) = true → StartsNumber (Char.ofNat n) := by
    decide +kernel
  have hc := hall c.toNat hbasic
  rw [Char.ofNat_toNat] at hc
  exact hc h

theorem startsNumber_of_toLower {c : Char} (h : c.toLower = 'i' ∨ c.toLower = 'n') :
    StartsNumber c := by
  have hbasic : c.toNat < 128 := by
    by_contra hc
    rw [toLower_of_not_basic hc] at h
    rcases h with rfl | rfl
    · exact hc (by decide)
    · exact hc (by decide)
  have hall : ∀ n < 128, (Char.ofNat n).toLower = 'i' ∨ (Char.ofNat n).toLower = 'n' →
      StartsNumber (Char.ofNat n) := by decide +kernel
  have hc := hall c.toNat hbasic
  rw [Char.ofNat_toNat] at hc
  exact hc h

theorem splitSign_cons {c : Char} (hc : ¬ StartsNumber c) (rest : List Char) :
    splitSign (c :: rest) = (false, c :: rest) := by
  unfold splitSign
  split
  · rename_i h
    cases h
    exact absurd (by decide) hc
  · rename_i h
    cases h
    exact absurd (by decide) hc
  · rfl

theorem startsNumber_of_integerOf? {c : Char} {rest : List Char} {i : Int}
    (h : integerOf? (c :: rest) = some i) : StartsNumber c := by
  by_contra hc
  unfold integerOf? at h
  rw [splitSign_cons hc] at h
  obtain ⟨n, hn, -⟩ := Option.map_eq_some_iff.1 h
  unfold naturalOf? at hn
  split at hn
  · rename_i hdigits
    simp only [Bool.and_eq_true, List.all_cons] at hdigits
    exact hc (startsNumber_of_isDecimal hdigits.2.1)
  · cases hn

theorem startsNumber_of_ofText? {c : Char} {rest : List Char} {x : Binary64}
    (h : Binary64.ofText? (c :: rest) = some x) : StartsNumber c := by
  by_contra hc
  unfold Binary64.ofText? at h
  rw [splitSign_cons hc] at h
  dsimp only at h
  have hname {word : String} {first : Char} (hword : word.toList.head? = some first)
      (hsame : String.ofList ((c :: rest).map Char.toLower) = word) : c.toLower = first := by
    rw [← hsame] at hword
    simpa using hword
  unfold Binary64.sizeOf? at h
  split at h
  · rename_i hword
    exact hc (startsNumber_of_toLower (.inl (hname (by decide) hword)))
  · rename_i hword
    exact hc (startsNumber_of_toLower (.inl (hname (by decide) hword)))
  · rename_i hword
    exact hc (startsNumber_of_toLower (.inr (hname (by decide) hword)))
  · have hdigit : ¬ isDecimal c = true := fun hd => hc (startsNumber_of_isDecimal hd)
    have hpoint : c ≠ '.' := fun hp => hc (by rw [hp]; decide)
    have hplaces : splitPlaces (c :: rest) = ([], c :: rest) := by
      unfold splitPlaces
      split
      · rename_i heq
        exact absurd (List.cons.inj heq).1 hpoint
      · rfl
    rw [List.takeWhile_cons_of_neg hdigit, List.dropWhile_cons_of_neg hdigit, hplaces] at h
    cases h

/-- A text of a number has a first character. -/
theorem exists_startsNumber {text : String} {x : Binary64} (h : numberOf? text = some x) :
    ∃ c rest, text.toList = c :: rest ∧ StartsNumber c := by
  unfold numberOf? at h
  cases htext : text.toList with
  | nil =>
    rw [htext] at h
    cases h
  | cons c rest =>
    rw [htext] at h
    refine ⟨c, rest, rfl, ?_⟩
    split at h
    · rename_i i hi
      exact startsNumber_of_integerOf? (Option.mem_filter_iff.1 hi |>.1)
    · exact startsNumber_of_ofText? h

/-! ## 2. Values -/

/-- A text of a number is no flag. -/
theorem lowercase_ne_of_numberOf? {text : String} {x : Binary64} (h : numberOf? text = some x) :
    lowercase text ≠ "true" ∧ lowercase text ≠ "false" := by
  obtain ⟨c, rest, htext, hbasic, ht, hf⟩ := exists_startsNumber h
  have hsigma : c ≠ 'Σ' := fun hc => absurd (hc ▸ hbasic) (by decide)
  have hdotted : c ≠ 'İ' := fun hc => absurd (hc ▸ hbasic) (by decide)
  have hhead : (lowercase text).toList.head? = some c.toLower := by
    simp [lowercase, htext, smallLetters, smallLetter, hsigma, hdotted, hbasic]
  constructor
  · intro hword
    rw [hword] at hhead
    exact ht (Option.some.inj hhead).symm
  · intro hword
    rw [hword] at hhead
    exact hf (Option.some.inj hhead).symm

namespace Settings

/-- What a variable says that is no flag is its number, or else its text. -/
theorem variableValue_of_ne {text : String} (htrue : lowercase text ≠ "true")
    (hfalse : lowercase text ≠ "false") :
    variableValue text =
      match (integerOf? text.toList).filter fun i => -2 ^ 63 ≤ i && i < 2 ^ 63 with
      | some i => .integer (Int64.ofInt i)
      | none =>
        match Binary64.ofText? text.toList with
        | some x => .number x
        | none => .text text := by
  unfold variableValue
  split
  · exact absurd ‹_› htrue
  · exact absurd ‹_› hfalse
  · rfl

/-- **A variable with the text of a number sets that number.** -/
theorem toBinary64_variableValue {text : String} {x : Binary64} (h : numberOf? text = some x)
    (origin? : Option String) :
    (Setting.scalar origin? (variableValue text)).toBinary64 = .ok x := by
  obtain ⟨htrue, hfalse⟩ := lowercase_ne_of_numberOf? h
  rw [variableValue_of_ne htrue hfalse]
  unfold numberOf? at h
  cases hwhole : (integerOf? text.toList).filter fun i => -2 ^ 63 ≤ i && i < 2 ^ 63 with
  | some i =>
    have hrange := (Option.mem_filter_iff.1 hwhole).2
    simp only [Bool.and_eq_true, decide_eq_true_eq] at hrange
    rw [hwhole] at h
    show Except.ok (Binary64.ofInt (Int64.ofInt i).toInt) = _
    rw [Int64.toInt_ofInt_of_le hrange.1 hrange.2]
    exact congrArg Except.ok (Option.some.inj h)
  | none =>
    rw [hwhole] at h
    have hdecimal : Binary64.ofText? text.toList = some x := h
    simp only [hdecimal]
    rfl

end Settings

end PowerShare
