import PowerShare.Proofs.Number.Digits
import PowerShare.Proofs.Reader
import PowerShare.Toml.Reading

/-!
# Numbers with a point

A number with a point is three tokens: the word in front of the point, which has the sign, the point
and the word behind it. Neither word is anything else: not a date or a time, not a number of another
base and not one with an exponent.

* `digitsOfWord_digits` -- digits are read from a word as they stand there;
* `run?_number_point` -- **a plain numeral is read as the decimal that it names,** if that is
  finite;
* `run?_wordValue_point` -- and so it is where a value is expected.
-/

namespace PowerShare.Toml

open Reader

/-! ## 1. Digits -/

theorem digitValue?_of_isDigit {c : Char} (h : c.isDigit = true) :
    digitValue? 10 c = some (c.toNat - 48) := by
  obtain ⟨hlow, hhigh⟩ := toNat_of_isDigit h
  have hvalue : hexValue? c = some (c.toNat - 48) := by
    unfold hexValue?
    exact if_pos h
  unfold digitValue?
  rw [hvalue, Option.filter_some, if_pos (decide_eq_true (by omega))]

theorem digitsAhead_digits {cs : List Char} (h : ∀ c ∈ cs, c.isDigit = true)
    (afterUnderscore : Bool) : digitsAhead 10 afterUnderscore cs = (cs, []) := by
  induction cs generalizing afterUnderscore with
  | nil => rfl
  | cons c cs ih =>
    rw [digitsAhead, digitValue?_of_isDigit (h c List.mem_cons_self),
      if_pos Option.isSome_some, ih fun d hd => h d (List.mem_cons_of_mem c hd)]

/-- The digits that a text spells, one by one. -/
def digitValues (cs : List Char) : List Nat := cs.map fun c => c.toNat - 48

theorem filterMap_digitValue? {cs : List Char} (h : ∀ c ∈ cs, c.isDigit = true) :
    cs.filterMap (digitValue? 10) = digitValues cs := by
  unfold digitValues
  rw [List.filterMap_congr fun c hc => digitValue?_of_isDigit (h c hc)]
  exact congrFun List.filterMap_eq_map' cs

theorem valueOfDigits_digitValues (cs : List Char) :
    valueOfDigits 10 (digitValues cs) = Nat.ofDigitChars 10 cs 0 := by
  unfold valueOfDigits digitValues
  rw [List.foldl_map]
  exact decimalValue_eq cs

/-- **Digits are read from a word as they stand there,** and the sign where one may stand. -/
theorem digitsOfWord_digits (negative : Bool) {signed leadingZeros : Bool} {cs : List Char}
    (h : ∀ c ∈ cs, c.isDigit = true) (hne : cs ≠ [])
    (hzero : leadingZeros = false → cs.head? = some '0' → cs.length = 1)
    (hsign : negative = true → signed = true) :
    digitsOfWord 10 signed leadingZeros (signedText negative cs) =
      .ok ⟨negative, digitValues cs, []⟩ := by
  obtain ⟨c, rest, rfl⟩ := List.exists_cons_of_ne_nil hne
  have hc := h c List.mem_cons_self
  have hdash : c ≠ '-' := by
    rintro rfl
    exact absurd hc (by decide)
  have hnegative : (signed && (signedText negative (c :: rest)).head? == some '-') = negative := by
    cases negative with
    | false => simp [signedText, hdash]
    | true => simp [signedText, hsign rfl]
  have hdigits : (if negative then (signedText negative (c :: rest)).tail
      else signedText negative (c :: rest)) = c :: rest := by
    cases negative <;> rfl
  have hunderscore (d : Option Char) (hd : ∀ c ∈ d, c.isDigit = true) :
      (d == some '_') = false := by
    refine beq_eq_false_iff_ne.2 fun heq => ?_
    exact absurd (hd '_' heq) (by decide)
  have hempty : (digitValues (c :: rest)).isEmpty = false := rfl
  have hfirst := hunderscore (c :: rest).head? fun d hd => h d (List.mem_of_mem_head? hd)
  have hlast := hunderscore (c :: rest).getLast? fun d hd => h d (List.mem_of_mem_getLast? hd)
  have hleading : (!leadingZeros && (digitValues (c :: rest)).head? == some 0 &&
      (digitValues (c :: rest)).length != 1) = false := by
    cases leadingZeros with
    | true => rfl
    | false =>
      obtain ⟨hlow, hhigh⟩ := toNat_of_isDigit hc
      by_cases hz : c = '0'
      · have hlength := hzero rfl (congrArg some hz)
        simp [digitValues, List.length_map, Nat.succ.inj hlength]
      · have hvalue : c.toNat - 48 ≠ 0 := fun heq => by
          have hnat : c.toNat = '0'.toNat := Nat.le_antisymm (Nat.sub_eq_zero_iff_le.1 heq) hlow
          exact hz (Char.toNat_inj.1 hnat)
        simp [digitValues, hvalue]
  unfold digitsOfWord
  dsimp only
  rw [hnegative, hdigits, digitsAhead_digits h]
  dsimp only
  rw [filterMap_digitValue? h, hempty, hfirst, hlast, hleading]
  rfl

/-! ## 2. Numbers -/

section

variable {n : PlainNumeral} {negative : Bool}

/-- In front of the point there are digits, and perhaps a sign. -/
theorem mem_signedText_whole {c : Char} (h : c ∈ signedText negative n.whole) :
    c = '-' ∨ c.isDigit = true := by
  unfold signedText at h
  split at h
  · exact (List.mem_cons.1 h).imp_right (n.isDigit_whole c)
  · exact .inr (n.isDigit_whole c h)

theorem contains_signedText_whole {c : Char} (hdash : c ≠ '-') (hc : c.isDigit = false) :
    (signedText negative n.whole).contains c = false := by
  rw [List.contains_eq_mem, decide_eq_false]
  intro h
  rcases mem_signedText_whole h with h | h
  · exact hdash h
  · exact Bool.false_ne_true (hc.symm.trans h)

/-- The word in front of a point has no mark of another base. -/
theorem signedText_whole_ne {mark : Char} {digits : List Char} (hdash : mark ≠ '-')
    (hmark : mark.isDigit = false) : signedText negative n.whole ≠ '0' :: mark :: digits := by
  intro h
  have hmem : mark ∈ signedText negative n.whole := by
    rw [h]
    exact List.mem_cons_of_mem _ List.mem_cons_self
  rcases mem_signedText_whole hmem with h | h
  · exact hdash h
  · exact Bool.false_ne_true (hmark.symm.trans h)

/-- Both words are digits, and nothing is left over. -/
theorem run?_numberOf_point (hplaces : n.places ≠ [])
    (hfinite : (n.decimal.toBinary64 negative).isFinite = true) (rest : List Token) :
    (numberOf (signedText negative n.whole) (some n.places)).run? rest =
      some (.number (n.decimal.toBinary64 negative), rest) := by
  have hwhole : digitsOfWord 10 true false (signedText negative n.whole) =
      .ok ⟨negative, digitValues n.whole, []⟩ :=
    digitsOfWord_digits negative n.isDigit_whole n.whole_ne_nil (fun _ => n.length_whole)
      fun _ => rfl
  have hbehind : digitsOfWord 10 false true n.places = .ok ⟨false, digitValues n.places, []⟩ :=
    digitsOfWord_digits false n.isDigit_places hplaces nofun nofun
  have hdecimal : (⟨valueOfDigits 10 (digitValues n.whole ++ digitValues n.places),
      0 - (digitValues n.places).length⟩ : Decimal) = n.decimal := by
    have hvalues : digitValues n.whole ++ digitValues n.places =
        digitValues (n.whole ++ n.places) := List.map_append.symm
    rw [hvalues, valueOfDigits_digitValues, digitValues, List.length_map, Int.zero_sub]
    rfl
  unfold numberOf
  rw [hwhole]
  simp only [run?_bind, run?_orFail_ok, Option.bind_some, List.isEmpty_nil, if_true, hbehind,
    exponentFrom, run?_pure, hdecimal, hfinite]

/-- **A plain numeral is read as the decimal that it names,** if that is finite. -/
theorem run?_number_point (hplaces : n.places ≠ [])
    (hfinite : (n.decimal.toBinary64 negative).isFinite = true) (rest : List Token) :
    (number (signedText negative n.whole)).run? (.dot :: .word n.places :: rest) =
      some (.number (n.decimal.toBinary64 negative), rest) := by
  unfold number
  split
  · rename_i h
    exact absurd h (signedText_whole_ne (by decide) (by decide))
  · rename_i h
    exact absurd h (signedText_whole_ne (by decide) (by decide))
  · rename_i h
    exact absurd h (signedText_whole_ne (by decide) (by decide))
  · rw [contains_signedText_whole (by decide) (by decide),
      contains_signedText_whole (by decide) (by decide), if_neg (by decide), run?_bind,
      run?_eat_self, Option.bind_some, if_pos rfl, run?_bind, run?_next?, Option.bind_some]
    exact run?_numberOf_point hplaces hfinite rest

/-! ## 3. Values -/

/-- Digits with a sign are no date. -/
theorem looksLikeMoment_signedText_whole :
    looksLikeMoment (signedText negative n.whole) = false := by
  have htail : (signedText negative n.whole).tail.contains '-' = false := by
    rw [List.contains_eq_mem, decide_eq_false]
    intro h
    have hmem : '-' ∈ n.whole := by
      unfold signedText at h
      split at h
      · exact h
      · exact List.mem_of_mem_tail h
    exact absurd (n.isDigit_whole '-' hmem) (by decide)
  unfold looksLikeMoment
  rw [htail, contains_signedText_whole (by decide) (by decide),
    contains_signedText_whole (by decide) (by decide)]
  rfl

/-- A word that is not one of letters is read as a number or a date. -/
theorem wordValue_signedText_whole : wordValue (signedText negative n.whole) =
    numberOrMoment (signedText negative n.whole) := by
  have hne {c : Char} {cs : List Char} (hdash : c ≠ '-') (hc : c.isDigit = false) {text : String}
      (htext : text.toList = c :: cs) (h : String.ofList (signedText negative n.whole) = text) :
      False := by
    have hmem : c ∈ signedText negative n.whole := by
      rw [← String.toList_ofList (l := signedText negative n.whole), h, htext]
      exact List.mem_cons_self
    rcases mem_signedText_whole hmem with h | h
    · exact hdash h
    · exact Bool.false_ne_true (hc.symm.trans h)
  unfold wordValue
  split
  · rename_i h
    exact (hne (by decide) (by decide) rfl h).elim
  · rename_i h
    exact (hne (by decide) (by decide) rfl h).elim
  · rfl
  · rfl
  · obtain ⟨c, cs, hword⟩ : ∃ c cs, signedText negative n.whole = c :: cs := by
      refine List.exists_cons_of_ne_nil fun h => ?_
      unfold signedText at h
      split at h
      · cases h
      · exact n.whole_ne_nil h
    refine if_pos ?_
    have hc : c = '-' ∨ c.isDigit = true := mem_signedText_whole (by
      rw [hword]
      exact List.mem_cons_self)
    rw [hword]
    rcases hc with rfl | hc
    · rfl
    · exact Bool.or_eq_true_iff.2 (.inr hc)

/-- **Where a value is expected, a plain numeral is one.** -/
theorem run?_wordValue_point (hplaces : n.places ≠ [])
    (hfinite : (n.decimal.toBinary64 negative).isFinite = true) (rest : List Token) :
    (wordValue (signedText negative n.whole)).run? (.dot :: .word n.places :: rest) =
      some (.number (n.decimal.toBinary64 negative), rest) := by
  rw [wordValue_signedText_whole, numberOrMoment, looksLikeMoment_signedText_whole,
    if_neg Bool.false_ne_true, run?_bind, run?_eat_of_ne (by decide), Option.bind_some,
    if_neg Bool.false_ne_true]
  exact run?_number_point hplaces hfinite rest

end

end PowerShare.Toml
