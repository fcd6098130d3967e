import Mathlib.Data.Bool.AllAny
import Mathlib.Data.List.Basic
import PowerShare.Number.Literal
import PowerShare.Number.Notation
import PowerShare.Proofs.Number.Shortest

/-!
# Numbers written in digits

Every format here writes numbers with the same digits, and every reader takes the same digits for a
number, however each of them goes through its text:

* `digitsOf` -- the digits of a natural number say that number (`ofDigitChars_digitsOf`), and none
  of them is a leading zero (`eq_zero_of_head?_digitsOf`);
* `PlainNumeral` -- digits with a point among them, and the decimal that they name;
* `PlainNumeral.exists_positional` -- **positional texts are plain numerals of a decimal that reads
  as the one they were written for,** and `PlainNumeral.exists_fixedPlaces` -- so are texts with
  a fixed count of places.

Not here: powers of ten, which only some formats write.
-/

namespace PowerShare

/-! ## 1. Digits -/

theorem toNat_of_isDigit {c : Char} (h : c.isDigit = true) : 48 ≤ c.toNat ∧ c.toNat ≤ 57 := by
  obtain ⟨hlow, hhigh⟩ := Bool.and_eq_true_iff.1 h
  exact ⟨UInt32.le_iff_toNat_le.1 (of_decide_eq_true hlow),
    UInt32.le_iff_toNat_le.1 (of_decide_eq_true hhigh)⟩

/-- The value of digits, as the reader of decimals adds it up. -/
theorem decimalValue_eq (cs : List Char) : decimalValue cs = Nat.ofDigitChars 10 cs 0 := by
  have hfold (init : Nat) : cs.foldl (fun n c => n * 10 + (c.toNat - 48)) init =
      Nat.ofDigitChars 10 cs init := by
    induction cs generalizing init with
    | nil => rfl
    | cons c cs ih =>
      rw [List.foldl_cons, Nat.ofDigitChars_cons, Nat.mul_comm init]
      exact ih _
  exact hfold 0

theorem isDigit_of_mem_digitsOf {n : Nat} {c : Char} (h : c ∈ digitsOf n) : c.isDigit = true :=
  Nat.isDigit_of_mem_toDigits (by decide) (by decide) h

theorem digitsOf_ne_nil (n : Nat) : digitsOf n ≠ [] := Nat.toDigits_ne_nil

theorem ofDigitChars_digitsOf (n : Nat) : Nat.ofDigitChars 10 (digitsOf n) 0 = n :=
  Nat.ofDigitChars_toDigits (by decide) (by decide)

/-- Only zero starts with a zero. -/
theorem eq_zero_of_head?_digitsOf {n : Nat} (h : (digitsOf n).head? = some '0') : n = 0 := by
  induction n using Nat.strongRecOn with
  | _ n ih =>
    unfold digitsOf at h ih
    by_cases hlt : n < 10
    · rw [Nat.toDigits_of_lt_base hlt] at h
      have hall : ∀ k < 10, [Nat.digitChar k].head? = some '0' → k = 0 := by decide
      exact hall n hlt h
    · rw [Nat.toDigits_of_base_le (by decide) (by omega), List.head?_append_of_ne_nil _
        Nat.toDigits_ne_nil] at h
      have hzero := ih (n / 10) (by omega) h
      omega

/-- Digits of which only a zero alone starts with one. -/
theorem length_digitsOf {n : Nat} (h : (digitsOf n).head? = some '0') :
    (digitsOf n).length = 1 := by
  rw [eq_zero_of_head?_digitsOf h]
  rfl

theorem isDigit_of_mem_zeros {k : Nat} {c : Char} (h : c ∈ zeros k) : c.isDigit = true := by
  rw [(List.mem_replicate.1 h).2]
  rfl

theorem ofDigitChars_zeros (k init : Nat) :
    Nat.ofDigitChars 10 (zeros k) init = init * 10 ^ k := by
  rw [Nat.mul_comm]
  exact Nat.ofDigitChars_replicate_zero

/-! ## 2. Plain numerals -/

/-- A text with its sign. -/
def signedText (negative : Bool) (size : List Char) : List Char :=
  if negative then '-' :: size else size

/-- Digits with a point among them. Only a zero alone may stand in front as a zero. -/
structure PlainNumeral where
  whole : List Char
  places : List Char
  isDigit_whole : ∀ c ∈ whole, c.isDigit = true
  isDigit_places : ∀ c ∈ places, c.isDigit = true
  whole_ne_nil : whole ≠ []
  length_whole : whole.head? = some '0' → whole.length = 1

namespace PlainNumeral

/-- A numeral without places has no point. -/
def text (n : PlainNumeral) : List Char :=
  n.whole ++ if n.places = [] then [] else '.' :: n.places

/-- The decimal that the digits name. -/
def decimal (n : PlainNumeral) : Decimal :=
  ⟨Nat.ofDigitChars 10 (n.whole ++ n.places) 0, -n.places.length⟩

theorem text_eq (n : PlainNumeral) (h : n.places ≠ []) : n.text = n.whole ++ '.' :: n.places := by
  unfold text
  rw [if_neg h]

theorem text_ne_nil (n : PlainNumeral) : n.text ≠ [] := fun h =>
  n.whole_ne_nil (List.append_eq_nil_iff.1 h).1

theorem isDigit_or_point (n : PlainNumeral) {c : Char} (h : c ∈ n.text) :
    c.isDigit = true ∨ c = '.' := by
  unfold text at h
  rcases List.mem_append.1 h with h | h
  · exact .inl (n.isDigit_whole c h)
  · split at h
    · cases h
    · rcases List.mem_cons.1 h with rfl | h
      · exact .inr rfl
      · exact .inl (n.isDigit_places c h)

/-- Zeros at the end make no difference to what a decimal reads as. -/
theorem toBinary64_decimal {n : PlainNumeral} {d : Decimal} {k : Nat}
    (hvalue : Nat.ofDigitChars 10 (n.whole ++ n.places) 0 = d.digits * 10 ^ k)
    (hexponent : -n.places.length + k = d.exponent) (negative : Bool) :
    n.decimal.toBinary64 negative = d.toBinary64 negative := by
  unfold decimal
  rw [hvalue, Decimal.toBinary64_mul_pow, hexponent]

section

variable (d : Decimal)

theorem isDigit_digits : ∀ c ∈ digitsOf d.digits, c.isDigit = true :=
  fun _ => isDigit_of_mem_digitsOf

/-- Below one, a zero stands in front of the point, and further zeros behind it. -/
theorem exists_below_one {place : Int} (hneg : place < 0)
    (hplace : place = d.exponent + (digitsOf d.digits).length - 1) :
    ∃ n : PlainNumeral, n.places ≠ [] ∧
      n.text = '0' :: '.' :: zeros (place.natAbs - 1) ++ digitsOf d.digits ∧
      ∀ negative, n.decimal.toBinary64 negative = d.toBinary64 negative := by
  have hplaces : ∀ c ∈ zeros (place.natAbs - 1) ++ digitsOf d.digits, c.isDigit = true :=
    fun c hc => (List.mem_append.1 hc).elim isDigit_of_mem_zeros (isDigit_digits d c)
  have hne : zeros (place.natAbs - 1) ++ digitsOf d.digits ≠ [] := fun h =>
    digitsOf_ne_nil _ (List.append_eq_nil_iff.1 h).2
  let n : PlainNumeral :=
    ⟨['0'], zeros (place.natAbs - 1) ++ digitsOf d.digits, List.all_iff_forall_prop.1 (by decide),
      hplaces, List.cons_ne_nil _ _, fun _ => rfl⟩
  refine ⟨n, hne, n.text_eq hne, n.toBinary64_decimal (k := 0) ?_ ?_⟩
  · show Nat.ofDigitChars 10 (['0'] ++ (zeros _ ++ digitsOf d.digits)) 0 = _
    rw [Nat.ofDigitChars_append, Nat.ofDigitChars_append, ofDigitChars_zeros]
    show Nat.ofDigitChars 10 (digitsOf d.digits) (0 * _) = _
    rw [Nat.zero_mul, ofDigitChars_digitsOf, Nat.pow_zero, Nat.mul_one]
  · have hlength : n.places.length = place.natAbs - 1 + (digitsOf d.digits).length := by
      rw [List.length_append]
      exact congrArg (· + _) List.length_replicate
    omega

/-- A whole number ends in zeros, a point and a zero. -/
theorem exists_whole (hzero : d.digits = 0 → d.exponent = 0) {k : Nat} (hk : d.exponent = k) :
    ∃ n : PlainNumeral, n.places ≠ [] ∧ n.text = digitsOf d.digits ++ zeros k ++ ['.', '0'] ∧
      ∀ negative, n.decimal.toBinary64 negative = d.toBinary64 negative := by
  have hwhole : ∀ c ∈ digitsOf d.digits ++ zeros k, c.isDigit = true :=
    fun c hc => (List.mem_append.1 hc).elim (isDigit_digits d c) isDigit_of_mem_zeros
  have hne : digitsOf d.digits ++ zeros k ≠ [] := fun h =>
    digitsOf_ne_nil _ (List.append_eq_nil_iff.1 h).1
  have hhead (h : (digitsOf d.digits ++ zeros k).head? = some '0') :
      (digitsOf d.digits ++ zeros k).length = 1 := by
    rw [List.head?_append_of_ne_nil _ (digitsOf_ne_nil _)] at h
    have hdigits := eq_zero_of_head?_digitsOf h
    have hk' : k = 0 := by
      have hexponent := hzero hdigits
      omega
    rw [hk', hdigits]
    rfl
  let n : PlainNumeral :=
    ⟨digitsOf d.digits ++ zeros k, ['0'], hwhole, List.all_iff_forall_prop.1 (by decide), hne,
      hhead⟩
  refine ⟨n, List.cons_ne_nil _ _, n.text_eq (List.cons_ne_nil _ _),
    n.toBinary64_decimal (k := k + 1) ?_ ?_⟩
  · show Nat.ofDigitChars 10 (digitsOf d.digits ++ zeros k ++ ['0']) 0 = _
    rw [Nat.ofDigitChars_append, Nat.ofDigitChars_append, ofDigitChars_digitsOf,
      ofDigitChars_zeros, Nat.pow_succ, ← Nat.mul_assoc]
    exact Nat.mul_comm 10 _
  · have hlength : n.places.length = 1 := rfl
    omega

/-- The point stands among the digits. -/
theorem exists_point {w : Nat} (hw : 0 < w) (hlt : w < (digitsOf d.digits).length)
    (hexponent : d.exponent = w - (digitsOf d.digits).length) :
    ∃ n : PlainNumeral, n.places ≠ [] ∧
      n.text = (digitsOf d.digits).take w ++ '.' :: (digitsOf d.digits).drop w ∧
      ∀ negative, n.decimal.toBinary64 negative = d.toBinary64 negative := by
  have hne : (digitsOf d.digits).drop w ≠ [] := fun h => by
    have hle := List.drop_eq_nil_iff.1 h
    omega
  have hhead (h : ((digitsOf d.digits).take w).head? = some '0') :
      ((digitsOf d.digits).take w).length = 1 := by
    rw [List.head?_take, if_neg (Nat.ne_of_gt hw)] at h
    have hlength := length_digitsOf h
    omega
  have hwhole : (digitsOf d.digits).take w ≠ [] := fun h => by
    rcases List.take_eq_nil_iff.1 h with h | h
    · omega
    · exact digitsOf_ne_nil _ h
  let n : PlainNumeral :=
    ⟨(digitsOf d.digits).take w, (digitsOf d.digits).drop w,
      fun c hc => isDigit_digits d c (List.mem_of_mem_take hc),
      fun c hc => isDigit_digits d c (List.mem_of_mem_drop hc), hwhole, hhead⟩
  refine ⟨n, hne, n.text_eq hne, n.toBinary64_decimal (k := 0) ?_ ?_⟩
  · show Nat.ofDigitChars 10 ((digitsOf d.digits).take w ++ (digitsOf d.digits).drop w) 0 = _
    rw [List.take_append_drop, ofDigitChars_digitsOf, Nat.pow_zero, Nat.mul_one]
  · have hlength : n.places.length = (digitsOf d.digits).length - w := List.length_drop
    omega

/-- **A number that is written positionally,** and keeps its point if it is whole, is a plain
numeral that reads as the number. -/
theorem exists_positional (hzero : d.digits = 0 → d.exponent = 0) {place : Int}
    (hplace : place = d.exponent + (digitsOf d.digits).length - 1) :
    ∃ n : PlainNumeral, n.places ≠ [] ∧
      n.text = Notation.positional true (digitsOf d.digits) place ∧
      ∀ negative, n.decimal.toBinary64 negative = d.toBinary64 negative := by
  have hpos : 0 < (digitsOf d.digits).length := Nat.length_toDigits_pos
  unfold Notation.positional
  split
  · rename_i hneg
    exact exists_below_one d hneg hplace
  · dsimp only
    split
    · rw [if_pos rfl]
      exact exists_whole d hzero (by omega)
    · exact exists_point d (by omega) (by omega) (by omega)

end

/-! ## 3. A fixed count of places -/

/-- The places behind the point, filled up with zeros in front. -/
def placesText (places n : Nat) : List Char :=
  if places = 0 then [] else zeros (places - (digitsOf n).length) ++ digitsOf n

theorem length_placesText {places n : Nat} (h : n < 10 ^ places) :
    (placesText places n).length = places := by
  unfold placesText
  split
  · rename_i hzero
    exact hzero.symm
  · rename_i hne
    have hle : (digitsOf n).length ≤ places :=
      (Nat.length_toDigits_le_iff (by decide) (Nat.pos_of_ne_zero hne)).2 h
    rw [List.length_append, zeros, List.length_replicate]
    omega

theorem isDigit_of_mem_placesText {places n : Nat} {c : Char} (h : c ∈ placesText places n) :
    c.isDigit = true := by
  unfold placesText at h
  split at h
  · cases h
  · exact (List.mem_append.1 h).elim isDigit_of_mem_zeros isDigit_of_mem_digitsOf

theorem ofDigitChars_placesText {places n : Nat} (h : n < 10 ^ places) :
    Nat.ofDigitChars 10 (placesText places n) 0 = n := by
  unfold placesText
  split
  · rename_i hzero
    rw [hzero, Nat.pow_zero, Nat.lt_one_iff] at h
    rw [h]
    rfl
  · rw [Nat.ofDigitChars_append, ofDigitChars_zeros, Nat.zero_mul, ofDigitChars_digitsOf]

theorem point_placesText (places n : Nat) :
    (if placesText places n = [] then [] else '.' :: placesText places n) =
      if places = 0 then [] else '.' :: zeros (places - (digitsOf n).length) ++ digitsOf n := by
  unfold placesText
  by_cases hzero : places = 0
  · rw [if_pos hzero, if_pos hzero, if_pos rfl]
  · rw [if_neg hzero, if_neg hzero, if_neg fun h =>
      digitsOf_ne_nil n (List.append_eq_nil_iff.1 h).2]
    rfl

/-- **Digits with the point so many places before their end** are a plain numeral of the decimal
with these digits. -/
theorem exists_fixedPlaces (places n : Nat) :
    ∃ m : PlainNumeral, m.text = digitsOf (n / 10 ^ places) ++
        (if places = 0 then []
        else '.' :: zeros (places - (digitsOf (n % 10 ^ places)).length) ++
          digitsOf (n % 10 ^ places)) ∧
      m.decimal = ⟨n, -places⟩ := by
  have hlt : n % 10 ^ places < 10 ^ places := Nat.mod_lt n (Nat.pow_pos (by decide))
  let m : PlainNumeral :=
    ⟨digitsOf (n / 10 ^ places), placesText places (n % 10 ^ places),
      fun _ => isDigit_of_mem_digitsOf, fun _ => isDigit_of_mem_placesText, digitsOf_ne_nil _,
      length_digitsOf⟩
  have hvalue : Nat.ofDigitChars 10 (m.whole ++ m.places) 0 = n := by
    rw [Nat.ofDigitChars_append, Nat.ofDigitChars_eq_ofDigitChars_zero]
    show 10 ^ (placesText places (n % 10 ^ places)).length *
        Nat.ofDigitChars 10 (digitsOf (n / 10 ^ places)) 0 +
      Nat.ofDigitChars 10 (placesText places (n % 10 ^ places)) 0 = n
    rw [length_placesText hlt, ofDigitChars_digitsOf, ofDigitChars_placesText hlt]
    exact Nat.div_add_mod n (10 ^ places)
  refine ⟨m, congrArg (digitsOf _ ++ ·) (point_placesText _ _), ?_⟩
  unfold decimal
  rw [hvalue]
  show (⟨n, -((placesText places (n % 10 ^ places)).length : Int)⟩ : Decimal) = _
  rw [length_placesText hlt]

end PlainNumeral

end PowerShare
