import PowerShare.Proofs.Json.Text
import PowerShare.Proofs.Json.Tokens

/-!
# The text of a number spells the number

* `digitsOfChars` -- digits that were written as characters, with their value;
* `Numeral.Says` and `exists_numeral_integer` -- the text of an integer, and
  `Numeral.bytes_of_integer?` -- that a natural number has no other numeral;
* `exists_numeral_number` -- **the text of a finite number is a numeral of just that number,**
  whether it is written positionally or with a power of ten.
-/

namespace PowerShare.Json

/-! ## 1. Digits -/

theorem toNat_byte {c : Char} (hc : c.toNat ≤ 127) : (byte c).toNat = c.toNat := by
  unfold byte
  rw [UInt8.toNat_ofNat']
  omega

theorem isDigit_byte {c : Char} (h : c.isDigit = true) : isDigit (byte c) = true := by
  obtain ⟨hlow, hhigh⟩ := toNat_of_isDigit h
  have hnat : (byte c).toNat = c.toNat := toNat_byte (by omega)
  have hzero : byte '0' ≤ byte c := UInt8.le_iff_toNat_le.2 (hnat ▸ hlow)
  have hnine : byte c ≤ byte '9' := UInt8.le_iff_toNat_le.2 (hnat ▸ hhigh)
  unfold isDigit
  rw [decide_eq_true hzero, decide_eq_true hnine]
  rfl

/-- Characters of the first 128 are one byte each. -/
theorem utf8_eq_map_byte {cs : List Char} (h : ∀ c ∈ cs, c.toNat ≤ 127) :
    utf8 cs = cs.map byte := by
  induction cs with
  | nil => rfl
  | cons c cs ih =>
    unfold utf8 at ih ⊢
    rw [List.flatMap_cons, utf8EncodeChar_of_le (h c List.mem_cons_self),
      ih fun d hd => h d (List.mem_cons_of_mem c hd)]
    rfl

/-- Digits that were written as characters. -/
def digitsOfChars (cs : List Char) (h : ∀ c ∈ cs, c.isDigit = true) (hne : cs ≠ []) : Digits where
  bytes := cs.map byte
  isDigit_eq := by
    intro b hb
    obtain ⟨c, hc, rfl⟩ := List.mem_map.1 hb
    exact isDigit_byte (h c hc)
  ne_nil := by
    rw [ne_eq, List.map_eq_nil_iff]
    exact hne

theorem utf8_digits {cs : List Char} (h : ∀ c ∈ cs, c.isDigit = true) : utf8 cs = cs.map byte :=
  utf8_eq_map_byte fun c hc => by have := (toNat_of_isDigit (h c hc)).2; omega

/-- The value of digits does not depend on how they are held. -/
theorem digitsValue_map_byte {cs : List Char} (h : ∀ c ∈ cs, c.isDigit = true) :
    digitsValue (cs.map byte) = Nat.ofDigitChars 10 cs 0 := by
  have hfold (init : Nat) : (cs.map byte).foldl (fun n d => n * 10 + (d.toNat - 48)) init =
      Nat.ofDigitChars 10 cs init := by
    induction cs generalizing init with
    | nil => rfl
    | cons c cs ih =>
      have hnat : (byte c).toNat = c.toNat := by
        have hle := (toNat_of_isDigit (h c List.mem_cons_self)).2
        exact toNat_byte (by omega)
      rw [List.map_cons, List.foldl_cons, Nat.ofDigitChars_cons, hnat, Nat.mul_comm init]
      exact ih (fun d hd => h d (List.mem_cons_of_mem c hd)) _
  exact hfold 0

/-- A first digit that is a zero byte is the character. -/
theorem head?_of_head?_map_byte {cs : List Char} (h : ∀ c ∈ cs, c.isDigit = true)
    (hhead : (cs.map byte).head? = some (byte '0')) : cs.head? = some '0' := by
  cases cs with
  | nil => cases hhead
  | cons c cs =>
    have hle := (toNat_of_isDigit (h c List.mem_cons_self)).2
    have hnat := congrArg UInt8.toNat (Option.some.inj hhead)
    rw [toNat_byte (by omega)] at hnat
    exact congrArg some (Char.toNat_inj.1 hnat)

/-! ## 2. Integers -/

/-- The numeral is the integer, written without a point. -/
structure Numeral.Says (n : Numeral) (i : Int) : Prop where
  places?_eq : n.places? = none
  power?_eq : n.power? = none
  negative_eq : n.negative = decide (i < 0)
  value_eq : digitsValue n.whole.bytes = i.natAbs

/-- An integer of 64 bits is read as itself. -/
theorem Numeral.Says.integer?_eq {n : Numeral} {i : Int} (h : n.Says i) (hleast : -2 ^ 63 ≤ i)
    (hgreatest : i < 2 ^ 64) : n.integer? = some i := by
  unfold integer?
  rw [h.places?_eq, h.power?_eq, h.negative_eq, h.value_eq]
  dsimp only [Option.isNone_none]
  rw [if_pos (by decide)]
  by_cases hneg : i < 0
  · rw [decide_eq_true hneg, if_pos rfl, if_pos (by omega)]
    congr 1
    omega
  · rw [decide_eq_false hneg, if_neg Bool.false_ne_true, if_pos (by omega)]
    congr 1
    omega

/-- The digits of a natural number. -/
def naturalDigits (n : Nat) : Digits :=
  digitsOfChars (digitsOf n) (fun _ => isDigit_of_mem_digitsOf) (digitsOf_ne_nil n)

theorem utf8_digitsOf (n : Nat) : utf8 (digitsOf n) = (naturalDigits n).bytes :=
  utf8_digits fun _ => isDigit_of_mem_digitsOf

theorem digitsValue_naturalDigits (n : Nat) : digitsValue (naturalDigits n).bytes = n :=
  (digitsValue_map_byte fun _ => isDigit_of_mem_digitsOf).trans (ofDigitChars_digitsOf n)

/-- Only zero itself starts with a zero, and zero has one digit. -/
theorem length_naturalDigits {n : Nat} (h : (naturalDigits n).bytes.head? = some (byte '0')) :
    (naturalDigits n).bytes.length = 1 := by
  have hzero : n = 0 :=
    eq_zero_of_head?_digitsOf (head?_of_head?_map_byte (fun _ => isDigit_of_mem_digitsOf) h)
  subst hzero
  rfl

theorem utf8_cons_of_le {c : Char} (hc : c.toNat ≤ 127) (cs : List Char) :
    utf8 (c :: cs) = byte c :: utf8 cs := by
  unfold utf8
  rw [List.flatMap_cons, utf8EncodeChar_of_le hc]
  rfl

/-- **The text of an integer is a numeral of it.** -/
theorem exists_numeral_integer (i : Int) :
    ∃ n : Numeral, n.bytes = utf8 (integerText i) ∧ n.Says i := by
  refine ⟨⟨decide (i < 0), naturalDigits i.natAbs, length_naturalDigits, none, none⟩, ?_,
    rfl, rfl, rfl, digitsValue_naturalDigits _⟩
  unfold integerText Numeral.bytes Numeral.sizeBytes
  by_cases hneg : i < 0
  · rw [if_pos hneg, if_pos (decide_eq_true hneg), utf8_cons_of_le (by decide), utf8_digitsOf]
    simp
  · rw [if_neg hneg, if_neg fun h => hneg (of_decide_eq_true h), utf8_digitsOf]
    simp

theorem toNat_bounds_of_isDigit {b : UInt8} (h : isDigit b = true) :
    48 ≤ b.toNat ∧ b.toNat ≤ 57 := by
  obtain ⟨hlow, hhigh⟩ := Bool.and_eq_true_iff.1 h
  exact ⟨UInt8.le_iff_toNat_le.1 (of_decide_eq_true hlow),
    UInt8.le_iff_toNat_le.1 (of_decide_eq_true hhigh)⟩

/-- The digit of a number below ten is the byte that has its value. -/
theorem byte_digitChar {b : UInt8} (h : isDigit b = true) :
    byte (Nat.digitChar (b.toNat - 48)) = b := by
  have hall : ∀ k < 10, (byte (Nat.digitChar k)).toNat = k + 48 := by decide
  obtain ⟨hlow, hhigh⟩ := toNat_bounds_of_isDigit h
  apply UInt8.toNat_inj.1
  rw [hall _ (by omega)]
  omega

/-- Digits behind those of a positive number. -/
theorem digitsOf_append {ds : List UInt8} (hds : ∀ b ∈ ds, isDigit b = true) {n : Nat}
    (hn : 0 < n) :
    (digitsOf n).map byte ++ ds =
      (digitsOf (ds.foldl (fun n d => n * 10 + (d.toNat - 48)) n)).map byte := by
  induction ds generalizing n with
  | nil => exact List.append_nil _
  | cons d ds ih =>
    obtain ⟨hlow, hhigh⟩ := toNat_bounds_of_isDigit (hds d List.mem_cons_self)
    have hlt : d.toNat - 48 < 10 := by omega
    have hnext := Nat.toDigits_append_toDigits (b := 10) (by decide) hn hlt
    rw [Nat.toDigits_of_lt_base hlt, Nat.mul_comm] at hnext
    rw [List.foldl_cons, ← ih (fun b hb => hds b (List.mem_cons_of_mem d hb)) (by omega)]
    unfold digitsOf
    rw [← hnext, List.map_append, List.map_singleton, byte_digitChar (hds d List.mem_cons_self),
      List.append_assoc, List.singleton_append]

/-- **Digits without a leading zero are the digits of their value.** -/
theorem Digits.bytes_eq (ds : Digits)
    (h : ds.bytes.head? = some (byte '0') → ds.bytes.length = 1) :
    ds.bytes = utf8 (digitsOf (digitsValue ds.bytes)) := by
  obtain ⟨d, rest, hds⟩ := List.exists_cons_of_ne_nil ds.ne_nil
  have hd : isDigit d = true := ds.isDigit_eq d (hds ▸ List.mem_cons_self)
  have hrest : ∀ b ∈ rest, isDigit b = true := fun b hb =>
    ds.isDigit_eq b (hds ▸ List.mem_cons_of_mem d hb)
  rw [hds] at h
  rw [utf8_digits fun _ => isDigit_of_mem_digitsOf, hds]
  obtain ⟨hlow, hhigh⟩ := toNat_bounds_of_isDigit hd
  have hfirst : (digitsOf (d.toNat - 48)).map byte = [d] := by
    unfold digitsOf
    rw [Nat.toDigits_of_lt_base (by omega), List.map_singleton, byte_digitChar hd]
  have hvalue : digitsValue (d :: rest) =
      rest.foldl (fun n d => n * 10 + (d.toNat - 48)) (d.toNat - 48) := by
    unfold digitsValue
    rw [List.foldl_cons, Nat.zero_mul, Nat.zero_add]
  by_cases hzero : d = byte '0'
  · have hnil : rest = [] := List.length_eq_zero_iff.1 (Nat.succ.inj (h (congrArg some hzero)))
    rw [hvalue, hnil]
    exact hfirst.symm
  · have hpositive : 0 < d.toNat - 48 := by
      have hne : d.toNat ≠ 48 := fun heq => hzero (UInt8.toNat_inj.1 heq)
      omega
    rw [hvalue, ← digitsOf_append hrest hpositive, hfirst]
    rfl

/-- A numeral that is read as a natural number is written without a sign, a point or a power. -/
theorem Numeral.bytes_of_integer? {n : Numeral} {i : Int} (h : n.integer? = some i) (hi : 0 ≤ i) :
    n.bytes = utf8 (digitsOf i.toNat) := by
  unfold integer? at h
  dsimp only at h
  split at h
  · rename_i hplain
    obtain ⟨hplaces, hpower⟩ := Bool.and_eq_true_iff.1 hplain
    have hsize : n.sizeBytes = utf8 (digitsOf (digitsValue n.whole.bytes)) := by
      unfold sizeBytes
      rw [Option.isNone_iff_eq_none.1 hplaces, Option.isNone_iff_eq_none.1 hpower,
        ← n.whole.bytes_eq n.length_eq_one]
      simp
    unfold bytes
    split at h
    · split at h
      · rename_i hvalue
        cases h
        omega
      · cases h
    · rename_i hsign
      split at h
      · cases h
        rw [if_neg hsign, hsize]
        rfl
      · cases h
  · cases h

/-! ## 3. Numbers -/

/-- The point and the places behind it, if there are any. -/
def pointText (places : List Char) : List Char := if places = [] then [] else '.' :: places

/-- The power of ten behind an `e`, with its sign. -/
def powerText (e : Int) : List Char :=
  'e' :: (if e < 0 then '-' else '+') :: digitsOf e.natAbs

/-- The power of ten with its sign. -/
def powerOf (e : Int) : Power := ⟨false, some (decide (e < 0)), naturalDigits e.natAbs⟩

theorem bytes_powerOf (e : Int) : (powerOf e).bytes = utf8 (powerText e) := by
  unfold powerText powerOf Power.bytes
  rw [utf8_cons_of_le (by decide), utf8_cons_of_le (by split <;> decide), utf8_digitsOf]
  by_cases hneg : e < 0
  · rw [if_pos hneg, decide_eq_true hneg]
    rfl
  · rw [if_neg hneg, decide_eq_false hneg]
    rfl

theorem value_powerOf (e : Int) : (powerOf e).value = e := by
  unfold powerOf Power.value
  dsimp only
  rw [digitsValue_naturalDigits]
  by_cases hneg : e < 0
  · rw [decide_eq_true hneg, if_pos rfl]
    omega
  · rw [decide_eq_false hneg, if_neg (by decide)]
    omega

/-- **Digits, places and perhaps a power of ten are a numeral** of the decimal that they name. -/
theorem exists_numeral_parts (negative : Bool) (whole places : List Char) (power? : Option Int)
    (hwhole : ∀ c ∈ whole, c.isDigit = true) (hne : whole ≠ [])
    (hzero : whole.head? = some '0' → whole.length = 1)
    (hplaces : ∀ c ∈ places, c.isDigit = true) :
    ∃ n : Numeral, n.negative = negative ∧
      n.sizeBytes = utf8 (whole ++ (pointText places ++ power?.elim [] powerText)) ∧
      n.decimal = ⟨Nat.ofDigitChars 10 (whole ++ places) 0, power?.getD 0 - places.length⟩ := by
  obtain ⟨places?, hpoint, hvalue⟩ : ∃ places? : Option Digits,
      (places?.elim [] fun ds => byte '.' :: ds.bytes) = utf8 (pointText places) ∧
        places?.elim [] Digits.bytes = places.map byte := by
    unfold pointText
    by_cases hempty : places = []
    · subst hempty
      exact ⟨none, rfl, rfl⟩
    · refine ⟨some (digitsOfChars places hplaces hempty), ?_, rfl⟩
      rw [if_neg hempty, utf8_cons_of_le (by decide), utf8_digits hplaces]
      rfl
  have hhead (h : (whole.map byte).head? = some (byte '0')) : (whole.map byte).length = 1 := by
    rw [List.length_map]
    exact hzero (head?_of_head?_map_byte hwhole h)
  have hall : ∀ c ∈ whole ++ places, c.isDigit = true := fun c hc =>
    (List.mem_append.1 hc).elim (hwhole c) (hplaces c)
  refine ⟨⟨negative, digitsOfChars whole hwhole hne, hhead, places?, power?.map powerOf⟩, rfl,
    ?_, ?_⟩
  · have hpower : (power?.map powerOf).elim [] Power.bytes = utf8 (power?.elim [] powerText) := by
      cases power? with
      | none => rfl
      | some e => exact bytes_powerOf e
    unfold Numeral.sizeBytes
    rw [utf8_append, utf8_append, hpoint, hpower, utf8_digits hwhole]
    rfl
  · have hpower : (power?.map powerOf).elim 0 Power.value = power?.getD 0 := by
      cases power? with
      | none => rfl
      | some e => exact value_powerOf e
    unfold Numeral.decimal Numeral.places
    dsimp only
    rw [hvalue, hpower, List.length_map, ← digitsValue_map_byte hall, List.map_append]
    rfl

/-- A numeral of the decimal, of this sign and with these characters behind the sign. -/
def IsSize (negative : Bool) (d : Decimal) (text : List Char) : Prop :=
  ∃ n : Numeral, n.negative = negative ∧ n.sizeBytes = utf8 text ∧
    n.toBinary64 = d.toBinary64 negative

/-- Parts that name the decimal, up to zeros at its end. -/
theorem isSize_of_parts {negative : Bool} {d : Decimal} {whole places : List Char}
    {power? : Option Int} (hwhole : ∀ c ∈ whole, c.isDigit = true) (hne : whole ≠ [])
    (hzero : whole.head? = some '0' → whole.length = 1)
    (hplaces : ∀ c ∈ places, c.isDigit = true) (k : Nat)
    (hvalue : Nat.ofDigitChars 10 (whole ++ places) 0 = d.digits * 10 ^ k)
    (hexponent : power?.getD 0 - places.length + k = d.exponent) :
    IsSize negative d (whole ++ (pointText places ++ power?.elim [] powerText)) := by
  obtain ⟨n, hnegative, hbytes, hdecimal⟩ :=
    exists_numeral_parts negative whole places power? hwhole hne hzero hplaces
  refine ⟨n, hnegative, hbytes, ?_⟩
  unfold Numeral.toBinary64
  rw [hnegative, hdecimal, hvalue, Decimal.toBinary64_mul_pow, hexponent]

section

variable (negative : Bool) (d : Decimal)

/-- A number that is written positionally. -/
theorem isSize_positional (hzero : d.digits = 0 → d.exponent = 0) {place : Int}
    (hplace : place = d.exponent + (digitsOf d.digits).length - 1) :
    IsSize negative d (Notation.positional true (digitsOf d.digits) place) := by
  obtain ⟨m, -, htext, hvalue⟩ := PlainNumeral.exists_positional d hzero hplace
  obtain ⟨n, hnegative, hbytes, hdecimal⟩ := exists_numeral_parts negative m.whole m.places none
    m.isDigit_whole m.whole_ne_nil m.length_whole m.isDigit_places
  refine ⟨n, hnegative, ?_, ?_⟩
  · rw [hbytes, ← htext, Option.elim_none, List.append_nil]
    rfl
  · rw [← hvalue, Numeral.toBinary64, hnegative, hdecimal, Option.getD_none, Int.zero_sub]
    rfl

theorem scientific_cons (first : Char) (rest : List Char) (place : Int) :
    Notation.scientific true (first :: rest) place =
      [first] ++ (pointText rest ++ (some place).elim [] powerText) := by
  have hpower : (if place < 0 then integerText place
      else if true = true then '+' :: integerText place else integerText place) =
      (if place < 0 then '-' else '+') :: digitsOf place.natAbs := by
    unfold integerText
    split <;> rfl
  unfold Notation.scientific pointText powerText
  dsimp only
  rw [hpower]
  cases rest with
  | nil => rfl
  | cons c rest =>
    rw [if_neg (List.cons_ne_nil c rest)]
    rfl

/-- A number that is written with a power of ten. -/
theorem isSize_scientific {place : Int}
    (hplace : place = d.exponent + (digitsOf d.digits).length - 1) :
    IsSize negative d (Notation.scientific true (digitsOf d.digits) place) := by
  have hdigits : ∀ c ∈ digitsOf d.digits, c.isDigit = true := fun _ => isDigit_of_mem_digitsOf
  have hvalue := ofDigitChars_digitsOf d.digits
  obtain ⟨first, rest, hds⟩ := List.exists_cons_of_ne_nil (digitsOf_ne_nil d.digits)
  rw [hds] at hplace hdigits hvalue ⊢
  rw [scientific_cons]
  refine isSize_of_parts (fun c hc => ?_) (List.cons_ne_nil _ _) (fun _ => rfl)
    (fun c hc => hdigits c (List.mem_cons_of_mem first hc)) 0 ?_ ?_
  · rw [List.mem_singleton.1 hc]
    exact hdigits first List.mem_cons_self
  · rw [List.singleton_append, hvalue, Nat.pow_zero, Nat.mul_one]
  · rw [List.length_cons] at hplace
    simp only [Option.getD_some]
    omega

end

/-- **The text of a finite number is a numeral of just that number.** -/
theorem exists_numeral_number {x : Binary64} (h : x.isFinite = true) :
    ∃ n : Numeral, n.bytes = utf8 (numberText x) ∧ n.toBinary64 = x := by
  have hsize : IsSize x.negative (x.shortest .toEven) (numberNotation.size x) := by
    unfold Notation.size
    dsimp only
    split
    · exact isSize_positional _ _ (Binary64.exponent_shortest h _) rfl
    · exact isSize_scientific _ _ rfl
  obtain ⟨n, hnegative, hbytes, hn⟩ := hsize
  have hnan : ¬ x.isNaN = true := by
    rw [Binary64.isNaN_of_isFinite h]
    decide
  have hinfinite : ¬ x.isInfinite = true := by
    rw [Binary64.isInfinite_of_isFinite h]
    decide
  refine ⟨n, ?_, hn.trans (Binary64.toBinary64_shortest h .toEven)⟩
  unfold numberText Notation.render Numeral.bytes
  rw [if_pos h, if_neg hnan, if_neg hinfinite, hnegative, hbytes]
  dsimp only
  split
  · exact (utf8_cons_of_le (by decide) _).symm
  · rfl

end PowerShare.Json
