import PowerShare.Proofs.Json.Start

/-!
# Numbers are read as they are spelled

* `Numeral.run?_number` -- the reader takes all of a number, and what it reads is the number
  spelled, unless that is too large;
* `Numeral.exists_of_number` -- and it reads nothing else: what is taken is spelled as a number.
-/

namespace PowerShare.Json

open Reader

/-! ## 1. Parts of a number -/

/-- Digits end here. -/
def NoDigit (rest : List UInt8) : Prop := ∀ b ∈ rest.head?, isDigit b = false

theorem NoDigit.cons {b : UInt8} (h : isDigit b = false) (rest : List UInt8) :
    NoDigit (b :: rest) := by
  intro c hc
  cases hc
  exact h

theorem Stops.noDigit {rest : List UInt8} (h : Stops rest) : NoDigit rest := by
  intro b hb
  have hnot := h b hb
  simp only [continuesNumber, Bool.or_eq_false_iff] at hnot
  exact hnot.1.1.1

theorem Stops.head?_ne {rest : List UInt8} (h : Stops rest) {b : UInt8}
    (hb : continuesNumber b = true) : rest.head? ≠ some b := fun hhead =>
  Bool.false_ne_true ((h b hhead).symm.trans hb)

theorem takeWhile_digits {ds rest : List UInt8} (hds : ∀ b ∈ ds, isDigit b = true)
    (hrest : NoDigit rest) : (ds ++ rest).takeWhile isDigit = ds :=
  (takeWhile_append_of_stop hds rest hrest).1

theorem dropWhile_digits {ds rest : List UInt8} (hds : ∀ b ∈ ds, isDigit b = true)
    (hrest : NoDigit rest) : (ds ++ rest).dropWhile isDigit = rest :=
  (takeWhile_append_of_stop hds rest hrest).2

/-- The digits are taken, and nothing behind them. -/
theorem Digits.run?_takeWhile (ds : Digits) {rest : List UInt8} (hrest : NoDigit rest) :
    (takeWhile isDigit : ByteReader (List UInt8)).run? (ds.bytes ++ rest) =
      some (ds.bytes, rest) := by
  rw [Reader.run?_takeWhile, takeWhile_digits ds.isDigit_eq hrest,
    dropWhile_digits ds.isDigit_eq hrest]

theorem Digits.run?_someDigits (ds : Digits) {rest : List UInt8} (hrest : NoDigit rest) :
    someDigits.run? (ds.bytes ++ rest) = some (ds.bytes, rest) := by
  unfold someDigits
  rw [run?_bind, ds.run?_takeWhile hrest]
  simp [ds.ne_nil]

/-- A digit is no sign. -/
theorem Digits.exists_eq_cons (ds : Digits) :
    ∃ d rest, ds.bytes = d :: rest ∧ isDigit d = true ∧ d ≠ byte '+' ∧ d ≠ byte '-' := by
  obtain ⟨d, rest, h⟩ := List.exists_cons_of_ne_nil ds.ne_nil
  have hd : isDigit d = true := ds.isDigit_eq d (h ▸ List.mem_cons_self)
  refine ⟨d, rest, h, hd, ?_, ?_⟩
  · rintro rfl
    exact absurd hd (by decide)
  · rintro rfl
    exact absurd hd (by decide)

theorem Power.run?_exponent? (p : Power) {rest : List UInt8} (hrest : NoDigit rest) :
    exponent?.run? (p.bytes ++ rest) = some (some p.value, rest) := by
  obtain ⟨d, ds, hds, -, hplus, hminus⟩ := p.digits.exists_eq_cons
  have hdigits := p.digits.run?_someDigits hrest
  have hsigns : byte '+' ≠ byte '-' := by decide
  rw [hds, List.cons_append] at hdigits
  unfold exponent? Power.bytes Power.value
  rw [hds]
  cases p.capital <;> rcases p.sign? with - | (_ | _) <;>
    simp [run?_ite, hdigits, hplus, hminus, hsigns]

/-- A power of ten, or none. -/
theorem run?_exponent? (power? : Option Power) {rest : List UInt8} (hrest : Stops rest) :
    exponent?.run? (power?.elim [] Power.bytes ++ rest) = some (power?.map Power.value, rest) := by
  cases power? with
  | some p => exact p.run?_exponent? hrest.noDigit
  | none =>
    have hsmall := hrest.head?_ne (by decide : continuesNumber (byte 'e') = true)
    have hcapital := hrest.head?_ne (by decide : continuesNumber (byte 'E') = true)
    unfold exponent?
    simp [run?_ite, hsmall, hcapital]

/-- The digits behind a point, or none. -/
theorem run?_fraction? (places? : Option Digits) {rest : List UInt8} (hrest : NoDigit rest)
    (hpoint : rest.head? ≠ some (byte '.')) :
    fraction?.run? ((places?.elim [] fun ds => byte '.' :: ds.bytes) ++ rest) =
      some (places?.map Digits.bytes, rest) := by
  unfold fraction?
  cases places? with
  | some ds => simp [run?_ite, ds.run?_someDigits hrest]
  | none => simp [run?_ite, hpoint]

theorem run?_wholeDigits (ds : Digits)
    (hzero : ds.bytes.head? = some (byte '0') → ds.bytes.length = 1) {rest : List UInt8}
    (hrest : NoDigit rest) : wholeDigits.run? (ds.bytes ++ rest) = some (ds.bytes, rest) := by
  obtain ⟨d, tail, hds, hd, -, -⟩ := ds.exists_eq_cons
  have htake := takeWhile_digits ds.isDigit_eq hrest
  have hdrop := dropWhile_digits ds.isDigit_eq hrest
  rw [hds] at htake hdrop hzero ⊢
  rw [List.cons_append] at htake hdrop ⊢
  have hlead : ¬ (decide (d = byte '0') && (d :: tail).length != 1) = true := by
    intro h
    obtain ⟨rfl, hlength⟩ := Bool.and_eq_true_iff.1 h |>.imp_left of_decide_eq_true
    exact absurd (hzero rfl) (bne_iff_ne.1 hlength)
  unfold wholeDigits
  simp only [run?_bind, run?_peek?, List.head?_cons, Option.bind_some, hd, Bool.not_true,
    Bool.false_eq_true, if_false, run?_takeWhile, htake, hdrop, run?_ite, if_neg hlead, run?_pure]

/-! ## 2. Numbers -/

namespace Numeral

theorem run?_numberOf (n : Numeral) (rest : List UInt8) :
    (numberOf n.negative n.whole.bytes (n.places?.map Digits.bytes)
      (n.power?.map Power.value)).run? rest = n.number?.map (·, rest) := by
  have hplaces : (n.places?.map Digits.bytes).getD [] = n.places := by
    unfold places
    cases n.places? <;> rfl
  have hpower : (n.power?.map Power.value).getD 0 = n.power?.elim 0 Power.value := by
    cases n.power? <;> rfl
  unfold numberOf number? integer? read
  dsimp only
  rw [hplaces, hpower]
  simp only [Option.isNone_map, run?_ite, run?_pure, run?_malformed]
  cases hinteger : n.places?.isNone && n.power?.isNone with
  | false =>
    simp only [Bool.false_and, Bool.false_eq_true, if_false]
    split <;> rfl
  | true =>
    simp only [Bool.true_and, if_true]
    cases n.negative with
    | false =>
      simp only [Bool.not_false, Bool.true_and, decide_eq_true_eq, Bool.false_eq_true, if_false]
      split
      · rfl
      · simp only [Bool.false_and, Bool.false_eq_true, if_false]
        split <;> rfl
    | true =>
      simp only [Bool.not_true, Bool.false_and, Bool.false_eq_true, if_false, Bool.true_and, if_true,
        Bool.and_eq_true, bne_iff_ne, decide_eq_true_eq]
      split
      · rfl
      · split <;> rfl

/-- What follows the places of a number is no digit and no point. -/
theorem head?_power (power? : Option Power) {rest : List UInt8} (hrest : Stops rest) :
    ∀ b ∈ (power?.elim [] Power.bytes ++ rest).head?, isDigit b = false ∧ b ≠ byte '.' := by
  intro b hb
  cases power? with
  | some p =>
    have hmark : (if p.capital then byte 'E' else byte 'e') = b := Option.some.inj hb
    subst hmark
    cases p.capital <;> decide
  | none =>
    refine ⟨hrest.noDigit b hb, ?_⟩
    rintro rfl
    exact hrest.head?_ne (by decide) hb

/-- What follows the whole digits of a number is no digit. -/
theorem noDigit_places (places? : Option Digits) {rest : List UInt8} (hrest : NoDigit rest) :
    NoDigit ((places?.elim [] fun ds => byte '.' :: ds.bytes) ++ rest) := by
  cases places? with
  | some ds => exact .cons (by decide) _
  | none => exact hrest

/-- The size of a number is read part by part. -/
theorem run?_size (n : Numeral) {rest : List UInt8} (hrest : Stops rest)
    (f : List UInt8 → Option (List UInt8) → Option Int → ByteReader α) :
    (do
      let whole ← wholeDigits
      let fraction ← fraction?
      let exponent ← exponent?
      f whole fraction exponent).run? (n.sizeBytes ++ rest) =
      (f n.whole.bytes (n.places?.map Digits.bytes) (n.power?.map Power.value)).run? rest := by
  have hbehind := head?_power n.power? hrest
  have hplaces := run?_fraction? n.places? (fun b hb => (hbehind b hb).1) fun h => (hbehind _ h).2 rfl
  have hwhole := run?_wholeDigits n.whole n.length_eq_one
    (noDigit_places n.places? fun b hb => (hbehind b hb).1)
  have hsize : n.sizeBytes ++ rest =
      n.whole.bytes ++ ((n.places?.elim [] fun ds => byte '.' :: ds.bytes) ++
        (n.power?.elim [] Power.bytes ++ rest)) := by
    unfold sizeBytes
    rw [List.append_assoc, List.append_assoc]
  rw [hsize]
  simp only [run?_bind, hwhole, hplaces, run?_exponent? n.power? hrest, Option.bind_some]

/-- A minus sign is not mistaken for a digit. -/
theorem head?_sizeBytes (n : Numeral) (rest : List UInt8) :
    ∃ d, (n.sizeBytes ++ rest).head? = some d ∧ isDigit d = true ∧ d ≠ byte '-' := by
  obtain ⟨d, tail, hds, hd, -, hminus⟩ := n.whole.exists_eq_cons
  refine ⟨d, ?_, hd, hminus⟩
  unfold sizeBytes
  rw [hds]
  rfl

/-- **A number is read as it is spelled,** unless it is too large. -/
theorem run?_number (n : Numeral) {rest : List UInt8} (hrest : Stops rest) :
    number.run? (n.bytes ++ rest) = n.number?.map (·, rest) := by
  have hnumber := n.run?_numberOf rest
  have hsize := n.run?_size hrest (numberOf n.negative)
  obtain ⟨d, hd, -, hminus⟩ := n.head?_sizeBytes rest
  unfold number bytes
  cases hsign : n.negative with
  | true =>
    rw [hsign] at hnumber hsize
    simp only [run?_bind, run?_peek?, if_true, List.cons_append, List.head?_cons, Option.bind_some,
      run?_advance, List.tail_cons, decide_true, run?_ite] at hsize ⊢
    rw [hsize, hnumber]
  | false =>
    have hsome : ¬ some d = some (byte '-') := fun h => hminus (Option.some.inj h)
    rw [hsign] at hnumber hsize
    simp only [run?_bind, run?_peek?, Bool.false_eq_true, if_false, Option.bind_some, hd, hsome,
      decide_false, run?_ite] at hsize ⊢
    rw [hsize, hnumber]

/-! ## 3. What is read is spelled -/

/-- Some digits at the front, taken off. -/
theorem exists_digits {items ds left : List UInt8} (hds : items.takeWhile isDigit = ds)
    (hleft : items.dropWhile isDigit = left) (hne : ds ≠ []) :
    ∃ d : Digits, d.bytes = ds ∧ items = d.bytes ++ left := by
  subst hds hleft
  exact ⟨⟨_, List.all_eq_true.1 List.all_takeWhile, hne⟩, rfl, List.takeWhile_append_dropWhile.symm⟩

theorem exists_of_someDigits {items ds left : List UInt8}
    (h : someDigits.run? items = some (ds, left)) :
    ∃ d : Digits, d.bytes = ds ∧ items = d.bytes ++ left := by
  unfold someDigits at h
  simp only [run?_bind, run?_takeWhile, Option.bind_some, run?_ite, List.isEmpty_iff,
    run?_peek?, run?_pure] at h
  split at h
  · split at h <;> cases h
  · rename_i hne
    cases h
    exact exists_digits rfl rfl hne

theorem exists_of_wholeDigits {items ds left : List UInt8}
    (h : wholeDigits.run? items = some (ds, left)) :
    ∃ d : Digits, d.bytes = ds ∧ (d.bytes.head? = some (byte '0') → d.bytes.length = 1) ∧
      items = d.bytes ++ left := by
  unfold wholeDigits at h
  cases items with
  | nil => cases h
  | cons b tail =>
    simp only [run?_bind, run?_peek?, List.head?_cons, Option.bind_some, run?_ite, run?_malformed,
      run?_takeWhile, run?_pure] at h
    split at h
    · cases h
    · rename_i hdigit
      simp only [Bool.not_eq_true', Bool.not_eq_false] at hdigit
      split at h
      · cases h
      · rename_i hzero
        cases h
        have htake : (b :: tail).takeWhile isDigit = b :: tail.takeWhile isDigit := by
          rw [List.takeWhile_cons, if_pos hdigit]
        obtain ⟨d, hd, hitems⟩ := exists_digits rfl rfl (htake ▸ List.cons_ne_nil _ _)
        refine ⟨d, hd, fun hhead => ?_, hitems⟩
        rw [hd, htake, List.head?_cons] at hhead
        rw [← hd] at hzero
        simpa [Option.some.inj hhead] using hzero

theorem exists_of_fraction? {items left : List UInt8} {ds? : Option (List UInt8)}
    (h : fraction?.run? items = some (ds?, left)) :
    ∃ places? : Option Digits, places?.map Digits.bytes = ds? ∧
      items = (places?.elim [] fun ds => byte '.' :: ds.bytes) ++ left := by
  unfold fraction? at h
  simp only [run?_bind, run?_peek?, Option.bind_some, run?_ite, run?_advance, run?_pure] at h
  split at h
  · rename_i hpoint
    obtain ⟨⟨ds, left'⟩, hds, h⟩ := Option.bind_eq_some_iff.1 h
    cases h
    obtain ⟨d, rfl, htail⟩ := exists_of_someDigits hds
    obtain ⟨tail, rfl⟩ := List.head?_eq_some_iff.1 hpoint
    rw [List.tail_cons] at htail
    exact ⟨some d, rfl, congrArg _ htail⟩
  · cases h
    exact ⟨none, rfl, rfl⟩

theorem exists_of_exponent? {items left : List UInt8} {value? : Option Int}
    (h : exponent?.run? items = some (value?, left)) :
    ∃ power? : Option Power, power?.map Power.value = value? ∧
      items = power?.elim [] Power.bytes ++ left := by
  unfold exponent? at h
  simp only [run?_bind, run?_peek?, Option.bind_some, run?_ite, run?_advance, run?_pure,
    Bool.or_eq_true, decide_eq_true_eq] at h
  split at h
  · rename_i hmark
    obtain ⟨capital, tail, rfl⟩ : ∃ (capital : Bool) (tail : List UInt8),
        items = (if capital then byte 'E' else byte 'e') :: tail := by
      rcases hmark with hmark | hmark
      · obtain ⟨tail, rfl⟩ := List.head?_eq_some_iff.1 hmark
        exact ⟨false, tail, rfl⟩
      · obtain ⟨tail, rfl⟩ := List.head?_eq_some_iff.1 hmark
        exact ⟨true, tail, rfl⟩
    rw [List.tail_cons] at h
    split at h
    · rename_i hsign
      obtain ⟨minus, tail, rfl⟩ : ∃ (minus : Bool) (behind : List UInt8),
          tail = (if minus then byte '-' else byte '+') :: behind := by
        rcases hsign with hsign | hsign
        · obtain ⟨behind, rfl⟩ := List.head?_eq_some_iff.1 hsign
          exact ⟨false, behind, rfl⟩
        · obtain ⟨behind, rfl⟩ := List.head?_eq_some_iff.1 hsign
          exact ⟨true, behind, rfl⟩
      obtain ⟨⟨ds, left'⟩, hds, h⟩ := Option.bind_eq_some_iff.1 h
      cases h
      obtain ⟨d, rfl, htail⟩ := exists_of_someDigits hds
      rw [List.tail_cons] at htail
      subst htail
      refine ⟨some ⟨capital, some minus, d⟩, ?_, rfl⟩
      cases minus <;> rfl
    · rename_i hsign
      obtain ⟨⟨ds, left'⟩, hds, h⟩ := Option.bind_eq_some_iff.1 h
      cases h
      obtain ⟨d, rfl, rfl⟩ := exists_of_someDigits hds
      refine ⟨some ⟨capital, none, d⟩, ?_, rfl⟩
      rw [not_or] at hsign
      rw [if_neg hsign.2]
      rfl
  · cases h
    exact ⟨none, rfl, rfl⟩

/-- **What is read as a number is spelled as one.** -/
theorem exists_of_number {items left : List UInt8} {x : Number}
    (h : number.run? items = some (x, left)) :
    ∃ n : Numeral, items = n.bytes ++ left ∧ n.number? = some x := by
  have hsize (negative : Bool) (size : List UInt8)
      (h : (do
        let whole ← wholeDigits
        let fraction ← fraction?
        let exponent ← exponent?
        numberOf negative whole fraction exponent).run? size = some (x, left)) :
      ∃ n : Numeral, n.negative = negative ∧ size = n.sizeBytes ++ left ∧ n.number? = some x := by
    simp only [run?_bind] at h
    obtain ⟨⟨whole, left₁⟩, hwhole, h⟩ := Option.bind_eq_some_iff.1 h
    obtain ⟨⟨places?, left₂⟩, hplaces, h⟩ := Option.bind_eq_some_iff.1 h
    obtain ⟨⟨power?, left₃⟩, hpower, h⟩ := Option.bind_eq_some_iff.1 h
    obtain ⟨w, rfl, hzero, rfl⟩ := exists_of_wholeDigits hwhole
    obtain ⟨f?, rfl, rfl⟩ := exists_of_fraction? hplaces
    obtain ⟨p?, rfl, rfl⟩ := exists_of_exponent? hpower
    have hnumber := run?_numberOf ⟨negative, w, hzero, f?, p?⟩ left₃
    obtain ⟨y, hy, hleft⟩ := Option.map_eq_some_iff.1 (hnumber.symm.trans h)
    cases hleft
    refine ⟨⟨negative, w, hzero, f?, p?⟩, rfl, ?_, hy⟩
    unfold sizeBytes
    rw [List.append_assoc, List.append_assoc]
  unfold number at h
  simp only [run?_bind, run?_peek?, Option.bind_some, run?_ite, run?_advance] at h
  split at h
  · rename_i hsign
    obtain ⟨tail, rfl⟩ := List.head?_eq_some_iff.1 hsign
    rw [List.head?_cons, List.tail_cons, decide_eq_true rfl] at h
    obtain ⟨n, hnegative, rfl, hn⟩ := hsize true tail (by simpa only [run?_bind] using h)
    refine ⟨n, ?_, hn⟩
    unfold bytes
    rw [hnegative]
    rfl
  · rename_i hsign
    rw [decide_eq_false hsign] at h
    obtain ⟨n, hnegative, rfl, hn⟩ := hsize false items (by simpa only [run?_bind] using h)
    refine ⟨n, ?_, hn⟩
    unfold bytes
    rw [hnegative]
    rfl

end Numeral

end PowerShare.Json
