import PowerShare.Proofs.Json.Record

/-!
# Keys of maps

A key stands between quotes. One that is a name is read like any text, escapes and all; one that is
a number is read off the bytes themselves, so it has no escapes:

* `interpretsKey_nameKey` -- names;
* `interpretsKey_uint32Key` -- numbers. No byte of a number ends a text or starts an escape, so a
  number and a quote behind it take just the bytes between the quotes.
-/

namespace PowerShare.Json

open Reader

/-! ## 1. Names -/

theorem interpretsKey_nameKey (names : List String) (ofName? : String → Option α) :
    InterpretsKey (nameKey names ofName?) fun units => (textOf? units).bind ofName? := by
  intro units rest
  unfold nameKey
  rw [run?_bind, run?_textAfterQuote]
  dsimp only
  cases textOf? units with
  | none => rfl
  | some text =>
    simp only [Option.map_some, Option.bind_some]
    cases ofName? text <;> rfl

/-! ## 2. Numbers -/

/-- A list can be cut in one way only at the first mark in it. -/
theorem eq_of_append_cons {a : α} {x y u v : List α} (hx : a ∉ x) (hy : a ∉ y)
    (h : x ++ a :: u = y ++ a :: v) : x = y ∧ u = v := by
  induction x generalizing y with
  | nil =>
    cases y with
    | nil => exact ⟨rfl, (List.cons.inj h).2⟩
    | cons b y => exact absurd ((List.cons.inj h).1 ▸ List.mem_cons_self) hy
  | cons b x ih =>
    cases y with
    | nil => exact absurd ((List.cons.inj h).1 ▸ List.mem_cons_self) hx
    | cons c y =>
      obtain ⟨rfl, htail⟩ := List.cons.inj h
      obtain ⟨rfl, rfl⟩ := ih (fun hm => hx (List.mem_cons_of_mem _ hm))
        (fun hm => hy (List.mem_cons_of_mem _ hm)) htail
      exact ⟨rfl, rfl⟩

/-- The number that stands for itself in a text. -/
def numberOf? (units : List TextUnit) : Option Number :=
  (number.run? (unitBytes units)).bind fun r => if r.2.isEmpty then some r.1 else none

def uint32Of? (units : List TextUnit) : Option UInt32 :=
  ((numberOf? units).bind (Number.between? 0 (2 ^ 32 - 1))).map fun i => .ofNat i.toNat

theorem Digits.plainByte (ds : Digits) {b : UInt8} (h : b ∈ ds.bytes) : PlainByte b := by
  have hdigit := ds.isDigit_eq b h
  refine ⟨ne_of_isDigit hdigit (by decide), ne_of_isDigit hdigit (by decide), fun hlt => ?_⟩
  have hlow : byte '0' ≤ b := of_decide_eq_true (Bool.and_eq_true_iff.1 hdigit).1
  have hzero : (48 : UInt8) ≤ b := hlow
  have hnat := UInt8.le_iff_toNat_le.1 hzero
  have hnat' := UInt8.lt_iff_toNat_lt.1 hlt
  simp only [UInt8.reduceToNat] at hnat hnat'
  omega

/-- No byte of a number ends a text or starts an escape. -/
theorem Numeral.plainByte (n : Numeral) {b : UInt8} (h : b ∈ n.bytes) : PlainByte b := by
  have hsize (h : b ∈ n.sizeBytes) : PlainByte b := by
    unfold Numeral.sizeBytes at h
    rcases List.mem_append.1 h with h | h
    · exact n.whole.plainByte h
    rcases List.mem_append.1 h with h | h
    · cases hplaces : n.places? with
      | none =>
        rw [hplaces] at h
        exact absurd h List.not_mem_nil
      | some ds =>
        rw [hplaces] at h
        rcases List.mem_cons.1 h with rfl | h
        · decide
        · exact ds.plainByte h
    · cases hpower : n.power? with
      | none =>
        rw [hpower] at h
        exact absurd h List.not_mem_nil
      | some p =>
        rw [hpower] at h
        rcases List.mem_cons.1 h with rfl | h
        · cases p.capital <;> decide
        rcases List.mem_append.1 h with h | h
        · rcases hsign : p.sign? with - | (_ | _)
          all_goals
            rw [hsign] at h
            simp at h
          all_goals
            rw [h]
            decide
        · exact p.digits.plainByte h
  unfold Numeral.bytes at h
  split at h
  · rcases List.mem_cons.1 h with rfl | h
    · decide
    · exact hsize h
  · exact hsize h

/-- Plain bytes in front of a quote are all the bytes between the quotes. -/
theorem eq_unitBytes_of_plain {xs : List UInt8} (hxs : ∀ b ∈ xs, PlainByte b)
    {units : List TextUnit} {left rest : List UInt8}
    (h : xs ++ byte '"' :: left = unitBytes units ++ byte '"' :: rest) : xs = unitBytes units := by
  have hescape {ys : List UInt8} (hys : ∀ b ∈ ys, PlainByte b) (tail : List UInt8) :
      ys ++ byte '"' :: left ≠ byte '\\' :: tail := by
    intro heq
    cases ys with
    | nil => exact absurd (List.cons.inj heq).1 (by decide)
    | cons y ys => exact (hys y List.mem_cons_self).2.1 (List.cons.inj heq).1
  induction units generalizing xs with
  | nil =>
    cases xs with
    | nil => rfl
    | cons x xs => exact absurd (List.cons.inj h).1 (hxs x List.mem_cons_self).1
  | cons unit units ih =>
    rw [unitBytes_cons_append] at h
    cases unit with
    | plain c hc =>
      -- The quote behind `xs` cannot lie inside a character, so the character is the start of `xs`.
      rw [TextUnit.bytes_plain] at h
      obtain ⟨behind, rfl, hbehind⟩ : ∃ behind, xs = String.utf8EncodeChar c ++ behind ∧
          behind ++ byte '"' :: left = unitBytes units ++ byte '"' :: rest := by
        rcases List.append_eq_append_iff.1 h with ⟨behind, hbytes, hquote⟩ | ⟨behind, hxs, hrest⟩
        · cases behind with
          | nil => exact ⟨[], by simpa using hbytes.symm, hquote⟩
          | cons b behind =>
            have hmem : byte '"' ∈ String.utf8EncodeChar c := by
              rw [hbytes, (List.cons.inj hquote).1]
              exact List.mem_append_right _ List.mem_cons_self
            exact absurd rfl (plainByte_of_mem_utf8EncodeChar hc hmem).1
        · exact ⟨behind, hxs, hrest.symm⟩
      rw [ih (fun b hb => hxs b (List.mem_append_right _ hb)) hbehind]
      rfl
    | short e he => exact absurd h (hescape hxs _)
    | code a b c d => exact absurd h (hescape hxs _)

/-- **A number and a quote behind it take just the bytes between the quotes.** -/
theorem run?_number_quote (units : List TextUnit) (rest : List UInt8) :
    ((number.run? (unitBytes units ++ byte '"' :: rest)).bind fun r =>
      if r.2.head? = some (byte '"') then some (r.1, r.2.tail) else none) =
      (numberOf? units).map (·, rest) := by
  unfold numberOf?
  -- Either the text is a numeral and both readings take all of it, or both come to nothing.
  by_cases hnumeral : ∃ n : Numeral, unitBytes units = n.bytes
  · obtain ⟨n, hn⟩ := hnumeral
    have hall := n.run?_number Stops.nil
    rw [List.append_nil] at hall
    rw [hn, n.run?_number (.cons (by decide) rest), hall]
    cases n.number? <;> rfl
  · have hleft : (number.run? (unitBytes units ++ byte '"' :: rest)).bind (fun r =>
        if r.2.head? = some (byte '"') then some (r.1, r.2.tail) else none) = none := by
      refine Option.bind_eq_none_iff.2 fun r hr => if_neg fun hquote => hnumeral ?_
      obtain ⟨n, hitems, -⟩ := Numeral.exists_of_number hr
      obtain ⟨left, hleft⟩ := List.head?_eq_some_iff.1 hquote
      rw [hleft] at hitems
      exact ⟨n, (eq_unitBytes_of_plain (fun _ => n.plainByte) hitems.symm).symm⟩
    have hright : (number.run? (unitBytes units)).bind (fun r =>
        if r.2.isEmpty then some r.1 else none) = none := by
      refine Option.bind_eq_none_iff.2 fun r hr => if_neg fun hempty => hnumeral ?_
      obtain ⟨n, hitems, -⟩ := Numeral.exists_of_number hr
      rw [List.isEmpty_iff.1 hempty, List.append_nil] at hitems
      exact ⟨n, hitems⟩
    rw [hleft, hright]
    rfl

/-- A byte that a key may start with if it is a number. -/
def startsNumber (b : UInt8) : Bool := isDigit b || b = byte '-'

theorem run?_uint32 {b : UInt8} (hb : startsNumber b = true) (tail : List UInt8) :
    uint32.run? (b :: tail) = (number.run? (b :: tail)).bind fun r =>
      (r.1.between? 0 (2 ^ 32 - 1)).map fun i => (.ofNat i.toNat, r.2) := by
  have hfirst : (decide (b = byte '-') || isDigit b) = true := Bool.or_comm _ _ ▸ hb
  have hvalue : startsValue b = true := by
    rcases Bool.or_eq_true_iff.1 hfirst with hminus | hdigit
    · rw [of_decide_eq_true hminus]
      decide
    · unfold startsValue
      rw [hdigit, Bool.true_or]
  have hstart : valueStart.run? (b :: tail) = some (b, b :: tail) :=
    run?_valueStart .nil (not_isBlank_of_startsValue hvalue) tail
  unfold uint32 integerBetween numberFor
  simp only [run?_bind, hstart, Option.bind_some, hfirst, if_true]
  cases number.run? (b :: tail) with
  | none => rfl
  | some r =>
    obtain ⟨i | x, left⟩ := r
    · simp only [Option.bind_some, run?_ite, run?_pure, run?_unfit, Number.between?]
      split <;> rfl
    · rfl

/-- What starts otherwise is no number. -/
theorem run?_number_of_not_startsNumber {b : UInt8} (hb : startsNumber b = false)
    (tail : List UInt8) : number.run? (b :: tail) = none := by
  refine Option.eq_none_iff_forall_ne_some.2 fun r hr => ?_
  obtain ⟨n, hitems, -⟩ := Numeral.exists_of_number hr
  obtain ⟨b', bytes, hbytes, hstart⟩ := (Writes.number n).exists_eq_cons
  rw [hbytes, List.cons_append, List.cons.injEq] at hitems
  obtain ⟨rfl, -⟩ := hitems
  have hnumber : startsNumber b = true := (Bool.or_comm _ _).trans hstart
  exact Bool.false_ne_true (hb.symm.trans hnumber)

/-- **A key that is a number** is an integer of 32 bits with a quote behind it. -/
theorem run?_uint32Key (items : List UInt8) :
    uint32Key.run? items = (number.run? items).bind fun r =>
      (r.1.between? 0 (2 ^ 32 - 1)).bind fun i =>
        if r.2.head? = some (byte '"') then some (.ofNat i.toNat, r.2.tail) else none := by
  unfold uint32Key
  cases items with
  | nil => rfl
  | cons b tail =>
    rw [run?_bind, run?_peek?, Option.bind_some, List.head?_cons, Option.any_some, run?_ite]
    show (if startsNumber b = true then _ else _) = _
    cases hb : startsNumber b with
    | false =>
      rw [run?_number_of_not_startsNumber hb]
      rfl
    | true =>
      rw [if_pos rfl, run?_bind, run?_uint32 hb, Option.bind_assoc]
      refine congrArg _ (funext fun r => ?_)
      cases r.1.between? 0 (2 ^ 32 - 1) with
      | none => rfl
      | some i =>
        rw [Option.map_some, Option.bind_some, Option.bind_some, run?_bind, run?_peek?,
          Option.bind_some, run?_ite]
        rfl

/-- **A key that is a number is read off the bytes between its quotes.** -/
theorem interpretsKey_uint32Key : InterpretsKey uint32Key uint32Of? := by
  intro units rest
  have hnumber := run?_number_quote units rest
  rw [run?_uint32Key]
  unfold uint32Of?
  cases hrun : number.run? (unitBytes units ++ byte '"' :: rest) with
  | none =>
    rw [hrun] at hnumber
    rw [Option.map_eq_none_iff.1 hnumber.symm]
    rfl
  | some r =>
    rw [hrun, Option.bind_some] at hnumber
    rw [Option.bind_some]
    split at hnumber
    · rename_i hquote
      obtain ⟨x, hx, hr⟩ := Option.map_eq_some_iff.1 hnumber.symm
      cases hr
      rw [hx, Option.bind_some]
      cases r.1.between? 0 (2 ^ 32 - 1) with
      | none => rfl
      | some i => exact if_pos hquote
    · rename_i hquote
      rw [Option.map_eq_none_iff.1 hnumber.symm]
      cases r.1.between? 0 (2 ^ 32 - 1) with
      | none => rfl
      | some i => exact if_neg hquote

end PowerShare.Json
