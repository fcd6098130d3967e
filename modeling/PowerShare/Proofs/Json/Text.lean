import PowerShare.Proofs.Json.Start
import PowerShare.Text.Utf8

/-!
# Texts are read as they are spelled

* `run?_textAfterQuote` -- the reader takes a text up to its closing quote, and what it reads are
  the characters spelled, unless its surrogates do not pair up.
-/

namespace PowerShare.Json

open Reader

/-! ## 1. Bytes that stand for themselves -/

/-- A byte of a text that starts nothing and ends nothing. -/
def PlainByte (b : UInt8) : Prop := b ≠ byte '"' ∧ b ≠ byte '\\' ∧ ¬ b < 32

instance (b : UInt8) : Decidable (PlainByte b) :=
  inferInstanceAs (Decidable (b ≠ byte '"' ∧ b ≠ byte '\\' ∧ ¬ b < 32))

theorem plainByte_of_le {b : UInt8} (h : 128 ≤ b.toNat) : PlainByte b := by
  refine ⟨?_, ?_, fun hlt => ?_⟩
  · rintro rfl
    exact absurd h (by decide)
  · rintro rfl
    exact absurd h (by decide)
  · have hlt' : b.toNat < 32 := UInt8.lt_iff_toNat_lt.1 hlt
    omega

/-- Beyond the first 128 characters all bytes are large. -/
theorem le_toNat_of_mem_utf8EncodeChar {c : Char} (hc : 127 < c.toNat) {b : UInt8}
    (hb : b ∈ String.utf8EncodeChar c) : 128 ≤ b.toNat := by
  have hv : ¬ c.val.toNat ≤ 127 := Nat.not_le_of_lt hc
  unfold String.utf8EncodeChar at hb
  dsimp only at hb
  rw [if_neg hv] at hb
  split at hb
  · simp only [List.mem_cons, List.not_mem_nil, or_false] at hb
    rcases hb with rfl | rfl <;> simp only [UInt8.toNat_ofNat'] <;> omega
  · split at hb
    · simp only [List.mem_cons, List.not_mem_nil, or_false] at hb
      rcases hb with rfl | rfl | rfl <;> simp only [UInt8.toNat_ofNat'] <;> omega
    · simp only [List.mem_cons, List.not_mem_nil, or_false] at hb
      rcases hb with rfl | rfl | rfl | rfl <;> simp only [UInt8.toNat_ofNat'] <;> omega

/-- A character of the first 128 is one byte. -/
theorem utf8EncodeChar_of_le {c : Char} (hc : c.toNat ≤ 127) :
    String.utf8EncodeChar c = [byte c] := by
  have hv : c.val.toNat ≤ 127 := hc
  unfold String.utf8EncodeChar
  dsimp only
  rw [if_pos hv]
  rfl

theorem plainByte_of_mem_utf8EncodeChar {c : Char} (h : c ≠ '"' ∧ c ≠ '\\' ∧ 32 ≤ c.toNat)
    {b : UInt8} (hb : b ∈ String.utf8EncodeChar c) : PlainByte b := by
  by_cases hc : c.toNat ≤ 127
  · rw [utf8EncodeChar_of_le hc, List.mem_singleton] at hb
    subst hb
    have htoNat : (byte c).toNat = c.toNat := by
      unfold byte
      rw [UInt8.toNat_ofNat']
      omega
    have hne {d : Char} (hd : (byte d).toNat = d.toNat) (hcd : c ≠ d) : byte c ≠ byte d := by
      intro heq
      have hnat : c.toNat = d.toNat := by rw [← htoNat, heq, hd]
      exact hcd (Char.toNat_inj.1 hnat)
    refine ⟨hne (by decide) h.1, hne (by decide) h.2.1, fun hlt => ?_⟩
    have hlt' : (byte c).toNat < 32 := UInt8.lt_iff_toNat_lt.1 hlt
    omega
  · exact plainByte_of_le (le_toNat_of_mem_utf8EncodeChar (Nat.lt_of_not_le hc) hb)

/-! ## 2. Escapes -/

theorem run?_hexEscape (a b c d : HexDigit) (rest : List UInt8) :
    hexEscape.run? (a.byte :: b.byte :: c.byte :: d.byte :: rest) =
      some (codeOf a b c d, rest) := by
  unfold hexEscape textByte
  simp only [run?_bind, run?_next?, List.head?_cons, List.tail_cons, Option.bind_some, run?_pure,
    a.hexValue?_eq, b.hexValue?_eq, c.hexValue?_eq, d.hexValue?_eq]
  rfl

theorem run?_escape_short {e : Char × Char} (h : e ∈ shortEscapes) (rest : List UInt8) :
    escape.run? (byte e.1 :: rest) = some (String.utf8EncodeChar e.2, rest) := by
  have hshort : ∀ e ∈ shortEscapes, shortEscape? (byte e.1) = some (byte e.2) := by decide
  have hsmall : ∀ e ∈ shortEscapes, e.2.toNat ≤ 127 := by decide
  unfold escape textByte
  simp only [run?_bind, run?_next?, List.head?_cons, List.tail_cons, Option.bind_some, run?_pure,
    hshort e h, utf8EncodeChar_of_le (hsmall e h)]

/-- An escape of four digits is a character, or the first half of a pair. -/
theorem run?_escape_code (a b c d : HexDigit) (rest : List UInt8) :
    escape.run? (byte 'u' :: a.byte :: b.byte :: c.byte :: d.byte :: rest) =
      if isLow (codeOf a b c d) then none
      else if isHigh (codeOf a b c d) then
        (do
          pairByte '\\'
          pairByte 'u'
          hexEscape : ByteReader Nat).run? rest |>.bind fun r =>
            if isLow r.1 then
              some (String.utf8EncodeChar (pairChar (codeOf a b c d) r.1), r.2)
            else none
      else some (String.utf8EncodeChar (Char.ofNat (codeOf a b c d)), rest) := by
  have hnone : shortEscape? (byte 'u') = none := by decide
  unfold escape textByte unicodeEscape
  simp only [run?_bind, run?_next?, List.head?_cons, List.tail_cons, Option.bind_some, run?_pure,
    hnone, if_true, run?_hexEscape, run?_ite, run?_malformed, Option.bind_assoc]
  rfl

/-! ## 3. Texts -/

/-- The reader of a text behind bytes that it has read, the last ones first. -/
def textFrom (read : List UInt8) : ByteReader (List UInt8) :=
  scan (fun _ => .ended .text) (fun (read : List UInt8) b =>
    if b = byte '"' then pure (.inr read)
    else if b = byte '\\' then do return .inl ((← escape).reverse ++ read)
    else if b < 32 then malformed .controlCharacter
    else pure (.inl (b :: read))) read

theorem textBytes_eq : textBytes = textFrom [] := rfl

theorem run?_textFrom_quote (read rest : List UInt8) :
    (textFrom read).run? (byte '"' :: rest) = some (read, rest) := by
  unfold textFrom
  rw [run?_scan_cons]
  rfl

theorem run?_textFrom_plain {bs : List UInt8} (h : ∀ b ∈ bs, PlainByte b) (read rest : List UInt8) :
    (textFrom read).run? (bs ++ rest) = (textFrom (bs.reverse ++ read)).run? rest := by
  induction bs generalizing read with
  | nil => rfl
  | cons b bs ih =>
    obtain ⟨hquote, hescape, hcontrol⟩ := h b List.mem_cons_self
    rw [List.reverse_cons, List.append_assoc]
    refine Eq.trans ?_ (ih (fun c hc => h c (List.mem_cons_of_mem b hc)) (b :: read))
    unfold textFrom
    rw [List.cons_append, run?_scan_cons]
    simp only [hquote, hescape, hcontrol, if_false, run?_pure, Option.bind_some]

theorem run?_textFrom_escape (read rest : List UInt8) :
    (textFrom read).run? (byte '\\' :: rest) =
      (escape.run? rest).bind fun r => (textFrom (r.1.reverse ++ read)).run? r.2 := by
  have hquote : byte '\\' ≠ byte '"' := by decide
  unfold textFrom
  rw [run?_scan_cons]
  simp only [hquote, if_false, if_true, run?_bind, run?_pure, Option.bind_assoc, Option.bind_some]

theorem run?_pairByte (c : Char) (b : UInt8) (rest : List UInt8) :
    (pairByte c).run? (b :: rest) = if b = byte c then some ((), rest) else none := by
  unfold pairByte textByte
  simp only [run?_bind, run?_next?, List.head?_cons, List.tail_cons, Option.bind_some, run?_pure,
    run?_ite, run?_malformed]

theorem utf8EncodeChar_eq_cons (c : Char) : ∃ b bs, String.utf8EncodeChar c = b :: bs := by
  unfold String.utf8EncodeChar
  dsimp only
  split
  · exact ⟨_, _, rfl⟩
  · split
    · exact ⟨_, _, rfl⟩
    · split <;> exact ⟨_, _, rfl⟩

/-- Behind the first half of a pair of surrogates only another escape of four digits is read. -/
theorem run?_pair (units : List TextUnit) (rest : List UInt8) :
    (do
      pairByte '\\'
      pairByte 'u'
      hexEscape : ByteReader Nat).run? (unitBytes units ++ byte '"' :: rest) =
      match units with
      | .code a b c d :: behind => some (codeOf a b c d, unitBytes behind ++ byte '"' :: rest)
      | _ => none := by
  have hquote : byte '"' ≠ byte '\\' := by decide
  have hshort : ∀ e ∈ shortEscapes, byte e.1 ≠ byte 'u' := by decide
  rw [run?_bind]
  cases units with
  | nil =>
    rw [show unitBytes [] ++ byte '"' :: rest = byte '"' :: rest from rfl, run?_pairByte,
      if_neg hquote]
    rfl
  | cons unit behind =>
    rw [unitBytes_cons_append]
    cases unit with
    | plain c hc =>
      obtain ⟨b, bs, hb⟩ := utf8EncodeChar_eq_cons c
      have hplain : PlainByte b := plainByte_of_mem_utf8EncodeChar hc (hb ▸ List.mem_cons_self)
      rw [TextUnit.bytes_plain, hb, List.cons_append, run?_pairByte, if_neg hplain.2.1]
      rfl
    | short e he =>
      rw [TextUnit.bytes_short, List.cons_append, List.cons_append, run?_pairByte, if_pos rfl,
        Option.bind_some, run?_bind, run?_pairByte, if_neg (hshort e he)]
      rfl
    | code a b c d =>
      rw [TextUnit.bytes_code]
      simp only [List.cons_append, run?_pairByte, if_true, Option.bind_some, run?_bind]
      exact run?_hexEscape a b c d _

/-- One more character, read behind others. -/
theorem map_utf8_cons (c : Char) (cs? : Option (List Char)) (read rest : List UInt8) :
    (cs?.map fun cs => ((utf8 cs).reverse ++ ((String.utf8EncodeChar c).reverse ++ read), rest)) =
      (cs?.map (c :: ·)).map fun cs => ((utf8 cs).reverse ++ read, rest) := by
  rw [Option.map_map]
  refine congrArg (Option.map · cs?) (funext fun cs => ?_)
  show _ = ((utf8 (c :: cs)).reverse ++ read, rest)
  unfold utf8
  rw [List.flatMap_cons, List.reverse_append, List.append_assoc]

/-- An escape of four digits, alone or with the one behind it. -/
theorem run?_textFrom_code (a b c d : HexDigit) (behind : List TextUnit) (read rest : List UInt8) :
    (textFrom read).run? (unitBytes (.code a b c d :: behind) ++ byte '"' :: rest) =
      (if isLow (codeOf a b c d) then none
      else if isHigh (codeOf a b c d) then
        (match behind with
        | .code a b c d :: behind => some (codeOf a b c d, unitBytes behind ++ byte '"' :: rest)
        | _ => none).bind fun r =>
          if isLow r.1 then some (String.utf8EncodeChar (pairChar (codeOf a b c d) r.1), r.2)
          else none
      else some (String.utf8EncodeChar (Char.ofNat (codeOf a b c d)),
        unitBytes behind ++ byte '"' :: rest)).bind fun r =>
          (textFrom (r.1.reverse ++ read)).run? r.2 := by
  rw [unitBytes_cons_append, TextUnit.bytes_code, List.cons_append, run?_textFrom_escape]
  simp only [List.cons_append, List.nil_append, run?_escape_code, run?_pair]

/-- **A text is read as it is spelled.** -/
theorem run?_textFrom (units : List TextUnit) (read rest : List UInt8) :
    (textFrom read).run? (unitBytes units ++ byte '"' :: rest) =
      (charsOf? units).map fun cs => ((utf8 cs).reverse ++ read, rest) := by
  fun_induction charsOf? units generalizing read with
  | case1 => exact run?_textFrom_quote read rest
  | case2 c hc behind ih =>
    rw [unitBytes_cons_append, TextUnit.bytes_plain,
      run?_textFrom_plain fun b hb => plainByte_of_mem_utf8EncodeChar hc hb, ih, map_utf8_cons]
  | case3 e he behind ih =>
    rw [unitBytes_cons_append, TextUnit.bytes_short, List.cons_append, run?_textFrom_escape,
      List.singleton_append, run?_escape_short he, Option.bind_some, ih, map_utf8_cons]
  | case4 a b c d behind n hlow =>
    rw [run?_textFrom_code, if_pos hlow]
    rfl
  | case5 a b c d n hlow hhigh a' b' c' d' behind m hsecond ih =>
    rw [run?_textFrom_code, if_neg hlow, if_pos hhigh, Option.bind_some, if_pos hsecond,
      Option.bind_some, ih, map_utf8_cons]
  | case6 a b c d n hlow hhigh a' b' c' d' behind m hsecond =>
    rw [run?_textFrom_code, if_neg hlow, if_pos hhigh, Option.bind_some, if_neg hsecond]
    rfl
  | case7 a b c d behind n hlow hhigh hother =>
    rw [run?_textFrom_code, if_neg hlow, if_pos hhigh]
    split
    · exact absurd rfl (hother _ _ _ _ _)
    · rfl
  | case8 a b c d behind n hlow hhigh ih =>
    rw [run?_textFrom_code, if_neg hlow, if_neg hhigh, Option.bind_some, ih, map_utf8_cons]

theorem fromUTF8?_utf8 (cs : List Char) :
    String.fromUTF8? ⟨(utf8 cs).toArray⟩ = some (String.ofList cs) := by
  have h : ofUtf8? (utf8 cs) = some cs := ofUtf8?_eq_some_iff.2 rfl
  obtain ⟨s, hs, rfl⟩ := Option.map_eq_some_iff.1 h
  rw [hs, String.ofList_toList]

/-- **The reader of a text takes it up to its closing quote.** -/
theorem run?_textAfterQuote (units : List TextUnit) (rest : List UInt8) :
    textAfterQuote.run? (unitBytes units ++ byte '"' :: rest) = (textOf? units).map (·, rest) := by
  unfold textAfterQuote textOf?
  rw [run?_bind, textBytes_eq, run?_textFrom]
  cases charsOf? units with
  | none => rfl
  | some cs =>
    simp only [Option.map_some, Option.bind_some, List.append_nil, List.reverse_reverse,
      fromUTF8?_utf8, run?_pure]

end PowerShare.Json
