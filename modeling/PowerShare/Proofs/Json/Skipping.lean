import PowerShare.Proofs.Json.Numeral
import PowerShare.Proofs.Json.Text

/-!
# Any value is skipped

The skipper keeps the open containers on a stack and decides byte by byte. However deep a value is
and whatever stands in its texts, the skipper takes all of it and nothing behind it:

* `skip` -- the skipper in a state; `resume` -- what it does behind a byte;
* `skip_value`, `skip_items` and `skip_members` -- a value, and the rest of a list and of an
  object, by recursion on the way the tree is written;
* `run?_skipValue` -- any value is skipped.
-/

namespace PowerShare.Json

open Reader

/-! ## 1. Numbers -/

/-- A power of ten behind a number that is skipped. -/
def skipPower : ByteReader Unit := do
  let b ← peek?
  if b = some (byte 'e') || b = some (byte 'E') then
    advance
    let sign ← peek?
    if sign = some (byte '+') || sign = some (byte '-') then advance
    if (← takeWhile isDigit).isEmpty then malformed .invalidNumber

/-- Places behind a number that is skipped, and its power of ten. -/
def skipPlaces : ByteReader Unit := do
  if (← peek?) = some (byte '.') then
    advance
    if (← takeWhile isDigit).isEmpty then malformed .invalidNumber
  skipPower

/-- A number that is skipped, behind its first digit. -/
def skipSize (lead : UInt8) : ByteReader Unit := do
  if !isDigit lead then malformed .invalidNumber
  else
    let more ← takeWhile isDigit
    if lead = byte '0' && !more.isEmpty then malformed .invalidNumber
    else skipPlaces

theorem skipNumber_eq (first : UInt8) :
    skipNumber first =
      if first = byte '-' then (do skipSize ((← next?).getD 0)) else skipSize first := rfl

theorem run?_skipPower (power? : Option Power) {rest : List UInt8} (hrest : Stops rest) :
    skipPower.run? (power?.elim [] Power.bytes ++ rest) = some ((), rest) := by
  cases power? with
  | some p =>
    obtain ⟨d, ds, hds, hd, hplus, hminus⟩ := p.digits.exists_eq_cons
    have htake := p.digits.run?_takeWhile hrest.noDigit
    rw [hds, List.cons_append] at htake
    unfold skipPower
    simp only [Option.elim_some, Power.bytes, hds]
    cases p.capital <;> rcases p.sign? with - | (_ | _) <;>
      simp [run?_ite, -run?_takeWhile, htake, hplus, hminus]
  | none =>
    have hsmall := hrest.head?_ne (by decide : continuesNumber (byte 'e') = true)
    have hcapital := hrest.head?_ne (by decide : continuesNumber (byte 'E') = true)
    unfold skipPower
    simp [run?_ite, hsmall, hcapital]

theorem run?_skipPlaces (n : Numeral) {rest : List UInt8} (hrest : Stops rest) :
    skipPlaces.run? ((n.places?.elim [] fun ds => byte '.' :: ds.bytes) ++
      (n.power?.elim [] Power.bytes ++ rest)) = some ((), rest) := by
  have hbehind := Numeral.head?_power n.power? hrest
  have hpower := run?_skipPower n.power? hrest
  unfold skipPlaces
  cases n.places? with
  | some ds =>
    have htake := ds.run?_takeWhile fun b hb => (hbehind b hb).1
    simp [run?_ite, -run?_takeWhile, htake, ds.ne_nil, hpower]
  | none =>
    have hpoint : ¬ (n.power?.elim [] Power.bytes ++ rest).head? = some (byte '.') := fun h =>
      (hbehind _ h).2 rfl
    simp only [Option.elim_none, List.nil_append, run?_bind, run?_peek?, Option.bind_some, run?_ite,
      if_neg hpoint]
    simpa using hpower

theorem run?_skipSize (n : Numeral) {d : UInt8} {ds rest : List UInt8}
    (hds : n.whole.bytes = d :: ds) (hrest : Stops rest) :
    (skipSize d).run? (ds ++ ((n.places?.elim [] fun ds => byte '.' :: ds.bytes) ++
      (n.power?.elim [] Power.bytes ++ rest))) = some ((), rest) := by
  have hdigits := n.whole.isDigit_eq
  have hzero := n.length_eq_one
  have hbehind := Numeral.noDigit_places n.places? fun b hb =>
    (Numeral.head?_power n.power? hrest b hb).1
  rw [hds] at hdigits hzero
  have hd : isDigit d = true := hdigits d List.mem_cons_self
  have hmore : ∀ b ∈ ds, isDigit b = true := fun b hb => hdigits b (List.mem_cons_of_mem d hb)
  have hlead : ¬ (decide (d = byte '0') && !ds.isEmpty) = true := by
    intro h
    obtain ⟨rfl, hne⟩ := Bool.and_eq_true_iff.1 h |>.imp_left of_decide_eq_true
    have hlength : ds.length + 1 = 1 := hzero rfl
    rw [List.length_eq_zero_iff.1 (Nat.succ.inj hlength)] at hne
    exact absurd hne (by decide)
  unfold skipSize
  simp only [hd, Bool.not_true, Bool.false_eq_true, if_false, run?_bind, run?_takeWhile,
    takeWhile_digits hmore hbehind, dropWhile_digits hmore hbehind, Option.bind_some, run?_ite,
    if_neg hlead, run?_skipPlaces n hrest]

theorem run?_skipNumber (n : Numeral) {b : UInt8} {tail rest : List UInt8}
    (hn : n.bytes = b :: tail) (hrest : Stops rest) :
    (skipNumber b).run? (tail ++ rest) = some ((), rest) := by
  obtain ⟨d, ds, hds, -, -, hminus⟩ := n.whole.exists_eq_cons
  have hsize := run?_skipSize n hds hrest
  have hbytes : n.sizeBytes ++ rest = d :: (ds ++
      ((n.places?.elim [] fun ds => byte '.' :: ds.bytes) ++
        (n.power?.elim [] Power.bytes ++ rest))) := by
    unfold Numeral.sizeBytes
    rw [hds, List.append_assoc, List.append_assoc, List.cons_append]
  rw [skipNumber_eq, run?_ite]
  unfold Numeral.bytes at hn
  split at hn
  · cases hn
    rw [if_pos rfl, hbytes]
    simpa using hsize
  · rw [hn, List.cons_append, List.cons.injEq] at hbytes
    obtain ⟨rfl, htail⟩ := hbytes
    rw [if_neg hminus, htail]
    simpa using hsize

/-! ## 2. Texts -/

/-- A round of the reader that skips a text. -/
theorem run?_skipText_cons (b : UInt8) (rest : List UInt8) :
    skipText.run? (b :: rest) =
      if b = byte '"' then some ((), rest)
      else if b = byte '\\' then (skipEscape.run? rest).bind fun r => skipText.run? r.2
      else if b < 32 then none
      else skipText.run? rest := by
  unfold skipText
  rw [run?_scan_cons]
  simp only [run?_ite, run?_bind, run?_pure, run?_malformed]
  split
  · rfl
  · split
    · cases skipEscape.run? rest <;> rfl
    · split <;> rfl

theorem run?_skipText_plain {bs : List UInt8} (h : ∀ b ∈ bs, PlainByte b) (rest : List UInt8) :
    skipText.run? (bs ++ rest) = skipText.run? rest := by
  induction bs with
  | nil => rfl
  | cons b bs ih =>
    obtain ⟨hquote, hescape, hcontrol⟩ := h b List.mem_cons_self
    rw [List.cons_append, run?_skipText_cons, if_neg hquote, if_neg hescape, if_neg hcontrol]
    exact ih fun c hc => h c (List.mem_cons_of_mem b hc)

theorem run?_skipEscape (unit : TextUnit) {tail : List UInt8} (h : unit.bytes = byte '\\' :: tail)
    (rest : List UInt8) : skipEscape.run? (tail ++ rest) = some ((), rest) := by
  have hshort : ∀ e ∈ shortEscapes, (shortEscape? (byte e.1)).isSome = true := by decide
  have hnone : (shortEscape? (byte 'u')).isSome = false := by decide
  unfold skipEscape textByte
  cases unit with
  | plain c hc =>
    have hplain : PlainByte (byte '\\') :=
      plainByte_of_mem_utf8EncodeChar hc (TextUnit.bytes_plain c hc ▸ h ▸ List.mem_cons_self)
    exact absurd rfl hplain.2.1
  | short e he =>
    cases h
    simp [run?_ite, hshort e he]
  | code a b c d =>
    cases h
    simp [run?_ite, hnone, run?_hexEscape]

/-- A text is skipped whatever its surrogates are. -/
theorem run?_skipText (units : List TextUnit) (rest : List UInt8) :
    skipText.run? (unitBytes units ++ byte '"' :: rest) = some ((), rest) := by
  have hquote : byte '\\' ≠ byte '"' := by decide
  induction units with
  | nil => exact (run?_skipText_cons _ _).trans (if_pos rfl)
  | cons unit units ih =>
    have hescape (tail : List UInt8) (h : unit.bytes = byte '\\' :: tail) :
        skipText.run? (unit.bytes ++ (unitBytes units ++ byte '"' :: rest)) = some ((), rest) := by
      rw [h, List.cons_append, run?_skipText_cons, if_neg hquote, if_pos rfl,
        run?_skipEscape unit h, Option.bind_some, ih]
    rw [unitBytes_cons_append]
    cases unit with
    | plain c hc =>
      rw [TextUnit.bytes_plain,
        run?_skipText_plain fun b hb => plainByte_of_mem_utf8EncodeChar hc hb, ih]
    | short e he => exact hescape _ rfl
    | code a b c d => exact hescape _ rfl

/-! ## 3. States -/

/-- The skipper in a state. -/
def skip (s : SkipState) : ByteReader Unit := scan (fun s => .ended s.inside) skipRound s

/-- Goes on in the state that a round has left, or stops. -/
def resume : (SkipState ⊕ Unit) × List UInt8 → Option (Unit × List UInt8)
  | (.inl s, rest) => (skip s).run? rest
  | (.inr (), rest) => some ((), rest)

theorem run?_skip_cons (s : SkipState) (b : UInt8) (rest : List UInt8) :
    (skip s).run? (b :: rest) = ((skipRound s b).run? rest).bind resume := by
  unfold skip
  rw [run?_scan_cons]
  refine congrArg _ (funext fun r => ?_)
  obtain ⟨s | ⟨⟩, left⟩ := r <;> rfl

theorem run?_skip_blank {w : List UInt8} (hw : Blank w) (s : SkipState) (rest : List UInt8) :
    (skip s).run? (w ++ rest) = (skip s).run? rest := by
  induction w with
  | nil => rfl
  | cons b w ih =>
    have hb : isBlank b = true := hw b List.mem_cons_self
    refine Eq.trans ?_ (ih fun c hc => hw c (List.mem_cons_of_mem b hc))
    rw [List.cons_append, run?_skip_cons]
    unfold skipRound
    rw [if_pos hb]
    rfl

/-- A value may start here. -/
def awaitsValue (e : Expecting) : Bool := e = .value || e = .firstItem

/-- The first byte of a value, where one may start. -/
theorem run?_skip_start {e : Expecting} (he : awaitsValue e = true) (stack : List Frame) {b : UInt8}
    (hblank : isBlank b = false) (hend : b ≠ byte ']') (rest : List UInt8) :
    (skip ⟨e, stack⟩).run? (b :: rest) = ((skipFrom stack b).run? rest).bind resume := by
  rw [run?_skip_cons]
  unfold skipRound
  rw [hblank, if_neg Bool.false_ne_true]
  cases e with
  | value => rfl
  | firstItem =>
    dsimp only
    rw [if_neg hend]
  | firstName | name | separator => exact absurd he (by decide)

/-- A scalar behind its first byte. -/
theorem resume_scalar {p : ByteReader Unit} {items rest : List UInt8}
    (hp : p.run? items = some ((), rest)) (stack : List Frame) :
    (((do
      p
      return behindValue stack : ByteReader (SkipState ⊕ Unit))).run? items).bind resume =
      resume (behindValue stack, rest) := by
  rw [run?_bind, hp]
  rfl

theorem skipFrom_number (stack : List Frame) {n : Numeral} {b : UInt8}
    (hb : (Tree.number n).startsWith b = true) :
    skipFrom stack b = do
      skipNumber b
      return behindValue stack := by
  have hne {c : UInt8} (hc : (Tree.number n).startsWith c = false) : b ≠ c := ne_of_startsWith hb hc
  have hnumber : (decide (b = byte '-') || isDigit b) = true := hb
  unfold skipFrom
  rw [if_neg (hne rfl), if_neg (hne rfl), if_neg (hne rfl), if_neg (hne rfl), if_neg (hne rfl),
    if_neg (hne rfl), if_pos hnumber]

theorem run?_colon {u : List UInt8} (hu : Blank u) (rest : List UInt8) :
    colon.run? (u ++ byte ':' :: rest) = some ((), rest) := by
  unfold colon
  rw [run?_bind, run?_peekToken? hu (by decide)]
  rfl

/-! ## 4. Values -/

/-- What the skipper awaits of a list or an object that was just opened, and further on. -/
def awaited (isFirst : Bool) (first : Expecting) : Expecting :=
  if isFirst then first else .separator

mutual

/-- A value, wherever one may start. -/
theorem skip_value {t : Tree} {v : List UInt8} (h : Writes t v) {e : Expecting}
    (he : awaitsValue e = true) (stack : List Frame) {rest : List UInt8} (hrest : Stops rest) :
    (skip ⟨e, stack⟩).run? (v ++ rest) = resume (behindValue stack, rest) := by
  obtain ⟨b, tail, hv, hb⟩ := h.exists_eq_cons
  have hvalue := startsValue_of_startsWith hb
  have hstart := run?_skip_start he stack (not_isBlank_of_startsValue hvalue)
    (ne_of_startsValue hvalue (by decide)) (tail ++ rest)
  rw [hv, List.cons_append, hstart]
  cases h with
  | null =>
    cases hv
    exact resume_scalar (run?_restOfWord ['u', 'l', 'l'] rest) stack
  | boolean value =>
    cases value with
    | true =>
      cases hv
      exact resume_scalar (run?_restOfWord ['r', 'u', 'e'] rest) stack
    | false =>
      cases hv
      exact resume_scalar (run?_restOfWord ['a', 'l', 's', 'e'] rest) stack
  | number n =>
    rw [skipFrom_number stack hb]
    exact resume_scalar (run?_skipNumber n hv hrest) stack
  | text units =>
    cases hv
    rw [List.append_assoc]
    exact resume_scalar (run?_skipText units rest) stack
  | list hitems =>
    cases hv
    exact skip_items hitems stack rest
  | object hmembers =>
    cases hv
    exact skip_members hmembers stack rest
termination_by (sizeOf t, 0)

/-- The items of a list, up to its end. -/
theorem skip_items {isFirst : Bool} {items : List Tree} {body : List UInt8}
    (h : WritesItems isFirst items body) (stack : List Frame) (rest : List UInt8) :
    (skip ⟨awaited isFirst .firstItem, .list :: stack⟩).run? (body ++ rest) =
      resume (behindValue stack, rest) := by
  cases h with
  | stop hw =>
    rw [List.append_assoc, run?_skip_blank hw, List.singleton_append, run?_skip_cons]
    cases isFirst <;> rfl
  | first hw hv htail =>
    rw [List.append_assoc, run?_skip_blank hw, List.append_assoc]
    exact (skip_value hv rfl _ (htail.stops rest)).trans (skip_items htail stack rest)
  | next hu hw hv htail =>
    -- The comma makes the skipper await a value, with the same containers open.
    rw [List.append_assoc, run?_skip_blank hu, List.cons_append, run?_skip_cons, List.append_assoc,
      List.append_assoc]
    refine (run?_skip_blank hw ⟨.value, .list :: stack⟩ _).trans ?_
    exact (skip_value hv rfl _ (htail.stops rest)).trans (skip_items htail stack rest)
termination_by (sizeOf items, 0)

/-- The members of an object, up to its end. -/
theorem skip_members {isFirst : Bool} {members : List (List TextUnit × Tree)} {body : List UInt8}
    (h : WritesMembers isFirst members body) (stack : List Frame) (rest : List UInt8) :
    (skip ⟨awaited isFirst .firstName, .object :: stack⟩).run? (body ++ rest) =
      resume (behindValue stack, rest) := by
  cases h with
  | stop hw =>
    rw [List.append_assoc, run?_skip_blank hw, List.singleton_append, run?_skip_cons]
    cases isFirst <;> rfl
  | first hw hm htail =>
    rw [List.append_assoc, run?_skip_blank hw, List.cons_append, run?_skip_cons, List.append_assoc]
    exact (skip_member hm (.object :: stack) (htail.stops rest)).trans
      (skip_members htail stack rest)
  | next hu hw hm htail =>
    rw [List.append_assoc, run?_skip_blank hu, List.cons_append, run?_skip_cons, List.append_assoc]
    refine (run?_skip_blank hw ⟨.name, .object :: stack⟩ _).trans ?_
    rw [List.cons_append, run?_skip_cons, List.append_assoc]
    exact (skip_member hm (.object :: stack) (htail.stops rest)).trans
      (skip_members htail stack rest)
termination_by (sizeOf members, 0)

/-- A member, behind the opening quote of its name. -/
theorem skip_member {name : List TextUnit} {t : Tree} {m : List UInt8} (h : WritesMember name t m)
    (stack : List Frame) {rest : List UInt8} (hrest : Stops rest) :
    ((skipName stack).run? (m ++ rest)).bind resume = resume (behindValue stack, rest) := by
  obtain ⟨u, w, v, hu, hw, hv, hm⟩ := h.exists_append_eq rest
  unfold skipName
  rw [hm, run?_bind, run?_skipText, Option.bind_some, run?_bind, run?_colon hu, Option.bind_some]
  exact (run?_skip_blank hw ⟨.value, stack⟩ _).trans (skip_value hv rfl stack hrest)
termination_by (sizeOf t, 1)

end

/-- **Any value is skipped,** and nothing behind it. -/
theorem run?_skipValue {t : Tree} {v w : List UInt8} (h : Writes t v) (hw : Blank w)
    {rest : List UInt8} (hrest : Stops rest) :
    skipValue.run? (w ++ (v ++ rest)) = some ((), rest) :=
  (run?_skip_blank hw ⟨.value, []⟩ _).trans (skip_value h rfl [] hrest)

end PowerShare.Json
