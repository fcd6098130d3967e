import PowerShare.Proofs.Json.Record

/-!
# What is read in front of more

What a reader took off some bytes it takes off them in front of more bytes, too, and then it leaves
more. Only a number at the very end of the bytes needs something of what follows, that it does not
go on with the number (`Stops`).

* `Keeps p items` -- what `p` takes off these items it takes off them in front of more;
* `Local p` -- that, for all items;
* `Local.bind`, `Keeps.ite` and their like -- readers made of others; a reader that looks at the
  next byte is looked at with a byte there and without one;
* `local_skipValue`, `Record.local_read` and `local_mapOf` -- so every reader of values is local.
-/

namespace PowerShare.Json

open Reader

/-- What the reader takes off these items it takes off them in front of more. -/
def Keeps (p : ByteReader α) (items : List UInt8) : Prop :=
  ∀ ⦃a rest⦄, p.run? items = some (a, rest) → ∀ ⦃more⦄, Stops more →
    p.run? (items ++ more) = some (a, rest ++ more)

/-- What the reader takes off any items it takes off them in front of more. -/
def Local (p : ByteReader α) : Prop := ∀ items, Keeps p items

/-! ## 1. Readers made of others -/

section

variable {p q : ByteReader α} {f : α → ByteReader β} {items : List UInt8}

theorem keeps_of_refused (h : p.run? items = none) : Keeps p items := by
  intro a rest ha
  rw [h] at ha
  cases ha

theorem local_fail (e : ReadError) : Local (fail e : ByteReader α) :=
  fun _ => keeps_of_refused rfl

theorem local_pure (a : α) : Local (pure a) := by
  intro items b rest h more _
  cases h
  rfl

theorem Keeps.bind (hp : Keeps p items)
    (hf : ∀ a rest, p.run? items = some (a, rest) → Keeps (f a) rest) : Keeps (p >>= f) items := by
  intro b rest h more hmore
  rw [run?_bind] at h
  obtain ⟨⟨a, middle⟩, ha, hb⟩ := Option.bind_eq_some_iff.1 h
  rw [run?_bind, hp ha hmore]
  exact hf a middle ha hb hmore

theorem Keeps.then (hp : Keeps p items) (hf : ∀ a, Local (f a)) : Keeps (p >>= f) items :=
  hp.bind fun a rest _ => hf a rest

theorem Local.bind (hp : Local p) (hf : ∀ a, Local (f a)) : Local (p >>= f) :=
  fun items => (hp items).then hf

theorem Keeps.ite {c : Prop} [Decidable c] (hp : c → Keeps p items) (hq : ¬c → Keeps q items) :
    Keeps (if c then p else q) items := by
  split
  · exact hp ‹_›
  · exact hq ‹_›

theorem Local.ite {c : Prop} [Decidable c] (hp : c → Local p) (hq : ¬c → Local q) :
    Local (if c then p else q) :=
  fun items => .ite (fun hc => hp hc items) (fun hc => hq hc items)

end

/-! ## 2. The next byte -/

section

variable {b : UInt8} {tail : List UInt8}

theorem keeps_advance (b : UInt8) (tail : List UInt8) : Keeps advance (b :: tail) := by
  intro a rest h more _
  cases h
  rfl

/-- Takes the next byte, and goes on whatever it is. -/
theorem keeps_advance_bind {f : Unit → ByteReader α} (b : UInt8) (tail : List UInt8)
    (hf : ∀ u, Local (f u)) : Keeps (advance >>= f) (b :: tail) :=
  (keeps_advance b tail).then hf

variable {f : Option UInt8 → ByteReader α}

theorem keeps_peek?_bind (hf : Keeps (f (some b)) (b :: tail)) : Keeps (peek? >>= f) (b :: tail) :=
  fun _ _ h _ hmore => hf h hmore

/-- The next byte is looked at, and without one nothing is read. -/
theorem local_peek?_bind (hend : (f none).run? [] = none)
    (hf : ∀ b tail, Keeps (f (some b)) (b :: tail)) : Local (peek? >>= f)
  | [] => keeps_of_refused hend
  | b :: tail => keeps_peek?_bind (hf b tail)

/-- The next byte is taken, and without one nothing is read. -/
theorem local_next?_bind (hend : (f none).run? [] = none) (hf : ∀ b, Local (f (some b))) :
    Local (next? >>= f)
  | [] => keeps_of_refused hend
  | b :: tail => fun _ _ h _ hmore => hf b tail h hmore

theorem keeps_peekToken? {items : List UInt8} (h : (items.dropWhile isBlank) ≠ []) :
    Keeps peekToken? items := by
  have hrun (items : List UInt8) :
      peekToken?.run? items = some ((items.dropWhile isBlank).head?, items.dropWhile isBlank) := rfl
  intro a rest ha more _
  obtain ⟨b, tail, hdrop⟩ := List.exists_cons_of_ne_nil h
  rw [hrun, hdrop] at ha
  cases ha
  rw [hrun, List.dropWhile_append, hdrop]
  rfl

/-- The next byte behind blanks is looked at, and without one nothing is read. -/
theorem local_peekToken?_bind (hend : (f none).run? [] = none)
    (hf : ∀ b tail, Keeps (f (some b)) (b :: tail)) : Local (peekToken? >>= f) := by
  intro items
  cases hdrop : items.dropWhile isBlank with
  | nil =>
    refine keeps_of_refused ?_
    show (f (items.dropWhile isBlank).head?).run? (items.dropWhile isBlank) = none
    rw [hdrop]
    exact hend
  | cons b tail =>
    refine (keeps_peekToken? (by simp [hdrop])).bind fun a rest h => ?_
    have hrun : peekToken?.run? items = some (some b, b :: tail) := by
      show some ((items.dropWhile isBlank).head?, items.dropWhile isBlank) = _
      rw [hdrop]
      rfl
    rw [hrun] at h
    cases h
    exact hf b tail

end

/-- What follows stops a number, so it has no more digits. -/
theorem Stops.takeWhile_isDigit {more : List UInt8} (h : Stops more) :
    more.takeWhile isDigit = [] ∧ more.dropWhile isDigit = more := by
  cases more with
  | nil => exact ⟨rfl, rfl⟩
  | cons b more =>
    have hb : isDigit b = false := by
      have hcontinues := h b rfl
      simp only [continuesNumber, Bool.or_eq_false_iff] at hcontinues
      exact hcontinues.1.1.1
    simp [hb]

theorem local_takeWhile_isDigit : Local (takeWhile isDigit) := by
  intro items ds rest h more hmore
  obtain ⟨htake, hdrop⟩ := hmore.takeWhile_isDigit
  cases h
  rw [run?_takeWhile, List.takeWhile_append, List.dropWhile_append, htake, hdrop,
    List.append_nil]
  congr 2
  · split
    · rename_i hall
      exact (List.takeWhile_prefix isDigit).eq_of_length hall |>.symm
    · rfl
  · split
    · rename_i hnone
      rw [List.isEmpty_iff.1 hnone, List.nil_append]
    · rfl

/-- **A loop is local if its rounds are.** -/
theorem local_scan {atEnd : σ → ReadError} {round : σ → UInt8 → ByteReader (σ ⊕ α)}
    (hround : ∀ state b, Local (round state b)) (state : σ) : Local (scan atEnd round state) := by
  intro items
  induction hlength : items.length using Nat.strongRecOn generalizing items state with
  | _ length ih =>
    cases items with
    | nil => exact keeps_of_refused (run?_scan_nil _ _ _)
    | cons b tail =>
      intro a rest h more hmore
      rw [run?_scan_cons] at h
      obtain ⟨⟨next, left⟩, hnext, h⟩ := Option.bind_eq_some_iff.1 h
      rw [List.cons_append, run?_scan_cons, hround state b tail hnext hmore, Option.bind_some]
      cases next with
      | inr a' =>
        cases h
        rfl
      | inl next =>
        have hleft : left.length ≤ tail.length := (suffix_of_run? hnext).length_le
        have hless : left.length < length := by
          rw [← hlength, List.length_cons]
          omega
        exact ih left.length hless next left rfl h hmore

/-! ## 3. Words and numbers -/

theorem local_restOfWord : ∀ cs : List Char, Local (restOfWord cs)
  | [] => local_pure ()
  | c :: cs => by
    unfold restOfWord
    refine local_next?_bind rfl fun b => ?_
    exact .ite (fun _ => local_restOfWord cs) fun _ => local_fail _

theorem local_wholeDigits : Local wholeDigits := by
  unfold wholeDigits
  refine local_peek?_bind rfl fun b tail => ?_
  refine .ite (fun _ => keeps_of_refused rfl) fun _ => ?_
  refine (local_takeWhile_isDigit _).then fun ds => ?_
  exact .ite (fun _ => local_fail _) fun _ => local_pure ds

theorem local_someDigits : Local someDigits := by
  unfold someDigits
  refine local_takeWhile_isDigit.bind fun ds => .ite (fun _ => ?_) fun _ => local_pure ds
  exact local_peek?_bind rfl fun b tail => keeps_of_refused rfl

theorem local_fraction? : Local fraction? := by
  unfold fraction?
  intro items
  cases items with
  | nil =>
    intro a rest h more hmore
    cases h
    have hpoint := hmore.head?_ne (by decide : continuesNumber (byte '.') = true)
    simp [run?_ite, hpoint]
  | cons b tail =>
    refine keeps_peek?_bind (.ite (fun _ => ?_) fun _ => local_pure none _)
    exact keeps_advance_bind b tail fun _ => local_someDigits.bind fun ds => local_pure _

theorem local_exponent? : Local exponent? := by
  unfold exponent?
  intro items
  cases items with
  | nil =>
    intro a rest h more hmore
    cases h
    have hsmall := hmore.head?_ne (by decide : continuesNumber (byte 'e') = true)
    have hcapital := hmore.head?_ne (by decide : continuesNumber (byte 'E') = true)
    simp [run?_ite, hsmall, hcapital]
  | cons b tail =>
    refine keeps_peek?_bind (.ite (fun _ => ?_) fun _ => local_pure none _)
    refine keeps_advance_bind b tail fun _ => local_peek?_bind rfl fun sign tail => ?_
    dsimp only
    have hdigits (negative : Prop) [Decidable negative] : Local (do
        let e := digitsValue (← someDigits)
        return some (if negative then -(e : Int) else e) : ByteReader (Option Int)) :=
      local_someDigits.bind fun ds => local_pure _
    exact .ite (fun _ => keeps_advance_bind sign tail fun _ => hdigits _) fun _ => hdigits _ _

theorem local_numberOf (negative : Bool) (whole : List UInt8) (fraction? : Option (List UInt8))
    (exponent? : Option Int) : Local (numberOf negative whole fraction? exponent?) := by
  unfold numberOf
  refine .ite (fun _ => local_pure _) fun _ => .ite (fun _ => local_pure _) fun _ => ?_
  exact .ite (fun _ => local_pure _) fun _ => local_fail _

theorem local_number : Local number := by
  unfold number
  have hsize (negative : Bool) : Local (do
      let whole ← wholeDigits
      let fraction ← fraction?
      let exponent ← exponent?
      numberOf negative whole fraction exponent) :=
    local_wholeDigits.bind fun _ => local_fraction?.bind fun _ => local_exponent?.bind fun _ =>
      local_numberOf _ _ _ _
  refine local_peek?_bind rfl fun b tail => ?_
  dsimp only
  exact .ite (fun _ => keeps_advance_bind b tail fun _ => hsize _) fun _ => hsize _ _

/-! ## 4. Texts -/

theorem local_textByte : Local textByte := by
  unfold textByte
  exact local_next?_bind rfl fun b => local_pure b

theorem local_hexEscape : Local hexEscape := by
  unfold hexEscape
  refine local_textByte.bind fun a => local_textByte.bind fun b => local_textByte.bind fun c =>
    local_textByte.bind fun d => ?_
  split
  · exact local_pure _
  · exact local_fail _

theorem local_pairByte (c : Char) : Local (pairByte c) := by
  unfold pairByte
  exact local_textByte.bind fun b =>
    .ite (fun _ => local_pure ()) fun _ => local_fail _

theorem local_unicodeEscape : Local unicodeEscape := by
  unfold unicodeEscape
  refine local_hexEscape.bind fun n => .ite (fun _ => local_fail _) fun _ =>
    .ite (fun _ => ?_) fun _ => local_pure _
  refine (local_pairByte _).bind fun _ => (local_pairByte _).bind fun _ =>
    local_hexEscape.bind fun m => ?_
  exact .ite (fun _ => local_pure _) fun _ => local_fail _

theorem local_escape : Local escape := by
  unfold escape
  refine local_textByte.bind fun b => ?_
  split
  · exact local_pure _
  · exact .ite (fun _ => local_unicodeEscape) fun _ => local_fail _

theorem local_textBytes : Local textBytes := by
  unfold textBytes
  refine local_scan (fun read b => ?_) []
  refine .ite (fun _ => local_pure _) fun _ => .ite (fun _ => ?_) fun _ => ?_
  · exact local_escape.bind fun bytes => local_pure _
  · exact .ite (fun _ => local_fail _) fun _ => local_pure _

theorem local_textAfterQuote : Local textAfterQuote := by
  unfold textAfterQuote
  refine local_textBytes.bind fun read => ?_
  split
  · exact local_pure _
  · exact local_fail _

/-! ## 5. Values -/

theorem local_wrongType (first : UInt8) (wanted : String) :
    Local (wrongType first wanted : ByteReader α) :=
  fun items => keeps_of_refused (run?_wrongType first wanted items)

/-- A reader that goes by the first byte of a value. -/
theorem local_valueStart_bind {f : UInt8 → ByteReader α} (hf : ∀ b tail, Keeps (f b) (b :: tail)) :
    Local (valueStart >>= f) := by
  have heq (items : List UInt8) : (valueStart >>= f).run? items =
      (peekToken? >>= fun b? => b?.elim (ended .value) f).run? items := by
    unfold valueStart
    rw [run?_bind, run?_bind, run?_bind, Option.bind_assoc]
    refine congrArg _ (funext fun r => ?_)
    obtain ⟨- | b, rest⟩ := r <;> rfl
  intro items a rest h more hmore
  rw [heq] at h ⊢
  exact local_peekToken?_bind rfl hf items h hmore

theorem local_boolean : Local boolean := by
  unfold boolean
  refine local_valueStart_bind fun b tail => .ite (fun _ => ?_) fun _ =>
    .ite (fun _ => ?_) fun _ => ?_
  · exact keeps_advance_bind b tail fun _ => (local_restOfWord _).bind fun _ => local_pure _
  · exact keeps_advance_bind b tail fun _ => (local_restOfWord _).bind fun _ => local_pure _
  · exact local_wrongType _ _ _

theorem local_numberFor (wanted : String) : Local (numberFor wanted) := by
  unfold numberFor
  exact local_valueStart_bind fun b tail =>
    .ite (fun _ => local_number _) fun _ => local_wrongType _ _ _

theorem local_integerBetween (least greatest : Int) (wanted : String) :
    Local (integerBetween least greatest wanted) := by
  unfold integerBetween
  refine (local_numberFor wanted).bind fun x => ?_
  cases x with
  | integer i => exact .ite (fun _ => local_pure i) fun _ => local_fail _
  | real x => exact local_fail _

theorem local_uint64 : Local uint64 := (local_integerBetween _ _ _).bind fun _ => local_pure _

theorem local_uint32 : Local uint32 := (local_integerBetween _ _ _).bind fun _ => local_pure _

theorem local_int64 : Local int64 := (local_integerBetween _ _ _).bind fun _ => local_pure _

theorem local_binary64 : Local binary64 := by
  unfold binary64
  refine (local_numberFor _).bind fun x => ?_
  cases x <;> exact local_pure _

theorem Local.optional {p : ByteReader α} (hp : Local p) (hend : p.run? [] = none) :
    Local (optional p) := by
  unfold Json.optional
  refine local_peekToken?_bind ?_ fun b tail => ?_
  · simp [hend]
  · refine .ite (fun _ => ?_) fun _ => (hp _).then fun a => local_pure _
    exact keeps_advance_bind b tail fun _ => (local_restOfWord _).bind fun _ => local_pure _

/-! ## 6. Skipping -/

theorem local_skipPower : Local skipPower := by
  unfold skipPower
  intro items
  cases items with
  | nil =>
    intro a rest h more hmore
    cases h
    have hsmall := hmore.head?_ne (by decide : continuesNumber (byte 'e') = true)
    have hcapital := hmore.head?_ne (by decide : continuesNumber (byte 'E') = true)
    simp [run?_ite, hsmall, hcapital]
  | cons b tail =>
    refine keeps_peek?_bind (.ite (fun _ => ?_) fun _ => local_pure () _)
    have hdigits : Local (do
        if (← takeWhile isDigit).isEmpty then malformed .invalidNumber : ByteReader Unit) :=
      local_takeWhile_isDigit.bind fun ds => .ite (fun _ => local_fail _) fun _ => local_pure ()
    refine keeps_advance_bind b tail fun _ => local_peek?_bind rfl fun sign tail => ?_
    exact .ite (fun _ => keeps_advance_bind sign tail fun _ => hdigits) fun _ => hdigits _

theorem local_skipPlaces : Local skipPlaces := by
  unfold skipPlaces
  intro items
  cases items with
  | nil =>
    intro a rest h more hmore
    cases h
    have hpoint := hmore.head?_ne (by decide : continuesNumber (byte '.') = true)
    have hpower := local_skipPower [] rfl hmore
    simpa [run?_ite, hpoint] using hpower
  | cons b tail =>
    refine keeps_peek?_bind (.ite (fun _ => ?_) fun _ => local_skipPower _)
    refine keeps_advance_bind b tail fun _ => local_takeWhile_isDigit.bind fun ds => ?_
    exact .ite (fun _ => (local_fail _).bind fun _ => local_skipPower) fun _ => local_skipPower

theorem local_skipSize (lead : UInt8) : Local (skipSize lead) := by
  unfold skipSize
  refine .ite (fun _ => local_fail _) fun _ => local_takeWhile_isDigit.bind fun more => ?_
  exact .ite (fun _ => local_fail _) fun _ => local_skipPlaces

theorem local_skipNumber (first : UInt8) : Local (skipNumber first) := by
  rw [skipNumber_eq]
  refine .ite (fun _ => ?_) fun _ => local_skipSize first
  exact local_next?_bind rfl fun lead => local_skipSize lead

theorem local_skipEscape : Local skipEscape := by
  unfold skipEscape
  refine local_textByte.bind fun b => .ite (fun _ => local_pure ()) fun _ =>
    .ite (fun _ => ?_) fun _ => ?_
  · exact local_hexEscape.bind fun _ => local_pure ()
  · exact local_fail _

theorem local_skipText : Local skipText := by
  unfold skipText
  refine local_scan (fun _ b => ?_) ()
  refine .ite (fun _ => local_pure _) fun _ => .ite (fun _ => ?_) fun _ => ?_
  · exact local_skipEscape.bind fun _ => local_pure _
  · exact .ite (fun _ => local_fail _) fun _ => local_pure _

theorem local_skipFrom (stack : List Frame) (b : UInt8) : Local (skipFrom stack b) := by
  have hscalar {p : ByteReader Unit} (hp : Local p) : Local (do
      p
      return behindValue stack : ByteReader (SkipState ⊕ Unit)) :=
    hp.bind fun _ => local_pure _
  unfold skipFrom
  refine .ite (fun _ => local_pure _) fun _ => .ite (fun _ => local_pure _) fun _ => ?_
  refine .ite (fun _ => hscalar (local_restOfWord _)) fun _ => ?_
  refine .ite (fun _ => hscalar (local_restOfWord _)) fun _ => ?_
  refine .ite (fun _ => hscalar (local_restOfWord _)) fun _ => ?_
  refine .ite (fun _ => hscalar local_skipText) fun _ => ?_
  exact .ite (fun _ => hscalar (local_skipNumber b)) fun _ => hscalar (local_fail _)

theorem local_colon : Local colon := by
  unfold colon
  exact local_peekToken?_bind rfl fun b tail =>
    .ite (fun _ => keeps_advance b tail) fun _ => local_fail _ _

theorem local_skipName (stack : List Frame) : Local (skipName stack) := by
  unfold skipName
  exact local_skipText.bind fun _ => local_colon.bind fun _ => local_pure _

theorem local_skipRound (s : SkipState) (b : UInt8) : Local (skipRound s b) := by
  obtain ⟨expecting, stack⟩ := s
  unfold skipRound
  refine .ite (fun _ => local_pure _) fun _ => ?_
  cases expecting with
  | value => exact local_skipFrom stack b
  | firstItem => exact .ite (fun _ => local_pure _) fun _ => local_skipFrom stack b
  | firstName =>
    exact .ite (fun _ => local_pure _) fun _ =>
      .ite (fun _ => local_skipName stack) fun _ => local_fail _
  | name => exact .ite (fun _ => local_skipName stack) fun _ => local_fail _
  | separator =>
    rcases stack with - | ⟨- | -, outer⟩
    · exact local_fail _
    · exact .ite (fun _ => local_pure _) fun _ => .ite (fun _ => local_pure _) fun _ => local_fail _
    · exact .ite (fun _ => local_pure _) fun _ => .ite (fun _ => local_pure _) fun _ => local_fail _

/-- **What is skipped is skipped in front of more.** -/
theorem local_skipValue : Local skipValue := local_scan local_skipRound _

/-! ## 7. Records and maps -/

theorem local_nameBehindComma : Local nameBehindComma := by
  unfold nameBehindComma
  refine local_peekToken?_bind rfl fun b tail => .ite (fun _ => keeps_advance b tail) fun _ => ?_
  exact .ite (fun _ => local_fail _ _) fun _ => local_fail _ _

theorem local_members {member : σ → ByteReader σ} (hmember : ∀ state, Local (member state))
    (start : σ) : Local (members member start) := by
  have hnext (state : σ) : Local (do return .inl (false, ← member state) :
      ByteReader ((Bool × σ) ⊕ σ)) :=
    (hmember state).bind fun _ => local_pure _
  unfold members
  refine local_scan (fun ⟨isFirst, state⟩ b => ?_) _
  refine .ite (fun _ => local_pure _) fun _ => .ite (fun _ => local_pure _) fun _ => ?_
  refine .ite (fun _ => ?_) fun _ => ?_
  · exact .ite (fun _ => hnext state) fun _ => local_fail _
  · exact .ite (fun _ => local_nameBehindComma.bind fun _ => hnext state) fun _ => local_fail _

theorem local_endOfList : Local endOfList := by
  unfold endOfList
  refine local_peekToken?_bind rfl fun b tail => .ite (fun _ => keeps_advance b tail) fun _ => ?_
  refine .ite (fun _ => ?_) fun _ => local_fail _ _
  refine keeps_advance_bind b tail fun _ => local_peekToken?_bind rfl fun c tail => ?_
  exact .ite (fun _ => local_fail _ _) fun _ => local_fail _ _

theorem local_anotherItem (isFirst : Bool) : Local (anotherItem isFirst) := by
  unfold anotherItem
  refine local_peekToken?_bind rfl fun b tail => .ite (fun _ => ?_) fun _ => ?_
  · exact keeps_advance_bind b tail fun _ => local_pure _
  refine .ite (fun _ => local_pure _ _) fun _ => .ite (fun _ => ?_) fun _ => local_fail _ _
  refine keeps_advance_bind b tail fun _ => local_peekToken?_bind rfl fun c tail => ?_
  exact .ite (fun _ => local_fail _ _) fun _ => local_pure _ _

theorem local_items {fields : List (RecordField σ)}
    (hfields : ∀ f ∈ fields, ∀ state, Local (f.read state)) (isFirst : Bool) (state : σ) :
    Local (items fields isFirst state) := by
  induction fields generalizing isFirst state with
  | nil => exact local_endOfList.bind fun _ => local_pure _
  | cons f fields ih =>
    unfold items
    have hrest := ih fun g hg => hfields g (List.mem_cons_of_mem f hg)
    refine (local_anotherItem isFirst).bind fun another => .ite (fun _ => ?_) fun _ => local_pure _
    exact (hfields f List.mem_cons_self state).bind fun next => hrest false next

section

variable {r : Record σ} (hfields : ∀ f ∈ r.fields, ∀ state, Local (f.read state))
include hfields

theorem Record.local_member (state : σ × List String) : Local (r.member state) := by
  obtain ⟨state, seen⟩ := state
  unfold Record.member
  refine local_textAfterQuote.bind fun name => ?_
  split
  · exact local_colon.bind fun _ => local_skipValue.bind fun _ => local_pure _
  · rename_i f hfind
    refine .ite (fun _ => local_fail _) fun _ => local_colon.bind fun _ => ?_
    exact (hfields f (List.mem_of_find?_eq_some hfind) state).bind fun _ => local_pure _

/-- **A record is local if its fields are.** -/
theorem Record.local_read (start : σ) : Local (r.read start) := by
  unfold Record.read
  refine local_valueStart_bind fun b tail => .ite (fun _ => ?_) fun _ =>
    .ite (fun _ => ?_) fun _ => ?_
  · exact keeps_advance_bind b tail fun _ => local_items hfields true start
  · refine keeps_advance_bind b tail fun _ => ?_
    exact (local_members (Record.local_member hfields) _).bind fun _ => local_pure _
  · exact local_wrongType _ _ _

end

/-- **A map is local if its keys and values are.** -/
theorem local_mapOf [Ranked κ] {key : ByteReader κ} {value : ByteReader α} (hkey : Local key)
    (hvalue : Local value) : Local (mapOf key value) := by
  unfold mapOf
  refine local_valueStart_bind fun b tail => .ite (fun _ => ?_) fun _ => local_wrongType _ _ _
  refine keeps_advance_bind b tail fun _ => local_members (fun m => ?_) _
  exact hkey.bind fun k => local_colon.bind fun _ => hvalue.bind fun a => local_pure _

theorem local_nameKey (names : List String) (ofName? : String → Option α) :
    Local (nameKey names ofName?) := by
  unfold nameKey
  refine local_textAfterQuote.bind fun text => ?_
  split
  · exact local_pure _
  · exact local_fail _

theorem local_uint32Key : Local uint32Key := by
  unfold uint32Key
  refine local_peek?_bind rfl fun b tail => .ite (fun _ => ?_) fun _ => local_fail _ _
  refine (local_uint32 _).then fun n => local_peek?_bind rfl fun c tail => ?_
  exact .ite (fun _ => keeps_advance_bind c tail fun _ => local_pure _) fun _ => local_fail _ _

end PowerShare.Json
