import PowerShare.Proofs.Envelope.Layout

/-!
# Codecs that follow a layout

`Codec.Follows c L` says that the codec and the layout agree: the codec reads exactly the bytes
that may stand for a value, leaves what is behind them, and writes exactly the bytes with ascending
keys; no other bytes for the value are shorter. There is one lemma for each way to put codecs
together, from words (`follows_word`) to maps (`Follows.sortedMap`), so a codec follows the layout
that is put together in the same way.

What the four laws give for any codec stands in section 4: what was written is a layout
(`Follows.layout_encode`), and bytes begin with a value in only one way (`Follows.unique`).
-/

namespace PowerShare

variable {α β κ : Type}

/-- A step that fails lets the whole fail; otherwise the next one goes on from its result. -/
theorem bind_eq_ok {ε : Type} {x : Except ε α} {f : α → Except ε β} {b : β} :
    x >>= f = .ok b ↔ ∃ a, x = .ok a ∧ f a = .ok b := by
  cases x with
  | error e => exact ⟨nofun, nofun⟩
  | ok a => exact ⟨fun h => ⟨a, rfl, h⟩, fun ⟨_, ha, h⟩ => by cases ha; exact h⟩

/-! ## 1. Little-endian words -/

@[simp] theorem length_littleEndian (width n : Nat) : (littleEndian width n).length = width := by
  induction width generalizing n with
  | zero => rfl
  | succ width ih => simp [littleEndian, ih]

theorem ofLittleEndian_lt (p : List UInt8) : ofLittleEndian p < 256 ^ p.length := by
  induction p with
  | nil => simp [ofLittleEndian]
  | cons b rest ih =>
    have hb := b.toNat_lt
    simp only [ofLittleEndian, List.length_cons, Nat.pow_succ]
    omega

theorem ofLittleEndian_littleEndian {width n : Nat} (h : n < 256 ^ width) :
    ofLittleEndian (littleEndian width n) = n := by
  induction width generalizing n with
  | zero => simp_all [littleEndian, ofLittleEndian]
  | succ width ih =>
    have hdiv : n / 256 < 256 ^ width := by
      rw [Nat.pow_succ] at h
      omega
    simp only [littleEndian, ofLittleEndian, ih hdiv, UInt8.toNat_ofNat']
    omega

theorem littleEndian_ofLittleEndian (p : List UInt8) :
    littleEndian p.length (ofLittleEndian p) = p := by
  induction p with
  | nil => rfl
  | cons b rest ih =>
    have hb := b.toNat_lt
    have hlow : UInt8.ofNat (b.toNat + 256 * ofLittleEndian rest) = b := by
      rw [← UInt8.toNat_inj, UInt8.toNat_ofNat']
      omega
    have hhigh : (b.toNat + 256 * ofLittleEndian rest) / 256 = ofLittleEndian rest := by omega
    simp only [List.length_cons, ofLittleEndian, littleEndian, hlow, hhigh, ih]

namespace Codec

/-- **The codec and the layout agree.** -/
structure Follows (c : Codec α) (L : Layout α) : Prop where
  decode_eq_ok_iff : ∀ {bytes a rest},
    c.decode bytes = .ok (a, rest) ↔ ∃ p, bytes = p ++ rest ∧ L .any p a
  ascending_iff : ∀ {p a}, L .ascending p a ↔ p = c.encode a
  any_of_ascending : ∀ {p a}, L .ascending p a → L .any p a
  length_encode_le : ∀ {p a}, L .any p a → (c.encode a).length ≤ p.length

theorem decode_word_eq_ok_iff {width n : Nat} {bytes rest : List UInt8} :
    (word width).decode bytes = .ok (n, rest) ↔
      ∃ p, bytes = p ++ rest ∧ p.length = width ∧ ofLittleEndian p = n := by
  simp only [word]
  split
  · rename_i hshort
    refine ⟨nofun, ?_⟩
    intro hlayout
    obtain ⟨p, rfl, hp, -⟩ := hlayout
    rw [List.length_append] at hshort
    omega
  · rename_i hlong
    simp only [Except.ok.injEq, Prod.mk.injEq]
    constructor
    · intro hread
      obtain ⟨rfl, rfl⟩ := hread
      exact ⟨_, (List.take_append_drop width bytes).symm, by simp; omega, rfl⟩
    · intro hlayout
      obtain ⟨p, rfl, rfl, rfl⟩ := hlayout
      simp

/-- A word in front of other bytes. -/
theorem decode_word_append {width n : Nat} {p : List UInt8} (h : Layout.word width .any p n)
    (rest : List UInt8) : (word width).decode (p ++ rest) = .ok (n, rest) :=
  decode_word_eq_ok_iff.2 ⟨p, rfl, h⟩

theorem word_iff_eq_littleEndian {order : KeyOrder} {width n : Nat} {p : List UInt8}
    (h : n < 256 ^ width) : Layout.word width order p n ↔ p = littleEndian width n := by
  constructor
  · intro hlayout
    obtain ⟨rfl, rfl⟩ := hlayout
    exact (littleEndian_ofLittleEndian p).symm
  · intro hp
    subst hp
    exact ⟨length_littleEndian width n, ofLittleEndian_littleEndian h⟩

theorem word_lt {order : KeyOrder} {width n : Nat} {p : List UInt8}
    (h : Layout.word width order p n) : n < 256 ^ width := by
  obtain ⟨rfl, rfl⟩ := h
  exact ofLittleEndian_lt p

/-! ## 2. The parts of values -/

/-- A type whose values are the numbers of some width follows the layout of words. -/
theorem follows_word {width : Nat} {f : Nat → α} {g : α → Nat} (hlt : ∀ a, g a < 256 ^ width)
    (hfg : ∀ a, f (g a) = a) (hgf : ∀ n < 256 ^ width, g (f n) = n) :
    ((word width).map f g).Follows ((Layout.word width).of g) where
  decode_eq_ok_iff {bytes a rest} := by
    simp only [map, bind_eq_ok, Prod.exists]
    constructor
    · intro hread
      obtain ⟨n, r, hn, h⟩ := hread
      obtain ⟨rfl, rfl⟩ := Prod.mk.inj (Except.ok.inj h)
      obtain ⟨p, rfl, hp⟩ := decode_word_eq_ok_iff.1 hn
      have hword : Layout.word width .any p n := hp
      refine ⟨p, rfl, ?_⟩
      simpa only [Layout.of, hgf n (word_lt hword)] using hword
    · intro hlayout
      obtain ⟨p, rfl, hp⟩ := hlayout
      exact ⟨g a, rest, decode_word_append hp rest, by rw [hfg]; rfl⟩
  ascending_iff := word_iff_eq_littleEndian (hlt _)
  any_of_ascending h := h
  length_encode_le {p a} h := by
    rw [(word_iff_eq_littleEndian (hlt a)).1 h]
    exact Nat.le_refl _

/-- Another type with the same values. -/
theorem Follows.map {c : Codec α} {L : Layout α} (h : c.Follows L) {f : α → β} {g : β → α}
    (hfg : ∀ b, f (g b) = b) (hgf : ∀ a, g (f a) = a) : (c.map f g).Follows (L.of g) where
  decode_eq_ok_iff {bytes b rest} := by
    simp only [Codec.map, bind_eq_ok, Prod.exists]
    constructor
    · intro hread
      obtain ⟨a, r, ha, hb⟩ := hread
      obtain ⟨rfl, rfl⟩ := Prod.mk.inj (Except.ok.inj hb)
      obtain ⟨p, rfl, hp⟩ := h.decode_eq_ok_iff.1 ha
      refine ⟨p, rfl, ?_⟩
      rw [Layout.of, hgf a]
      exact hp
    · intro hlayout
      obtain ⟨p, rfl, hp⟩ := hlayout
      exact ⟨g b, rest, h.decode_eq_ok_iff.2 ⟨p, rfl, hp⟩, by rw [hfg]; rfl⟩
  ascending_iff := h.ascending_iff
  any_of_ascending := h.any_of_ascending
  length_encode_le := h.length_encode_le

theorem Follows.pair {c : Codec α} {d : Codec β} {L : Layout α} {M : Layout β} (hc : c.Follows L)
    (hd : d.Follows M) : (c.pair d).Follows (L.pair M) where
  decode_eq_ok_iff {bytes v rest} := by
    simp only [Codec.pair, bind_eq_ok, Prod.exists]
    constructor
    · intro hread
      obtain ⟨a, middle, ha, b, r, hb, h⟩ := hread
      obtain ⟨rfl, rfl⟩ := Prod.mk.inj (Except.ok.inj h)
      obtain ⟨p, rfl, hp⟩ := hc.decode_eq_ok_iff.1 ha
      obtain ⟨q, rfl, hq⟩ := hd.decode_eq_ok_iff.1 hb
      exact ⟨p ++ q, (List.append_assoc p q r).symm, p, q, rfl, hp, hq⟩
    · intro hlayout
      obtain ⟨_, rfl, p, q, rfl, hp, hq⟩ := hlayout
      refine ⟨v.1, q ++ rest, hc.decode_eq_ok_iff.2 ⟨p, List.append_assoc p q rest, hp⟩, ?_⟩
      exact ⟨v.2, rest, hd.decode_eq_ok_iff.2 ⟨q, rfl, hq⟩, rfl⟩
  ascending_iff {p v} := by
    constructor
    · intro hlayout
      obtain ⟨q, r, rfl, hq, hr⟩ := hlayout
      rw [hc.ascending_iff.1 hq, hd.ascending_iff.1 hr]
      rfl
    · intro hp
      subst hp
      exact ⟨_, _, rfl, hc.ascending_iff.2 rfl, hd.ascending_iff.2 rfl⟩
  any_of_ascending := fun ⟨q, r, hp, hq, hr⟩ =>
    ⟨q, r, hp, hc.any_of_ascending hq, hd.any_of_ascending hr⟩
  length_encode_le {p v} hlayout := by
    obtain ⟨q, r, rfl, hq, hr⟩ := hlayout
    have := hc.length_encode_le hq
    have := hd.length_encode_le hr
    simp only [Codec.pair, List.length_append]
    omega

theorem Follows.option {c : Codec α} {L : Layout α} (h : c.Follows L) :
    (Codec.option c).Follows (Layout.option L) where
  decode_eq_ok_iff {bytes a? rest} := by
    cases bytes with
    | nil => cases a? <;> simp [Codec.option, Layout.option]
    | cons tag bytes =>
      simp only [Codec.option]
      split
      · rename_i htag
        subst htag
        cases a? <;> simp [Layout.option, eq_comm]
      · split
        · rename_i htag
          subst htag
          simp only [bind_eq_ok, Prod.exists]
          constructor
          · intro hread
            obtain ⟨a, r, ha, hsome⟩ := hread
            obtain ⟨rfl, rfl⟩ := Prod.mk.inj (Except.ok.inj hsome)
            obtain ⟨p, rfl, hp⟩ := h.decode_eq_ok_iff.1 ha
            exact ⟨1 :: p, rfl, p, rfl, hp⟩
          · intro hlayout
            obtain ⟨p, hbytes, hp⟩ := hlayout
            cases a? with
            | none => simp_all [Layout.option]
            | some a =>
              obtain ⟨q, rfl, hq⟩ := hp
              obtain ⟨-, rfl⟩ := List.cons.inj hbytes
              exact ⟨a, rest, h.decode_eq_ok_iff.2 ⟨q, rfl, hq⟩, rfl⟩
        · cases a? <;> simp_all [Layout.option]
  ascending_iff {p a?} := by
    cases a? with
    | none => exact Iff.rfl
    | some a =>
      constructor
      · intro hlayout
        obtain ⟨q, rfl, hq⟩ := hlayout
        rw [h.ascending_iff.1 hq]
        rfl
      · intro hp
        subst hp
        exact ⟨_, rfl, h.ascending_iff.2 rfl⟩
  any_of_ascending {p a?} hp := by
    cases a? with
    | none => exact hp
    | some a => exact hp.imp fun q hq => ⟨hq.1, h.any_of_ascending hq.2⟩
  length_encode_le {p a?} hp := by
    cases a? with
    | none => exact Nat.le_of_eq (congrArg List.length hp).symm
    | some a =>
      obtain ⟨q, rfl, hq⟩ := hp
      exact Nat.succ_le_succ (h.length_encode_le hq)

/-- One of a few values follows the layout if every value has a number, and only one. -/
theorem follows_oneOf [DecidableEq α] {values : List α} (hmem : ∀ a, a ∈ values)
    (hnodup : values.Nodup) (hlength : values.length ≤ 256 ^ 4) :
    (oneOf values).Follows (Layout.oneOf values) := by
  have hget : ∀ {n a}, values[n]? = some a ↔ n = values.idxOf a := fun {n a} => by
    constructor
    · intro h
      obtain ⟨hn, rfl⟩ := List.getElem?_eq_some_iff.1 h
      exact (hnodup.idxOf_getElem n hn).symm
    · intro hn
      subst hn
      exact List.getElem?_idxOf (hmem a)
  have hlayout : ∀ {order p a},
      Layout.oneOf values order p a ↔ Layout.word 4 order p (values.idxOf a) := fun {order p a} => by
    simp only [Layout.oneOf, hget]
    exact ⟨fun ⟨n, hp, hn⟩ => hn ▸ hp, fun hp => ⟨_, hp, rfl⟩⟩
  have hlt : ∀ a, values.idxOf a < 256 ^ 4 := fun a =>
    Nat.lt_of_lt_of_le (List.idxOf_lt_length_of_mem (hmem a)) hlength
  constructor
  · intro bytes a rest
    simp only [oneOf, bind_eq_ok, Prod.exists, hlayout]
    constructor
    · intro hread
      obtain ⟨n, r, hn, h⟩ := hread
      split at h
      · rename_i a' ha
        obtain ⟨rfl, rfl⟩ := Prod.mk.inj (Except.ok.inj h)
        rw [hget] at ha
        subst ha
        exact decode_word_eq_ok_iff.1 hn
      · cases h
    · intro hlayout
      obtain ⟨p, rfl, hp⟩ := hlayout
      refine ⟨values.idxOf a, rest, decode_word_append hp rest, ?_⟩
      rw [List.getElem?_idxOf (hmem a)]
      rfl
  · intro p a
    exact hlayout.trans (word_iff_eq_littleEndian (hlt a))
  · intro p a h
    exact hlayout.2 (hlayout.1 h)
  · intro p a h
    rw [(word_iff_eq_littleEndian (hlt a)).1 (hlayout.1 h)]
    exact Nat.le_refl _

/-! ## 3. Maps and alternatives -/

/-- So many values read one behind the other are a row of that length. -/
theorem Follows.decodeMany_eq_ok_iff {c : Codec α} {L : Layout α} (h : c.Follows L) {n : Nat}
    {bytes rest : List UInt8} {as : List α} :
    decodeMany c n bytes = .ok (as, rest) ↔
      as.length = n ∧ ∃ p, bytes = p ++ rest ∧ L.row .any p as := by
  induction n generalizing bytes as with
  | zero =>
    simp only [decodeMany, Except.ok.injEq, Prod.mk.injEq, List.length_eq_zero_iff]
    constructor
    · intro hread
      obtain ⟨rfl, rfl⟩ := hread
      exact ⟨rfl, [], rfl, rfl⟩
    · intro hlayout
      obtain ⟨rfl, _, rfl, rfl⟩ := hlayout
      exact ⟨rfl, rfl⟩
  | succ n ih =>
    simp only [decodeMany, bind_eq_ok, Prod.exists]
    constructor
    · intro hread
      obtain ⟨a, middle, ha, others, r, hothers, hall⟩ := hread
      obtain ⟨rfl, rfl⟩ := Prod.mk.inj (Except.ok.inj hall)
      obtain ⟨p, rfl, hp⟩ := h.decode_eq_ok_iff.1 ha
      obtain ⟨rfl, q, rfl, hq⟩ := ih.1 hothers
      exact ⟨rfl, p ++ q, (List.append_assoc p q r).symm, p, q, rfl, hp, hq⟩
    · intro hlayout
      obtain ⟨hlength, p, rfl, hp⟩ := hlayout
      cases as with
      | nil => cases hlength
      | cons a as =>
        obtain ⟨q, r, rfl, hq, hr⟩ := hp
        refine ⟨a, r ++ rest, h.decode_eq_ok_iff.2 ⟨q, List.append_assoc q r rest, hq⟩, ?_⟩
        exact ⟨as, rest, ih.2 ⟨Nat.succ.inj hlength, r, rfl, hr⟩, rfl⟩

theorem Follows.row_ascending_iff {c : Codec α} {L : Layout α} (h : c.Follows L) {as : List α}
    {p : List UInt8} : L.row .ascending p as ↔ p = as.flatMap c.encode := by
  induction as generalizing p with
  | nil => exact Iff.rfl
  | cons a as ih =>
    rw [List.flatMap_cons]
    constructor
    · intro hlayout
      obtain ⟨q, r, rfl, hq, hr⟩ := hlayout
      rw [h.ascending_iff.1 hq, ih.1 hr]
    · intro hp
      subst hp
      exact ⟨_, _, rfl, h.ascending_iff.2 rfl, ih.2 rfl⟩

theorem Follows.row_any_of_ascending {c : Codec α} {L : Layout α} (h : c.Follows L) {as : List α}
    {p : List UInt8} (hp : L.row .ascending p as) : L.row .any p as := by
  induction as generalizing p with
  | nil => exact hp
  | cons a as ih =>
    obtain ⟨q, r, rfl, hq, hr⟩ := hp
    exact ⟨q, r, rfl, h.any_of_ascending hq, ih hr⟩

theorem Follows.sum_length_encode_le {c : Codec α} {L : Layout α} (h : c.Follows L) {as : List α}
    {p : List UInt8} (hp : L.row .any p as) :
    (as.map fun a => (c.encode a).length).sum ≤ p.length := by
  induction as generalizing p with
  | nil => exact Nat.zero_le _
  | cons a as ih =>
    obtain ⟨q, r, rfl, hq, hr⟩ := hp
    have := h.length_encode_le hq
    have := ih hr
    simp only [List.map_cons, List.sum_cons, List.length_append]
    omega

/-- **A map follows the layout of maps if there are fewer keys than a count can say.** -/
theorem Follows.sortedMap [Ranked κ] {k : Codec κ} {K : Layout κ} {v : Codec α} {V : Layout α}
    (hk : k.Follows K) (hv : v.Follows V) {bound : Nat} (hbound : bound < 256 ^ 8)
    (hrank : ∀ key : κ, Ranked.rank key < bound) :
    (Codec.sortedMap k v).Follows (Layout.sortedMap K V) := by
  have hpair : (k.pair v).Follows (K.pair V) := hk.pair hv
  -- A list that was read may repeat its keys; only a map's own entries are known to be few.
  have hcount (m : SortedMap κ α) : m.entries.length < 256 ^ 8 :=
    Nat.lt_of_le_of_lt (m.length_le_of_rank_lt hrank) hbound
  constructor
  · intro bytes m rest
    simp only [Codec.sortedMap, Codec.map, list, bind_eq_ok, Prod.exists]
    constructor
    · intro hread
      obtain ⟨entries, r, ⟨n, middle, hn, hmany⟩, hm⟩ := hread
      obtain ⟨rfl, rfl⟩ := Prod.mk.inj (Except.ok.inj hm)
      obtain ⟨p, rfl, hp⟩ := decode_word_eq_ok_iff.1 hn
      obtain ⟨rfl, q, rfl, hq⟩ := hpair.decodeMany_eq_ok_iff.1 hmany
      exact ⟨p ++ q, (List.append_assoc p q r).symm, p, q, entries, rfl, hp, hq, trivial,
        SortedMap.holdsLast_ofList entries⟩
    · intro hlayout
      obtain ⟨_, rfl, p, q, entries, rfl, hp, hq, -, hlast⟩ := hlayout
      refine ⟨entries, rest, ⟨entries.length, q ++ rest, ?_, ?_⟩, ?_⟩
      · exact decode_word_eq_ok_iff.2 ⟨p, List.append_assoc p q rest, hp⟩
      · exact hpair.decodeMany_eq_ok_iff.2 ⟨rfl, q, rfl, hq⟩
      · rw [SortedMap.ofList_eq_iff.2 hlast]
        rfl
  · intro p m
    constructor
    · intro hlayout
      obtain ⟨count, body, entries, rfl, hword, hrow, hasc, hlast⟩ := hlayout
      obtain rfl := (SortedMap.entries_eq_iff_holdsLast hasc).2 hlast
      rw [(word_iff_eq_littleEndian (hcount m)).1 hword, hpair.row_ascending_iff.1 hrow]
      rfl
    · intro hp
      subst hp
      exact ⟨_, _, m.entries, rfl, (word_iff_eq_littleEndian (hcount m)).2 rfl,
        hpair.row_ascending_iff.2 rfl, m.ascending_keys, m.holdsLast_entries⟩
  · intro p m hlayout
    obtain ⟨count, body, entries, rfl, hword, hrow, -, hlast⟩ := hlayout
    exact ⟨count, body, entries, rfl, hword, hpair.row_any_of_ascending hrow, trivial, hlast⟩
  · intro p m hlayout
    obtain ⟨count, body, entries, rfl, hword, hrow, -, hlast⟩ := hlayout
    obtain rfl := SortedMap.ofList_eq_iff.2 hlast
    have hbody := hpair.sum_length_encode_le hrow
    have hkept := SortedMap.sum_ofList_le (fun e => ((k.pair v).encode e).length) entries
    simp only [Codec.sortedMap, Codec.map, list, word, List.length_append, length_littleEndian,
      List.length_flatMap, hword.1]
    omega

section Numbered

variable {c : Codec α} {L : Layout α} (h : c.Follows L) {n : Nat} {a : α} {p : List UInt8}
include h

/-- The number of an alternative is read, and then the content. -/
theorem Follows.numbered_eq_ok_iff {bytes rest : List UInt8} :
    (∃ middle, (word 4).decode bytes = .ok (n, middle) ∧ c.decode middle = .ok (a, rest)) ↔
      ∃ p, bytes = p ++ rest ∧ (Layout.word 4).pair L .any p (n, a) := by
  constructor
  · intro hread
    obtain ⟨middle, hn, ha⟩ := hread
    obtain ⟨p, rfl, hp⟩ := decode_word_eq_ok_iff.1 hn
    obtain ⟨q, rfl, hq⟩ := h.decode_eq_ok_iff.1 ha
    exact ⟨p ++ q, (List.append_assoc p q rest).symm, p, q, rfl, hp, hq⟩
  · intro hlayout
    obtain ⟨_, rfl, p, q, rfl, hp, hq⟩ := hlayout
    refine ⟨q ++ rest, decode_word_eq_ok_iff.2 ⟨p, List.append_assoc p q rest, hp⟩, ?_⟩
    exact h.decode_eq_ok_iff.2 ⟨q, rfl, hq⟩

theorem Follows.numbered_ascending_iff (hn : n < 256 ^ 4) :
    (Layout.word 4).pair L .ascending p (n, a) ↔ p = (word 4).encode n ++ c.encode a := by
  constructor
  · intro hlayout
    obtain ⟨q, r, rfl, hq, hr⟩ := hlayout
    rw [(word_iff_eq_littleEndian hn).1 hq, h.ascending_iff.1 hr]
    rfl
  · intro hp
    subst hp
    exact ⟨_, _, rfl, (word_iff_eq_littleEndian hn).2 rfl, h.ascending_iff.2 rfl⟩

theorem Follows.numbered_any_of_ascending (hp : (Layout.word 4).pair L .ascending p (n, a)) :
    (Layout.word 4).pair L .any p (n, a) := by
  obtain ⟨q, r, rfl, hq, hr⟩ := hp
  exact ⟨q, r, rfl, hq, h.any_of_ascending hr⟩

theorem Follows.length_encode_numbered_le (hp : (Layout.word 4).pair L .any p (n, a)) :
    ((word 4).encode n ++ c.encode a).length ≤ p.length := by
  obtain ⟨q, r, rfl, hq, hr⟩ := hp
  have hle : (c.encode a).length ≤ r.length := h.length_encode_le hr
  simp only [word, List.length_append, length_littleEndian, hq.1]
  omega

end Numbered

/-! ## 4. What the laws give -/

section Laws

variable {c : Codec α} {L : Layout α} (h : c.Follows L)
include h

/-- **What was written is a layout in either order.** -/
theorem Follows.layout_encode (order : KeyOrder) (a : α) : L order (c.encode a) a := by
  have hasc : L .ascending (c.encode a) a := h.ascending_iff.2 rfl
  cases order with
  | any => exact h.any_of_ascending hasc
  | ascending => exact hasc

/-- **A value is read from its layout, and the bytes behind it are left.** -/
theorem Follows.decode_append {p : List UInt8} {a : α} (hp : L .any p a) (rest : List UInt8) :
    c.decode (p ++ rest) = .ok (a, rest) :=
  h.decode_eq_ok_iff.2 ⟨p, rfl, hp⟩

/-- Bytes that are read to their end are a layout. -/
theorem Follows.layout_of_decode {p : List UInt8} {a : α} (hp : c.decode p = .ok (a, [])) :
    L .any p a := by
  obtain ⟨q, hq, hlayout⟩ := h.decode_eq_ok_iff.1 hp
  rw [hq, List.append_nil]
  exact hlayout

/-- **Bytes begin with a value in only one way.** -/
theorem Follows.unique {p q r s : List UInt8} {a b : α} (hp : L .any p a) (hq : L .any q b)
    (heq : p ++ r = q ++ s) : a = b ∧ p = q := by
  have hread : c.decode (p ++ r) = .ok (b, s) := heq ▸ h.decode_append hq s
  rw [h.decode_append hp r] at hread
  obtain ⟨rfl, rfl⟩ := Prod.mk.inj (Except.ok.inj hread)
  exact ⟨rfl, List.append_cancel_right heq⟩

end Laws

end Codec

end PowerShare
