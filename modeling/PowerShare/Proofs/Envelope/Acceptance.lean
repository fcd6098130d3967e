import PowerShare.Proofs.Envelope.Codec

/-!
# Which bytes are an envelope

Reading an envelope looks at the front of the bytes: `decode_append` says what comes of bytes that
begin with the layout of an envelope, and `decode_eq_ok_iff` that no others are accepted.

* `decode_encode_append` -- what was written is read back whatever stands behind it, and under
  another version it is refused with that version;
* `decode_accepts_layout` -- the accepted bytes are those that begin with an envelope of version
  `1`, in any of its layouts. Writing the envelope again gives the shortest one, which is the one
  with ascending keys. Bytes that end too early are refused, and so are counts that say too much.

A count is refused by the first entry that is not there, so in section 2 a whole that is read
hands down a part that is read, until a part is reached that cannot be.
-/

namespace PowerShare

namespace Envelope

/-! ## 1. Accepted bytes -/

/-- Bytes that begin with the layout of an envelope are judged by its version alone. -/
theorem decode_append {p : List UInt8} {e : Envelope} (hp : Layout.envelope .any p e)
    (rest : List UInt8) :
    decode (p ++ rest) = if e.version = currentVersion then .ok e
      else .error (.unsupportedVersion e.version.toNat currentVersion.toNat) := by
  unfold decode
  rw [Codec.follows_envelope.decode_append hp rest]
  rfl

theorem decode_eq_ok_iff {bytes : List UInt8} {e : Envelope} :
    decode bytes = .ok e ↔
      ∃ p rest, bytes = p ++ rest ∧ Layout.envelope .any p e ∧ e.version = currentVersion := by
  constructor
  · intro h
    obtain ⟨⟨e', rest⟩, hread, hversion⟩ := bind_eq_ok.1 h
    simp only at hversion
    split at hversion
    · rename_i hcurrent
      cases hversion
      obtain ⟨p, hbytes, hp⟩ := Codec.follows_envelope.decode_eq_ok_iff.1 hread
      exact ⟨p, rest, hbytes, hp, hcurrent⟩
    · cases hversion
  · intro ⟨p, rest, hbytes, hp, hversion⟩
    rw [hbytes, decode_append hp, if_pos hversion]

/-- Bytes that no envelope is read from are refused with some error. -/
theorem exists_error_of_not_ok {bytes : List UInt8} (h : ∀ e, decode bytes ≠ .ok e) :
    ∃ error, decode bytes = .error error := by
  cases hread : decode bytes with
  | error error => exact ⟨error, rfl⟩
  | ok e => exact absurd hread (h e)

/-- **A layout that is cut short is refused.** -/
theorem exists_error_of_strict_prefix {p q : List UInt8} {e : Envelope}
    (hp : Layout.envelope .any p e) (hq : q <+: p) (hne : q ≠ p) :
    ∃ error, decode q = .error error := by
  refine exists_error_of_not_ok fun e' hread => ?_
  obtain ⟨p', rest, hq', hp', -⟩ := decode_eq_ok_iff.1 hread
  obtain ⟨cut, hcut⟩ := hq
  have heq : p ++ [] = p' ++ (rest ++ cut) := by
    rw [List.append_nil, ← hcut, hq', List.append_assoc]
  have hsame : p = p' := (Codec.follows_envelope.unique hp hp' heq).2
  have hlength := congrArg List.length heq
  have hprefix := congrArg List.length hq'
  have hwhole := congrArg List.length hcut
  simp only [List.length_append, List.length_nil, ← hsame] at hlength hprefix hwhole
  have hcutNil : cut = [] := List.length_eq_zero_iff.1 (by omega)
  rw [hcutNil, List.append_nil] at hcut
  exact hne hcut

end Envelope

/-! ## 2. Counts that say too much -/

namespace Codec

variable {α β : Type}

theorem decode_map_eq_ok {c : Codec α} {f : α → β} {g : β → α} {bytes rest : List UInt8} {b : β}
    (h : (c.map f g).decode bytes = .ok (b, rest)) : ∃ a, c.decode bytes = .ok (a, rest) := by
  obtain ⟨⟨a, r⟩, ha, hb⟩ := bind_eq_ok.1 h
  cases hb
  exact ⟨a, ha⟩

/-- Behind a value that is there, the rest of a pair is read. -/
theorem Follows.decode_pair_eq_ok {c : Codec α} {L : Layout α} (hc : c.Follows L) {d : Codec β}
    {p bytes rest : List UInt8} {a : α} {v : α × β} (hp : L .any p a)
    (h : (c.pair d).decode (p ++ bytes) = .ok (v, rest)) :
    ∃ b, d.decode bytes = .ok (b, rest) := by
  obtain ⟨⟨a', middle⟩, ha, hpair⟩ := bind_eq_ok.1 h
  obtain ⟨⟨b, r⟩, hb, hv⟩ := bind_eq_ok.1 hpair
  rw [hc.decode_append hp] at ha
  cases ha
  cases hv
  exact ⟨b, hb⟩

/-- What a pair begins with is read. -/
theorem decode_fst_eq_ok {c : Codec α} {d : Codec β} {bytes rest : List UInt8} {v : α × β}
    (h : (c.pair d).decode bytes = .ok (v, rest)) : ∃ a middle, c.decode bytes = .ok (a, middle) := by
  obtain ⟨⟨a, middle⟩, ha, -⟩ := bind_eq_ok.1 h
  exact ⟨a, middle, ha⟩

theorem decode_some_eq_ok {c : Codec α} {bytes rest : List UInt8} {a? : Option α}
    (h : (option c).decode (1 :: bytes) = .ok (a?, rest)) : ∃ a, c.decode bytes = .ok (a, rest) := by
  obtain ⟨⟨a, r⟩, ha, hsome⟩ := bind_eq_ok.1 h
  cases hsome
  exact ⟨a, ha⟩

/-- Behind the count of a map that is read, so many entries are read. -/
theorem decode_entries_eq_ok {κ : Type} [Ranked κ] {k : Codec κ} {v : Codec α}
    {count bytes rest : List UInt8} {n : Nat} {m : SortedMap κ α}
    (hcount : Layout.word 8 .any count n)
    (h : (sortedMap k v).decode (count ++ bytes) = .ok (m, rest)) :
    ∃ entries, decodeMany (k.pair v) n bytes = .ok (entries, rest) := by
  obtain ⟨entries, hlist⟩ := decode_map_eq_ok h
  obtain ⟨⟨n', middle⟩, hn, hmany⟩ := bind_eq_ok.1 hlist
  rw [decode_word_append hcount] at hn
  cases hn
  exact ⟨entries, hmany⟩

theorem Follows.begins_of_decodeMany {c : Codec α} {L : Layout α} (hc : c.Follows L) {n : Nat}
    {bytes rest : List UInt8} {as : List α} (h : decodeMany c n bytes = .ok (as, rest)) :
    L.Begins n bytes := by
  obtain ⟨hlength, p, hbytes, hp⟩ := hc.decodeMany_eq_ok_iff.1 h
  exact ⟨p, rest, as, hbytes, hp, hlength⟩

/-- Behind a row of fewer values than are read, there is one more. -/
theorem Follows.decode_next_eq_ok {c : Codec α} {L : Layout α} (hc : c.Follows L) {n : Nat}
    {p bytes rest : List UInt8} {as all : List α} (hp : L.row .any p as) (hlt : as.length < n)
    (h : decodeMany c n (p ++ bytes) = .ok (all, rest)) :
    ∃ a middle, c.decode bytes = .ok (a, middle) := by
  induction as generalizing n p all rest with
  | nil =>
    obtain ⟨n, rfl⟩ := Nat.exists_eq_succ_of_ne_zero (Nat.ne_of_gt hlt)
    have hnil : p = [] := hp
    rw [hnil] at h
    obtain ⟨⟨a, middle⟩, ha, -⟩ := bind_eq_ok.1 h
    exact ⟨a, middle, ha⟩
  | cons b as ih =>
    obtain ⟨n, rfl⟩ := Nat.exists_eq_succ_of_ne_zero (Nat.ne_of_gt (Nat.zero_lt_of_lt hlt))
    obtain ⟨q, r, rfl, hq, hr⟩ := hp
    rw [List.append_assoc] at h
    obtain ⟨⟨b', middle⟩, hb, hothers⟩ := bind_eq_ok.1 h
    obtain ⟨⟨others, r'⟩, hmany, -⟩ := bind_eq_ok.1 hothers
    rw [hc.decode_append hq] at hb
    cases hb
    exact ih hr (Nat.lt_of_succ_lt_succ hlt) hmany

/-- The shares of an envelope that is read are read behind its other fields. -/
theorem decode_shares_eq_ok {head bytes rest : List UInt8} {fields} {e : Envelope}
    (hhead : Layout.reportHead .any head fields)
    (h : envelope.decode (head ++ bytes) = .ok (e, rest)) :
    ∃ m, (sortedMap consumer share).decode bytes = .ok (m, rest) := by
  obtain ⟨v, _, rfl, hv, s, _, rfl, hs, t, _, rfl, ht, k, _, rfl, hk, d, _, rfl, hd, a, _, rfl, ha,
    l, c, rfl, hl, hc⟩ := hhead
  simp only [List.append_assoc] at h
  obtain ⟨_, h⟩ := decode_map_eq_ok h
  obtain ⟨_, h⟩ := follows_uint32.decode_pair_eq_ok hv h
  obtain ⟨o, h⟩ := follows_uint64.decode_pair_eq_ok hs h
  obtain ⟨⟨number, middle⟩, hnumber, h⟩ := bind_eq_ok.1 h
  rw [decode_word_append ht] at hnumber
  cases hnumber
  obtain ⟨⟨r, rest'⟩, h, hrest⟩ := bind_eq_ok.1 h
  cases hrest
  obtain ⟨_, h⟩ := decode_map_eq_ok h
  obtain ⟨_, h⟩ := follows_component.decode_pair_eq_ok hk h
  obtain ⟨_, h⟩ := follows_scope.decode_pair_eq_ok hd h
  obtain ⟨_, h⟩ := follows_scope.decode_pair_eq_ok ha h
  obtain ⟨_, h⟩ := follows_duration.decode_pair_eq_ok hl h
  exact follows_binary64.decode_pair_eq_ok hc h

/-- The states of a share that is read are read behind its first fields. -/
theorem decode_states_eq_ok {opening bytes rest : List UInt8} {fields} {entry : Consumer × Share}
    (hopening : Layout.shareHead .any opening fields)
    (h : (consumer.pair share).decode (opening ++ bytes) = .ok (entry, rest)) :
    ∃ m middle, (sortedMap stateKey binary64).decode bytes = .ok (m, middle) := by
  obtain ⟨_, rfl, k, _, rfl, hk, d, c, rfl, hd, hc⟩ := hopening
  simp only [List.append_assoc] at h
  obtain ⟨_, h⟩ := follows_consumer.decode_pair_eq_ok hk h
  obtain ⟨_, h⟩ := decode_map_eq_ok h
  obtain ⟨_, h⟩ := follows_duration.decode_pair_eq_ok hd h
  obtain ⟨_, h⟩ := follows_binary64.decode_pair_eq_ok hc h
  obtain ⟨states?, middle, h⟩ := decode_fst_eq_ok h
  obtain ⟨m, h⟩ := decode_some_eq_ok h
  exact ⟨m, middle, h⟩

/-- **No envelope is read from bytes with a count that says too much.** -/
theorem not_decode_of_missesEntries {bytes rest : List UInt8} {e : Envelope}
    (hbytes : Layout.MissesEntries bytes) : envelope.decode bytes ≠ .ok (e, rest) := by
  intro h
  cases hbytes with
  | shares head_at count_at missing =>
    obtain ⟨m, h⟩ := decode_shares_eq_ok head_at h
    obtain ⟨entries, h⟩ := decode_entries_eq_ok count_at h
    exact missing ((follows_consumer.pair follows_share).begins_of_decodeMany h)
  | states head_at count_at before_at fewer opening_at count_at' missing =>
    obtain ⟨m, h⟩ := decode_shares_eq_ok head_at h
    obtain ⟨entries, h⟩ := decode_entries_eq_ok count_at h
    obtain ⟨entry, middle, h⟩ :=
      (follows_consumer.pair follows_share).decode_next_eq_ok before_at fewer h
    obtain ⟨m', middle', h⟩ := decode_states_eq_ok opening_at h
    obtain ⟨states, h⟩ := decode_entries_eq_ok count_at' h
    exact missing ((follows_stateKey.pair follows_binary64).begins_of_decodeMany h)

end Codec

/-! ## 3. What is read and what is refused -/

namespace Envelope

/-- **What was written is read back, whatever stands behind it; under another version than `1` it
is refused, and the error names the version.** -/
theorem decode_encode_append :
    (∀ (n : UInt64) (o : Outcome) (rest : List UInt8),
      decode ((wrap n o).encode ++ rest) = .ok (wrap n o)) ∧
    ∀ (v : UInt32) (n : UInt64) (o : Outcome) (rest : List UInt8), v ≠ 1 →
      decode ((Envelope.mk v n o).encode ++ rest) = .error (.unsupportedVersion v.toNat 1) ∧
      (WireError.unsupportedVersion v.toNat 1).message =
        "unsupported protocol version " ++ toString v.toNat ++ " (expected 1)" := by
  constructor
  · intro n o rest
    exact (decode_append (Codec.follows_envelope.layout_encode .any (wrap n o)) rest).trans (if_pos rfl)
  · intro v n o rest hv
    constructor
    · exact (decode_append (Codec.follows_envelope.layout_encode .any ⟨v, n, o⟩) rest).trans (if_neg hv)
    · have hexpected : " (expected " ++ (toString 1 ++ ")") = " (expected 1)" := by decide
      rw [← hexpected, ← String.append_assoc, ← String.append_assoc]
      rfl

/-- A report of version 2 with a not-a-number, a key of another consumer and bytes behind it. -/
theorem decode_version_two :
    let share : Share := {
      duration := ⟨5⟩
      charge := .invalid
      byState? := some (SortedMap.ofList [(⟨⟨9⟩, .cached⟩, .nan), (⟨⟨4⟩, .foreground⟩, .zero)])
      basis := .estimated
      rxBytes? := some 1024
      txBytes? := none }
    let report : Report := {
      component := .modem
      device := ⟨⟨8⟩, .nan, .measured⟩
      tracked := ⟨⟨5⟩, .invalid, .measured⟩
      systemDuration := ⟨3⟩
      systemCharge := .zero
      shares := SortedMap.ofList [(⟨4⟩, share)] }
    (2 : UInt32) ≠ 1 ∧
      decode ((Envelope.mk 2 7 (.report report)).encode ++ [255]) =
        .error (.unsupportedVersion 2 1) :=
  ⟨by decide, (decode_encode_append.2 2 7 _ [255] (by decide)).1⟩

/-- **An envelope is read exactly from the bytes that begin with a layout of it, in version `1`.**
Written again, it is never longer, and it is the same just where the keys of every map ascend, by
consumer and then by state. All other bytes are refused: among them every layout that is cut short
and every count with fewer entries behind it. -/
theorem decode_accepts_layout :
    (∀ bytes e, decode bytes = .ok e ↔
      ∃ p, p <+: bytes ∧ Layout.envelope .any p e ∧ e.version = 1) ∧
    (∀ p e, Layout.envelope .any p e →
      e.encode.length ≤ p.length ∧ (e.encode = p ↔ Layout.envelope .ascending p e)) ∧
    (∀ a b : StateKey, Ranked.rank a < Ranked.rank b ↔
      a.consumer.id.toNat < b.consumer.id.toNat ∨
        (a.consumer.id.toNat = b.consumer.id.toNat ∧ a.state.number < b.state.number)) ∧
    (∀ bytes, (¬ ∃ p e, p <+: bytes ∧ Layout.envelope .any p e ∧ e.version = 1) →
      ∃ error, decode bytes = .error error) ∧
    (∀ p q e, Layout.envelope .any p e → q <+: p → q ≠ p → ∃ error, decode q = .error error) ∧
    (∀ bytes, Layout.MissesEntries bytes → ∃ error, decode bytes = .error error) ∧
    (∀ n rest, rest.length < 27 * n → ¬ (Layout.consumer.pair Layout.share).Begins n rest) ∧
    ∀ n rest, rest.length < 16 * n → ¬ (Layout.stateKey.pair Layout.binary64).Begins n rest := by
  have haccept (bytes : List UInt8) (e : Envelope) : decode bytes = .ok e ↔
      ∃ p, p <+: bytes ∧ Layout.envelope .any p e ∧ e.version = 1 := by
    rw [decode_eq_ok_iff]
    constructor
    · intro ⟨p, rest, hbytes, hp, hversion⟩
      exact ⟨p, ⟨rest, hbytes.symm⟩, hp, hversion⟩
    · intro ⟨p, ⟨rest, hbytes⟩, hp, hversion⟩
      exact ⟨p, rest, hbytes.symm, hp, hversion⟩
  refine ⟨haccept, ?_, fun _ _ => rank_stateKey_lt_iff, ?_, ?_, ?_, ?_, ?_⟩
  · intro p e hp
    refine ⟨Codec.follows_envelope.length_encode_le hp, ?_⟩
    rw [Codec.follows_envelope.ascending_iff]
    exact eq_comm
  · intro bytes hnone
    exact exists_error_of_not_ok fun e hread =>
      hnone ((haccept bytes e).1 hread |>.imp fun p hp => ⟨e, hp⟩)
  · intro p q e hp hq hne
    exact exists_error_of_strict_prefix hp hq hne
  · intro bytes hmissing
    refine exists_error_of_not_ok fun e hread => ?_
    obtain ⟨⟨e', rest⟩, henvelope, -⟩ := bind_eq_ok.1 hread
    exact Codec.not_decode_of_missesEntries hmissing henvelope
  · intro n rest hlt
    exact Layout.not_begins_of_lt Layout.length_share_ge hlt
  · intro n rest hlt
    exact Layout.not_begins_of_lt (fun hp => Nat.le_of_eq (Layout.length_state hp).symm) hlt

/-- A report that lists one consumer twice is read with the second share and is longer than what is
written for it; cut short or with the greatest count of shares it is refused. -/
theorem decode_repeated_consumer :
    let share (ms : UInt64) : Share := ⟨⟨ms⟩, .zero, none, .estimated, none, some 6⟩
    let scope : Scope := ⟨⟨8⟩, .nan, .measured⟩
    let e : Envelope := ⟨1, 7, .report ⟨.wifi, scope, scope, ⟨3⟩, .zero, .ofList [(⟨4⟩, share 2)]⟩⟩
    let head := Codec.uint32.encode 1 ++ (Codec.uint64.encode 7 ++ ((Codec.word 4).encode 1 ++
      (Codec.component.encode .wifi ++ (Codec.scope.encode scope ++ (Codec.scope.encode scope ++
        (Codec.duration.encode ⟨3⟩ ++ Codec.binary64.encode .zero))))))
    let p := head ++ ((Codec.list (Codec.consumer.pair Codec.share)).encode
      [(⟨4⟩, share 1), (⟨4⟩, share 2)])
    let greedy := head ++ ((Codec.word 8).encode (2 ^ 64 - 1) ++ Codec.share.encode (share 1))
    decode (p ++ [0]) = .ok e ∧ e.encode.length < p.length ∧ ¬ Layout.envelope .ascending p e ∧
      (∃ error, decode (p.take 90) = .error error) ∧ ∃ error, decode greedy = .error error := by
  intro share scope e head p greedy
  have hp : Layout.envelope .any p e := Codec.follows_envelope.layout_of_decode (by decide +kernel)
  have hshorter : e.encode.length < p.length := by decide +kernel
  obtain ⟨haccept, hwritten, -, -, hcut, hmissing, hfew, -⟩ := decode_accepts_layout
  refine ⟨(haccept _ e).2 ⟨p, List.prefix_append p [0], hp, rfl⟩, hshorter, ?_, ?_, ?_⟩
  · intro hasc
    have hsame := (hwritten p e hp).2.2 hasc
    rw [hsame] at hshorter
    exact Nat.lt_irrefl _ hshorter
  · exact hcut p _ e hp (List.take_prefix 90 p) (by decide +kernel)
  · have hhead : Layout.reportHead .any head (1, 7, .wifi, scope, scope, ⟨3⟩, .zero) :=
      ⟨_, _, rfl, Codec.follows_uint32.layout_encode .any 1,
        _, _, rfl, Codec.follows_uint64.layout_encode .any 7, _, _, rfl, ⟨rfl, rfl⟩,
        _, _, rfl, Codec.follows_component.layout_encode .any .wifi,
        _, _, rfl, Codec.follows_scope.layout_encode .any scope,
        _, _, rfl, Codec.follows_scope.layout_encode .any scope,
        _, _, rfl, Codec.follows_duration.layout_encode .any ⟨3⟩,
        Codec.follows_binary64.layout_encode .any .zero⟩
    have hcount : Layout.word 8 .any ((Codec.word 8).encode (2 ^ 64 - 1)) (2 ^ 64 - 1) :=
      ⟨rfl, by decide +kernel⟩
    exact hmissing greedy (.shares hhead hcount (hfew _ _ (by decide +kernel)))

end Envelope

end PowerShare
