import PowerShare.Proofs.Envelope.Acceptance

/-!
# Streams of envelopes

A stream is a row of frames, and `readEnvelopes` reads it frame by frame:

* `readEnvelopes_frame` -- a frame in front of other bytes is one envelope in front of theirs;
* `readEnvelopes_append` -- bytes that can be read may be followed by any others, which are read
  as if they stood alone;
* `readEnvelopes_cut` -- of a stream with perhaps a broken frame at its end, the bytes in front of
  a cut are either whole frames or refused as truncated.
-/

namespace PowerShare

namespace Envelope

/-! ## 1. Frames -/

/-- The frame of an envelope: its length and its bytes. -/
def frame (e : Envelope) : List UInt8 := littleEndian lengthWidth e.encode.length ++ e.encode

/-- Envelopes that can be read from their frame: they are of the current version, and their length
is one that a frame can say. -/
structure Framable (e : Envelope) : Prop where
  version_eq : e.version = currentVersion
  length_lt : e.encode.length < 2 ^ 32

/-- The frames of several envelopes. -/
def stream (es : List Envelope) : List UInt8 := es.flatMap frame

@[simp] theorem stream_nil : stream [] = [] := rfl

@[simp] theorem stream_cons (e : Envelope) (es : List Envelope) :
    stream (e :: es) = e.frame ++ stream es := rfl

theorem length_encode_pos (e : Envelope) : 0 < e.encode.length := by
  obtain ⟨p, q, heq, hp, -⟩ := Codec.follows_envelope.layout_encode .any e
  have hlength : p.length = 4 := hp.1
  change e.encode = p ++ q at heq
  rw [heq, List.length_append]
  omega

/-- The end of a stream whose last frame is not complete. -/
inductive Broken : List UInt8 → Prop where
  /-- Nothing of a frame is there. -/
  | nothing : Broken []
  /-- The length says more bytes than there are. -/
  | short {n : Nat} {body : List UInt8} (hn : n < 2 ^ 32) (hbody : body.length < n) :
      Broken (littleEndian lengthWidth n ++ body)

/-! ## 2. Reading frames -/

theorem readEnvelopes_nil : readEnvelopes [] = .ok [] := by
  rw [readEnvelopes]
  rfl

/-- A length and so many bytes are one envelope, and the bytes behind them are read on. -/
theorem readEnvelopes_length_append {head body : List UInt8} (hhead : head.length = lengthWidth)
    (hbody : ofLittleEndian head = body.length) (rest : List UInt8) :
    readEnvelopes (head ++ (body ++ rest)) = do
      let e ← decode body
      let es ← readEnvelopes rest
      return e :: es := by
  have hempty : (head ++ (body ++ rest)).isEmpty = false := by
    cases head with
    | nil => cases hhead
    | cons => rfl
  have hlong : ¬ (head ++ (body ++ rest)).length < lengthWidth := by
    rw [List.length_append, hhead]
    omega
  have htake : (head ++ (body ++ rest)).take lengthWidth = head := List.take_left' hhead
  have hdrop : (head ++ (body ++ rest)).drop lengthWidth = body ++ rest := List.drop_left' hhead
  have henough : ¬ (body ++ rest).length < body.length := by
    rw [List.length_append]
    omega
  rw [readEnvelopes]
  simp only [hempty, Bool.false_eq_true, if_false, hlong, dif_neg, not_false_eq_true, htake, hdrop,
    hbody, henough, List.take_left', List.drop_left']

theorem readEnvelopes_frame {e : Envelope} (he : e.Framable) (rest : List UInt8) :
    readEnvelopes (e.frame ++ rest) = (readEnvelopes rest).map (e :: ·) := by
  have hdecode : decode e.encode = .ok e := by
    have h := decode_append (Codec.follows_envelope.layout_encode .any e) []
    rw [List.append_nil, if_pos he.version_eq] at h
    exact h
  have hlength : ofLittleEndian (littleEndian lengthWidth e.encode.length) = e.encode.length :=
    ofLittleEndian_littleEndian he.length_lt
  rw [frame, List.append_assoc,
    readEnvelopes_length_append (length_littleEndian _ _) hlength, hdecode]
  cases readEnvelopes rest <;> rfl

/-- **Bytes that can be read may be followed by any others.** -/
theorem readEnvelopes_append {a : List UInt8} {es : List Envelope} (h : readEnvelopes a = .ok es)
    (b : List UInt8) : readEnvelopes (a ++ b) = (readEnvelopes b).map (es ++ ·) := by
  fun_induction readEnvelopes a generalizing es with
  | case1 a hempty =>
    cases h
    rw [List.isEmpty_iff.1 hempty, List.nil_append]
    cases readEnvelopes b <;> rfl
  | case2 => cases h
  | case3 => cases h
  | case4 a hempty hlong length rest henough =>
    rename_i ih
    obtain ⟨e, hdecode, hothers⟩ := bind_eq_ok.1 h
    obtain ⟨others, hread, hes⟩ := bind_eq_ok.1 hothers
    cases hes
    have hhead : (a.take lengthWidth).length = lengthWidth := by
      rw [List.length_take]
      omega
    have hbody : ofLittleEndian (a.take lengthWidth) = (rest.take length).length := by
      rw [List.length_take]
      omega
    have hsplit : a ++ b =
        a.take lengthWidth ++ (rest.take length ++ (rest.drop length ++ b)) := by
      rw [← List.append_assoc (rest.take length), List.take_append_drop, ← List.append_assoc,
        List.take_append_drop]
    rw [hsplit, readEnvelopes_length_append hhead hbody, hdecode, ih hread]
    cases readEnvelopes b <;> rfl

theorem readEnvelopes_stream {es : List Envelope} (hes : ∀ e ∈ es, e.Framable) :
    readEnvelopes (stream es) = .ok es := by
  induction es with
  | nil => exact readEnvelopes_nil
  | cons e es ih =>
    rw [stream_cons, readEnvelopes_frame (hes e List.mem_cons_self),
      ih fun f hf => hes f (List.mem_cons_of_mem e hf)]
    rfl

/-! ## 3. Cuts -/

/-- What is left of a frame that is cut anywhere behind its beginning. -/
theorem readEnvelopes_cut_frame {before after body : List UInt8} {n : Nat} (hn : n < 2 ^ 32)
    (hcut : before ++ after = littleEndian lengthWidth n ++ body) (hbefore : before ≠ [])
    (hshort : before.length < lengthWidth + n) :
    readEnvelopes before =
      .error (if before.length < lengthWidth then .truncatedLength else .truncatedBody) := by
  have hempty : before.isEmpty = false := by simpa using hbefore
  rw [readEnvelopes]
  simp only [hempty, Bool.false_eq_true, if_false]
  by_cases hlength : before.length < lengthWidth
  · simp only [hlength, dif_pos, if_true]
  · have htake : before.take lengthWidth = littleEndian lengthWidth n := by
      have h := congrArg (List.take lengthWidth) hcut
      rw [List.take_append_of_le_length (Nat.le_of_not_lt hlength),
        List.take_left' (length_littleEndian _ _)] at h
      exact h
    have hsaid : ofLittleEndian (littleEndian lengthWidth n) = n := ofLittleEndian_littleEndian hn
    have hless : before.length - lengthWidth < n := by omega
    simp only [hlength, dif_neg, not_false_eq_true, if_false, htake, hsaid, List.length_drop,
      hless, if_true]

/-- The bytes are refused because they end inside a frame. -/
def Truncated (bytes : List UInt8) : Prop :=
  readEnvelopes bytes = .error .truncatedLength ∨ readEnvelopes bytes = .error .truncatedBody

theorem truncated_of_cut_frame {before after body : List UInt8} {n : Nat} (hn : n < 2 ^ 32)
    (hcut : before ++ after = littleEndian lengthWidth n ++ body) (hbefore : before ≠ [])
    (hshort : before.length < lengthWidth + n) : Truncated before := by
  unfold Truncated
  rw [readEnvelopes_cut_frame hn hcut hbefore hshort]
  by_cases hlength : before.length < lengthWidth
  · exact .inl (by rw [if_pos hlength])
  · exact .inr (by rw [if_neg hlength])

theorem Truncated.frame_append {e : Envelope} (he : e.Framable) {bytes : List UInt8}
    (h : Truncated bytes) : Truncated (e.frame ++ bytes) := by
  unfold Truncated
  rw [readEnvelopes_frame he]
  rcases h with h | h
  · exact .inl (by rw [h]; rfl)
  · exact .inr (by rw [h]; rfl)

/-- **In front of a cut through a stream stand whole frames, or bytes that are refused.** -/
theorem readEnvelopes_cut {es : List Envelope} (hes : ∀ e ∈ es, e.Framable)
    {tail before after : List UInt8} (htail : Broken tail)
    (hcut : before ++ after = stream es ++ tail) :
    (∃ got, got <+: es ∧ before = stream got) ∨ Truncated before := by
  induction es generalizing before with
  | nil =>
    by_cases hbefore : before = []
    · exact .inl ⟨[], List.prefix_refl [], hbefore⟩
    · refine .inr ?_
      rw [stream_nil, List.nil_append] at hcut
      cases htail with
      | nothing => exact absurd (List.append_eq_nil_iff.1 hcut).1 hbefore
      | @short n body hn hbody =>
        refine truncated_of_cut_frame hn hcut hbefore ?_
        have hlength := congrArg List.length hcut
        simp only [List.length_append, length_littleEndian] at hlength
        omega
  | cons e es ih =>
    have he : e.Framable := hes e List.mem_cons_self
    rw [stream_cons, List.append_assoc] at hcut
    rcases List.append_eq_append_iff.1 hcut with ⟨c, hframe, -⟩ | ⟨c, hbefore, hrest⟩
    · by_cases hnil : before = []
      · exact .inl ⟨[], List.nil_prefix, hnil⟩
      · by_cases hc : c = []
        · refine .inl ⟨[e], by simp, ?_⟩
          rw [stream_cons, stream_nil, hframe, hc]
          simp
        · refine .inr (truncated_of_cut_frame he.length_lt hframe.symm hnil ?_)
          have hlength := congrArg List.length hframe
          have hpos := List.length_pos_of_ne_nil hc
          simp only [frame, List.length_append, length_littleEndian] at hlength
          omega
    · have hothers : ∀ f ∈ es, f.Framable := fun f hf => hes f (List.mem_cons_of_mem e hf)
      rw [hbefore]
      rcases ih hothers hrest.symm with ⟨got, hgot, hc⟩ | hc
      · exact .inl ⟨e :: got, List.cons_prefix_cons.2 ⟨rfl, hgot⟩, by rw [hc, stream_cons]⟩
      · exact .inr (hc.frame_append he)

/-- **The bytes in front of a cut are read just where the cut lies between two frames, and then as
the envelopes in front of it.** -/
theorem readEnvelopes_cut_iff {es : List Envelope} (hes : ∀ e ∈ es, e.Framable)
    {tail before after : List UInt8} (htail : Broken tail)
    (hcut : before ++ after = stream es ++ tail) (got : List Envelope) :
    readEnvelopes before = .ok got ↔ got <+: es ∧ before = stream got := by
  constructor
  · intro hread
    rcases readEnvelopes_cut hes htail hcut with ⟨got', hgot, hbefore⟩ | htruncated
    · rw [hbefore, readEnvelopes_stream fun e he => hes e (hgot.subset he)] at hread
      cases hread
      exact ⟨hgot, hbefore⟩
    · rcases htruncated with h | h
      · rw [h] at hread
        cases hread
      · rw [h] at hread
        cases hread
  · intro ⟨hgot, hbefore⟩
    rw [hbefore]
    exact readEnvelopes_stream fun e he => hes e (hgot.subset he)

end Envelope

end PowerShare
