import PowerShare.Proofs.Envelope.Stream
import PowerShare.Sink

/-!
# What a sink of frames has written

A sink is given outcomes one after another (`EnvelopeStream.offerAll`), and the reports it accepts
are written as frames:

* `accept_cases` -- everything that one outcome can do to a sink; outcomes one after another are a
  `Run` of such steps (`run_offerAll`);
* `Run.bytes_eq` -- after any outcomes, the bytes are those of before and the frames of the
  accepted reports, numbered on from the sink's number; only the frame of a failed last write may
  be broken;
* `readEnvelopes_offerAll` -- reading gives back exactly the accepted reports, numbered from one
  without a gap;
* `readEnvelopes_append_and_cut` -- readable bytes may be followed by others, and the bytes in
  front of a cut are read just where it lies between two frames.
-/

namespace PowerShare

open Envelope

/-! ## 1. One outcome -/

/-- A write stores all of the bytes, or it fails because the buffer has a limit. -/
theorem Buffer.write?_cases (b : Buffer) (bytes : List UInt8) :
    b.write? bytes = some { b with bytes := b.bytes ++ bytes } ∨
      (b.limit? ≠ none ∧ b.write? bytes = none) := by
  unfold write?
  split
  · exact .inl rfl
  · rename_i hfull
    refine .inr ⟨fun hnone => hfull ?_, rfl⟩
    rw [hnone]
    rfl

/-- The bytes that the envelope of a report takes. -/
def Report.size (r : Report) : Nat := (wrap 1 (.report r)).encode.length

/-- The number of an envelope does not change how many bytes it takes. -/
theorem length_encode_wrap (n : UInt64) (r : Report) :
    (wrap n (.report r)).encode.length = r.size := by
  show (Codec.uint32.encode 1 ++ (Codec.uint64.encode n ++ Codec.outcome.encode (.report r))).length =
    (Codec.uint32.encode 1 ++ (Codec.uint64.encode 1 ++ Codec.outcome.encode (.report r))).length
  simp only [Codec.uint64, Codec.map, Codec.word, List.length_append, length_littleEndian]

/-- Every share of a report takes some of its bytes. -/
theorem Report.mul_shares_le_size (r : Report) : 27 * r.shares.size ≤ r.size := by
  obtain ⟨version, _, hversion, -, sequence, _, rfl, -, houtcome⟩ :=
    Codec.follows_envelope.layout_encode .any (wrap 1 (.report r))
  obtain ⟨alternative, _, rfl, -, component, _, rfl, -, device, _, rfl, -, tracked, _, rfl, -,
    duration, _, rfl, -, charge, _, rfl, -, count, body, entries, rfl, -, hrow, -, hholds⟩ :=
      houtcome
  have hbody : 27 * entries.length ≤ body.length :=
    Layout.mul_length_le_of_row Layout.length_share_ge hrow
  have hentries : r.shares.size ≤ entries.length := by
    have hsum := SortedMap.sum_ofList_le (fun _ => 1) entries
    rw [SortedMap.ofList_eq_iff.2 hholds] at hsum
    simpa [SortedMap.size] using hsum
  have hsize : body.length ≤ r.size := by
    unfold size encode
    rw [hversion]
    simp only [List.length_append]
    omega
  calc 27 * r.shares.size ≤ 27 * entries.length := Nat.mul_le_mul_left 27 hentries
    _ ≤ body.length := hbody
    _ ≤ r.size := hsize

/-- What a sink without a limit answers to an outcome. -/
def Outcome.refusal? : Outcome → Option SinkError
  | .unsupported _ => none
  | .report r => if 2 ^ 32 ≤ r.size then some .envelopeTooLarge else none

theorem Outcome.refusal?_ne_bufferFull (o : Outcome) : o.refusal? ≠ some .bufferFull := by
  cases o with
  | unsupported c => simp [refusal?]
  | report r =>
    unfold refusal?
    split
    · simp
    · simp

namespace EnvelopeStream

/-- The sink after more bytes were written. -/
def extended (s : EnvelopeStream) (bytes : List UInt8) : EnvelopeStream :=
  { s with buffer.bytes := s.buffer.bytes ++ bytes }

/-- The sink after an envelope was written. -/
def after (s : EnvelopeStream) (e : Envelope) : EnvelopeStream :=
  { s.extended e.frame with next := s.next + 1 }

/-- **Everything that an outcome can do to a sink.** Nothing, if it is no report or one that is too
large; else its envelope is written, or a write fails and leaves at most the length behind. -/
theorem accept_cases (s : EnvelopeStream) (o : Outcome) :
    (∃ c, o = .unsupported c ∧ s.accept o = (s, none)) ∨
    (∃ r, o = .report r ∧ 2 ^ 32 ≤ r.size ∧ s.accept o = (s, some .envelopeTooLarge)) ∨
    (∃ r, o = .report r ∧ r.size < 2 ^ 32 ∧
      s.accept o = (s.after (wrap s.next (.report r)), none)) ∨
    ∃ tail, Broken tail ∧ s.buffer.limit? ≠ none ∧
      s.accept o = (s.extended tail, some .bufferFull) := by
  cases o with
  | unsupported c => exact .inl ⟨c, rfl, rfl⟩
  | report r =>
    have hsize : (wrap s.next (.report r)).encode.length = r.size := length_encode_wrap s.next r
    by_cases hlarge : 2 ^ 32 ≤ r.size
    · refine .inr (.inl ⟨r, rfl, hlarge, ?_⟩)
      simp only [accept, hsize, hlarge, if_true]
    · have hsmall : r.size < 2 ^ 32 := Nat.lt_of_not_le hlarge
      have hpos : 0 < r.size := length_encode_pos _
      simp only [accept, hsize, hlarge, if_false]
      rcases s.buffer.write?_cases (littleEndian lengthWidth r.size) with hhead | ⟨hlimit, hhead⟩
      · rw [hhead]
        simp only
        rcases Buffer.write?_cases { s.buffer with
            bytes := s.buffer.bytes ++ littleEndian lengthWidth r.size }
          (wrap s.next (.report r)).encode with hbody | ⟨hlimit, hbody⟩
        · refine .inr (.inr (.inl ⟨r, rfl, hsmall, ?_⟩))
          rw [hbody]
          simp only [after, extended, frame, hsize, List.append_assoc]
        · refine .inr (.inr (.inr ⟨littleEndian lengthWidth r.size ++ [], .short hsmall hpos,
            hlimit, ?_⟩))
          rw [hbody, List.append_nil]
          rfl
      · refine .inr (.inr (.inr ⟨[], .nothing, hlimit, ?_⟩))
        rw [hhead]
        simp only [extended, List.append_nil]

/-! ## 2. Outcomes one after another -/

/-- Gives the outcomes to the sink one after another, whatever it answers, and lists the answers. -/
def offerAll (s : EnvelopeStream) : List Outcome → EnvelopeStream × List (Option SinkError)
  | [] => (s, [])
  | o :: rest =>
    let next := s.accept o
    let last := offerAll next.1 rest
    (last.1, next.2 :: last.2)

/-- The reports among the outcomes to which the sink answered without an error. -/
def accepted (os : List Outcome) (answers : List (Option SinkError)) : List Report :=
  (os.zip answers).filterMap fun (o, answer) => if answer.isNone then o.report? else none

/-- Envelopes of the reports, numbered on from the given number. -/
def numbered (n : UInt64) : List Report → List Envelope
  | [] => []
  | r :: rest => wrap n (.report r) :: numbered (n + 1) rest

theorem length_accepted_le (os : List Outcome) (answers : List (Option SinkError)) :
    (accepted os answers).length ≤ os.length := by
  refine Nat.le_trans (List.length_filterMap_le _ _) ?_
  rw [List.length_zip]
  exact Nat.min_le_left _ _

theorem map_outcome_numbered (n : UInt64) (rs : List Report) :
    (numbered n rs).map (·.outcome) = rs.map .report := by
  induction rs generalizing n with
  | nil => rfl
  | cons r rs ih =>
    simp only [numbered, List.map_cons, ih]
    rfl

theorem map_version_numbered (n : UInt64) (rs : List Report) :
    (numbered n rs).map (·.version) = List.replicate rs.length 1 := by
  induction rs generalizing n with
  | nil => rfl
  | cons r rs ih =>
    simp only [numbered, List.map_cons, ih, List.length_cons, List.replicate_succ]
    rfl

/-- As long as there are numbers, no two envelopes have the same and none is left out. -/
theorem map_sequence_numbered {n : UInt64} {rs : List Report}
    (h : n.toNat + rs.length ≤ 2 ^ 64) :
    (numbered n rs).map (·.sequence.toNat) = List.range' n.toNat rs.length := by
  induction rs generalizing n with
  | nil => rfl
  | cons r rs ih =>
    rw [List.length_cons] at h
    rw [numbered, List.map_cons, List.length_cons, List.range'_succ]
    cases rs with
    | nil => rfl
    | cons r' rs =>
      have hnext : (n + 1).toNat = n.toNat + 1 := by
        rw [List.length_cons] at h
        rw [UInt64.toNat_add, UInt64.toNat_one, Nat.mod_eq_of_lt (by omega)]
      rw [ih (by omega), hnext]
      rfl

theorem framable_of_mem_numbered {n : UInt64} {rs : List Report}
    (h : ∀ r ∈ rs, r.size < 2 ^ 32) : ∀ e ∈ numbered n rs, e.Framable := by
  induction rs generalizing n with
  | nil => exact fun e he => absurd he List.not_mem_nil
  | cons r rs ih =>
    intro e he
    rcases List.mem_cons.1 he with rfl | he
    · refine ⟨rfl, ?_⟩
      rw [length_encode_wrap]
      exact h r List.mem_cons_self
    · exact ih (fun r' hr' => h r' (List.mem_cons_of_mem r hr')) e he

/-! ## 3. What was written -/

/-- What can happen while a sink is given outcomes one after another: the sink before, the outcomes,
the sink after them, and its answers. -/
inductive Run : EnvelopeStream → List Outcome → EnvelopeStream → List (Option SinkError) → Prop where
  | done (s : EnvelopeStream) : Run s [] s []
  | skipped {s last os answers} (c : Component) (h : Run s os last answers) :
      Run s (.unsupported c :: os) last (none :: answers)
  | refused {s last os answers} (r : Report) (large : 2 ^ 32 ≤ r.size) (h : Run s os last answers) :
      Run s (.report r :: os) last (some .envelopeTooLarge :: answers)
  | written {s last os answers} (r : Report) (small : r.size < 2 ^ 32)
      (h : Run (s.after (wrap s.next (.report r))) os last answers) :
      Run s (.report r :: os) last (none :: answers)
  | failed {s last os answers} (o : Outcome) {tail : List UInt8} (broken : Broken tail)
      (limited : s.buffer.limit? ≠ none) (h : Run (s.extended tail) os last answers) :
      Run s (o :: os) last (some .bufferFull :: answers)

/-- Giving a sink outcomes one after another is such a run. -/
theorem run_offerAll (s : EnvelopeStream) (os : List Outcome) :
    Run s os (s.offerAll os).1 (s.offerAll os).2 := by
  induction os generalizing s with
  | nil => exact .done s
  | cons o os ih =>
    have h := ih (s.accept o).1
    show Run s (o :: os) ((s.accept o).1.offerAll os).1
      ((s.accept o).2 :: ((s.accept o).1.offerAll os).2)
    rcases s.accept_cases o with ⟨c, ho, haccept⟩ | ⟨r, ho, hlarge, haccept⟩ |
      ⟨r, ho, hsmall, haccept⟩ | ⟨tail, hbroken, hlimited, haccept⟩
    · rw [haccept] at h ⊢
      rw [ho]
      exact .skipped c h
    · rw [haccept] at h ⊢
      rw [ho]
      exact .refused r hlarge h
    · rw [haccept] at h ⊢
      rw [ho]
      exact .written r hsmall h
    · rw [haccept] at h ⊢
      exact .failed o hbroken hlimited h

namespace Run

variable {s last : EnvelopeStream} {os : List Outcome} {answers : List (Option SinkError)}

/-- Only reports that fit into a frame are accepted. -/
theorem size_lt (h : Run s os last answers) : ∀ r ∈ accepted os answers, r.size < 2 ^ 32 := by
  induction h with
  | done => exact fun r hr => absurd hr List.not_mem_nil
  | skipped c _ ih => exact ih
  | refused r _ _ ih => exact ih
  | failed o _ _ _ ih => exact ih
  | written r small _ ih =>
    intro r' hr'
    rcases List.mem_cons.1 hr' with rfl | hr'
    · exact small
    · exact ih r' hr'

/-- The number of a sink grows with every report it accepts, and only then. -/
theorem next_eq (h : Run s os last answers) :
    last.next = s.next + UInt64.ofNat (accepted os answers).length := by
  induction h with
  | done s => exact (UInt64.add_zero s.next).symm
  | skipped c _ ih => exact ih
  | refused r _ _ ih => exact ih
  | failed o _ _ _ ih => exact ih
  | @written s last os answers r _ _ ih =>
    show last.next = s.next + UInt64.ofNat ((accepted os answers).length + 1)
    change last.next = s.next + 1 + UInt64.ofNat (accepted os answers).length at ih
    rw [ih, UInt64.ofNat_add, UInt64.add_assoc, UInt64.add_comm 1]
    rfl

/-- Without a limit, a sink refuses only what is too large for a frame. -/
theorem answers_eq (h : Run s os last answers) (hlimit : s.buffer.limit? = none) :
    answers = os.map Outcome.refusal? := by
  induction h with
  | done => rfl
  | skipped c _ ih => exact congrArg _ (ih hlimit)
  | refused r large _ ih =>
    rw [List.map_cons, ih hlimit, Outcome.refusal?, if_pos large]
  | written r small _ ih =>
    rw [List.map_cons, ih hlimit, Outcome.refusal?, if_neg (Nat.not_le_of_lt small)]
  | failed o _ limited _ _ => exact absurd hlimit limited

theorem answers_ne_bufferFull (h : Run s os last answers) (hlimit : s.buffer.limit? = none) :
    ∀ a ∈ answers, a ≠ some .bufferFull := by
  rw [h.answers_eq hlimit]
  intro a ha
  obtain ⟨o, -, rfl⟩ := List.mem_map.1 ha
  exact o.refusal?_ne_bufferFull

theorem of_no_answers (h : Run s os last []) : os = [] ∧ last = s := by
  cases h
  exact ⟨rfl, rfl⟩

/-- No write failed, except perhaps one for the last outcome. -/
def Unfailing (answers : List (Option SinkError)) : Prop :=
  ∀ a ∈ answers.dropLast, a ≠ some .bufferFull

theorem Unfailing.tail {a : Option SinkError} (h : Unfailing (a :: answers)) :
    Unfailing answers := by
  intro b hb
  cases answers with
  | nil => exact absurd hb List.not_mem_nil
  | cons c answers => exact h b (List.mem_cons_of_mem a hb)

/-- **The bytes after a run are those of before and the frames of the accepted reports,** numbered
on. Behind them stands the beginning of a frame only if the last write failed. -/
theorem bytes_eq (h : Run s os last answers) (hanswers : Unfailing answers) :
    ∃ tail, Broken tail ∧ ((∀ a ∈ answers, a ≠ some .bufferFull) → tail = []) ∧
      last.buffer.bytes =
        s.buffer.bytes ++ (stream (numbered s.next (accepted os answers)) ++ tail) := by
  induction h with
  | done s => exact ⟨[], .nothing, fun _ => rfl, (List.append_nil s.buffer.bytes).symm⟩
  | @skipped s last os answers c _ ih =>
    obtain ⟨tail, hbroken, hnothing, hbytes⟩ := ih hanswers.tail
    exact ⟨tail, hbroken, fun hall => hnothing fun a ha => hall a (List.mem_cons_of_mem _ ha), hbytes⟩
  | refused r _ _ ih =>
    obtain ⟨tail, hbroken, hnothing, hbytes⟩ := ih hanswers.tail
    exact ⟨tail, hbroken, fun hall => hnothing fun a ha => hall a (List.mem_cons_of_mem _ ha), hbytes⟩
  | @written s last os answers r _ _ ih =>
    obtain ⟨tail, hbroken, hnothing, hbytes⟩ := ih hanswers.tail
    refine ⟨tail, hbroken, fun hall => hnothing fun a ha => hall a (List.mem_cons_of_mem _ ha), ?_⟩
    show last.buffer.bytes = s.buffer.bytes ++
      ((wrap s.next (.report r)).frame ++ stream (numbered (s.next + 1) (accepted os answers)) ++ tail)
    rw [hbytes]
    simp only [after, extended, List.append_assoc]
  | @failed s last os answers o tail broken _ h _ =>
    have hnone : answers = [] := by
      cases answers with
      | nil => rfl
      | cons a answers => exact absurd rfl (hanswers _ List.mem_cons_self)
    rw [hnone] at h ⊢
    obtain ⟨rfl, rfl⟩ := h.of_no_answers
    exact ⟨tail, broken, fun hall => absurd rfl (hall _ List.mem_cons_self), rfl⟩

end Run

/-! ## 4. What is read back -/

/-- An outcome that is not written changes nothing. -/
theorem accept_eq_self {s : EnvelopeStream} {o : Outcome}
    (h : (∃ c, o = .unsupported c) ∨ (s.accept o).2 = some .envelopeTooLarge) :
    (s.accept o).1 = s := by
  rcases s.accept_cases o with ⟨c, -, ho⟩ | ⟨r, -, -, ho⟩ | ⟨r, hr, -, ho⟩ | ⟨tail, -, -, ho⟩
  · rw [ho]
  · rw [ho]
  · rcases h with ⟨c, hc⟩ | h
    · rw [hc] at hr
      cases hr
    · rw [ho] at h
      cases h
  · rcases h with ⟨c, hc⟩ | h
    · rw [hc] at ho
      have hanswer : none = some SinkError.bufferFull := congrArg Prod.snd ho
      cases hanswer
    · rw [ho] at h
      cases h

/-- **What a sink without a limit has written is read back as exactly the accepted reports, in
their order, under version `1` and the numbers from one on.** Refused are only reports that are too
large for a frame; neither they nor outcomes without a report change the sink. -/
theorem readEnvelopes_offerAll (os : List Outcome) (h : os.length < 2 ^ 64) :
    let run := ({} : EnvelopeStream).offerAll os
    let reports := accepted os run.2
    (∃ es, readEnvelopes run.1.buffer.bytes = .ok es ∧
      es.map (·.outcome) = reports.map .report ∧
      es.map (·.version) = List.replicate reports.length 1 ∧
      es.map (·.sequence.toNat) = List.range' 1 reports.length) ∧
    run.2 = os.map Outcome.refusal? ∧
    run.1.next = 1 + UInt64.ofNat reports.length ∧
    ∀ (s : EnvelopeStream) (o : Outcome),
      (∃ c, o = .unsupported c) ∨ (s.accept o).2 = some .envelopeTooLarge → (s.accept o).1 = s := by
  intro run reports
  have hrun : Run {} os run.1 run.2 := run_offerAll {} os
  have hanswers : run.2 = os.map Outcome.refusal? := hrun.answers_eq rfl
  have hroom : ∀ a ∈ run.2, a ≠ some .bufferFull := hrun.answers_ne_bufferFull rfl
  have hbytes : run.1.buffer.bytes = stream (numbered 1 reports) := by
    obtain ⟨tail, -, hnothing, hbytes⟩ := hrun.bytes_eq fun a ha => hroom a (List.dropLast_subset _ ha)
    rw [hnothing hroom] at hbytes
    rw [hbytes]
    simp [reports]
  have hcount : reports.length ≤ os.length := length_accepted_le os run.2
  refine ⟨⟨numbered 1 reports, ?_, map_outcome_numbered 1 reports, map_version_numbered 1 reports,
    map_sequence_numbered ?_⟩, hanswers, hrun.next_eq, fun s o => accept_eq_self⟩
  · rw [hbytes]
    exact readEnvelopes_stream (framable_of_mem_numbered hrun.size_lt)
  · rw [UInt64.toNat_one]
    omega

/-- Two reports with an unsupported component between them are written under the numbers 1 and 2. -/
theorem readEnvelopes_two_reports :
    let scope : Scope := ⟨⟨8⟩, .nan, .measured⟩
    let first : Report := ⟨.wifi, scope, scope, ⟨3⟩, .zero, .ofList []⟩
    let share : Share := ⟨⟨5⟩, .invalid, some (.ofList [(⟨⟨9⟩, .cached⟩, .nan)]), .reported, none, some 6⟩
    let second : Report := ⟨.modem, scope, scope, ⟨3⟩, .invalid, .ofList [(⟨4⟩, share)]⟩
    let os : List Outcome := [.report first, .unsupported .bluetooth, .report second]
    os.length < 2 ^ 64 ∧
      ∃ es, readEnvelopes (({} : EnvelopeStream).offerAll os).1.buffer.bytes = .ok es ∧
        es.map (·.outcome) = [.report first, .report second] ∧
        es.map (·.sequence.toNat) = [1, 2] := by
  intro scope first share second os
  have hlength : os.length < 2 ^ 64 := by decide
  have haccepted : accepted os (({} : EnvelopeStream).offerAll os).2 = [first, second] := by
    decide +kernel
  obtain ⟨⟨es, hread, houtcomes, -, hnumbers⟩, -⟩ := readEnvelopes_offerAll os hlength
  rw [haccepted] at houtcomes hnumbers
  exact ⟨hlength, es, hread, houtcomes, hnumbers⟩

/-- **Readable bytes may be followed by any others; and what a sink has written is read up to a cut
just where the cut lies between two frames, and then as the envelopes in front of it.** The sink's
buffer may have a limit, as long as no write failed before the last one. -/
theorem readEnvelopes_append_and_cut :
    (∀ a b es, readEnvelopes a = .ok es →
      readEnvelopes (a ++ b) = (readEnvelopes b).map (es ++ ·)) ∧
    ∀ (limit? : Option Nat) (os : List Outcome),
      let run := EnvelopeStream.offerAll { buffer := ⟨[], limit?⟩ } os
      let es := numbered 1 (accepted os run.2)
      limit? = none ∨ Run.Unfailing run.2 →
      ((∀ a ∈ run.2, a ≠ some .bufferFull) → run.1.buffer.bytes = stream es) ∧
      ∀ before after, before ++ after = run.1.buffer.bytes →
        (∀ got, readEnvelopes before = .ok got ↔ got <+: es ∧ before = stream got) ∧
        ((¬ ∃ got, got <+: es ∧ before = stream got) → Truncated before) := by
  refine ⟨fun a b es h => readEnvelopes_append h b, ?_⟩
  intro limit? os run es hroom
  have hrun : Run { buffer := ⟨[], limit?⟩ } os run.1 run.2 := run_offerAll _ os
  have hes : ∀ e ∈ es, e.Framable := framable_of_mem_numbered hrun.size_lt
  have hanswers : Run.Unfailing run.2 := by
    rcases hroom with hlimit | hanswers
    · exact fun a ha => hrun.answers_ne_bufferFull hlimit a (List.dropLast_subset _ ha)
    · exact hanswers
  obtain ⟨tail, hbroken, hnothing, hbytes⟩ := hrun.bytes_eq hanswers
  simp only [List.nil_append] at hbytes
  constructor
  · intro hall
    rw [hbytes, hnothing hall, List.append_nil]
  · intro before after hcut
    rw [hbytes] at hcut
    refine ⟨readEnvelopes_cut_iff hes hbroken hcut, fun hnone => ?_⟩
    exact (readEnvelopes_cut hes hbroken hcut).resolve_left hnone

/-- Into a buffer of 100 bytes goes one frame of 88 bytes and the length of a second one. Up to byte
88 the first envelope is read; up to byte 90 the bytes are truncated. -/
theorem readEnvelopes_full_buffer :
    let scope : Scope := ⟨⟨8⟩, .nan, .measured⟩
    let r : Report := ⟨.wifi, scope, scope, ⟨3⟩, .zero, .ofList []⟩
    let run := EnvelopeStream.offerAll { buffer := ⟨[], some 100⟩ } [.report r, .report r]
    Run.Unfailing run.2 ∧ run.1.buffer.bytes.length = 92 ∧
      readEnvelopes (run.1.buffer.bytes.take 88) = .ok [wrap 1 (.report r)] ∧
      readEnvelopes (run.1.buffer.bytes.take 88 ++ run.1.buffer.bytes.take 88) =
        .ok [wrap 1 (.report r), wrap 1 (.report r)] ∧
      Truncated (run.1.buffer.bytes.take 90) := by
  intro scope r run
  obtain ⟨happend, hcuts⟩ := readEnvelopes_append_and_cut
  have hcuts := hcuts (some 100) [.report r, .report r]
  have hunfailing : Run.Unfailing run.2 := by
    unfold Run.Unfailing
    decide +kernel
  have hes : numbered 1 (accepted [.report r, .report r] run.2) = [wrap 1 (.report r)] := by
    decide +kernel
  have hlength : run.1.buffer.bytes.length = 92 := by decide +kernel
  have hframe : run.1.buffer.bytes.take 88 = stream [wrap 1 (.report r)] := by decide +kernel
  have hsize : (stream [wrap 1 (.report r)]).length = 88 := by decide +kernel
  -- From here on the run is any that has these properties.
  generalize hrun : EnvelopeStream.offerAll _ _ = ran at hcuts
  have hsame : run = ran := hrun
  clear_value run
  rw [← hsame] at hcuts
  have hcut (n : Nat) := (hcuts (.inr hunfailing)).2 _ _ (List.take_append_drop n _)
  have hfirst : readEnvelopes (run.1.buffer.bytes.take 88) = .ok [wrap 1 (.report r)] := by
    refine ((hcut 88).1 _).2 ?_
    rw [hes]
    exact ⟨List.prefix_refl _, hframe⟩
  refine ⟨hunfailing, hlength, hfirst, ?_, ?_⟩
  · rw [happend _ _ _ hfirst, hfirst]
    rfl
  · refine (hcut 90).2 ?_
    intro ⟨got, hgot, hbefore⟩
    rw [hes] at hgot
    have hninety : (stream got).length = 90 := by
      rw [← hbefore, List.length_take, hlength]
      rfl
    -- Whole frames have a length of 0 or 88 here.
    rcases List.prefix_cons_iff.1 hgot with hnil | ⟨rest, hcons, hrest⟩
    · rw [hnil] at hninety
      cases hninety
    · rw [List.prefix_nil.1 hrest] at hcons
      rw [hcons, hsize] at hninety
      cases hninety

end EnvelopeStream

end PowerShare
