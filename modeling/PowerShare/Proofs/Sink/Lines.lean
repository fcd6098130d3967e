import Mathlib.Data.List.Forall2
import Mathlib.Data.List.TakeWhile
import PowerShare.Proofs.Json.Line
import PowerShare.Proofs.Report.Ranking
import PowerShare.Proofs.Sink

/-!
# A sink of lines beside a sink of frames

The same outcomes may be written as lines of JSON and as frames. Both sinks write just the reports
among them, one line or one frame each:

* `splitOn_lines` -- bytes that were written as lines are split into these lines again;
* `JsonLines.accept_cases` -- everything that one outcome can do to a sink of lines, and
  `JsonLines.eq_extended`: so its bytes are the lines of the reports it was given, and it counts
  them;
* `EnvelopeStream.acceptAll_framed` -- a run stops at the first report that is too large for a frame,
  and those in front of it are read back (`EnvelopeStream.readEnvelopes_acceptAll`);
* `lines_match_envelopes` -- so line by line, the one sink says what is read back from the other.
-/

namespace PowerShare

open Json

/-! ## 1. Lines -/

/-- **Lines, each ended by one mark and with none inside, are split into these lines again.** -/
theorem splitOn_lines {lines : List (List UInt8)} (h : ∀ line ∈ lines, lineEnd ∉ line) :
    (lines.flatMap (· ++ [lineEnd])).splitOn lineEnd = lines ++ [[]] := by
  induction lines with
  | nil => rfl
  | cons line rest ih =>
    rw [List.flatMap_cons, List.append_assoc, List.singleton_append,
      List.splitOn_append_cons_self_of_not_mem (h line List.mem_cons_self),
      ih fun line' hline' => h line' (List.mem_cons_of_mem line hline')]
    rfl

/-- The reports among the outcomes. -/
def Outcome.reports (os : List Outcome) : List Report := os.filterMap report?

theorem Outcome.mem_reports {os : List Outcome} {r : Report} : r ∈ reports os ↔ .report r ∈ os := by
  unfold reports
  rw [List.mem_filterMap]
  constructor
  · rintro ⟨o, ho, hr⟩
    cases o with
    | unsupported c => cases hr
    | report r' => exact Option.some.inj hr ▸ ho
  · exact fun ho => ⟨.report r, ho, rfl⟩

theorem Outcome.countP_report? (os : List Outcome) :
    os.countP (·.report?.isSome) = (reports os).length :=
  List.length_filterMap_eq_countP.symm

namespace Report

/-- The line that a report is written on, without its end. -/
def line (r : Report) : List UInt8 := utf8 r.document.compact

theorem line_ne_nil (r : Report) : r.line ≠ [] := by
  unfold line document Document.compact
  exact List.cons_ne_nil _ _

theorem lineEnd_not_mem_line (r : Report) : lineEnd ∉ r.line :=
  r.document.lineEnd_not_mem_compact

theorem utf8_compact_append (r : Report) :
    utf8 (r.document.compact ++ ['\n']) = r.line ++ [lineEnd] := by
  rw [utf8_append]
  rfl

end Report

/-! ## 2. A sink of lines -/

namespace JsonLines

/-- The sink after lines were written for the reports. -/
def extended (s : JsonLines) (rs : List Report) : JsonLines :=
  { buffer := { s.buffer with bytes := s.buffer.bytes ++ rs.flatMap (·.line ++ [lineEnd]) }
    written := s.written + rs.length }

theorem extended_nil (s : JsonLines) : s.extended [] = s := by
  unfold extended
  rw [List.flatMap_nil, List.append_nil]
  rfl

theorem extended_append (s : JsonLines) (rs rs' : List Report) :
    (s.extended rs).extended rs' = s.extended (rs ++ rs') := by
  unfold extended
  simp only [List.flatMap_append, List.append_assoc, List.length_append, Nat.add_assoc]

/-- **Everything that an outcome can do to a sink of lines.** Nothing, if it is no report; else its
line is written, or the buffer is full. -/
theorem accept_cases (s : JsonLines) (o : Outcome) :
    (∃ c, o = .unsupported c ∧ s.accept o = .ok s) ∨
    (∃ r, o = .report r ∧ s.accept o = .ok (s.extended [r])) ∨
    (s.buffer.limit? ≠ none ∧ s.accept o = .error .jsonBufferFull) := by
  cases o with
  | unsupported c => exact .inl ⟨c, rfl, rfl⟩
  | report r =>
    rcases s.buffer.write?_cases (r.line ++ [lineEnd]) with hwrite | ⟨hlimit, hwrite⟩
    · refine .inr (.inl ⟨r, rfl, ?_⟩)
      simp only [accept, r.utf8_compact_append, hwrite, extended, List.flatMap_singleton]
      rfl
    · refine .inr (.inr ⟨hlimit, ?_⟩)
      simp only [accept, r.utf8_compact_append, hwrite]

/-- **After a run, a sink holds the lines of just the reports it was given, and has counted them.** -/
theorem eq_extended {s last : JsonLines} {os : List Outcome} (h : s.acceptAll os = .ok last) :
    last = s.extended (Outcome.reports os) := by
  -- On the outcomes, for whatever sink the first of them leaves.
  induction os generalizing s with
  | nil =>
    rw [← Except.ok.inj h]
    exact s.extended_nil.symm
  | cons o os ih =>
    unfold acceptAll at h
    rw [List.foldlM_cons] at h
    rcases s.accept_cases o with ⟨c, rfl, haccept⟩ | ⟨r, rfl, haccept⟩ | ⟨-, haccept⟩
    · rw [haccept] at h
      exact ih h
    · rw [haccept] at h
      rw [ih h, extended_append]
      rfl
    · rw [haccept] at h
      cases h

/-- Without a limit, a run does not fail. -/
theorem acceptAll_of_limit?_eq_none {s : JsonLines} (hlimit : s.buffer.limit? = none)
    (os : List Outcome) : ∃ last, s.acceptAll os = .ok last := by
  induction os generalizing s with
  | nil => exact ⟨s, rfl⟩
  | cons o os ih =>
    unfold acceptAll
    rw [List.foldlM_cons]
    rcases s.accept_cases o with ⟨c, -, haccept⟩ | ⟨r, -, haccept⟩ | ⟨hlimited, -⟩
    · rw [haccept]
      exact ih hlimit
    · rw [haccept]
      exact ih hlimit
    · exact absurd hlimit hlimited

end JsonLines

/-! ## 3. A sink of frames -/

/-- The reports in front of the first one that is too large for a frame. -/
def Report.framed (rs : List Report) : List Report := rs.takeWhile fun r => r.size < 2 ^ 32

theorem Report.size_lt_of_mem_framed {rs : List Report} :
    ∀ r ∈ framed rs, r.size < 2 ^ 32 := by
  intro r hr
  unfold framed at hr
  have hfits := List.mem_takeWhile_imp hr
  simpa only [decide_eq_true_eq] using hfits

theorem Report.framed_eq_self {rs : List Report} :
    framed rs = rs ↔ ∀ r ∈ rs, r.size < 2 ^ 32 := by
  unfold framed
  rw [List.takeWhile_eq_self_iff]
  simp only [decide_eq_true_eq]

namespace EnvelopeStream

/-- **A run without a limit writes the reports up to the first that is too large for a frame,** and
fails if there is one. -/
theorem acceptAll_framed {s : EnvelopeStream} (hlimit : s.buffer.limit? = none)
    (os : List Outcome) :
    (s.acceptAll os).1.buffer.bytes =
        s.buffer.bytes ++ Envelope.stream (numbered s.next (Report.framed (Outcome.reports os))) ∧
      (s.acceptAll os).2 =
        if Report.framed (Outcome.reports os) = Outcome.reports os then none
        else some .envelopeTooLarge := by
  -- On the outcomes, for whatever sink the first of them leaves.
  induction os generalizing s with
  | nil => exact ⟨(List.append_nil _).symm, rfl⟩
  | cons o os ih =>
    rcases s.accept_cases o with ⟨c, rfl, haccept⟩ | ⟨r, rfl, hlarge, haccept⟩ |
      ⟨r, rfl, hsmall, haccept⟩ | ⟨tail, -, hlimited, -⟩
    · rw [acceptAll, haccept]
      exact ih hlimit
    · have hframed : Report.framed (Outcome.reports (.report r :: os)) = [] :=
        List.takeWhile_cons_of_neg (by simpa using hlarge)
      rw [acceptAll, haccept, hframed]
      exact ⟨(List.append_nil _).symm, (if_neg (List.cons_ne_nil _ _).symm).symm⟩
    · have hframed : Report.framed (Outcome.reports (.report r :: os)) =
          r :: Report.framed (Outcome.reports os) :=
        List.takeWhile_cons_of_pos (by simpa using hsmall)
      have hrest := ih (s := s.after (Envelope.wrap s.next (.report r))) hlimit
      rw [acceptAll, haccept, hframed]
      refine ⟨hrest.1.trans (List.append_assoc _ _ _), hrest.2.trans (if_congr ?_ rfl rfl)⟩
      exact ⟨congrArg (r :: ·), fun h => (List.cons.inj h).2⟩
    · exact absurd hlimit hlimited

/-- The bytes of such a run are read back as these reports, numbered from one. -/
theorem readEnvelopes_acceptAll (os : List Outcome) :
    readEnvelopes (acceptAll {} os).1.buffer.bytes =
      .ok (numbered 1 (Report.framed (Outcome.reports os))) := by
  rw [(acceptAll_framed (s := {}) rfl os).1]
  exact Envelope.readEnvelopes_stream (framable_of_mem_numbered Report.size_lt_of_mem_framed)

/-- Reports that fit into frames are all written and read back. -/
theorem acceptAll_of_fit {os : List Outcome} (h : ∀ r, .report r ∈ os → r.size < 2 ^ 32) :
    ∃ wire es, acceptAll {} os = (wire, none) ∧ readEnvelopes wire.buffer.bytes = .ok es ∧
      es.map (·.outcome) = (Outcome.reports os).map .report := by
  have hall : Report.framed (Outcome.reports os) = Outcome.reports os :=
    Report.framed_eq_self.2 fun r hr => h r (Outcome.mem_reports.1 hr)
  have hanswer := (acceptAll_framed (s := {}) rfl os).2
  rw [if_pos hall] at hanswer
  refine ⟨(acceptAll {} os).1, _, Prod.ext rfl hanswer, readEnvelopes_acceptAll os, ?_⟩
  rw [hall]
  exact map_outcome_numbered 1 (Outcome.reports os)

end EnvelopeStream

/-! ## 4. Both sinks -/

/-- **The lines of one sink are the envelopes of the other.** Outcomes given to two sinks without a
limit, whose reports all fit into frames, are all taken by both. The bytes of the one are then as
many lines as there were reports, and as it has counted: none is empty, each has one line end behind
it and none inside, and they are found again at the line ends. In front of each stands the compact
text of the report in the envelope that is read back in its place from the bytes of the other. And
an outcome that is no report changes neither sink, whatever was written before. -/
theorem lines_match_envelopes (os : List Outcome) (h : ∀ r, .report r ∈ os → r.size < 2 ^ 32) :
    (∃ json wire es lines,
      JsonLines.acceptAll {} os = .ok json ∧
      EnvelopeStream.acceptAll {} os = (wire, none) ∧
      readEnvelopes wire.buffer.bytes = .ok es ∧
      es.map (·.outcome) = (Outcome.reports os).map .report ∧
      json.buffer.bytes = lines.flatMap (· ++ [lineEnd]) ∧
      json.buffer.bytes.splitOn lineEnd = lines ++ [[]] ∧
      (∀ line ∈ lines, line ≠ [] ∧ lineEnd ∉ line) ∧
      lines.length = json.written ∧
      json.written = os.countP (·.report?.isSome) ∧
      List.Forall₂ (fun line e => ∃ r, e.outcome = .report r ∧
        line = utf8 r.flat.document.compact) lines es) ∧
    (∀ (s : JsonLines) c, s.accept (.unsupported c) = .ok s) ∧
    ∀ (s : EnvelopeStream) c, s.accept (.unsupported c) = (s, none) := by
  refine ⟨?_, fun s c => rfl, fun s c => rfl⟩
  obtain ⟨wire, es, hwire, hread, houtcomes⟩ := EnvelopeStream.acceptAll_of_fit h
  obtain ⟨json, hjson⟩ := JsonLines.acceptAll_of_limit?_eq_none (s := {}) rfl os
  have hextended : json = JsonLines.extended {} (Outcome.reports os) := JsonLines.eq_extended hjson
  have hbytes : json.buffer.bytes =
      ((Outcome.reports os).map Report.line).flatMap (· ++ [lineEnd]) := by
    rw [hextended, List.flatMap_map]
    rfl
  have hwritten : json.written = (Outcome.reports os).length := by
    rw [hextended]
    exact Nat.zero_add _
  have hlines : ∀ line ∈ (Outcome.reports os).map Report.line, line ≠ [] ∧ lineEnd ∉ line := by
    intro line hline
    obtain ⟨r, -, rfl⟩ := List.mem_map.1 hline
    exact ⟨r.line_ne_nil, r.lineEnd_not_mem_line⟩
  refine ⟨json, wire, es, (Outcome.reports os).map Report.line, hjson, hwire, hread, houtcomes,
    hbytes, ?_, hlines, ?_, ?_, ?_⟩
  · rw [hbytes]
    exact splitOn_lines fun line hline => (hlines line hline).2
  · rw [hwritten, List.length_map]
  · rw [hwritten, Outcome.countP_report?]
  · -- Envelope by envelope, what was read back are the reports that the lines were made from.
    have hsame : List.Forall₂ (fun r e => Outcome.report r = e.outcome) (Outcome.reports os) es := by
      refine List.forall₂_map_left_iff.1 (List.forall₂_map_right_iff.1 ?_)
      rw [List.forall₂_eq_eq_eq]
      exact houtcomes.symm
    refine List.forall₂_map_left_iff.2 (hsame.imp fun r e he => ⟨r, he.symm, ?_⟩)
    rw [r.document_flat, Report.line]

/-- Two reports with an unsupported component between them are written on two lines. -/
theorem lines_match_envelopes_two :
    let scope : Scope := ⟨⟨8⟩, .nan, .measured⟩
    let first : Report := ⟨.wifi, scope, scope, ⟨3⟩, .zero, .ofList []⟩
    let share : Share := ⟨⟨5⟩, .invalid, some (.ofList [(⟨⟨9⟩, .cached⟩, .nan)]), .reported, none, some 6⟩
    let second : Report := ⟨.modem, scope, scope, ⟨3⟩, .invalid, .ofList [(⟨4⟩, share)]⟩
    let os : List Outcome := [.report first, .unsupported .bluetooth, .report second]
    (∀ r, .report r ∈ os → r.size < 2 ^ 32) ∧
      ∃ json, JsonLines.acceptAll {} os = .ok json ∧ json.written = 2 ∧
        json.buffer.bytes.splitOn lineEnd =
          [utf8 first.flat.document.compact, utf8 second.flat.document.compact, []] := by
  intro scope first share second os
  have hsizes : ∀ r, .report r ∈ os → r.size < 2 ^ 32 := by
    intro r hr
    simp only [os, List.mem_cons, Outcome.report.injEq, List.not_mem_nil, reduceCtorEq, or_false,
      false_or] at hr
    rcases hr with rfl | rfl
    · decide +kernel
    · decide +kernel
  obtain ⟨⟨json, wire, es, lines, hjson, -, -, houtcomes, -, hsplit, -, -, hwritten, hlines⟩, -⟩ :=
    lines_match_envelopes os hsizes
  refine ⟨hsizes, json, hjson, hwritten, ?_⟩
  obtain ⟨e, rest, rfl, he, hrest⟩ := List.map_eq_cons_iff.1 houtcomes
  obtain ⟨e', rest', rfl, he', hrest'⟩ := List.map_eq_cons_iff.1 hrest
  obtain rfl := List.map_eq_nil_iff.1 hrest'
  rcases hlines with _ | ⟨⟨r, hr, rfl⟩, _ | ⟨⟨r', hr', rfl⟩, _ | _⟩⟩
  obtain rfl := Outcome.report.inj (he.symm.trans hr)
  obtain rfl := Outcome.report.inj (he'.symm.trans hr')
  exact hsplit

end PowerShare
