import PowerShare.Proofs.Attribution.Outcomes
import PowerShare.Proofs.Command.Loading
import PowerShare.Proofs.Folder
import PowerShare.Proofs.Sample.RoundTrip
import PowerShare.Proofs.Sink.Lines

/-!
# What an attribution reads and writes

An attribution with a file of reports and a file of envelopes loads settings and observations, and
then writes one file after the other:

* `reportsOn` -- the reports that it makes of what was loaded, in component order;
* `does_showAttribution_…` -- what it comes to in each case, from one lemma for each of its steps;
* `run_attribution_files` -- the files that are there after a run.
-/

namespace PowerShare

open Json Shell

variable {environment : Settings.Environment} {folder : Folder}

/-! ## 1. Writing -/

/-- What the file of reports holds: a single report in full, any other number as lines. -/
def Report.fileOf : List Report → List UInt8
  | [r] => utf8 r.document.pretty
  | rs => rs.flatMap (·.line ++ [lineEnd])

/-- The lines of a sink are what a file holds that is not about a single report. -/
theorem Report.fileOf_of_ne_singleton {rs : List Report} (h : ∀ r, rs ≠ [r]) :
    fileOf rs = rs.flatMap (·.line ++ [lineEnd]) := by
  unfold fileOf
  split
  · exact absurd rfl (h _)
  · rfl

variable {outcomes : List Outcome} {path name : String}

theorem does_writeReports (h : folder.Takes path name) :
    Does environment folder (writeReports outcomes path) (.ok ())
      (folder.put name (Report.fileOf (Outcome.reports outcomes))) := by
  unfold writeReports
  show Does environment folder
    (match Outcome.reports outcomes with
      | [report] => _
      | _ => _) _ _
  split
  · rename_i report hreports
    rw [hreports]
    exact (does_traced _).bind (does_writeFile (h _))
  · rename_i hreports
    obtain ⟨sink, hsink⟩ := JsonLines.acceptAll_of_limit?_eq_none (s := {}) rfl outcomes
    have hbytes : sink.buffer.bytes = Report.fileOf (Outcome.reports outcomes) := by
      rw [JsonLines.eq_extended hsink, Report.fileOf_of_ne_singleton hreports]
      rfl
    -- The file is made before the lines are put into it.
    have hlast : Does environment (folder.put name []) (writeFile path sink.buffer.bytes) (.ok ())
        (folder.put name (Report.fileOf (Outcome.reports outcomes))) := by
      have hput : (folder.put name []).put name sink.buffer.bytes =
          folder.put name (Report.fileOf (Outcome.reports outcomes)) := by
        rw [Folder.put_put, hbytes]
      rw [← hput]
      exact does_writeFile (h.put h sink.buffer.bytes)
    rw [hsink]
    exact (does_writeFile (h [])).bind ((does_orFail _ _).bind ((does_traced _).bind hlast))

/-- What writing envelopes comes to: it fails at a report that is too large for a frame. -/
def framingResult (rs : List Report) : Except Failure Unit :=
  if Report.framed rs = rs then .ok () else .error (.sink .envelopeTooLarge)

theorem does_writeEnvelopes (h : folder.Takes path name) :
    Does environment folder (writeEnvelopes outcomes path)
      (framingResult (Outcome.reports outcomes))
      (folder.put name (EnvelopeStream.acceptAll {} outcomes).1.buffer.bytes) := by
  unfold writeEnvelopes framingResult
  have hanswer := (EnvelopeStream.acceptAll_framed (s := {}) rfl outcomes).2
  obtain ⟨stream, error?, hrun⟩ :
      ∃ stream error?, EnvelopeStream.acceptAll {} outcomes = (stream, error?) := ⟨_, _, rfl⟩
  rw [hrun] at hanswer ⊢
  dsimp only at hanswer ⊢
  rw [hanswer]
  refine (does_writeFile (h _)).bind ?_
  by_cases hall : Report.framed (Outcome.reports outcomes) = Outcome.reports outcomes
  · simp only [hall, if_true]
    exact does_pure ()
  · simp only [hall, if_false]
    exact does_throw _

/-! ## 2. The command -/

/-- The reports on what was loaded, in component order. -/
def reportsOn (settings : Settings) (os : Observations) (a : AttributionArguments) : List Report :=
  Outcome.reports
    ((os.outcomes settings.profile (settings.options.joined a)).values.map (·.value))

theorem does_printSummaries (settings : Settings) (entries : List (Component × Observation)) :
    Does environment folder (printSummaries settings entries) (.ok ()) folder := by
  induction entries with
  | nil => exact does_pure ()
  | cons entry entries ih => exact (does_traced _).bind ((does_print _).bind ih)

variable {snapshot : String} {a : AttributionArguments}

/-- Where nothing is loaded, and where nothing was observed, no file is written. -/
theorem does_showAttribution_nothing
    (h : ∀ settings os, loaded folder environment snapshot a = .ok (settings, os) →
      os.isEmpty = true) :
    Does environment folder (showAttribution snapshot a)
      ((loaded folder environment snapshot a).map fun _ => ()) folder := by
  unfold showAttribution
  refine does_loaded (fun settings os hloaded => ?_) fun e he => ⟨by rw [he]; rfl, rfl⟩
  rw [h settings os hloaded, hloaded]
  exact does_print _

/-- What was observed is attributed, printed and written into both files. -/
theorem does_showAttribution_files {settings : Settings} {os : Observations} {json wire : String}
    {jsonName wireName : String}
    (hloaded : loaded folder environment snapshot a = .ok (settings, os))
    (hos : os.isEmpty = false) (hjson : a.json? = some json) (hwire : a.wire? = some wire)
    (hjsonTakes : folder.Takes json jsonName) (hwireTakes : folder.Takes wire wireName) :
    ∃ bytes, readEnvelopes bytes =
        .ok (EnvelopeStream.numbered 1 (Report.framed (reportsOn settings os a))) ∧
      Does environment folder (showAttribution snapshot a) (framingResult (reportsOn settings os a))
        ((folder.put jsonName (Report.fileOf (reportsOn settings os a))).put wireName bytes) := by
  let outcomes := (os.outcomes settings.profile (settings.options.joined a)).values.map (·.value)
  refine ⟨(EnvelopeStream.acceptAll {} outcomes).1.buffer.bytes,
    EnvelopeStream.readEnvelopes_acceptAll outcomes, ?_⟩
  unfold showAttribution
  refine does_loaded (fun settings' os' h => ?_) fun e he => by rw [hloaded] at he; cases he
  obtain ⟨rfl, rfl⟩ := Prod.mk.inj (Except.ok.inj (hloaded.symm.trans h))
  rw [hos, hjson, hwire]
  refine (does_mapM_traced _).bind ((does_print _).bind ?_)
  refine (does_writeReports hjsonTakes).bind ((does_print _).bind ?_)
  refine (does_writeEnvelopes (hjsonTakes.put hwireTakes)).andThen (fun _ hframed => ?_)
    fun e he => ⟨he, rfl⟩
  have hresult : framingResult (reportsOn settings os a) = .ok () := hframed
  rw [hresult]
  refine (does_print _).bind ?_
  have hmetrics {f : Folder} : Does environment f
      (if a.metrics then do print (titleLines "Diagnostics" ++ (← get).tally.lines)
        else pure ()) (.ok ()) f := by
    split
    · exact does_get_bind fun c _ _ => does_print _
    · exact does_pure ()
  cases a.legacy with
  | false => exact hmetrics
  | true => exact (does_printSummaries _ _).bind hmetrics

/-! ## 3. Many consumers -/

/-- An observation of so many consumers that did nothing. -/
def crowd (count : Nat) (h : count ≤ 2 ^ 32) : Observation where
  consumers :=
    { entries := (List.range count).map fun i => (⟨UInt32.ofNat i⟩, {})
      ascending := by
        refine List.pairwise_map.2 (List.pairwise_lt_range.imp_of_mem fun {i j} _ hj hlt => ?_)
        have hbound : j < 2 ^ 32 := Nat.lt_of_lt_of_le (List.mem_range.1 hj) h
        show (UInt32.ofNat i).toNat < (UInt32.ofNat j).toNat
        rw [UInt32.toNat_ofNat', UInt32.toNat_ofNat', Nat.mod_eq_of_lt hbound,
          Nat.mod_eq_of_lt (Nat.lt_trans hlt hbound)]
        exact hlt }

/-- They reported no charges. -/
theorem chargesReadBack_crowd (count : Nat) (h : count ≤ 2 ^ 32) :
    (crowd count h).ChargesReadBack where
  device c hc := by cases hc
  consumers e he c hc := by
    obtain ⟨i, -, rfl⟩ := List.mem_map.1 he
    cases hc

/-- A folder with the text of such an observation. -/
def crowded (count : Nat) (h : count ≤ 2 ^ 32) : Folder :=
  ({} : Folder).put "s" (utf8 (crowd count h).document.compact)

theorem takes_crowded {name : String} (count : Nat) (h : count ≤ 2 ^ 32)
    (hname : ({} : Folder).Takes name name) : (crowded count h).Takes name name := by
  have hs : ({} : Folder).Takes "s" "s" :=
    Folder.takes_of_name (by decide) (by decide) (by decide) (by decide +kernel)
  exact hs.put hname

theorem ofFile_crowded (count : Nat) (h : count ≤ 2 ^ 32) (component : Component) :
    Observations.ofFile (crowded count h) "s" (some component) =
      .ok (SortedMap.ofList [(component, (crowd count h).finiteCharges)]) := by
  have hs : (crowded count h).Takes "s" "s" := takes_crowded count h <|
    Folder.takes_of_name (by decide) (by decide) (by decide) (by decide +kernel)
  unfold Observations.ofFile
  rw [Observation.readSnapshot_written _ (chargesReadBack_crowd count h) (.inl rfl)
    (hs.read Folder.get?_put)]
  rfl

/-- A single component that reports its activity has a single report. -/
theorem reportsOn_single (settings : Settings) (component : Component) {o : Observation}
    (ho : o.supported = true) (a : AttributionArguments) :
    reportsOn settings (SortedMap.ofList [(component, o)]) a =
      [(o.shareOut component (settings.profile.currents component)
        (settings.options.joined a)).value] := by
  have houtcome := (o.outcome_cases component (settings.profile.currents component)
    (settings.options.joined a)).resolve_left fun h => by rw [ho] at h; cases h.1
  show Outcome.reports [(o.outcome component (settings.profile.currents component)
    (settings.options.joined a)).value] = _
  rw [houtcome.2]
  rfl

/-- The report on a crowd takes bytes for each of the consumers. -/
theorem mul_count_le_size_crowd (count : Nat) (h : count ≤ 2 ^ 32) (component : Component)
    (currents : Currents) (options : Options) :
    27 * count ≤ ((crowd count h).finiteCharges.shareOut component currents options).value.size := by
  refine Nat.le_trans (Nat.le_of_eq ?_) (Report.mul_shares_le_size _)
  congr 1
  rw [Observation.value_shareOut]
  simp [SortedMap.size, Observation.consumerShares, Observation.finiteCharges, crowd]

/-! ## 4. Runs -/

/-- There are no more reports than components. -/
theorem length_reportsOn_le (settings : Settings) (os : Observations) (a : AttributionArguments) :
    (reportsOn settings os a).length ≤ 3 := by
  have hrank (c : Component) : Ranked.rank c < 3 := by cases c <;> decide
  have houtcomes := SortedMap.length_le_of_rank_lt hrank
    (os.outcomes settings.profile (settings.options.joined a))
  unfold reportsOn Outcome.reports
  refine Nat.le_trans (List.length_filterMap_le _ _) ?_
  unfold SortedMap.values
  rw [List.length_map, List.length_map]
  exact houtcomes

/-- The numbers of the reports that are written into frames. -/
theorem map_sequence_framed (settings : Settings) (os : Observations) (a : AttributionArguments) :
    (EnvelopeStream.numbered 1 (Report.framed (reportsOn settings os a))).map
        (·.sequence.toNat) =
      List.range' 1 (Report.framed (reportsOn settings os a)).length := by
  have hframed : (Report.framed (reportsOn settings os a)).length ≤ 3 :=
    ((List.takeWhile_prefix _).length_le).trans (length_reportsOn_le settings os a)
  refine EnvelopeStream.map_sequence_numbered (n := 1) ?_
  rw [UInt64.toNat_one]
  omega

/-- **What a run leaves in two files.** It is asked to attribute a snapshot, and to write reports and
envelopes at paths that lead to two files. If the settings or the snapshot cannot be loaded, no file
changes, and none changes if the snapshot observes no component. Else the one file holds the
reports, and from the other the reports are read back in the same order with the numbers from one
on, up to the first that is too large for a frame; if there is one, the run fails. No other file
changes. -/
theorem run_attribution_files {words : List String} {json wire jsonName wireName : String}
    (hwords : Request.ofWords? words = some (.attribution snapshot a))
    (hjson : a.json? = some json) (hwire : a.wire? = some wire)
    (hjsonTakes : folder.Takes json jsonName) (hwireTakes : folder.Takes wire wireName)
    (hdistinct : jsonName ≠ wireName) :
    let after := run words environment folder
    (∀ e, loaded folder environment snapshot a = .error e →
      after.folder = folder ∧ after.code = 1) ∧
    ∀ settings os, loaded folder environment snapshot a = .ok (settings, os) →
      (os.isEmpty = true → after.folder = folder ∧ after.code = 0) ∧
      (os.isEmpty = false →
        let reports := reportsOn settings os a
        let framed := Report.framed reports
        after.folder.read json = .ok (Report.fileOf reports) ∧
        (∃ bytes es, after.folder.read wire = .ok bytes ∧ readEnvelopes bytes = .ok es ∧
          es.map (·.outcome) = framed.map .report ∧
          es.map (·.sequence.toNat) = List.range' 1 framed.length) ∧
        after.code = (if framed = reports then 0 else 1) ∧
        ∀ other, other ≠ jsonName → other ≠ wireName →
          after.folder.get? other = folder.get? other) := by
  intro after
  refine ⟨fun e he => ?_, fun settings os hloaded => ⟨fun hos => ?_, fun hos => ?_⟩⟩
  · have hnothing : Does environment folder (showAttribution snapshot a) (.error e) folder := by
      have hdoes := does_showAttribution_nothing fun _ _ h => by rw [he] at h; cases h
      rw [he] at hdoes
      exact hdoes
    exact run_of_does hwords hnothing
  · have hnothing : Does environment folder (showAttribution snapshot a) (.ok ()) folder := by
      have hdoes := does_showAttribution_nothing fun _ _ h => by
        rw [hloaded] at h
        cases h
        exact hos
      rw [hloaded] at hdoes
      exact hdoes
    exact run_of_does hwords hnothing
  · obtain ⟨bytes, hread, hdoes⟩ :=
      does_showAttribution_files hloaded hos hjson hwire hjsonTakes hwireTakes
    obtain ⟨hfolder, hcode⟩ := run_of_does hwords hdoes
    have hwritten : after.folder =
        (folder.put jsonName (Report.fileOf (reportsOn settings os a))).put wireName bytes := hfolder
    have hopen {path name : String} (h : folder.Takes path name) :
        after.folder.Takes path name := by
      rw [hwritten]
      exact (hjsonTakes.put hwireTakes).put (hjsonTakes.put h)
    refine ⟨(hopen hjsonTakes).read ?_, ⟨bytes, _, (hopen hwireTakes).read ?_, hread,
      EnvelopeStream.map_outcome_numbered 1 _, map_sequence_framed settings os a⟩, ?_,
      fun other hj hw => ?_⟩
    · rw [hwritten, Folder.get?_put_of_ne hdistinct, Folder.get?_put]
    · rw [hwritten, Folder.get?_put]
    · refine hcode.trans ?_
      unfold framingResult
      split
      · rfl
      · rfl
    · rw [hwritten, Folder.get?_put_of_ne hw, Folder.get?_put_of_ne hj]

/-- A snapshot with one component that reports its activity and one that does not: the report goes
into the one file in full and into the other as the only envelope. -/
theorem run_attribution_files_single :
    let text := "\x7b\"modem\":\x7b\"reporting_supported\":false\x7d,\"wifi\":\x7b\x7d\x7d"
    let folder : Folder := { files := [("s", utf8 text.toList)] }
    let words := ["attribute", "--snapshot", "s", "--json", "r", "--wire", "e"]
    let a : AttributionArguments := { snapshot? := some "s", json? := some "r", wire? := some "e" }
    let os : Observations := SortedMap.ofList [(.modem, { supported := false }), (.wifi, {})]
    let after := run words [] folder
    Request.ofWords? words = some (.attribution "s" a) ∧
      folder.Takes "r" "r" ∧ folder.Takes "e" "e" ∧
      loaded folder [] "s" a = .ok ({}, os) ∧ os.isEmpty = false ∧
      ∃ r bytes es, reportsOn {} os a = [r] ∧ after.code = 0 ∧
        after.folder.read "r" = .ok (utf8 r.document.pretty) ∧
        after.folder.read "e" = .ok bytes ∧ readEnvelopes bytes = .ok es ∧
        es.map (·.outcome) = [.report r] ∧ es.map (·.sequence.toNat) = [1] := by
  intro text folder words a os after
  have hwords : Request.ofWords? words = some (.attribution "s" a) := by decide +kernel
  have hr : folder.Takes "r" "r" :=
    Folder.takes_of_name (by decide) (by decide) (by decide) (by decide +kernel)
  have he : folder.Takes "e" "e" :=
    Folder.takes_of_name (by decide) (by decide) (by decide) (by decide +kernel)
  have hloaded : loaded folder [] "s" a = .ok ({}, os) :=
    loaded_eq_ok (by decide +kernel) (by decide +kernel)
  have hos : os.isEmpty = false := by decide +kernel
  obtain ⟨r, hreports⟩ : ∃ r, reportsOn {} os a = [r] := ⟨_, rfl⟩
  have hsmall : Report.framed (reportsOn {} os a) = reportsOn {} os a := by decide +kernel
  obtain ⟨hjson, ⟨bytes, es, hwire, hes, houtcomes, hnumbers⟩, hcode, -⟩ :=
    ((run_attribution_files hwords rfl rfl hr he (by decide)).2 {} os hloaded).2 hos
  rw [hsmall, hreports] at houtcomes hnumbers
  rw [hreports] at hjson
  rw [if_pos hsmall] at hcode
  exact ⟨hwords, hr, he, hloaded, hos, r, bytes, es, hreports, hcode, hjson, hwire, hes, houtcomes,
    hnumbers⟩

/-- Where two paths lead to one file, the reports in it are written over. And a report on very many
consumers, though both files can be written, is not among the envelopes. -/
theorem run_attribution_files_lost :
    (let folder : Folder := { files := [("s", utf8 "\x7b\x7d".toList)] }
      let words :=
        ["attribute", "--snapshot", "s", "--component", "wifi", "--json", "./r", "--wire", "r"]
      let a : AttributionArguments := {
        snapshot? := some "s", component? := some .wifi, json? := some "./r", wire? := some "r" }
      let os : Observations := SortedMap.ofList [(.wifi, {})]
      Request.ofWords? words = some (.attribution "s" a) ∧
        folder.Takes "./r" "r" ∧ folder.Takes "r" "r" ∧
        loaded folder [] "s" a = .ok ({}, os) ∧ os.isEmpty = false ∧
        (run words [] folder).code = 0 ∧
        (run words [] folder).folder.read "./r" ≠ .ok (Report.fileOf (reportsOn {} os a))) ∧
    (let folder := crowded (2 ^ 28) (by decide)
      let words :=
        ["attribute", "--snapshot", "s", "--component", "wifi", "--json", "r", "--wire", "e"]
      let a : AttributionArguments := {
        snapshot? := some "s", component? := some .wifi, json? := some "r", wire? := some "e" }
      let os : Observations :=
        SortedMap.ofList [(.wifi, (crowd (2 ^ 28) (by decide)).finiteCharges)]
      Request.ofWords? words = some (.attribution "s" a) ∧
        folder.Takes "r" "r" ∧ folder.Takes "e" "e" ∧
        loaded folder [] "s" a = .ok ({}, os) ∧ os.isEmpty = false ∧
        (∃ r, reportsOn {} os a = [r]) ∧
        ∃ bytes, (run words [] folder).folder.read "e" = .ok bytes ∧
          readEnvelopes bytes = .ok []) := by
  constructor
  · intro folder words a os
    have hr : folder.Takes "r" "r" :=
      Folder.takes_of_name (by decide) (by decide) (by decide) (by decide +kernel)
    refine ⟨by decide +kernel, ?_, hr, loaded_eq_ok (by decide +kernel) (by decide +kernel),
      by decide +kernel, by decide +kernel, by decide +kernel⟩
    exact Folder.takes_iff.2 ⟨[], ['r'], ⟨⟨[['.']], by decide +kernel, by decide +kernel⟩,
      by decide +kernel, by decide, by decide, by decide +kernel⟩, by decide +kernel⟩
  · intro folder words a os
    have hwords : Request.ofWords? words = some (.attribution "s" a) := by decide +kernel
    have hr : folder.Takes "r" "r" := takes_crowded _ _ <|
      Folder.takes_of_name (by decide) (by decide) (by decide) (by decide +kernel)
    have he : folder.Takes "e" "e" := takes_crowded _ _ <|
      Folder.takes_of_name (by decide) (by decide) (by decide) (by decide +kernel)
    have hloaded : loaded folder [] "s" a = .ok ({}, os) :=
      loaded_eq_ok rfl (ofFile_crowded _ _ .wifi)
    have hreports := reportsOn_single {} .wifi
      (o := (crowd (2 ^ 28) (by decide)).finiteCharges) rfl a
    have hnone : Report.framed (reportsOn {} os a) = [] := by
      rw [hreports]
      refine List.takeWhile_cons_of_neg ?_
      have hlarge := mul_count_le_size_crowd (2 ^ 28) (by decide) .wifi
        (({} : Settings).profile.currents .wifi) (({} : Settings).options.joined a)
      have htoo : 2 ^ 32 ≤ 27 * 2 ^ 28 := by decide
      exact fun hfits => absurd (of_decide_eq_true hfits) (Nat.not_lt.2 (htoo.trans hlarge))
    obtain ⟨bytes, hread, hdoes⟩ := does_showAttribution_files hloaded rfl rfl rfl hr he
    rw [hnone] at hread
    refine ⟨hwords, hr, he, hloaded, rfl, ⟨_, hreports⟩, bytes, ?_, hread⟩
    rw [(run_of_does hwords hdoes).1]
    exact ((hr.put he).put (hr.put he)).read Folder.get?_put

end PowerShare
