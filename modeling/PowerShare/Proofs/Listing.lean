import PowerShare.Listing
import PowerShare.Proofs.Charge
import PowerShare.Proofs.Report.Ranking
import PowerShare.Text.Split

/-!
# The table of a printed report

A printed report has a table with a row for each of its first consumers. Columns are as wide as
their texts need, so what tells a row of the table is not where its columns begin but how many there
are: it has six words, and every other line has fewer.

* `wordsOf` -- the words of a text between its blanks, and `IsWord`: a text that is one word;
* `tableColumn` -- a column of the table, as far as it can be read off the printed lines;
* `Report.tableColumn_reportLines` -- the third column has the charges of the first consumers below
  its heading;
* `Report.charges_descend` -- **the charges that can be read there descend.**
-/

namespace PowerShare

/-! ## 1. Words -/

/-- The words of a text between its blanks. -/
def wordsOf (text : List Char) : List (List Char) := (splitAt ' ' text).filter fun w => !w.isEmpty

/-- A blank ends a word. -/
theorem wordsOf_append (text rest : List Char) :
    wordsOf (text ++ ' ' :: rest) = wordsOf text ++ wordsOf rest := by
  unfold wordsOf
  rw [splitAt_append_mark, List.filter_append]

theorem wordsOf_blank (rest : List Char) : wordsOf (' ' :: rest) = wordsOf rest :=
  wordsOf_append [] rest

theorem wordsOf_blanks (n : Nat) (rest : List Char) :
    wordsOf (List.replicate n ' ' ++ rest) = wordsOf rest := by
  induction n with
  | zero => rfl
  | succ n ih =>
    rw [List.replicate_succ, List.cons_append, wordsOf_blank, ih]

theorem wordsOf_of_not_mem {text : List Char} (h : ' ' ∉ text) (hne : text ≠ []) :
    wordsOf text = [text] := by
  unfold wordsOf
  rw [splitAt_of_not_mem h, List.filter_cons_of_pos (by simpa using hne), List.filter_nil]

/-- The words of a line. -/
def words (line : String) : List String := (wordsOf line.toList).map String.ofList

/-- A text that is one word. -/
structure IsWord (text : String) : Prop where
  not_mem : ' ' ∉ text.toList
  ne_nil : text.toList ≠ []

theorem IsWord.wordsOf_eq {text : String} (h : IsWord text) :
    wordsOf text.toList = [text.toList] := wordsOf_of_not_mem h.not_mem h.ne_nil

/-- Filling a text up adds no word. -/
theorem wordsOf_alignRight (width : Nat) (text : String) :
    wordsOf (alignRight width text).toList = wordsOf text.toList := by
  unfold alignRight
  rw [String.toList_append, String.toList_ofList, wordsOf_blanks]

/-! ## 2. Texts of one word -/

theorem isWord_natural (n : Nat) : IsWord (toString n) := by
  have htext : (toString n).toList = digitsOf n := Nat.toList_repr
  refine ⟨fun h => ?_, fun h => digitsOf_ne_nil n (htext.symm.trans h)⟩
  rw [htext] at h
  exact absurd (isDigit_of_mem_digitsOf h) (by decide)

theorem isWord_duration (d : Duration) : IsWord d.text := isWord_natural d.toNat

theorem isWord_consumer (c : Consumer) : IsWord c.text := isWord_natural c.id.toNat

theorem isWord_bytesText (n? : Option UInt64) : IsWord (bytesText n?) := by
  cases n? with
  | none => exact ⟨by decide, by decide⟩
  | some n => exact isWord_natural n.toNat

theorem isWord_basis (b : Basis) : IsWord b.name := by
  cases b <;> exact ⟨by decide, by decide⟩

theorem isWord_state (s : RunState) : IsWord s.name := by
  cases s <;> exact ⟨by decide, by decide⟩

/-- A number with a fixed count of places is one word, if it is finite or not. -/
theorem isWord_fixedPlaces (places : Nat) (x : Binary64) :
    IsWord (String.ofList (fixedPlaces places x)) := by
  obtain ⟨n, hn, -⟩ := PlainNumeral.exists_fixedPlaces places (x.lastPlaces places)
  have htext : fixedPlaces places x = if x.isNaN then "NaN".toList else
      signedText x.negative (if x.isInfinite then "inf".toList else n.text) := by
    rw [hn]
    rfl
  have hsize : ∀ size, ' ' ∉ size → size ≠ [] →
      ' ' ∉ signedText x.negative size ∧ signedText x.negative size ≠ [] := by
    intro size hsize hne
    unfold signedText
    split
    · exact ⟨List.not_mem_cons_of_ne_of_not_mem (by decide) hsize, List.cons_ne_nil _ _⟩
    · exact ⟨hsize, hne⟩
  have hword : ' ' ∉ fixedPlaces places x ∧ fixedPlaces places x ≠ [] := by
    rw [htext]
    by_cases hnan : x.isNaN = true
    · rw [if_pos hnan]
      exact ⟨by decide, by decide⟩
    · rw [if_neg hnan]
      by_cases hinfinite : x.isInfinite = true
      · rw [if_pos hinfinite]
        exact hsize _ (by decide) (by decide)
      · rw [if_neg hinfinite]
        refine hsize _ (fun h => ?_) n.text_ne_nil
        exact (n.isDigit_or_point h).elim (by decide) (by decide)
  exact ⟨String.toList_ofList ▸ hword.1, String.toList_ofList ▸ hword.2⟩

theorem isWord_charge (x : Charge) : IsWord x.text := by
  unfold Charge.text
  split
  · exact ⟨by decide, by decide⟩
  · exact isWord_fixedPlaces _ _

/-! ## 3. The words of the lines -/

theorem wordsOf_shareColumns (consumer : String) {time charge rx tx basis : String}
    (htime : IsWord time) (hcharge : IsWord charge) (hrx : IsWord rx) (htx : IsWord tx)
    (hbasis : IsWord basis) :
    wordsOf (shareColumns consumer time charge rx tx basis).toList =
      wordsOf consumer.toList ++
        [time.toList, charge.toList, rx.toList, tx.toList, basis.toList] := by
  unfold shareColumns
  simp only [String.toList_append, List.append_assoc]
  have hone : " ".toList = [' '] := rfl
  have htwo : "  ".toList = [' ', ' '] := rfl
  simp only [hone, htwo, List.cons_append, List.nil_append, wordsOf_blank, wordsOf_append,
    wordsOf_alignRight, htime.wordsOf_eq, hcharge.wordsOf_eq, hrx.wordsOf_eq, htx.wordsOf_eq,
    hbasis.wordsOf_eq]

/-- A label that ends in a blank, the duration and the charge. -/
theorem wordsOf_usageLine (label : String) (duration : Duration) (charge : Charge) :
    wordsOf (usageLine (label ++ " ") duration charge).toList =
      wordsOf label.toList ++ [duration.text.toList ++ ['m', 's'], charge.text.toList] := by
  have hduration := isWord_duration duration
  have hunit : wordsOf (duration.text.toList ++ ['m', 's']) =
      [duration.text.toList ++ ['m', 's']] := by
    refine wordsOf_of_not_mem (fun h => ?_) fun h =>
      hduration.ne_nil (List.append_eq_nil_iff.1 h).1
    exact (List.mem_append.1 h).elim hduration.not_mem (by decide)
  have hline : (usageLine (label ++ " ") duration charge).toList =
      ' ' :: ' ' :: (label.toList ++ ' ' ::
        (List.replicate (10 - duration.text.length) ' ' ++
          ((duration.text.toList ++ ['m', 's']) ++
            ' ' :: (alignRight 14 charge.text).toList))) := by
    unfold usageLine
    rw [show alignRight 10 duration.text = String.ofList _ ++ duration.text from rfl]
    simp only [String.toList_append, String.toList_ofList, List.append_assoc]
    rfl
  rw [hline, wordsOf_blank, wordsOf_blank, wordsOf_append, wordsOf_blanks, wordsOf_append, hunit,
    wordsOf_alignRight, (isWord_charge charge).wordsOf_eq]
  rfl

theorem length_wordsOf_usageLine (label : String) (duration : Duration) (charge : Charge) :
    (wordsOf (usageLine (label ++ " ") duration charge).toList).length =
      (wordsOf label.toList).length + 2 := by
  rw [wordsOf_usageLine, List.length_append]
  rfl

/-! ## 4. The columns of the table -/

/-- A column of the table in a listing: a word of each line that has six. -/
def tableColumn (k : Nat) (lines : List String) : List String :=
  lines.filterMap fun line => if (words line).length = 6 then (words line)[k]? else none

section

variable {k : Nat}

theorem tableColumn_append (lines lines' : List String) :
    tableColumn k (lines ++ lines') = tableColumn k lines ++ tableColumn k lines' :=
  List.filterMap_append

/-- A line with fewer words is no row. -/
theorem tableColumn_of_words_ne {lines : List String}
    (h : ∀ line ∈ lines, (wordsOf line.toList).length ≠ 6) : tableColumn k lines = [] := by
  refine List.filterMap_eq_nil_iff.2 fun line hline => if_neg ?_
  rw [words, List.length_map]
  exact h line hline

theorem tableColumn_cons_of_words_ne {line : String} (h : (wordsOf line.toList).length ≠ 6)
    (lines : List String) : tableColumn k (line :: lines) = tableColumn k lines := by
  refine (tableColumn_append [line] lines).trans ?_
  rw [tableColumn_of_words_ne fun l hl => List.mem_singleton.1 hl ▸ h, List.nil_append]

end

/-- The third word of a row is its charge. -/
theorem tableColumn_row {line : String} {before : List (List Char)} {charge : String}
    {after : List (List Char)}
    (h : wordsOf line.toList = before ++ charge.toList :: after) (hbefore : before.length = 2)
    (hafter : after.length = 3) (lines : List String) :
    tableColumn 2 (line :: lines) = charge :: tableColumn 2 lines := by
  have hwords : words line = before.map String.ofList ++ charge :: after.map String.ofList := by
    rw [words, h, List.map_append, List.map_cons, String.ofList_toList]
  refine List.filterMap_cons_some ?_
  rw [hwords, if_pos (by simp [hbefore, hafter]),
    List.getElem?_append_right (by simp [hbefore])]
  simp [hbefore]

/-- Of a share and its run states, the share alone is a row. -/
theorem tableColumn_shareLines (consumer : Consumer) (s : Share) :
    tableColumn 2 (shareLines consumer s) = [s.charge.text] := by
  have hrow := wordsOf_shareColumns consumer.text (isWord_duration s.duration)
    (isWord_charge s.charge) (isWord_bytesText s.rxBytes?) (isWord_bytesText s.txBytes?)
    (isWord_basis s.basis)
  rw [(isWord_consumer consumer).wordsOf_eq] at hrow
  unfold shareLines
  have hparts : wordsOf _ = [consumer.text.toList, s.duration.text.toList] ++ _ := hrow
  rw [tableColumn_row hparts rfl rfl]
  refine congrArg _ (tableColumn_of_words_ne fun line hline => ?_)
  split at hline
  · cases hline
  · obtain ⟨e, -, rfl⟩ := List.mem_map.1 hline
    have hwords : wordsOf ("  " ++ alignRight 10 e.1.state.name ++ " " ++
        alignRight 27 (Charge.text e.2)).toList =
        [e.1.state.name.toList, (Charge.text e.2).toList] := by
      have hone : " ".toList = [' '] := rfl
      have htwo : "  ".toList = [' ', ' '] := rfl
      simp only [String.toList_append, List.append_assoc, hone, htwo, List.cons_append,
        List.nil_append, wordsOf_blank, wordsOf_append, wordsOf_alignRight,
        (isWord_state e.1.state).wordsOf_eq, (isWord_charge e.2).wordsOf_eq]
    rw [hwords]
    exact Nat.ne_of_beq_eq_false rfl

namespace Report

variable (r : Report)

/-- The lines above the table are no rows. -/
theorem tableColumn_head (k : Nat) : tableColumn k (titleLines r.component.name ++
    [usageLine "Device:        " r.device.duration r.device.charge ++
        "  (" ++ r.device.basis.name ++ ")",
      usageLine "All consumers: " r.tracked.duration r.tracked.charge,
      usageLine "System only:   " r.systemDuration r.systemCharge]) = [] := by
  have htitle : (wordsOf ("=== " ++ r.component.name ++ " ===").toList).length = 3 := by
    cases r.component <;> decide
  have hdevice : wordsOf (usageLine "Device:        " r.device.duration r.device.charge ++
      "  (" ++ r.device.basis.name ++ ")").toList =
      wordsOf (usageLine ("Device:       " ++ " ") r.device.duration r.device.charge).toList ++
        wordsOf ("(" ++ r.device.basis.name ++ ")").toList := by
    have hopening : "  (".toList = ' ' :: ' ' :: "(".toList := rfl
    simp only [String.toList_append, hopening, List.append_assoc, List.cons_append,
      wordsOf_append, wordsOf_blank]
    rfl
  have hbasis : (wordsOf ("(" ++ r.device.basis.name ++ ")").toList).length = 1 := by
    cases r.device.basis <;> decide
  refine tableColumn_of_words_ne ?_
  simp only [titleLines, List.cons_append, List.nil_append, List.forall_mem_cons,
    List.not_mem_nil, false_imp_iff, implies_true, and_true]
  refine ⟨by decide, by omega, ?_, ?_, ?_⟩
  · rw [hdevice, List.length_append, hbasis, length_wordsOf_usageLine]
    decide
  · rw [show "All consumers: " = "All consumers:" ++ " " from rfl, length_wordsOf_usageLine]
    decide
  · rw [show "System only:   " = "System only:  " ++ " " from rfl, length_wordsOf_usageLine]
    decide

theorem tableColumn_more (k n : Nat) :
    tableColumn k ["  ... " ++ toString n ++ " more"] = [] := by
  refine tableColumn_of_words_ne fun line hline => ?_
  rw [List.mem_singleton.1 hline]
  have hwords : wordsOf ("  ... " ++ toString n ++ " more").toList =
      ["...".toList, (toString n).toList, "more".toList] := by
    have hdots : "  ... ".toList = [' ', ' '] ++ ("...".toList ++ [' ']) := rfl
    have hmore : " more".toList = ' ' :: "more".toList := rfl
    have hword : wordsOf "...".toList = ["...".toList] ∧ wordsOf "more".toList = ["more".toList] :=
      ⟨wordsOf_of_not_mem (by decide) (by decide), wordsOf_of_not_mem (by decide) (by decide)⟩
    simp only [String.toList_append, hdots, hmore, List.append_assoc, List.cons_append,
      List.nil_append, wordsOf_blank, wordsOf_append, (isWord_natural n).wordsOf_eq, hword.1,
      hword.2]
  rw [hwords]
  exact Nat.ne_of_beq_eq_false rfl

/-- The first consumers have shares. -/
theorem get?_of_mem_top {limit : Nat} {e : Consumer × Charge} (h : e ∈ r.top limit) :
    ∃ s, r.shares.get? e.1 = some s ∧ s.charge = e.2 := by
  rw [r.top_eq] at h
  obtain ⟨⟨consumer, s⟩, hs, rfl⟩ := List.mem_map.1 h
  have hmem : (consumer, s) ∈ r.shares.entries :=
    (List.mergeSort_perm _ _).mem_iff.1 (List.mem_of_mem_take hs)
  exact ⟨s, SortedMap.get?_eq_some_iff.2 hmem, rfl⟩

/-- **Below its heading, the third column has the charges of the first consumers.** -/
theorem tableColumn_reportLines (limit : Nat) : tableColumn 2 (reportLines limit r) =
    if r.shares.isEmpty then [] else "POWER" :: (r.top limit).map fun e => Charge.text e.2 := by
  have hheading : wordsOf (shareColumns (alignRight 10 "CONSUMER") "TIME(ms)" "POWER" "RX" "TX"
      "MODEL").toList = ["CONSUMER".toList, "TIME(ms)".toList] ++ "POWER".toList ::
        ["RX".toList, "TX".toList, "MODEL".toList] := by decide
  have hrows (rows : List (Consumer × Charge)) (h : ∀ e ∈ rows, e ∈ r.top limit) :
      tableColumn 2 (rows.flatMap fun e => ((r.shares.get? e.1).map (shareLines e.1)).getD []) =
        rows.map fun e => Charge.text e.2 := by
    induction rows with
    | nil => rfl
    | cons e rows ih =>
      obtain ⟨s, hget, hcharge⟩ := r.get?_of_mem_top (h e List.mem_cons_self)
      rw [List.flatMap_cons, tableColumn_append, hget, Option.map_some, Option.getD_some,
        tableColumn_shareLines, hcharge, ih fun e he => h e (List.mem_cons_of_mem _ he)]
      rfl
  have hmore : tableColumn 2
      (if limit < r.shares.size then ["  ... " ++ toString (r.shares.size - limit) ++ " more"]
      else []) = [] := by
    split
    · exact tableColumn_more 2 _
    · rfl
  unfold reportLines
  rw [tableColumn_append, tableColumn_head, List.nil_append]
  by_cases hempty : r.shares.isEmpty = true
  · rw [if_pos hempty, if_pos hempty]
    rfl
  · rw [if_neg hempty, if_neg hempty, tableColumn_append, tableColumn_append, hmore,
      hrows _ fun _ => id, tableColumn_cons_of_words_ne (by decide),
      tableColumn_row hheading rfl rfl, List.append_nil]
    rfl

/-! ## 5. The charges in the table -/

theorem pairwise_top (limit : Nat) :
    (r.top limit).Pairwise fun a b => b.2.totalPlace ≤ a.2.totalPlace :=
  (pairwise_mergeSort_le (fun e : Consumer × Charge => e.2.totalPlace) _).sublist
    (List.take_sublist limit _)

theorem length_top (limit : Nat) : (r.top limit).length = min limit r.shares.size := by
  rw [r.top_eq, List.length_map, List.length_take, ranked, List.length_mergeSort]
  rfl

/-- Finite charges are listed in the order of their sizes. -/
theorem pairwise_shown_top (h : ∀ s ∈ r.shares.values, s.charge.isFinite = true) (limit : Nat) :
    (r.top limit).Pairwise fun a b => Charge.shown b.2 ≤ Charge.shown a.2 := by
  have hfinite : ∀ e ∈ r.top limit, e.2.isFinite = true := by
    intro e he
    obtain ⟨s, hget, hcharge⟩ := r.get?_of_mem_top he
    exact hcharge ▸ h s (List.mem_map.2 ⟨_, SortedMap.get?_eq_some_iff.1 hget, rfl⟩)
  refine (r.pairwise_top limit).imp_of_mem fun {a b} ha hb hle => ?_
  refine Charge.shown_mono (hfinite b hb) (hfinite a ha) ?_
  exact Binary64.le_of_place_le (Binary64.isNaN_of_isFinite (hfinite b hb))
    (Binary64.isNaN_of_isFinite (hfinite a ha)) (Binary64.place_le_of_totalPlace_le hle)

/-- **Texts of charges never invert a ranking.** Of two finite charges the smaller one is not shown
as the greater number; and in the table of a printed report whose shares have finite charges, the
third column has a number for each of the first consumers, and these numbers descend. -/
theorem charges_descend :
    (∀ x y : Charge, x.isFinite = true → y.isFinite = true → x ≤ y →
      ∃ d e, rationalOf? x.text.toList = some d ∧ rationalOf? y.text.toList = some e ∧ d ≤ e) ∧
    ∀ (r : Report) (limit : Nat), (∀ s ∈ r.shares.values, s.charge.isFinite = true) →
      ∃ (texts : List String) (numbers : List ℚ),
        tableColumn 2 (reportLines limit r) =
          (if r.shares.isEmpty then [] else ["POWER"]) ++ texts ∧
        texts.map (fun text => rationalOf? text.toList) = numbers.map some ∧
        numbers.length = min limit r.shares.size ∧
        numbers.Pairwise fun d e => e ≤ d := by
  refine ⟨fun x y hx hy hle => ⟨x.shown, y.shown, Charge.rationalOf?_text hx,
    Charge.rationalOf?_text hy, Charge.shown_mono hx hy hle⟩, fun r limit h => ?_⟩
  refine ⟨(r.top limit).map fun e => Charge.text e.2, (r.top limit).map fun e => Charge.shown e.2,
    ?_, ?_, ?_, ?_⟩
  · rw [tableColumn_reportLines]
    split
    · rename_i hempty
      have hsize : r.shares.size = 0 := List.length_eq_zero_iff.2 (List.isEmpty_iff.1 hempty)
      have hnone : r.top limit = [] := by
        rw [← List.length_eq_zero_iff, length_top, hsize, Nat.min_zero]
      rw [hnone]
      rfl
    · rfl
  · rw [List.map_map, List.map_map]
    refine List.map_congr_left fun e he => ?_
    obtain ⟨s, hget, hcharge⟩ := r.get?_of_mem_top he
    exact Charge.rationalOf?_text
      (hcharge ▸ h s (List.mem_map.2 ⟨_, SortedMap.get?_eq_some_iff.1 hget, rfl⟩))
  · rw [List.length_map, length_top]
  · exact List.pairwise_map.2 (r.pairwise_shown_top h limit)

/-- A charge just below one has more places in its text than one itself. -/
theorem charges_descend_to_one :
    let below : Charge := (⟨9996, -4⟩ : Decimal).toBinary64 false
    let share (charge : Charge) : Share := ⟨⟨100⟩, charge, none, .estimated, none, none⟩
    let r : Report :=
      { component := .wifi
        device := ⟨⟨0⟩, .zero, .estimated⟩
        tracked := ⟨⟨0⟩, .zero, .estimated⟩
        systemDuration := ⟨0⟩
        systemCharge := .zero
        shares := .ofList [(⟨1⟩, share below), (⟨2⟩, share (.ofNat 1)), (⟨3⟩, share (-below))] }
    below.text = "1.000" ∧ Charge.text (.ofNat 1) = "1.00" ∧
      (∃ d e, rationalOf? below.text.toList = some d ∧
        rationalOf? (Charge.text (.ofNat 1)).toList = some e ∧ d ≤ e) ∧
      ∃ (texts : List String) (numbers : List ℚ),
        tableColumn 2 (reportLines 5 r) =
          (if r.shares.isEmpty then [] else ["POWER"]) ++ texts ∧
        texts.map (fun text => rationalOf? text.toList) = numbers.map some ∧
        numbers.length = min 5 r.shares.size ∧
        numbers.Pairwise fun d e => e ≤ d := by
  intro below share r
  have hle : below ≤ Binary64.ofNat 1 :=
    Binary64.le_of_place_le (by decide +kernel) (by decide +kernel) (by decide +kernel)
  exact ⟨by decide +kernel, by decide +kernel,
    charges_descend.1 below (.ofNat 1) (by decide +kernel) (by decide +kernel) hle,
    charges_descend.2 r 5 (by decide +kernel)⟩

end Report

end PowerShare
