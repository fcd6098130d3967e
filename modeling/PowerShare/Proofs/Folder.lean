import Mathlib.Data.List.Basic
import PowerShare.Folder

/-!
# Files that were written and read

A path leads to a file through directories that are there. Writing the file adds it or replaces
what it held, and touches nothing else; no directory comes or goes:

* `Folder.put` -- the folder with other content in one file;
* `Folder.Takes` -- a path that leads to a file of that name, which is there or can be made, and
  which keeps what it is given; `Folder.takes_iff` says which paths do;
* `Folder.Reached` -- the places that a walk comes to, and `Folder.hasDirectory_put`: below such a
  place a new file makes no directory that was not there;
* `Folder.Takes.put` -- so writing one file closes the way to no other;
* `Folder.Takes.read` -- and what was written is what is read.
-/

namespace PowerShare

/-! ## 1. Files by name -/

namespace Folder

/-- The folder with the given content in the file of this name. -/
def put (f : Folder) (name : String) (bytes : List UInt8) : Folder :=
  { f with files := putFile name bytes f.files }

variable {f : Folder} {name other : String} {bytes bytes' : List UInt8}

theorem get?_put : (f.put name bytes).get? name = some bytes := by
  unfold get? put
  dsimp only
  induction f.files with
  | nil => simp [putFile]
  | cons e rest ih =>
    unfold putFile
    by_cases h : e.1 = name
    · simp [h]
    · simp [h, ih]

/-- Other files keep what they hold. -/
theorem get?_put_of_ne (h : other ≠ name) : (f.put name bytes).get? other = f.get? other := by
  unfold get? put
  dsimp only
  induction f.files with
  | nil => simp [putFile, Ne.symm h]
  | cons e rest ih =>
    unfold putFile
    by_cases he : e.1 = name
    · simp [he, Ne.symm h]
    · by_cases ho : e.1 = other
      · simp [ho, h]
      · simp [he, ho, ih]

/-- Of two contents for one file, the later one stays. -/
theorem put_put : (f.put name bytes).put name bytes' = f.put name bytes' := by
  unfold put
  congr 1
  induction f.files with
  | nil => simp [putFile]
  | cons e rest ih =>
    unfold putFile
    by_cases h : e.1 = name
    · simp [h, putFile]
    · simp [h, putFile, ih]

theorem put_injective (h : f.put name bytes = f.put name bytes') : bytes = bytes' := by
  have hget : (f.put name bytes).get? name = (f.put name bytes').get? name := congrArg (·.get? name) h
  rw [get?_put, get?_put] at hget
  exact Option.some.inj hget

theorem mem_names_put {e : String} :
    e ∈ (f.put name bytes).files.map (·.1) ↔ e = name ∨ e ∈ f.files.map (·.1) := by
  unfold put
  dsimp only
  induction f.files with
  | nil => simp [putFile]
  | cons first rest ih =>
    unfold putFile
    by_cases h : first.1 = name
    · simp [h]
    · simp only [beq_iff_eq, h, if_false, List.map_cons, List.mem_cons, ih]
      exact or_left_comm

theorem hasDevice_put (p : Place) : (f.put name bytes).hasDevice p = f.hasDevice p := rfl

end Folder

/-! ## 2. Places -/

/-- A place is found again in its path. -/
theorem segments_pathOf {p : Place} (hne : p ≠ []) (h : ∀ s ∈ p, '/' ∉ s) :
    segments (pathOf p) = p := by
  unfold segments pathOf
  rw [String.toList_ofList]
  exact splitAt_intercalate hne h

/-- A name leads to the place below. -/
theorem Place.step_of_named (p : Place) {last : List Char}
    (h : isStill last = false ∧ last ≠ upward) : p.step last = p ++ [last] := by
  unfold Place.step
  simp [h.1, h.2]

theorem not_mem_of_mem_segments {path : String} {s : List Char} (h : s ∈ segments path) :
    '/' ∉ s :=
  not_mem_of_mem_splitAt h

namespace Folder

variable {f : Folder} {p : Place} {segment : List Char}

/-- What a walk comes to: a place whose names have no slash, below directories only. -/
structure Reached (f : Folder) (p : Place) : Prop where
  named : ∀ s ∈ p, '/' ∉ s
  above : ∀ d, d <+: p → d ≠ p → f.hasDirectory d = true

/-- A directory that was reached has directories above it, up to where it starts. -/
theorem Reached.prefixes (h : f.Reached p) (hp : f.hasDirectory p = true) :
    ∀ d, d <+: p → f.hasDirectory d = true := by
  intro d hd
  by_cases heq : d = p
  · rw [heq]
    exact hp
  · exact h.above d hd heq

/-- One more name below a directory. -/
theorem Reached.concat (h : f.Reached p) (hp : f.hasDirectory p = true) (hs : '/' ∉ segment) :
    f.Reached (p ++ [segment]) where
  named s hs' := by
    rcases List.mem_append.1 hs' with hs' | hs'
    · exact h.named s hs'
    · rw [List.mem_singleton.1 hs']
      exact hs
  above d hd hne := by
    rcases List.prefix_concat_iff.1 hd with rfl | hd
    · exact absurd rfl hne
    · exact h.prefixes hp d hd

theorem Reached.above_place (h : f.Reached p) (hp : f.hasDirectory p = true) :
    f.Reached p.above := by
  have hup : '/' ∉ upward := by decide
  unfold Place.above
  cases hlast : p.getLast? with
  | none =>
    obtain rfl := List.getLast?_eq_none_iff.1 hlast
    exact h.concat hp hup
  | some last =>
    dsimp only
    split
    · exact h
    · split
      · exact h.concat hp hup
      · refine ⟨fun s hs => h.named s (List.dropLast_subset p hs), fun d hd hne => ?_⟩
        exact h.prefixes hp d (hd.trans (List.dropLast_prefix p))

theorem Reached.step (h : f.Reached p) (hp : f.hasDirectory p = true) (hs : '/' ∉ segment) :
    f.Reached (p.step segment) := by
  unfold Place.step
  split
  · exact h
  · split
    · exact h.above_place hp
    · exact h.concat hp hs

theorem reached_start (path : String) : f.Reached (Place.start path) := by
  unfold Place.start
  split
  · refine ⟨by decide, fun d hd hne => ?_⟩
    rcases List.prefix_cons_iff.1 hd with rfl | ⟨t, rfl, ht⟩
    · rfl
    · exact absurd (by rw [List.prefix_nil.1 ht]) hne
  · refine ⟨by simp, fun d hd hne => absurd (List.prefix_nil.1 hd) hne⟩

/-! ## 3. Walks -/

theorem enter_eq_ok_iff {next : Place} : f.enter p segment = .ok next ↔
    f.hasDirectory p = true ∧ next = p.step segment ∧
      ((isStill segment = true ∨ segment = upward) ∨
        ((String.ofList segment).utf8ByteSize ≤ longestName ∧
          (f.hasDirectory next = true ∨ f.hasDevice next = true ∨
            (f.get? (pathOf next)).isSome = true))) := by
  unfold enter
  dsimp only
  by_cases hp : f.hasDirectory p = true
  · by_cases hstill : isStill segment = true ∨ segment = upward
    · simp only [hp, Bool.not_true, Bool.false_eq_true, if_false, Bool.or_eq_true, beq_iff_eq,
        hstill, if_true, Except.ok.injEq, true_or, and_true, true_and]
      exact eq_comm
    · by_cases hlong : longestName < (String.ofList segment).utf8ByteSize
      · simp [hp, hstill, hlong, Nat.not_le_of_lt hlong]
      · by_cases hthere : f.hasDirectory (p.step segment) = true ∨
            f.hasDevice (p.step segment) = true ∨
              (f.get? (pathOf (p.step segment))).isSome = true
        · simp only [hp, Bool.not_true, Bool.false_eq_true, if_false, Bool.or_eq_true, beq_iff_eq,
            hstill, hlong, or_assoc, hthere, if_true, Except.ok.injEq, true_and, false_or,
            Nat.le_of_not_lt hlong]
          constructor
          · intro h
            subst h
            exact ⟨rfl, hthere⟩
          · intro h
            exact h.1.symm
        · simp only [hp, Bool.not_true, Bool.false_eq_true, if_false, Bool.or_eq_true, beq_iff_eq,
            hstill, hlong, or_assoc, hthere, reduceCtorEq, true_and, false_or, false_iff,
            Nat.le_of_not_lt hlong]
          intro h
          rw [h.1] at h
          exact hthere h.2
  · simp [hp]

theorem walk_eq_ok_iff {path : String} {ss : List (List Char)} : f.walk path ss = .ok p ↔
    path.isEmpty = false ∧ path.utf8ByteSize ≤ longestPath ∧
      ss.foldlM f.enter (Place.start path) = .ok p := by
  unfold walk
  by_cases hempty : path.isEmpty = true
  · simp [hempty]
  · by_cases hlong : longestPath < path.utf8ByteSize
    · simp [hempty, hlong, Nat.not_le_of_lt hlong]
    · simp [hempty, hlong, Nat.le_of_not_lt hlong]

/-- A walk on comes to a place that was reached. -/
theorem Reached.foldlM_enter {ss : List (List Char)} {start : Place} (h : f.Reached start)
    (hss : ∀ s ∈ ss, '/' ∉ s) (hp : ss.foldlM f.enter start = .ok p) : f.Reached p := by
  induction ss generalizing start with
  | nil =>
    rw [← Except.ok.inj hp]
    exact h
  | cons s ss ih =>
    rw [List.foldlM_cons] at hp
    cases henter : f.enter start s with
    | error e =>
      rw [henter] at hp
      cases hp
    | ok next =>
      rw [henter] at hp
      obtain ⟨hstart, rfl, -⟩ := enter_eq_ok_iff.1 henter
      exact ih (h.step hstart (hss s List.mem_cons_self))
        (fun s' hs' => hss s' (List.mem_cons_of_mem s hs')) hp

theorem reached_of_walk {path : String} {ss : List (List Char)} (hss : ∀ s ∈ ss, '/' ∉ s)
    (h : f.walk path ss = .ok p) : f.Reached p :=
  (reached_start path).foldlM_enter hss (walk_eq_ok_iff.1 h).2.2

/-! ## 4. Paths of files -/

/-- The path ends with a name below a directory, where there is or may be a file. -/
structure Spot (f : Folder) (path : String) (directory : Place) (last : List Char) : Prop where
  ends : ∃ front, segments path = front ++ [last] ∧ f.walk path front = .ok directory
  there : f.hasDirectory directory = true
  named : isStill last = false ∧ last ≠ upward
  short : (String.ofList last).utf8ByteSize ≤ longestName
  free : f.hasDirectory (directory ++ [last]) = false ∧ f.hasDevice (directory ++ [last]) = false

/-- The path leads to a file of this name, which is there or can be made. Whatever is written there
is kept. -/
def Takes (f : Folder) (path name : String) : Prop :=
  ∀ bytes, f.write path bytes = .ok (f.put name bytes)

variable {path : String} {directory : Place} {last : List Char}

theorem segmentsToName_prefix_segments (path : String) : segmentsToName path <+: segments path := by
  unfold segmentsToName
  rw [← List.reverse_suffix, List.reverse_reverse]
  exact List.dropWhile_suffix _

theorem segmentsToName_of_named {front : List (List Char)}
    (hends : segments path = front ++ [last]) (h : isStill last = false) :
    segmentsToName path = segments path := by
  have hlast : last.isEmpty = false := by
    unfold isStill at h
    exact (Bool.or_eq_false_iff.1 h).1
  unfold segmentsToName
  rw [hends, List.reverse_append, List.reverse_singleton, List.singleton_append,
    List.dropWhile_cons_of_neg (by simp [hlast]), List.reverse_cons, List.reverse_reverse]

/-- What is written at such a path is put under its name. -/
theorem Spot.write (h : f.Spot path directory last) (bytes : List UInt8) :
    f.write path bytes = .ok (f.put (pathOf (directory ++ [last])) bytes) := by
  obtain ⟨⟨front, hends, hwalk⟩, hthere, hnamed, hshort, hfree, hdevice⟩ := h
  have hsegments := segmentsToName_of_named hends hnamed.1
  unfold Folder.write
  simp only [hsegments, hends, List.dropLast_concat, List.getLast?_concat, hwalk]
  simp [bind, Except.bind, pure, Except.pure, hthere, hnamed, Nat.not_lt.2 hshort, hfree, hdevice,
    Place.step_of_named directory hnamed, put]

/-- Content is kept under one name only. -/
theorem Spot.name_eq {name : String} (h : f.Spot path directory last) (ht : f.Takes path name) :
    name = pathOf (directory ++ [last]) := by
  have hput (bytes : List UInt8) :
      f.put name bytes = f.put (pathOf (directory ++ [last])) bytes :=
    Except.ok.inj ((ht bytes).symm.trans (h.write bytes))
  by_contra hne
  have hget (bytes : List UInt8) : f.get? name = some bytes := by
    rw [← get?_put_of_ne hne, ← hput, get?_put]
  exact absurd (Option.some.inj ((hget []).symm.trans (hget [0]))) (by decide)

/-- A write that succeeds leaves the folder alone, as on a device, or puts the content at such a
spot. -/
theorem spot_of_write {bytes : List UInt8} {after : Folder} (h : f.write path bytes = .ok after) :
    after = f ∨ ∃ directory last, f.Spot path directory last := by
  unfold Folder.write at h
  cases hwalk : f.walk path (segmentsToName path).dropLast with
  | error e => simp [hwalk, bind, Except.bind] at h
  | ok directory =>
    cases hlast : (segmentsToName path).getLast? with
    | none =>
      simp only [hwalk, hlast, bind, Except.bind, throw, throwThe, MonadExceptOf.throw] at h
      split at h <;> cases h
    | some last =>
      simp only [hwalk, hlast, bind, Except.bind, pure, Except.pure, throw, throwThe,
        MonadExceptOf.throw] at h
      by_cases hthere : f.hasDirectory directory = true
      case neg => simp [hthere] at h
      by_cases hfile : (isStill last || last == upward ||
          decide ((segmentsToName path).length < (segments path).length)) = true
      case pos => simp [hthere, hfile] at h
      by_cases hlong : longestName < (String.ofList last).utf8ByteSize
      case pos => simp [hthere, hfile, hlong] at h
      by_cases hdirectory : f.hasDirectory (directory.step last) = true
      case pos => simp [hthere, hfile, hlong, hdirectory] at h
      by_cases hdevice : f.hasDevice (directory.step last) = true
      case pos =>
        simp only [hthere, hfile, hlong, hdirectory, hdevice, Bool.not_true, Bool.false_eq_true,
          if_false, if_true, Except.ok.injEq] at h
        exact .inl h.symm
      right
      simp only [Bool.or_eq_true, beq_iff_eq, decide_eq_true_eq, not_or, Bool.not_eq_true,
        Nat.not_lt] at hfile hdirectory hdevice
      have hnamed : isStill last = false ∧ last ≠ upward := hfile.1
      have hsegments : segmentsToName path = segments path :=
        (segmentsToName_prefix_segments path).eq_of_length_le hfile.2
      obtain ⟨front, hfront⟩ := List.getLast?_eq_some_iff.1 hlast
      rw [Place.step_of_named directory hnamed] at hdirectory hdevice
      rw [hfront, List.dropLast_concat] at hwalk
      exact ⟨directory, last, ⟨front, hsegments ▸ hfront, hwalk⟩, hthere, hnamed,
        Nat.le_of_not_lt hlong, hdirectory, hdevice⟩

/-- **The paths that take what is written**: those that end with a name where there is or may be a
file, below a directory that a walk comes to. -/
theorem takes_iff {name : String} : f.Takes path name ↔
    ∃ directory last, f.Spot path directory last ∧ name = pathOf (directory ++ [last]) := by
  constructor
  · intro h
    rcases spot_of_write (h []) with hnil | ⟨directory, last, hspot⟩
    · rcases spot_of_write (h [0]) with hzero | ⟨directory, last, hspot⟩
      · exact absurd (put_injective (hnil.trans hzero.symm)) (by decide)
      · exact ⟨directory, last, hspot, hspot.name_eq h⟩
    · exact ⟨directory, last, hspot, hspot.name_eq h⟩
  · rintro ⟨directory, last, hspot, rfl⟩ bytes
    exact hspot.write bytes

/-- A plain name is the path of the file of that name. -/
theorem takes_of_name {name : String} (hslash : '/' ∉ name.toList)
    (hnamed : isStill name.toList = false ∧ name.toList ≠ upward)
    (hshort : name.utf8ByteSize ≤ longestName)
    (hfree : f.hasDirectory [name.toList] = false ∧ f.hasDevice [name.toList] = false) :
    f.Takes name name := by
  have hsegments : segments name = [] ++ [name.toList] := splitAt_of_not_mem hslash
  have hempty : name.isEmpty = false := by
    rw [Bool.eq_false_iff]
    intro hnil
    rw [String.isEmpty_iff.1 hnil] at hnamed
    exact absurd hnamed.1 (by decide)
  have hstart : Place.start name = [] := by
    unfold Place.start isAbsolute
    cases hchars : name.toList with
    | nil => rfl
    | cons c cs =>
      have hc : c ≠ '/' := fun heq => hslash (by rw [hchars, heq]; exact List.mem_cons_self)
      simp [hc]
  have hwalk : f.walk name [] = .ok [] := by
    refine walk_eq_ok_iff.2 ⟨hempty, Nat.le_trans hshort (by decide), ?_⟩
    rw [hstart]
    rfl
  have hplace : name = pathOf ([] ++ [name.toList]) := by
    simp [pathOf, List.intercalate]
  refine takes_iff.2 ⟨[], name.toList, ⟨⟨[], hsegments, hwalk⟩, rfl, hnamed, ?_, hfree⟩, hplace⟩
  rw [String.ofList_toList]
  exact hshort

/-! ## 5. What a write leaves alone -/

variable {bytes : List UInt8}

/-- The file lies below directories that were there, so no other comes to be. -/
theorem Spot.hasDirectory_put (h : f.Spot path directory last) (p : Place) :
    (f.put (pathOf (directory ++ [last])) bytes).hasDirectory p = f.hasDirectory p := by
  obtain ⟨front, hends, hwalk⟩ := h.ends
  have hreached : f.Reached directory :=
    reached_of_walk (fun s hs => not_mem_of_mem_segments
      (hends ▸ List.mem_append_left [last] hs)) hwalk
  have hlast : '/' ∉ last :=
    not_mem_of_mem_segments (hends ▸ List.mem_append_right front List.mem_cons_self)
  have hplace : segments (pathOf (directory ++ [last])) = directory ++ [last] :=
    segments_pathOf (List.concat_ne_nil last directory) (hreached.concat h.there hlast).named
  rw [Bool.eq_iff_iff]
  constructor
  · intro hp
    unfold hasDirectory at hp
    simp only [Bool.or_eq_true, List.any_eq_true, List.mem_append, mem_names_put] at hp
    rcases hp with hp | ⟨e, (rfl | he) | he, hbelow⟩
    · unfold hasDirectory
      simp only [Bool.or_eq_true]
      exact .inl hp
    · -- Below the new file itself are only the directories on the way to it.
      rw [hplace, Bool.and_eq_true, List.isPrefixOf_iff_prefix, decide_eq_true_eq] at hbelow
      rcases List.prefix_concat_iff.1 hbelow.1 with rfl | hprefix
      · exact absurd hbelow.2 (Nat.lt_irrefl _)
      · exact hreached.prefixes h.there p hprefix
    all_goals
      unfold hasDirectory
      simp only [Bool.or_eq_true, List.any_eq_true, List.mem_append]
    · exact .inr ⟨e, .inl he, hbelow⟩
    · exact .inr ⟨e, .inr he, hbelow⟩
  · intro hp
    unfold hasDirectory at hp ⊢
    simp only [Bool.or_eq_true, List.any_eq_true, List.mem_append, mem_names_put] at hp ⊢
    rcases hp with hp | ⟨e, he, hbelow⟩
    · exact .inl hp
    · exact .inr ⟨e, he.imp_left .inr, hbelow⟩

/-- A step that led somewhere still does. -/
theorem Spot.enter_put {start next : Place} {segment : List Char}
    (h : f.Spot path directory last) (he : f.enter start segment = .ok next) :
    (f.put (pathOf (directory ++ [last])) bytes).enter start segment = .ok next := by
  obtain ⟨hstart, rfl, hnext⟩ := enter_eq_ok_iff.1 he
  refine enter_eq_ok_iff.2 ⟨(h.hasDirectory_put start).trans hstart, rfl, ?_⟩
  rw [h.hasDirectory_put, hasDevice_put]
  refine hnext.imp_right fun hthere => ⟨hthere.1, hthere.2.imp_right fun hthere =>
    hthere.imp_right fun hget => ?_⟩
  by_cases heq : pathOf (start.step segment) = pathOf (directory ++ [last])
  · rw [heq, get?_put]
    rfl
  · rw [get?_put_of_ne heq]
    exact hget

/-- A way that was open stays open. -/
theorem Spot.walk_put {other : String} {ss : List (List Char)} {p : Place}
    (h : f.Spot path directory last) (hw : f.walk other ss = .ok p) :
    (f.put (pathOf (directory ++ [last])) bytes).walk other ss = .ok p := by
  obtain ⟨hempty, hlong, hfold⟩ := walk_eq_ok_iff.1 hw
  refine walk_eq_ok_iff.2 ⟨hempty, hlong, ?_⟩
  clear hw
  generalize Place.start other = start at hfold ⊢
  induction ss generalizing start with
  | nil => exact hfold
  | cons s ss ih =>
    rw [List.foldlM_cons] at hfold ⊢
    cases hnext : f.enter start s with
    | error e =>
      rw [hnext] at hfold
      cases hfold
    | ok next =>
      rw [hnext] at hfold
      rw [h.enter_put hnext]
      exact ih next hfold

/-- **Writing one file closes the way to no other.** -/
theorem Takes.put {name other place : String} (h : f.Takes path name) (ho : f.Takes other place) :
    (f.put name bytes).Takes other place := by
  obtain ⟨directory, last, hspot, rfl⟩ := takes_iff.1 h
  obtain ⟨directory', last', hspot', rfl⟩ := takes_iff.1 ho
  obtain ⟨⟨front, hends, hwalk⟩, hthere, hnamed, hshort, hfree, hdevice⟩ := hspot'
  refine takes_iff.2 ⟨directory', last', ⟨⟨front, hends, hspot.walk_put hwalk⟩, ?_, hnamed, hshort,
    ?_, hdevice⟩, rfl⟩
  · rw [hspot.hasDirectory_put, hthere]
  · rw [hspot.hasDirectory_put, hfree]

/-- **What the file holds is what is read there.** -/
theorem Takes.read {name : String} (h : f.Takes path name) (hget : f.get? name = some bytes) :
    f.read path = .ok bytes := by
  obtain ⟨directory, last, ⟨⟨front, hends, hwalk⟩, hthere, hnamed, hshort, hfree, hdevice⟩, rfl⟩ :=
    takes_iff.1 h
  obtain ⟨hempty, hlong, hfold⟩ := walk_eq_ok_iff.1 hwalk
  have henter : f.enter directory last = .ok (directory ++ [last]) := by
    refine enter_eq_ok_iff.2 ⟨hthere, (directory.step_of_named hnamed).symm, .inr ⟨hshort, ?_⟩⟩
    rw [hget]
    exact .inr (.inr rfl)
  have hall : f.walk path (segments path) = .ok (directory ++ [last]) := by
    refine walk_eq_ok_iff.2 ⟨hempty, hlong, ?_⟩
    rw [hends, List.foldlM_append, hfold]
    simp [bind, Except.bind, henter, pure, Except.pure]
  unfold Folder.read
  simp [bind, Except.bind, pure, Except.pure, hall, hfree, hdevice, hget]

end Folder

end PowerShare
