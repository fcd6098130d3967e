import Mathlib.Data.List.Forall2
import Mathlib.Data.List.Nodup
import PowerShare.Proofs.Toml.Lines

/-!
# Tables beneath one name

Tables that stand one after another beneath one name are complete as soon as the next header comes,
so each is put behind the ones before it:

* `beneath` and `Progress.settled_header` -- what one more table does to what was read before, and
  `foldlM_linesOfTables` what all of them do;
* `closeMembers_eq` -- what grows no more is closed member by member;
* `parse_tables` -- **a text of such tables, whose keys are distinct, is parsed as just these
  tables.**
-/

namespace PowerShare.Toml

/-! ## 1. Lines of tables -/

/-- A table by its name, with its members. -/
abbrev NamedTable := String × List (String × Value)

def linesOfTable (parent : String) (t : NamedTable) : List Line :=
  .header false ⟨parent, [t.1]⟩ :: t.2.map fun e => .entry ⟨e.1, []⟩ (.value e.2)

/-- The lines of tables beneath one name. -/
def linesOfTables (parent : String) (tables : List NamedTable) : List Line :=
  tables.flatMap (linesOfTable parent)

/-- A finished table, as long as other lines may come. -/
def nodeOf (t : NamedTable) : String × Node :=
  (t.1, .table .stated (t.2.map fun e => (e.1, .value e.2)))

/-- Tables beneath one name, which is there if one of them is. -/
def beneath (parent : String) : Members → Members
  | [] => []
  | t :: tables => [(parent, .table .implied (t :: tables))]

/-! ## 2. Reading them -/

/-- What has a new key is put behind the others. -/
theorem change_of_not_mem {key : String} (how : Node → Option Node) (new : Node) {ms : Members}
    (h : key ∉ ms.map (·.1)) : ms.change key how new = ms ++ [(key, new)] := by
  induction ms with
  | nil => rfl
  | cons m ms ih =>
    obtain ⟨k, node⟩ := m
    rw [List.map_cons, List.mem_cons, not_or] at h
    rw [Members.change, if_neg fun heq => h.1 (beq_iff_eq.1 heq).symm, ih h.2]
    rfl

/-- **One more table stands behind those before it.** -/
theorem Progress.settled_header {parent key : String} {done body : Members}
    (h : key ∉ done.map (·.1)) :
    ({ complete := beneath parent done, header? := some (false, ⟨parent, [key]⟩), body } :
        Progress).settled =
      beneath parent (done ++ [(key, .table .stated body)]) := by
  show (beneath parent done).place _ _ parent [key] = _
  unfold Members.place
  cases done with
  | nil => rfl
  | cons t done =>
    have hchange := change_of_not_mem (Members.stateTable body) (.table .stated body) h
    show Members.change _ _ _ [(parent, .table .implied (t :: done))] = _
    rw [Members.change, if_pos (beq_self_eq_true parent)]
    show (parent, Node.table .implied (Members.change _ _ _ (t :: done))) :: [] = _
    rw [hchange]
    rfl

/-- Entries of the open table are put behind one another. -/
theorem foldlM_entries (es : List (String × Value)) (p : Progress) :
    (es.map fun e => Line.entry ⟨e.1, []⟩ (.value e.2)).foldlM Progress.add p =
      .ok { p with body := p.body ++ es.map fun e => (e.1, .value e.2) } := by
  induction es generalizing p with
  | nil =>
    rw [List.map_nil, List.map_nil, List.append_nil]
    rfl
  | cons e es ih =>
    rw [List.map_cons, List.foldlM_cons]
    refine (ih { p with body := p.body ++ [(e.1, .value e.2)] }).trans ?_
    rw [List.append_assoc]
    rfl

/-- **Tables that are read one after another stand behind one another,** if their names are
distinct. -/
theorem foldlM_linesOfTables (parent : String) (tables : List NamedTable) (done : Members)
    {p : Progress} (hp : p.settled = beneath parent done)
    (hnames : (done.map (·.1) ++ tables.map (·.1)).Nodup) :
    ∃ p', (linesOfTables parent tables).foldlM Progress.add p = .ok p' ∧
      p'.settled = beneath parent (done ++ tables.map nodeOf) := by
  induction tables generalizing done p with
  | nil => exact ⟨p, rfl, by rw [hp, List.map_nil, List.append_nil]⟩
  | cons t tables ih =>
    have hnew : t.1 ∉ done.map (·.1) := fun hmem =>
      List.disjoint_of_nodup_append hnames hmem List.mem_cons_self
    let next : Progress :=
      { complete := p.settled, header? := some (false, ⟨parent, [t.1]⟩)
        body := t.2.map fun e => (e.1, .value e.2) }
    have hsettled : next.settled = beneath parent (done ++ [nodeOf t]) := by
      show Progress.settled { complete := p.settled, header? := _, body := _ } = _
      rw [hp]
      exact Progress.settled_header hnew
    have hrest : ((done ++ [nodeOf t]).map (·.1) ++ tables.map (·.1)).Nodup := by
      rw [List.map_append, List.append_assoc]
      exact hnames
    obtain ⟨p', hfold, hp'⟩ := ih _ hsettled hrest
    refine ⟨p', ?_, ?_⟩
    · rw [linesOfTables, List.flatMap_cons, List.foldlM_append, linesOfTable, List.foldlM_cons]
      show ((t.2.map fun e => Line.entry ⟨e.1, []⟩ (.value e.2)).foldlM Progress.add
        { complete := p.settled, header? := _, body := [] } >>= _) = _
      rw [foldlM_entries]
      exact hfold
    · rw [hp', List.append_assoc]
      rfl

/-! ## 3. Closing them -/

/-- **What grows no more is closed member by member,** if the keys are distinct. -/
theorem closeMembers_eq {nodes : Members} {values : List (String × Value)}
    (h : List.Forall₂ (fun n v => n.1 = v.1 ∧ Node.close n.2 = .ok v.2) nodes values)
    (hkeys : (nodes.map (·.1)).Nodup) : closeMembers nodes = .ok values := by
  induction h with
  | nil => rfl
  | @cons n v nodes values hn _ ih =>
    obtain ⟨key, node⟩ := n
    obtain ⟨key', value⟩ := v
    obtain ⟨rfl, hclose⟩ := hn
    rw [List.map_cons, List.nodup_cons] at hkeys
    have hnot : ¬ nodes.any (·.1 == key) = true := fun hany => by
      obtain ⟨n, hn, heq⟩ := List.any_eq_true.1 hany
      exact hkeys.1 (List.mem_map.2 ⟨n, hn, beq_iff_eq.1 heq⟩)
    rw [closeMembers, if_neg hnot, hclose, ih hkeys.2]
    rfl

/-- A table is closed member by member, unless it is a moment. -/
theorem close_table {standing : Standing} {nodes : Members} {values : List (String × Value)}
    (hmoment : momentKey ∉ nodes.map (·.1)) (h : closeMembers nodes = .ok values) :
    Node.close (.table standing nodes) = .ok (.table values) := by
  have hnone : Members.momentNode? nodes = none := by
    unfold Members.momentNode?
    split
    · rfl
    · refine if_neg fun heq => hmoment ?_
      rw [← beq_iff_eq.1 heq]
      exact List.mem_cons_self
  rw [Node.close, hnone]
  show (do return Value.table (← closeMembers nodes)) = _
  rw [h]
  rfl

/-- The names of tables and the keys in each are distinct, and none of them marks a moment. -/
structure AreSound (tables : List NamedTable) : Prop where
  names : (tables.map (·.1)).Nodup
  keys : ∀ t ∈ tables, (t.2.map (·.1)).Nodup
  name_ne : momentKey ∉ tables.map (·.1)
  key_ne : ∀ t ∈ tables, momentKey ∉ t.2.map (·.1)

theorem close_nodeOf {t : NamedTable} (hkeys : (t.2.map (·.1)).Nodup)
    (hmoment : momentKey ∉ t.2.map (·.1)) : (nodeOf t).2.close = .ok (.table t.2) := by
  have hmap : (t.2.map fun e => (e.1, Node.value e.2)).map (·.1) = t.2.map (·.1) := by
    rw [List.map_map]
    rfl
  refine close_table (hmap ▸ hmoment) (closeMembers_eq ?_ (hmap ▸ hkeys))
  rw [List.forall₂_map_left_iff, List.forall₂_same]
  exact fun e _ => ⟨rfl, rfl⟩

theorem closeMembers_nodeOf {tables : List NamedTable} (h : AreSound tables) :
    closeMembers (tables.map nodeOf) = .ok (tables.map fun t => (t.1, .table t.2)) := by
  have hmap : (tables.map nodeOf).map (·.1) = tables.map (·.1) := by
    rw [List.map_map]
    rfl
  refine closeMembers_eq ?_ (hmap ▸ h.names)
  rw [List.forall₂_map_left_iff, List.forall₂_map_right_iff, List.forall₂_same]
  exact fun t ht => ⟨rfl, close_nodeOf (h.keys t ht) (h.key_ne t ht)⟩

/-- **A text of tables beneath one name is parsed as just these tables.** -/
theorem parse_tables {text : List Char} {parent : String} {tables : List NamedTable}
    (h : Writes text (linesOfTables parent tables)) (hne : tables ≠ [])
    (hparent : parent ≠ momentKey) (hsound : AreSound tables) :
    parse text = .ok (.table [(parent, .table (tables.map fun t => (t.1, .table t.2)))]) := by
  obtain ⟨p, hfold, hp⟩ := foldlM_linesOfTables parent tables [] (p := {}) rfl
    (by rw [List.map_nil, List.nil_append]; exact hsound.names)
  have hclosed : Node.close (.table .implied (tables.map nodeOf)) =
      .ok (.table (tables.map fun t => (t.1, .table t.2))) := by
    refine close_table ?_ (closeMembers_nodeOf hsound)
    rw [List.map_map]
    exact hsound.name_ne
  have hsettled : p.settled = [(parent, .table .implied (tables.map nodeOf))] := by
    obtain ⟨t, rest, rfl⟩ := List.exists_cons_of_ne_nil hne
    exact hp
  have hlines := h.linesOf_eq
  unfold parse
  cases htokens : tokens text with
  | error e =>
    rw [htokens] at hlines
    cases hlines
  | ok ts =>
    rw [htokens] at hlines
    have hlinesOf : linesOf ts = .ok (linesOfTables parent tables) := hlines
    show (do
      let lines ← linesOf ts
      let progress ← lines.foldlM Progress.add {}
      Node.close (.table .stated progress.settled)) = _
    rw [hlinesOf]
    show (do
      let progress ← (linesOfTables parent tables).foldlM Progress.add {}
      Node.close (.table .stated progress.settled)) = _
    rw [hfold]
    show Node.close (.table .stated p.settled) = _
    rw [hsettled]
    refine close_table ?_ (closeMembers_eq (.cons ⟨rfl, hclosed⟩ .nil) (List.nodup_singleton _))
    rw [List.map_singleton, List.mem_singleton]
    exact hparent.symm

end PowerShare.Toml
