import PowerShare.Proofs.Attribution.Sign
import PowerShare.Proofs.Json.Tokens
import PowerShare.Proofs.Number.Bound
import PowerShare.Sink

/-!
# Charges that are not finite

The currents of a checked profile are finite, and so is every reported charge that counts; but
nothing bounds their sizes, so that a product with a duration or a sum over consumers may be
infinite, and a difference of two such sums no number at all.

* `Share.charges` and `Report.charges` -- all charges of a share and of a report;
* `Sample.forall_charges_share` -- what holds of the four kinds of charge holds of all charges of a
  share;
* `Observation.isFinite_charges` -- bounds on the currents and on the reported charges under which no
  charge of a report passes the finite numbers;
* `Report.null_isInfix_iff` -- the text of a report has `null` in it just where a charge is not
  finite;
* `Observations.overflowing_charges` and `Observations.finite_charges` -- so not all charges of all
  reports are finite, and which are.
-/

namespace PowerShare

open Binary64

/-! ## 1. All charges of a report -/

/-- The charge of a share and those of its breakdown. -/
def Share.charges (s : Share) : List Charge := s.charge :: (s.byState?.map (·.values)).getD []

/-- All charges of a report. -/
def Report.charges (r : Report) : List Charge :=
  [r.device.charge, r.tracked.charge, r.systemCharge] ++ r.shares.values.flatMap Share.charges

theorem mem_values_breakdown {asked : Bool} {charge : RunState → Charge}
    {m : SortedMap RunState Charge} (hm : breakdown asked charge = some m) {c : Charge}
    (hc : c ∈ m.values) : ∃ state, c = charge state := by
  unfold breakdown at hm
  split at hm
  · obtain rfl := Option.some.inj hm
    have hmem := SortedMap.mem_values_ofList hc
    rw [List.map_map] at hmem
    obtain ⟨state, -, rfl⟩ := List.mem_map.1 hmem
    exact ⟨state, rfl⟩
  · cases hm

/-- **What holds of zero, of measured and of reported charges, and of estimates where there are any,
holds of all charges of a share.** -/
theorem Sample.forall_charges_share {P : Charge → Prop} (s : Sample) (k : Consumer)
    {currents : Currents} {options : Options} (hzero : P .zero)
    (hmeasured : ∀ energy?, P (measuredCharge (measuredEnergy? energy?)))
    (hreported : ∀ c, s.reported? = some c → P c)
    (hestimated : s.basis currents options = .estimated → ∀ c : Counters, P (c.estimate currents)) :
    ∀ c ∈ (s.share k currents options).charges, P c := by
  have hdraw : P (s.bestDraw currents options options.breakdown).charge ∧
      ∃ charge, (∀ state, P (charge state)) ∧
        (s.bestDraw currents options options.breakdown).byState? =
          breakdown options.breakdown charge := by
    unfold bestDraw
    cases hbasis : s.basis currents options with
    | measured => exact ⟨hmeasured _, _, fun _ => hmeasured _, rfl⟩
    | estimated => exact ⟨hestimated hbasis _, _, fun _ => hestimated hbasis _, rfl⟩
    | unavailable => exact ⟨hzero, _, fun _ => hzero, rfl⟩
    | reported =>
      refine ⟨?_, _, fun _ => hzero, rfl⟩
      show P (s.reported?.getD .zero)
      cases h : s.reported? with
      | none => exact hzero
      | some c => exact hreported c h
  obtain ⟨hcharge, charge, hstates, hbreakdown⟩ := hdraw
  intro c hc
  rcases List.mem_cons.1 hc with rfl | hc
  · exact hcharge
  · have hkeys : (s.share k currents options).byState? =
        (breakdown options.breakdown charge).map fun m =>
          SortedMap.ofList (m.entries.map fun e => (StateKey.mk k e.1, e.2)) := by
      rw [← hbreakdown]
      rfl
    rw [hkeys] at hc
    cases hm : breakdown options.breakdown charge with
    | none =>
      rw [hm] at hc
      cases hc
    | some m =>
      rw [hm] at hc
      have hmem := SortedMap.mem_values_ofList hc
      rw [List.map_map] at hmem
      obtain ⟨state, rfl⟩ := mem_values_breakdown hm hmem
      exact hstates state

/-! ## 2. Bounds -/

theorem upTo_ofInt_toInt (energy : Int64) : (ofInt energy.toInt).UpTo (2 ^ 63) := by
  refine upTo_ofInt (fits_two_pow (by decide)) ?_
  have hlow : -2 ^ 63 ≤ energy.toInt := energy.le_toInt
  have hhigh : energy.toInt < 2 ^ 63 := energy.toInt_lt
  omega

/-- A measured energy, rescaled in the first of its two steps. -/
theorem upTo_ofInt_div (energy : Int64) :
    (ofInt energy.toInt / ofNat 3600000000).UpTo (2 ^ 32) :=
  (upTo_ofInt_toInt energy).div_ofNat (by decide) (by decide) (fits_two_pow (by decide)) (by decide)

/-- A measured charge is small. -/
theorem upTo_measuredCharge (energy? : Option Int64) {k : Nat} (hk : 42 ≤ k) :
    (measuredCharge energy?).UpTo (2 ^ k) := by
  cases energy? with
  | none => exact within_zero rfl
  | some energy =>
    have hthousand : (ofNat 1000).UpTo (2 ^ 10) :=
      upTo_ofInt (fits_two_pow (by decide)) (by decide)
    have hcharge : (Charge.ofEnergy energy).UpTo (2 ^ 42) :=
      (upTo_ofInt_div energy).mul hthousand (fits_two_pow (by decide)) (by decide)
    exact hcharge.mono (Nat.pow_le_pow_right (by decide) hk)

theorem upTo_ofNat_toNat (d : Duration) : (ofNat d.toNat).UpTo (2 ^ 64) :=
  upTo_ofNat_of_lt d.toNat_lt

/-- Currents up to a bound draw charges up to some bits more, however long. -/
theorem Counters.upTo_estimate {currents : Currents} {k : Nat} (hk : k < 958)
    (h : ∀ m ∈ currents.modes, m.2.UpTo (2 ^ k)) (c : Counters) :
    (c.estimate currents).UpTo (2 ^ (k + 45)) := by
  have hproduct (d : Duration) (m : Mode × Binary64) (hm : m ∈ currents.modes) :
      (ofNat d.toNat * m.2).UpTo (2 ^ (k + 64)) := by
    refine (upTo_ofNat_toNat d).mul (h m hm) (fits_two_pow (by omega)) (Nat.le_of_eq ?_)
    rw [Nat.mul_comm, Nat.pow_add]
  have hdouble (j : Nat) : 2 ^ j + 2 ^ j ≤ 2 ^ (j + 1) := by
    rw [Nat.pow_succ]
    omega
  have hidle := hproduct c.idle (.idle, currents.idle) (by simp [Currents.modes])
  have hrx := hproduct c.rx (.rx, currents.rx) (by simp [Currents.modes])
  have htx := (hproduct c.tx (.tx, currents.tx) (by simp [Currents.modes])).mono
    (Nat.pow_le_pow_right (by decide) (Nat.le_succ _))
  have hsum := (hidle.add hrx (fits_two_pow (by omega)) (hdouble _)).add htx
    (fits_two_pow (by omega)) (hdouble _)
  refine hsum.div_ofNat (by decide) (by decide) (fits_two_pow (by omega)) ?_
  calc 2 ^ (k + 64 + 1 + 1) = 2 ^ (k + 45) * 2 ^ 21 := Nat.pow_add 2 (k + 45) 21
    _ ≤ 2 ^ (k + 45) * 3600000 := Nat.mul_le_mul_left _ (by decide)

/-- Charges of a share are numbers, and finite ones unless they are estimated. -/
theorem Sample.forall_isNaN_charges (s : Sample) (k : Consumer) {component : Component}
    {currents : Currents} (options : Options) (hcheck : currents.check component = .ok ()) :
    ∀ c ∈ (s.share k currents options).charges,
      c.isNaN = false ∧ (s.basis currents options ≠ .estimated → c.isFinite = true) := by
  have hfinite {c : Charge} (h : c.isFinite = true) :
      c.isNaN = false ∧ (s.basis currents options ≠ .estimated → c.isFinite = true) :=
    ⟨isNaN_of_isFinite h, fun _ => h⟩
  refine s.forall_charges_share k (hfinite rfl)
    (fun _ => hfinite (upTo_measuredCharge _ (Nat.le_refl 42)).isFinite_eq) (fun c hc => ?_)
    fun hbasis c => ⟨?_, fun h => absurd hbasis h⟩
  · obtain ⟨-, hcounts⟩ := Option.filter_eq_some_iff.1 hc
    exact hfinite (Bool.and_eq_true_iff.1 hcounts).2
  · obtain ⟨-, husable, -⟩ := (s.basis_eq_estimated_iff currents options).1 hbasis
    exact (c.nonneg_estimate hcheck husable).isNaN_eq

namespace Observation

variable (o : Observation) (component : Component) {currents : Currents} (options : Options)

/-- **Within bounds no charge of a report passes the finite numbers:** neither a sum over as many
consumers as there are, nor what is left of the device. -/
theorem isFinite_charges {j k : Nat} (hj : j + 45 = k) (hk : k ≤ 991)
    (hcurrents : ∀ m ∈ currents.modes, m.2.UpTo (2 ^ j))
    (hreported : ∀ s ∈ o.device :: o.consumers.values, ∀ c, s.reported? = some c →
      c.UpTo (2 ^ k)) :
    ∀ c ∈ (o.shareOut component currents options).value.charges, c.isFinite = true := by
  have hcharges (s : Sample) (hs : s ∈ o.device :: o.consumers.values) (consumer : Consumer)
      (options : Options) :
      ∀ c ∈ (s.share consumer currents options).charges, c.UpTo (2 ^ k) :=
    s.forall_charges_share consumer (within_zero rfl)
      (fun _ => upTo_measuredCharge _ (by omega)) (hreported s hs)
      (fun _ c => hj ▸ c.upTo_estimate (by omega) hcurrents)
  have hfits {n : Nat} (hn : n < 2 ^ 33) : Fits (n * 2 ^ k * oneUnits) :=
    fits_mul_two_pow hn (by decide) (by omega)
  have hfew : o.consumers.entries.length ≤ 2 ^ 32 :=
    SortedMap.length_le_of_rank_lt (fun c => c.id.toNat_lt) o.consumers
  have hdevice : (o.deviceDraw currents options).charge.UpTo (2 ^ k) :=
    hcharges o.device List.mem_cons_self ⟨0⟩ { options with breakdown := false } _
      List.mem_cons_self
  have htracked : (o.consumersCharge currents options).UpTo
      ((0 + o.consumers.entries.length) * 2 ^ k) := by
    have hlength : ((o.consumerDraws currents options).map (·.charge)).length =
        o.consumers.entries.length := by
      simp [consumerDraws, SortedMap.values]
    rw [← hlength]
    refine UpTo.foldl_add (fun c hc => ?_) (within_zero rfl) fun m hm => hfits (by omega)
    obtain ⟨d, hd, rfl⟩ := List.mem_map.1 hc
    obtain ⟨s, hs, rfl⟩ := List.mem_map.1 hd
    exact hcharges s (List.mem_cons_of_mem _ hs) ⟨0⟩ options _ List.mem_cons_self
  rw [Nat.zero_add] at htracked
  have hleft : (o.chargeLeft component currents options).value.isFinite = true := by
    have hrest := hdevice.sub htracked (hfits (n := o.consumers.entries.length + 1) (by omega))
      (by rw [Nat.add_mul, Nat.one_mul, Nat.add_comm])
    unfold chargeLeft
    rcases remainingCharge_cases component (o.deviceDraw currents options).charge
      (o.consumersCharge currents options) with ⟨-, h⟩ | ⟨-, h⟩
    · rw [h]
      exact hrest.isFinite_eq
    · rw [h]
      rfl
  have hlarger := larger_cases (o.deviceDraw currents options).charge
    (o.consumersCharge currents options)
  rw [value_shareOut]
  intro c hc
  rcases List.mem_append.1 hc with hc | hc
  · simp only [List.mem_cons, List.not_mem_nil, or_false] at hc
    rcases hc with rfl | rfl | rfl
    · rcases hlarger with h | h
      · rw [h]
        exact hdevice.isFinite_eq
      · rw [h]
        exact htracked.isFinite_eq
    · exact htracked.isFinite_eq
    · exact hleft
  · obtain ⟨share, hshare, hc⟩ := List.mem_flatMap.1 hc
    obtain ⟨entry, hentry, rfl⟩ := List.mem_map.1 hshare
    obtain ⟨⟨consumer, s⟩, hs, rfl⟩ := List.mem_map.1 hentry
    exact (hcharges s (List.mem_cons_of_mem _ (List.mem_map_of_mem hs)) _ _ c hc).isFinite_eq

end Observation

/-! ## 3. The text of a report -/

section Text

open Json Document

/-- The leaf of a report: a text that does not spell `null`, a whole number, or one of its
charges. -/
def IsReportLeaf (charges : List Charge) : Document → Prop
  | .integer _ => True
  | .text s => NullFree (quoted s)
  | .number c => c ∈ charges
  | _ => False

theorem nullFree_state (s : RunState) : NullFree (quoted s.name) := by cases s <;> decide

theorem nullFree_basis (b : Basis) : NullFree (quoted b.name) := by cases b <;> decide

theorem nullFree_component (c : Component) : NullFree (quoted c.name) := by cases c <;> decide

/-- Every leaf of a document in a report is one of a report with these charges. -/
def HasReportLeaves (charges : List Charge) (d : Document) : Prop :=
  ∀ leaf ∈ d.leaves, IsReportLeaf charges leaf

theorem hasReportLeaves_scalar {charges : List Charge} {d : Document} (hd : d.leaves = [d])
    (h : IsReportLeaf charges d) : HasReportLeaves charges d := by
  unfold HasReportLeaves
  rw [hd]
  exact List.forall_mem_singleton.2 h

theorem hasReportLeaves_list {charges : List Charge} {items : List Document}
    (h : ∀ item ∈ items, HasReportLeaves charges item) : HasReportLeaves charges (.list items) := by
  intro leaf hleaf
  obtain ⟨item, hitem, hleaf⟩ := mem_leaves_list.1 hleaf
  exact h item hitem leaf hleaf

/-- A member whose name does not spell `null`, and whose value has leaves of a report. -/
def IsReportMember (charges : List Charge) (m : String × Document) : Prop :=
  NullFree (quoted m.1) ∧ HasReportLeaves charges m.2

theorem isReportMember {charges : List Charge} {name : String} {value : Document}
    (hname : NullFree (quoted name)) (hvalue : HasReportLeaves charges value) :
    IsReportMember charges (name, value) := ⟨hname, hvalue⟩

theorem isReportMember_scalar {charges : List Charge} {name : String} {value : Document}
    (hname : NullFree (quoted name)) (hleaves : value.leaves = [value])
    (hvalue : IsReportLeaf charges value) : IsReportMember charges (name, value) :=
  ⟨hname, hasReportLeaves_scalar hleaves hvalue⟩

theorem hasReportLeaves_object {charges : List Charge} {members : List (String × Document)}
    (h : ∀ m ∈ members, IsReportMember charges m) : HasReportLeaves charges (.object members) := by
  intro leaf hleaf
  obtain ⟨m, hm, rfl | hleaf⟩ := mem_leaves_object.1 hleaf
  · exact (h m hm).1
  · exact (h m hm).2 leaf hleaf

theorem Scope.hasReportLeaves {s : Scope} {charges : List Charge} (hs : s.charge ∈ charges) :
    HasReportLeaves charges s.document := by
  refine hasReportLeaves_object ?_
  simp only [List.forall_mem_cons, List.not_mem_nil, false_imp_iff, implies_true, and_true]
  exact ⟨isReportMember_scalar (by decide) rfl trivial,
    isReportMember_scalar (by decide) rfl hs,
    isReportMember_scalar (by decide) rfl (nullFree_basis _)⟩

theorem StateKey.hasReportLeaves (k : StateKey) {charge : Charge} {charges : List Charge}
    (hcharge : charge ∈ charges) : HasReportLeaves charges (k.document charge) := by
  refine hasReportLeaves_object ?_
  simp only [List.forall_mem_cons, List.not_mem_nil, false_imp_iff, implies_true, and_true]
  exact ⟨isReportMember_scalar (by decide) rfl trivial,
    isReportMember_scalar (by decide) rfl (nullFree_state _),
    isReportMember_scalar (by decide) rfl hcharge⟩

theorem Share.hasReportLeaves (s : Share) (consumer : Consumer) {charges : List Charge}
    (hs : ∀ c ∈ s.charges, c ∈ charges) : HasReportLeaves charges (s.document consumer) := by
  refine hasReportLeaves_object fun m hm => ?_
  simp only [List.mem_append, List.mem_cons, List.not_mem_nil, or_false, mem_optional] at hm
  rcases hm with (((rfl | rfl | rfl | rfl) | ⟨keys, hkeys, rfl⟩) | ⟨n, -, rfl⟩) | ⟨n, -, rfl⟩
  · exact isReportMember_scalar (by decide) rfl trivial
  · exact isReportMember_scalar (by decide) rfl trivial
  · exact isReportMember_scalar (by decide) rfl (hs _ List.mem_cons_self)
  · exact isReportMember_scalar (by decide) rfl (nullFree_basis _)
  · refine isReportMember (by decide) (hasReportLeaves_list fun item hitem => ?_)
    obtain ⟨e, he, rfl⟩ := List.mem_map.1 hitem
    refine e.1.hasReportLeaves (hs _ (List.mem_cons_of_mem _ ?_))
    rw [hkeys]
    exact List.mem_map_of_mem he
  · exact isReportMember_scalar (by decide) rfl trivial
  · exact isReportMember_scalar (by decide) rfl trivial

theorem Report.hasReportLeaves (r : Report) : HasReportLeaves r.charges r.document := by
  have hshares : ∀ item ∈ r.ranked.map (fun e => e.2.document e.1),
      HasReportLeaves r.charges item := by
    intro item hitem
    obtain ⟨e, he, rfl⟩ := List.mem_map.1 hitem
    have hentry : e ∈ r.shares.entries := List.mem_mergeSort.1 he
    refine e.2.hasReportLeaves e.1 fun c hc => List.mem_append_right _ ?_
    exact List.mem_flatMap.2 ⟨e.2, List.mem_map_of_mem hentry, hc⟩
  refine hasReportLeaves_object ?_
  simp only [List.forall_mem_cons, List.not_mem_nil, false_imp_iff, implies_true, and_true]
  refine ⟨isReportMember_scalar (by decide) rfl (nullFree_component _),
    isReportMember (by decide) (hasReportLeaves_object ?_),
    isReportMember (by decide) (hasReportLeaves_list hshares)⟩
  simp only [List.forall_mem_cons, List.not_mem_nil, false_imp_iff, implies_true, and_true]
  exact ⟨isReportMember (by decide) (Scope.hasReportLeaves (by simp [charges])),
    isReportMember (by decide) (Scope.hasReportLeaves (by simp [charges])),
    isReportMember_scalar (by decide) rfl trivial,
    isReportMember_scalar (by decide) rfl (by simp [IsReportLeaf, charges])⟩

theorem Scope.number_mem_leaves (s : Scope) : Document.number s.charge ∈ s.document.leaves := by
  have hleaves : s.document.leaves = [.text "duration_ms", .integer s.duration.toNat,
      .text "power_mah", .number s.charge, .text "model", .text s.basis.name] := rfl
  rw [hleaves]
  simp

theorem Share.number_mem_leaves {s : Share} {c : Charge} (hc : c ∈ s.charges)
    (consumer : Consumer) : Document.number c ∈ (s.document consumer).leaves := by
  refine mem_leaves_object.2 ?_
  rcases List.mem_cons.1 hc with rfl | hc
  · exact ⟨("power_mah", .number s.charge), by simp, .inr (List.mem_singleton_self _)⟩
  · cases hkeys : s.byState? with
    | none =>
      rw [hkeys] at hc
      cases hc
    | some keys =>
      rw [hkeys] at hc
      obtain ⟨e, he, rfl⟩ := List.mem_map.1 hc
      refine ⟨("per_key", .list (keys.entries.map fun e => e.1.document e.2)), ?_, .inr ?_⟩
      · simp [Document.optional]
      · refine mem_leaves_list.2 ⟨e.1.document e.2, List.mem_map_of_mem he, ?_⟩
        exact mem_leaves_object.2
          ⟨("power_mah", .number e.2), by simp, .inr (List.mem_singleton_self _)⟩

/-- Every charge of a report stands in its document. -/
theorem Report.number_mem_leaves {r : Report} {c : Charge} (hc : c ∈ r.charges) :
    Document.number c ∈ r.document.leaves := by
  have haggregate (name : String) {value : Document} (hleaf : Document.number c ∈ value.leaves)
      (hmember : (name, value) ∈
        [("device", r.device.document), ("all_consumers", r.tracked.document),
          ("system_only_duration_ms", .integer r.systemDuration.toNat),
          ("system_only_power_mah", .number r.systemCharge)]) :
      Document.number c ∈ r.document.leaves :=
    mem_leaves_object.2 ⟨("aggregate", .object _), List.mem_cons_of_mem _ List.mem_cons_self,
      .inr (mem_leaves_object.2 ⟨_, hmember, .inr hleaf⟩)⟩
  rcases List.mem_append.1 hc with hc | hc
  · simp only [List.mem_cons, List.not_mem_nil, or_false] at hc
    rcases hc with rfl | rfl | rfl
    · exact haggregate "device" r.device.number_mem_leaves (by simp)
    · exact haggregate "all_consumers" r.tracked.number_mem_leaves (by simp)
    · have hleaf : Document.number r.systemCharge ∈ (Document.number r.systemCharge).leaves :=
        List.mem_singleton_self _
      exact haggregate "system_only_power_mah" hleaf (by simp)
  · obtain ⟨s, hs, hc⟩ := List.mem_flatMap.1 hc
    obtain ⟨e, he, rfl⟩ := List.mem_map.1 hs
    have hranked : e ∈ r.ranked := List.mem_mergeSort.2 he
    have hitem :
        Document.number c ∈ (Document.list (r.ranked.map fun e => e.2.document e.1)).leaves :=
      mem_leaves_list.2
        ⟨e.2.document e.1, List.mem_map_of_mem hranked, Share.number_mem_leaves hc e.1⟩
    exact mem_leaves_object.2 ⟨("consumers", _), by simp, .inr hitem⟩

/-- **The text of a report has `null` in it just where one of its charges is not finite.** -/
theorem Report.null_isInfix_iff (r : Report) {text : List Char}
    (htext : Spaced r.document.tokens text) :
    "null".toList <:+: text ↔ ∃ c ∈ r.charges, c.isFinite = false := by
  have hfree : ∀ leaf ∈ r.document.leaves, leaf.IsNullFree := by
    intro leaf hleaf
    have h := r.hasReportLeaves leaf hleaf
    cases leaf with
    | integer _ | number _ => trivial
    | text _ => exact h
    | null | boolean _ | list _ | object _ => exact h.elim
  rw [Document.null_isInfix_iff hfree htext]
  refine exists_congr fun c => and_congr_left fun _ => ⟨fun h => r.hasReportLeaves _ h, ?_⟩
  exact number_mem_leaves

end Text

/-! ## 4. The reports of a checked profile -/

namespace Observations

open Json

/-- **Which charges of the reports of a checked profile are finite.** A consumer's are, unless they
are estimated; all of a report are as long as neither the currents nor the reported charges are
huge; and where one is not, `null` stands for it in the report's line and in its file. -/
theorem finite_charges {profile : Profile} (hprofile : profile.check = .ok ()) (os : Observations)
    (options : Options) {component : Component} {run : Traced Outcome}
    (hrun : (os.outcomes profile options).get? component = some run) {r : Report}
    (hreport : run.value = .report r) :
    ∃ o : Observation, os.get? component = some o ∧
      (∀ k share, r.shares.get? k = some share → ∀ c ∈ share.charges,
        c.isNaN = false ∧ (share.basis ≠ .estimated → c.isFinite = true)) ∧
      ((∀ m ∈ (profile.currents component).modes, m.2.UpTo (2 ^ 946)) →
        (∀ s ∈ o.device :: o.consumers.values, ∀ c, s.reported? = some c →
          c.UpTo (2 ^ 991)) →
        ∀ c ∈ r.charges, c.isFinite = true) ∧
      (∀ path, "null".toList <:+: (r.file path).value ↔ ∃ c ∈ r.charges, c.isFinite = false) ∧
      ∀ sink sink' : JsonLines, sink.accept (.report r) = .ok sink' →
        ∃ line, sink'.buffer.bytes = sink.buffer.bytes ++ utf8 line ∧
          ("null".toList <:+: line ↔ ∃ c ∈ r.charges, c.isFinite = false) := by
  have hcheck := Profile.check_currents hprofile component
  unfold outcomes at hrun
  rw [SortedMap.get?_mapValues, Option.map_eq_some_iff] at hrun
  obtain ⟨o, ho, rfl⟩ := hrun
  have hvalue : r = (o.shareOut component (profile.currents component) options).value := by
    unfold Observation.outcome at hreport
    split at hreport
    · exact (Outcome.report.inj hreport).symm
    · cases hreport
  refine ⟨o, ho, fun k share hshare => ?_, fun hcurrents hreported => ?_,
    fun path => r.null_isInfix_iff (Document.spaced_pretty _), fun sink sink' haccept => ?_⟩
  · rw [hvalue, Observation.value_shareOut] at hshare
    simp only at hshare
    rw [Observation.get?_consumerShares, Option.map_eq_some_iff] at hshare
    obtain ⟨s, -, rfl⟩ := hshare
    exact s.forall_isNaN_charges k options hcheck
  · rw [hvalue]
    have hbits : 946 + 45 = 991 := rfl
    exact o.isFinite_charges component options hbits (by decide) hcurrents hreported
  · have hline : Spaced r.document.tokens (r.document.compact ++ ['\n']) := by
      have h := (Document.spaced_compact r.document).append (.blank (.inr rfl) .nil)
      rwa [List.append_nil] at h
    refine ⟨_, ?_, r.null_isInfix_iff hline⟩
    unfold JsonLines.accept Buffer.write? at haccept
    split at haccept
    · rename_i houtcome
      cases houtcome
    · rename_i outcome r' houtcome
      obtain rfl := Outcome.report.inj houtcome
      split at haccept
      · rename_i buffer hbuffer
        split at hbuffer
        · obtain rfl := Option.some.inj hbuffer
          cases haccept
          rfl
        · cases hbuffer
      · cases haccept

/-- A consumer with a reported charge and one that is estimated: all charges are finite, and neither
the file nor the line has `null` in it. -/
theorem finite_charges_reported :
    let profile : Profile := { wifi := ⟨.ofNat 1, .ofNat 50, .ofNat 100⟩ }
    let o : Observation :=
      { consumers :=
          .ofList [(⟨4⟩, { charge? := some (.ofNat 3) }), (⟨7⟩, { counters := ⟨⟨9⟩, ⟨5⟩, ⟨2⟩⟩ })] }
    let os : Observations := .ofList [(.wifi, o)]
    let r := (o.shareOut .wifi profile.wifi {}).value
    profile.check = .ok () ∧
      ((os.outcomes profile {}).get? .wifi).map (·.value) = some (.report r) ∧
      (∀ share, r.shares.get? ⟨4⟩ = some share → share.charge.isFinite = true) ∧
      (∀ c ∈ r.charges, c.isFinite = true) ∧ ¬ "null".toList <:+: (r.file "report.json").value ∧
      ∃ sink line, JsonLines.accept {} (.report r) = .ok sink ∧ sink.buffer.bytes = utf8 line ∧
        ¬ "null".toList <:+: line := by
  intro profile o os r
  have hcheck : profile.check = .ok () := Profile.check_eq_ok_iff.2 (by decide +kernel)
  have hrun : (os.outcomes profile {}).get? .wifi = some (o.outcome .wifi profile.wifi {}) := by
    with_unfolding_all rfl
  have hvalue : (o.outcome .wifi profile.wifi {}).value = .report r := rfl
  have hos : SortedMap.get? os .wifi = some o := by with_unfolding_all rfl
  obtain ⟨o', ho, hshares, hfinite, hfile, hline⟩ := finite_charges hcheck os {} hrun hvalue
  obtain rfl : o = o' := Option.some.inj (hos.symm.trans ho)
  have hsmall {n : Nat} (hn : n < 2 ^ 7) {k : Nat} (hk : 7 ≤ k) :
      (Binary64.ofNat n).UpTo (2 ^ k) :=
    (Binary64.upTo_ofInt (Binary64.fits_two_pow (by decide)) (Nat.le_of_lt hn)).mono
      (Nat.pow_le_pow_right (by decide) hk)
  have hcurrents : ∀ m ∈ (profile.currents .wifi).modes, m.2.UpTo (2 ^ 946) := by
    intro m hm
    simp only [Currents.modes, List.mem_cons, List.not_mem_nil, or_false] at hm
    rcases hm with rfl | rfl | rfl <;> exact hsmall (by decide) (by decide)
  have hreported : ∀ s ∈ o.device :: o.consumers.values, ∀ c, s.reported? = some c →
      c.UpTo (2 ^ 991) := by
    intro s hs c hc
    obtain ⟨hcharge, -⟩ := Option.filter_eq_some_iff.1 hc
    have hthree : c = .ofNat 3 := by
      have hsamples : ∀ s ∈ o.device :: o.consumers.values, ∀ c ∈ s.charge?, c = .ofNat 3 := by
        decide +kernel
      exact hsamples s hs c hcharge
    rw [hthree]
    exact hsmall (by decide) (by decide)
  have hcharges := hfinite hcurrents hreported
  have hnone : ¬ ∃ c ∈ r.charges, c.isFinite = false := by
    rintro ⟨c, hc, h⟩
    exact Bool.false_ne_true (h.symm.trans (hcharges c hc))
  have haccept : JsonLines.accept {} (.report r) =
      .ok ⟨⟨utf8 (r.document.compact ++ ['\n']), none⟩, 1⟩ := rfl
  obtain ⟨line, hbytes, hnull⟩ := hline {} _ haccept
  refine ⟨hcheck, ?_, fun share h => ?_, hcharges, fun h => hnone ((hfile _).1 h), _, line, haccept,
    hbytes, fun h => hnone (hnull.1 h)⟩
  · rw [hrun]
    rfl
  · have hbasis : (r.shares.get? ⟨4⟩).map (·.basis) = some .reported := by decide +kernel
    rw [h, Option.map_some] at hbasis
    have hne : share.basis ≠ .estimated := by
      rw [Option.some.inj hbasis]
      decide
    exact ((hshares ⟨4⟩ share h) _ List.mem_cons_self).2 hne

/-- A file with two reported charges, each of them finite, is read without complaint. All consumers
together and the device are then infinite, and the report's line and file have `null` for them. -/
theorem overflowing_charges :
    let text :=
      "\x7b\"wifi\":\x7b\"consumers\":\x7b\"1\":\x7b\"reported_power_mah\":1e308\x7d,".toList ++
        "\"2\":\x7b\"reported_power_mah\":1e308\x7d\x7d\x7d\x7d".toList
    let profile : Profile := { wifi := ⟨.ofNat 1, .ofNat 50, .ofNat 100⟩ }
    let huge : Charge := (Decimal.mk 1 308).toBinary64 false
    let o : Observation :=
      { consumers := .ofList [(⟨1⟩, { charge? := some huge }), (⟨2⟩, { charge? := some huge })] }
    let os : Observations := .ofList [(.wifi, o)]
    let r := (o.shareOut .wifi profile.wifi {}).value
    Observations.parse (utf8 text) = .ok os ∧ profile.check = .ok () ∧
      ((os.outcomes profile {}).get? .wifi).map (·.value) = some (.report r) ∧
      huge.isFinite = true ∧ r.tracked.charge.isFinite = false ∧ r.device.charge.isFinite = false ∧
      "null".toList <:+: r.document.compact ∧ "null".toList <:+: r.document.pretty := by
  intro text profile huge o os r
  have hdevice : r.device.charge.isFinite = false := by decide +kernel
  refine ⟨?_, ?_, ?_, ?_, ?_, hdevice, ?_, ?_⟩
  · decide +kernel
  · exact Profile.check_eq_ok_iff.2 (by decide +kernel)
  · decide +kernel
  · decide +kernel
  · decide +kernel
  · exact (r.null_isInfix_iff (Document.spaced_compact _)).2 ⟨_, List.mem_cons_self, hdevice⟩
  · exact (r.null_isInfix_iff (Document.spaced_pretty _)).2 ⟨_, List.mem_cons_self, hdevice⟩

end Observations

end PowerShare
