import PowerShare.Proofs.Envelope.Follows

/-!
# The codec of envelopes follows their layout

One line for each kind of value, in the order in which an envelope is put together, up to
`follows_envelope`. The counts of states and of shares are large enough for every map, because there
are fewer keys than a count of eight bytes can say.
-/

namespace PowerShare

namespace Codec

theorem follows_uint32 : uint32.Follows Layout.uint32 :=
  follows_word (fun a => a.toNat_lt) (fun _ => UInt32.ofNat_toNat) fun _ => UInt32.toNat_ofNat_of_lt'

theorem follows_uint64 : uint64.Follows Layout.uint64 :=
  follows_word (fun a => a.toNat_lt) (fun _ => UInt64.ofNat_toNat) fun _ => UInt64.toNat_ofNat_of_lt'

theorem follows_binary64 : binary64.Follows Layout.binary64 := by
  refine follows_word Binary64.toWord_lt Binary64.ofWord_toWord fun n hn => ?_
  have h : n < 2 ^ 64 := hn
  simp only [Binary64.ofWord, Binary64.toWord, decide_eq_true_eq]
  split <;> omega

theorem follows_duration : duration.Follows Layout.duration :=
  follows_uint64.map (fun _ => rfl) fun _ => rfl

theorem follows_component : component.Follows Layout.component :=
  follows_oneOf (fun c => by cases c <;> decide) (by decide) (by decide)

theorem follows_basis : basis.Follows Layout.basis :=
  follows_oneOf (fun b => by cases b <;> decide) (by decide) (by decide)

theorem follows_runState : runState.Follows Layout.runState :=
  follows_oneOf (fun s => by cases s <;> decide) (by decide) (by decide)

theorem follows_consumer : consumer.Follows Layout.consumer :=
  follows_uint32.map (fun _ => rfl) fun _ => rfl

theorem follows_stateKey : stateKey.Follows Layout.stateKey :=
  (follows_consumer.pair follows_runState).map (fun _ => rfl) fun _ => rfl

theorem follows_scope : scope.Follows Layout.scope :=
  (follows_duration.pair (follows_binary64.pair follows_basis)).map (fun _ => rfl) fun _ => rfl

theorem follows_states : (sortedMap stateKey binary64).Follows
    (Layout.sortedMap Layout.stateKey Layout.binary64) := by
  refine follows_stateKey.sortedMap follows_binary64 (by decide : 2 ^ 32 * 5 < 256 ^ 8) fun k => ?_
  have hid := k.consumer.id.toNat_lt
  have hstate := k.state.number_lt
  simp only [Ranked.rank]
  omega

theorem follows_share : share.Follows Layout.share :=
  (follows_duration.pair (follows_binary64.pair (follows_states.option.pair (follows_basis.pair
    (follows_uint64.option.pair follows_uint64.option))))).map (fun _ => rfl) fun _ => rfl

theorem follows_shares : (sortedMap consumer share).Follows
    (Layout.sortedMap Layout.consumer Layout.share) :=
  follows_consumer.sortedMap follows_share (by decide : 2 ^ 32 < 256 ^ 8) fun k => k.id.toNat_lt

theorem follows_report : report.Follows Layout.report :=
  (follows_component.pair (follows_scope.pair (follows_scope.pair (follows_duration.pair
    (follows_binary64.pair follows_shares))))).map (fun _ => rfl) fun _ => rfl

theorem follows_outcome : outcome.Follows Layout.outcome where
  decode_eq_ok_iff {bytes o rest} := by
    simp only [outcome, bind_eq_ok, Prod.exists]
    constructor
    · intro hread
      obtain ⟨n, middle, hn, h⟩ := hread
      split at h
      · obtain ⟨⟨c, r⟩, hc, ho⟩ := bind_eq_ok.1 h
        obtain ⟨rfl, rfl⟩ := Prod.mk.inj (Except.ok.inj ho)
        exact follows_component.numbered_eq_ok_iff.1 ⟨middle, hn, hc⟩
      · obtain ⟨⟨c, r⟩, hc, ho⟩ := bind_eq_ok.1 h
        obtain ⟨rfl, rfl⟩ := Prod.mk.inj (Except.ok.inj ho)
        exact follows_report.numbered_eq_ok_iff.1 ⟨middle, hn, hc⟩
      · cases h
    · intro h
      cases o with
      | unsupported c =>
        obtain ⟨middle, hn, hc⟩ := follows_component.numbered_eq_ok_iff.2 h
        exact ⟨0, middle, hn, bind_eq_ok.2 ⟨_, hc, rfl⟩⟩
      | report r =>
        obtain ⟨middle, hn, hr⟩ := follows_report.numbered_eq_ok_iff.2 h
        exact ⟨1, middle, hn, bind_eq_ok.2 ⟨_, hr, rfl⟩⟩
  ascending_iff {p o} := by
    cases o with
    | unsupported c => exact follows_component.numbered_ascending_iff (by decide)
    | report r => exact follows_report.numbered_ascending_iff (by decide)
  any_of_ascending {p o} hp := by
    cases o with
    | unsupported c => exact follows_component.numbered_any_of_ascending hp
    | report r => exact follows_report.numbered_any_of_ascending hp
  length_encode_le {p o} hp := by
    cases o with
    | unsupported c => exact follows_component.length_encode_numbered_le hp
    | report r => exact follows_report.length_encode_numbered_le hp

theorem follows_envelope : envelope.Follows Layout.envelope :=
  (follows_uint32.pair (follows_uint64.pair follows_outcome)).map (fun _ => rfl) fun _ => rfl

end Codec

end PowerShare
