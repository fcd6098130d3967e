import PowerShare.Proofs.Attribution.Totals
import PowerShare.Proofs.Envelope.Acceptance

/-!
# One consumer after another

Rounded sums depend on the order of their parts. The total of a run and the sum of the charges that
its report lists are the same word all the same, because both take the shares in key order and start
from zero. Here the total is followed from consumer to consumer, with the shares put into their map
on the way:

* `Walk` -- what is known after some consumers, and `Walk.visit` -- one consumer more;
* `Walk.Balanced` -- the totals are those of the shares so far; `Walk.Balanced.visit` is the step
  and `Observation.balanced_walk` the run, after which the walk has the shares of the report;
* `Observation.sharedCharge_shareOut` -- **the listed charges add up to the total of the report,**
  and still do in the report that another program reads from an envelope.

Not here: other orders of the consumers, which give other sums.
-/

namespace PowerShare

open Ranked

/-! ## 1. Steps -/

/-- The totals and the shares of the consumers gone through so far. -/
structure Walk where
  duration : Duration := .zero
  charge : Charge := .zero
  shares : SortedMap Consumer Share := .empty

namespace Walk

/-- One consumer more: its share is added to the totals and put into the map. -/
def visit (currents : Currents) (options : Options) (w : Walk) (e : Consumer × Sample) : Walk :=
  let s := e.2.share e.1 currents options
  { duration := w.duration + s.duration
    charge := w.charge + s.charge
    shares := w.shares.insert e.1 s }

/-- The consumers of some entries, gone through in order. -/
def through (currents : Currents) (options : Options) (entries : List (Consumer × Sample)) : Walk :=
  entries.foldl (visit currents options) {}

/-- The totals are those of the shares in the map. -/
def Balanced (w : Walk) : Prop := totals w.shares.values = (w.duration, w.charge)

variable {currents : Currents} {options : Options}

theorem through_concat (entries : List (Consumer × Sample)) (e : Consumer × Sample) :
    through currents options (entries ++ [e]) =
      (through currents options entries).visit currents options e :=
  List.foldl_append

theorem totals_concat (shares : List Share) (s : Share) :
    totals (shares ++ [s]) = ((totals shares).1 + s.duration, (totals shares).2 + s.charge) :=
  List.foldl_append

/-- **A consumer behind all others keeps the balance:** its share is the last one in the map. -/
theorem Balanced.visit {w : Walk} (h : w.Balanced) {e : Consumer × Sample}
    (hlast : ∀ f ∈ w.shares.entries, rank f.1 < rank e.1) :
    (w.visit currents options e).Balanced := by
  have hvalues : (w.visit currents options e).shares.values =
      w.shares.values ++ [e.2.share e.1 currents options] := by
    show ((w.shares.insert e.1 _).entries).map (·.2) = _
    rw [SortedMap.entries_insert, SortedMap.insertEntry_of_forall_lt hlast, List.map_append]
    rfl
  unfold Balanced at h ⊢
  rw [hvalues, totals_concat, h]
  rfl

/-! ## 2. Whole walks -/

/-- The shares are put into the map in the order in which the consumers come. -/
theorem shares_through (entries : List (Consumer × Sample)) :
    (through currents options entries).shares =
      SortedMap.ofList (entries.map fun e => (e.1, e.2.share e.1 currents options)) := by
  induction entries using List.reverseRecOn with
  | nil => rfl
  | append_singleton entries e ih =>
    rw [through_concat, List.map_append, List.map_singleton, SortedMap.ofList_concat, ← ih]
    rfl

/-- Ascending consumers have their shares in the same places. -/
theorem entries_shares_through {entries : List (Consumer × Sample)}
    (h : SortedMap.Ascending (entries.map (·.1))) :
    (through currents options entries).shares.entries =
      entries.map fun e => (e.1, e.2.share e.1 currents options) := by
  rw [shares_through]
  refine SortedMap.entries_ofList ?_
  rw [List.map_map]
  exact h

/-- **Ascending consumers are gone through in balance.** -/
theorem balanced_through {entries : List (Consumer × Sample)}
    (h : SortedMap.Ascending (entries.map (·.1))) :
    (through currents options entries).Balanced := by
  induction entries using List.reverseRecOn with
  | nil => rfl
  | append_singleton entries e ih =>
    rw [List.map_append, List.map_singleton, SortedMap.Ascending, List.pairwise_append] at h
    obtain ⟨hbefore, -, hlast⟩ := h
    rw [through_concat]
    refine (ih hbefore).visit fun f hf => ?_
    rw [entries_shares_through hbefore] at hf
    obtain ⟨g, hg, rfl⟩ := List.mem_map.1 hf
    exact hlast g.1 (List.mem_map_of_mem hg) e.1 List.mem_cons_self

end Walk

namespace Observation

variable (o : Observation) (component : Component) (currents : Currents) (options : Options)

/-- All consumers of an observation, gone through in key order. -/
def walk : Walk := Walk.through currents options o.consumers.entries

theorem balanced_walk : (o.walk currents options).Balanced :=
  Walk.balanced_through o.consumers.ascending_keys

theorem shares_walk : (o.walk currents options).shares = o.consumerShares currents options :=
  SortedMap.ext (Walk.entries_shares_through o.consumers.ascending_keys)

/-- The walk ends with the totals of the report. -/
theorem totals_walk :
    ((o.walk currents options).duration, (o.walk currents options).charge) =
      (o.consumersDuration currents options, o.consumersCharge currents options) := by
  have hbalanced : totals (o.walk currents options).shares.values = _ :=
    o.balanced_walk currents options
  rw [← hbalanced, shares_walk, ← fst_totals_consumerShares, ← snd_totals_consumerShares]

end Observation

/-! ## 3. Reports -/

/-- The charges of a report's shares are added up like the totals of a run. -/
theorem Report.sharedCharge_eq (r : Report) : r.sharedCharge = (totals r.shares.values).2 := by
  rw [totals_eq]
  exact List.foldl_map.symm

/-- **The listed charges of a report add up to its total, bit for bit.** Going through the consumers
one after another gives this total together with the shares of the report, and the total is at every
moment the sum of the shares so far. An envelope with the report is read back with the same words,
whatever stands behind it, so that the charges add up there too. -/
theorem Observation.sharedCharge_shareOut (o : Observation) (component : Component)
    (currents : Currents) (options : Options) :
    let r := (o.shareOut component currents options).value
    r.sharedCharge = r.tracked.charge ∧
      (r.tracked.charge = (o.walk currents options).charge ∧
        r.shares = (o.walk currents options).shares) ∧
      (∀ before after, o.consumers.entries = before ++ after →
        (Walk.through currents options before).charge =
          ((Walk.through currents options before).shares.values.map (·.charge)).foldl (· + ·)
            .zero) ∧
      ∀ (sequence : UInt64) (rest : List UInt8), ∃ received,
        Envelope.decode ((Envelope.wrap sequence (.report r)).encode ++ rest) =
          .ok (Envelope.wrap sequence (.report received)) ∧
        received.sharedCharge = received.tracked.charge ∧
        received.tracked.charge = r.tracked.charge := by
  intro r
  have htracked : r.tracked.charge = o.consumersCharge currents options := by
    show ((o.shareOut component currents options).value).tracked.charge = _
    rw [value_shareOut]
  have hshares : r.shares = o.consumerShares currents options := by
    show ((o.shareOut component currents options).value).shares = _
    rw [value_shareOut]
  have hsum : r.sharedCharge = r.tracked.charge := by
    rw [r.sharedCharge_eq, htracked, hshares, snd_totals_consumerShares]
  refine ⟨hsum, ⟨?_, ?_⟩, ?_, ?_⟩
  · rw [htracked]
    exact (congrArg Prod.snd (o.totals_walk currents options)).symm
  · rw [hshares, shares_walk]
  · intro before after hentries
    have hkeys := o.consumers.ascending_keys
    unfold SortedMap.keys at hkeys
    rw [hentries, List.map_append] at hkeys
    have hbalanced : totals (Walk.through currents options before).shares.values = _ :=
      Walk.balanced_through (List.pairwise_append.1 hkeys).1
    rw [totals_eq] at hbalanced
    exact (congrArg Prod.snd hbalanced).symm
  · intro sequence rest
    refine ⟨r, ?_, hsum, rfl⟩
    exact (Envelope.decode_append (Codec.follows_envelope.layout_encode .any
      (Envelope.wrap sequence (.report r))) rest).trans (if_pos rfl)

end PowerShare
