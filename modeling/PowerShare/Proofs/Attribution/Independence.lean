import PowerShare.Proofs.Attribution.Totals

/-!
# What a consumer's share depends on

A share is made from the consumer's own sample, and the totals are taken from the shares and not
the other way round. So a share tells nothing of the neighbours:

* `SortedMap.rename_mapValues` -- giving keys other names and replacing values do not meet;
* `Sample.share_rename` -- a share holds the name of its consumer only in the keys of its breakdown;
* `Observation.shares_shareOut` -- the shares have the consumers that were observed, each share
  stays as it is whatever else changes, the device's basis and duration stay whatever the consumers
  do, and other names for the consumers are just other names in the report.
-/

namespace PowerShare

/-! ## 1. Other names for consumers -/

/-- The same state of a consumer with another name. -/
def StateKey.rename (f : Consumer → Consumer) (k : StateKey) : StateKey :=
  { k with consumer := f k.consumer }

theorem StateKey.rename_injective {f : Consumer → Consumer} (hf : Function.Injective f) :
    Function.Injective (StateKey.rename f) := by
  intro ⟨a, s⟩ ⟨b, t⟩ h
  obtain ⟨hconsumer, hstate⟩ := StateKey.mk.inj h
  have ha : a = b := hf hconsumer
  have hs : s = t := hstate
  rw [ha, hs]

theorem StateKey.mk_injective (k : Consumer) : Function.Injective (StateKey.mk k) :=
  fun _ _ h => (StateKey.mk.inj h).2

/-- The share with other names for the consumers in its breakdown. -/
def Share.rename (f : Consumer → Consumer) (s : Share) : Share :=
  { s with byState? := s.byState?.map (·.rename (StateKey.rename f)) }

/-- **A share holds the name of its consumer only in the keys of its breakdown.** -/
theorem Sample.share_rename {f : Consumer → Consumer} (hf : Function.Injective f) (s : Sample)
    (k : Consumer) (currents : Currents) (options : Options) :
    s.share (f k) currents options = (s.share k currents options).rename f := by
  have hkeys (m : SortedMap RunState Charge) :
      m.rename (StateKey.mk (f k)) = (m.rename (StateKey.mk k)).rename (StateKey.rename f) :=
    (SortedMap.rename_rename (StateKey.mk_injective k) (StateKey.rename_injective hf) m).symm
  have hbreakdown (byState? : Option (SortedMap RunState Charge)) :
      byState?.map (·.rename (StateKey.mk (f k))) =
        (byState?.map (·.rename (StateKey.mk k))).map (·.rename (StateKey.rename f)) := by
    rw [Option.map_map]
    exact congrArg (fun g => byState?.map g) (funext hkeys)
  show Share.mk _ _ _ _ _ _ = Share.mk _ _ _ _ _ _
  exact congrArg (fun b => Share.mk _ _ b _ _ _) (hbreakdown _)

/-! ## 2. The shares of a report -/

namespace Observation

variable (o : Observation) (component : Component) (currents : Currents) (options : Options)

/-- The observation with other names for its consumers. -/
def renamed (f : Consumer → Consumer) : Observation :=
  { o with consumers := o.consumers.rename f }

theorem consumerShares_renamed {f : Consumer → Consumer} (hf : Function.Injective f) :
    (o.renamed f).consumerShares currents options =
      ((o.consumerShares currents options).mapValues fun _ s => s.rename f).rename f := by
  have htwice : (o.consumerShares currents options).mapValues (fun _ s => s.rename f) =
      o.consumers.mapValues fun k s => (s.share k currents options).rename f :=
    SortedMap.ext (by simp [consumerShares])
  rw [htwice]
  exact SortedMap.rename_mapValues hf (fun k s => s.share_rename hf k currents options) o.consumers

/-- **Each consumer has a share of its own.** There is one for just the consumers observed. It is
the same in any report, of whatever component, whose observation has the same sample for that
consumer: other consumers may be put in, changed or left out, and the device may be another one.
The device's own basis and duration are the same whatever the consumers are. And with other names
for the consumers, the shares are the same under those names. -/
theorem shares_shareOut :
    (o.shareOut component currents options).value.shares.keys = o.consumers.keys ∧
    (∀ (o' : Observation) (component' : Component) (k : Consumer),
      o'.consumers.get? k = o.consumers.get? k →
        (o'.shareOut component' currents options).value.shares.get? k =
          (o.shareOut component currents options).value.shares.get? k) ∧
    (∀ o' : Observation, o'.device = o.device →
      (o'.shareOut component currents options).value.device.basis =
          (o.shareOut component currents options).value.device.basis ∧
        (o'.shareOut component currents options).value.device.duration =
          (o.shareOut component currents options).value.device.duration) ∧
    ∀ f : Consumer → Consumer, Function.Injective f →
      ((o.renamed f).shareOut component currents options).value.shares =
        ((o.shareOut component currents options).value.shares.mapValues
          fun _ s => s.rename f).rename f := by
  refine ⟨?_, fun o' component' k hsame => ?_, fun o' hdevice => ?_, fun f hf => ?_⟩
  · rw [value_shareOut]
    exact SortedMap.keys_mapValues _ _
  · rw [value_shareOut, value_shareOut, get?_consumerShares, get?_consumerShares, hsame]
  · rw [value_shareOut, value_shareOut]
    unfold deviceDraw
    rw [hdevice]
    exact ⟨rfl, rfl⟩
  · rw [value_shareOut, value_shareOut]
    exact o.consumerShares_renamed currents options hf

/-- Consumer 8 changes places with consumer 3 and the device is another one: the share of consumer 5
stays, and the breakdown of the former consumer 3 is now that of consumer 8. -/
theorem shares_shareOut_swapped :
    let currents : Currents := ⟨.ofNat 1, .ofNat 50, .ofNat 100⟩
    let options : Options := { breakdown := true }
    let busy : Sample :=
      { counters := { tx := ⟨9⟩ }
        slices := .ofList [(.background, { counters := { tx := ⟨4⟩ } })] }
    let idle : Sample := { counters := { idle := ⟨70⟩ } }
    let o : Observation := { consumers := .ofList [(⟨3⟩, busy), (⟨5⟩, idle)] }
    let o' : Observation :=
      { consumers := .ofList [(⟨5⟩, idle), (⟨8⟩, busy)], device := { energy? := some 1 } }
    let swap (k : Consumer) : Consumer := if k = ⟨3⟩ then ⟨8⟩ else if k = ⟨8⟩ then ⟨3⟩ else k
    let r := (o.shareOut .wifi currents options).value
    let r' := (o'.shareOut .modem currents options).value
    o'.consumers.get? ⟨5⟩ = o.consumers.get? ⟨5⟩ ∧ Function.Injective swap ∧
      r'.shares.get? ⟨5⟩ = r.shares.get? ⟨5⟩ ∧
      ((o.renamed swap).shareOut .wifi currents options).value.shares =
        (r.shares.mapValues fun _ s => s.rename swap).rename swap ∧
      ((r'.shares.get? ⟨8⟩).bind fun s => s.stateCharge? ⟨8⟩ .background) =
        some (Charge.ofCurrentTime (.ofNat 400)) := by
  intro currents options busy idle o o' swap r r'
  obtain ⟨-, hown, -, hnames⟩ := o.shares_shareOut .wifi currents options
  have hsame : o'.consumers.get? ⟨5⟩ = o.consumers.get? ⟨5⟩ := by decide +kernel
  have hswap : Function.Injective swap := by
    intro a b h
    grind
  refine ⟨hsame, hswap, hown o' .modem ⟨5⟩ hsame, hnames swap hswap, ?_⟩
  decide +kernel

end Observation

end PowerShare
