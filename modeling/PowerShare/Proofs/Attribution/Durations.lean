import Mathlib.Algebra.BigOperators.Group.List.Basic
import PowerShare.Proofs.Attribution.Totals

/-!
# The durations of a report

Sums of durations stop at the longest one in three places, inside a sample, over the consumers and
where the device is compared with them. They are exact all the same:

* `Duration.toNat_foldl_add` -- adding one after another stops just where the exact sum does;
* `Sample.toNat_duration_bestDraw` -- a draw lasts as long as the exact sum of its counters says;
* `Observation.toNat_durations_shareOut` -- so every duration of a report is an exact sum or
  difference, cut at its bounds, and a deficit is told of just where there is one.
-/

namespace PowerShare

namespace Duration

@[simp] theorem toNat_zero : zero.toNat = 0 := rfl

/-- **Durations added up one after another are their exact sum, or the longest duration.** -/
theorem toNat_foldl_add (ds : List Duration) (d : Duration) :
    (ds.foldl (· + ·) d).toNat = min (2 ^ 64 - 1) (d.toNat + (ds.map toNat).sum) := by
  induction ds generalizing d with
  | nil =>
    have := d.toNat_lt
    simp only [List.foldl_nil, List.map_nil, List.sum_nil]
    omega
  | cons e rest ih =>
    rw [List.foldl_cons, ih, toNat_add, List.map_cons, List.sum_cons]
    omega

end Duration

/-- How many milliseconds a sample counts: the exact sum of its counters, cut at the longest
duration, and none without any basis. -/
def Sample.milliseconds (s : Sample) (currents : Currents) (options : Options) : Nat :=
  if s.basis currents options = .unavailable then 0
  else min (2 ^ 64 - 1)
    (s.counters.idle.toNat + s.counters.rx.toNat + s.counters.tx.toNat)

theorem Sample.toNat_duration (s : Sample) :
    s.duration.toNat =
      min (2 ^ 64 - 1) (s.counters.idle.toNat + s.counters.rx.toNat + s.counters.tx.toNat) := by
  unfold Sample.duration Counters.total
  rw [Duration.toNat_add, Duration.toNat_add]
  omega

theorem Sample.toNat_duration_bestDraw (s : Sample) (currents : Currents) (options : Options)
    (asked : Bool) : (s.bestDraw currents options asked).duration.toNat =
      s.milliseconds currents options := by
  unfold bestDraw milliseconds
  cases s.basis currents options with
  | unavailable => rfl
  | measured => exact s.toNat_duration
  | reported => exact s.toNat_duration
  | estimated => exact s.toNat_duration

namespace Observation

variable (o : Observation) (component : Component) (currents : Currents) (options : Options)

theorem toNat_consumersDuration :
    (o.consumersDuration currents options).toNat =
      min (2 ^ 64 - 1) (o.consumers.values.map (·.milliseconds currents options)).sum := by
  unfold consumersDuration consumerDraws
  rw [Duration.toNat_foldl_add, Duration.toNat_zero, Nat.zero_add, List.map_map, List.map_map]
  have hcounted : (Duration.toNat ∘ fun d : Draw => d.duration) ∘
      (fun s : Sample => s.bestDraw currents options options.breakdown) =
        fun s => s.milliseconds currents options :=
    funext fun s => s.toNat_duration_bestDraw currents options options.breakdown
  rw [hcounted]

theorem toNat_durationLeft :
    (o.durationLeft component currents options).value.toNat =
      (o.deviceDraw currents options).duration.toNat -
        (o.consumersDuration currents options).toNat := by
  unfold durationLeft
  rcases remainingDuration_cases component (o.deviceDraw currents options).duration
    (o.consumersDuration currents options) with ⟨-, rest, hrest, h⟩ | ⟨hlt, h⟩
  · rw [h]
    exact hrest
  · rw [h, Nat.sub_eq_zero_of_le (Nat.le_of_lt hlt)]
    rfl

theorem deficits_durationLeft :
    deficits .duration (o.durationLeft component currents options).events =
      if (o.deviceDraw currents options).duration.toNat < (o.consumersDuration currents options).toNat
      then [(component, .ofNat ((o.consumersDuration currents options).toNat -
        (o.deviceDraw currents options).duration.toNat))]
      else [] := by
  unfold durationLeft
  rcases remainingDuration_cases component (o.deviceDraw currents options).duration
    (o.consumersDuration currents options) with ⟨hle, rest, -, h⟩ | ⟨hlt, h⟩
  · rw [h, if_neg (Nat.not_lt_of_le hle)]
    rfl
  · rw [h, if_pos hlt]
    rfl

/-- **The durations of a report are exact.** Each consumer's and the device's is the sum of the
sample's own counters, that of all consumers the sum over them whatever they are called, and the
system has what the device has beyond that. Each is cut only at the longest duration and at zero,
and a cut at zero is told of once, with the deficit. -/
theorem toNat_durations_shareOut :
    let run := o.shareOut component currents options
    let device := run.value.device.duration.toNat
    let tracked := run.value.tracked.duration.toNat
    let system := run.value.systemDuration.toNat
    (∀ k, (run.value.shares.get? k).map (·.duration.toNat) =
      (o.consumers.get? k).map (·.milliseconds currents options)) ∧
    device = o.device.milliseconds currents options ∧
    tracked = min (2 ^ 64 - 1) (o.consumers.values.map (·.milliseconds currents options)).sum ∧
    (∀ o' : Observation, o'.consumers.values.Perm o.consumers.values →
      (o'.shareOut component currents options).value.tracked.duration =
        run.value.tracked.duration) ∧
    system = device - tracked ∧
    tracked + system = max device tracked ∧ tracked + system < 2 ^ 64 ∧ system ≤ device ∧
    deficits .duration run.events =
      if device < tracked then [(component, .ofNat (tracked - device))] else [] := by
  intro run device tracked system
  have hvalue : run.value = _ := o.value_shareOut component currents options
  have hdevice : device = (o.deviceDraw currents options).duration.toNat := by
    simp only [device, hvalue]
  have htracked : tracked = (o.consumersDuration currents options).toNat := by
    simp only [tracked, hvalue]
  have hsystem : system = device - tracked := by
    rw [hdevice, htracked, ← o.toNat_durationLeft component currents options]
    simp only [system, hvalue]
  have hfits : device < 2 ^ 64 ∧ tracked < 2 ^ 64 := ⟨Duration.toNat_lt _, Duration.toNat_lt _⟩
  refine ⟨fun k => ?_, ?_, ?_, fun o' hperm => ?_, hsystem, ?_, ?_, ?_, ?_⟩
  · rw [hvalue]
    simp only
    rw [get?_consumerShares, Option.map_map]
    refine congrArg (fun f => (o.consumers.get? k).map f) (funext fun s => ?_)
    exact s.toNat_duration_bestDraw currents options options.breakdown
  · rw [hdevice]
    exact o.device.toNat_duration_bestDraw currents options false
  · rw [htracked]
    exact o.toNat_consumersDuration currents options
  · rw [value_shareOut, hvalue]
    refine Duration.ext ?_
    simp only
    rw [toNat_consumersDuration, toNat_consumersDuration]
    exact congrArg _ (hperm.map _).sum_eq
  · omega
  · omega
  · omega
  · rw [hdevice, htracked, ← deficits_durationLeft]
    exact o.deficits_duration_shareOut component currents options

/-- Three consumers, the first of which alone lasts as long as a duration can, and the same samples
under other names: both totals stop there, and the device, shorter by two, is told of once. -/
theorem toNat_durations_shareOut_longest :
    let currents : Currents := ⟨.ofNat 1, .ofNat 50, .ofNat 100⟩
    let long : Sample := { counters := { idle := .longest, rx := ⟨7⟩ } }
    let short : Sample := { counters := { tx := ⟨3⟩ } }
    let device : Sample := { counters := { idle := ⟨.ofNat (2 ^ 64 - 3)⟩ } }
    let o : Observation :=
      { consumers := .ofList [(⟨1⟩, long), (⟨2⟩, short), (⟨3⟩, short)], device }
    let o' : Observation :=
      { consumers := .ofList [(⟨1⟩, short), (⟨9⟩, long), (⟨5⟩, short)], device }
    let run := o.shareOut .wifi currents {}
    o'.consumers.values.Perm o.consumers.values ∧
      (o'.shareOut .wifi currents {}).value.tracked.duration = run.value.tracked.duration ∧
      run.value.tracked.duration.toNat = 2 ^ 64 - 1 ∧ run.value.systemDuration.toNat = 0 ∧
      deficits .duration run.events = [(.wifi, .ofNat 2)] := by
  intro currents long short device o o' run
  obtain ⟨-, hdevice, htracked, hnames, hsystem, -, -, -, hdeficits⟩ :=
    o.toNat_durations_shareOut .wifi currents {}
  have hperm : o'.consumers.values.Perm o.consumers.values := by decide +kernel
  have hlong : run.value.tracked.duration.toNat = 2 ^ 64 - 1 := by
    rw [htracked]
    decide +kernel
  have hshort : run.value.device.duration.toNat = 2 ^ 64 - 3 := by
    rw [hdevice]
    decide +kernel
  refine ⟨hperm, hnames o' hperm, hlong, ?_, ?_⟩
  · rw [hsystem, hlong, hshort]
    rfl
  · rw [hdeficits, hlong, hshort]
    rfl

end Observation

end PowerShare
