import PowerShare.Attribution
import PowerShare.Json.Record

/-!
# Reading samples and observations

The records of an observation file. Every field has a value to fall back on, so any of them may be
missing; only an optional field may be `null`.
-/

namespace PowerShare

open Json

/-! ## 1. Fields -/

/-- The three counters, set through a way to change the counters of a record. -/
def counterFields (change : σ → (Counters → Counters) → σ) : List (RecordField σ) :=
  [⟨"idle_ms", fun s => do
      let d : Duration := ⟨← uint64⟩
      return change s fun c => { c with idle := d }⟩,
    ⟨"rx_ms", fun s => do
      let d : Duration := ⟨← uint64⟩
      return change s fun c => { c with rx := d }⟩,
    ⟨"tx_ms", fun s => do
      let d : Duration := ⟨← uint64⟩
      return change s fun c => { c with tx := d }⟩]

/-! ## 2. Records -/

def Slice.record : Record Slice where
  wanted := "struct StateSlice"
  fields :=
    counterFields (fun s f => { s with counters := f s.counters }) ++
    [⟨"measured_energy_uj", fun s => do return { s with energy? := ← optional int64 }⟩]

def Sample.record : Record Sample where
  wanted := "struct ActivityCounterSnapshot"
  fields :=
    counterFields (fun s f => { s with counters := f s.counters }) ++
    [⟨"measured_energy_uj", fun s => do return { s with energy? := ← optional int64 }⟩,
      ⟨"reported_power_mah", fun s => do return { s with charge? := ← optional binary64 }⟩,
      ⟨"per_state", fun s => do
        let key := nameKey (RunState.all.map RunState.name) RunState.ofName?
        let slices ← mapOf key (Slice.record.read {})
        return { s with slices }⟩,
      ⟨"rx_bytes", fun s => do return { s with rxBytes? := ← optional uint64 }⟩,
      ⟨"tx_bytes", fun s => do return { s with txBytes? := ← optional uint64 }⟩]

/-- The number of a consumer between quotes. -/
def consumerKey : ByteReader Consumer := do return ⟨← uint32Key⟩

def Observation.record : Record Observation where
  wanted := "struct ComponentActivity"
  fields :=
    [⟨"reporting_supported", fun o => do return { o with supported := ← boolean }⟩,
      ⟨"consumers", fun o => do
        return { o with consumers := ← mapOf consumerKey (Sample.record.read {}) }⟩,
      ⟨"device", fun o => do return { o with device := ← Sample.record.read {} }⟩]

/-! ## 3. Files -/

/-- The observation of one component that a file spells. -/
def Observation.parse (bytes : List UInt8) : Except ReadError Observation :=
  readAll (Observation.record.read {}) bytes

/-- The observations of several components that a file spells, by component name. -/
def Observations.parse (bytes : List UInt8) : Except ReadError Observations :=
  let key := nameKey (Component.all.map Component.name) Component.ofName?
  readAll (mapOf key (Observation.record.read {})) bytes

end PowerShare
