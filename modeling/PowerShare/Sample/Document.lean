import PowerShare.Json.Document
import PowerShare.Sample

/-!
# Samples and observations as JSON documents

What a sample does not have is left out, and so is an empty map of slices; the counters always
stand. Maps are objects whose member names are the keys.
-/

namespace PowerShare

open Json

def Counters.members (c : Counters) : List (String × Document) :=
  [("idle_ms", .integer c.idle.toNat), ("rx_ms", .integer c.rx.toNat),
    ("tx_ms", .integer c.tx.toNat)]

/-- A measured energy, if there is one. -/
def energyMember (energy? : Option Int64) : List (String × Document) :=
  Document.optional "measured_energy_uj" (fun e => .integer e.toInt) energy?

def Slice.document (s : Slice) : Document := .object (s.counters.members ++ energyMember s.energy?)

namespace Sample

/-- The slices by state, if there are any. -/
def sliceMembers (s : Sample) : List (String × Document) :=
  if s.slices.isEmpty then []
  else [("per_state", .object (s.slices.entries.map fun e => (e.1.name, e.2.document)))]

def document (s : Sample) : Document :=
  .object <|
    s.counters.members ++ energyMember s.energy? ++
    Document.optional "reported_power_mah" .number s.charge? ++
    s.sliceMembers ++
    Document.optional "rx_bytes" (fun n => .integer n.toNat) s.rxBytes? ++
    Document.optional "tx_bytes" (fun n => .integer n.toNat) s.txBytes?

end Sample

def Observation.document (o : Observation) : Document :=
  .object
    [("reporting_supported", .boolean o.supported),
      ("consumers", .object (o.consumers.entries.map fun e => (e.1.text, e.2.document))),
      ("device", o.device.document)]

end PowerShare
