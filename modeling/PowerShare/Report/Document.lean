import PowerShare.Json.Document
import PowerShare.Report

/-!
# Reports as JSON documents

`Report.document` lists the shares by charge (`Report.ranked`) and flattens a breakdown into a list
of its entries. What a share does not have is left out, so that a missing breakdown and an empty
one stay apart.
-/

namespace PowerShare

open Json

namespace Scope

def document (s : Scope) : Document :=
  .object [("duration_ms", .integer s.duration.toNat), ("power_mah", .number s.charge),
    ("model", .text s.basis.name)]

end Scope

/-- One entry of a breakdown. -/
def StateKey.document (k : StateKey) (charge : Charge) : Document :=
  .object [("consumer", .integer k.consumer.id.toNat), ("state", .text k.state.name),
    ("power_mah", .number charge)]

/-- A count of bytes. -/
def byteCountDocument (n : UInt64) : Document := .integer n.toNat

def Share.document (s : Share) (consumer : Consumer) : Document :=
  .object <|
    [("consumer", .integer consumer.id.toNat), ("duration_ms", .integer s.duration.toNat),
      ("power_mah", .number s.charge), ("model", .text s.basis.name)] ++
    Document.optional "per_key"
      (fun m => .list (m.entries.map fun e => e.1.document e.2)) s.byState? ++
    Document.optional "rx_bytes" byteCountDocument s.rxBytes? ++
    Document.optional "tx_bytes" byteCountDocument s.txBytes?

def Report.document (r : Report) : Document :=
  .object
    [("component", .text r.component.name),
      ("aggregate", .object
        [("device", r.device.document), ("all_consumers", r.tracked.document),
          ("system_only_duration_ms", .integer r.systemDuration.toNat),
          ("system_only_power_mah", .number r.systemCharge)]),
      ("consumers", .list (r.ranked.map fun e => e.2.document e.1))]

end PowerShare
