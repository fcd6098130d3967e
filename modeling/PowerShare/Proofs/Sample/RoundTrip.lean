import PowerShare.Proofs.Attribution.Totals
import PowerShare.Proofs.Json.Written
import PowerShare.Proofs.Sample.Spelling
import PowerShare.Sample.Document
import PowerShare.SystemUsage

/-!
# Observations that were written and read

The text of an observation is read as that observation, but for one thing: a reported charge that
is not finite has no text, and is read as if none had been reported.

* `Observation.finiteCharges` -- the observation without such charges;
* `Observation.ChargesReadBack` -- what is asked of the finite ones: that the reader of numbers
  takes the text of each for the same number again;
* `Observation.spells_document` -- the text spells just that observation;
* `Observation.shareOut_finiteCharges` and `summarize_finiteCharges` -- no figure rests on the
  charges left out;
* `Observation.readSnapshot_document` -- **an observation that was written and read is the same but
  for charges that are not finite, and is shared out and summed up alike.**
-/

namespace PowerShare

open Json

/-! ## 1. Charges that are not finite -/

/-- The sample without a reported charge that is not finite. -/
def Sample.finiteCharge (s : Sample) : Sample :=
  { s with charge? := s.charge?.filter Binary64.isFinite }

/-- The observation without reported charges that are not finite. -/
def Observation.finiteCharges (o : Observation) : Observation :=
  { o with
    consumers := o.consumers.mapValues fun _ s => s.finiteCharge
    device := o.device.finiteCharge }

/-- A finite charge that was reported is read back from its text. -/
def Sample.ChargeReadsBack (s : Sample) : Prop :=
  ∀ c, s.charge? = some c → c.isFinite = true → ReadsBack c

/-- All finite charges that were reported are read back from their texts. -/
structure Observation.ChargesReadBack (o : Observation) : Prop where
  device : o.device.ChargeReadsBack
  consumers : ∀ e ∈ o.consumers.entries, e.2.ChargeReadsBack

/-! ## 2. What is written -/

section

variable {σ : Type} {start s : σ} {fs : List (Json.Field σ)} {members : List (String × Document)}

theorem saysFields_counters {get : σ → Counters} {set : σ → Counters → σ}
    (h : SaysFields start s fs members) :
    SaysFields start s (counterShape get set ++ fs) ((get s).members ++ members) :=
  .given (fun ht => Spelling.spells_uint64 ht) <| .given (fun ht => Spelling.spells_uint64 ht) <|
    .given (fun ht => Spelling.spells_uint64 ht) h

end

variable {t : Tree}

theorem spells_energy {e : Int64} (h : Says t (.integer e.toInt)) :
    (Spelling.optional .int64).Spells t (some e) :=
  Spelling.spells_optional_integer h (Spelling.spells_int64 h)

theorem spells_count {n : UInt64} (h : Says t (.integer n.toNat)) :
    (Spelling.optional .uint64).Spells t (some n) :=
  Spelling.spells_optional_integer h (Spelling.spells_uint64 h)

theorem Slice.spells_document {s : Slice} (h : Says t s.document) : shape.Spells t s := by
  refine RecordShape.spells_of_says (saysFields_counters ?_) h
  rw [← List.append_nil (energyMember s.energy?)]
  exact .optionalField spells_energy rfl .nil

theorem RunState.spells_name {units : List TextUnit} {s : RunState} (h : Quotes units s.name) :
    keySpelling.Spells units s := KeySpelling.spells_names h

theorem Sample.spells_slices {s : Sample}
    (h : Says t (.object (s.slices.entries.map fun e => (e.1.name, e.2.document)))) :
    (Spelling.map RunState.keySpelling Slice.shape.spelling).Spells t s.slices := by
  have hmap : (Spelling.map RunState.keySpelling Slice.shape.spelling).Spells t
      (s.slices.mapValues fun _ => id) :=
    Spelling.spells_map RunState.spells_name (fun _ _ _ ht => Slice.spells_document ht) h
  have hsame : s.slices.mapValues (fun _ => id) = s.slices := SortedMap.ext (by simp)
  exact hsame ▸ hmap

theorem Sample.spells_document {s : Sample} (hback : s.ChargeReadsBack) (h : Says t s.document) :
    shape.Spells t s.finiteCharge := by
  refine RecordShape.spells_of_says ?_ h
  rw [← List.append_nil (Document.optional "tx_bytes" _ s.txBytes?)]
  simp only [List.append_assoc]
  refine saysFields_counters (.optionalField spells_energy rfl ?_)
  -- The charge is written as it is, but read without one that is not finite.
  refine .optional (fun {c} hc {t} ht => ?_) (fun hnone => ?_) ?_
  · show (Spelling.optional .binary64).Spells t (s.charge?.filter Binary64.isFinite)
    rw [hc]
    exact Spelling.spells_optional_number (hback c hc) ht
  · show s.charge?.filter Binary64.isFinite = none
    rw [hnone]
    rfl
  have hcounts : SaysFields {} s.finiteCharge (shape.fields.drop 6)
      (Document.optional "rx_bytes" (fun n => .integer n.toNat) s.rxBytes? ++
        (Document.optional "tx_bytes" (fun n => .integer n.toNat) s.txBytes? ++ [])) :=
    .optionalField spells_count rfl (.optionalField spells_count rfl .nil)
  -- No slices are left out rather than written as an empty object.
  unfold sliceMembers
  split
  · rename_i hempty
    refine .missing ?_ hcounts
    show s.slices = {}
    exact SortedMap.ext (List.isEmpty_iff.1 hempty)
  · exact .given (fun ht => Sample.spells_slices ht) hcounts

theorem Consumer.spells_text {units : List TextUnit} {c : Consumer} (h : Quotes units c.text) :
    keySpelling.Spells units c := KeySpelling.spells_uint32 h

theorem Observation.spells_document {o : Observation} (hback : o.ChargesReadBack)
    (h : Says t o.document) : shape.Spells t o.finiteCharges := by
  refine RecordShape.spells_of_says (.given (fun ht => Spelling.spells_boolean ht) <|
    .given (fun ht => ?_) <| .given (fun ht => Sample.spells_document hback.device ht) .nil) h
  exact Spelling.spells_map Consumer.spells_text
    (fun e he _ ht => Sample.spells_document (hback.consumers e he) ht) ht

/-! ## 3. Figures -/

namespace Sample

theorem reported?_finiteCharge (s : Sample) : s.finiteCharge.reported? = s.reported? := by
  unfold finiteCharge reported?
  rw [Option.filter_filter]
  congr 1
  funext c
  rw [Bool.and_comm, Bool.and_assoc, Bool.and_self]

theorem basis_finiteCharge (s : Sample) (currents : Currents) (options : Options) :
    s.finiteCharge.basis currents options = s.basis currents options := by
  unfold basis
  rw [reported?_finiteCharge]
  rfl

theorem draw_finiteCharge (s : Sample) (currents : Currents) (basis : Basis) (asked : Bool) :
    s.finiteCharge.draw currents basis asked = s.draw currents basis asked := by
  cases basis with
  | reported =>
    unfold draw
    rw [reported?_finiteCharge]
    rfl
  | measured | estimated | unavailable => rfl

theorem bestDraw_finiteCharge (s : Sample) (currents : Currents) (options : Options)
    (asked : Bool) :
    s.finiteCharge.bestDraw currents options asked = s.bestDraw currents options asked := by
  unfold bestDraw
  rw [basis_finiteCharge, draw_finiteCharge]

theorem share_finiteCharge (s : Sample) (consumer : Consumer) (currents : Currents)
    (options : Options) :
    s.finiteCharge.share consumer currents options = s.share consumer currents options := by
  unfold share
  simp only [basis_finiteCharge, draw_finiteCharge]
  rfl

end Sample

namespace Observation

variable (o : Observation) (component : Component) (currents : Currents)

theorem shareOut_finiteCharges (options : Options) :
    o.finiteCharges.shareOut component currents options =
      o.shareOut component currents options :=
  shareOut_of_samples (fun e _ => e.2.share_finiteCharge e.1 currents options)
    (o.device.basis_finiteCharge currents options)
    (o.device.bestDraw_finiteCharge currents options false) component

theorem summarize_finiteCharges (systemConsumers : List Consumer) :
    o.finiteCharges.summarize component currents systemConsumers =
      o.summarize component currents systemConsumers := by
  unfold summarize
  rw [shareOut_finiteCharges]
  rfl

/-! ## 4. Files -/

/-- A written observation is read without its charges that are not finite. -/
theorem readSnapshot_written {folder : Folder} {path : String} {text : List UInt8}
    (hback : o.ChargesReadBack)
    (htext : text = utf8 o.document.compact ∨ text = utf8 o.document.pretty)
    (hfile : folder.read path = .ok text) :
    readSnapshot parse folder path = .ok o.finiteCharges := by
  have hsaid : o.document.SaidBy text := by
    rcases htext with rfl | rfl
    · exact Document.saidBy_compact o.document
    · exact Document.saidBy_pretty o.document
  obtain ⟨t, ht, hwhole⟩ := hsaid.exists_isText
  have hread := readSnapshot_eq hfile hwhole
  rw [RecordShape.value?_of_spells (spells_document hback ht)] at hread
  exact hread

/-- **An observation that was written and read is the same but for charges that are not finite,**
in either way to write it, as long as the finite ones are read back from their own texts; and the
charges left out matter to nothing: the two are shared out and summed up alike, event by event and
bit by bit. -/
theorem readSnapshot_document {folder : Folder} {path : String} {text : List UInt8}
    (hback : o.ChargesReadBack)
    (htext : text = utf8 o.document.compact ∨ text = utf8 o.document.pretty)
    (hfile : folder.read path = .ok text) :
    readSnapshot parse folder path = .ok o.finiteCharges ∧
      ∀ component currents,
        (∀ options, o.finiteCharges.shareOut component currents options =
          o.shareOut component currents options) ∧
        ∀ systemConsumers, o.finiteCharges.summarize component currents systemConsumers =
          o.summarize component currents systemConsumers :=
  ⟨o.readSnapshot_written hback htext hfile, fun component currents =>
    ⟨o.shareOut_finiteCharges component currents, o.summarize_finiteCharges component currents⟩⟩

/-- An observation with a device charge that is not a number and a consumer with a finite one. -/
theorem readSnapshot_document_nan :
    let o : Observation := {
      consumers := SortedMap.ofList [(⟨4294967295⟩, {
        counters := ⟨⟨18446744073709551615⟩, ⟨1⟩, .zero⟩
        energy? := some (-9223372036854775808)
        charge? := some (Binary64.ofNat 3 / Binary64.ofNat 10)
        slices := SortedMap.ofList [(.cached, { energy? := some 5 })] })]
      device := { charge? := some .nan, rxBytes? := some 0 } }
    let loaded : Observation := { o with device := { rxBytes? := some 0 } }
    let folder : Folder := ⟨[("o.json", utf8 o.document.pretty)], [], []⟩
    let currents : Currents := ⟨.ofNat 1, .ofNat 2, .ofNat 3⟩
    o.ChargesReadBack ∧ folder.read "o.json" = .ok (utf8 o.document.pretty) ∧
      readSnapshot parse folder "o.json" = .ok loaded ∧
      loaded.shareOut .wifi currents {} = o.shareOut .wifi currents {} ∧
      loaded.summarize .wifi currents [] = o.summarize .wifi currents [] := by
  intro o loaded folder currents
  have hback : o.ChargesReadBack := by
    constructor
    · intro c hc hfinite
      rw [← Option.some.inj hc] at hfinite
      exact absurd hfinite (by decide)
    · intro e he c hc _
      rw [List.mem_singleton.1 he] at hc
      have hshort : (shortNumeral 0 (some (digit 3))).IsShort :=
        ⟨by decide +kernel, by decide +kernel⟩
      rw [← Option.some.inj hc]
      exact readsBack_of_isShort hshort (by decide +kernel) (by decide +kernel)
  have hfile : folder.read "o.json" = .ok (utf8 o.document.pretty) := by decide +kernel
  have hloaded : o.finiteCharges = loaded := by decide +kernel
  have h := o.readSnapshot_document hback (.inr rfl) hfile
  rw [hloaded] at h
  exact ⟨hback, hfile, h.1, (h.2 .wifi currents).1 {}, (h.2 .wifi currents).2 []⟩

end Observation

end PowerShare
