import Mathlib.Data.Bool.AllAny
import PowerShare.Command
import PowerShare.Proofs.Json.RecordSpelling
import PowerShare.Sample.Reading

/-!
# How observations are spelled

The records of an observation file, field by field with the spellings of each, and the readers that
make of a tree just what it spells. A record may be an object with its fields in any order or a list
with the first of them, and may leave out what has the value of a missing field. Integers are
spelled with digits alone, and the number of a consumer without escapes.

* `Slice.shape`, `Sample.shape` and `Observation.shape` -- the fields of the records;
* `Observation.interprets_read` -- the reader of observations goes by the shape;
* `Observation.readSnapshot_spelled` -- **whatever spells an observation is read as that
  observation,** and a file in which a field is given twice is refused.
-/

namespace PowerShare

open Json

/-! ## 1. Records -/

/-- The three counters, where a record has them. -/
def counterShape (get : σ → Counters) (set : σ → Counters → σ) : List (Json.Field σ) :=
  [⟨"idle_ms", UInt64, fun s => (get s).idle.ms, fun s n => set s { get s with idle := ⟨n⟩ },
      .uint64⟩,
    ⟨"rx_ms", UInt64, fun s => (get s).rx.ms, fun s n => set s { get s with rx := ⟨n⟩ }, .uint64⟩,
    ⟨"tx_ms", UInt64, fun s => (get s).tx.ms, fun s n => set s { get s with tx := ⟨n⟩ }, .uint64⟩]

def Slice.shape : RecordShape Slice where
  fields :=
    counterShape Slice.counters (fun s c => { s with counters := c }) ++
    [⟨"measured_energy_uj", Option Int64, Slice.energy?, fun s e => { s with energy? := e },
      .optional .int64⟩]
  start := {}
  nodup_names := by decide
  get_set := by simp [counterShape]
  get_set_of_ne := by simp [counterShape]
  ext {s s'} h := by
    obtain ⟨⟨⟨idle⟩, ⟨rx⟩, ⟨tx⟩⟩, energy⟩ := s
    obtain ⟨⟨⟨idle'⟩, ⟨rx'⟩, ⟨tx'⟩⟩, energy'⟩ := s'
    simp_all [counterShape]

def RunState.keySpelling : KeySpelling RunState := .names name ofName? ofName?_name

def Sample.shape : RecordShape Sample where
  fields :=
    counterShape Sample.counters (fun s c => { s with counters := c }) ++
    [⟨"measured_energy_uj", Option Int64, Sample.energy?, fun s e => { s with energy? := e },
        .optional .int64⟩,
      ⟨"reported_power_mah", Option Charge, Sample.charge?, fun s c => { s with charge? := c },
        .optional .binary64⟩,
      ⟨"per_state", SortedMap RunState Slice, Sample.slices, fun s m => { s with slices := m },
        .map RunState.keySpelling Slice.shape.spelling⟩,
      ⟨"rx_bytes", Option UInt64, Sample.rxBytes?, fun s n => { s with rxBytes? := n },
        .optional .uint64⟩,
      ⟨"tx_bytes", Option UInt64, Sample.txBytes?, fun s n => { s with txBytes? := n },
        .optional .uint64⟩]
  start := {}
  nodup_names := by decide
  get_set := by simp [counterShape]
  get_set_of_ne := by simp [counterShape]
  ext {s s'} h := by
    obtain ⟨⟨⟨idle⟩, ⟨rx⟩, ⟨tx⟩⟩, energy, charge, slices, rxBytes, txBytes⟩ := s
    obtain ⟨⟨⟨idle'⟩, ⟨rx'⟩, ⟨tx'⟩⟩, energy', charge', slices', rxBytes', txBytes'⟩ := s'
    simp_all [counterShape]

def Consumer.keySpelling : KeySpelling Consumer where
  Spells units c := KeySpelling.uint32.Spells units c.id
  key? units := (KeySpelling.uint32.key? units).map Consumer.mk
  key?_of_spells h := by rw [KeySpelling.uint32.key?_of_spells h, Option.map_some]

def Observation.shape : RecordShape Observation where
  fields :=
    [⟨"reporting_supported", Bool, Observation.supported, fun o b => { o with supported := b },
        .boolean⟩,
      ⟨"consumers", SortedMap Consumer Sample, Observation.consumers,
        fun o m => { o with consumers := m }, .map Consumer.keySpelling Sample.shape.spelling⟩,
      ⟨"device", Sample, Observation.device, fun o s => { o with device := s },
        Sample.shape.spelling⟩]
  start := {}
  nodup_names := by decide
  get_set := by simp
  get_set_of_ne := by simp
  ext {o o'} h := by
    obtain ⟨supported, consumers, device⟩ := o
    obtain ⟨supported', consumers', device'⟩ := o'
    simp_all

/-! ## 2. Readers -/

/-- The reader of a field sets what its spelling makes of a tree. -/
theorem of_interprets {g : RecordField σ} {f : Json.Field σ} (hname : g.name = f.name)
    {p : ByteReader f.Value} (h : Interprets p f.spelling.value?)
    (hread : ∀ s, g.read s = p >>= fun v => pure (f.set s v)) : FieldReading.Of g f.reading := by
  refine ⟨hname, fun s => ?_⟩
  show Interprets (g.read s) fun t => (f.spelling.value? t).map (f.set s)
  rw [hread]
  exact h.map fun _ => rfl

theorem forall₂_counterFields (get : σ → Counters) (set : σ → Counters → σ)
    {rs : List (RecordField σ)} {fs : List (Json.Field σ)}
    (hrest : List.Forall₂ FieldReading.Of rs (fs.map Field.reading)) :
    List.Forall₂ FieldReading.Of ((counterFields fun s f => set s (f (get s))) ++ rs)
      ((counterShape get set ++ fs).map Field.reading) :=
  .cons (of_interprets rfl Spelling.interprets_uint64 fun _ => rfl) <|
    .cons (of_interprets rfl Spelling.interprets_uint64 fun _ => rfl) <|
    .cons (of_interprets rfl Spelling.interprets_uint64 fun _ => rfl) hrest

theorem Slice.forall₂_fields : List.Forall₂ FieldReading.Of record.fields shape.readings :=
  forall₂_counterFields counters (fun s c => { s with counters := c }) <|
    .cons (of_interprets rfl Spelling.interprets_int64.optional fun _ => rfl) .nil

theorem Slice.interprets_read : Interprets (record.read {}) shape.value? :=
  Json.interprets_read forall₂_fields {}

theorem RunState.interpretsKey :
    InterpretsKey (nameKey (all.map name) ofName?) keySpelling.key? :=
  interpretsKey_nameKey _ ofName?

theorem Sample.forall₂_fields : List.Forall₂ FieldReading.Of record.fields shape.readings :=
  forall₂_counterFields counters (fun s c => { s with counters := c }) <|
    .cons (of_interprets rfl Spelling.interprets_int64.optional fun _ => rfl) <|
    .cons (of_interprets rfl interprets_binary64.optional fun _ => rfl) <|
    .cons (of_interprets rfl (interprets_mapOf RunState.interpretsKey Slice.interprets_read)
      fun _ => rfl) <|
    .cons (of_interprets rfl Spelling.interprets_uint64.optional fun _ => rfl) <|
    .cons (of_interprets rfl Spelling.interprets_uint64.optional fun _ => rfl) .nil

theorem Sample.interprets_read : Interprets (record.read {}) shape.value? :=
  Json.interprets_read forall₂_fields {}

theorem Consumer.interpretsKey : InterpretsKey consumerKey keySpelling.key? := by
  intro units rest
  unfold consumerKey
  rw [Reader.run?_bind, interpretsKey_uint32Key]
  show _ = ((uint32Of? units).map Consumer.mk).map (·, rest)
  cases uint32Of? units <;> rfl

theorem Observation.forall₂_fields : List.Forall₂ FieldReading.Of record.fields shape.readings :=
  .cons (of_interprets rfl interprets_boolean fun _ => rfl) <|
    .cons (of_interprets rfl (interprets_mapOf Consumer.interpretsKey Sample.interprets_read)
      fun _ => rfl) <|
    .cons (of_interprets rfl Sample.interprets_read fun _ => rfl) .nil

theorem Observation.interprets_read : Interprets (record.read {}) shape.value? :=
  Json.interprets_read forall₂_fields {}

/-! ## 3. Files -/

namespace Observation

/-- A file is read as the shape says, and refused where that gives nothing. -/
theorem readSnapshot_eq {folder : Folder} {path : String} {text : List UInt8} {t : Tree}
    (hfile : folder.read path = .ok text) (ht : IsText t text) :
    match shape.value? t with
    | some o => readSnapshot parse folder path = .ok o
    | none => ∃ e, readSnapshot parse folder path = .error (.refused e) := by
  have hparse : (parse text).toOption = shape.value? t := toOption_readAll interprets_read ht
  unfold readSnapshot
  rw [hfile, ← hparse]
  dsimp only
  cases parse text with
  | ok o => rfl
  | error e => exact ⟨e, rfl⟩

/-- **Whatever spells an observation is read as that observation,** with the fields of each record
in any order, among members of other names, or without names in a list; and a file that gives a
field of any of its records twice is refused. -/
theorem readSnapshot_spelled {folder : Folder} {path : String} {text : List UInt8} {t : Tree}
    (hfile : folder.read path = .ok text) (ht : IsText t text) :
    (∀ o, shape.Spells t o → readSnapshot parse folder path = .ok o) ∧
      (shape.Repeats t → ∃ e, readSnapshot parse folder path = .error (.refused e)) := by
  have hread := readSnapshot_eq hfile ht
  constructor
  · intro o h
    rw [RecordShape.value?_of_spells h] at hread
    exact hread
  · intro h
    rw [RecordShape.value?_of_repeats h] at hread
    exact hread

/-- A name in its plain characters. -/
def plainName (s : String) : List TextUnit :=
  s.toList.filterMap fun c =>
    if h : c ≠ '"' ∧ c ≠ '\\' ∧ 32 ≤ c.toNat then some (.plain c h) else none

/-- One digit. -/
def digit (n : Fin 10) : Digits where
  bytes := [byte '0' + .ofNat n]
  isDigit_eq := by
    have hall : ∀ k : Fin 10, isDigit (byte '0' + .ofNat k) = true := by decide
    intro b hb
    rw [List.mem_singleton.1 hb]
    exact hall n
  ne_nil := List.cons_ne_nil _ _

/-- One digit in front of a point, and others behind it or none. -/
def shortNumeral (n : Fin 10) (places? : Option Digits) : Numeral :=
  ⟨false, digit n, fun _ => rfl, places?, none⟩

/-- The charge two and a half. -/
def charge : Numeral := shortNumeral 2 (some (digit 5))

theorem isShort_charge : charge.IsShort := ⟨by decide +kernel, by decide +kernel⟩

/-- A device that idled for seven milliseconds and reported a charge, as a list behind a member of
another name. -/
def idleDevice : Tree :=
  .object [(plainName "x", .null),
    (plainName "device", .list [.number (shortNumeral 7 none),
      .number (shortNumeral 0 none), .number (shortNumeral 0 none), .null, .number charge])]

def idleText : List UInt8 := utf8 "\x7b\"x\":null, \"device\":[7,0,0,null,2.5]\x7d".toList

theorem isText_idle : IsText idleDevice idleText :=
  ⟨[], _, [], .nil, .object (.first .nil (.mk .nil .nil .null) (.next .nil (w := [byte ' '])
      (List.all_iff_forall_prop.1 (by decide))
      (.mk .nil .nil (.list (.first .nil (.number _) (.next .nil .nil (.number _)
        (.next .nil .nil (.number _) (.next .nil .nil .null (.next .nil .nil (.number _)
          (.stop .nil)))))))) (.stop .nil))),
    .nil, by decide +kernel⟩

/-- What is spelled. -/
def idle : Observation :=
  { device := { counters := { idle := ⟨7⟩ }, charge? := some charge.toBinary64 } }

theorem spells_idleDevice : shape.Spells idleDevice idle where
  named := by decide +kernel
  once := by decide +kernel
  given f hf m hm hname := by
    simp only [shape, List.mem_cons, List.not_mem_nil, or_false] at hf hm
    rcases hm with rfl | rfl
    · rcases hf with rfl | rfl | rfl <;> exact absurd hname (by decide +kernel)
    · rcases hf with rfl | rfl | rfl
      iterate 2 exact absurd hname (by decide +kernel)
      refine ⟨Sample.shape.fields.take 5, Sample.shape.fields.drop 5, rfl,
        .cons ⟨_, rfl, rfl⟩ <| .cons ⟨_, rfl, rfl⟩ <| .cons ⟨_, rfl, rfl⟩ <| .cons rfl <|
        .cons ⟨nofun, Spelling.spells_binary64_of_isShort isShort_charge⟩ .nil, fun f hf => ?_⟩
      simp only [Sample.shape, counterShape, List.cons_append, List.drop_succ_cons, List.drop_zero,
        List.mem_cons, List.not_mem_nil, or_false, List.nil_append] at hf
      rcases hf with rfl | rfl | rfl <;> rfl
  missing f hf hmissing := by
    simp only [shape, List.mem_cons, List.not_mem_nil, or_false] at hf
    rcases hf with rfl | rfl | rfl
    · rfl
    · rfl
    · exact absurd hmissing (by decide +kernel)

/-- A device given twice. -/
def twoDevices : Tree :=
  .object [(plainName "device", .object []), (plainName "device", .null)]

def twoText : List UInt8 := utf8 "\x7b\"device\":\x7b\x7d,\"device\":null\x7d".toList

theorem isText_two : IsText twoDevices twoText :=
  ⟨[], _, [], .nil, .object (.first .nil (.mk .nil .nil (.object (.stop .nil)))
      (.next .nil .nil (.mk .nil .nil .null) (.stop .nil))),
    .nil, by decide +kernel⟩

theorem repeats_twoDevices : shape.Repeats twoDevices :=
  .inl ⟨_, .tail _ (.tail _ (.head _)), by decide +kernel⟩

/-- A list behind another member is read as the device, and a device given twice is refused. -/
theorem readSnapshot_spelled_device :
    (IsText idleDevice idleText ∧ readSnapshot parse ⟨[("one.json", idleText)], [], []⟩ "one.json" =
      .ok idle) ∧
    IsText twoDevices twoText ∧ ∃ e,
      readSnapshot parse ⟨[("two.json", twoText)], [], []⟩ "two.json" = .error (.refused e) :=
  ⟨⟨isText_idle, (readSnapshot_spelled (by decide +kernel) isText_idle).1 _ spells_idleDevice⟩,
    isText_two, (readSnapshot_spelled (by decide +kernel) isText_two).2 repeats_twoDevices⟩

end Observation

end PowerShare
