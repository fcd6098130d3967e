import PowerShare.Proofs.Json.NumberText
import PowerShare.Proofs.Json.Spelling
import PowerShare.Proofs.Sample.Joined

/-!
# Which keys name a consumer

The key of a consumer is a number, read off the bytes between the quotes. Of all bytes without a
quote only one text is read as a number of 32 bits, its decimal one:

* `eq_digits_of_uint32Key`, `readsKey_uint32Key` -- what is read, and that it is read;
* `reads_consumers` -- an object of consumers is refused for any other key;
* `Observation.HasConsumers` -- the texts of an observation in which the consumers are written as
  given bytes, and `HasConsumers.reads` -- what is made of them;
* `Observation.parse_consumers` -- **so an observation is accepted just if all keys of its consumers
  are decimal texts,** and the last entry of each key stays.
-/

namespace PowerShare

open Json Reader

/-! ## 1. Keys -/

namespace Json

/-- **What is read as a number between quotes is the decimal text of the number.** -/
theorem eq_digits_of_uint32Key {k rest left : List UInt8} {n : UInt32} (hk : byte '"' ∉ k)
    (h : uint32Key.run? (k ++ byte '"' :: rest) = some (n, left)) :
    k = utf8 (digitsOf n.toNat) ∧ left = rest := by
  rw [run?_uint32Key] at h
  obtain ⟨⟨x, behind⟩, hnumber, h⟩ := Option.bind_eq_some_iff.1 h
  obtain ⟨i, hi, h⟩ := Option.bind_eq_some_iff.1 h
  obtain ⟨m, hm, hx⟩ := Numeral.exists_of_number hnumber
  dsimp only at h hi
  split at h
  · rename_i hquote
    cases h
    obtain ⟨left, rfl⟩ := List.head?_eq_some_iff.1 hquote
    have hplain : byte '"' ∉ m.bytes := fun hb => (m.plainByte hb).1 rfl
    obtain ⟨rfl, rfl⟩ := eq_of_append_cons hk hplain hm
    obtain ⟨rfl, hleast, hgreatest⟩ := Number.eq_integer_of_between? hi
    refine ⟨?_, rfl⟩
    rw [Numeral.bytes_of_integer? (Numeral.integer?_of_number? hx) hleast, UInt32.toNat_ofNat',
      Nat.mod_eq_of_lt (by omega)]
  · cases h

theorem readsKey_uint32Key (n : UInt32) :
    ReadsKey uint32Key (utf8 (digitsOf n.toNat)) (some n) := by
  intro rest _
  have hlt := n.toNat_lt
  have htext : integerText n.toNat = digitsOf n.toNat := if_neg (by omega)
  obtain ⟨m, hbytes, hm⟩ := exists_numeral_integer n.toNat
  have hbetween : (Number.integer n.toNat).between? 0 (2 ^ 32 - 1) = some (n.toNat : Int) :=
    if_pos (by simp; omega)
  rw [run?_uint32Key, ← htext, ← hbytes, m.run?_number (.cons (by decide) rest),
    Numeral.number?_of_integer? (hm.integer?_eq (by omega) (by omega))]
  show ((Number.integer n.toNat).between? 0 (2 ^ 32 - 1)).bind _ = some (n, rest)
  rw [hbetween]
  show some (UInt32.ofNat (Int.toNat n.toNat), rest) = some (n, rest)
  rw [Int.toNat_natCast, UInt32.ofNat_toNat]

end Json

/-! ## 2. Consumers -/

/-- The decimal text of a consumer's number. -/
def Consumer.digits (c : Consumer) : List UInt8 := utf8 c.text.toList

theorem Consumer.digits_eq (c : Consumer) : c.digits = utf8 (digitsOf c.id.toNat) :=
  congrArg utf8 Nat.toList_repr

theorem Consumer.readsKey_digits (c : Consumer) : ReadsKey consumerKey c.digits (some c) := by
  intro rest hrest
  unfold consumerKey
  rw [c.digits_eq, run?_bind, readsKey_uint32Key c.id rest hrest]
  rfl

theorem Consumer.readsKey_other {k : List UInt8} (hk : byte '"' ∉ k)
    (h : ∀ c : Consumer, k ≠ c.digits) : ReadsKey consumerKey k none := by
  intro rest _
  unfold consumerKey
  rw [run?_bind]
  cases hrun : uint32Key.run? (k ++ byte '"' :: rest) with
  | none => rfl
  | some r =>
    have hdigits := (eq_digits_of_uint32Key hk hrun).1
    exact absurd (hdigits.trans (Consumer.digits_eq ⟨r.1⟩).symm) (h ⟨r.1⟩)

/-- **What is made of an object of consumers:** where all keys are decimal texts, the last entry of
each, and else nothing. -/
theorem reads_consumers {entries : List RawMember} {text : List UInt8}
    (htext : IsObject entries text) (hkeys : ∀ e ∈ entries, byte '"' ∉ e.1)
    (hvalues : ∀ e ∈ entries, ∃ s, readAll (Sample.record.read {}) e.2 = .ok s) :
    (∃ m : SortedMap Consumer Sample, (∀ e ∈ entries, ∃ c : Consumer, e.1 = c.digits) ∧
      Reads (mapOf consumerKey (Sample.record.read {})) text (some m) ∧
      ∀ c s, m.get? c = some s ↔ ∃ v, SortedMap.LastValue entries c.digits v ∧
        readAll (Sample.record.read {}) v = .ok s) ∨
    (¬ ∀ e ∈ entries, ∃ c : Consumer, e.1 = c.digits) ∧
      Reads (mapOf consumerKey (Sample.record.read {})) text none := by
  have hlocal := Record.local_read Sample.local_fields {}
  by_cases hall : ∀ e ∈ entries, ∃ c : Consumer, e.1 = c.digits
  · obtain ⟨m, hsteps, hlast⟩ := exists_steps_entries Consumer.readsKey_digits hlocal
      fun e he => ⟨hall e he, hvalues e he⟩
    exact .inl ⟨m, hall, reads_mapOf htext hsteps, hlast⟩
  · have hrefused : ∃ e ∈ entries, ∀ c : Consumer, e.1 ≠ c.digits := by
      simpa only [not_forall, not_exists, exists_prop] using hall
    exact .inr ⟨hall, reads_mapOf htext (steps_entries_refused Consumer.readsKey_digits hlocal
      (fun e he => Consumer.readsKey_other (hkeys e he)) hvalues hrefused {})⟩

/-! ## 3. Observations -/

namespace Observation

/-- The observation with other consumers. -/
def withConsumers (o : Observation) (m : SortedMap Consumer Sample) : Observation :=
  { o with consumers := m }

/-- The text spells an observation whose consumers are written as these bytes; where they are
written as an object without members, it is the given one. -/
inductive HasConsumers (o : Observation) (consumers : List UInt8) : List UInt8 → Prop where
  | object {before after : List RawMember} {name text : List UInt8} {seen : List String} :
      RawMember.name? (name, consumers) = some "consumers" →
      (before ++ (name, utf8 "\x7b\x7d".toList) :: after).foldlM record.memberOf? ({}, []) =
        some (o, seen) →
      IsObject (before ++ (name, consumers) :: after) text → HasConsumers o consumers text
  | list {supported text : List UInt8} {device? : Option (List UInt8)} :
      readAll boolean supported = .ok o.supported → o.consumers = {} →
      (match device? with
        | none => o.device = {}
        | some device => readAll (Sample.record.read {}) device = .ok o.device) →
      IsList (supported :: consumers :: device?.toList) text → HasConsumers o consumers text

/-- Of a field that has nothing to do with the consumers the same is made whatever they are. -/
theorem readAll_field_withConsumers {f : RecordField Observation} (hf : f ∈ record.fields)
    (hname : f.name ≠ "consumers") (o : Observation) (m : SortedMap Consumer Sample)
    (v : List UInt8) :
    (readAll (f.read (o.withConsumers m)) v).toOption =
      (readAll (f.read o) v).toOption.map (·.withConsumers m) := by
  have hset {β : Type} (p : ByteReader β) {g g' : β → Observation}
      (hg : ∀ b, g' b = (g b).withConsumers m) :
      (readAll (do return g' (← p)) v).toOption =
        (readAll (do return g (← p)) v).toOption.map (·.withConsumers m) := by
    rw [toOption_readAll_map, toOption_readAll_map, Option.map_map]
    exact congrArg (Option.map · _) (funext hg)
  unfold record at hf
  simp only [List.mem_cons, List.not_mem_nil, or_false] at hf
  rcases hf with rfl | rfl | rfl
  · exact hset boolean fun _ => rfl
  · exact absurd rfl hname
  · exact hset (Sample.record.read {}) fun _ => rfl

/-- Once the consumers were read, further members leave them as they are. -/
theorem memberOf?_withConsumers {o : Observation} {seen : List String} (hseen : "consumers" ∈ seen)
    (m : SortedMap Consumer Sample) (e : RawMember) :
    record.memberOf? (o.withConsumers m, seen) e =
      (record.memberOf? (o, seen) e).map fun r => (r.1.withConsumers m, r.2) := by
  unfold Record.memberOf?
  dsimp only
  cases e.name? with
  | none => rfl
  | some name =>
    rw [Option.bind_some, Option.bind_some]
    cases hf : record.fields.find? (·.name == name) with
    | none =>
      dsimp only
      rw [Option.map_map]
      rfl
    | some f =>
      dsimp only
      split
      · rfl
      · rename_i hnew
        have hfound : (f.name == name) = true := by simpa using List.find?_some hf
        have hname : f.name = name := beq_iff_eq.1 hfound
        have hother : f.name ≠ "consumers" := by
          rintro heq
          rw [← hname, heq] at hnew
          exact hnew (List.contains_iff_mem.2 hseen)
        rw [readAll_field_withConsumers (List.mem_of_find?_eq_some hf) hother, Option.map_map,
          Option.map_map]
        rfl

theorem foldlM_withConsumers {es : List RawMember} {o last : Observation}
    {seen seen' : List String} (hseen : "consumers" ∈ seen)
    (h : es.foldlM record.memberOf? (o, seen) = some (last, seen'))
    (m : SortedMap Consumer Sample) :
    es.foldlM record.memberOf? (o.withConsumers m, seen) = some (last.withConsumers m, seen') := by
  induction es generalizing o seen with
  | nil =>
    cases h
    rfl
  | cons e es ih =>
    rw [List.foldlM_cons] at h ⊢
    obtain ⟨⟨next, nextSeen⟩, he, hes⟩ := Option.bind_eq_some_iff.1 h
    rw [memberOf?_withConsumers hseen, he]
    exact ih (Record.seen_of_memberOf? he hseen) hes

/-- The consumers are read as none for the first time. -/
theorem memberOf?_noConsumers {name : List UInt8} {consumers : List UInt8}
    (hname : RawMember.name? (name, consumers) = some "consumers") {o o' : Observation}
    {seen seen' : List String}
    (h : record.memberOf? (o, seen) (name, utf8 "\x7b\x7d".toList) = some (o', seen')) :
    o' = o.withConsumers {} ∧ seen' = "consumers" :: seen ∧ seen.contains "consumers" = false := by
  have hempty : IsObject [] (utf8 "\x7b\x7d".toList) :=
    ⟨[], _, [], .nil, .stop .nil, .nil, by decide⟩
  have hread : (readAll (do
      return o.withConsumers (← mapOf consumerKey (Sample.record.read {})))
        (utf8 "\x7b\x7d".toList)).toOption = some (o.withConsumers {}) :=
    ((reads_mapOf hempty .nil).map fun _ => rfl).toOption_readAll
  obtain ⟨text, htext, h⟩ := Option.bind_eq_some_iff.1 h
  obtain rfl : text = "consumers" := Option.some.inj (htext.symm.trans hname)
  have hcase : (if seen.contains "consumers" then none
      else some (o.withConsumers {}, "consumers" :: seen)) = some (o', seen') := by
    rw [← h, ← Option.map_some (f := (·, "consumers" :: seen)), ← hread]
    rfl
  split at hcase
  · cases hcase
  · rename_i hnew
    cases hcase
    exact ⟨rfl, rfl, Bool.eq_false_iff.2 hnew⟩

/-- **What is made of an observation** is what is made of it without consumers, and of its
consumers. -/
theorem HasConsumers.reads {o : Observation} {consumers text : List UInt8}
    (h : HasConsumers o consumers text) {m? : Option (SortedMap Consumer Sample)}
    (hm : Reads (mapOf consumerKey (Sample.record.read {})) consumers m?) :
    Reads (record.read {}) text (m?.map o.withConsumers) := by
  obtain ⟨f, hf, hread⟩ : ∃ f, record.fields.find? (·.name == "consumers") = some f ∧
      ∀ o : Observation, f.read o = (do
        return o.withConsumers (← mapOf consumerKey (Sample.record.read {}))) :=
    ⟨_, rfl, fun _ => rfl⟩
  have hfield (o : Observation) : Reads (f.read o) consumers (m?.map o.withConsumers) := by
    rw [hread]
    exact hm.map fun _ => rfl
  cases h with
  | @object before after name _ seen hname hothers htext =>
    rw [List.foldlM_append] at hothers
    obtain ⟨⟨o₁, seen₁⟩, hbefore, hothers⟩ := Option.bind_eq_some_iff.1 hothers
    rw [List.foldlM_cons] at hothers
    obtain ⟨⟨o₂, seen₂⟩, hnone, hafter⟩ := Option.bind_eq_some_iff.1 hothers
    obtain ⟨rfl, rfl, hnew⟩ := memberOf?_noConsumers hname hnone
    have hbefore := Record.steps_of_foldlM local_fields hbefore
    have hmember {w : List UInt8} (hw : Blank w) :=
      Record.reads_field hname hf hnew (hfield o₁) hw
    have hsteps : Steps record.member (before ++ (name, consumers) :: after) ({}, [])
        (m?.map fun m => (o.withConsumers m, seen)) := by
      refine hbefore.append ?_
      cases m? with
      | none => exact .refused fun _ hw => hmember hw
      | some m =>
        refine .cons (fun _ hw => hmember hw) (Record.steps_of_foldlM local_fields ?_)
        exact foldlM_withConsumers List.mem_cons_self hafter m
    have hread := Record.reads_read_object htext hsteps
    rw [Option.map_map] at hread
    exact hread
  | @list supported _ device? hsupported hnone hdevice htext =>
    obtain ⟨isSupported, _, device⟩ := o
    refine Record.reads_read_list htext ?_
    refine .cons ((local_boolean.reads hsupported).map fun _ => rfl) ?_
    have hitem := hm.map (g := withConsumers { supported := isSupported }) fun _ => rfl
    cases m? with
    | none => exact .refused hitem
    | some m =>
      refine .cons hitem ?_
      cases device? with
      | none =>
        cases hdevice
        exact .nil
      | some bytes =>
        have hsample := (Record.local_read Sample.local_fields {}).reads hdevice
        exact .cons (hsample.map fun _ => rfl) .nil

/-- **Which keys name a consumer.** An observation whose consumers have acceptable samples under
keys without a quote in them is accepted just if every key is the decimal text of a number of 32
bits. Then each consumer has the sample of the last key that is the text of its number, there are no
other consumers, and nothing else of the observation depends on them. Two consumers have two
texts. -/
theorem parse_consumers {o : Observation} {entries : List RawMember} {consumers text : List UInt8}
    (htext : HasConsumers o consumers text) (hconsumers : IsObject entries consumers)
    (hkeys : ∀ e ∈ entries, byte '"' ∉ e.1)
    (hvalues : ∀ e ∈ entries, ∃ s, readAll (Sample.record.read {}) e.2 = .ok s) :
    ((∃ o', parse text = .ok o') ↔ ∀ e ∈ entries, ∃ c : Consumer, e.1 = c.digits) ∧
      (∀ o', parse text = .ok o' → ∃ m, o' = o.withConsumers m ∧
        ∀ c s, m.get? c = some s ↔ ∃ v, SortedMap.LastValue entries c.digits v ∧
          readAll (Sample.record.read {}) v = .ok s) ∧
      Function.Injective Consumer.digits := by
  have hinjective : Function.Injective Consumer.digits := by
    intro c c' h
    have hrun := c.readsKey_digits [] .nil
    rw [h, c'.readsKey_digits [] .nil] at hrun
    cases hrun
    rfl
  rcases reads_consumers hconsumers hkeys hvalues with ⟨m, hall, hread, hlast⟩ | ⟨hnot, hread⟩
  · have hparse : parse text = .ok (o.withConsumers m) :=
      eq_ok_of_toOption (htext.reads hread).toOption_readAll
    refine ⟨⟨fun _ => hall, fun _ => ⟨_, hparse⟩⟩, fun o' ho' => ⟨m, ?_, hlast⟩, hinjective⟩
    rw [hparse] at ho'
    cases ho'
    rfl
  · have hparse : (parse text).toOption = none := (htext.reads hread).toOption_readAll
    have hrefused (o' : Observation) : parse text ≠ .ok o' := by
      intro ho'
      rw [ho'] at hparse
      cases hparse
    exact ⟨⟨fun ⟨o', ho'⟩ => absurd ho' (hrefused o'), fun hall => absurd hall hnot⟩,
      fun o' ho' => absurd ho' (hrefused o'), hinjective⟩

/-- The consumer seven, and a text of its number that is not the decimal one. -/
theorem parse_consumers_seven :
    let consumers (k : String) := utf8 ("\x7b\"" ++ k ++ "\":[5]\x7d").toList
    let text (k : String) :=
      utf8 ("\x7b\"reporting_supported\":false,\"consumers\":").toList ++ consumers k ++
        utf8 ", \"version\": 1\x7d".toList
    let o : Observation := { supported := false }
    let s : Sample := { counters := { idle := ⟨5⟩ } }
    (∀ k ∈ ["7", "07"], HasConsumers o (consumers k) (text k) ∧
      IsObject [(utf8 k.toList, utf8 "[5]".toList)] (consumers k) ∧ byte '"' ∉ utf8 k.toList) ∧
    readAll (Sample.record.read {}) (utf8 "[5]".toList) = .ok s ∧
    (∃ m, parse (text "7") = .ok (o.withConsumers m) ∧ m.get? ⟨7⟩ = some s ∧ m.get? ⟨70⟩ = none) ∧
    ∀ o', parse (text "07") ≠ .ok o' := by
  intro consumers text o s
  have hs : readAll (Sample.record.read {}) (utf8 "[5]".toList) = .ok s := by decide +kernel
  have hspace : Blank [byte ' '] := fun b hb => List.mem_singleton.1 hb ▸ by decide
  have hname : RawMember.name? (utf8 "consumers".toList, []) = some "consumers" := by decide +kernel
  let before : List RawMember := [(utf8 "reporting_supported".toList, utf8 "false".toList)]
  let after : List RawMember := [(utf8 "version".toList, utf8 " 1".toList)]
  have hothers : (before ++ (utf8 "consumers".toList, utf8 "\x7b\x7d".toList) :: after).foldlM
      record.memberOf? ({}, []) = some (o, ["consumers", "reporting_supported"]) := by
    decide +kernel
  have htext : ∀ k ∈ ["7", "07"], HasConsumers o (consumers k) (text k) ∧
      IsObject [(utf8 k.toList, utf8 "[5]".toList)] (consumers k) ∧ byte '"' ∉ utf8 k.toList := by
    simp only [List.forall_mem_cons]
    refine ⟨⟨.object hname hothers ⟨[], _, [], .nil, .first .nil .nil (.next .nil .nil .nil
        (.next .nil hspace .nil (.stop .nil))), .nil, ?_⟩, ?_, ?_⟩,
      ⟨.object hname hothers ⟨[], _, [], .nil, .first .nil .nil (.next .nil .nil .nil
        (.next .nil hspace .nil (.stop .nil))), .nil, ?_⟩, ?_, ?_⟩, fun _ h => nomatch h⟩
    · decide +kernel
    · exact ⟨[], _, [], .nil, .first .nil .nil (.stop .nil), .nil, by decide +kernel⟩
    · decide +kernel
    · decide +kernel
    · exact ⟨[], _, [], .nil, .first .nil .nil (.stop .nil), .nil, by decide +kernel⟩
    · decide +kernel
  have hparse (k : String) (hk : k ∈ ["7", "07"]) :=
    parse_consumers (htext k hk).1 (htext k hk).2.1
      (List.forall_mem_singleton.2 (htext k hk).2.2) (List.forall_mem_singleton.2 ⟨s, hs⟩)
  refine ⟨htext, hs, ?_, fun o' ho' => ?_⟩
  · obtain ⟨haccepted, hread, -⟩ := hparse "7" (by decide)
    obtain ⟨o', ho'⟩ := haccepted.2 (List.forall_mem_singleton.2 ⟨⟨7⟩, by decide +kernel⟩)
    obtain ⟨m, rfl, hlast⟩ := hread o' ho'
    refine ⟨m, ho', (hlast _ _).2 ⟨_, ⟨[], [], rfl, List.not_mem_nil⟩, hs⟩, ?_⟩
    refine Option.eq_none_iff_forall_ne_some.2 fun s' hs' => ?_
    obtain ⟨v, hv, -⟩ := (hlast _ _).1 hs'
    rw [SortedMap.lastValue_iff_mem (by simp), List.mem_singleton] at hv
    exact absurd (Prod.mk.inj hv).1 (by decide +kernel)
  · obtain ⟨haccepted, -, -⟩ := hparse "07" (by decide)
    obtain ⟨c, hc⟩ := haccepted.1 ⟨o', ho'⟩ _ (List.mem_singleton_self _)
    have hrefused : consumerKey.run? (utf8 "07".toList ++ [byte '"']) = none := by decide +kernel
    have hread := c.readsKey_digits [] .nil
    rw [← hc, hrefused] at hread
    cases hread

end Observation

end PowerShare
