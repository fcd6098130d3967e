import PowerShare.Json.Scalar
import PowerShare.Proofs.Json.Grammar
import PowerShare.Proofs.Reader

/-!
# Where values start

Every reader of a value skips the blanks in front of it and decides by the first byte:

* `Writes.exists_eq_cons` -- the first byte of a value, which is no blank and no end;
* `run?_peekToken?` and `run?_valueStart` -- the first byte behind blanks;
* `run?_restOfWord` -- the rest of a word;
* `run?_wrongType` -- a value of the wrong type is refused, whatever follows.
-/

namespace PowerShare.Json

open Reader

theorem Blank.dropWhile_append {w : List UInt8} (h : Blank w) (items : List UInt8) :
    (w ++ items).dropWhile isBlank = items.dropWhile isBlank :=
  List.dropWhile_append_of_pos h

/-! ## 1. First bytes -/

theorem ne_of_isDigit {b c : UInt8} (hb : isDigit b = true) (hc : isDigit c = false) : b ≠ c := by
  rintro rfl
  exact Bool.false_ne_true (hc.symm.trans hb)

/-- A byte that a value may start with. -/
def startsValue (b : UInt8) : Bool :=
  isDigit b || [byte '-', byte '"', byte '[', byte '\x7b', byte 'n', byte 't', byte 'f'].contains b

theorem not_isBlank_of_startsValue {b : UInt8} (h : startsValue b = true) : isBlank b = false := by
  refine Bool.eq_false_iff.2 fun hblank => ?_
  simp only [isBlank, Bool.or_eq_true, beq_iff_eq] at hblank
  rcases hblank with ((rfl | rfl) | rfl) | rfl <;> exact absurd h (by decide)

theorem ne_of_startsValue {b c : UInt8} (hb : startsValue b = true) (hc : startsValue c = false) :
    b ≠ c := by
  rintro rfl
  exact Bool.false_ne_true (hc.symm.trans hb)

/-- The bytes that a tree may start with. -/
def Tree.startsWith : Tree → UInt8 → Bool
  | .null, b => b == byte 'n'
  | .boolean value, b => b == if value then byte 't' else byte 'f'
  | .number _, b => b == byte '-' || isDigit b
  | .text _, b => b == byte '"'
  | .list _, b => b == byte '['
  | .object _, b => b == byte '\x7b'

theorem startsValue_of_startsWith {t : Tree} {b : UInt8} (h : t.startsWith b = true) :
    startsValue b = true := by
  cases t with
  | boolean value => cases value <;> rw [beq_iff_eq.1 h] <;> decide
  | number n =>
    rcases Bool.or_eq_true_iff.1 h with hminus | hdigit
    · rw [beq_iff_eq.1 hminus]
      decide
    · unfold startsValue
      rw [hdigit, Bool.true_or]
  | null | text | list | object =>
    rw [beq_iff_eq.1 h]
    decide

theorem ne_of_startsWith {t : Tree} {b c : UInt8} (hb : t.startsWith b = true)
    (hc : t.startsWith c = false) : b ≠ c := by
  rintro rfl
  exact Bool.false_ne_true (hc.symm.trans hb)

/-- **Every value starts with a byte of its own.** -/
theorem Writes.exists_eq_cons {t : Tree} {v : List UInt8} (h : Writes t v) :
    ∃ b tail, v = b :: tail ∧ t.startsWith b = true := by
  cases h with
  | null => exact ⟨_, _, rfl, by decide⟩
  | boolean value => cases value <;> exact ⟨_, _, rfl, by decide⟩
  | number n =>
    obtain ⟨d, tail, hd⟩ := List.exists_cons_of_ne_nil n.whole.ne_nil
    have hdigit : isDigit d = true := n.whole.isDigit_eq d (hd ▸ List.mem_cons_self)
    unfold Numeral.bytes Numeral.sizeBytes
    rw [hd]
    split
    · exact ⟨_, _, rfl, rfl⟩
    · exact ⟨_, _, rfl, Bool.or_eq_true_iff.2 (.inr hdigit)⟩
  | text | list | object => exact ⟨_, _, rfl, beq_self_eq_true _⟩

/-! ## 2. What stops a number -/

theorem Stops.nil : Stops [] := fun _ hb => nomatch hb

theorem Stops.cons {b : UInt8} (h : continuesNumber b = false) (rest : List UInt8) :
    Stops (b :: rest) := by
  intro c hc
  cases hc
  exact h

/-- A blank stops a number. -/
theorem Blank.stops {w rest : List UInt8} (hw : Blank w) (hrest : Stops rest) :
    Stops (w ++ rest) := by
  cases w with
  | nil => exact hrest
  | cons b w =>
    have hb : isBlank b = true := hw b List.mem_cons_self
    simp only [isBlank, Bool.or_eq_true, beq_iff_eq] at hb
    refine .cons ?_ _
    rcases hb with ((rfl | rfl) | rfl) | rfl <;> decide

/-- What follows an item stops a number. -/
theorem WritesItems.stops {items : List Tree} {body : List UInt8} (h : WritesItems false items body)
    (rest : List UInt8) : Stops (body ++ rest) := by
  cases h with
  | stop hw =>
    rw [List.append_assoc]
    exact hw.stops (.cons (by decide) _)
  | next hu =>
    rw [List.append_assoc]
    exact hu.stops (.cons (by decide) _)

/-- What follows a member stops a number. -/
theorem WritesMembers.stops {members : List (List TextUnit × Tree)} {body : List UInt8}
    (h : WritesMembers false members body) (rest : List UInt8) : Stops (body ++ rest) := by
  cases h with
  | stop hw =>
    rw [List.append_assoc]
    exact hw.stops (.cons (by decide) _)
  | next hu =>
    rw [List.append_assoc]
    exact hu.stops (.cons (by decide) _)

/-! ## 3. Behind blanks -/

theorem run?_peekToken? {w : List UInt8} (hw : Blank w) {b : UInt8} (hb : isBlank b = false)
    (items : List UInt8) :
    peekToken?.run? (w ++ b :: items) = some (some b, b :: items) := by
  have hdrop : (w ++ b :: items).dropWhile isBlank = b :: items := by
    rw [hw.dropWhile_append, List.dropWhile_cons, hb]
    rfl
  unfold peekToken?
  simp [hdrop]

theorem run?_valueStart {w : List UInt8} (hw : Blank w) {b : UInt8} (hb : isBlank b = false)
    (items : List UInt8) : valueStart.run? (w ++ b :: items) = some (b, b :: items) := by
  unfold valueStart
  rw [run?_bind, run?_peekToken? hw hb]
  rfl

/-! ## 4. Refusals and words -/

@[simp] theorem run?_ended (inside : Ended) (items : List UInt8) :
    (ended inside : ByteReader α).run? items = none := rfl

@[simp] theorem run?_malformed (what : Malformed) (items : List UInt8) :
    (malformed what : ByteReader α).run? items = none := rfl

@[simp] theorem run?_unfit (what : Unfit) (items : List UInt8) :
    (unfit what : ByteReader α).run? items = none := rfl

/-- What is of the wrong type is refused, whether it can be read or not. -/
theorem run?_wrongType (first : UInt8) (wanted : String) (items : List UInt8) :
    (wrongType first wanted : ByteReader α).run? items = none := by
  unfold wrongType
  simp [run?_ite]

theorem run?_restOfWord (cs : List Char) (rest : List UInt8) :
    (restOfWord cs).run? (cs.map byte ++ rest) = some ((), rest) := by
  induction cs with
  | nil => rfl
  | cons c cs ih =>
    unfold restOfWord
    rw [List.map_cons, List.cons_append, run?_bind, run?_next?]
    simp [ih]

end PowerShare.Json
