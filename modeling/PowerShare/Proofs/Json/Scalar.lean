import PowerShare.Proofs.Json.Numeral

/-!
# What readers make of values

A reader of values is told by what it makes of trees, however the trees are written:

* `Interprets p f` -- of a tree `t` the reader `p` makes `f t`, and takes all that is written of it;
  where `f` has nothing, the reader refuses;
* `Interprets.check`, `Interprets.map` and `Interprets.optional` -- readers made of others;
* `interprets_boolean`, `interprets_integerBetween` and `interprets_binary64` -- scalars.
-/

namespace PowerShare.Json

open Reader

/-- However a tree is written, the reader makes of it what the function says, and leaves what
stands behind it. -/
structure Interprets (p : ByteReader α) (f : Tree → Option α) : Prop where
  run?_eq : ∀ {t : Tree} {v w rest : List UInt8}, Writes t v → Blank w → Stops rest →
    p.run? (w ++ (v ++ rest)) = (f t).map (·, rest)

/-! ## 1. Readers made of others -/

section

variable {p : ByteReader α} {f : Tree → Option α}

/-- What was read is looked at, and perhaps refused. -/
theorem Interprets.check (h : Interprets p f) {q : α → ByteReader β} {g : α → Option β}
    (hq : ∀ a items, (q a).run? items = (g a).map (·, items)) :
    Interprets (p >>= q) fun t => (f t).bind g := by
  refine ⟨fun {t v w rest} hv hw hrest => ?_⟩
  show _ = ((f t).bind g).map (·, rest)
  rw [run?_bind, h.run?_eq hv hw hrest]
  cases f t with
  | none => rfl
  | some a => exact hq a rest

/-- Something is made of what was read. -/
theorem Interprets.map (h : Interprets p f) {q : α → ByteReader β} {g : α → β}
    (hq : ∀ a, q a = pure (g a)) : Interprets (p >>= q) fun t => (f t).map g := by
  refine ⟨fun {t v w rest} hv hw hrest => ?_⟩
  show _ = ((f t).map g).map (·, rest)
  rw [run?_bind, h.run?_eq hv hw hrest]
  cases f t with
  | none => rfl
  | some a =>
    show (q a).run? rest = _
    rw [hq]
    rfl

/-- A reader that goes by the first byte. -/
theorem interprets_valueStart {q : UInt8 → ByteReader α}
    (h : ∀ {t : Tree} {b : UInt8} {tail rest : List UInt8}, Writes t (b :: tail) →
      t.startsWith b = true → Stops rest →
        (q b).run? (b :: (tail ++ rest)) = (f t).map (·, rest)) :
    Interprets (do q (← valueStart)) f := by
  refine ⟨fun {t v w rest} hv hw hrest => ?_⟩
  obtain ⟨b, tail, rfl, hb⟩ := hv.exists_eq_cons
  have hblank := not_isBlank_of_startsValue (startsValue_of_startsWith hb)
  rw [run?_bind, List.cons_append, run?_valueStart hw hblank]
  exact h hv hb hrest

/-- `null`, or a value. -/
def Tree.optional? (f : Tree → Option α) : Tree → Option (Option α)
  | .null => some none
  | t => (f t).map some

theorem Tree.optional?_of_ne {t : Tree} (ht : t ≠ .null) (f : Tree → Option α) :
    t.optional? f = (f t).map some := by
  cases t with
  | null => exact absurd rfl ht
  | boolean | number | text | list | object => rfl

/-- The word of `null` behind its first byte. -/
theorem Writes.tail_of_null {b : UInt8} {tail : List UInt8} (h : Writes .null (b :: tail)) :
    tail = ['u', 'l', 'l'].map byte := by
  have hv : "null".toList.map byte = b :: tail := by
    generalize b :: tail = v at h
    cases h
    rfl
  exact (List.cons.inj hv).2.symm

theorem Interprets.optional (h : Interprets p f) :
    Interprets (Json.optional p) (Tree.optional? f) := by
  refine ⟨fun {t v w rest} hv hw hrest => ?_⟩
  obtain ⟨b, tail, rfl, hb⟩ := hv.exists_eq_cons
  have hblank := not_isBlank_of_startsValue (startsValue_of_startsWith hb)
  have hvalue := h.run?_eq hv .nil hrest
  unfold Json.optional
  rw [List.cons_append, run?_bind, run?_peekToken? hw hblank, Option.bind_some]
  dsimp only
  by_cases ht : t = .null
  · subst ht
    rw [if_pos (congrArg some (beq_iff_eq.1 hb)), hv.tail_of_null, run?_bind, run?_advance,
      Option.bind_some, List.tail_cons, run?_bind, run?_restOfWord]
    rfl
  · have hnull : t.startsWith (byte 'n') = false := by
      cases t with
      | null => exact absurd rfl ht
      | boolean value => cases value <;> rfl
      | number | text | list | object => rfl
    rw [if_neg fun hn => ne_of_startsWith hb hnull (Option.some.inj hn), Tree.optional?_of_ne ht,
      run?_bind]
    refine (congrArg (Option.bind · _) hvalue).trans ?_
    cases f t <;> rfl

end

/-! ## 2. Scalars -/

def Tree.boolean? : Tree → Option Bool
  | .boolean b => some b
  | _ => none

def Tree.number? : Tree → Option Number
  | .number n => n.number?
  | _ => none

/-- An integer between two bounds. -/
def Number.between? (least greatest : Int) : Number → Option Int
  | .integer i => if least ≤ i && i ≤ greatest then some i else none
  | .real _ => none

theorem Number.eq_integer_of_between? {x : Number} {least greatest i : Int}
    (h : x.between? least greatest = some i) :
    x = .integer i ∧ least ≤ i ∧ i ≤ greatest := by
  cases x with
  | real => cases h
  | integer j =>
    have hinside : (if (decide (least ≤ j) && decide (j ≤ greatest)) = true then some j else none) =
        some i := h
    obtain ⟨hbounds, hj⟩ := Option.ite_none_right_eq_some.1 hinside
    cases hj
    simpa using hbounds

/-- The number as a binary one; an integer is rounded. -/
def Number.toBinary64 : Number → Binary64
  | .integer i => .ofInt i
  | .real x => x

/-- The word of a truth value behind its first byte. -/
theorem Writes.tail_of_boolean {value : Bool} {b : UInt8} {tail : List UInt8}
    (h : Writes (.boolean value) (b :: tail)) :
    tail = (if value then ['r', 'u', 'e'] else ['a', 'l', 's', 'e']).map byte := by
  have hv : (booleanText value).map byte = b :: tail := by
    generalize b :: tail = v at h
    cases h
    rfl
  cases value <;> exact (List.cons.inj hv).2.symm

theorem interprets_boolean : Interprets boolean Tree.boolean? := by
  refine interprets_valueStart fun {t b tail rest} hv hb hrest => ?_
  cases t with
  | boolean value =>
    rw [hv.tail_of_boolean, beq_iff_eq.1 hb]
    cases value with
    | true =>
      rw [if_pos rfl, if_pos rfl, if_pos rfl, run?_bind, run?_advance, Option.bind_some,
        List.tail_cons, run?_bind, run?_restOfWord]
      rfl
    | false =>
      rw [if_neg Bool.false_ne_true, if_neg Bool.false_ne_true, if_neg (by decide), if_pos rfl,
        run?_bind, run?_advance, Option.bind_some, List.tail_cons, run?_bind, run?_restOfWord]
      rfl
  | null | number | text | list | object =>
    rw [if_neg (ne_of_startsWith hb rfl), if_neg (ne_of_startsWith hb rfl), run?_wrongType]
    rfl

theorem interprets_numberFor (wanted : String) : Interprets (numberFor wanted) Tree.number? := by
  refine interprets_valueStart fun {t b tail rest} hv hb hrest => ?_
  cases t with
  | number n =>
    have hbytes : b :: tail = n.bytes := by
      generalize b :: tail = v at hv
      cases hv
      rfl
    have hfirst : (decide (b = byte '-') || isDigit b) = true := hb
    rw [if_pos hfirst, ← List.cons_append, hbytes]
    exact n.run?_number hrest
  | boolean value =>
    cases value <;> rw [beq_iff_eq.1 hb, if_neg (by decide), run?_wrongType] <;> rfl
  | null | text | list | object =>
    rw [beq_iff_eq.1 hb, if_neg (by decide), run?_wrongType]
    rfl

theorem interprets_integerBetween (least greatest : Int) (wanted : String) :
    Interprets (integerBetween least greatest wanted) fun t =>
      t.number?.bind (Number.between? least greatest) := by
  refine (interprets_numberFor wanted).check fun x items => ?_
  cases x with
  | integer i =>
    unfold Number.between?
    dsimp only
    rw [run?_ite]
    split <;> rfl
  | real x => rfl

theorem interprets_binary64 : Interprets binary64 fun t => t.number?.map Number.toBinary64 :=
  (interprets_numberFor "f64").map fun x => by cases x <;> rfl

end PowerShare.Json
