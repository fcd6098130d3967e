import PowerShare.Reader

/-!
# What readers take and leave

A reader either takes a value and leaves a rest, or refuses with an error. Which error it is does
not matter to what is accepted, so here a run is an option:

* `Reader.run?` -- what a reader takes and leaves, if it does not refuse;
* `run?_bind` and its like -- the runs of the readers that others are made of;
* `takeWhile_append_of_stop` -- a run of items ends where the test first fails;
* `run?_scan_cons` -- one round of the loop, and `readToEnd_cons` of the one that reads to the end.
-/

namespace PowerShare.Reader

variable {τ ε α β σ : Type}

/-- What a reader takes off the items and what it leaves, if it does not refuse them. -/
def run? (p : Reader τ ε α) (items : List τ) : Option (α × List τ) := (p.run items).toOption

theorem eq_ok_of_toOption {x : Except ε α} {a : α} (h : x.toOption = some a) : x = .ok a := by
  cases x with
  | error e => cases h
  | ok b =>
    cases h
    rfl

theorem suffix_of_run? {p : Reader τ ε α} {items rest : List τ} {a : α}
    (h : p.run? items = some (a, rest)) : rest <:+ items :=
  p.rest_suffix (eq_ok_of_toOption h)

/-! ## 1. Readers one after another -/

@[simp] theorem run?_pure (a : α) (items : List τ) :
    (pure a : Reader τ ε α).run? items = some (a, items) := rfl

@[simp] theorem run?_fail (e : ε) (items : List τ) :
    (fail e : Reader τ ε α).run? items = none := rfl

@[simp] theorem run?_bind (p : Reader τ ε α) (f : α → Reader τ ε β) (items : List τ) :
    (p >>= f).run? items = (p.run? items).bind fun r => (f r.1).run? r.2 := by
  unfold run?
  rw [run_bind]
  cases p.run items with
  | error e => rfl
  | ok r => rfl

theorem run?_ite {c : Prop} [Decidable c] (p q : Reader τ ε α) (items : List τ) :
    (if c then p else q).run? items = if c then p.run? items else q.run? items := by
  split <;> rfl

/-- A reader that comes to nothing at the end takes nothing. -/
theorem run?_bind_of_none {p : Reader τ ε α} {f : α → Reader τ ε β}
    (hf : ∀ a items, (f a).run? items = none) (items : List τ) : (p >>= f).run? items = none := by
  rw [run?_bind]
  cases p.run? items with
  | none => rfl
  | some r => exact hf r.1 r.2

/-! ## 2. Single items -/

@[simp] theorem run?_peek? (items : List τ) :
    (peek? : Reader τ ε (Option τ)).run? items = some (items.head?, items) := rfl

@[simp] theorem run?_next? (items : List τ) :
    (next? : Reader τ ε (Option τ)).run? items = some (items.head?, items.tail) := rfl

@[simp] theorem run?_advance (items : List τ) :
    (advance : Reader τ ε Unit).run? items = some ((), items.tail) := rfl

@[simp] theorem run?_takeWhile (test : τ → Bool) (items : List τ) :
    (takeWhile test : Reader τ ε (List τ)).run? items =
      some (items.takeWhile test, items.dropWhile test) := rfl

theorem run?_orFail_ok (a : α) (items : List τ) :
    (orFail (.ok a) : Reader τ ε α).run? items = some (a, items) := rfl

theorem run?_eat_self [BEq τ] [LawfulBEq τ] (t : τ) (rest : List τ) :
    (eat t : Reader τ ε Bool).run? (t :: rest) = some (true, rest) := by
  unfold eat
  rw [run?_bind, run?_peek?, Option.bind_some, List.head?_cons, if_pos (beq_self_eq_true _)]
  rfl

theorem run?_eat_of_ne [BEq τ] [LawfulBEq τ] {t item : τ} (h : t ≠ item) (rest : List τ) :
    (eat item : Reader τ ε Bool).run? (t :: rest) = some (false, t :: rest) := by
  unfold eat
  rw [run?_bind, run?_peek?, Option.bind_some, List.head?_cons,
    if_neg fun heq => h (Option.some.inj (beq_iff_eq.1 heq))]
  rfl

/-- **A run of items that satisfy the test ends in front of the first that does not.** -/
theorem takeWhile_append_of_stop {test : τ → Bool} {items : List τ}
    (h : ∀ t ∈ items, test t = true) (rest : List τ) (hrest : ∀ t ∈ rest.head?, test t = false) :
    (items ++ rest).takeWhile test = items ∧ (items ++ rest).dropWhile test = rest := by
  rw [List.takeWhile_append_of_pos h, List.dropWhile_append_of_pos h]
  cases rest with
  | nil => exact ⟨List.append_nil items, rfl⟩
  | cons t rest =>
    have ht : ¬ test t = true := by
      rw [hrest t rfl]
      decide
    rw [List.takeWhile_cons_of_neg ht, List.dropWhile_cons_of_neg ht]
    exact ⟨List.append_nil items, rfl⟩

/-! ## 3. The loops -/

variable (atEnd : σ → ε) (round : σ → τ → Reader τ ε (σ ⊕ α)) (state : σ)

@[simp] theorem run?_scan_nil : (scan atEnd round state).run? [] = none := by
  unfold run? scan
  dsimp only
  rw [scanFrom]
  rfl

/-- **One round of the loop,** and what comes of the rest. -/
theorem run?_scan_cons (b : τ) (rest : List τ) :
    (scan atEnd round state).run? (b :: rest) =
      ((round state b).run? rest).bind fun r =>
        match r.1 with
        | .inl next => (scan atEnd round next).run? r.2
        | .inr a => some (a, r.2) := by
  unfold run? scan
  dsimp only
  rw [scanFrom]
  split
  · rename_i e h
    rw [h]
    rfl
  · rename_i a left h
    rw [h]
    rfl
  · rename_i next left h
    rw [h]
    rfl

theorem readToEnd_cons {round : σ → τ → Reader τ ε σ} {state next : σ} {b : τ} {rest left : List τ}
    (h : (round state b).run? rest = some (next, left)) :
    readToEnd round state (b :: rest) = readToEnd round next left := by
  have hrun := eq_ok_of_toOption h
  rw [readToEnd]
  split
  · rename_i e he
    cases he.symm.trans hrun
  · rename_i next' left' hok
    cases hok.symm.trans hrun
    rfl

end PowerShare.Reader
