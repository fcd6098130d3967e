/-!
# Readers

A `Reader τ ε α` takes a value of type `α` off the front of some items of type `τ`, or refuses them
with an error of type `ε`. What it leaves is a suffix of what it was given, and the type says so;
so a loop in which every round takes an item comes to an end. There are two such loops, and
everything that repeats is written with them: `Reader.scan` goes on until a round has a result,
`Reader.readToEnd` until nothing is left.
-/

namespace PowerShare

/-- Takes a value off the front of some items and leaves the rest. -/
structure Reader (τ ε α : Type) where
  run : List τ → Except ε (α × List τ)
  rest_suffix : ∀ {items a rest}, run items = .ok (a, rest) → rest <:+ items

namespace Reader

variable {τ ε α β σ : Type}

/-! ## 1. Readers one after another -/

/-- Takes nothing. -/
def give (a : α) : Reader τ ε α where
  run items := .ok (a, items)
  rest_suffix h := by cases h; exact List.suffix_refl _

/-- Refuses everything. -/
def fail (e : ε) : Reader τ ε α where
  run _ := .error e
  rest_suffix h := by cases h

/-- One reader and then another, which may depend on what the first one read. -/
def andThen (p : Reader τ ε α) (f : α → Reader τ ε β) : Reader τ ε β where
  run items :=
    match p.run items with
    | .ok (a, rest) => (f a).run rest
    | .error e => .error e
  rest_suffix {items b rest} h := by
    split at h
    · rename_i a middle hp
      exact ((f a).rest_suffix h).trans (p.rest_suffix hp)
    · cases h

instance : Monad (Reader τ ε) where
  pure := give
  bind := andThen

@[simp] theorem run_pure (a : α) (items : List τ) :
    (pure a : Reader τ ε α).run items = .ok (a, items) := rfl

@[simp] theorem run_fail (e : ε) (items : List τ) :
    (fail e : Reader τ ε α).run items = .error e := rfl

theorem run_bind (p : Reader τ ε α) (f : α → Reader τ ε β) (items : List τ) :
    (p >>= f).run items = match p.run items with
      | .ok (a, rest) => (f a).run rest
      | .error e => .error e := rfl

/-! ## 2. Single items -/

/-- The next item, which stays. -/
def peek? : Reader τ ε (Option τ) where
  run items := .ok (items.head?, items)
  rest_suffix h := by cases h; exact List.suffix_refl _

/-- The next item, which is taken. -/
def next? : Reader τ ε (Option τ) where
  run items := .ok (items.head?, items.tail)
  rest_suffix h := by cases h; exact List.tail_suffix _

/-- Takes the next item, whatever it is. -/
def advance : Reader τ ε Unit := do
  let _ ← next?

/-- The items at the front that satisfy the test. -/
def takeWhile (test : τ → Bool) : Reader τ ε (List τ) where
  run items := .ok (items.takeWhile test, items.dropWhile test)
  rest_suffix h := by cases h; exact List.dropWhile_suffix _

/-- Takes the next item if it is the given one, and says whether it was. -/
def eat [BEq τ] (item : τ) : Reader τ ε Bool := do
  if (← peek?) == some item then
    advance
    return true
  else return false

/-- So many of the next items, all of which stay. -/
def upcoming (count : Nat) : Reader τ ε (List τ) where
  run items := .ok (items.take count, items)
  rest_suffix h := by cases h; exact List.suffix_refl _

/-- Takes nothing, and refuses if the result is an error. -/
def orFail : Except ε α → Reader τ ε α
  | .ok a => give a
  | .error e => fail e

/-- The value that all items together make. If some are left over, `leftOver` says so. -/
def whole (leftOver : ε) (p : Reader τ ε α) (items : List τ) : Except ε α :=
  match p.run items with
  | .ok (a, []) => .ok a
  | .ok (_, _ :: _) => .error leftOver
  | .error e => .error e

/-! ## 3. The loops -/

/-- Takes an item and lets `round` go on from there, until a round has a result. Where the items
end, `atEnd` says what is wrong. -/
def scanFrom (atEnd : σ → ε) (round : σ → τ → Reader τ ε (σ ⊕ α)) (state : σ) :
    List τ → Except ε (α × List τ)
  | [] => .error (atEnd state)
  | b :: rest =>
    match _h : (round state b).run rest with
    | .error e => .error e
    | .ok (.inr a, left) => .ok (a, left)
    | .ok (.inl next, left) => scanFrom atEnd round next left
termination_by items => items.length
decreasing_by
  have := ((round state b).rest_suffix _h).length_le
  simp only [List.length_cons]
  omega

theorem scanFrom_suffix (atEnd : σ → ε) (round : σ → τ → Reader τ ε (σ ⊕ α)) (state : σ)
    (items : List τ) {a : α} {rest : List τ}
    (h : scanFrom atEnd round state items = .ok (a, rest)) : rest <:+ items := by
  fun_induction scanFrom atEnd round state items with
  | case1 => cases h
  | case2 => cases h
  | case3 state b tail a' left hrun =>
    cases h
    exact ((round state b).rest_suffix hrun).trans (List.suffix_cons b tail)
  | case4 state b tail next left hrun ih =>
    exact (ih h).trans (((round state b).rest_suffix hrun).trans (List.suffix_cons b tail))

/-- Takes an item and lets `round` go on from there, until a round has a result. -/
def scan (atEnd : σ → ε) (round : σ → τ → Reader τ ε (σ ⊕ α)) (state : σ) : Reader τ ε α where
  run := scanFrom atEnd round state
  rest_suffix h := scanFrom_suffix atEnd round state _ h

/-- Lets `round` read on from every item that is left over by the one before, up to the end. -/
def readToEnd (round : σ → τ → Reader τ ε σ) (state : σ) : List τ → Except ε σ
  | [] => .ok state
  | b :: rest =>
    match _h : (round state b).run rest with
    | .error e => .error e
    | .ok (next, left) => readToEnd round next left
termination_by items => items.length
decreasing_by
  have := ((round state b).rest_suffix _h).length_le
  simp only [List.length_cons]
  omega

end Reader

end PowerShare
