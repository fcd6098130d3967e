import PowerShare.Order.SortedMap
import PowerShare.Text.Lowercase

/-!
# Components, consumers and run states

The three kinds of name that usage is told apart by: the radio *component* it belongs to, the
*consumer* on whose behalf the component worked, and the *run state* the consumer was in. Each has
a fixed written name or number and an order, which is the order of maps and of printed lists.
-/

namespace PowerShare

/-! ## 1. Components -/

/-- A radio component whose usage is shared out among its consumers. -/
inductive Component where
  | bluetooth
  | wifi
  | modem
  deriving DecidableEq, Inhabited

namespace Component

def all : List Component := [bluetooth, wifi, modem]

def name : Component → String
  | bluetooth => "bluetooth"
  | wifi => "wifi"
  | modem => "modem"

instance : Ranked Component where
  rank
    | bluetooth => 0
    | wifi => 1
    | modem => 2
  rank_injective {a b} h := by cases a <;> cases b <;> first | rfl | cases h

/-- The component with exactly this name. -/
def ofName? (text : String) : Option Component := all.find? (·.name == text)

theorem ofName?_name (c : Component) : ofName? c.name = some c := by cases c <;> decide

/-- The component that a person may call by this name, in any case: some have a second one. -/
def ofAlias? (text : String) : Option Component :=
  match lowercase text with
  | "bluetooth" | "bt" => some bluetooth
  | "wifi" => some wifi
  | "modem" | "cellular" => some modem
  | _ => none

end Component

/-! ## 2. Consumers -/

/-- An application or subsystem that a component works for. -/
structure Consumer where
  id : UInt32
  deriving DecidableEq, Inhabited

instance : Ranked Consumer where
  rank c := c.id.toNat
  rank_injective {a b} h := by
    cases a; cases b; simp_all [UInt32.toNat_inj]

def Consumer.text (c : Consumer) : String := toString c.id.toNat

/-! ## 3. Run states -/

/-- What a consumer was doing while the component worked for it. -/
inductive RunState where
  /-- The total that does not tell states apart. -/
  | unspecified
  | foreground
  | background
  | foregroundService
  | cached
  deriving DecidableEq, Inhabited

namespace RunState

def all : List RunState := [unspecified, foreground, background, foregroundService, cached]

/-- The states that a breakdown lists. -/
def specified : List RunState := all.filter (· ≠ unspecified)

def name : RunState → String
  | unspecified => "unspecified"
  | foreground => "foreground"
  | background => "background"
  | foregroundService => "foreground_service"
  | cached => "cached"

def number : RunState → Nat
  | unspecified => 0
  | foreground => 1
  | background => 2
  | foregroundService => 3
  | cached => 4

theorem number_lt (s : RunState) : s.number < 5 := by cases s <;> decide

theorem number_injective {a b : RunState} (h : a.number = b.number) : a = b := by
  cases a <;> cases b <;> first | rfl | cases h

instance : Ranked RunState := ⟨number, number_injective⟩

/-- The state with exactly this name. -/
def ofName? (text : String) : Option RunState := all.find? (·.name == text)

theorem ofName?_name (s : RunState) : ofName? s.name = some s := by cases s <;> decide

end RunState

/-- One consumer in one run state. Keys are ordered by consumer first. -/
structure StateKey where
  consumer : Consumer
  state : RunState
  deriving DecidableEq, Inhabited

instance : Ranked StateKey where
  rank k := k.consumer.id.toNat * 5 + k.state.number
  rank_injective {a b} h := by
    obtain ⟨⟨i⟩, s⟩ := a
    obtain ⟨⟨j⟩, t⟩ := b
    have hs := s.number_lt
    have ht := t.number_lt
    simp only at h
    have hn : s.number = t.number := by omega
    have hi : i.toNat = j.toNat := by omega
    rw [UInt32.toNat_inj.1 hi, RunState.number_injective hn]

theorem rank_stateKey_lt_iff {a b : StateKey} : Ranked.rank a < Ranked.rank b ↔
    a.consumer.id.toNat < b.consumer.id.toNat ∨
      (a.consumer.id.toNat = b.consumer.id.toNat ∧ a.state.number < b.state.number) := by
  have ha := a.state.number_lt
  have hb := b.state.number_lt
  simp only [Ranked.rank]
  omega

end PowerShare
