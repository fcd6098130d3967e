import PowerShare.Envelope
import PowerShare.Proofs.SortedMap

/-!
# The layout of envelopes

Which bytes stand for which value, said without writing or reading any:

* `Layout` relates bytes and values; a `KeyOrder` says how the entries of maps may stand in them;
* `Layout.word`, `pair`, `option`, `row`, `oneOf`, `sortedMap` are the ways in which layouts are put
  together, and `Layout.envelope` is the layout of a whole envelope;
* `Layout.MissesEntries` tells of bytes in which a count is followed by fewer entries than it says.

Bytes that may stand for a map list its entries in any order and may repeat a key: the map has the
last value of each key. Among them are the bytes with ascending keys.
-/

namespace PowerShare

/-- How the entries of a map may stand in bytes. -/
inductive KeyOrder where
  /-- In any order; a key may be repeated. -/
  | any
  /-- With strictly ascending keys. -/
  | ascending

/-- Whether the keys of a map may stand one behind the other like this. -/
def KeyOrder.Allows {κ : Type} [Ranked κ] : KeyOrder → List κ → Prop
  | any, _ => True
  | ascending, keys => SortedMap.Ascending keys

/-- Which bytes stand for a value, all maps in it being in the given order. -/
abbrev Layout (α : Type) := KeyOrder → List UInt8 → α → Prop

namespace Layout

variable {α β κ : Type}

/-! ## 1. Ways to put layouts together -/

/-- A number in so many bytes, the least significant first. -/
def word (width : Nat) : Layout Nat := fun _ p n => p.length = width ∧ ofLittleEndian p = n

/-- A value that stands in bytes as the parts it is made of. -/
def of (L : Layout α) (parts : β → α) : Layout β := fun order p b => L order p (parts b)

/-- One value behind the other. -/
def pair (L : Layout α) (M : Layout β) : Layout (α × β) := fun order p v =>
  ∃ q r, p = q ++ r ∧ L order q v.1 ∧ M order r v.2

/-- A byte `0`, or a byte `1` and a value. -/
def option (L : Layout α) : Layout (Option α)
  | _, p, none => p = [0]
  | order, p, some a => ∃ q, p = 1 :: q ∧ L order q a

/-- Any number of values, one behind the other. -/
def row (L : Layout α) : Layout (List α)
  | _, p, [] => p = []
  | order, p, a :: as => ∃ q r, p = q ++ r ∧ L order q a ∧ row L order r as

/-- A number in four bytes that says which one of the values it is. -/
def oneOf (values : List α) : Layout α := fun order p a =>
  ∃ n, word 4 order p n ∧ values[n]? = some a

/-- A count in eight bytes and so many entries; the last value of a key is the one in the map. -/
def sortedMap [Ranked κ] (K : Layout κ) (V : Layout α) : Layout (SortedMap κ α) := fun order p m =>
  ∃ count body entries, p = count ++ body ∧ word 8 order count entries.length ∧
    row (K.pair V) order body entries ∧ order.Allows (entries.map (·.1)) ∧ m.HoldsLast entries

/-! ## 2. The layout of an envelope -/

def uint32 : Layout UInt32 := (word 4).of UInt32.toNat

def uint64 : Layout UInt64 := (word 8).of UInt64.toNat

def binary64 : Layout Binary64 := (word 8).of Binary64.toWord

def duration : Layout Duration := uint64.of Duration.ms

def component : Layout Component := oneOf [.bluetooth, .wifi, .modem]

def basis : Layout Basis := oneOf [.measured, .reported, .estimated, .unavailable]

def runState : Layout RunState :=
  oneOf [.unspecified, .foreground, .background, .foregroundService, .cached]

def consumer : Layout Consumer := uint32.of Consumer.id

def stateKey : Layout StateKey := (consumer.pair runState).of fun k => (k.consumer, k.state)

def scope : Layout Scope :=
  (duration.pair (binary64.pair basis)).of fun s => (s.duration, s.charge, s.basis)

def share : Layout Share :=
  (duration.pair (binary64.pair (pair (option (sortedMap stateKey binary64))
    (basis.pair (pair (option uint64) (option uint64)))))).of
    fun s => (s.duration, s.charge, s.byState?, s.basis, s.rxBytes?, s.txBytes?)

def report : Layout Report :=
  (component.pair (scope.pair (scope.pair (duration.pair (binary64.pair
    (sortedMap consumer share)))))).of
    fun r => (r.component, r.device, r.tracked, r.systemDuration, r.systemCharge, r.shares)

/-- The number of the alternative in four bytes and its content. -/
def outcome : Layout Outcome
  | order, p, .unsupported c => (word 4).pair component order p (0, c)
  | order, p, .report r => (word 4).pair report order p (1, r)

def envelope : Layout Envelope :=
  (uint32.pair (uint64.pair outcome)).of fun e => (e.version, e.sequence, e.outcome)

/-! ## 3. Counts that say too much -/

/-- The bytes begin with so many values. -/
def Begins (L : Layout α) (n : Nat) (bytes : List UInt8) : Prop :=
  ∃ p rest as, bytes = p ++ rest ∧ row L .any p as ∧ as.length = n

/-- What stands in front of the count of shares: version, sequence number, the number `1` of the
alternative, component, both scopes, and what is left to the system. -/
def reportHead :
    Layout (UInt32 × UInt64 × Component × Scope × Scope × Duration × Charge) :=
  (uint32.pair (uint64.pair ((word 4).pair (component.pair (scope.pair (scope.pair
    (duration.pair binary64))))))).of fun (v, n, c) => (v, n, 1, c)

/-- What stands in front of the count of states: consumer, duration, charge, and the byte `1`. -/
def shareHead : Layout (Consumer × Duration × Charge) := fun order p v =>
  ∃ q, p = q ++ [1] ∧ consumer.pair (duration.pair binary64) order q v

/-- Somewhere in the bytes stands a count, and the bytes behind it do not begin with as many
entries: the count of shares, or the count of states in a share with others in front of it. -/
inductive MissesEntries : List UInt8 → Prop where
  | shares {head count rest : List UInt8} {fields} {n : Nat}
      (head_at : reportHead .any head fields)
      (count_at : word 8 .any count n)
      (missing : ¬ Begins (consumer.pair share) n rest) :
      MissesEntries (head ++ (count ++ rest))
  | states {head count before opening count' rest : List UInt8} {fields fields'} {n n' : Nat}
      {shares : List (Consumer × Share)}
      (head_at : reportHead .any head fields)
      (count_at : word 8 .any count n)
      (before_at : row (consumer.pair share) .any before shares)
      (fewer : shares.length < n)
      (opening_at : shareHead .any opening fields')
      (count_at' : word 8 .any count' n')
      (missing : ¬ Begins (stateKey.pair binary64) n' rest) :
      MissesEntries (head ++ (count ++ (before ++ (opening ++ (count' ++ rest)))))

/-! ## 4. How many bytes entries take -/

theorem mul_length_le_of_row {L : Layout α} {width : Nat}
    (hwidth : ∀ {p a}, L .any p a → width ≤ p.length) {as : List α} {p : List UInt8}
    (hp : row L .any p as) : width * as.length ≤ p.length := by
  induction as generalizing p with
  | nil => exact Nat.zero_le _
  | cons a as ih =>
    obtain ⟨q, r, rfl, hq, hr⟩ := hp
    have hfirst := hwidth hq
    have hothers := ih hr
    rw [List.length_append, List.length_cons, Nat.mul_succ]
    omega

/-- So many values do not fit into too few bytes. -/
theorem not_begins_of_lt {L : Layout α} {width n : Nat} {bytes : List UInt8}
    (hwidth : ∀ {p a}, L .any p a → width ≤ p.length) (hlt : bytes.length < width * n) :
    ¬ L.Begins n bytes := by
  intro ⟨p, rest, as, hbytes, hp, hn⟩
  have hle := mul_length_le_of_row hwidth hp
  rw [hn] at hle
  rw [hbytes, List.length_append] at hlt
  omega

theorem length_option_pos {L : Layout α} {p : List UInt8} {a? : Option α}
    (hp : option L .any p a?) : 1 ≤ p.length := by
  cases a? with
  | none =>
    have hnone : p = [0] := hp
    rw [hnone]
    exact Nat.le_refl 1
  | some a =>
    obtain ⟨q, hq, -⟩ := hp
    rw [hq]
    exact Nat.succ_le_succ (Nat.zero_le _)

/-- A state in a share takes sixteen bytes. -/
theorem length_state {p : List UInt8} {e : StateKey × Binary64}
    (hp : stateKey.pair binary64 .any p e) : p.length = 16 := by
  obtain ⟨_, charge, rfl, ⟨consumer, state, rfl, hconsumer, _, hstate, -⟩, hcharge⟩ := hp
  simp only [List.length_append, hconsumer.1, hstate.1, hcharge.1]

/-- A share with its consumer takes at least twenty-seven bytes. -/
theorem length_share_ge {p : List UInt8} {e : Consumer × Share}
    (hp : consumer.pair share .any p e) : 27 ≤ p.length := by
  obtain ⟨consumer, _, rfl, hconsumer, duration, _, rfl, hduration, charge, _, rfl, hcharge,
    states, _, rfl, hstates, basis, _, rfl, ⟨_, hbasis, -⟩, rx, tx, rfl, hrx, htx⟩ := hp
  have hs := length_option_pos hstates
  have hr := length_option_pos hrx
  have ht := length_option_pos htx
  simp only [List.length_append, hconsumer.1, hduration.1, hcharge.1, hbasis.1]
  omega

end Layout

end PowerShare
