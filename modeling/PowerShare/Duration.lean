import PowerShare.Number.Power

/-!
# Durations

A `Duration` counts milliseconds in 64 bits. Sums stop at the longest duration instead of
starting again at zero, so a sum is never shorter than one of its parts; `toNat_add` says so for
all durations. A difference exists only if it is not negative.
-/

namespace PowerShare

/-- A count of milliseconds. -/
structure Duration where
  ms : UInt64
  deriving DecidableEq, Inhabited

namespace Duration

def zero : Duration := ⟨0⟩

/-- The longest duration that can be held. -/
def longest : Duration := ⟨UInt64.ofNat (2 ^ 64 - 1)⟩

def toNat (d : Duration) : Nat := d.ms.toNat

/-- The sum, or the longest duration if the sum is longer. -/
def add (a b : Duration) : Duration :=
  if a.toNat + b.toNat < 2 ^ 64 then ⟨a.ms + b.ms⟩ else longest

instance : Add Duration := ⟨add⟩

/-- The difference, if the second duration is not longer. -/
def minus? (a b : Duration) : Option Duration :=
  if b.toNat ≤ a.toNat then some ⟨a.ms - b.ms⟩ else none

theorem ext {a b : Duration} (h : a.toNat = b.toNat) : a = b := by
  cases a; cases b; simp_all [toNat, UInt64.toNat_inj]

theorem toNat_lt (d : Duration) : d.toNat < 2 ^ 64 := d.ms.toNat_lt

theorem toNat_add (a b : Duration) : (a + b).toNat = min (2 ^ 64 - 1) (a.toNat + b.toNat) := by
  change (add a b).toNat = _
  unfold add
  split
  · rename_i h
    simp only [toNat] at h ⊢
    rw [UInt64.toNat_add, Nat.mod_eq_of_lt h]
    omega
  · rename_i h
    have : longest.toNat = 2 ^ 64 - 1 := by decide
    omega

theorem toNat_of_minus? {a b r : Duration} (h : a.minus? b = some r) :
    b.toNat ≤ a.toNat ∧ r.toNat = a.toNat - b.toNat := by
  unfold minus? at h
  split at h
  · rename_i hle
    obtain rfl := Option.some.inj h
    exact ⟨hle, UInt64.toNat_sub_of_le _ _ (UInt64.le_iff_toNat_le.2 hle)⟩
  · cases h

/-- The number of milliseconds in decimal digits. -/
def text (d : Duration) : String := toString d.toNat

end Duration

end PowerShare
