import Mathlib.Algebra.BigOperators.Group.List.Basic
import Mathlib.Algebra.Order.BigOperators.Group.List
import Mathlib.Data.List.Permutation
import PowerShare.Proofs.Number.Addition

/-!
# Rounded sums

Numbers are added up one after another, from zero on, and every addition is rounded. So the same
numbers in another order may have another sum. How much of one, and when they do not:

* `OnGrid` -- numbers of which no sum takes more than 53 bits, and `OnGrid.foldl_add_perm`: these
  are added without any rounding, in whichever order;
* `foldl_add_perm_of_length_le` -- two numbers have one sum, infinite ones and both zeros included;
* `abs_value_foldl_add_sub_le` and, from zero on, `abs_value_sum_sub_le` -- **a finite sum is off by
  at most `slack` of all sizes taken together,** and these do not depend on the order.

Not here: which sums are finite. A bound that keeps them so is `UpTo.foldl_add`.
-/

namespace PowerShare

namespace Binary64

/-! ## 1. Sums without rounding -/

/-- Finite numbers on a grid of `2 ^ k` units, with fewer than `2 ^ 53` of its steps in them all. -/
structure OnGrid (k : Nat) (xs : List Binary64) : Prop where
  exponent_le : k ≤ 2045
  isFinite_eq : ∀ x ∈ xs, x.isFinite = true
  dvd_units : ∀ x ∈ xs, 2 ^ k ∣ x.units
  sum_lt : (xs.map units).sum < 2 ^ 53 * 2 ^ k

theorem fits_of_dvd {k : Nat} (hk : k ≤ 2045) {n : Int} (hdvd : (2 ^ k : Int) ∣ n)
    (hlt : n.natAbs < 2 ^ 53 * 2 ^ k) : Fits n.natAbs := by
  obtain ⟨steps, hsteps⟩ : 2 ^ k ∣ n.natAbs := by
    have h := Int.natAbs_dvd_natAbs.2 hdvd
    rwa [Int.natAbs_pow] at h
  rw [hsteps, Nat.mul_comm] at hlt ⊢
  exact fits_mul_pow (Nat.lt_of_mul_lt_mul_right hlt) hk

theorem dvd_signedUnits {k : Nat} {x : Binary64} (h : 2 ^ k ∣ x.units) :
    (2 ^ k : Int) ∣ x.signedUnits := by
  rw [← natAbs_signedUnits] at h
  exact_mod_cast Int.natCast_dvd.2 h

/-- After a start on the grid, numbers on the grid are added exactly, as long as all sizes together
stay below the bound. -/
theorem foldl_add_ofUnits {k : Nat} (hk : k ≤ 2045) {xs : List Binary64}
    (hfinite : ∀ x ∈ xs, x.isFinite = true) (hdvd : ∀ x ∈ xs, 2 ^ k ∣ x.units) {n : Int}
    (hn : (2 ^ k : Int) ∣ n) (hsum : n.natAbs + (xs.map units).sum < 2 ^ 53 * 2 ^ k) :
    xs.foldl (· + ·) (ofUnits n) = ofUnits (n + (xs.map signedUnits).sum) := by
  induction xs generalizing n with
  | nil => rw [List.foldl_nil, List.map_nil, List.sum_nil, Int.add_zero]
  | cons x rest ih =>
    rw [List.map_cons, List.sum_cons] at hsum ⊢
    obtain ⟨hstart, hunits⟩ := signedUnits_ofUnits (fits_of_dvd hk hn (by omega))
    have hnext : (2 ^ k : Int) ∣ n + x.signedUnits :=
      Int.dvd_add hn (dvd_signedUnits (hdvd x List.mem_cons_self))
    have hsize : (n + x.signedUnits).natAbs ≤ n.natAbs + x.units := by
      rw [← natAbs_signedUnits x]
      exact Int.natAbs_add_le n x.signedUnits
    rw [List.foldl_cons, add_of_plain hstart (hfinite x List.mem_cons_self) (plain_ofUnits n),
      hunits, ih (fun y hy => hfinite y (List.mem_cons_of_mem x hy))
        (fun y hy => hdvd y (List.mem_cons_of_mem x hy)) hnext (by omega), Int.add_assoc]

theorem OnGrid.foldl_add {k : Nat} {xs : List Binary64} (h : OnGrid k xs) :
    xs.foldl (· + ·) zero = ofUnits (xs.map signedUnits).sum := by
  have hsum := foldl_add_ofUnits h.exponent_le h.isFinite_eq h.dvd_units (Int.dvd_zero _)
    (by simpa using h.sum_lt)
  rwa [ofUnits_zero, Int.zero_add] at hsum

theorem OnGrid.perm {k : Nat} {xs ys : List Binary64} (h : OnGrid k xs) (hperm : ys.Perm xs) :
    OnGrid k ys where
  exponent_le := h.exponent_le
  isFinite_eq x hx := h.isFinite_eq x (hperm.mem_iff.1 hx)
  dvd_units x hx := h.dvd_units x (hperm.mem_iff.1 hx)
  sum_lt := by
    rw [(hperm.map units).sum_eq]
    exact h.sum_lt

/-- **On a grid, the order of a sum does not matter,** bit for bit. -/
theorem OnGrid.foldl_add_perm {k : Nat} {xs ys : List Binary64} (h : OnGrid k xs)
    (hperm : ys.Perm xs) : ys.foldl (· + ·) zero = xs.foldl (· + ·) zero := by
  rw [(h.perm hperm).foldl_add, h.foldl_add, (hperm.map signedUnits).sum_eq]

/-! ## 2. Two numbers -/

/-- **Two numbers have the same sum in either order,** from zero on. -/
theorem Ordinary.add_swap {x y : Binary64} (hx : x.Ordinary) (hy : y.Ordinary) :
    zero + x + y = zero + y + x := by
  have hzero : zero.Ordinary := ordinary_of_not_isNaN rfl
  rcases x.plain_or_eq_neg_zero with hxplain | rfl
  · rcases y.plain_or_eq_neg_zero with hyplain | rfl
    · rw [hx.zero_add hxplain, hy.zero_add hyplain, hx.add_comm hy]
    · rw [(hzero.add hx).add_neg_zero, hzero.add_neg_zero]
  · rw [(hzero.add hy).add_neg_zero, hzero.add_neg_zero]

/-- **At most two numbers have the same sum in any order.** -/
theorem foldl_add_perm_of_length_le {xs ys : List Binary64} (h : ∀ x ∈ xs, x.Ordinary)
    (hlength : xs.length ≤ 2) (hperm : ys.Perm xs) :
    ys.foldl (· + ·) zero = xs.foldl (· + ·) zero := by
  match xs, hlength with
  | [], _ => rw [hperm.eq_nil]
  | [x], _ => rw [hperm.eq_singleton]
  | [x, y], _ =>
    rcases List.perm_pair.1 hperm with rfl | rfl
    · rfl
    · exact (h y (by simp)).add_swap (h x (by simp))

/-! ## 3. What a sum may be off -/

/-- The exact sum of some numbers. -/
def exactSum (xs : List Binary64) : ℚ := (xs.map value).sum

/-- The sizes of some numbers, taken together. -/
def totalSize (xs : List Binary64) : ℚ := (xs.map fun x => |x.value|).sum

theorem totalSize_nonneg (xs : List Binary64) : 0 ≤ totalSize xs := by
  refine List.sum_nonneg fun size hsize => ?_
  obtain ⟨x, -, rfl⟩ := List.mem_map.1 hsize
  exact abs_nonneg _

/-- How much of the sizes taken together so many roundings may change. -/
def slack (roundings : Nat) : ℚ := (1 + roundoff) ^ roundings - 1

theorem slack_succ (n : Nat) : slack (n + 1) = slack n * (1 + roundoff) + roundoff := by
  unfold slack
  ring

theorem slack_nonneg (n : Nat) : 0 ≤ slack n :=
  sub_nonneg.2 (one_le_pow₀ (le_add_of_nonneg_right roundoff_nonneg))

theorem slack_le_succ (n : Nat) : slack n ≤ slack (n + 1) := by
  have hmore := mul_nonneg (slack_nonneg n) roundoff_nonneg
  have hround := roundoff_nonneg
  rw [slack_succ]
  linarith

theorem isFinite_of_isFinite_foldl_add {xs : List Binary64} {start : Binary64}
    (h : (xs.foldl (· + ·) start).isFinite = true) : start.isFinite = true := by
  induction xs generalizing start with
  | nil => exact h
  | cons x rest ih => exact (isFinite_of_isFinite_add (ih h)).1

/-- What is added after a start is off by what the roundings may change of all sizes. -/
theorem abs_value_foldl_add_sub_le {xs : List Binary64} {start : Binary64}
    (h : (xs.foldl (· + ·) start).isFinite = true) :
    |(xs.foldl (· + ·) start).value - (start.value + exactSum xs)| ≤
      slack xs.length * (|start.value| + totalSize xs) := by
  induction xs generalizing start with
  | nil => simp [slack, exactSum]
  | cons x rest ih =>
    have hstep := abs_value_add_sub_le (isFinite_of_isFinite_foldl_add h)
    have hrest := ih h
    have hexact : exactSum (x :: rest) = x.value + exactSum rest := List.sum_cons
    have hsizes : totalSize (x :: rest) = |x.value| + totalSize rest := List.sum_cons
    rw [List.foldl_cons, List.length_cons, hexact, hsizes, slack_succ]
    generalize (rest.foldl (· + ·) (start + x)).value = total at hrest ⊢
    generalize (start + x).value = next at hstep hrest
    have hboth : roundoff * |start.value + x.value| ≤ roundoff * (|start.value| + |x.value|) :=
      mul_le_mul_of_nonneg_left (abs_add_le _ _) roundoff_nonneg
    have hnext : |next| ≤ (1 + roundoff) * (|start.value| + |x.value|) := by
      have htriangle := abs_sub_abs_le_abs_sub next (start.value + x.value)
      have hsum := abs_add_le start.value x.value
      linarith
    have hgrown : slack rest.length * (|next| + totalSize rest) ≤
        slack rest.length * ((1 + roundoff) * (|start.value| + |x.value|) + totalSize rest) :=
      mul_le_mul_of_nonneg_left (add_le_add_left hnext _) (slack_nonneg _)
    have hkept : slack rest.length * totalSize rest ≤
        (slack rest.length * (1 + roundoff) + roundoff) * totalSize rest := by
      rw [← slack_succ]
      exact mul_le_mul_of_nonneg_right (slack_le_succ _) (totalSize_nonneg _)
    calc |total - (start.value + (x.value + exactSum rest))|
        = |(total - (next + exactSum rest)) + (next - (start.value + x.value))| := by
          congr 1
          ring
      _ ≤ |total - (next + exactSum rest)| + |next - (start.value + x.value)| := abs_add_le _ _
      _ ≤ (slack rest.length * (1 + roundoff) + roundoff) *
            (|start.value| + (|x.value| + totalSize rest)) := by
          linarith

/-- **A finite sum is off by at most what its roundings may change of all sizes,** in whichever
order the numbers are added. The first one is added to zero, and not rounded. -/
theorem abs_value_sum_sub_le {xs : List Binary64} (h : (xs.foldl (· + ·) zero).isFinite = true) :
    |(xs.foldl (· + ·) zero).value - exactSum xs| ≤ slack (xs.length - 1) * totalSize xs := by
  cases xs with
  | nil =>
    have hzero : zero.value = 0 := value_of_magnitude_eq_zero rfl
    simp [slack, exactSum, hzero]
  | cons x rest =>
    have hx : x.isFinite = true :=
      (isFinite_of_isFinite_add (@isFinite_of_isFinite_foldl_add rest (zero + x) h)).2
    have hoff := @abs_value_foldl_add_sub_le rest (zero + x) h
    rw [value_zero_add hx] at hoff
    exact hoff

theorem exactSum_perm {xs ys : List Binary64} (h : ys.Perm xs) : exactSum ys = exactSum xs :=
  (h.map value).sum_eq

theorem totalSize_perm {xs ys : List Binary64} (h : ys.Perm xs) : totalSize ys = totalSize xs :=
  (h.map _).sum_eq

end Binary64

end PowerShare
