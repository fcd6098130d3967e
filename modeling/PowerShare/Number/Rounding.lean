/-!
# Rounding a quotient of natural numbers

One rule serves the whole library: a quotient goes to the nearest natural number, and a quotient
that lies exactly between two goes to the even one. Binary words, decimal places and the reading
of decimals all round with `roundHalfEven`.

* `roundHalfEven_of_dvd` : a quotient that is a natural number is not changed;
* `roundHalfEven_near` : the result is at most half a unit away.
-/

namespace PowerShare

/-- The natural number nearest to `num / den`; of two equally near ones, the even one. -/
def roundHalfEven (num den : Nat) : Nat :=
  let below := num / den
  let rest := num % den
  if 2 * rest < den ∨ (2 * rest = den ∧ below % 2 = 0) then below else below + 1

theorem roundHalfEven_mul (q : Nat) {den : Nat} (h : 0 < den) :
    roundHalfEven (q * den) den = q := by
  simp [roundHalfEven, Nat.mul_div_cancel q h, h]

theorem roundHalfEven_of_dvd {num den : Nat} (h : 0 < den) (hd : den ∣ num) :
    roundHalfEven num den = num / den := by
  obtain ⟨q, rfl⟩ := hd
  rw [Nat.mul_comm, roundHalfEven_mul q h, Nat.mul_div_cancel q h]

/-- The result is the quotient's floor or the number after it. -/
theorem roundHalfEven_cases (num den : Nat) :
    roundHalfEven num den = num / den ∨ roundHalfEven num den = num / den + 1 := by
  unfold roundHalfEven
  dsimp only
  split <;> simp

/-- The rounded quotient lies at most half a unit below and half a unit above the quotient. -/
theorem roundHalfEven_near (num : Nat) {den : Nat} (h : 0 < den) :
    2 * (roundHalfEven num den * den) ≤ 2 * num + den ∧
      2 * num ≤ 2 * (roundHalfEven num den * den) + den := by
  have hsum : den * (num / den) + num % den = num := Nat.div_add_mod num den
  have hlt : num % den < den := Nat.mod_lt num h
  rw [Nat.mul_comm] at hsum
  unfold roundHalfEven
  dsimp only
  split
  · omega
  · rw [Nat.add_mul]
    omega

end PowerShare
