import Mathlib.Tactic.Ring
import Mathlib.Tactic.Linarith

/-!
# Restoring division

A register starts with the dividend, and in each step it is compared with the divisor at position
`w`. If it is not less, the divisor is subtracted and the quotient gets a one, otherwise a zero;
then the register is shifted to the left. Nothing is lost as long as the register stays below twice
the divisor, and after `w + 1` steps the quotient is complete and the remainder stands at position
`w + 1`. Where the register is small, several steps that give a zero can be made at once.

## Main definitions

* `Restoring.Holds` — the register and the quotient after `k` steps

## Main results

* `Restoring.Holds.subtract`, `Restoring.Holds.shift` — a step that gives a one, and some that give
  zeroes
* `Restoring.Holds.quotient`, `Restoring.Holds.remainder` — the end
-/

namespace Restoring

variable {w n d k r q : ℕ}

/-- After `k` steps of the division of `n` by `d` the register has `r` and the quotient is `q`. -/
structure Holds (w n d k r q : ℕ) : Prop where
  value : r + q * d * 2 ^ (w + 1) = 2 ^ k * n
  bound : r < d * 2 ^ (w + 1)

/-- The quotient has at most `w` bits. -/
theorem Holds.start (h : n < d * 2 ^ w) : Holds w n d 0 n 0 := by
  refine ⟨by simp, h.trans_le (Nat.mul_le_mul_left d ?_)⟩
  exact Nat.pow_le_pow_right (by omega) (by omega)

theorem Holds.subtract (h : Holds w n d k r q) (hr : d * 2 ^ w ≤ r) :
    Holds w n d (k + 1) (2 * (r - d * 2 ^ w)) (2 * q + 1) := by
  obtain ⟨hvalue, hbound⟩ := h
  have hpow : d * 2 ^ (w + 1) = 2 * (d * 2 ^ w) := by ring
  refine ⟨?_, by omega⟩
  calc 2 * (r - d * 2 ^ w) + (2 * q + 1) * d * 2 ^ (w + 1)
      = 2 * (r - d * 2 ^ w) + d * 2 ^ (w + 1) + 2 * (q * d * 2 ^ (w + 1)) := by ring
    _ = 2 * (r + q * d * 2 ^ (w + 1)) := by omega
    _ = 2 ^ (k + 1) * n := by rw [hvalue]; ring

theorem Holds.shift (h : Holds w n d k r q) {j : ℕ} (hr : 2 ^ j * r < d * 2 ^ (w + 1)) :
    Holds w n d (k + j) (2 ^ j * r) (2 ^ j * q) := by
  refine ⟨?_, hr⟩
  calc 2 ^ j * r + 2 ^ j * q * d * 2 ^ (w + 1)
      = 2 ^ j * (r + q * d * 2 ^ (w + 1)) := by ring
    _ = 2 ^ (k + j) * n := by rw [h.value]; ring

/-- At the end the register is a multiple of the place of the remainder. -/
theorem Holds.split (h : Holds w n d (w + 1) r q) :
    ∃ m, r = 2 ^ (w + 1) * m ∧ m + q * d = n ∧ m < d := by
  have hdvd : 2 ^ (w + 1) ∣ r := by
    refine (Nat.dvd_add_left (Dvd.intro_left (q * d) rfl)).mp ?_
    rw [h.value]
    exact Dvd.intro n rfl
  obtain ⟨m, rfl⟩ := hdvd
  have hpos : 0 < 2 ^ (w + 1) := by positivity
  refine ⟨m, rfl, Nat.eq_of_mul_eq_mul_left hpos ?_, ?_⟩
  · rw [← h.value]
    ring
  · refine Nat.lt_of_mul_lt_mul_left (a := 2 ^ (w + 1)) ?_
    rw [mul_comm _ d]
    exact h.bound

theorem Holds.quotient (h : Holds w n d (w + 1) r q) : q = n / d := by
  obtain ⟨m, -, hn, hm⟩ := h.split
  rw [← hn, Nat.add_mul_div_right _ _ (by omega), Nat.div_eq_of_lt hm, zero_add]

theorem Holds.remainder (h : Holds w n d (w + 1) r q) : r = 2 ^ (w + 1) * (n % d) := by
  obtain ⟨m, hr, hn, hm⟩ := h.split
  rw [← hn, Nat.add_mul_mod_self_right, Nat.mod_eq_of_lt hm, hr]

end Restoring
