import Mathlib.Data.BitVec

/-!
# Counters that go around once

A burst that starts anywhere in a block and wraps at its end is followed by a counter of fixed width
and the number of the last element, which is one less than the first. How far such a counter has
come is a natural number below the length of the block.

## Main definitions

* `Cyclic.steps` — how many elements lie before the counter
* `Cyclic.nth` — the counter after a number of elements

## Main results

* `Cyclic.steps_succ`, `Cyclic.steps_last` — one step, and the last element
* `Cyclic.nth_inj`, `Cyclic.nth_eq_last` — the counter tells how far it has come, up to once around
-/

namespace Cyclic

open BitVec

variable {w : ℕ} {last x : BitVec w}

/-- The number of elements before `x` in a block that ends with `last`. -/
def steps (last x : BitVec w) : ℕ := (x - (last + 1)).toNat

theorem steps_lt (last x : BitVec w) : steps last x < 2 ^ w := (x - (last + 1)).isLt

theorem steps_start : steps (x - 1) x = 0 := by
  simp [steps]

theorem steps_last : steps last x + 1 = 2 ^ w ↔ x = last := by
  have hpos : 0 < 2 ^ w := Nat.two_pow_pos w
  have hones : BitVec.allOnes w = -1 := neg_one_eq_allOnes.symm
  constructor
  · intro h
    have hall : x - (last + 1) = BitVec.allOnes w := by
      apply eq_of_toNat_eq
      rw [toNat_allOnes]
      unfold steps at h
      omega
    rw [hones] at hall
    grind
  · rintro rfl
    have hall : x - (x + 1) = BitVec.allOnes w := by
      rw [hones]
      grind
    rw [steps, hall, toNat_allOnes]
    omega

theorem steps_succ (h : x ≠ last) : steps last (x + 1) = steps last x + 1 := by
  have hlt : steps last x + 1 < 2 ^ w := by
    have hle := steps_lt last x
    have hne := mt steps_last.mp h
    omega
  have hsplit : x + 1 - (last + 1) = x - (last + 1) + 1#w := by grind
  unfold steps at hlt ⊢
  rw [hsplit, toNat_add_of_lt]
  · cases w with
    | zero => simp at hlt
    | succ w => simp
  · cases w with
    | zero => simp at hlt
    | succ w => simpa using hlt

/-! ### From the number to the counter -/

/-- The counter after `k` elements of a block that ends with `last`. -/
def nth (last : BitVec w) (k : ℕ) : BitVec w := last + 1 + BitVec.ofNat w k

theorem nth_start : nth (x - 1) 0 = x := by
  simp [nth]

theorem nth_succ (last : BitVec w) (k : ℕ) : nth last (k + 1) = nth last k + 1 := by
  rw [nth, nth, ofNat_add]
  exact (add_assoc _ _ _).symm

theorem nth_inj {a b : ℕ} : nth last a = nth last b ↔ a % 2 ^ w = b % 2 ^ w := by
  unfold nth
  rw [add_right_inj]
  constructor
  · intro h
    simpa using congrArg BitVec.toNat h
  · intro h
    exact eq_of_toNat_eq (by simpa using h)

theorem nth_pred : nth last (2 ^ w - 1) = last := by
  have hpos : 0 < 2 ^ w := Nat.two_pow_pos w
  have hall : BitVec.ofNat w (2 ^ w - 1) = BitVec.allOnes w := by
    refine eq_of_toNat_eq ?_
    rw [toNat_allOnes, toNat_ofNat, Nat.mod_eq_of_lt (by omega)]
  have hones : BitVec.allOnes w = -1 := neg_one_eq_allOnes.symm
  rw [nth, hall, hones]
  grind

theorem nth_eq_last {k : ℕ} (hk : k < 2 ^ w) : nth last k = last ↔ k + 1 = 2 ^ w := by
  have hpos : 0 < 2 ^ w := Nat.two_pow_pos w
  have hiff := @nth_inj _ last k (2 ^ w - 1)
  rw [nth_pred, Nat.mod_eq_of_lt hk, Nat.mod_eq_of_lt (by omega)] at hiff
  rw [hiff]
  omega

theorem exists_nth (last x : BitVec w) : ∃ k < 2 ^ w, nth last k = x := by
  refine ⟨steps last x, steps_lt last x, ?_⟩
  rw [nth, steps, BitVec.ofNat_toNat, BitVec.setWidth_eq]
  grind

end Cyclic
