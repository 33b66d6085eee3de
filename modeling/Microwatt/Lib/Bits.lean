import Mathlib.Data.BitVec

/-!
# Bit vectors as numbers

Slices, concatenations and single bits of a bit vector as quotients and remainders of its value.
Core states the first two with shifts and bitwise or; a proof that goes on with arithmetic needs
them in this form.

## Main results

* `Bits.toNat_append`, `Bits.toNat_extract`, `Bits.getLsbD_eq`
* `Bits.getLsbD_and_neg`, `Bits.getLsbD_or_neg` — the lowest set bit, found with a negation
-/

namespace Bits

variable {m n : ℕ}

section

variable (x : BitVec m)

theorem toNat_append (y : BitVec n) : (x ++ y).toNat = x.toNat * 2 ^ n + y.toNat := by
  rw [BitVec.toNat_append, ← Nat.shiftLeft_add_eq_or_of_lt y.isLt, Nat.shiftLeft_eq]

theorem toNat_extract (i n : ℕ) : (x.extractLsb' i n).toNat = x.toNat / 2 ^ i % 2 ^ n := by
  rw [BitVec.extractLsb'_toNat, Nat.shiftRight_eq_div_pow]

theorem getLsbD_eq (i : ℕ) : x.getLsbD i = decide (x.toNat / 2 ^ i % 2 = 1) := by
  rw [← BitVec.testBit_toNat, Nat.testBit_eq_decide_div_mod_eq]

theorem extract_eq_zero (i n : ℕ) : x.extractLsb' i n = 0 ↔ x.toNat / 2 ^ i % 2 ^ n = 0 := by
  rw [← BitVec.toNat_inj, toNat_extract, BitVec.ofNat_eq_ofNat, BitVec.toNat_ofNat, Nat.zero_mod]

/-! ### The lowest set bit -/

/-- `x &&& -x` has only the lowest set bit of `x`. -/
theorem getLsbD_and_neg {t : ℕ} (ht : x.getLsbD t = true)
    (hlow : ∀ j < t, x.getLsbD j = false) (k : ℕ) : (x &&& -x).getLsbD k = decide (k = t) := by
  have htm : t < m := BitVec.lt_of_getLsbD ht
  rw [BitVec.getLsbD_and, BitVec.getLsbD_neg]
  rcases lt_trichotomy k t with hlt | rfl | hgt
  · rw [hlow k hlt, Bool.false_and, decide_eq_false hlt.ne]
  · have hno : ¬∃ j < k, x.getLsbD j = true := fun ⟨j, hj, h⟩ => by
      rw [hlow j hj] at h
      cases h
    simp [ht, hno]
  · have hyes : ∃ j < k, x.getLsbD j = true := ⟨t, hgt, ht⟩
    by_cases hk : k < m
    · simp only [hk, hyes, decide_true, Bool.and_true, Bool.xor_true]
      rw [Bool.and_not_self, decide_eq_false hgt.ne']
    · rw [BitVec.getLsbD_of_ge _ _ (Nat.not_lt.mp hk), Bool.false_and, decide_eq_false hgt.ne']

/-- `x ||| -x` has the lowest set bit of `x` and all bits above it. -/
theorem getLsbD_or_neg {k : ℕ} (hk : k < m) :
    (x ||| -x).getLsbD k = decide (∃ j ≤ k, x.getLsbD j = true) := by
  rw [BitVec.getLsbD_or, BitVec.getLsbD_neg, decide_eq_true hk, Bool.true_and]
  by_cases hx : x.getLsbD k = true
  · have hyes : ∃ j ≤ k, x.getLsbD j = true := ⟨k, le_rfl, hx⟩
    rw [hx, Bool.true_or, decide_eq_true hyes]
  · have hiff : (∃ j < k, x.getLsbD j = true) ↔ ∃ j ≤ k, x.getLsbD j = true := by
      constructor
      · rintro ⟨j, hj, h⟩
        exact ⟨j, hj.le, h⟩
      · rintro ⟨j, hj, h⟩
        exact ⟨j, lt_of_le_of_ne hj (fun he => hx (he ▸ h)), h⟩
    rw [Bool.eq_false_of_not_eq_true hx, Bool.false_or, Bool.false_xor]
    exact decide_eq_decide.mpr hiff

end

end Bits
