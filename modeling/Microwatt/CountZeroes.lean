import Microwatt.Helpers
import Microwatt.Lib.Bits

/-!
# Counting zeroes

`count_left_zeroes` of `helpers.vhdl` looks at the edge and at the lowest one of the reversed
vector, and puts the count together from bits of both. It is the number of leading zeroes, for
vectors of up to 64 bits.

## Main results

* `countRightZeroes_eq`, `countLeftZeroes_eq`
-/

namespace Microwatt

open BitVec

/-- The two functions that read off a position are right for each of the 64. -/
theorem position_eq (t : Fin 64) :
    (edgelocation (Lanes.ofBits 64 fun k => decide (t.val ≤ k)) 6).extractLsb' 2 4 ++
        (bitNumber (twoPow 64 t)).extractLsb' 0 2 =
      BitVec.ofNat 6 t := by
  revert t
  decide +kernel

theorem countRightZeroes_eq {w : ℕ} (hw : w ≤ 64) (y : BitVec w) {t : ℕ} (ht : y.getLsbD t = true)
    (hlow : ∀ j < t, y.getLsbD j = false) : countRightZeroes y = BitVec.ofNat 6 t := by
  have hlt : t < w := lt_of_getLsbD ht
  have hone : (-y &&& y).setWidth 64 = twoPow 64 t := by
    refine eq_of_getLsbD_eq fun k hk => ?_
    have ht64 : t < 64 := by omega
    rw [BitVec.getLsbD_setWidth, BitVec.and_comm, Bits.getLsbD_and_neg y ht hlow,
      getLsbD_twoPow, decide_eq_true hk, Bool.true_and, decide_eq_true ht64, Bool.true_and]
    exact decide_eq_decide.mpr eq_comm
  have hbit : ∀ k < w, (-y ||| y).getLsbD k = decide (t ≤ k) := by
    intro k hk
    rw [BitVec.or_comm, Bits.getLsbD_or_neg y hk]
    refine decide_eq_decide.mpr ⟨?_, fun h => ⟨t, h, ht⟩⟩
    rintro ⟨j, hj, h⟩
    by_contra hc
    rw [hlow j (by omega)] at h
    cases h
  have hedge : (-y ||| y).signExtend 64 = Lanes.ofBits 64 fun k => decide (t ≤ k) := by
    refine eq_of_getLsbD_eq fun k hk => ?_
    rw [getLsbD_signExtend, Lanes.getLsbD_ofBits, decide_eq_true hk, Bool.true_and,
      Bool.true_and]
    split
    · exact hbit k ‹_›
    · rw [msb_eq_getLsbD_last, hbit _ (by omega), decide_eq_true (by omega),
        decide_eq_true (by omega)]
  simp only [countRightZeroes, hone, hedge]
  exact position_eq ⟨t, by omega⟩

theorem getLsbD_bitReverse {w : ℕ} (a : BitVec w) (k : ℕ) :
    (bitReverse a).getLsbD k = (decide (k < w) && a.getLsbD (w - 1 - k)) := by
  rw [bitReverse, Lanes.getLsbD_ofBits]

/-- **Leading zeroes.** -/
theorem countLeftZeroes_eq {w : ℕ} (hw : w ≤ 64) (x : BitVec w) (hx : x ≠ 0) :
    countLeftZeroes x = BitVec.ofNat 6 (w - 1 - x.toNat.log2) := by
  have h0 : x.toNat ≠ 0 := fun h => hx (eq_of_toNat_eq h)
  have hlt : x.toNat.log2 < w := (Nat.log2_lt h0).mpr x.isLt
  refine countRightZeroes_eq hw _ ?_ fun j hj => ?_
  · rw [getLsbD_bitReverse, decide_eq_true (by omega), Bool.true_and,
      show w - 1 - (w - 1 - x.toNat.log2) = x.toNat.log2 by omega, ← testBit_toNat]
    exact Nat.testBit_log2 h0
  · rw [getLsbD_bitReverse, ← testBit_toNat, Nat.testBit_lt_two_pow, Bool.and_false]
    exact lt_of_lt_of_le Nat.lt_log2_self (Nat.pow_le_pow_right (by decide) (by omega))

end Microwatt
