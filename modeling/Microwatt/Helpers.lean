import Microwatt.Lib.Lanes

/-!
# Bit helpers

The functions of `helpers.vhdl` that the modelled units call.

## Main definitions

* `countRightZeroes`, `countLeftZeroes`, `setBit`, `copyBits`
-/

namespace Microwatt

open BitVec

def bitReverse {w : ℕ} (a : BitVec w) : BitVec w :=
  Lanes.ofBits w fun k => a.getLsbD (w - 1 - k)

/-- `bit_number`: the position of the only set bit. Bit `i` of the result collects the input bits
whose position has bit `i` set. -/
def bitNumber (a : BitVec 64) : BitVec 6 :=
  Lanes.ofBits 6 fun i =>
    let stride := 2 ^ (i + 1)
    (List.range (64 / stride)).any fun j =>
      (List.range (stride / 2)).any fun k => a.getLsbD (j * stride + stride / 2 + k)

/-- `edgelocation`: the position of the lowest one of `1…10…0`. -/
def edgelocation (v : BitVec 64) (nbits : ℕ) : BitVec nbits :=
  Lanes.ofBits nbits fun i =>
    let stride := 2 ^ (i + 1)
    (List.range (2 ^ nbits / stride)).any fun j =>
      v.getLsbD (j * stride + stride - 1) && !v.getLsbD (j * stride + stride / 2 - 1)

section

variable {w : ℕ}

def countRightZeroes (val : BitVec w) : BitVec 6 :=
  let sum := -val
  let onehot := sum &&& val
  let edge := sum ||| val
  let bnE := edgelocation (edge.signExtend 64) 6
  let bnO := bitNumber (onehot.setWidth 64)
  bnE.extractLsb' 2 4 ++ bnO.extractLsb' 0 2

def countLeftZeroes (val : BitVec w) : BitVec 6 := countRightZeroes (bitReverse val)

section

variable (v : BitVec w) (n : ℕ) (b : Bool)

/-- A vector with bit `n` assigned. -/
def setBit : BitVec w :=
  if b then v ||| twoPow w n else v &&& ~~~twoPow w n

theorem getLsbD_setBit (k : ℕ) :
    (setBit v n b).getLsbD k = if k = n then decide (n < w) && b else v.getLsbD k := by
  by_cases hw : k < w
  · by_cases hk : k = n
    · subst hk
      cases b <;> simp [setBit, hw]
    · cases b <;> simp [setBit, hk, hw]
  · have hge : w ≤ k := Nat.not_lt.mp hw
    rw [getLsbD_of_ge _ _ hge, getLsbD_of_ge _ _ hge]
    by_cases hk : k = n
    · subst hk
      simp [hw]
    · simp [hk]

theorem getElem_setBit (k : ℕ) (h : k < w) : (setBit v n b)[k] = if k = n then b else v[k] := by
  rw [← getLsbD_eq_getElem h, ← getLsbD_eq_getElem h, getLsbD_setBit]
  split
  · next hk => simp [← hk, h]
  · rfl

theorem extractLsb'_setBit {start len : ℕ} (h : n < start ∨ start + len ≤ n) :
    (setBit v n b).extractLsb' start len = v.extractLsb' start len := by
  ext k hk
  simp only [getElem_extractLsb', getLsbD_setBit]
  rw [if_neg (by omega)]

end

theorem setBit_getLsbD (v : BitVec w) (n : ℕ) : setBit v n (v.getLsbD n) = v := by
  ext k hk
  rw [getElem_setBit]
  split
  · next h => rw [← h, getLsbD_eq_getElem hk]
  · rfl

/-- A vector with the bits from `hi` down to `lo` taken from another one. -/
def copyBits (v src : BitVec w) (hi lo : ℕ) : BitVec w :=
  Lanes.ofBits w fun k => if lo ≤ k ∧ k ≤ hi then src.getLsbD k else v.getLsbD k

theorem getLsbD_copyBits (v src : BitVec w) (hi lo k : ℕ) :
    (copyBits v src hi lo).getLsbD k =
      if lo ≤ k ∧ k ≤ hi then src.getLsbD k else v.getLsbD k := by
  rw [copyBits, Lanes.getLsbD_ofBits]
  by_cases hw : k < w
  · simp [hw]
  · simp [hw, getLsbD_of_ge _ _ (Nat.not_lt.mp hw)]

theorem getElem_copyBits (v src : BitVec w) (hi lo k : ℕ) (h : k < w) :
    (copyBits v src hi lo)[k] = if lo ≤ k ∧ k ≤ hi then src[k] else v[k] := by
  simp only [← getLsbD_eq_getElem h, getLsbD_copyBits]

theorem extractLsb'_copyBits (v src : BitVec w) (hi lo : ℕ) {start len : ℕ}
    (h : hi < start ∨ start + len ≤ lo) :
    (copyBits v src hi lo).extractLsb' start len = v.extractLsb' start len := by
  ext k hk
  simp only [getElem_extractLsb', getLsbD_copyBits]
  rw [if_neg (by omega)]

end

example : countLeftZeroes 0x000123#23 = 14#6 := by decide +kernel

end Microwatt
