import Mathlib.Data.BitVec

/-!
# Lanes of a bit vector

A data path carries its bytes side by side, and a memory word may hold several fields of equal
width, each with a write enable of its own. What happens to such a value (rotation, reversal,
masked writes) happens to whole lanes. This file names the lane at a position, the vector with
given lanes, and the merge under a mask, for vectors and lanes of any width.

## Main definitions

* `Lanes.lane` — the lane of width `w` at position `i`
* `Lanes.ofBits`, `Lanes.ofLanes` — the vector with given bits, with given lanes
* `Lanes.merge` — take the selected lanes from one vector and the others from another
* `Lanes.byte`, `Lanes.ofBytes` — the lanes of width 8

## Main results

* `Lanes.lane_ofLanes`, `Lanes.ext_lanes` — the two directions of the correspondence
* `Lanes.lane_merge` — how a masked write acts
-/

namespace Lanes

variable {w m n : ℕ}

/-- The lane of width `w` at position `i`, position 0 being the least significant. -/
def lane (w : ℕ) (x : BitVec m) (i : ℕ) : BitVec w := x.extractLsb' (w * i) w

/-- The vector of width `m` with the bits `f`. -/
def ofBits : (m : ℕ) → (ℕ → Bool) → BitVec m
  | 0, _ => 0#0
  | m + 1, f => BitVec.cons (f m) (ofBits m f)

/-- The vector of width `m` whose lane `i` holds `f i`. -/
def ofLanes (m : ℕ) (f : ℕ → BitVec w) : BitVec m :=
  ofBits m fun k => (f (k / w)).getLsbD (k % w)

/-- The lanes selected by `sel` come from `new`, the others from `old`. -/
def merge (w : ℕ) (sel : BitVec n) (new old : BitVec m) : BitVec m :=
  ofLanes m fun i => if sel.getLsbD i then lane w new i else lane w old i

/-- The byte at a position. -/
def byte (x : BitVec m) (i : ℕ) : BitVec 8 := lane 8 x i

/-- The vector with given bytes. -/
def ofBytes (m : ℕ) (f : ℕ → BitVec 8) : BitVec m := ofLanes m f

theorem getLsbD_ofBits : ∀ (m : ℕ) (f : ℕ → Bool) (k : ℕ),
    (ofBits m f).getLsbD k = (decide (k < m) && f k)
  | 0, _, _ => by simp [ofBits]
  | m + 1, f, k => by
    rw [ofBits, BitVec.getLsbD_cons, getLsbD_ofBits m f k]
    by_cases hk : k = m
    · simp [hk]
    · have hlt : k < m + 1 ↔ k < m := by omega
      simp [hk, hlt]

theorem getLsbD_lane (x : BitVec m) (i k : ℕ) :
    (lane w x i).getLsbD k = (decide (k < w) && x.getLsbD (w * i + k)) := by
  simp [lane]

theorem lane_ofLanes (f : ℕ → BitVec w) {i : ℕ} (h : w * (i + 1) ≤ m) :
    lane w (ofLanes m f) i = f i := by
  refine BitVec.eq_of_getLsbD_eq fun k hk => ?_
  have hlt : w * i + k < m := by rw [Nat.mul_succ] at h; omega
  have hdiv : (w * i + k) / w = i := by
    rw [Nat.mul_add_div (by omega), Nat.div_eq_of_lt hk, Nat.add_zero]
  have hmod : (w * i + k) % w = k := by rw [Nat.mul_add_mod, Nat.mod_eq_of_lt hk]
  rw [getLsbD_lane, ofLanes, getLsbD_ofBits]
  simp [hk, hlt, hdiv, hmod]

theorem getLsbD_byte (x : BitVec m) (i k : ℕ) :
    (byte x i).getLsbD k = (decide (k < 8) && x.getLsbD (8 * i + k)) := getLsbD_lane x i k

theorem byte_ofBytes (f : ℕ → BitVec 8) {i : ℕ} (h : 8 * (i + 1) ≤ m) :
    byte (ofBytes m f) i = f i := lane_ofLanes f h

/-- Vectors of a whole number of lanes are equal when their lanes are. -/
theorem ext_lanes (hw : 0 < w) (hm : w ∣ m) {x y : BitVec m}
    (h : ∀ i, w * (i + 1) ≤ m → lane w x i = lane w y i) : x = y := by
  refine BitVec.eq_of_getLsbD_eq fun k hk => ?_
  obtain ⟨c, rfl⟩ := hm
  have hlane : w * (k / w + 1) ≤ w * c :=
    Nat.mul_le_mul_left w (Nat.div_lt_of_lt_mul hk)
  have hpos : w * (k / w) + k % w = k := Nat.div_add_mod k w
  have hmod : k % w < w := Nat.mod_lt k hw
  have hbit : (lane w x (k / w)).getLsbD (k % w) = (lane w y (k / w)).getLsbD (k % w) := by
    rw [h (k / w) hlane]
  simpa only [getLsbD_lane, hpos, hmod, decide_true, Bool.true_and] using hbit

theorem lane_merge (sel : BitVec n) (new old : BitVec m) {i : ℕ} (h : w * (i + 1) ≤ m) :
    lane w (merge w sel new old) i = if sel.getLsbD i then lane w new i else lane w old i :=
  lane_ofLanes _ h

end Lanes
