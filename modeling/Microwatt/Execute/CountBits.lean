import Mathlib.Algebra.BigOperators.Group.Finset.Basic
import Mathlib.Tactic.Ring
import Microwatt.CountZeroes
import Microwatt.Decode.Decode2
import Microwatt.Lib.Clocked

/-!
# Counting bits

`bit_counter` counts zeroes from an end of the operand and ones in its bytes, words or the whole of
it. Zeroes are counted from the right of the operand or of its mirror image; for a word the high
half is filled with ones, so that the count stops there, and the count of 64 is the carry out of the
complement. Both counts go on after a clock edge, from registers that hold while the stage is
stalled.

## Main definitions

* `CountBits.step`, `CountBits.result`

## Main results

* `CountBits.counts`
-/

namespace Microwatt

open Clocked BitVec

namespace CountBits

structure State where
  inpR : BitVec 64 := 0
  sumR : BitVec 65 := 0
  dlenR : BitVec 4 := 0
  pcntR : Bool := false
  pc8R : ℕ → BitVec 4 := fun _ => 0
  pc16R : ℕ → BitVec 5 := fun _ => 0

structure Inputs where
  rs : BitVec 64 := 0
  stall : Bool := false
  countRight : Bool := false
  doPopcnt : Bool := false
  is32bit : Bool := false
  datalen : BitVec 4 := 0
  deriving DecidableEq, Repr

/-! ### Before the clock edge -/

section Before

variable (i : Inputs)

def inp : BitVec 64 :=
  if !i.is32bit then if !i.countRight then bitReverse i.rs else i.rs
  else
    allOnes 32 ++
      if !i.countRight then bitReverse (i.rs.extractLsb' 0 32) else i.rs.extractLsb' 0 32

def sum : BitVec 65 := (~~~inp i).setWidth 65 + 1

/-- Two counts added, with one bit more. -/
def widen {n : ℕ} (a b : BitVec n) : BitVec (n + 1) := a.setWidth (n + 1) + b.setWidth (n + 1)

def pc2 (k : ℕ) : BitVec 2 :=
  widen (ofBool (i.rs.getLsbD (k * 2))) (ofBool (i.rs.getLsbD (k * 2 + 1)))

def pc4 (k : ℕ) : BitVec 3 := widen (pc2 i (k * 2)) (pc2 i (k * 2 + 1))

def pc8 (k : ℕ) : BitVec 4 := widen (pc4 i (k * 2)) (pc4 i (k * 2 + 1))

def pc16 (k : ℕ) : BitVec 5 := widen (pc8 i (k * 2)) (pc8 i (k * 2 + 1))

end Before

def step (s : State) (i : Inputs) : State :=
  if i.stall then s
  else
    { inpR := inp i
      sumR := sum i
      dlenR := i.datalen
      pcntR := i.doPopcnt
      pc8R := pc8 i
      pc16R := pc16 i }

/-! ### After the clock edge -/

section After

variable (s : State)

def cntz : BitVec 64 :=
  let edge := s.sumR.extractLsb' 0 64 ||| s.inpR
  let onehot := s.sumR.extractLsb' 0 64 &&& s.inpR
  let bitnum := (edgelocation edge 6).extractLsb' 2 4 ++ (bitNumber onehot).extractLsb' 0 2
  (ofBool (s.sumR.getLsbD 64) ++ bitnum).setWidth 64

def pc32 (k : ℕ) : BitVec 6 := widen (s.pc16R (k * 2)) (s.pc16R (k * 2 + 1))

def popcnt : BitVec 64 :=
  if s.dlenR.extractLsb' 2 2 = 0b00 then Lanes.ofLanes 64 fun k => (s.pc8R k).setWidth 8
  else if !s.dlenR.getLsbD 3 then Lanes.ofLanes 64 fun k => (pc32 s k).setWidth 32
  else (widen (pc32 s 0) (pc32 s 1)).setWidth 64

def result : BitVec 64 := if s.pcntR then popcnt s else cntz s

end After

/-! ### Zeroes -/

/-- The number of zeroes before the first one among the first `w` bits of `f`. -/
def zeroes (f : ℕ → Bool) : ℕ → ℕ
  | 0 => 0
  | w + 1 => if f 0 then 0 else zeroes (fun k => f (k + 1)) w + 1

theorem zeroes_le (f : ℕ → Bool) (w : ℕ) : zeroes f w ≤ w := by
  induction w generalizing f with
  | zero => rfl
  | succ w ih =>
    rw [zeroes]
    split
    · exact Nat.zero_le _
    · exact Nat.succ_le_succ (ih _)

theorem zeroes_low {f : ℕ → Bool} {w j : ℕ} (h : j < zeroes f w) : f j = false := by
  induction w generalizing f j with
  | zero => exact absurd h (Nat.not_lt_zero j)
  | succ w ih =>
    rw [zeroes] at h
    split at h
    · exact absurd h (Nat.not_lt_zero j)
    · next h0 =>
      cases j with
      | zero => exact Bool.eq_false_of_not_eq_true h0
      | succ j => exact ih (f := fun k => f (k + 1)) (Nat.lt_of_succ_lt_succ h)

theorem zeroes_one {f : ℕ → Bool} {w : ℕ} (h : zeroes f w < w) : f (zeroes f w) = true := by
  induction w generalizing f with
  | zero => exact absurd h (Nat.not_lt_zero _)
  | succ w ih =>
    rw [zeroes] at h ⊢
    split
    · next h0 => exact h0
    · next h0 =>
      rw [if_neg h0] at h
      exact ih (f := fun k => f (k + 1)) (Nat.lt_of_succ_lt_succ h)

variable {i : Inputs} {s : State}

section

variable (hi : s.inpR = inp i) (hs : s.sumR = sum i)

include hi hs

/-- Some bit of `inp` is set: the count is that of the zeroes below it. -/
theorem cntz_of_one {t : ℕ}
    (ht : (inp i).getLsbD t = true) (hlow : ∀ j < t, (inp i).getLsbD j = false) :
    (cntz s).toNat = t := by
  have hlt : t < 64 := lt_of_getLsbD ht
  have hne : (inp i).toNat ≠ 0 := fun h0 => by
    rw [← testBit_toNat, h0, Nat.zero_testBit] at ht
    cases ht
  have hsum : (sum i).toNat = 2 ^ 64 - (inp i).toNat := by
    have := (inp i).isLt
    rw [sum, toNat_add, toNat_setWidth, toNat_not]
    show (_ % 2 ^ 65 + 1) % 2 ^ 65 = _
    omega
  have hneg : (sum i).extractLsb' 0 64 = -inp i := by
    apply eq_of_toNat_eq
    rw [extractLsb'_toNat, hsum, toNat_neg]
    rfl
  have hcarry : (sum i).getLsbD 64 = false := by
    rw [Bits.getLsbD_eq, hsum]
    exact decide_eq_false (by omega)
  have hcount := countRightZeroes_eq le_rfl (inp i) ht hlow
  rw [countRightZeroes, signExtend_eq, setWidth_eq] at hcount
  simp only [cntz, hi, hs, hneg, hcarry, hcount]
  rw [toNat_setWidth, Bits.toNat_append, toNat_ofNat]
  simp only [toNat_ofBool, Bool.toNat_false]
  omega

/-- No bit of `inp` is set: the carry says so. -/
theorem cntz_of_zero (h0 : inp i = 0) : (cntz s).toNat = 64 := by
  have hsum : sum i = twoPow 65 64 := by
    rw [sum, h0]
    rfl
  rw [cntz, hi, hs, hsum, h0]
  decide +kernel

/-- The count of zeroes, from the bits that are looked at. -/
theorem cntz_eq {f : ℕ → Bool} {w : ℕ}
    (hf : ∀ k < w, (inp i).getLsbD k = f k) (hw : w = 64 ∨ (inp i).getLsbD w = true) :
    (cntz s).toNat = zeroes f w := by
  have hlow : ∀ j < zeroes f w, (inp i).getLsbD j = false := fun j hj => by
    rw [hf j (hj.trans_le (zeroes_le f w)), zeroes_low hj]
  rcases (zeroes_le f w).lt_or_eq with hlt | heq
  · exact cntz_of_one hi hs ((hf _ hlt).trans (zeroes_one hlt)) hlow
  · rw [heq] at hlow ⊢
    rcases hw with rfl | hone
    · exact cntz_of_zero hi hs (eq_of_getLsbD_eq fun j hj => by
        rw [hlow j hj, ofNat_eq_ofNat, getLsbD_zero])
    · exact cntz_of_one hi hs hone hlow

end

theorem getLsbD_words (hi lo : BitVec 32) (k : ℕ) :
    (hi ++ lo : BitVec 64).getLsbD k = if k < 32 then lo.getLsbD k else hi.getLsbD (k - 32) :=
  getLsbD_append

/-- The bits of `inp` are those of the operand, from the end that is asked for. -/
theorem getLsbD_inp_64 (h32 : i.is32bit = false) {k : ℕ} (hk : k < 64) :
    (inp i).getLsbD k = i.rs.getLsbD (if i.countRight then k else 63 - k) := by
  rw [inp, h32]
  cases i.countRight with
  | false => exact (getLsbD_bitReverse i.rs k).trans (by rw [decide_eq_true hk]; rfl)
  | true => rfl

theorem getLsbD_inp_32 (h32 : i.is32bit = true) {k : ℕ} (hk : k < 32) :
    (inp i).getLsbD k = i.rs.getLsbD (if i.countRight then k else 31 - k) := by
  have hlow : ∀ j < 32, (i.rs.extractLsb' 0 32).getLsbD j = i.rs.getLsbD j := fun j hj => by
    rw [getLsbD_extractLsb', decide_eq_true hj, Nat.zero_add, Bool.true_and]
  rw [inp, h32]
  refine (getLsbD_words _ _ k).trans ?_
  rw [if_pos hk]
  cases i.countRight with
  | false =>
    refine (getLsbD_bitReverse _ k).trans ?_
    rw [decide_eq_true hk, Bool.true_and, hlow _ (by omega)]
    rfl
  | true => exact hlow k hk

theorem getLsbD_inp_stop (h32 : i.is32bit = true) : (inp i).getLsbD 32 = true := by
  rw [inp, h32]
  exact getLsbD_words _ _ 32

/-! ### Ones -/

/-- The number of ones among the `n` bits of `v` from bit `lo` on. -/
def ones (v : BitVec 64) (lo n : ℕ) : ℕ := ∑ k ∈ Finset.range n, (v.getLsbD (lo + k)).toNat

theorem ones_add (v : BitVec 64) (lo m n : ℕ) :
    ones v lo (m + n) = ones v lo m + ones v (lo + m) n := by
  rw [ones, ones, ones, Finset.sum_range_add]
  simp only [Nat.add_assoc]

theorem toNat_widen {n : ℕ} (a b : BitVec n) : (widen a b).toNat = a.toNat + b.toNat := by
  have ha := a.isLt
  have hb := b.isLt
  rw [widen, toNat_add, toNat_setWidth_of_le (by omega),
    toNat_setWidth_of_le (by omega), Nat.mod_eq_of_lt]
  rw [Nat.pow_succ]
  omega

/-- A stage of the tree counts twice as many bits as the one below it. -/
theorem toNat_widen_ones {n m : ℕ} {v : BitVec 64} {f : ℕ → BitVec n}
    (hf : ∀ k, (f k).toNat = ones v (m * k) m) (k : ℕ) :
    (widen (f (k * 2)) (f (k * 2 + 1))).toNat = ones v (m * 2 * k) (m * 2) := by
  have hlo : m * 2 * k = m * (k * 2) := by ring
  rw [toNat_widen, hf, hf, hlo, Nat.mul_succ m, mul_two m, ones_add]

theorem toNat_pc8 (k : ℕ) : (pc8 i k).toNat = ones i.rs (8 * k) 8 := by
  have h1 : ∀ k, (ofBool (i.rs.getLsbD k)).toNat = ones i.rs (1 * k) 1 := fun k => by
    simp [ones, toNat_ofBool]
  have h2 := toNat_widen_ones (f := fun k => ofBool (i.rs.getLsbD k)) h1
  exact toNat_widen_ones (f := pc4 i) (toNat_widen_ones (f := pc2 i) h2) k

theorem toNat_pc32 (h16 : s.pc16R = pc16 i) (k : ℕ) : (pc32 s k).toNat = ones i.rs (32 * k) 32 := by
  rw [pc32, h16]
  exact toNat_widen_ones (f := pc16 i) (toNat_widen_ones (f := pc8 i) toNat_pc8) k

theorem popcnt_bytes (h8 : s.pc8R = pc8 i) (hl : s.dlenR = 0b0001) {j : ℕ} (hj : j < 8) :
    (Lanes.lane 8 (popcnt s) j).toNat = ones i.rs (8 * j) 8 := by
  rw [popcnt, hl, if_pos (by decide), h8, Lanes.lane_ofLanes _ (by omega),
    toNat_setWidth_of_le (by decide), toNat_pc8]

/-- `popcntw`. -/
theorem popcnt_words (h16 : s.pc16R = pc16 i) (hl : s.dlenR = 0b0100) {j : ℕ} (hj : j < 2) :
    (Lanes.lane 32 (popcnt s) j).toNat = ones i.rs (32 * j) 32 := by
  rw [popcnt, hl, if_neg (by decide), if_pos (by decide), Lanes.lane_ofLanes _ (by omega),
    toNat_setWidth_of_le (by decide), toNat_pc32 h16]

theorem popcnt_doubleword (h16 : s.pc16R = pc16 i) (hl : s.dlenR = 0b1000) :
    (popcnt s).toNat = ones i.rs 0 64 := by
  rw [popcnt, hl, if_neg (by decide), if_neg (by decide), toNat_setWidth_of_le (by decide),
    toNat_widen, toNat_pc32 h16, toNat_pc32 h16]
  exact (ones_add i.rs 0 32 32).symm

/-! ### Instructions -/

/-- The extended opcodes of the instructions. -/
def extended : InsnCode → Option (BitVec 10)
  | .cntlzw => some 26
  | .cntlzd => some 58
  | .cnttzw => some 538
  | .cnttzd => some 570
  | .popcntb => some 122
  | .popcntw => some 378
  | .popcntd => some 506
  | _ => none

/-- The ports as execute1 and decode2 drive them for an instruction. -/
structure Drives (hasFpu : Bool) (code : InsnCode) (d : Decode1ToDecode2) (rs : BitVec 64)
    (i : Inputs) : Prop where
  rom : d.decode = decodeRom hasFpu code
  opcode : extended code = some (d.insn.extractLsb' 1 10)
  rs : i.rs = rs
  countRight : i.countRight = d.insn.getLsbD 10
  doPopcnt : i.doPopcnt = decide (d.insn.extractLsb' 6 2 = 0b11)
  is32bit : i.is32bit = d.decode.is32bit
  datalen : i.datalen = Decode2.dataLen d

def Counted (rs v : BitVec 64) : InsnCode → Prop
  | .cntlzw => v.toNat = zeroes (fun k => rs.getLsbD (31 - k)) 32
  | .cntlzd => v.toNat = zeroes (fun k => rs.getLsbD (63 - k)) 64
  | .cnttzw => v.toNat = zeroes rs.getLsbD 32
  | .cnttzd => v.toNat = zeroes rs.getLsbD 64
  | .popcntb => ∀ j < 8, (Lanes.lane 8 v j).toNat = ones rs (8 * j) 8
  | .popcntw => ∀ j < 2, (Lanes.lane 32 v j).toNat = ones rs (32 * j) 32
  | .popcntd => v.toNat = ones rs 0 64
  | _ => False

variable {hasFpu : Bool} {code : InsnCode} {d : Decode1ToDecode2} {rs : BitVec 64}

/-- The bits of the extended opcode that the unit looks at. -/
theorem Drives.selects {op : BitVec 10} (h : Drives hasFpu code d rs i)
    (hop : extended code = some op) :
    i.countRight = op.getLsbD 9 ∧ i.doPopcnt = decide (op.extractLsb' 5 2 = 0b11) := by
  have heq : d.insn.extractLsb' 1 10 = op := Option.some.inj (h.opcode.symm.trans hop)
  have hext : d.insn.extractLsb' 6 2 = (d.insn.extractLsb' 1 10).extractLsb' 5 2 := by
    refine eq_of_getLsbD_eq fun k hk => ?_
    rw [getLsbD_extractLsb', getLsbD_extractLsb', getLsbD_extractLsb',
      decide_eq_true (show 5 + k < 10 by omega), Bool.true_and, ← Nat.add_assoc]
  rw [h.countRight, h.doPopcnt, ← heq, ← hext, getLsbD_extractLsb']
  exact ⟨rfl, rfl⟩

/-- The registers hold while the stage is stalled. -/
theorem run_stalled {is : List Inputs} (hstall : ∀ j ∈ is, j.stall = true) :
    run step s is = s := by
  induction is with
  | nil => rfl
  | cons j is ih =>
    rw [Clocked.run_cons, step, hstall j List.mem_cons_self, if_pos rfl]
    exact ih fun k hk => hstall k (List.mem_cons_of_mem j hk)

theorem zeroes_64 (hi : s.inpR = inp i) (hs : s.sumR = sum i) (h32 : i.is32bit = false) :
    (cntz s).toNat = zeroes (fun k => i.rs.getLsbD (if i.countRight then k else 63 - k)) 64 :=
  cntz_eq hi hs (fun _ hk => getLsbD_inp_64 h32 hk) (.inl rfl)

/-- Zeroes of the low word. -/
theorem zeroes_32 (hi : s.inpR = inp i) (hs : s.sumR = sum i) (h32 : i.is32bit = true) :
    (cntz s).toNat = zeroes (fun k => i.rs.getLsbD (if i.countRight then k else 31 - k)) 32 :=
  cntz_eq hi hs (fun _ hk => getLsbD_inp_32 h32 hk) (.inr (getLsbD_inp_stop h32))

/-- **Counting instructions**: with any number of stalled edges after the one that takes the
operand, the result is the count that the instruction is for. -/
theorem counts (h : Drives hasFpu code d rs i) (hgo : i.stall = false) {is : List Inputs}
    (hstall : ∀ j ∈ is, j.stall = true) :
    Counted rs (result (run step (step s i) is)) code := by
  have h32 := h.is32bit
  have hlen := h.datalen
  rw [Decode2.dataLen] at hlen
  rw [h.rom] at h32 hlen
  rw [run_stalled hstall, step, hgo, ← h.rs]
  obtain ⟨op, hop⟩ : ∃ op, extended code = some op := ⟨_, h.opcode⟩
  obtain ⟨hright, hpop⟩ := h.selects hop
  unfold extended at hop
  split at hop <;> cases hop <;> rw [Counted, result, hpop]
  · exact (zeroes_32 rfl rfl h32).trans (by rw [hright]; rfl)
  · exact (zeroes_64 rfl rfl h32).trans (by rw [hright]; rfl)
  · exact (zeroes_32 rfl rfl h32).trans (by rw [hright]; rfl)
  · exact (zeroes_64 rfl rfl h32).trans (by rw [hright]; rfl)
  · exact fun j hj => popcnt_bytes rfl hlen hj
  · exact fun j hj => popcnt_words rfl hlen hj
  · exact popcnt_doubleword rfl hlen

/-- `cntlzw` of 1, stalled for two edges. -/
theorem counts_cntlzw : ∃ d i, Drives true .cntlzw d 1 i ∧
    Counted 1 (result (run step (step {} i) [{ stall := true }, { stall := true }])) .cntlzw :=
  have h : Drives true .cntlzw { insn := 0x7c000034, decode := decodeRom true .cntlzw } 1
      { rs := 1, is32bit := true } := ⟨rfl, rfl, rfl, rfl, rfl, rfl, rfl⟩
  ⟨_, _, h, counts h rfl (by simp)⟩

end CountBits

end Microwatt
