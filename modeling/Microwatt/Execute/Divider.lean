import Mathlib.Tactic.IntervalCases
import Microwatt.Execute.Basic
import Microwatt.Decode.InsnCode
import Microwatt.Decode.Rom
import Microwatt.Lib.Bits
import Microwatt.Lib.Restoring
import Microwatt.Lib.Clocked

/-!
# The integer divider

`divider.vhdl`, and what `execute1.vhdl` feeds it with. The divider works on absolute values: the
operands are made positive before, and the sign of the result is put on at the end. In a division it
makes 65 steps, one for each bit of the quotient and one more for what does not fit. Bits that are
shifted out of the quotient are not kept, except for the last one (`overflow`), and for whether
there was any one beyond bit 31 (`ovf32`).

Where the upper part of the register is zero, eight steps are made at once, but not in the last
eight, since `overflow` has to be that of the very last step.

## Main results

* `Divider.Working.iterate` — one clock edge at work
* `Division.of_working` — the result
* `Divider.division` — every division instruction
-/

namespace Microwatt

open Execute1 Bits Clocked

structure Execute1ToDivider where
  valid : Bool := false
  flush : Bool := false
  dividend : BitVec 64 := 0
  divisor : BitVec 64 := 0
  isSigned : Bool := false
  is32bit : Bool := false
  isExtended : Bool := false
  isModulus : Bool := false
  negResult : Bool := false
  deriving DecidableEq, Repr

structure DividerToExecute1 where
  valid : Bool := false
  writeRegData : BitVec 64 := 0
  overflow : Bool := false
  deriving DecidableEq, Repr

structure Divider where
  dend : BitVec 129 := 0
  div : BitVec 64 := 0
  quot : BitVec 64 := 0
  running : Bool := false
  count : BitVec 7 := 0
  negResult : Bool := false
  isModulus : Bool := false
  is32bit : Bool := false
  extended : Bool := false
  isSigned : Bool := false
  overflow : Bool := false
  ovf32 : Bool := false
  dOut : DividerToExecute1 := {}
  deriving DecidableEq, Repr

open Divider

namespace Divider

section Step

variable (s : Divider)

/-! ### The output -/

def result : BitVec 64 := if s.isModulus then s.dend.extractLsb' 65 64 else s.quot

def sresult : BitVec 65 :=
  if s.negResult then -(s.result.zeroExtend 65) else s.result.zeroExtend 65

def didOvf : Bool :=
  if !s.is32bit then s.overflow || s.isSigned && (s.sresult.getLsbD 64 ^^ s.sresult.getLsbD 63)
  else if s.isSigned then s.ovf32 || s.sresult.getLsbD 32 != s.sresult.getLsbD 31
  else s.ovf32

def oresult : BitVec 64 :=
  if s.didOvf then 0
  else if s.is32bit && !s.isModulus then (s.sresult.extractLsb' 0 32).zeroExtend 64
  else s.sresult.extractLsb' 0 64

/-- The register `d_out`. -/
def dOutNext : DividerToExecute1 where
  valid := s.count == 0b1000000
  writeRegData := s.oresult
  overflow := s.didOvf

/-! ### The registers -/

/-- The divisor can be subtracted. -/
def subtracts : Bool := s.dend.getLsbD 128 || decide (s.div ≤ s.dend.extractLsb' 64 64)

/-- Eight bits of zeroes are consumed. -/
def skips : Bool := s.dend.extractLsb' 57 72 == 0 && s.count.extractLsb' 3 4 != 0b0111

/-- A clock edge at work. -/
def iterate : Divider :=
  if s.subtracts then
    { s with
      dend := (s.dend.extractLsb' 64 64 - s.div) ++ s.dend.extractLsb' 0 64 ++ 0#1
      quot := s.quot.extractLsb' 0 63 ++ 1#1
      count := s.count + 1
      running := s.running && s.count != 0b0111111
      overflow := s.quot.getLsbD 63
      ovf32 := s.ovf32 || s.quot.getLsbD 31 }
  else if s.skips then
    { s with
      dend := s.dend.extractLsb' 0 121 ++ 0#8
      quot := s.quot.extractLsb' 0 56 ++ 0#8
      count := s.count + 8
      running := s.running && s.count != 0b0111111
      overflow := s.quot.getLsbD 63
      ovf32 := s.ovf32 || s.quot.extractLsb' 24 8 != 0 }
  else
    { s with
      dend := s.dend.extractLsb' 0 128 ++ 0#1
      quot := s.quot.extractLsb' 0 63 ++ 0#1
      count := s.count + 1
      running := s.running && s.count != 0b0111111
      overflow := s.quot.getLsbD 63
      ovf32 := s.ovf32 || s.quot.getLsbD 31 }

def load (d : Execute1ToDivider) : Divider :=
  { s with
    dend := if d.isExtended then 0#1 ++ d.dividend ++ 0#64 else 0#1 ++ 0#64 ++ d.dividend
    div := d.divisor
    quot := 0
    negResult := d.negResult
    isModulus := d.isModulus
    extended := d.isExtended
    is32bit := d.is32bit
    isSigned := d.isSigned
    count := 0b1111111
    running := true
    overflow := false
    ovf32 := false }

/-- After a reset or a flush. -/
def clear : Divider :=
  { s with
    dend := 0, div := 0, quot := 0, running := false, count := 0, is32bit := false
    overflow := false }

structure Inputs where
  rst : Bool := false
  d : Execute1ToDivider := {}
  deriving DecidableEq, Repr

/-- The registers except for `d_out`. -/
def coreNext (i : Inputs) : Divider :=
  if i.rst || i.d.flush then s.clear
  else if i.d.valid then s.load i.d
  else if s.running then s.iterate
  else { s with count := 0 }

def step (i : Inputs) : Divider := { s.coreNext i with dOut := s.dOutNext }

end Step

end Divider

/-- `x_to_divider`, for the instruction in `e`. -/
def Execute1.xToDivider (e : Decode2ToExecute1) (valid flush : Bool) : Execute1ToDivider :=
  let sign1 := e.isSigned && e.readData1.getLsbD (if e.is32bit then 31 else 63)
  let sign2 := e.isSigned && e.readData2.getLsbD (if e.is32bit then 31 else 63)
  let abs1 := if sign1 then -e.readData1 else e.readData1
  let abs2 := if sign2 then -e.readData2 else e.readData2
  { valid := valid
    flush := flush
    isSigned := e.isSigned
    is32bit := e.is32bit
    isModulus := e.insnType == .mod
    negResult := sign1 ^^ (sign2 && e.insnType != .mod)
    isExtended := !e.is32bit && e.insnType == .dive
    dividend :=
      if !e.is32bit then abs1
      else if e.insnType == .dive then abs1.extractLsb' 0 32 ++ 0#32
      else 0#32 ++ abs1.extractLsb' 0 32
    divisor := if !e.is32bit then abs2 else 0#32 ++ abs2.extractLsb' 0 32 }

/-! ### A division at work -/

namespace Divider

variable {s : Divider} {d : Execute1ToDivider} {k q : ℕ}

/-- The dividend as it is loaded. -/
def dividend (d : Execute1ToDivider) : ℕ :=
  if d.isExtended then d.dividend.toNat * 2 ^ 64 else d.dividend.toNat

/-- The registers after `k` steps of a division, which have given the quotient `q`. -/
structure Working (s : Divider) (d : Execute1ToDivider) (k q : ℕ) : Prop where
  le : k ≤ 65
  running : s.running = decide (k < 65)
  count : s.count.toNat = (k + 127) % 128
  div : s.div = d.divisor
  negResult : s.negResult = d.negResult
  isModulus : s.isModulus = d.isModulus
  is32bit : s.is32bit = d.is32bit
  isSigned : s.isSigned = d.isSigned
  quot : s.quot.toNat = q % 2 ^ 64
  bits : q < 2 ^ k
  ovf32 : s.ovf32 = decide (2 ^ 32 ≤ q)
  /-- As long as the quotient fits, this is a restoring division. -/
  value : dividend d < d.divisor.toNat * 2 ^ 64 →
    Restoring.Holds 64 (dividend d) d.divisor.toNat k s.dend.toNat q
  /-- If it does not fit, its first bit is a one. -/
  first : k = 0 → s.dend.toNat = dividend d
  large : d.divisor.toNat * 2 ^ 64 ≤ dividend d → 0 < k → 2 ^ k ≤ 2 * q
  overflow : k = 65 → s.overflow = decide (2 ^ 64 ≤ q)

theorem subtracts_iff : s.subtracts = true ↔ s.div.toNat * 2 ^ 64 ≤ s.dend.toNat := by
  have hdend := s.dend.isLt
  have hdiv := s.div.isLt
  simp only [subtracts, Bool.or_eq_true, decide_eq_true_eq, getLsbD_eq, BitVec.le_def,
    toNat_extract]
  omega

theorem skips_iff : s.skips = true ↔ s.dend.toNat < 2 ^ 57 ∧ s.count.toNat / 8 ≠ 7 := by
  have hdend := s.dend.isLt
  have hcount := s.count.isLt
  have hseven : s.count.extractLsb' 3 4 = 0b0111 ↔ s.count.toNat / 8 = 7 := by
    rw [← BitVec.toNat_inj, toNat_extract, show (0b0111 : BitVec 4).toNat = 7 from rfl]
    omega
  simp only [skips, Bool.and_eq_true, beq_iff_eq, extract_eq_zero, bne_iff_ne, ne_eq, hseven]
  omega

theorem toNat_dend_load (s : Divider) (d : Execute1ToDivider) :
    (s.load d).dend.toNat = dividend d := by
  simp only [load, dividend]
  split
  · refine (toNat_append (0#1 ++ d.dividend) 0#64).trans ?_
    rw [toNat_append]
    simp
  · refine (toNat_append (0#1 ++ 0#64) d.dividend).trans ?_
    simp

theorem working_load (s : Divider) (d : Execute1ToDivider) : Working (s.load d) d 0 0 where
  le := by omega
  running := rfl
  count := rfl
  div := rfl
  negResult := rfl
  isModulus := rfl
  is32bit := rfl
  isSigned := rfl
  quot := rfl
  bits := by omega
  ovf32 := rfl
  value h := (toNat_dend_load s d).symm ▸ .start h
  first _ := toNat_dend_load s d
  large _ h := absurd h (by omega)
  overflow h := absurd h (by omega)

/-- What is shifted out of the lower half of the quotient. -/
theorem Working.or_shifted (h : Working s d k q) {j : ℕ} (hj : j ≤ 8) {b : ℕ} (hb : b < 2 ^ j) :
    (s.ovf32 || decide (s.quot.toNat / 2 ^ (32 - j) % 2 ^ j ≠ 0)) =
      decide (2 ^ 32 ≤ 2 ^ j * q + b) := by
  rw [h.ovf32, h.quot, ← Bool.decide_or, decide_eq_decide]
  interval_cases j <;> omega

theorem Working.count_of_lt (h : Working s d k q) (hk : k < 65) :
    (s.count != 0b0111111) = decide (k < 64) ∧ (s.count.toNat / 8 ≠ 7 → k + 8 ≤ 64) := by
  have hc := h.count
  have hcount : s.count = 0b0111111 ↔ ¬ k < 64 := by
    rw [← BitVec.toNat_inj, hc, show (0b0111111 : BitVec 7).toNat = 63 from rfl]
    omega
  refine ⟨?_, by omega⟩
  rw [Bool.eq_iff_iff, bne_iff_ne, decide_eq_true_eq, ne_eq, hcount, not_not]

theorem toNat_shifted {w j : ℕ} (x : BitVec w) (n : ℕ) (b : BitVec j) :
    (x.extractLsb' 0 n ++ b).toNat = x.toNat % 2 ^ n * 2 ^ j + b.toNat := by
  rw [toNat_append, toNat_extract, pow_zero, Nat.div_one]

theorem Working.advance (h : Working s d k q) (hk : k < 65) {j b : ℕ}
    (hj : j = 1 ∨ j = 8 ∧ k + 8 ≤ 64) (hb : b < 2 ^ j) {dend : BitVec 129} {quot : BitVec 64}
    {ovf32 : Bool} (hquot : quot.toNat = (2 ^ j * s.quot.toNat + b) % 2 ^ 64)
    (hovf : ovf32 = (s.ovf32 || decide (s.quot.toNat / 2 ^ (32 - j) % 2 ^ j ≠ 0)))
    (hvalue : dividend d < d.divisor.toNat * 2 ^ 64 →
      Restoring.Holds 64 (dividend d) d.divisor.toNat (k + j) dend.toNat (2 ^ j * q + b))
    (hlarge : d.divisor.toNat * 2 ^ 64 ≤ dividend d → 2 ^ (k + j) ≤ 2 * (2 ^ j * q + b)) :
    Working
      { s with
        dend := dend, quot := quot, count := s.count + BitVec.ofNat 7 j
        running := s.running && s.count != 0b0111111
        overflow := s.quot.getLsbD 63, ovf32 := ovf32 } d (k + j) (2 ^ j * q + b) where
  le := by omega
  running := by
    rw [h.running, (h.count_of_lt hk).1, ← Bool.decide_and, decide_eq_decide]
    omega
  count := by
    rw [BitVec.toNat_add, h.count, BitVec.toNat_ofNat]
    omega
  div := h.div
  negResult := h.negResult
  isModulus := h.isModulus
  is32bit := h.is32bit
  isSigned := h.isSigned
  quot := by rw [hquot, h.quot, Nat.add_mod, Nat.mul_mod_mod, ← Nat.add_mod]
  bits := by
    have hq := h.bits
    calc 2 ^ j * q + b < 2 ^ j * q + 2 ^ j := by omega
      _ = 2 ^ j * (q + 1) := by ring
      _ ≤ 2 ^ j * 2 ^ k := Nat.mul_le_mul_left _ hq
      _ = 2 ^ (k + j) := by ring
  ovf32 := by rw [hovf, h.or_shifted (by omega) hb]
  value := hvalue
  first hz := absurd hz (by omega)
  large hl _ := hlarge hl
  overflow hend := by
    -- only a single step ends the division
    obtain rfl | ⟨rfl, hle⟩ := hj
    · obtain rfl : k = 64 := by omega
      have hq := h.bits
      rw [getLsbD_eq, h.quot, decide_eq_decide]
      omega
    · omega

/-- **One clock edge at work.** -/
theorem Working.iterate (h : Working s d k q) (hk : k < 65) :
    ∃ k' q', k < k' ∧ Working s.iterate d k' q' := by
  have hdend := s.dend.isLt
  have hquot := s.quot.isLt
  have hdiv : s.div.toNat = d.divisor.toNat := by rw [h.div]
  have hdlt := d.divisor.isLt
  -- a quotient whose first bit is a one keeps it
  have hkeep : ∀ {j b : ℕ}, d.divisor.toNat * 2 ^ 64 ≤ dividend d → 0 < k →
      2 ^ (k + j) ≤ 2 * (2 ^ j * q + b) := by
    intro j b hl hpos
    calc 2 ^ (k + j) = 2 ^ j * 2 ^ k := by ring
      _ ≤ 2 ^ j * (2 * q) := Nat.mul_le_mul_left _ (h.large hl hpos)
      _ ≤ 2 * (2 ^ j * q + b) := by
        rw [mul_add, ← mul_assoc, mul_comm (2 ^ j) 2, mul_assoc]
        omega
  -- the first step of such a division subtracts
  have hfirst : d.divisor.toNat * 2 ^ 64 ≤ dividend d → s.subtracts = false → 0 < k := by
    intro hl hs
    by_contra hz
    rw [Bool.eq_false_iff, ne_eq, subtracts_iff, hdiv, h.first (by omega)] at hs
    exact hs hl
  have hone : (s.ovf32 || s.quot.getLsbD 31) =
      (s.ovf32 || decide (s.quot.toNat / 2 ^ (32 - 1) % 2 ^ 1 ≠ 0)) := by
    rw [getLsbD_eq]
    congr 1
    rw [decide_eq_decide]
    omega
  cases hsub : s.subtracts with
  | true =>
    have hge := subtracts_iff.mp hsub
    rw [hdiv] at hge
    refine ⟨k + 1, 2 ^ 1 * q + 1, by omega, ?_⟩
    rw [Divider.iterate, if_pos hsub]
    refine h.advance hk (.inl rfl) (by omega) ?_ hone (fun hv => ?_) fun hl => ?_
    · exact (toNat_shifted s.quot 63 1#1).trans (by simp only [BitVec.toNat_ofNat]; omega)
    · have hold := h.value hv
      have hnew : ((s.dend.extractLsb' 64 64 - s.div) ++ s.dend.extractLsb' 0 64 ++ 0#1 :
          BitVec 129).toNat = 2 * (s.dend.toNat - d.divisor.toNat * 2 ^ 64) := by
        have hb := hold.bound
        refine (toNat_append ((s.dend.extractLsb' 64 64 - s.div) ++
          s.dend.extractLsb' 0 64) 0#1).trans ?_
        rw [toNat_append, BitVec.toNat_sub, toNat_extract, toNat_extract, hdiv]
        simp only [BitVec.toNat_ofNat]
        omega
      rw [hnew]
      simpa using hold.subtract hge
    · rcases Nat.eq_zero_or_pos k with rfl | hpos
      · omega
      · exact hkeep hl hpos
  | false =>
    have hlt : s.dend.toNat < d.divisor.toNat * 2 ^ 64 := by
      rw [Bool.eq_false_iff, ne_eq, subtracts_iff, hdiv] at hsub
      omega
    cases hskip : s.skips with
    | true =>
      obtain ⟨hsmall, hc⟩ := skips_iff.mp hskip
      refine ⟨k + 8, 2 ^ 8 * q + 0, by omega, ?_⟩
      rw [Divider.iterate, if_neg (by simp [hsub]), if_pos hskip]
      refine h.advance hk (.inr ⟨rfl, (h.count_of_lt hk).2 hc⟩) (by omega) ?_ ?_ (fun hv => ?_)
        fun hl => hkeep hl (hfirst hl hsub)
      · exact (toNat_shifted s.quot 56 0#8).trans (by simp only [BitVec.toNat_ofNat]; omega)
      · congr 1
        rw [Bool.eq_iff_iff, bne_iff_ne, decide_eq_true_eq, ne_eq, extract_eq_zero]
      · have hnew : (s.dend.extractLsb' 0 121 ++ 0#8 : BitVec 129).toNat =
            2 ^ 8 * s.dend.toNat := by
          exact (toNat_shifted s.dend 121 0#8).trans (by simp only [BitVec.toNat_ofNat]; omega)
        rw [hnew]
        exact (h.value hv).shift (by omega)
    | false =>
      refine ⟨k + 1, 2 ^ 1 * q + 0, by omega, ?_⟩
      rw [Divider.iterate, if_neg (by simp [hsub]), if_neg (by simp [hskip])]
      refine h.advance hk (.inl rfl) (by omega) ?_ hone (fun hv => ?_)
        fun hl => hkeep hl (hfirst hl hsub)
      · exact (toNat_shifted s.quot 63 0#1).trans (by simp only [BitVec.toNat_ofNat]; omega)
      · have hnew : (s.dend.extractLsb' 0 128 ++ 0#1 : BitVec 129).toNat =
            2 ^ 1 * s.dend.toNat := by
          exact (toNat_shifted s.dend 128 0#1).trans (by simp only [BitVec.toNat_ofNat]; omega)
        rw [hnew]
        exact (h.value hv).shift (by omega)

/-! ### The result -/

/-- The result with its sign. -/
def signed (d : Execute1ToDivider) : ℤ :=
  (if d.negResult then -1 else 1) *
    (if d.isModulus then dividend d % d.divisor.toNat else dividend d / d.divisor.toNat : ℕ)

/-- If the quotient does not fit, there is an overflow. -/
theorem Working.didOvf_of_large (h : Working s d 65 q)
    (hl : d.divisor.toNat * 2 ^ 64 ≤ dividend d) : s.didOvf = true := by
  have hq := h.large hl (by omega)
  have hov : s.overflow = true := by
    rw [h.overflow rfl, decide_eq_true_eq]
    omega
  have hov32 : s.ovf32 = true := by
    rw [h.ovf32, decide_eq_true_eq]
    omega
  simp [didOvf, hov, hov32]

variable (h : Working s d 65 q) (hv : dividend d < d.divisor.toNat * 2 ^ 64)

section

include h hv

theorem Working.result_toNat :
    s.result.toNat =
      if d.isModulus then dividend d % d.divisor.toNat else dividend d / d.divisor.toNat := by
  have hd := d.divisor.isLt
  rw [result, h.isModulus]
  split
  · have hrem := (h.value hv).remainder
    have hlt := Nat.mod_lt (dividend d) (y := d.divisor.toNat) (by omega)
    rw [toNat_extract, hrem]
    omega
  · have hquot := (h.value hv).quotient
    have hlt : dividend d / d.divisor.toNat < 2 ^ 64 := Nat.div_lt_of_lt_mul hv
    rw [h.quot, hquot]
    omega

theorem Working.sresult_toInt : s.sresult.toInt = signed d := by
  have hr := h.result_toNat hv
  have hlt := s.result.isLt
  have hext : (s.result.zeroExtend 65).toNat = s.result.toNat := by
    rw [BitVec.zeroExtend, BitVec.toNat_setWidth]
    omega
  rw [signed, ← hr, sresult, h.negResult]
  split
  · rw [BitVec.toInt_eq_toNat_cond, BitVec.toNat_neg, hext]
    split <;> omega
  · rw [BitVec.toInt_eq_toNat_cond, hext]
    split <;> omega

theorem Working.ovf32_eq : s.ovf32 = decide (2 ^ 32 ≤ dividend d / d.divisor.toNat) := by
  rw [h.ovf32, (h.value hv).quotient]

theorem Working.overflow_eq : s.overflow = false := by
  have hlt : dividend d / d.divisor.toNat < 2 ^ 64 := Nat.div_lt_of_lt_mul hv
  rw [h.overflow rfl, (h.value hv).quotient, decide_eq_false_iff_not]
  omega

end

/-- Two neighbouring bits differ if the value does not fit in the bits up to the lower one. -/
theorem getLsbD_ne_iff {y : BitVec 65} {j : ℕ} (hj : j = 63 ∨ j = 31)
    (hy : -2 ^ (j + 1) ≤ y.toInt ∧ y.toInt < 2 ^ (j + 1)) :
    y.getLsbD (j + 1) ≠ y.getLsbD j ↔ ¬ (-2 ^ j ≤ y.toInt ∧ y.toInt < 2 ^ j) := by
  have hlt := y.isLt
  rw [getLsbD_eq, getLsbD_eq, ne_eq, decide_eq_decide]
  rw [BitVec.toInt_eq_toNat_cond] at hy ⊢
  rcases hj with rfl | rfl <;> split <;> omega

theorem extract_eq_ofInt {y : BitVec 65} {n : ℕ} (hn : n = 64 ∨ n = 32) :
    y.extractLsb' 0 n = BitVec.ofInt n y.toInt := by
  have hlt := y.isLt
  refine BitVec.eq_of_toNat_eq ?_
  rw [toNat_extract, BitVec.toNat_ofInt, BitVec.toInt_eq_toNat_cond]
  rcases hn with rfl | rfl <;> split <;> omega

include h hv in
/-- The overflow of a quotient that has at most 64 bits. -/
theorem Working.didOvf_iff (h32 : d.is32bit = true → d.divisor.toNat < 2 ^ 32) :
    s.didOvf = true ↔
      if d.is32bit then
        2 ^ 32 ≤ dividend d / d.divisor.toNat ∨
          d.isSigned = true ∧ ¬ (-2 ^ 31 ≤ signed d ∧ signed d < 2 ^ 31)
      else d.isSigned = true ∧ ¬ (-2 ^ 63 ≤ signed d ∧ signed d < 2 ^ 63) := by
  have hx := h.sresult_toInt hv
  have habs : (signed d).natAbs =
      if d.isModulus then dividend d % d.divisor.toNat else dividend d / d.divisor.toNat := by
    have hsign : (if d.negResult then -1 else 1 : ℤ).natAbs = 1 := by split <;> rfl
    rw [signed, Int.natAbs_mul, Int.natAbs_natCast, hsign, one_mul]
  rw [didOvf, h.is32bit, h.isSigned, h.overflow_eq hv, h.ovf32_eq hv]
  cases hw : d.is32bit with
  | false =>
    have hq : dividend d / d.divisor.toNat < 2 ^ 64 := Nat.div_lt_of_lt_mul hv
    have hr := Nat.mod_lt (dividend d) (y := d.divisor.toNat) (by omega)
    have hd := d.divisor.isLt
    have hlt : (signed d).natAbs < 2 ^ 64 := by
      rw [habs]
      split <;> omega
    have htop := getLsbD_ne_iff (y := s.sresult) (j := 63) (.inl rfl) (by rw [hx]; omega)
    rw [hx] at htop
    simp only [Bool.not_false, if_true, Bool.false_or, Bool.and_eq_true, Bool.false_eq_true,
      if_false, ← htop, Bool.xor_iff_ne]
  | true =>
    have hd := h32 hw
    cases hs : d.isSigned with
    | false => simp
    | true =>
      simp only [Bool.not_true, Bool.false_eq_true, if_false, if_true, Bool.or_eq_true,
        decide_eq_true_eq, bne_iff_ne, true_and]
      by_cases hq : 2 ^ 32 ≤ dividend d / d.divisor.toNat
      · exact iff_of_true (.inl hq) (.inl hq)
      · have hr := Nat.mod_lt (dividend d) (y := d.divisor.toNat) (by omega)
        have hlt : (signed d).natAbs < 2 ^ 32 := by
          rw [habs]
          split <;> omega
        have htop := getLsbD_ne_iff (y := s.sresult) (j := 31) (.inr rfl) (by rw [hx]; omega)
        rw [hx] at htop
        rw [← htop]

end Divider

/-! ### What a division gives -/

namespace Division

def width (is32bit : Bool) : ℕ := if is32bit then 32 else 64

/-- An operand as a number. -/
def operand (is32bit isSigned : Bool) (x : BitVec 64) : ℤ :=
  let low := x.setWidth (width is32bit)
  if isSigned then low.toInt else low.toNat

/-- The number that is divided. -/
def dividend (op : InsnType) (is32bit isSigned : Bool) (x : BitVec 64) : ℤ :=
  if op = .dive then operand is32bit isSigned x * 2 ^ width is32bit else operand is32bit isSigned x

/-- The quotient can be represented. -/
def Fits (is32bit isSigned : Bool) (q : ℤ) : Prop :=
  if isSigned then -2 ^ (width is32bit - 1) ≤ q ∧ q < 2 ^ (width is32bit - 1)
  else 0 ≤ q ∧ q < 2 ^ width is32bit

instance (is32bit isSigned : Bool) (q : ℤ) : Decidable (Fits is32bit isSigned q) := by
  unfold Fits
  infer_instance

/-- There is no result: the divisor is zero or the quotient does not fit. -/
def Overflows (op : InsnType) (is32bit isSigned : Bool) (x y : BitVec 64) : Prop :=
  operand is32bit isSigned y = 0 ∨
    op ≠ .mod ∧ ¬ Fits is32bit isSigned
      ((dividend op is32bit isSigned x).tdiv (operand is32bit isSigned y))

instance (op : InsnType) (is32bit isSigned : Bool) (x y : BitVec 64) :
    Decidable (Overflows op is32bit isSigned x y) :=
  inferInstanceAs (Decidable (_ ∨ _))

/-- The result: the remainder with the sign of the dividend, or the quotient truncated towards
zero, to which zeroes are added on the left. -/
def answer (op : InsnType) (is32bit isSigned : Bool) (x y : BitVec 64) : BitVec 64 :=
  let a := dividend op is32bit isSigned x
  let b := operand is32bit isSigned y
  if op = .mod then BitVec.ofInt 64 (a.tmod b)
  else (BitVec.ofInt (width is32bit) (a.tdiv b)).setWidth 64

/-! ### The operands -/

/-- A number is its absolute value with a sign. -/
theorem eq_sign_natAbs (a : ℤ) : a = (if decide (a < 0) then -1 else 1) * (a.natAbs : ℤ) := by
  by_cases ha : a < 0
  · rw [if_pos (by simpa using ha)]
    omega
  · rw [if_neg (by simpa using ha)]
    omega

/-- The quotient of the absolute values, with its sign. -/
theorem tdiv_eq (a b : ℤ) :
    a.tdiv b = (if decide (a < 0) ^^ decide (b < 0) then -1 else 1) *
      (a.natAbs / b.natAbs : ℕ) := by
  conv_lhs => rw [eq_sign_natAbs a, eq_sign_natAbs b]
  rw [Int.ofNat_tdiv]
  cases decide (a < 0) <;> cases decide (b < 0) <;> simp [Int.neg_tdiv, Int.tdiv_neg]

/-- The remainder of the absolute values, with the sign of the dividend. -/
theorem tmod_eq (a b : ℤ) :
    a.tmod b = (if decide (a < 0) then -1 else 1) * (a.natAbs % b.natAbs : ℕ) := by
  conv_lhs => rw [eq_sign_natAbs a, eq_sign_natAbs b]
  rw [Int.ofNat_tmod]
  cases decide (a < 0) <;> cases decide (b < 0) <;> simp [Int.neg_tmod, Int.tmod_neg]

theorem sign_eq (is32bit isSigned : Bool) (x : BitVec 64) :
    (isSigned && x.getLsbD (if is32bit then 31 else 63)) =
      decide (operand is32bit isSigned x < 0) := by
  have hx := x.isLt
  rw [getLsbD_eq, Bool.eq_iff_iff, Bool.and_eq_true, decide_eq_true_eq, decide_eq_true_eq]
  cases is32bit <;> cases isSigned <;>
    simp only [operand, width, BitVec.toInt_eq_toNat_cond, BitVec.toNat_setWidth, if_true,
      Bool.false_eq_true, if_false, false_and, true_and, false_iff, not_lt] <;> omega

/-- The absolute value that goes to the divider. -/
theorem toNat_abs (is32bit isSigned : Bool) (x : BitVec 64) :
    ((if decide (operand is32bit isSigned x < 0) then -x else x).toNat % 2 ^ width is32bit) =
      (operand is32bit isSigned x).natAbs := by
  have hx := x.isLt
  rw [apply_ite BitVec.toNat, BitVec.toNat_neg]
  cases is32bit <;> cases isSigned <;>
    simp only [operand, width, BitVec.toInt_eq_toNat_cond, BitVec.toNat_setWidth, if_true,
      Bool.false_eq_true, if_false, decide_eq_true_eq] <;> split_ifs <;> omega

section Instruction

variable {e : Decode2ToExecute1} {v f : Bool}

theorem divisor_eq : (xToDivider e v f).divisor.toNat =
    (operand e.is32bit e.isSigned e.readData2).natAbs := by
  rw [← toNat_abs, ← sign_eq]
  cases h : e.is32bit with
  | false =>
    simp only [xToDivider, h, width]
    exact (Nat.mod_eq_of_lt (BitVec.isLt _)).symm
  | true =>
    simp only [xToDivider, h, width]
    refine (toNat_append 0#32 _).trans ?_
    rw [toNat_extract]
    simp

theorem dividend_eq : Divider.dividend (xToDivider e v f) =
    (dividend e.insnType e.is32bit e.isSigned e.readData1).natAbs := by
  have habs := toNat_abs e.is32bit e.isSigned e.readData1
  rw [← sign_eq] at habs
  have hdiv : (dividend e.insnType e.is32bit e.isSigned e.readData1).natAbs =
      (operand e.is32bit e.isSigned e.readData1).natAbs *
        if e.insnType = .dive then 2 ^ width e.is32bit else 1 := by
    rw [dividend]
    split <;> simp [Int.natAbs_mul, Int.natAbs_pow]
  rw [hdiv, ← habs]
  cases h : e.is32bit with
  | false =>
    simp only [Divider.dividend, xToDivider, h, width, Bool.not_false, Bool.true_and,
      Bool.false_eq_true, if_false, if_true, beq_iff_eq]
    rw [Nat.mod_eq_of_lt (BitVec.isLt _), mul_ite, mul_one]
  | true =>
    by_cases hd : e.insnType = .dive
    · simp only [Divider.dividend, xToDivider, h, width, hd]
      refine (toNat_append _ 0#32).trans ?_
      rw [toNat_extract]
      simp
    · simp only [Divider.dividend, xToDivider, h, width, beq_eq_false_iff_ne.mpr hd]
      refine (toNat_append 0#32 _).trans ?_
      rw [toNat_extract]
      simp [hd]

theorem signed_eq : signed (xToDivider e v f) =
    if e.insnType = .mod then
      (dividend e.insnType e.is32bit e.isSigned e.readData1).tmod
        (operand e.is32bit e.isSigned e.readData2)
    else
      (dividend e.insnType e.is32bit e.isSigned e.readData1).tdiv
        (operand e.is32bit e.isSigned e.readData2) := by
  have hneg : decide (dividend e.insnType e.is32bit e.isSigned e.readData1 < 0) =
      decide (operand e.is32bit e.isSigned e.readData1 < 0) := by
    rw [decide_eq_decide, dividend]
    split
    · have hpos : (0 : ℤ) < 2 ^ width e.is32bit := by positivity
      constructor
      · exact fun h => neg_of_mul_neg_left h hpos.le
      · exact fun h => mul_neg_of_neg_of_pos h hpos
    · rfl
  rw [signed, dividend_eq, divisor_eq, tmod_eq, tdiv_eq, hneg, ← sign_eq, ← sign_eq]
  by_cases hm : e.insnType = .mod
  · simp [xToDivider, hm]
  · simp only [xToDivider, beq_eq_false_iff_ne.mpr hm, bne_iff_ne.mpr hm, Bool.and_true,
      Bool.false_eq_true, if_false, hm]

theorem natAbs_operand_lt (is32bit isSigned : Bool) (x : BitVec 64) :
    (operand is32bit isSigned x).natAbs < 2 ^ width is32bit := by
  rw [← toNat_abs]
  exact Nat.mod_lt _ (by positivity)

theorem natAbs_operand_le (is32bit : Bool) (x : BitVec 64) :
    (operand is32bit true x).natAbs ≤ 2 ^ (width is32bit - 1) := by
  have hx := x.isLt
  cases is32bit <;>
    simp only [operand, width, BitVec.toInt_eq_toNat_cond, BitVec.toNat_setWidth, if_true,
      Bool.false_eq_true, if_false] <;> omega

theorem operand_nonneg (is32bit : Bool) (x : BitVec 64) : 0 ≤ operand is32bit false x :=
  Int.natCast_nonneg _

theorem natAbs_lt_of_fits {is32bit isSigned : Bool} {z : ℤ} (h : Fits is32bit isSigned z) :
    z.natAbs < 2 ^ 64 := by
  cases is32bit <;> cases isSigned <;> simp only [Fits, width, if_true, Bool.false_eq_true,
    if_false] at h <;> omega

/-- A quotient of more than 64 bits. -/
theorem overflows_of_large
    (hl : (xToDivider e v f).divisor.toNat * 2 ^ 64 ≤ Divider.dividend (xToDivider e v f)) :
    Overflows e.insnType e.is32bit e.isSigned e.readData1 e.readData2 := by
  rw [dividend_eq, divisor_eq] at hl
  by_cases hz : operand e.is32bit e.isSigned e.readData2 = 0
  · exact .inl hz
  · have hpos : 0 < (operand e.is32bit e.isSigned e.readData2).natAbs := by omega
    refine .inr ⟨fun hm => ?_, fun hfits => ?_⟩
    · -- the dividend of `mod` is not extended
      have hlt := natAbs_operand_lt e.is32bit e.isSigned e.readData1
      have hw : 2 ^ width e.is32bit ≤ 2 ^ 64 :=
        Nat.pow_le_pow_right (by omega) (by unfold width; split <;> omega)
      rw [dividend, if_neg (by simp [hm])] at hl
      omega
    · have hlt := natAbs_lt_of_fits hfits
      rw [Int.natAbs_tdiv] at hlt
      have hge := (Nat.le_div_iff_mul_le hpos).mpr ((mul_comm _ _).trans_le hl)
      exact absurd hge (not_le.mpr hlt)

/-- The condition under which the divider reports an overflow of a quotient of at most 64 bits:
`n` is the absolute value of the quotient and `z` the result with its sign. -/
def Reported (is32bit isSigned : Bool) (n : ℕ) (z : ℤ) : Prop :=
  if is32bit then 2 ^ 32 ≤ n ∨ isSigned = true ∧ ¬ (-2 ^ 31 ≤ z ∧ z < 2 ^ 31)
  else isSigned = true ∧ ¬ (-2 ^ 63 ≤ z ∧ z < 2 ^ 63)

theorem reported_tdiv {is32bit isSigned : Bool} {a b : ℤ} (hlt : a.natAbs < b.natAbs * 2 ^ 64)
    (hsign : isSigned = false → 0 ≤ a ∧ 0 ≤ b) :
    Reported is32bit isSigned (a.natAbs / b.natAbs) (a.tdiv b) ↔
      ¬ Fits is32bit isSigned (a.tdiv b) := by
  have habs : (a.tdiv b).natAbs = a.natAbs / b.natAbs := Int.natAbs_tdiv a b
  have hq : a.natAbs / b.natAbs < 2 ^ 64 := Nat.div_lt_of_lt_mul hlt
  have hnn : isSigned = false → 0 ≤ a.tdiv b := fun hs =>
    Int.tdiv_nonneg (hsign hs).1 (hsign hs).2
  rw [← habs] at hq ⊢
  cases is32bit <;> cases isSigned <;>
    simp only [Reported, Fits, width, if_true, Bool.false_eq_true, if_false, forall_const,
      false_and, or_false, true_and, false_iff, not_not] at hnn ⊢ <;> omega

theorem not_reported_tmod {is32bit isSigned : Bool} {a b : ℤ} (hb : b ≠ 0)
    (hlt : a.natAbs < 2 ^ width is32bit)
    (hle : isSigned = true → b.natAbs ≤ 2 ^ (width is32bit - 1)) :
    ¬ Reported is32bit isSigned (a.natAbs / b.natAbs) (a.tmod b) := by
  have habs : (a.tmod b).natAbs = a.natAbs % b.natAbs := Int.natAbs_tmod a b
  have hr := Nat.mod_lt a.natAbs (y := b.natAbs) (by omega)
  have hq := Nat.div_le_self a.natAbs b.natAbs
  cases is32bit <;> cases isSigned <;>
    simp only [Reported, width, if_true, Bool.false_eq_true, if_false, forall_const,
      false_and, or_false, true_and, not_false_eq_true] at hlt hle ⊢ <;> omega

/-- **The result of an instruction.** -/
theorem of_working {s : Divider} {q : ℕ} (h : s.Working (xToDivider e v f) 65 q) :
    (s.didOvf = true ↔ Overflows e.insnType e.is32bit e.isSigned e.readData1 e.readData2) ∧
      (s.didOvf = false →
        s.oresult = answer e.insnType e.is32bit e.isSigned e.readData1 e.readData2) := by
  by_cases hv : Divider.dividend (xToDivider e v f) <
      (xToDivider e v f).divisor.toNat * 2 ^ 64
  · have hrep : s.didOvf = true ↔ Reported e.is32bit e.isSigned _ _ :=
      h.didOvf_iff hv fun h32 => by
        rw [divisor_eq, show e.is32bit = true from h32]
        exact natAbs_operand_lt true e.isSigned e.readData2
    have hint := h.sresult_toInt hv
    rw [dividend_eq, divisor_eq] at hv
    rw [dividend_eq, divisor_eq, signed_eq] at hrep
    rw [signed_eq] at hint
    have hz : operand e.is32bit e.isSigned e.readData2 ≠ 0 := fun hz => by simp [hz] at hv
    by_cases hm : e.insnType = .mod
    · rw [if_pos hm] at hrep hint
      have hdend : dividend e.insnType e.is32bit e.isSigned e.readData1 =
          operand e.is32bit e.isSigned e.readData1 := if_neg (by simp [hm])
      have hno : s.didOvf = false := by
        rw [Bool.eq_false_iff, ne_eq, hrep, hdend]
        exact not_reported_tmod hz (natAbs_operand_lt ..) fun hs => hs ▸ natAbs_operand_le ..
      refine ⟨iff_of_false (by simp [hno]) fun ho => ho.elim hz fun ho => ho.1 hm, fun _ => ?_⟩
      have hsel : s.isModulus = true := h.isModulus.trans (by simp [xToDivider, hm])
      simp [oresult, answer, hno, hsel, hm, extract_eq_ofInt, hint]
    · rw [if_neg hm] at hrep hint
      have hsign : e.isSigned = false →
          0 ≤ dividend e.insnType e.is32bit e.isSigned e.readData1 ∧
            0 ≤ operand e.is32bit e.isSigned e.readData2 := by
        intro hs
        rw [hs, dividend]
        have := operand_nonneg e.is32bit e.readData1
        exact ⟨by split <;> positivity, operand_nonneg ..⟩
      rw [reported_tdiv hv hsign] at hrep
      refine ⟨hrep.trans ⟨fun ho => .inr ⟨hm, ho⟩, fun ho => ho.elim (absurd · hz) And.right⟩,
        fun hno => ?_⟩
      have hsel : s.isModulus = false := h.isModulus.trans (by simp [xToDivider, hm])
      have hwidth : s.is32bit = e.is32bit := h.is32bit
      cases hw : e.is32bit <;> rw [hw] at hint hwidth <;>
        simp [oresult, answer, hno, hsel, hm, hwidth, width, extract_eq_ofInt, hint]
  · have hl := overflows_of_large (not_lt.mp hv)
    have hov := h.didOvf_of_large (not_lt.mp hv)
    exact ⟨iff_of_true hov hl, fun hno => absurd hov (by simp [hno])⟩

end Instruction

/-- What an instruction divides. -/
structure Form where
  op : InsnType
  is32bit : Bool
  isSigned : Bool
  deriving DecidableEq, Repr

def form : InsnCode → Option Form
  | .divd => some ⟨.div, false, true⟩
  | .divdu => some ⟨.div, false, false⟩
  | .divde => some ⟨.dive, false, true⟩
  | .divdeu => some ⟨.dive, false, false⟩
  | .divw => some ⟨.div, true, true⟩
  | .divwu => some ⟨.div, true, false⟩
  | .divwe => some ⟨.dive, true, true⟩
  | .divweu => some ⟨.dive, true, false⟩
  | .modsd => some ⟨.mod, false, true⟩
  | .modud => some ⟨.mod, false, false⟩
  | .modsw => some ⟨.mod, true, true⟩
  | .moduw => some ⟨.mod, true, false⟩
  | _ => none

theorem row_form (code : InsnCode) : ∀ k ∈ form code,
    (decodeRom false code).insnType = k.op ∧ (decodeRom false code).is32bit = k.is32bit ∧
      (decodeRom false code).isSigned = k.isSigned := by
  revert code
  refine InsnCode.forall_code ?_
  decide +kernel

end Division

/-! ### Runs -/

namespace Divider

/-- The divider, and whether a division is under way. -/
structure Tracked where
  unit : Divider := {}
  atWork : Bool := false

/-- A division is under way until the result has been presented. -/
def trackedStep (t : Tracked) (i : Inputs) : Tracked where
  unit := t.unit.step i
  atWork := !(i.rst || i.d.flush) && (i.d.valid || t.atWork && !t.unit.dOut.valid)

/-- Execute1 begins a division only when none is under way. -/
def Env (t : Tracked) (i : Inputs) : Prop := i.d.valid = true → t.atWork = false

instance (t : Tracked) (i : Inputs) : Decidable (Env t i) := inferInstanceAs (Decidable (_ → _))

structure Start (t : Tracked) : Prop where
  reset : ∃ s i, i.rst = true ∧ t.unit = Divider.step s i
  atWork : t.atWork = false

/-- Nothing goes on in the divider. -/
structure Idle (s : Divider) : Prop where
  running : s.running = false
  count : s.count = 0

/-- Without a division the divider is idle; with one, it is at work or presents the result. -/
structure WorkInv (t : Tracked) : Prop where
  idle : t.atWork = false → Idle t.unit
  busy : t.atWork = true →
    ((∃ d k q, Working t.unit d k q) ∧ t.unit.dOut.valid = false) ∨
      Idle t.unit ∧ t.unit.dOut.valid = true

variable {s : Divider} {d : Execute1ToDivider} {k q : ℕ} {i : Inputs} {t : Tracked}

theorem Working.count_ne (h : Working s d k q) (hk : k < 65) : s.count ≠ 0b1000000 := by
  have hc := h.count
  intro heq
  rw [heq, show (0b1000000 : BitVec 7).toNat = 64 from rfl] at hc
  omega

theorem Working.count_eq (h : Working s d 65 q) : s.count = 0b1000000 :=
  BitVec.eq_of_toNat_eq h.count

theorem Working.of_coreNext (h : Working (s.coreNext i) d k q) : Working (s.step i) d k q :=
  ⟨h.le, h.running, h.count, h.div, h.negResult, h.isModulus, h.is32bit, h.isSigned, h.quot, h.bits,
    h.ovf32, h.value, h.first, h.large, h.overflow⟩

theorem dOut_step (s : Divider) (i : Inputs) : (s.step i).dOut = s.dOutNext := rfl

/-- Nothing comes from execute1. -/
structure Quiet (i : Inputs) : Prop where
  rst : i.rst = false
  flush : i.d.flush = false
  valid : i.d.valid = false

theorem Working.step (h : Working s d k q) (hk : k < 65) (hi : Quiet i) :
    ∃ k' q', k < k' ∧ Working (s.step i) d k' q' := by
  obtain ⟨k', q', hlt, hw⟩ := h.iterate hk
  refine ⟨k', q', hlt, .of_coreNext ?_⟩
  have hrun : s.running = true := by rw [h.running, decide_eq_true hk]
  simpa [coreNext, hi.rst, hi.flush, hi.valid, hrun] using hw

theorem Working.finish (h : Working s d 65 q) (hi : Quiet i) :
    Idle (s.step i) ∧ (s.step i).dOut.valid = true := by
  have hrun : s.running = false := h.running
  refine ⟨⟨?_, ?_⟩, ?_⟩
  · simp [Divider.step, coreNext, hi.rst, hi.flush, hi.valid, hrun]
  · simp [Divider.step, coreNext, hi.rst, hi.flush, hi.valid, hrun]
  · rw [dOut_step, dOutNext, h.count_eq]
    rfl

theorem Idle.step (h : Idle s) (hi : Quiet i) : Idle (s.step i) := by
  constructor
  · simp [Divider.step, coreNext, hi.rst, hi.flush, hi.valid, h.running]
  · simp [Divider.step, coreNext, hi.rst, hi.flush, hi.valid, h.running]

theorem idle_of_clear (h : (i.rst || i.d.flush) = true) : Idle (s.step i) := by
  constructor
  · simp [Divider.step, coreNext, h, clear]
  · simp [Divider.step, coreNext, h, clear]

theorem not_valid_of_idle (h : Idle s) (i : Inputs) : (s.step i).dOut.valid = false := by
  rw [dOut_step, dOutNext, h.count]
  rfl

theorem working_step_load (hv : d.valid = true) (hf : d.flush = false) :
    Working (s.step { d := d }) d 0 0 :=
  .of_coreNext (by simpa [coreNext, hv, hf] using working_load s d)

theorem WorkInv.init (h : Start t) : WorkInv t := by
  obtain ⟨s, i, hrst, heq⟩ := h.reset
  refine ⟨fun _ => heq ▸ idle_of_clear (by simp [hrst]), fun hw => ?_⟩
  rw [h.atWork] at hw
  cases hw

theorem WorkInv.step (h : WorkInv t) (henv : Env t i) : WorkInv (trackedStep t i) := by
  cases hclear : i.rst || i.d.flush with
  | true =>
    refine ⟨fun _ => idle_of_clear hclear, fun hw => ?_⟩
    simp [trackedStep, hclear] at hw
  | false =>
    obtain ⟨hrst, hflush⟩ := Bool.or_eq_false_iff.mp hclear
    cases hv : i.d.valid with
    | true =>
      refine ⟨fun hw => by simp [trackedStep, hclear, hv] at hw,
        fun _ => .inl ⟨⟨i.d, 0, 0, ?_⟩, ?_⟩⟩
      · exact .of_coreNext (by simpa [coreNext, hclear, hv] using working_load t.unit i.d)
      · exact not_valid_of_idle (h.idle (henv hv)) i
    | false =>
      have hq : Quiet i := ⟨hrst, hflush, hv⟩
      have hnext : (trackedStep t i).atWork = (t.atWork && !t.unit.dOut.valid) := by
        simp [trackedStep, hclear, hv]
      cases hw : t.atWork with
      | false =>
        rw [hw, Bool.false_and] at hnext
        exact ⟨fun _ => (h.idle hw).step hq, fun hw' => by simp [hnext] at hw'⟩
      | true =>
        rcases h.busy hw with ⟨⟨d, k, q, hwork⟩, hno⟩ | ⟨hidle, hyes⟩
        · refine ⟨fun hw' => by simp [hnext, hw, hno] at hw', fun _ => ?_⟩
          rcases Nat.lt_or_ge k 65 with hk | hk
          · obtain ⟨k', q', -, hnew⟩ := hwork.step hk hq
            refine .inl ⟨⟨d, k', q', hnew⟩, ?_⟩
            simpa [trackedStep, dOut_step, dOutNext] using hwork.count_ne hk
          · obtain rfl : k = 65 := Nat.le_antisymm hwork.le hk
            exact .inr (hwork.finish hq)
        · exact ⟨fun _ => hidle.step hq, fun hw' => by simp [hnext, hyes] at hw'⟩

theorem workInv_of_reachable (h : Reachable trackedStep Env Start t) : WorkInv t :=
  h.induct (fun _ => WorkInv.init) fun _ _ hi he => hi.step he

theorem Working.until_end {tr : ℕ → Divider} {is : ℕ → Inputs}
    (htr : ∀ u, tr (u + 1) = (tr u).step (is u)) (n : ℕ) :
    ∀ {u k q : ℕ}, Working (tr u) d k q → 65 - k ≤ n → (∀ v, u ≤ v → Quiet (is v)) →
      ∃ m q', m ≤ n ∧ Working (tr (u + m)) d 65 q' ∧
        ∀ v, u < v → v ≤ u + m → (tr v).dOut.valid = false := by
  -- by induction on the number of steps that may be left
  induction n with
  | zero =>
    intro u k q h hk _
    obtain rfl : k = 65 := by have := h.le; omega
    exact ⟨0, q, le_rfl, h, fun v h1 h2 => by omega⟩
  | succ n ih =>
    intro u k q h hn hquiet
    rcases Nat.lt_or_ge k 65 with hk | hk
    · obtain ⟨k', q', hlt, hnext⟩ := h.step hk (hquiet u le_rfl)
      rw [← htr] at hnext
      obtain ⟨m, q'', hm, hend, hno⟩ := ih hnext (by omega) fun v hv => hquiet v (by omega)
      refine ⟨m + 1, q'', by omega, by rwa [Nat.add_right_comm, Nat.add_assoc] at hend, ?_⟩
      intro v h1 h2
      rcases Nat.eq_or_lt_of_le (Nat.succ_le_of_lt h1) with rfl | h1
      · rw [Nat.succ_eq_add_one, htr, dOut_step]
        simpa [dOutNext] using h.count_ne hk
      · exact hno v h1 (by omega)
    · obtain rfl : k = 65 := Nat.le_antisymm h.le hk
      exact ⟨0, q, by omega, h, fun v h1 h2 => by omega⟩

/-- **Division.** From every reachable state in which no division is under way, execute1 begins one
of the division instructions, and then leaves the divider alone. After at most 67 cycles the divider
presents its result, for the first time: an overflow and 0 if the divisor is zero or the quotient
does not fit, and otherwise the quotient or the remainder. -/
theorem division {t : Tracked} (h : Reachable trackedStep Env Start t) (hidle : t.atWork = false)
    {code : InsnCode} {k : Division.Form} (hk : Division.form code = some k) {e : Decode2ToExecute1}
    (hop : e.insnType = (decodeRom false code).insnType)
    (h32 : e.is32bit = (decodeRom false code).is32bit)
    (hsigned : e.isSigned = (decodeRom false code).isSigned) {is : ℕ → Inputs}
    (hstart : is 0 = { d := xToDivider e true false }) (hquiet : ∀ u, 0 < u → Quiet (is u)) :
    let out := fun u => (trace Divider.step t.unit is u).dOut
    ∃ n, 0 < n ∧ n ≤ 67 ∧ (∀ u, 0 < u → u < n → (out u).valid = false) ∧ (out n).valid = true ∧
      ((out n).overflow = true ↔
        Division.Overflows k.op k.is32bit k.isSigned e.readData1 e.readData2) ∧
      (out n).writeRegData =
        if Division.Overflows k.op k.is32bit k.isSigned e.readData1 e.readData2 then 0
        else Division.answer k.op k.is32bit k.isSigned e.readData1 e.readData2 := by
  intro out
  obtain ⟨hop', h32', hsigned'⟩ := Division.row_form code k hk
  have hfirst : Working (trace Divider.step t.unit is 1)
      (xToDivider e true false) 0 0 := by
    rw [trace_succ, trace_zero, hstart]
    exact working_step_load rfl rfl
  obtain ⟨m, q, hm, hend, hno⟩ := Working.until_end (fun u => trace_succ ..) 65 hfirst
    (by omega) fun v hv => hquiet v (by omega)
  have hlast : out (1 + m + 1) = (trace Divider.step t.unit is (1 + m)).dOutNext := by
    show (trace Divider.step t.unit is (1 + m + 1)).dOut = _
    rw [trace_succ, dOut_step]
  obtain ⟨hov, hres⟩ := Division.of_working hend
  rw [hop, hop', h32, h32', hsigned, hsigned'] at hov hres
  refine ⟨1 + m + 1, by omega, by omega, fun u h1 h2 => ?_, ?_, ?_, ?_⟩
  · rcases Nat.eq_or_lt_of_le (Nat.succ_le_of_lt h1) with rfl | h1
    · exact not_valid_of_idle ((workInv_of_reachable h).idle hidle) _
    · exact hno u h1 (by omega)
  · rw [hlast, dOutNext, hend.count_eq]
    rfl
  · rw [hlast]
    exact hov
  · rw [hlast, dOutNext]
    by_cases ho : Division.Overflows k.op k.is32bit k.isSigned e.readData1 e.readData2
    · rw [if_pos ho]
      simp [oresult, hov.mpr ho]
    · rw [if_neg ho]
      exact hres (Bool.eq_false_iff.mpr fun hd => ho (hov.mp hd))

def dividerReset : Tracked := ⟨Divider.step {} { rst := true }, false⟩

theorem start_dividerReset : Start dividerReset := ⟨⟨{}, { rst := true }, rfl, rfl⟩, rfl⟩

/-- `divw` with the operands -7 and 2. -/
def divwInsn : Decode2ToExecute1 where
  insnType := .div
  is32bit := true
  isSigned := true
  readData1 := BitVec.ofInt 64 (-7)
  readData2 := 2

/-- The instruction in the first cycle, and then nothing. -/
def divwInputs : ℕ → Inputs
  | 0 => { d := xToDivider divwInsn true false }
  | _ + 1 => {}

/-- -7 divided by 2 is -3, in the lower word. -/
theorem division_divw :
    let out := fun n => (trace Divider.step dividerReset.unit divwInputs n).dOut
    ∃ n, (out n).valid = true ∧ (out n).overflow = false ∧ (out n).writeRegData = 0xfffffffd := by
  intro out
  obtain ⟨n, -, -, -, hvalid, hov, hdata⟩ :=
    division (t := dividerReset) (.start start_dividerReset) rfl
      (show Division.form .divw = some _ from rfl) (e := divwInsn) rfl rfl rfl
      (show divwInputs 0 = _ from rfl) fun u hu => by
        obtain ⟨m, rfl⟩ := Nat.exists_eq_succ_of_ne_zero hu.ne'
        exact ⟨rfl, rfl, rfl⟩
  have hno : ¬ Division.Overflows .div true true divwInsn.readData1 divwInsn.readData2 := by decide
  rw [if_neg hno] at hdata
  exact ⟨n, hvalid, Bool.eq_false_iff.mpr fun h => hno (hov.mp h), hdata.trans (by decide)⟩

end Divider

end Microwatt
