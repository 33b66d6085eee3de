import Microwatt.Decode.Sprs
import Microwatt.Execute.Flush
import Microwatt.Lib.Bits

/-!
# The time base

`tbase` counts clock cycles in 64 bits, in two halves. The carry from the lower half to the upper
one is computed a cycle early, when the lower half is all ones, and a `mtspr` writes one half at a
time. Software sees the counter through four SPR numbers: TB and TBU can be read, TBLW and TBUW can
be written.

What it should be is a counter of its own, `TbTracked.count`, which is replaced half by half when a
`mtspr` completes. The half that is written does not advance in that cycle, so no carry comes from a
lower half that is replaced. A `mtspr` that is in the first stage is remembered in
`TbTracked.first` until it goes to the second, which makes it act once.

There is one flaw. `map_spr` gives TBUW the selector of TB instead of that of TBU, so a `mtspr` to
TBUW replaces the lower half. Nothing sets the strobe for the upper half.

## Main results

* `Execute1.TbInv.step`
* `Execute1.timebase_counts` — what `mfspr` of TB and TBU returns, if TBUW is not written
* `Execute1.timebase_counts_fails`
-/

namespace Microwatt

open Clocked

namespace Execute1

variable {g : Generics}

/-! ### The registers -/

/-- `timebase_ctrl`, as far as it concerns execute1. -/
structure TimebaseCtrl where
  reset : Bool := false
  freeze : Bool := false
  deriving DecidableEq, Repr

/-- `timebase` and `tb_carry`. -/
structure TbReg where
  timebase : BitVec 64 := 0
  tbCarry : Bool := false
  deriving DecidableEq, Repr

/-- The half of a doubleword that is read as 31:0. -/
abbrev lowHalf (x : BitVec 64) : BitVec 32 := x.extractLsb' 0 32

/-- The half of a doubleword that is read as 63:32. -/
abbrev highHalf (x : BitVec 64) : BitVec 32 := x.extractLsb' 32 32

section

variable (s : State g) (i : Inputs) (c : TimebaseCtrl) (r : TbReg)

def tlo : BitVec 32 :=
  if does i s.ex1.se.writeTbl then lowHalf s.ex1.sprWriteData
  else if !c.freeze then lowHalf r.timebase + 1
  else lowHalf r.timebase

/-- `carry`. -/
def tbCarryIn : Bool :=
  !does i s.ex1.se.writeTbl && !c.freeze && r.tbCarry

def thi : BitVec 32 :=
  if does i s.ex1.se.writeTbu then lowHalf s.ex1.sprWriteData
  else highHalf r.timebase + BitVec.setWidth 32 (BitVec.ofBool (tbCarryIn s i c r))

def tbNext : BitVec 64 :=
  thi s i c r ++ tlo s i c r

def tbase : TbReg :=
  if c.reset then {}
  else
    { timebase := tbNext s i c r
      tbCarry := lowHalf (tbNext s i c r) == BitVec.allOnes 32 }

end

/-- `spr_result`: for the selectors of the time base; the other SPRs are left as they come. -/
def sprResult (s : State g) (r : TbReg) (other : BitVec 64) : BitVec 64 :=
  if s.ex1.sprSelect.sel = 1 then r.timebase
  else if s.ex1.sprSelect.sel = 2 then 0#32 ++ highHalf r.timebase
  else other

/-! ### With the counter it should be -/

/-- A move from or to a SPR in the first stage. -/
structure Move where
  op : InsnType
  sprn : BitVec 10
  data : BitVec 64
  deriving DecidableEq, Repr

/-- The unit with its time base, the move that is in the first stage, and the counter. -/
structure TbTracked (g : Generics) where
  unit : State g
  tb : TbReg
  first : Option Move
  count : BitVec 64

/-- What comes in: the inputs of execute1 and those of the time base. -/
structure TbCycle where
  i : Inputs := {}
  c : TimebaseCtrl := {}
  deriving DecidableEq, Repr

/-- The inputs of execute1, with the slow SPR read connected. -/
def TbTracked.inputs (t : TbTracked g) (c : TbCycle) : Inputs :=
  { c.i with dp := { c.i.dp with sprResult := sprResult t.unit t.tb c.i.dp.sprResult } }

def TbTracked.completes (t : TbTracked g) (c : TbCycle) : Option Move :=
  if (ex2in t.unit (t.inputs c)).e.valid then t.first else none

/-- SPR numbers. -/
abbrev sprTb : BitVec 10 := 268
abbrev sprTbu : BitVec 10 := 269
abbrev sprTblw : BitVec 10 := 284
abbrev sprTbuw : BitVec 10 := 285

/-- The counter after a cycle in which it is not written. -/
def advance (c : TimebaseCtrl) (count : BitVec 64) : BitVec 64 :=
  if c.freeze then count else count + 1

/-- The counter after a cycle in which `done` completes and it would have become `moved`. -/
def replaced (count moved : BitVec 64) (done : Option Move) : BitVec 64 :=
  match done with
  | some ⟨.mtspr, n, x⟩ =>
    if n = sprTblw then highHalf count ++ lowHalf x
    else if n = sprTbuw then lowHalf x ++ lowHalf moved
    else moved
  | _ => moved

def countNext (c : TimebaseCtrl) (done : Option Move) (count : BitVec 64) : BitVec 64 :=
  if c.reset then 0 else replaced count (advance c count) done

/-- One clock edge. A move leaves the first stage when it goes to the second, whether or not the
registers of the first stage are held. -/
def tbStep (t : TbTracked g) (c : TbCycle) : TbTracked g where
  unit := step t.unit (t.inputs c)
  tb := tbase t.unit (t.inputs c) c.c t.tb
  first :=
    if c.i.rst then none
    else if busyOut t.unit (t.inputs c) then
      if stage2Stall (t.inputs c) then t.first else none
    else if go t.unit (t.inputs c) then
      some ⟨c.i.e.insnType, decodeSprNum c.i.e.insn, c.i.e.readData3⟩
    else none
  count := countNext c.c (t.completes c) t.count

/-- What the other units promise. Decode2 decodes the number of a SPR right. No flush comes while
the bit sorter is at work. A move to the time base issues alone: while it is in the first stage
nothing older is there that could flush it, and execute1 waits only if its second stage does. -/
@[mk_iff]
structure TbEnv (t : TbTracked g) (c : TbCycle) : Prop where
  decoded : Decode2.SprDecoded c.i.e
  sorter : c.i.flushIn = true →
    (t.unit.ex1.bsortInProgress = true → t.unit.bsort.sd = true) ∧
    (t.unit.ex1.bpermInProgress = true → t.unit.bsort.bpDone = true)
  unflushed : t.unit.ex1.se.writeTbl = true → c.i.flushIn = false
  waits : t.unit.ex1.se.writeTbl = true → busyOut t.unit c.i = true → stage2Stall c.i = true

instance (t : TbTracked g) (c : TbCycle) : Decidable (TbEnv t c) :=
  decidable_of_iff _ (tbEnv_iff ..).symm

/-- The instruction is not a `mtspr` to TBUW. -/
def NotTbuw (c : TbCycle) : Prop :=
  c.i.e.insnType = .mtspr → decodeSprNum c.i.e.insn ≠ sprTbuw

instance (c : TbCycle) : Decidable (NotTbuw c) := inferInstanceAs (Decidable (_ → _))

/-- The state after a reset of the core and of the time base. -/
def tbStart (g : Generics) : TbTracked g where
  unit := step {} { rst := true }
  tb := {}
  first := none
  count := 0

/-! ### Halves -/

theorem add_one_halves (x : BitVec 64) :
    (highHalf x + BitVec.setWidth 32 (BitVec.ofBool (lowHalf x == BitVec.allOnes 32))) ++
      (lowHalf x + 1) = x + 1 := by
  have hx := x.isLt
  have hones : (lowHalf x == BitVec.allOnes 32) = decide (x.toNat % 2 ^ 32 = 2 ^ 32 - 1) := by
    rw [Bool.eq_iff_iff, beq_iff_eq, decide_eq_true_eq, ← BitVec.toNat_inj, Bits.toNat_extract,
      BitVec.toNat_allOnes, Nat.pow_zero, Nat.div_one]
  apply BitVec.eq_of_toNat_eq
  rw [hones, Bits.toNat_append, BitVec.toNat_add, BitVec.toNat_add, BitVec.toNat_add,
    Bits.toNat_extract, Bits.toNat_extract, BitVec.toNat_setWidth, BitVec.toNat_ofBool]
  have hone : (1 : BitVec 32).toNat = 1 := rfl
  have hone' : (1 : BitVec 64).toNat = 1 := rfl
  rw [hone, hone']
  by_cases h : x.toNat % 2 ^ 32 = 2 ^ 32 - 1
  · rw [decide_eq_true h, Bool.toNat_true]
    omega
  · rw [decide_eq_false h, Bool.toNat_false]
    omega

theorem halves (x : BitVec 64) : highHalf x ++ lowHalf x = x := by
  apply BitVec.eq_of_toNat_eq
  rw [Bits.toNat_append, Bits.toNat_extract, Bits.toNat_extract]
  have hx := x.isLt
  omega

/-! ### The invariant -/

/-- The registers of the first stage for a move that is not one to TBUW. -/
structure Held (s : State g) (m : Move) : Prop where
  strobe : s.ex1.se.writeTbl = decide (m.op = .mtspr ∧ m.sprn = sprTblw)
  written : s.ex1.se.writeTbl = true →
    s.ex1.sprWriteData = m.data ∧ s.ex1.e.valid = true ∧ s.ex1.busy = false
  notTbuw : m.op = .mtspr → m.sprn ≠ sprTbuw
  readTb : m.op = .mfspr → m.sprn = sprTb → s.ex1.res2Sel = 0b10 ∧ s.ex1.sprSelect.sel = 1
  readTbu : m.op = .mfspr → m.sprn = sprTbu → s.ex1.res2Sel = 0b10 ∧ s.ex1.sprSelect.sel = 2

structure TbInv (t : TbTracked g) : Prop where
  divider : t.unit.ex1.divInProgress = true → g.hasFpu = false
  busy : t.unit.ex1.busy.toNat = waiting t.unit.ex1
  upper : t.unit.ex1.se.writeTbu = false
  empty : t.first = none → t.unit.ex1.se.writeTbl = false
  held : ∀ m, t.first = some m → Held t.unit m
  same : t.tb.timebase = t.count
  carry : t.tb.tbCarry = (lowHalf t.count == BitVec.allOnes 32)

theorem tbInv_start (g : Generics) : TbInv (tbStart g) := by
  constructor <;> simp [tbStart, Execute1.step, waiting]

variable {t : TbTracked g} {c : TbCycle}

/-! ### The counter -/

variable {i : Inputs} {s : State g}

theorem tbNext_moved (h : TbInv t) {k : TimebaseCtrl} (hl : does i t.unit.ex1.se.writeTbl = false) :
    tbNext t.unit i k t.tb = advance k t.count := by
  have hu : does i t.unit.ex1.se.writeTbu = false := by rw [does, h.upper, Bool.and_false]
  rw [tbNext, thi, tlo, tbCarryIn, hl, hu, h.same, h.carry, advance]
  cases k.freeze with
  | true =>
    simp only [Bool.not_true, Bool.and_false, Bool.false_and, Bool.false_eq_true, if_false, if_true]
    exact (congrArg (· ++ lowHalf t.count) (BitVec.add_zero _)).trans (halves t.count)
  | false =>
    simp only [Bool.not_false, Bool.true_and, Bool.false_eq_true, if_false, if_true]
    exact add_one_halves t.count

/-- Any other instruction that completes leaves the counter alone. -/
theorem replaced_other (h : TbInv t) (hl : t.unit.ex1.se.writeTbl = false) (moved : BitVec 64)
    {done : Option Move} (hdone : done = none ∨ done = t.first) :
    replaced t.count moved done = moved := by
  cases done with
  | none => rfl
  | some m =>
    have hm : Held t.unit m := h.held m (hdone.resolve_left (by simp)).symm
    have hstrobe := hm.strobe
    rw [hl] at hstrobe
    have hno : ¬(m.op = .mtspr ∧ m.sprn = sprTblw) := of_decide_eq_false hstrobe.symm
    obtain ⟨op, n, x⟩ := m
    by_cases hop : op = .mtspr
    · subst hop
      rw [replaced, if_neg fun hn => hno ⟨rfl, hn⟩, if_neg (hm.notTbuw rfl)]
    · rw [replaced]
      intro n' x' he
      cases he
      exact hop rfl

theorem completes_cases (t : TbTracked g) (c : TbCycle) :
    t.completes c = none ∨ t.completes c = t.first := by
  rw [TbTracked.completes]
  split
  · exact .inr rfl
  · exact .inl rfl

/-- A move to TBLW that is not held up replaces the lower half. -/
theorem tbNext_written (h : TbInv t) {k : TimebaseCtrl}
    (hl : does i t.unit.ex1.se.writeTbl = true) :
    tbNext t.unit i k t.tb = highHalf t.count ++ lowHalf t.unit.ex1.sprWriteData := by
  have hu : does i t.unit.ex1.se.writeTbu = false := by rw [does, h.upper, Bool.and_false]
  rw [tbNext, thi, tlo, tbCarryIn, hl, hu, h.same]
  simp only [Bool.not_true, Bool.false_and, if_true, Bool.false_eq_true, if_false]
  exact congrArg (· ++ lowHalf _) (BitVec.add_zero _)

theorem tbNext_eq (h : TbInv t) (henv : TbEnv t c) :
    tbNext t.unit (t.inputs c) c.c t.tb =
      replaced t.count (advance c.c t.count) (t.completes c) := by
  cases hl : t.unit.ex1.se.writeTbl with
  | false =>
    have hno : does (t.inputs c) t.unit.ex1.se.writeTbl = false := by
      rw [does, hl, Bool.and_false]
    rw [tbNext_moved h hno, replaced_other h hl _ (completes_cases t c)]
  | true =>
    obtain ⟨m, hf⟩ : ∃ m, t.first = some m := by
      cases hf : t.first with
      | none => rw [h.empty hf] at hl; cases hl
      | some m => exact ⟨m, rfl⟩
    have hm := h.held m hf
    obtain ⟨hop, hn⟩ : m.op = .mtspr ∧ m.sprn = sprTblw := by
      have hstrobe := hm.strobe
      rw [hl] at hstrobe
      exact of_decide_eq_true hstrobe.symm
    obtain ⟨hdata, hvalid, -⟩ := hm.written hl
    have hflush : (t.inputs c).flushIn = false := henv.unflushed hl
    obtain ⟨op, n, x⟩ := m
    cases hop
    cases hn
    cases hstall : stage2Stall (t.inputs c) with
    | true =>
      have hno : does (t.inputs c) t.unit.ex1.se.writeTbl = false := by
        rw [does, hstall, Bool.not_true, Bool.false_and]
      have hnone : t.completes c = none := by
        rw [TbTracked.completes, ex2_valid, hstall, Bool.not_true, Bool.and_false, Bool.false_and]
        rfl
      rw [tbNext_moved h hno, hnone]
      rfl
    | false =>
      have hyes : does (t.inputs c) t.unit.ex1.se.writeTbl = true := by
        rw [does, hstall, hl]; rfl
      have hsome : t.completes c = some ⟨.mtspr, sprTblw, x⟩ := by
        rw [TbTracked.completes, ex2_valid, hvalid, hstall, hflush, hf]
        rfl
      rw [tbNext_written h hyes, hsome, hdata]
      rfl

theorem count_step (h : TbInv t) (henv : TbEnv t c) :
    (tbStep t c).tb.timebase = (tbStep t c).count ∧
      (tbStep t c).tb.tbCarry = (lowHalf (tbStep t c).count == BitVec.allOnes 32) := by
  change (tbase t.unit (t.inputs c) c.c t.tb).timebase = countNext c.c (t.completes c) t.count ∧
    (tbase t.unit (t.inputs c) c.c t.tb).tbCarry =
      (lowHalf (countNext c.c (t.completes c) t.count) == BitVec.allOnes 32)
  rw [tbase, countNext]
  cases c.c.reset with
  | true => exact ⟨rfl, rfl⟩
  | false =>
    simp only [Bool.false_eq_true, if_false, tbNext_eq h henv, and_self]

/-! ### The first stage -/

/-- The strobes for the number of a SPR: TBUW writes the lower half too, and no number writes the
upper one. -/
theorem strobes (n : BitVec 10) :
    let id := Decode2.selectFor .mtspr (mapSpr n)
    (id.valid && !id.ispmu && id.sel == 1) = decide (n = sprTblw ∨ n = sprTbuw) ∧
      (id.valid && !id.ispmu && id.sel == 2) = false := by
  revert n
  decide +kernel

theorem mtsprTo_eq (h : Decode2.SprDecoded i.e) :
    mtsprTo i 1 = decide (i.e.insnType = .mtspr ∧
        (decodeSprNum i.e.insn = sprTblw ∨ decodeSprNum i.e.insn = sprTbuw)) ∧
      mtsprTo i 2 = false := by
  by_cases hop : i.e.insnType = .mtspr
  · have hs := strobes (decodeSprNum i.e.insn)
    have hsel := h.select (.inr hop)
    rw [hop] at hsel
    simp only [← hsel] at hs
    simp only [mtsprTo, hop, beq_self_eq_true, Bool.true_and, true_and]
    exact hs
  · simp [mtsprTo, hop]

variable (hw : s.ex1.busy.toNat = waiting s.ex1) (hdec : Decode2.SprDecoded i.e)
  (hbusy : s.ex1.busy = false)

include hw hbusy in
theorem validNext_idle :
    validNext s i =
      if go s i then actComplete s i else if busyOut s i then s.ex1.e.valid else false := by
  obtain ⟨hm, hf, hd, hb, hp⟩ := waiting_zero (by rw [← hw, hbusy]; rfl)
  simp [validNext, hm, hf, hd, hb, hp]

include hw hbusy in
theorem busyNext_idle :
    busyNext s i = (go s i && (startDiv g i || startMul i || startBsort i || startBperm i)) := by
  obtain ⟨hm, hf, hd, hb, hp⟩ := waiting_zero (by rw [← hw, hbusy]; rfl)
  simp [busyNext, hm, hd, hb, hp]

include hw hdec in
theorem held_go (hnot : i.e.insnType = .mtspr → decodeSprNum i.e.insn ≠ sprTbuw)
    (hrst : i.rst = false) (hgo : go s i = true) :
    Held (step s i) ⟨i.e.insnType, decodeSprNum i.e.insn, i.e.readData3⟩ := by
  obtain ⟨hvalid, hflush, hbusy, hexc⟩ := valid_of_go hgo
  have hout := busyOut_of_go hgo
  have hex1 : (step s i).ex1 = ex1in s i := by simp [step, hrst]
  have hse : (ex1in s i).se = actionsSe s i := by simp [ex1in, se1Next, hgo]
  have hstrobe : (step s i).ex1.se.writeTbl =
      decide (i.e.insnType = .mtspr ∧ decodeSprNum i.e.insn = sprTblw) := by
    rw [hex1, hse]
    change mtsprTo i 1 = _
    rw [(mtsprTo_eq hdec).1, decide_eq_decide]
    constructor
    · rintro ⟨hop, hn⟩
      exact ⟨hop, hn.resolve_right (hnot hop)⟩
    · rintro ⟨hop, hn⟩
      exact ⟨hop, .inl hn⟩
  have hread : i.e.insnType = .mfspr →
      decodeSprNum i.e.insn = sprTb ∨ decodeSprNum i.e.insn = sprTbu →
      (ex1in s i).res2Sel = 0b10 ∧
        (ex1in s i).sprSelect.sel = (mapSpr (decodeSprNum i.e.insn)).sel := by
    intro hop hn
    have hsel := hdec.select (.inl hop)
    have hram := hdec.isRam (.inl hop)
    rw [hop] at hsel
    simp only [ex1in, hgo, hout, if_true, Bool.false_eq_true, if_false, actRes2Sel, hop, slowSpr,
      hsel, hram]
    rcases hn with hn | hn <;> rw [hn] <;> decide
  refine ⟨hstrobe, fun hl => ?_, hnot, fun hop hn => ?_, fun hop hn => ?_⟩
  · rw [hstrobe] at hl
    obtain ⟨hop, hn⟩ := of_decide_eq_true hl
    have hunit : i.e.unit = .alu := by
      rw [hdec.unit (.inr hop), hn]
      decide
    rw [hex1]
    refine ⟨?_, ?_, ?_⟩
    · simp [ex1in, hout, actSprWriteData, hdec.decCtr (.inr hop)]
    · change (validNext s i && !i.flushIn) = true
      rw [validNext_idle hw hbusy, hgo, hflush]
      simp [actComplete, hunit, hvalid, hexc, owait, startBsort, startBperm, startMul, startDiv,
        hop]
    · change (busyNext s i && !i.flushIn) = false
      rw [busyNext_idle hw hbusy]
      simp [startBsort, startBperm, startMul, startDiv, hop]
  · rw [hex1]
    obtain ⟨h1, h2⟩ := hread hop (.inl hn)
    refine ⟨h1, h2.trans ?_⟩
    rw [show decodeSprNum i.e.insn = sprTb from hn]
    decide
  · rw [hex1]
    obtain ⟨h1, h2⟩ := hread hop (.inr hn)
    refine ⟨h1, h2.trans ?_⟩
    rw [show decodeSprNum i.e.insn = sprTbu from hn]
    decide

include hw in
theorem held_busy {m : Move} (h : Held s m) (hrst : i.rst = false) (hout : busyOut s i = true)
    (hflush : s.ex1.se.writeTbl = true → i.flushIn = false) : Held (step s i) m := by
  have hgo := go_of_busyOut hout
  have hex1 : (step s i).ex1 = ex1in s i := by simp [step, hrst]
  have hse : (step s i).ex1.se.writeTbl = s.ex1.se.writeTbl := by
    rw [hex1]
    simp [ex1in, se1Next, hgo, hout]
  have hres : (step s i).ex1.res2Sel = s.ex1.res2Sel := by rw [hex1]; simp [ex1in, hgo]
  have hsel : (step s i).ex1.sprSelect = s.ex1.sprSelect := by rw [hex1]; simp [ex1in, hout]
  refine ⟨hse.trans h.strobe, fun hl => ?_, h.notTbuw, ?_, ?_⟩
  · rw [hse] at hl
    obtain ⟨hdata, hvalid, hbusy⟩ := h.written hl
    rw [hex1]
    refine ⟨?_, ?_, ?_⟩
    · simpa [ex1in, hout] using hdata
    · change (validNext s i && !i.flushIn) = true
      rw [validNext_idle hw hbusy, hgo, hout, hflush hl, hvalid]
      rfl
    · change (busyNext s i && !i.flushIn) = false
      rw [busyNext_idle hw hbusy, hgo]
      rfl
  · rw [hres, hsel]; exact h.readTb
  · rw [hres, hsel]; exact h.readTbu

theorem writeTbl_idle (hgo : go s i = false) (hout : busyOut s i = false) :
    (ex1in s i).se.writeTbl = false := by
  simp [ex1in, se1Next, hgo, hout]

/-- Nothing sets the strobe for the upper half. -/
theorem writeTbu_step (hdec : Decode2.SprDecoded i.e) (h : s.ex1.se.writeTbu = false) :
    (ex1in s i).se.writeTbu = false := by
  simp only [ex1in, se1Next]
  split
  · exact (mtsprTo_eq hdec).2
  · split
    · exact h
    · rfl

theorem TbInv.step (h : TbInv t) (henv : TbEnv t c) (hnot : NotTbuw c) : TbInv (tbStep t c) := by
  obtain ⟨hsame, hcarry⟩ := count_step h henv
  cases hrst : c.i.rst with
  | true =>
    have hex1 : (tbStep t c).unit.ex1 = { msr := resetMsr } := by
      simp [tbStep, Execute1.step, TbTracked.inputs, hrst]
    have hfirst : (tbStep t c).first = none := by simp [tbStep, hrst]
    refine ⟨?_, ?_, ?_, ?_, ?_, hsame, hcarry⟩ <;> simp [hex1, hfirst, waiting]
  | false =>
    have hex1 : (tbStep t c).unit.ex1 = ex1in t.unit (t.inputs c) := by
      simp [tbStep, Execute1.step, TbTracked.inputs, hrst]
    refine ⟨?_, ?_, ?_, ?_, ?_, hsame, hcarry⟩
    · rw [hex1]; exact divider_step h.divider
    · rw [hex1]; exact busy_step h.divider henv.sorter h.busy
    · rw [hex1]; exact writeTbu_step henv.decoded h.upper
    · intro hfirst
      simp only [tbStep, hrst, Bool.false_eq_true, if_false] at hfirst
      rw [hex1]
      cases hout : busyOut t.unit (t.inputs c) with
      | true =>
        have hse : (ex1in t.unit (t.inputs c)).se.writeTbl = t.unit.ex1.se.writeTbl := by
          simp [ex1in, se1Next, go_of_busyOut hout, hout]
        rw [hse]
        cases hl : t.unit.ex1.se.writeTbl with
        | false => rfl
        | true =>
          have hstall : stage2Stall (t.inputs c) = true := henv.waits hl hout
          rw [hout, hstall, if_pos rfl, if_pos rfl] at hfirst
          rw [h.empty hfirst] at hl
          cases hl
      | false =>
        cases hgo : go t.unit (t.inputs c) with
        | true => rw [hout, hgo] at hfirst; cases hfirst
        | false => exact writeTbl_idle hgo hout
    · intro m hfirst
      simp only [tbStep, hrst, Bool.false_eq_true, if_false] at hfirst
      cases hout : busyOut t.unit (t.inputs c) with
      | true =>
        rw [hout, if_pos rfl] at hfirst
        split at hfirst
        · exact held_busy h.busy (h.held m hfirst) hrst hout henv.unflushed
        · cases hfirst
      | false =>
        rw [hout, if_neg Bool.false_ne_true] at hfirst
        cases hgo : go t.unit (t.inputs c) with
        | true =>
          rw [hgo, if_pos rfl] at hfirst
          cases hfirst
          exact held_go h.busy henv.decoded hnot hrst hgo
        | false => rw [hgo] at hfirst; cases hfirst

/-! ### What software sees -/

theorem exResult_slow (h : s.ex1.res2Sel = 0b10) : (ex2in s i).e.writeData = i.dp.sprResult := by
  change exResult s i = _
  rw [exResult, h]
  rfl

/-- **The time base counts.** In every run in which TBUW is not written, `mfspr` of TB returns the
counter and `mfspr` of TBU its upper half, as they are in the cycle in which the move completes. -/
theorem timebase_counts {t : TbTracked g} {c : TbCycle}
    (h : Reachable tbStep (fun t c => TbEnv t c ∧ NotTbuw c) (· = tbStart g) t) :
    t.tb.timebase = t.count ∧
      ∀ m, t.completes c = some m → m.op = .mfspr →
        (m.sprn = sprTb → (ex2in t.unit (t.inputs c)).e.writeData = t.count) ∧
        (m.sprn = sprTbu → (ex2in t.unit (t.inputs c)).e.writeData = 0#32 ++ highHalf t.count) := by
  have hinv : TbInv t := by
    refine h.induct (fun s hs => ?_) fun _ _ hi he => hi.step he.1 he.2
    rw [hs]
    exact tbInv_start g
  refine ⟨hinv.same, fun m hm hop => ?_⟩
  have hfirst : t.first = some m := by
    rcases completes_cases t c with hc | hc
    · rw [hc] at hm; cases hm
    · exact hc.symm.trans hm
  have hheld := hinv.held m hfirst
  refine ⟨fun hn => ?_, fun hn => ?_⟩
  · obtain ⟨hres, hsel⟩ := hheld.readTb hop hn
    rw [exResult_slow hres]
    change sprResult t.unit t.tb _ = _
    rw [sprResult, hsel, if_pos rfl, hinv.same]
  · obtain ⟨hres, hsel⟩ := hheld.readTbu hop hn
    rw [exResult_slow hres]
    change sprResult t.unit t.tb _ = _
    rw [sprResult, hsel, if_neg (by decide), if_pos rfl, hinv.same]

/-- A cycle in which decode2 presents a move from or to a SPR. -/
def moveSpr (op : InsnType) (n : BitVec 10) (x : BitVec 64) : TbCycle where
  i := {
    e := {
      valid := true
      insnType := op
      insn := 0#11 ++ n.extractLsb' 0 5 ++ n.extractLsb' 5 5 ++ 0#11
      readData3 := x
      sprSelect := Decode2.selectFor op (mapSpr n)
      sprIsRam := (decodeRamSpr n).valid } }

/-- All ones are written to the lower half, which then overflows into the upper one: TB is read as
2 ^ 32 two cycles later. -/
theorem timebase_counts_carry :
    let t := run tbStep (tbStart {})
      [moveSpr .mtspr sprTblw 0xffffffff, {}, moveSpr .mfspr sprTb 0]
    t.completes {} = some ⟨.mfspr, sprTb, 0⟩ ∧ t.count = 0x100000000 ∧
      (ex2in t.unit (t.inputs {})).e.writeData = t.count := by
  intro t
  have hreach : Reachable tbStep (fun t c => TbEnv t c ∧ NotTbuw c) (· = tbStart {}) t :=
    reachable_run rfl (by decide +kernel)
  have hdone : t.completes {} = some ⟨.mfspr, sprTb, 0⟩ := by decide +kernel
  exact ⟨hdone, by decide +kernel, ((timebase_counts hreach).2 _ hdone rfl).1 rfl⟩

/-- 5 is written to TBUW. `mfspr` of TBU returns 0 afterwards, and the lower half has been
overwritten. -/
theorem timebase_counts_fails :
    let cs := [moveSpr .mtspr sprTbuw 5, {}, moveSpr .mfspr sprTbu 0]
    let t := run tbStep (tbStart {}) cs
    Allowed tbStep TbEnv (tbStart {}) cs ∧
      t.completes {} = some ⟨.mfspr, sprTbu, 0⟩ ∧ t.count = 0x500000003 ∧
      t.tb.timebase = 0x000000006 ∧ (ex2in t.unit (t.inputs {})).e.writeData = 0 := by
  decide +kernel

end Execute1

end Microwatt
