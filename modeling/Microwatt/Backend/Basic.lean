import Microwatt.Decode.Decode2
import Microwatt.Execute.RamSprs
import Microwatt.Fpu.Control
import Microwatt.LoadStore.Pipeline
import Microwatt.Writeback

/-!
# The back end of the core

Execute1, loadstore1, the FPU and writeback, wired together as in `core.vhdl`. Decode2 presents
instructions from outside, and so do the data cache and the MMU present their answers.

The three units run beside each other and keep in step through four signals. `busy` of loadstore1
and of the FPU keeps execute1 from accepting an instruction; `l2stall` and `f2stall` hold up
whatever is younger in the other two units. Writeback, which has no registers, turns an interrupt of
any of them or a redirect into a flush of execute1 and of the FPU. Loadstore1 has no flush input:
only its own interrupts empty it.

The wires form no loop. What loadstore1 and the FPU tell execute1 and writeback depends on their
registers and on the data cache and the MMU alone, so it can be computed first.

## Main results

* `Backend.Inv.lsEnv` — the other units keep to what loadstore1 expects of them
* `Backend.Inv.ramEnv` — and to what the SPRs in RAM rely on
* `Backend.Inv.step`
-/

namespace Microwatt

open LoadStore Bool

/-! ### Outputs of the FPU and to it -/

/-- The registers of the FPU that hold its result. Its control does not depend on them. -/
structure Fpu.Result where
  writingFpr : Bool := false
  writeReg : GsprIndex := 0
  fpResult : BitVec 64 := 0
  writingCr : Bool := false
  crMask : BitVec 8 := 0
  crResult : BitVec 4 := 0
  writingXer : Bool := false
  xercResult : XerCommon := {}
  deriving DecidableEq, Repr

def Fpu.wOut (r : Fpu.Control) (x : Fpu.Result) : FPUToWriteback where
  valid := r.complete
  interrupt := r.doIntr
  instrTag := r.completeTag
  writeEnable := x.writingFpr && r.complete
  writeReg := x.writeReg
  writeData := x.fpResult
  writeCrEnable := x.writingCr && r.complete
  writeCrMask := x.crMask
  writeCrData := x.crResult ++ x.crResult ++ x.crResult ++ x.crResult ++ x.crResult ++ x.crResult ++
    x.crResult ++ x.crResult
  writeXerc := x.writingXer && r.complete
  xerc := x.xercResult
  intrVec := 0x700
  srr1 := setBit (setBit 0 (47 - 44) r.illegal) (47 - 43) (!r.illegal)

def Fpu.eOut (r : Fpu.Control) : FPUToExecute1 where
  busy := r.busy
  f2stall := r.f2stall
  exception := r.fpscr.getLsbD fpscrFex

/-- `e_out` of loadstore1. -/
def LoadStore.eOut (s : LoadStore.State) (i : LoadStore.Inputs) : Loadstore1ToExecute1 where
  busy := busy s i
  l2stall := i.dcStall || i.d.error || s.r2.busy

/-- `fp_out` of execute1. The three flags are `reg_valid1` to `reg_valid3` of `e_in`. -/
def Execute1.fpOut {g : Execute1.Generics} (s : Execute1.State g) (i : Execute1.Inputs)
    (regValid1 regValid2 regValid3 : Bool) : Execute1ToFpu where
  valid := g.hasFpu && Execute1.go s i && i.e.unit == .fpu
  op := i.e.insnType
  itag := i.e.instrTag
  insn := i.e.insn
  single := i.e.is32bit
  isSigned := i.e.isSigned
  feMode := BitVec.ofBool (Execute1.msrBit s msrFe0) ++ BitVec.ofBool (Execute1.msrBit s msrFe1)
  fra := i.e.readData1
  frb := i.e.readData2
  frc := i.e.readData3
  validA := regValid1
  validB := regValid2
  validC := regValid3
  stall := i.l.l2stall

namespace Backend

/-! ### Wires -/

/-- The registers of the three units. -/
structure State (g : Execute1.Generics) where
  ex : Execute1.State g := {}
  ls : Tracked
  fp : Fpu.Control := {}

/-- What comes from outside in one cycle. -/
structure Cycle where
  rst : Bool := false
  e : Decode2ToExecute1 := {}
  regValid1 : Bool := false
  regValid2 : Bool := false
  regValid3 : Bool := false
  d : DcacheToLoadstore1 := {}
  dcStall : Bool := false
  m : MmuToLoadstore1 := {}
  extIrqIn : Bool := false
  msgIn : Bool := false
  dbgSprReq : Bool := false
  dbgSprAddr : BitVec 2 := 0
  dp : Execute1.DataPath := {}
  fpDp : Fpu.Datapath := {}
  fpResult : Fpu.Result := {}

variable {g : Execute1.Generics} (t : State g) (c : Cycle)

/-- The inputs of loadstore1 other than the instruction. -/
def Cycle.lsPorts : LoadStore.Inputs where
  rst := c.rst
  d := c.d
  m := c.m
  dcStall := c.dcStall
  dbgSprReq := c.dbgSprReq
  dbgSprAddr := c.dbgSprAddr

def wbIn : Writeback.Inputs where
  e := Execute1.eOut t.ex
  l := lOut t.ls.ls c.lsPorts
  fp := Fpu.wOut t.fp c.fpResult

def exIn : Execute1.Inputs where
  rst := c.rst
  flushIn := Writeback.flushOut (wbIn t c)
  e := c.e
  l := eOut t.ls.ls c.lsPorts
  fp := Fpu.eOut t.fp
  extIrqIn := c.extIrqIn
  interruptIn := Writeback.interruptOut (wbIn t c)
  msgIn := c.msgIn
  dp := c.dp

def lsIn : LoadStore.Inputs := { c.lsPorts with l := Execute1.lOut t.ex (exIn t c) }

def fpIn : Fpu.Inputs where
  rst := c.rst
  flushIn := Writeback.flushOut (wbIn t c)
  e := Execute1.fpOut t.ex (exIn t c) c.regValid1 c.regValid2 c.regValid3
  dp := c.fpDp

def step : State g where
  ex := Execute1.step t.ex (exIn t c)
  ls := t.ls.step g.hasFpu (lsIn t c)
  fp := Fpu.step t.fp (fpIn t c)

/-- The units after a reset. -/
structure Start : Prop where
  ex : ∃ s i, i.rst = true ∧ t.ex = Execute1.step s i
  ls : t.ls.Init g.hasFpu
  fp : ∃ r i, i.rst = true ∧ t.fp = Fpu.step r i

/-- The data cache answers only what it was asked, and stalls loadstore1 until it does; the MMU
finishes only what it was asked. -/
@[mk_iff]
structure UnitsEnv : Prop where
  answer : c.d.valid = true →
    t.ls.waiting = true ∧ c.d.error = false ∧ t.ls.ls.r3.state = .idle
  error : c.d.error = true → t.ls.waiting = true ∧ t.ls.ls.r3.state = .idle
  stall : t.ls.waiting = true → c.d.valid = true ∨ advance t.ls.ls c.lsPorts = false
  mmu : (c.m.done || c.m.err) = true →
    t.ls.ls.r2.req.valid = true ∧ t.ls.ls.r3.state = .mmuWait

instance : Decidable (UnitsEnv t c) := decidable_of_iff _ (unitsEnv_iff ..).symm

/-! ### What decode2 presents -/

/-- What the decode table says of an instruction, as far as the units rely on it: traps are for the
ALU, instructions in two parts are loads and stores, and an operation of the MMU has neither a
reservation nor a hash. -/
@[mk_iff] structure Decoded (e : Decode2ToExecute1) : Prop where
  trap : e.insnType = .sc ∨ e.insnType = .trap → e.unit = .alu
  pair : e.second = true → e.unit = .ldst
  mmu : e.insnType = .mtspr ∨ e.insnType = .tlbie ∨ e.insnType = .fetchFailed →
    e.reserve = false ∧ e.isSigned = false

instance (e : Decode2ToExecute1) : Decidable (Decoded e) :=
  decidable_of_iff _ (decoded_iff ..).symm

theorem row_trap (hasFpu : Bool) (code : InsnCode) : let row := decodeRom hasFpu code
    row.insnType = .sc ∨ row.insnType = .trap → row.unit = .alu := by
  exact forall_rows (by decide +kernel) hasFpu code

theorem row_pair (hasFpu : Bool) (code : InsnCode) :
    (decodeRom hasFpu code).repeat_ ≠ .none → (decodeRom hasFpu code).unit = .ldst := by
  exact forall_rows (by decide +kernel) hasFpu code

theorem row_mmu (hasFpu : Bool) (code : InsnCode) : let row := decodeRom hasFpu code
    row.insnType = .mtspr ∨ row.insnType = .tlbie ∨ row.insnType = .fetchFailed →
      row.reserve = false ∧ row.isSigned = false := by
  exact forall_rows (by decide +kernel) hasFpu code

/-- Decode2 presents such instructions, if it gets rows of the table. -/
theorem decoded_freshE {d : Decode2.Generics} {i : Decode2.Inputs} {hasFpu : Bool} {code : InsnCode}
    (hrow : i.d.decode = decodeRom hasFpu code)
    (hsecond : i.d.second = true → i.d.decode.repeat_ ≠ .none) : Decoded (Decode2.freshE d i) where
  trap h := by
    simp only [Decode2.freshE, Decode2.op, hrow] at h
    have hmoves : Decode2.movesSpr i.d = false := by
      rcases h with h | h <;> simp [Decode2.movesSpr, Decode2.op, hrow, h]
    simp only [Decode2.freshE, Decode2.unit, hmoves, Bool.false_and, Bool.false_eq_true, if_false]
    rw [hrow]
    exact row_trap hasFpu code h
  pair h := by
    simp only [Decode2.freshE, Decode2.unit]
    split
    · rfl
    · have hrep := hsecond h
      rw [hrow] at hrep ⊢
      exact row_pair hasFpu code hrep
  mmu h := by
    simp only [Decode2.freshE, Decode2.op, hrow] at h ⊢
    exact row_mmu hasFpu code h

/-! ### Acceptance of instructions -/

variable {t c}

@[simp] theorem advance_lsIn :
    advance t.ls.ls (lsIn t c) = advance t.ls.ls c.lsPorts := rfl

theorem l2stall_eq : (exIn t c).l.l2stall = !advance t.ls.ls c.lsPorts := by
  simp [exIn, eOut, advance]

theorem busy_of_l2stall : (exIn t c).l.l2stall = true → (exIn t c).l.busy = true := by
  simp only [exIn, eOut, busy, or_eq_true]
  tauto

/-- An instruction is accepted only if no unit is busy and nothing is being flushed. -/
theorem of_validIn (h : Execute1.validIn t.ex (exIn t c) = true) :
    c.e.valid = true ∧ busy t.ls.ls c.lsPorts = false ∧ t.ex.ex1.busy = false ∧
      t.fp.busy = false ∧ t.ex.ctrl.waitState = false ∧ Writeback.flushOut (wbIn t c) = false ∧
      t.ex.ex1.e.redirect = false ∧ t.ex.ex1.e.interrupt = false := by
  simp only [Execute1.validIn, Execute1.busyOut, and_eq_true, not_eq_true',
    or_eq_false_iff] at h
  exact ⟨h.1, h.2.1.1.1.1.1.1, h.2.1.1.1.1.1.2, h.2.1.1.1.1.2, h.2.1.1.1.2, h.2.1.1.2, h.2.1.2,
    h.2.2⟩

theorem validIn_of_go (h : Execute1.go t.ex (exIn t c) = true) :
    Execute1.validIn t.ex (exIn t c) = true := by
  simp only [Execute1.go, and_eq_true] at h
  exact h.1

/-- Loadstore1 is not busy: its two stages move, and stage 1 has nothing left to do. -/
theorem of_not_busy (h : busy t.ls.ls c.lsPorts = false) :
    advance t.ls.ls c.lsPorts = true ∧ t.ls.ls.r1.busy = false := by
  simp only [busy, or_eq_false_iff] at h
  exact ⟨by simp [advance, h], h.1.2⟩

/-- What goes to loadstore1 has been accepted. -/
theorem go_of_lValid (h : (lsIn t c).l.valid = true) :
    Execute1.go t.ex (exIn t c) = true ∧ c.e.unit = .ldst := by
  simpa [lsIn, Execute1.lOut, exIn] using h

theorem go_of_fValid (h : (fpIn t c).e.valid = true) :
    Execute1.go t.ex (exIn t c) = true ∧ c.e.unit = .fpu := by
  simp only [fpIn, Execute1.fpOut, and_eq_true, beq_iff_eq] at h
  exact ⟨h.1.2, h.2⟩

/-- Nothing goes to loadstore1 while the FPU is busy. -/
theorem lValid_of_fpuBusy (h : t.fp.busy = true) : (lsIn t c).l.valid = false := by
  by_contra hv
  rw [not_eq_false] at hv
  have := (of_validIn (validIn_of_go (go_of_lValid hv).1)).2.2.2.1
  rw [h] at this
  cases this

/-! ### What the units hold -/

end Backend

/-- The FPU is busy while it is in a state that does something; only then does it hold up the second
execute stage or look at special operands. -/
structure Fpu.Busy (r : Fpu.Control) : Prop where
  busy : r.state ≠ .idle → r.busy = true
  stall : r.f2stall = true → r.state ≠ .idle
  cycle1 : r.cycle1Ar = true → r.state ≠ .idle

namespace Fpu

variable {r : Control} {i : Inputs}

theorem finishes_of_idle (h : r.state = .idle) : finishes r i = false := by
  simp [finishes, h]

/-- An idle FPU stays idle until an instruction comes. -/
theorem stateNext_of_idle (h : r.state = .idle) (hc : r.cycle1Ar = false) :
    stateNext r i = if i.e.valid then startState i.e else .idle := by
  simp [stateNext, h, hc]

theorem Busy.cycle1_of_idle (h : Busy r) (hs : r.state = .idle) : r.cycle1Ar = false := by
  by_contra hc
  exact h.cycle1 (by simpa using hc) hs

/-- One clock edge, if execute1 sends nothing to a busy FPU and no flush arrives in the second cycle
of an arithmetic instruction. -/
theorem Busy.step (h : Busy r) (hv : i.e.valid = true → r.busy = false)
    (hflush : (i.rst || i.flushIn) = true → r.cycle1Ar = false) : Busy (Fpu.step r i) := by
  simp only [Fpu.step]
  split
  · next hf =>
    refine ⟨fun hs => absurd rfl hs, fun hs => (by cases hs), fun hs => ?_⟩
    rw [hflush hf] at hs
    cases hs
  · have hidle : i.e.valid = true → r.state = .idle := by
      intro hval
      by_contra hs
      have := h.busy hs
      rw [hv hval] at this
      cases this
    by_cases hst : r.state = .idle
    · have hnext := stateNext_of_idle (i := i) hst (h.cycle1_of_idle hst)
      have hstall : r.f2stall = false := by
        by_contra hs
        exact h.stall (by simpa using hs) hst
      refine ⟨fun hs => ?_, fun hs => ?_, fun hs => ?_⟩
      · cases hval : i.e.valid with
        | true => simp [rin, finishes_of_idle hst, hst, hval]
        | false => simp [rin, finishes_of_idle hst, hnext, hval] at hs
      · simp [rin, finishes_of_idle hst, hst, hstall] at hs
      · simp only [rin, and_eq_true] at hs
        simp only [rin, finishes_of_idle hst, hnext, hs.1, if_true, Bool.false_eq_true, if_false]
        exact startState_ne_idle i.e
    · have hval : i.e.valid = false := by
        by_contra hval
        exact hst (hidle (by simpa using hval))
      cases hfin : finishes r i with
      | true =>
        exact ⟨fun hs => absurd (by simp [rin, hfin]) hs, fun hs => (by simp [rin, hfin] at hs),
          fun hs => (by simp [rin, hval] at hs)⟩
      | false =>
        exact ⟨fun _ => by simp [rin, hfin, h.busy hst],
          fun _ => by simpa [rin, hfin] using stateNext_ne_idle (.inl hst),
          fun hs => by simp [rin, hval] at hs⟩

end Fpu

namespace Backend

variable {t : State g} {c : Cycle}

structure Empty1 (r : Stage1) : Prop where
  valid : r.req.valid = false
  busy : r.busy = false
  issued : r.issued = false

/-- Stage 1 is empty after a cycle in which nothing came, if it was empty or could move. -/
theorem empty1_r1in {b : Bool} {s : LoadStore.State} {i : LoadStore.Inputs}
    (hv : i.l.valid = false) (hb : s.r1.busy = false)
    (h : advance s i = true ∨ Empty1 s.r1) : Empty1 (LoadStore.r1in b s i) := by
  cases hf : flush s i with
  | true => constructor <;> simp [LoadStore.r1in, hf]
  | false =>
    cases ha : advance s i with
    | true =>
      have hreq : (stage1Req b s i).valid = false := by simp [stage1Req, hb, hv]
      have hissue : issue b s i = false := by simp [issue, hb, hv]
      have hhash : hashIssue b s i = false := by simp [hashIssue, hissue]
      constructor <;>
        simp [LoadStore.r1in, hf, ha, nextReq1, issueFinal, hreq, hissue, hhash]
    | false =>
      rcases h with h | h
      · rw [ha] at h; cases h
      · constructor <;> simp [LoadStore.r1in, hf, ha, h.valid, h.busy, h.issued]

/-- What the units promise each other. -/
structure Inv (t : State g) : Prop where
  fpu : Fpu.Busy t.fp
  ls : LoadStore.Inv g.hasFpu t.ls
  /-- While the FPU works, nothing is in the first stage of loadstore1. -/
  alone : t.fp.state ≠ .idle → Empty1 t.ls.ls.r1

/-- No flush and no reset arrives in the second cycle of an arithmetic instruction in the FPU. -/
def FpuClear (t : State g) (c : Cycle) : Prop :=
  (c.rst || Writeback.flushOut (wbIn t c)) = true → t.fp.cycle1Ar = false

instance (t : State g) (c : Cycle) : Decidable (FpuClear t c) :=
  inferInstanceAs (Decidable (_ → _))

/-- **The other units keep to what loadstore1 expects.** Nothing is sent to it while it is busy, and
nothing is in its first stage when the FPU holds up the second. -/
theorem Inv.lsEnv (h : Inv t) (henv : UnitsEnv t c) : LoadStore.Env t.ls (lsIn t c) where
  issue hv := (of_validIn (validIn_of_go (go_of_lValid hv).1)).2.1
  hold he := (h.alone (h.fpu.stall he)).valid
  answer := henv.answer
  error := henv.error
  stall := henv.stall
  mmu := henv.mmu

/-- An instruction for the FPU finds it idle and leaves stage 1 of loadstore1 empty. -/
theorem empty1_of_fValid (hv : (fpIn t c).e.valid = true) :
    Empty1 (LoadStore.r1in g.hasFpu t.ls.ls (lsIn t c)) := by
  obtain ⟨hgo, hunit⟩ := go_of_fValid hv
  obtain ⟨hadv, hb⟩ := of_not_busy (of_validIn (validIn_of_go hgo)).2.1
  refine empty1_r1in ?_ hb (.inl hadv)
  simp [lsIn, Execute1.lOut, exIn, hunit]

theorem Inv.step (h : Inv t) (henv : UnitsEnv t c) (hclear : FpuClear t c) :
    Inv (Backend.step t c) where
  fpu := h.fpu.step
    (fun hv => (of_validIn (validIn_of_go (go_of_fValid hv).1)).2.2.2.1) hclear
  ls := h.ls.step (h.lsEnv henv)
  alone hs := by
    have hrst : c.rst = false := by
      by_contra hr
      rw [not_eq_false] at hr
      exact hs (by simp [Backend.step, Fpu.step, fpIn, hr])
    have hls : (Backend.step t c).ls.ls.r1 = LoadStore.r1in g.hasFpu t.ls.ls (lsIn t c) := by
      simp [Backend.step, LoadStore.Tracked.step, LoadStore.step, lsIn, Cycle.lsPorts, hrst]
    rw [hls]
    by_cases hst : t.fp.state = .idle
    · refine empty1_of_fValid ?_
      by_contra hv
      rw [not_eq_true] at hv
      refine hs ?_
      simp only [Backend.step, Fpu.step]
      split
      · rfl
      · simp [Fpu.rin, Fpu.finishes_of_idle hst,
          Fpu.stateNext_of_idle hst (h.fpu.cycle1_of_idle hst), hv]
    · have hb := h.fpu.busy hst
      exact empty1_r1in (lValid_of_fpuBusy hb) (h.alone hst).busy (.inr (h.alone hst))

/-- Two of the things that the SPRs in RAM rely on come from the wires: an interrupt is a flush, and
a unit that stalls the second stage is busy. -/
theorem Inv.ramEnv (h : Inv t) {sprs : RamSpr → BitVec 64} {pend : Execute1.SprWrites}
    (hdec : Decode2.RamsprDecoded c.e)
    (hflush : (exIn t c).flushIn = true → Execute1.RamTracked.writer ⟨t.ex, sprs, pend⟩ →
      Execute1.busyOut t.ex (exIn t c) = false) :
    Execute1.RamEnv ⟨t.ex, sprs, pend⟩ (exIn t c) where
  decoded := hdec
  intr hi := by
    change Writeback.flushOut (wbIn t c) = true
    rw [Writeback.flushOut, show Writeback.intr (wbIn t c) = true from hi, Bool.or_true]
  stall hs := by
    rcases Bool.or_eq_true_iff.mp hs with hl | hf
    · simp [Execute1.busyOut, busy_of_l2stall hl]
    · have hb : (exIn t c).fp.busy = true := h.fpu.busy (h.fpu.stall hf)
      simp [Execute1.busyOut, hb]
  flushed := hflush

theorem Inv.init (h : Start t) (hc : t.fp.cycle1Ar = false) : Inv t := by
  obtain ⟨-, hls, r, i, hrst, hfp⟩ := h
  have hidle : t.fp.state = .idle := by simp [hfp, Fpu.step, hrst]
  have hstall : t.fp.f2stall = false := by simp [hfp, Fpu.step, hrst]
  exact ⟨⟨fun hs => absurd hidle hs, fun hs => (by rw [hstall] at hs; cases hs),
    fun hs => (by rw [hc] at hs; cases hs)⟩, .init hls, fun hs => absurd hidle hs⟩

end Backend

end Microwatt
