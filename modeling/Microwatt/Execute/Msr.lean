import Microwatt.Lib.Clocked
import Microwatt.Execute.Stages

/-!
# Invariants of the MSR

The core has no privileged state other than hypervisor state, and problem state always runs with
interrupts enabled and with translation on. Five places write one of the two copies of the MSR:
reset, `rfid`, `mtmsr(d)`, an interrupt, and the recovery after a flush. The first four give an
acceptable value each for a reason of its own; the recovery copies one that is there.

The form of `mtmsrd` that writes only EE and RI keeps PR, so it is harmless only because problem
state cannot execute it.

## Main results

* `Execute1.go_not_privileged` — problem state executes no privileged instruction
* `Execute1.MsrInv.step` — both copies stay acceptable
* `Execute1.msr_invariant` — in every reachable state
-/

namespace Microwatt

open Clocked

namespace Execute1

/-- HV is set, and problem state has EE, IR and DR set. -/
structure MsrOk (msr : BitVec 64) : Prop where
  hv : msr.getLsbD msrHv = true
  pr : msr.getLsbD msrPr = true →
    msr.getLsbD msrEe = true ∧ msr.getLsbD msrIr = true ∧ msr.getLsbD msrDr = true

/-! ### The values that are written -/

theorem msrOk_resetMsr : MsrOk resetMsr := by
  constructor <;> decide

/-- `rfid` sets HV, and the other three bits when it sets PR. -/
theorem msrOk_rfidMsr (msr srr1 : BitVec 64) : MsrOk (rfidMsr msr srr1) := by
  cases hpr : srr1.getLsbD msrPr with
  | true =>
    simp only [rfidMsr, hpr, if_true]
    constructor <;> simp [getElem_setBit, getElem_copyBits]
  | false =>
    have hpr' : srr1[14] = false := by simpa using hpr
    simp only [rfidMsr, hpr, Bool.false_eq_true, if_false]
    constructor <;> simp [getElem_setBit, getElem_copyBits, hpr']

/-- `mtmsr(d)` leaves HV alone and sets the other three bits when it sets PR. -/
theorem msrOk_mtmsrMsr {msr : BitVec 64} (h : MsrOk msr) (rs : BitVec 64) (is32bit : Bool) :
    MsrOk (mtmsrMsr msr rs false is32bit) := by
  have hhv : msr[60] = true := by simpa using h.hv
  cases hpr : rs.getLsbD msrPr with
  | true =>
    simp only [mtmsrMsr, hpr, Bool.false_eq_true, if_false, if_true]
    constructor <;> cases is32bit <;> simp [getElem_setBit, getElem_copyBits, hhv]
  | false =>
    have hpr' : rs[14] = false := by simpa using hpr
    simp only [mtmsrMsr, hpr, Bool.false_eq_true, if_false]
    constructor <;> cases is32bit <;> simp [getElem_copyBits, hhv, hpr']

/-- The form that writes EE and RI is acceptable outside problem state. -/
theorem msrOk_mtmsrMsr_ee {msr : BitVec 64} (h : MsrOk msr) (hpr : msr.getLsbD msrPr = false)
    (rs : BitVec 64) (is32bit : Bool) : MsrOk (mtmsrMsr msr rs true is32bit) := by
  have hhv := h.hv
  constructor
  · simpa [mtmsrMsr, getElem_setBit] using hhv
  · intro hpr'
    have : msr.getLsbD msrPr = true := by simpa [mtmsrMsr, getElem_setBit] using hpr'
    rw [hpr] at this
    cases this

/-- An interrupt leaves problem state and keeps HV. -/
theorem msrOk_intrMsr {msr : BitVec 64} (h : MsrOk msr) (w : WritebackToExecute1) :
    MsrOk (intrMsr msr w) := by
  have hhv := h.hv
  constructor
  · simp only [intrMsr]
    split <;> split <;> simpa [getElem_setBit] using hhv
  · intro hpr
    exfalso
    revert hpr
    simp only [intrMsr]
    split <;> split <;> simp [getElem_setBit]

/-! ### The unit -/

variable {g : Generics} {s : State g} {i : Inputs}

/-- A privileged instruction is not executed in problem state, whatever else is wrong with it. -/
theorem go_not_privileged (hgo : go s i = true) (hpriv : i.e.privileged = true) :
    s.ex1.msr.getLsbD msrPr = false := by
  by_contra hpr
  rw [Bool.not_eq_false] at hpr
  have hexc : actException s i = true := by
    simp only [actException, excKind]
    split
    · rfl
    · split
      · rfl
      · cases hill : i.e.illegalSuffix || i.e.illegalForm with
        | true =>
          -- an illegal form is an exception as well
          have hi : illegal s i = true := by simp [illegal, hill]
          simp [privileged, hill, hi]
        | false => simp [privileged, hill, hpr, hpriv]
  simp only [go, exceptionFirst, Bool.and_eq_true, Bool.not_eq_true', Bool.or_eq_false_iff] at hgo
  rw [hexc, hgo.1] at hgo
  exact absurd hgo.2.1 (by simp)

/-- The decoder marks `mtmsr` and `mtmsrd` as privileged; `Decode2.msrPrivileged` shows that it
does. -/
def MsrEnv (_ : State g) (i : Inputs) : Prop :=
  i.e.insnType = .mtmsrd → i.e.privileged = true

instance (s : State g) (i : Inputs) : Decidable (MsrEnv s i) :=
  inferInstanceAs (Decidable (_ → _))

def AfterReset (s : State g) : Prop := ∃ s0 i0, i0.rst = true ∧ s = step (g := g) s0 i0

/-- An instruction that is executed asks for an acceptable MSR. -/
theorem msrOk_newMsr (h : MsrOk s.ex1.msr) (henv : MsrEnv s i) (hgo : go s i = true) :
    MsrOk (newMsr s i) := by
  simp only [newMsr]
  split
  · exact msrOk_rfidMsr _ _
  · next hop =>
    cases i.e.insn.getLsbD 16 with
    | false => exact msrOk_mtmsrMsr h _ _
    | true => exact msrOk_mtmsrMsr_ee h (go_not_privileged hgo (henv hop)) _ _
  · exact h

theorem msrOk_ctrlTmp (h1 : MsrOk s.ex1.msr) (h2 : MsrOk s.ctrl.msr) : MsrOk (ctrlTmp s i).msr := by
  have hwritten : MsrOk (msrWritten s i) := by
    simp only [msrWritten]
    split
    · exact h1
    · exact h2
  simp only [ctrlTmp]
  split
  · exact msrOk_intrMsr hwritten _
  · exact hwritten

/-- Both copies of the MSR are acceptable. -/
structure MsrInv (s : State g) : Prop where
  ex1 : MsrOk s.ex1.msr
  ctrl : MsrOk s.ctrl.msr

theorem msrInv_reset (hrst : i.rst = true) : MsrInv (step s i) :=
  ⟨by simpa [step, hrst] using msrOk_resetMsr, by simpa [step, hrst] using msrOk_resetMsr⟩

theorem MsrInv.step (h : MsrInv s) (henv : MsrEnv s i) : MsrInv (Execute1.step s i) := by
  obtain ⟨h1, h2⟩ := h
  cases hrst : i.rst with
  | true => exact msrInv_reset hrst
  | false =>
    have hctrl : MsrOk (ctrlTmp s i).msr := msrOk_ctrlTmp h1 h2
    refine ⟨?_, by simpa [Execute1.step, hrst] using hctrl⟩
    simp only [Execute1.step, hrst, Bool.false_eq_true, if_false, ex1in]
    split
    · exact hctrl
    · split
      · next hgo => exact msrOk_newMsr h1 henv hgo
      · exact h1

/-- **MSR invariants.** In every reachable state both copies of the MSR have HV set, and EE, IR and
DR set if PR is. -/
theorem msr_invariant (h : Reachable step MsrEnv AfterReset s) :
    MsrOk s.ex1.msr ∧ MsrOk s.ctrl.msr := by
  have hinv : MsrInv s := by
    refine h.induct (fun s hs => ?_) fun _ _ hi he => hi.step he
    obtain ⟨s0, i0, hrst, rfl⟩ := hs
    exact msrInv_reset hrst
  exact ⟨hinv.ex1, hinv.ctrl⟩

/-- `mtmsrd` that sets PR and nothing else. -/
def mtmsrdPr : Inputs where
  e :=
    { valid := true, instrTag := ⟨0, true⟩, insnType := .mtmsrd, privileged := true
      readData3 := setBit 0 msrPr true }

/-- It reaches problem state, with interrupts and translation on. -/
theorem msr_invariant_mtmsrdPr :
    let s : State {} := run step (step {} { rst := true }) [mtmsrdPr, {}]
    s.ctrl.msr.getLsbD msrPr = true ∧ s.ctrl.msr.getLsbD msrEe = true ∧
      s.ctrl.msr.getLsbD msrIr = true ∧ s.ctrl.msr.getLsbD msrDr = true := by
  intro s
  have hreach : Reachable step MsrEnv AfterReset s :=
    reachable_run ⟨{}, { rst := true }, rfl, rfl⟩ (by decide +kernel)
  have hpr : s.ctrl.msr.getLsbD msrPr = true := by decide +kernel
  exact ⟨hpr, (msr_invariant hreach).2.pr hpr⟩

end Execute1

end Microwatt
