import Microwatt.Backend.Basic
import Microwatt.Fpu.Fpscr

/-!
# Illegal instructions in the FPU

An instruction that the FPU does not implement goes through `DO_ILLEGAL`, which sets the variable
`illegal`. The code that all instructions share loads the register `illegal` from the variable when
the instruction is done, and looks at it in each cycle until loadstore1 does not hold the
instruction back any more.

`DO_MFFS` sets the register for a selector that is reserved, not the variable, and the shared code
overwrites it: the instruction completes. An arithmetic instruction with a special operand goes to
`DO_SPECIAL` first, where it may have its result. Of the others, the interrupt itself clears the
FPSCR. Of all these, decode1 sends only the `mffs`: for the other words it has no code.

## Main definitions

* `Fpu.unimplemented`, `Fpu.reservedMffs` — the instructions
* `Fpu.Silent`, `Fpu.Traps` — what writeback sees
* `Fpu.Ending`, `Fpu.Illegal` — the end of an instruction

## Main results

* `Fpu.illegal_traps`, `Fpu.illegal_traps_fails`
-/

namespace Microwatt

open Clocked

namespace Fpu

/-- `DO_MFFS` has no case for the selector. -/
def reservedMffs (e : Execute1ToFpu) : Bool :=
  execState e == .mffs &&
    !([0b00000, 0b00001, 0b10100, 0b10101, 0b10110, 0b10111, 0b11000] : List (BitVec 5)).contains
      (e.insn.extractLsb' 16 5)

/-- The FPU does not implement the operation. -/
def unimplemented (e : Execute1ToFpu) : Bool := execState e == .illegal || reservedMffs e

/-- No flush comes in the second cycle of an arithmetic instruction. -/
def TrapEnv (t : Tracked) (c : Cycle) : Prop :=
  Env t c ∧ (c.i.flushIn = true → t.unit.cycle1Ar = false)

instance (t : Tracked) (c : Cycle) : Decidable (TrapEnv t c) := inferInstanceAs (Decidable (_ ∧ _))

/-- Nothing completes and nothing is written, and the FPSCR is `f`. -/
structure Silent (r : Control) (f : BitVec 32) : Prop where
  fpscr : r.fpscr = f
  valid (x : Result) : (wOut r x).valid = false
  gpr (x : Result) : (wOut r x).writeEnable = false
  cr (x : Result) : (wOut r x).writeCrEnable = false
  xer (x : Result) : (wOut r x).writeXerc = false

/-- The program interrupt for an illegal instruction. -/
structure Traps (r : Control) (tag : InstrTag) : Prop where
  interrupt (x : Result) : (wOut r x).interrupt = true
  vector (x : Result) : (wOut r x).intrVec = 0x700
  srr1 (x : Result) : (wOut r x).srr1 = setBit 0 (47 - 44) true
  tag (x : Result) : (wOut r x).instrTag = tag

variable {t : Tracked} {c : Cycle} {r : Control} {i : Inputs} {f : BitVec 32} {tag : InstrTag}

theorem silent_of_complete (hf : r.fpscr = f) (hc : r.complete = false) : Silent r f := by
  constructor <;> simp [wOut, hf, hc]

theorem traps_of_doIntr (hi : r.doIntr = true) (hl : r.illegal = true) (ht : r.completeTag = tag) :
    Traps r tag :=
  ⟨fun _ => hi, fun _ => rfl, fun _ => by rw [wOut, hl]; rfl, fun _ => ht⟩

theorem fpscr_of_doIntr (henv : Env t c) (hi : t.unit.doIntr = true) :
    c.i.flushIn = true ∧ (trackedStep t c).unit.fpscr = 0 := by
  have hflush := henv.intr hi
  exact ⟨hflush, by simp [trackedStep, step, hflush, henv.rst, hi]⟩

/-- The FPU is busy while it does something. -/
theorem busy_of_reachable (h : Reachable trackedStep TrapEnv (· = start) t) : Busy t.unit := by
  induction h with
  | start hs =>
    rw [hs]
    exact ⟨fun hst => absurd rfl hst, nofun, nofun⟩
  | tick _ he ih =>
    refine ih.step (fun hv => (he.1.dispatch (.inl hv)).1) fun hf => he.2 ?_
    rwa [he.1.rst, Bool.false_or] at hf

/-! ### Arithmetic instructions

With no operand whose exponent is all ones or all zeros there is no special case. -/

/-- No operand is a NaN then, and none that the instruction reads is zero. -/
theorem decodeDp_plain {fpr : BitVec 64} {isFp is32bint isSigned valid : Bool}
    (hn : (decodeDp fpr isFp is32bint isSigned).naninf = false)
    (hz : (decodeDp fpr isFp is32bint isSigned).zeroexp = false) (hv : isFp = valid) :
    (decodeDp fpr isFp is32bint isSigned).cls ≠ .nan ∧
      (valid && (decodeDp fpr isFp is32bint isSigned).cls == .zero) = false := by
  subst hv
  cases isFp with
  | false =>
    simp only [decodeDp, Bool.false_eq_true, if_false, Bool.false_and, and_true]
    split <;> simp only <;> split <;> simp
  | true =>
    simp only [decodeDp, if_true, Bool.not_eq_false'] at hn hz
    simp only [decodeDp, if_true, hn, hz, Bool.true_or, Bool.false_eq_true, if_false]
    simp

theorem specialCases_plain {e : Execute1ToFpu} (hop : e.op = .fpArith)
    (hs : startState e = .illegal) (f : BitVec 32) : specialCases (capture e) f = {} := by
  have hplain : (operandA e).naninf = false ∧ (operandB e).naninf = false ∧
      (operandC e).naninf = false ∧ (operandA e).zeroexp = false ∧
      (operandB e).zeroexp = false ∧ (operandC e).zeroexp = false := by
    by_contra hno
    rw [startState, if_pos] at hs
    · cases hs
    · simp only [not_and_or, Bool.not_eq_false] at hno
      simp only [hop, beq_self_eq_true, Bool.true_and, Bool.or_eq_true]
      tauto
  obtain ⟨ha, hb, hc, ha', hb', hc'⟩ := hplain
  have hexec : arithDecode (arithOp e) = .illegal := by
    simpa [startState, ha, hb, hc, ha', hb', hc', execState, hop] using hs
  have hkind : ∀ n : BitVec 5, arithDecode n = .illegal →
      (n == 0b10110 || n == 0b11010) = false ∧ (n == 0b11001) = false ∧ isFmadd n = false := by
    decide
  obtain ⟨hsqrt, hmul, hfmadd⟩ := hkind _ hexec
  have hpa : (operandA e).cls ≠ .nan ∧ (e.validA && (operandA e).cls == .zero) = false :=
    decodeDp_plain ha ha' (by simp [fpIn, hop])
  have hpb : (operandB e).cls ≠ .nan ∧ (e.validB && (operandB e).cls == .zero) = false :=
    decodeDp_plain hb hb' (by simp [fpIn, hop])
  have hpc : (operandC e).cls ≠ .nan ∧ (e.validC && (operandC e).cls == .zero) = false :=
    decodeDp_plain hc hc' (by simp [fpIn, hop])
  have hcase : ∀ ue, (capture e).case ue = {} := by
    intro ue
    simp only [Operands.case, capture, hop, ha, hb, hc, hpa.2, hpb.2, hpc.2]
    rfl
  have hmulF : (capture e).isMultiply = false := by
    simp only [capture, hmul, hfmadd, Bool.and_false, Bool.or_self]
  have hsqrtF : (capture e).isSqrt = false := by simp only [capture, hsqrt, Bool.and_false]
  have hnan : (capture e).vxsnan = false := by
    simp [Operands.vxsnan, Operands.snan, capture, hpa.1, hpb.1, hpc.1]
  simp only [specialCases, hcase, Operands.invalidMul, Operands.negativeRoot, hmulF, hsqrtF, hnan,
    Bool.false_and, Bool.or_self]
  decide

/-! ### The end of an instruction -/

/-- An instruction is done in this cycle, or it is done and held back. It is illegal if it comes
from `DO_ILLEGAL`. -/
structure Ending (r : Control) (ill : Bool) (tag : InstrTag) : Prop where
  done (i : Inputs) : instrDoneNext r i = true
  last : r.state ≠ .idle → (r.state == .illegal) = ill ∧ r.op.instrTag = tag
  held : r.state = .idle →
    leaves r = false ∧ r.illegal = ill ∧ r.completeTag = tag ∧ r.cycle1Ar = false

namespace Ending

variable {ill : Bool} (h : Ending r ill tag) (i : Inputs)

include h

theorem next : illegalNext r i = ill ∧ (rin r i).completeTag = tag := by
  by_cases hst : r.state = .idle
  · obtain ⟨hstays, hill, htag, -⟩ := h.held hst
    have hout := Bool.or_eq_false_iff.mp hstays
    simp [illegalNext, finishes, rin, hst, hout, hill, htag]
  · obtain ⟨hill, htag⟩ := h.last hst
    simp [illegalNext, finishes, rin, h.done i, hst, hill, htag]

/-- It completes unless it is illegal or held back. -/
theorem complete : (rin r i).complete = (!i.e.stall && !ill) := by
  simp [rin, h.done i, (h.next i).1]

/-- While loadstore1 stalls, it waits. -/
theorem stalled (hv : i.e.valid = false) (hs : i.e.stall = true) :
    Ending (rin r i) ill tag ∧ (rin r i).state = .idle := by
  obtain ⟨hill, htag⟩ := h.next i
  have hst : (rin r i).state = .idle := by
    by_cases hst : r.state = .idle
    · simp [rin, finishes, stateNext, hst, hv, (h.held hst).2.2.2]
    · simp [rin, finishes, hst, h.done i]
  have hleaves : leaves (rin r i) = false := by simp [leaves_rin, hs]
  refine ⟨⟨fun j => ?_, fun hne => absurd hst hne, fun _ => ⟨hleaves, hill, htag, ?_⟩⟩, hst⟩
  · obtain ⟨hc, hi⟩ := Bool.or_eq_false_iff.mp hleaves
    have hdone : (rin r i).instrDone = true := h.done i
    simp [instrDoneNext, hdone, hc, hi]
  · simp [rin, hv]

end Ending

/-- What the cycles keep in which loadstore1 stalls. Nothing is dispatched in them, and nothing
leaves. -/
theorem stalled_run {P : Control → Prop}
    (hP : ∀ r i, P r → i.e.valid = false → i.e.stall = true → P (rin r i)) {cs : List Cycle}
    (h : P t.unit) (hall : Allowed trackedStep TrapEnv t cs)
    (hcs : ∀ d ∈ cs, d.i.flushIn = false ∧ d.i.e.stall = true) :
    let u := (run trackedStep t cs).unit
    P u ∧ (cs ≠ [] → leaves u = false ∧ u.cycle1Ar = false) := by
  induction cs generalizing t with
  | nil => exact ⟨h, absurd rfl⟩
  | cons d cs ih =>
    obtain ⟨henv, hall⟩ := hall
    obtain ⟨hflush, hs⟩ := hcs d List.mem_cons_self
    have hv : d.i.e.valid = false := Flag.down (fun hv => (henv.1.dispatch (.inl hv)).2.1) hs
    have hstep := unit_trackedStep henv.1 hflush
    obtain ⟨hrun, hlast⟩ :=
      ih (hstep ▸ hP _ d.i h hv hs) hall fun e he => hcs e (List.mem_cons_of_mem d he)
    refine ⟨hrun, fun _ => ?_⟩
    cases cs with
    | nil => exact ⟨by rw [run, run, hstep, leaves_rin, hs]; simp, by simp [run, hstep, rin, hv]⟩
    | cons e cs => exact hlast (List.cons_ne_nil e cs)

/-! ### From `DO_ILLEGAL` to the interrupt -/

/-- The special cases of an arithmetic instruction clear FR and FI. -/
def roundCleared (r : Control) : BitVec 32 :=
  if r.cycle1Ar then setBit (setBit r.fpscr fpscrFr false) fpscrFi false else r.fpscr

theorem normal_roundCleared (h : Normal r.fpscr) : Normal (roundCleared r) := by
  rw [roundCleared]
  split
  · have hvx := congrArg (·.getLsbD fpscrVx) h.vx
    have hfex := congrArg (·.getLsbD fpscrFex) h.fex
    refine ⟨setVx_eq_self ?_, setFex_eq_self ?_, ?_⟩
    · simpa [setVx, getElem_setBit, extractLsb'_setBit] using hvx.symm
    · simpa [setFex, getElem_setBit, extractLsb'_setBit] using hfex.symm
    · simpa [getElem_setBit] using h.reserved
  · exact h

/-- An illegal instruction is in `DO_ILLEGAL`, or it is done and held back. -/
structure Illegal (r : Control) (f : BitVec 32) (tag : InstrTag) : Prop extends
    Ending r true tag where
  state : r.state = .illegal ∨ r.state = .idle
  special : r.cycle1Ar = true → scinfo r = {}
  fprf : r.updateFprf = false
  fpscr : roundCleared r = f
  normal : Normal f

theorem Quiet.illegal (h : Quiet r) (hv : i.e.valid = true) (hs : startState i.e = .illegal) :
    Illegal (rin r i) (roundCleared (rin r i)) i.e.itag := by
  have hst : (rin r i).state = .illegal := by
    simp [rin, finishes, stateNext, h.state, h.arith, hv, hs]
  have hop : (rin r i).op = capture i.e := by simp [rin, hv]
  refine ⟨⟨fun j => ?_, fun _ => ?_, by simp [hst]⟩, .inl hst,
    fun hc => ?_, h.updateFprfNext i, rfl, normal_roundCleared (normal_fpscrUpdate _ _ _ _)⟩
  · simp [Fpu.instrDoneNext, stateDone, hst]
  · rw [hst, hop]
    exact ⟨rfl, rfl⟩
  · rw [scinfo, hop]
    exact specialCases_plain (eq_of_beq (Bool.and_eq_true_iff.mp hc).2) hs _

namespace Illegal

variable (h : Illegal r f tag) (i : Inputs)

include h

theorem computes : computes r = false := by
  rcases h.state with hst | hst <;> simp [Fpu.computes, hst]

theorem arithDone : arithDone r i = false := by
  cases hc : r.cycle1Ar with
  | false => simp [Fpu.arithDone, immediate, h.computes, hc]
  | true => simp [Fpu.arithDone, immediate, h.computes, h.special hc]

/-- The FPSCR is left alone, but for FR and FI. -/
theorem fpscrNext : fpscrNext r i = f := by
  have hwork : workFpscr r i r.fpscr = f := by
    rw [← h.fpscr, roundCleared]
    cases hc : r.cycle1Ar with
    | false =>
      rcases h.state with hst | hst <;>
        simp [workFpscr, h.computes, specialFpscr, hc, stateFpscr, hst, h.fprf]
    | true =>
      have hsc : specialCases r.op r.fpscr = {} := h.special hc
      simp [workFpscr, h.computes, specialFpscr, hc, hsc, h.fprf]
  have hupdate : updateFx r i = false := by
    rcases h.state with hst | hst <;> simp [updateFx, hst, h.computes, h.arithDone]
  rw [Fpu.fpscrNext, fpscrUpdate, fpscrCommit, hwork, h.normal.vx, h.normal.fex, hupdate,
    setFx, Bool.false_and, if_neg Bool.false_ne_true, ← h.normal.reserved, setBit_getLsbD]

/-- It raises its interrupt unless it is held back. -/
theorem doIntr : (rin r i).doIntr = !i.e.stall := by
  simp [rin, h.done i, (h.next i).1]

/-- While loadstore1 stalls, it waits. -/
theorem waits (hv : i.e.valid = false) (hs : i.e.stall = true) : Illegal (rin r i) f tag := by
  obtain ⟨hending, hst⟩ := h.stalled i hv hs
  have hc : (rin r i).cycle1Ar = false := by simp [rin, hv]
  refine ⟨hending, .inr hst, by simp [hc], by simp [rin, updateFprfNext, h.arithDone], ?_, h.normal⟩
  rw [roundCleared, hc]
  exact h.fpscrNext i

end Illegal

/-! ### Instructions that should trap and do not -/

theorem startState_arith {e : Execute1ToFpu} (hop : e.op = .fpArith) :
    startState e = .compute ∨ startState e = .illegal := by
  simp only [startState, execState, hop, arithDecode]
  split
  · exact .inl rfl
  · split <;> simp

theorem startState_of_ne {e : Execute1ToFpu} (hop : e.op ≠ .fpArith) :
    startState e = execState e := by
  simp [startState, hop]

theorem startState_mffs {e : Execute1ToFpu} (h : reservedMffs e = true) : startState e = .mffs := by
  have hex : execState e = .mffs := eq_of_beq (Bool.and_eq_true_iff.mp h).1
  by_cases hop : e.op = .fpArith
  · simp only [execState, hop, arithDecode] at hex
    split at hex <;> cases hex
  · rw [startState_of_ne hop, hex]

/-- A reserved `mffs`, and an arithmetic instruction whose result is that of a special case. -/
theorem Quiet.ending (h : Quiet r) (hv : i.e.valid = true)
    (hcase : reservedMffs i.e = true ∨ immediate (rin r i) = true) :
    Ending (rin r i) false i.e.itag := by
  have hst : (rin r i).state = startState i.e := by
    simp [rin, finishes, stateNext, h.state, h.arith, hv]
  have hop : (rin r i).op = capture i.e := by simp [rin, hv]
  have hstate : (rin r i).state ≠ .illegal := by
    rw [hst]
    rcases hcase with hm | him
    · simp [startState_mffs hm]
    · intro hs
      simp only [immediate, Bool.and_eq_true] at him
      have hnone :=
        specialCases_plain (eq_of_beq (Bool.and_eq_true_iff.mp him.1.1).2) hs (rin r i).fpscr
      rw [scinfo, hop, hnone] at him
      cases him.1.2
  refine ⟨fun j => ?_, fun _ => ⟨?_, by rw [hop]; rfl⟩, fun hno => ?_⟩
  · rcases hcase with hm | him
    · simp [Fpu.instrDoneNext, stateDone, hst, startState_mffs hm]
    · simp [Fpu.instrDoneNext, Fpu.arithDone, him]
  · simpa using hstate
  · exact absurd (hst.symm.trans hno) (startState_ne_idle _)

/-- **Illegal instructions.** In every run in which no flush meets the second cycle of an arithmetic
instruction, an instruction that goes to `DO_ILLEGAL` completes in none of the cycles that
loadstore1 holds it back, and then raises its interrupt. Nothing is written up to then, but for FR
and FI if it is an arithmetic one, and the flush that comes with the interrupt clears the FPSCR. An
instruction that is not implemented goes there, unless it is an `mffs` or an arithmetic one with a
special operand. Every such `mffs` completes without a trap, and so does every such arithmetic
instruction whose special case has its result at once. -/
theorem illegal_traps (h : Reachable trackedStep TrapEnv (· = start) t) (henv : TrapEnv t c)
    (hv : c.i.e.valid = true) (hun : unimplemented c.i.e = true)
    {cs : List Cycle} (hall : Allowed trackedStep TrapEnv (trackedStep t c) cs)
    (hcs : ∀ d ∈ cs, d.i.flushIn = false ∧ d.i.e.stall = true) :
    let f := roundCleared (trackedStep t c).unit
    let u := run trackedStep (trackedStep t c) cs
    (startState c.i.e = .illegal →
      (cs ≠ [] → Silent u.unit f ∧ u.unit.doIntr = false) ∧
      ∀ d, TrapEnv u d → d.i.flushIn = false → d.i.e.stall = false →
        Silent (trackedStep u d).unit f ∧ Traps (trackedStep u d).unit c.i.e.itag ∧
          ∀ e, TrapEnv (trackedStep u d) e → e.i.flushIn = true ∧
            (trackedStep (trackedStep u d) e).unit.fpscr = 0) ∧
    (c.i.e.op ≠ .fpArith → f = (trackedStep t c).unit.fpscr) ∧
    (startState c.i.e = .illegal ∨ reservedMffs c.i.e = true ∨
      c.i.e.op = .fpArith ∧ startState c.i.e = .compute) ∧
    (reservedMffs c.i.e = true ∨ immediate (trackedStep t c).unit = true →
      ∀ d, TrapEnv u d → d.i.flushIn = false → d.i.e.stall = false →
        (trackedStep u d).unit.complete = true ∧ (trackedStep u d).unit.illegal = false) := by
  intro f u
  have hbusy := busy_of_reachable h
  obtain ⟨hnot, -, hflush⟩ := henv.1.dispatch (.inl hv)
  have hst : t.unit.state = .idle := by
    by_contra hst
    rw [hbusy.busy hst] at hnot
    cases hnot
  have hquiet : Quiet t.unit := ⟨hst, hbusy.cycle1_of_idle hst⟩
  have hunit := unit_trackedStep henv.1 hflush
  refine ⟨fun hill => ?_, fun hop => ?_, ?_, fun hcase d hd hdf hds => ?_⟩
  · have hfound := hquiet.illegal hv hill
    rw [← hunit] at hfound
    obtain ⟨hrun, hlast⟩ :=
      stalled_run (P := (Illegal · f c.i.e.itag)) (fun _ i h => h.waits i) hfound hall hcs
    refine ⟨fun hne => ?_, fun d hd hdf hds => ?_⟩
    · obtain ⟨hleaves, hc⟩ := hlast hne
      obtain ⟨hcomp, hi⟩ := Bool.or_eq_false_iff.mp hleaves
      have hf := hrun.fpscr
      rw [roundCleared, hc] at hf
      exact ⟨silent_of_complete hf hcomp, hi⟩
    · have hc := hrun.complete d.i
      have hi := hrun.doIntr d.i
      obtain ⟨hl, htag⟩ := hrun.next d.i
      have hf := hrun.fpscrNext d.i
      rw [hds] at hi
      have hstep := unit_trackedStep hd.1 hdf
      rw [← hstep] at hc hi htag
      refine ⟨silent_of_complete (hstep ▸ hf) (by rw [hc, Bool.not_true, Bool.and_false]),
        traps_of_doIntr hi (hstep ▸ hl) htag, fun e he => fpscr_of_doIntr he.1 hi⟩
  · have hc : (trackedStep t c).unit.cycle1Ar = false := by simp [hunit, rin, hop]
    simp [f, roundCleared, hc]
  · by_cases hop : c.i.e.op = .fpArith
    · exact (startState_arith hop).elim (fun hs => .inr (.inr ⟨hop, hs⟩)) .inl
    · rw [startState_of_ne hop]
      exact (Bool.or_eq_true_iff.mp hun).imp eq_of_beq .inl
  · have hend := hquiet.ending hv (hunit ▸ hcase)
    rw [← hunit] at hend
    have hrun := (stalled_run (P := (Ending · false c.i.e.itag)) (fun _ i h hv hs =>
      (h.stalled i hv hs).1) hend hall hcs).1
    rw [unit_trackedStep hd.1 hdf]
    exact ⟨by rw [hrun.complete, hds]; rfl, (hrun.next d.i).1⟩

/-- A comparison that does not exist. -/
def badCmp : Execute1ToFpu where
  valid := true
  op := .fpCmp
  itag := ⟨2, true⟩
  insn := 63#6 ++ 0#17 ++ 0b011#3 ++ 0#6

/-- It is held back for one cycle. -/
theorem illegal_traps_badCmp :
    let t := trackedStep (trackedStep (trackedStep start (send badCmp)) stalled) (idle 0)
    Silent t.unit 0 ∧ Traps t.unit ⟨2, true⟩ := by
  have hall : Allowed trackedStep TrapEnv (trackedStep start (send badCmp)) [stalled] := by
    decide +kernel
  have h := ((illegal_traps (.start rfl) (by decide +kernel) rfl (by decide +kernel) hall
    (by decide)).1 (by decide +kernel)).2 (idle 0) (by decide +kernel) rfl rfl
  exact ⟨h.1, h.2.1⟩

/-- `mffs` with the selector 2. -/
def badMffs : Execute1ToFpu where
  valid := true
  op := .fpMisc
  itag := ⟨2, true⟩
  insn := 63#6 ++ 0#5 ++ 2#5 ++ 0#5 ++ 583#10 ++ 0#1

/-- An arithmetic instruction that does not exist, with a NaN. -/
def badArith : Execute1ToFpu where
  valid := true
  op := .fpArith
  itag := ⟨2, true⟩
  insn := 63#6 ++ 0#26
  frb := BitVec.allOnes 64
  validB := true

/-- Both complete without an interrupt. After `mtfsb1` has set VE, the interrupt clears it. -/
theorem illegal_traps_fails :
    let t cs := run trackedStep start cs
    let own := [send (mtfsb1 24 0), idle 0, send badCmp, idle 0]
    (∀ cs ∈ [[send badMffs, idle 0], [send badArith, idle 0], own ++ [flush false]],
        Allowed trackedStep TrapEnv start cs) ∧
      (∀ e ∈ [badMffs, badArith], unimplemented e = true ∧
        (t [send e, idle 0]).unit.complete = true ∧ (t [send e, idle 0]).unit.doIntr = false) ∧
      unimplemented badCmp = true ∧ (t own).unit.fpscr = 0x80 ∧
      (t (own ++ [flush false])).unit.fpscr = 0 := by
  decide +kernel

end Fpu

end Microwatt
