import Microwatt.Lib.Clocked
import Microwatt.Fpu.Control

/-!
# Commit and rollback of the FPSCR

An FPU instruction changes the FPSCR over several cycles, and once more, in the result flags, in the
cycle after the last one. The value that counts is the one that results from the instructions that
completed, in order. `comm_fpscr` is meant to hold it.

It is loaded in the cycle in which an instruction completes. If loadstore1 held the instruction
back, the next one may already be in its second cycle by then and may have changed the FPSCR, so
that `comm_fpscr` runs ahead. This does no harm, because the next instruction is then the oldest of
all and nothing can flush it any more. To say so, the instructions of the other units are tracked as
well, in program order.

Three registers make a flush go wrong, and `RollbackClear` says that none of them is set. With
`do_intr` the FPSCR is cleared. With `cycle_1_ar` or `update_fprf`, which a flush does not clear,
the flushed instruction goes on to change the FPSCR in the cycle after the flush.

## Main results

* `Fpu.normal_fpscrUpdate`, `Fpu.fpscrUpdate_eq_self` — the summary bits
* `Fpu.Inv.step`
* `Fpu.fpscr_rollback`, `Fpu.fpscr_rollback_fails`
-/

namespace Microwatt

open Clocked

namespace Fpu

/-! ### Summary bits -/

/-- VX and FEX agree with the bits they sum up, and the reserved bit is clear. -/
structure Normal (f : BitVec 32) : Prop where
  vx : setVx f = f
  fex : setFex f = f
  reserved : f.getLsbD 11 = false

theorem normal_zero : Normal 0 := by constructor <;> decide +kernel

theorem setVx_eq_self {f : BitVec 32}
    (h : f.getLsbD fpscrVx = (f.extractLsb' fpscrVxvc 6 != 0 || f.extractLsb' fpscrVxcvi 3 != 0)) :
    setVx f = f := by
  rw [setVx, ← h, setBit_getLsbD]

theorem setFex_eq_self {f : BitVec 32}
    (h : f.getLsbD fpscrFex = (f.extractLsb' fpscrXx 5 &&& f.extractLsb' fpscrXe 5 != 0)) :
    setFex f = f := by
  rw [setFex, ← h, setBit_getLsbD]

/-- FX and the reserved bit are not among the bits the others depend on. -/
theorem normal_setBit_setFx (f : BitVec 32) (update : Bool) (oldExc : BitVec 13) :
    Normal (setBit (setFx update oldExc (setFex (setVx f))) 11 false) := by
  constructor
  · apply setVx_eq_self
    simp only [setFx]
    split <;> simp [setFex, setVx, getElem_setBit, extractLsb'_setBit]
  · apply setFex_eq_self
    simp only [setFx]
    split <;> simp [setFex, getElem_setBit, extractLsb'_setBit]
  · simp [getElem_setBit]

theorem normal_fpscrUpdate (r : Control) (i : Inputs) (x : BitVec 13) (f : BitVec 32) :
    Normal (fpscrUpdate r i x f) :=
  normal_setBit_setFx _ _ _

/-! ### Cycles in which no instruction is executed -/

/-- Nothing is executed, and there is nothing left over from a second cycle. -/
structure Quiet (r : Control) : Prop where
  state : r.state = .idle
  arith : r.cycle1Ar = false

namespace Quiet

variable {r : Control} (h : Quiet r) (i : Inputs)

include h

theorem computes : computes r = false := by simp [Fpu.computes, h.state]

theorem arithDone : arithDone r i = false := by
  simp [Fpu.arithDone, immediate, h.computes, h.arith]

theorem instrDoneNext : instrDoneNext r i = (r.instrDone && !(r.complete || r.doIntr)) := by
  simp [Fpu.instrDoneNext, h.arithDone, stateDone, h.state]

theorem updateFprfNext : updateFprfNext r i = false := by
  simp [Fpu.updateFprfNext, h.arithDone]

theorem workFpscr (f : BitVec 32) :
    workFpscr r i f = if r.updateFprf then setFprf f i.dp.fprf else f := by
  simp [Fpu.workFpscr, h.computes, specialFpscr, h.arith, stateFpscr, h.state]

theorem fpscrCommit (x : BitVec 13) (f : BitVec 32) :
    fpscrCommit r i x f = setFex (setVx (Fpu.workFpscr r i f)) := by
  simp [Fpu.fpscrCommit, setFx, updateFx, h.state, h.computes, h.arithDone]

/-- The reserved bit does not get into `comm_fpscr`. -/
theorem fpscrCommit_eq_update {f : BitVec 32} (hf : f.getLsbD 11 = false) (x : BitVec 13) :
    Fpu.fpscrCommit r i x f = fpscrUpdate r i x f := by
  have hf' : f[11] = false := by simpa using hf
  have h11 : (Fpu.fpscrCommit r i x f).getLsbD 11 = false := by
    rw [h.fpscrCommit, h.workFpscr]
    split <;> simp [setFex, setVx, setFprf, getElem_setBit, getElem_copyBits, hf']
  rw [fpscrUpdate]
  conv_rhs => rw [← h11]
  rw [setBit_getLsbD]

theorem excBits_fpscrUpdate (x : BitVec 13) (f : BitVec 32) :
    excBits (fpscrUpdate r i x f) = excBits f := by
  rw [fpscrUpdate, h.fpscrCommit, h.workFpscr]
  split <;>
    simp [excBits, setFex, setVx, setFprf, extractLsb'_setBit, extractLsb'_copyBits]

/-- Which exceptions are old does not matter. -/
theorem fpscrUpdate_congr (x y : BitVec 13) (f : BitVec 32) :
    fpscrUpdate r i x f = fpscrUpdate r i y f := by
  rw [fpscrUpdate, fpscrUpdate, h.fpscrCommit, h.fpscrCommit]

/-- Without result flags the FPSCR stays as it is. -/
theorem fpscrUpdate_eq_self {f : BitVec 32} (hf : Normal f) (hr : r.updateFprf = false)
    (x : BitVec 13) : fpscrUpdate r i x f = f := by
  rw [← h.fpscrCommit_eq_update i hf.reserved, h.fpscrCommit, h.workFpscr, hr]
  simp only [Bool.false_eq_true, if_false]
  rw [hf.vx, hf.fex]

end Quiet

/-- An instruction leaves the FPU, by completing or by its interrupt. -/
def leaves (r : Control) : Bool := r.complete || r.doIntr

/-- It leaves as soon as it is done and not held back. -/
theorem leaves_rin (r : Control) (i : Inputs) :
    leaves (rin r i) = (instrDoneNext r i && !i.e.stall) := by
  simp only [leaves, rin]
  cases instrDoneNext r i <;> cases i.e.stall <;> cases illegalNext r i <;> simp

/-! ### What the instructions do to the FPSCR -/

/-- What one cycle does to the FPSCR, given the exception bits that were set at the beginning of the
instruction. -/
abbrev Update := BitVec 13 → BitVec 32 → BitVec 32

/-- An instruction, as the cycles in which it changes the FPSCR. -/
abbrev Job := List Update

/-- The FPSCR after an instruction. -/
def Job.apply (j : Job) (f : BitVec 32) : BitVec 32 := j.foldl (fun g u => u (excBits f) g) f

theorem Job.apply_append (j : Job) (u : Update) (f : BitVec 32) :
    Job.apply (j ++ [u]) f = u (excBits f) (Job.apply j f) := by
  simp [Job.apply]

/-- The FPSCR after the instructions of the list, in order. -/
def architected (log : List Job) : BitVec 32 := log.foldl (fun f j => j.apply f) 0

theorem architected_append (log : List Job) (j : Job) :
    architected (log ++ [j]) = j.apply (architected log) := by
  simp [architected]

/-! ### The instructions in flight -/

/-- The unit an instruction in flight belongs to. -/
inductive Slot
  | fpu | other
  deriving DecidableEq, Repr

/-- The FPU with the instructions of all units in program order, those of the FPU with what they
have done so far, those that left it, and whether the last cycle was a flush. -/
structure Tracked where
  unit : Control
  order : List Slot
  jobs : List Job
  log : List Job
  flushed : Bool

/-- The inputs of a cycle, and whether another unit accepts an instruction and lets one go. -/
structure Cycle where
  i : Inputs
  otherIn : Bool := false
  otherOut : Bool := false

/-- The last job gets one more cycle. -/
def addLast : List Job → Update → List Job
  | [], _ => []
  | [j], u => [j ++ [u]]
  | j :: js, u => j :: addLast js u

/-- The jobs after the work of the cycle. The result flags belong to the instruction that was done
in the cycle before. -/
def workJobs (t : Tracked) (i : Inputs) : List Job :=
  if t.unit.state ≠ .idle ∨ t.unit.updateFprf = true then addLast t.jobs (fpscrUpdate t.unit i)
  else t.jobs

/-- The instruction that execute1 sends to the FPU or to another unit. -/
def dispatched (c : Cycle) : List Slot :=
  if c.i.e.valid then [.fpu] else if c.otherIn then [.other] else []

/-- The instructions in flight after the cycle, without a flush. -/
def orderNext (t : Tracked) (c : Cycle) : List Slot :=
  (if leaves t.unit || c.otherOut then t.order.tail else t.order) ++ dispatched c

/-- One clock edge. An instruction that is found to be illegal does not count as executed. -/
def trackedStep (t : Tracked) (c : Cycle) : Tracked where
  unit := step t.unit c.i
  order := if c.i.flushIn then [] else orderNext t c
  jobs :=
    if c.i.flushIn then []
    else (if leaves t.unit then (workJobs t c.i).tail else workJobs t c.i) ++
      if c.i.e.valid then [[]] else []
  log :=
    if leaves t.unit && !t.unit.illegal then t.log ++ (workJobs t c.i).take 1 else t.log
  flushed := c.i.flushIn

/-- What the other units promise. -/
@[mk_iff] structure Env (t : Tracked) (c : Cycle) : Prop where
  rst : c.i.rst = false
  /-- execute1 sends nothing anywhere while the FPU is busy, loadstore1 stalls or all is flushed. -/
  dispatch : c.i.e.valid = true ∨ c.otherIn = true →
    t.unit.busy = false ∧ c.i.e.stall = false ∧ c.i.flushIn = false
  single : ¬(c.i.e.valid = true ∧ c.otherIn = true)
  /-- Instructions leave in order. -/
  oldest : c.otherOut = true → t.order.head? = some .other
  /-- The FPU is held back until its instruction is the oldest one. -/
  held : t.jobs ≠ [] → c.i.flushIn = false → instrDoneNext t.unit c.i = true →
    c.i.e.stall = false → (orderNext t c).head? = some .fpu
  /-- writeback flushes on an interrupt. -/
  intr : t.unit.doIntr = true → c.i.flushIn = true
  /-- Any other flush comes from another unit, for its oldest instruction. -/
  flush : c.i.flushIn = true → t.unit.doIntr = false → t.order.head? = some .other

instance (t : Tracked) (c : Cycle) : Decidable (Env t c) :=
  decidable_of_iff _ (env_iff ..).symm

/-- No flush comes with the interrupt of the FPU itself, in the second cycle of an arithmetic
instruction, or in the cycle in which the result flags are written. -/
def RollbackClear (t : Tracked) (c : Cycle) : Prop :=
  c.i.flushIn = true →
    t.unit.doIntr = false ∧ t.unit.cycle1Ar = false ∧ t.unit.updateFprf = false

instance (t : Tracked) (c : Cycle) : Decidable (RollbackClear t c) :=
  inferInstanceAs (Decidable (_ → _))

def RollbackEnv (t : Tracked) (c : Cycle) : Prop := Env t c ∧ RollbackClear t c

instance (t : Tracked) (c : Cycle) : Decidable (RollbackEnv t c) :=
  inferInstanceAs (Decidable (_ ∧ _))

def start : Tracked where
  unit := step {} { rst := true }
  order := []
  jobs := []
  log := []
  flushed := false

/-! ### The registers after a cycle -/

section Rin

variable {r : Control} {i : Inputs}

theorem Quiet.rin_idle (h : Quiet r) (hv : i.e.valid = false) : Quiet (rin r i) := by
  constructor <;> simp [rin, finishes, stateNext, h.state, h.arith, hv]

/-- An instruction is taken over. -/
theorem Quiet.rin_accept (h : Quiet r) (hv : i.e.valid = true) :
    (rin r i).state ≠ .idle ∧ (rin r i).busy = true ∧ (rin r i).oldExc = excBits r.fpscr := by
  have hfin : finishes r i = false := by simp [finishes, h.state]
  refine ⟨?_, ?_, ?_⟩
  · simpa [rin, hfin] using stateNext_ne_idle (.inr hv)
  · simp [rin, hfin, h.state, hv]
  · simp [rin, h.state]

theorem rin_done (hs : r.state ≠ .idle) (hv : i.e.valid = false) (hd : instrDoneNext r i = true) :
    Quiet (rin r i) := by
  constructor <;> simp [rin, finishes, hs, hv, hd]

/-- It takes at least one more cycle. -/
theorem rin_more (hs : r.state ≠ .idle) (hb : r.busy = true) (hd : instrDoneNext r i = false) :
    (rin r i).state ≠ .idle ∧ (rin r i).busy = true ∧ (rin r i).oldExc = r.oldExc ∧
      (rin r i).updateFprf = false := by
  have hfin : finishes r i = false := by simp [finishes, hd]
  have harith : arithDone r i = false := by
    simp only [instrDoneNext, Bool.or_eq_false_iff] at hd
    exact hd.2
  refine ⟨?_, ?_, ?_, ?_⟩
  · simpa [rin, hfin] using stateNext_ne_idle (.inl hs)
  · simp [rin, hfin, hb]
  · simp [rin, hs]
  · simp [rin, updateFprfNext, harith]

theorem legal_rin : (rin r i).complete = true → (rin r i).illegal = false := by
  simp only [rin, Bool.and_eq_true, Bool.not_eq_true']
  exact fun h => h.2

end Rin

/-! ### Where the instructions are -/

/-- The FPU holds no instruction. -/
structure Empty (t : Tracked) : Prop where
  quiet : Quiet t.unit
  done : t.unit.instrDone = false
  stays : leaves t.unit = false
  fprf : t.unit.updateFprf = false
  jobs : t.jobs = []
  fpscr : t.unit.fpscr = architected t.log
  comm : t.unit.commFpscr = architected t.log
  order : .fpu ∉ t.order

/-- The instruction of the FPU is the last one of all. Unless it is the only one, `comm_fpscr` is
right. -/
def Last (t : Tracked) : Prop :=
  ∃ os, Slot.fpu ∉ os ∧ t.order = os ++ [.fpu] ∧
    (t.unit.commFpscr = architected t.log ∨ os = [])

/-- It executes the instruction `j`. -/
structure Running (j : Job) (t : Tracked) : Prop where
  state : t.unit.state ≠ .idle
  busy : t.unit.busy = true
  done : t.unit.instrDone = false
  stays : leaves t.unit = false
  fprf : t.unit.updateFprf = false
  jobs : t.jobs = [j]
  fpscr : t.unit.fpscr = j.apply (architected t.log)
  oldExc : t.unit.oldExc = excBits (architected t.log)
  order : Last t

/-- The instruction `j` is done and waits to leave, or leaves in this cycle. -/
structure Pending (j : Job) (t : Tracked) : Prop where
  quiet : Quiet t.unit
  done : t.unit.instrDone = true
  legal : t.unit.complete = true → t.unit.illegal = false
  jobs : t.jobs = [j]
  fpscr : t.unit.fpscr = j.apply (architected t.log)
  held : leaves t.unit = false → Last t
  order : leaves t.unit = true → ∃ rest, Slot.fpu ∉ rest ∧ t.order = .fpu :: rest

/-- The instruction `j` leaves, and the next one is already in its second cycle. -/
structure Overlap (j : Job) (t : Tracked) : Prop where
  state : t.unit.state ≠ .idle
  busy : t.unit.busy = true
  leaves : leaves t.unit = true
  legal : t.unit.complete = true → t.unit.illegal = false
  fprf : t.unit.updateFprf = false
  jobs : t.jobs = [j, []]
  fpscr : t.unit.fpscr = j.apply (architected t.log)
  oldExc : t.unit.oldExc = excBits (j.apply (architected t.log))
  order : t.order = [.fpu, .fpu]

/-- One of the four. -/
def Placed (t : Tracked) : Prop :=
  Empty t ∨ (∃ j, Running j t) ∨ (∃ j, Pending j t) ∨ ∃ j, Overlap j t

variable {t : Tracked} {c : Cycle} {j : Job}

/-! ### A cycle without a flush -/

variable (h : Pending j t) (hn : Normal t.unit.fpscr) (henv : Env t c)
  (hflush : c.i.flushIn = false)

include henv hflush in
theorem unit_trackedStep : (trackedStep t c).unit = rin t.unit c.i := by
  simp [trackedStep, step, henv.rst, hflush]

theorem order_trackedStep (hflush : c.i.flushIn = false) :
    (trackedStep t c).order = orderNext t c := by
  simp [trackedStep, hflush]

include henv hflush in
theorem doIntr_eq_false : t.unit.doIntr = false := by
  cases h : t.unit.doIntr with
  | false => rfl
  | true =>
    have := henv.intr h
    simp [hflush] at this

/-- While the FPU is busy nothing is sent anywhere. -/
theorem not_dispatched (henv : Env t c) (hbusy : t.unit.busy = true) :
    c.i.e.valid = false ∧ dispatched c = [] := by
  have hnot : ¬(c.i.e.valid = true ∨ c.otherIn = true) := by
    intro h
    have := (henv.dispatch h).1
    simp [hbusy] at this
  rw [not_or, Bool.not_eq_true, Bool.not_eq_true] at hnot
  exact ⟨hnot.1, by simp [dispatched, hnot]⟩

/-- The older instructions become fewer, and what is sent comes behind. -/
theorem Last.orderNext (h : Last t) (henv : Env t c) (hstay : leaves t.unit = false) :
    ∃ os, Slot.fpu ∉ os ∧ orderNext t c = os ++ .fpu :: dispatched c ∧
      (t.unit.commFpscr = architected t.log ∨ os = []) := by
  obtain ⟨os, hmem, hord, hcomm⟩ := h
  cases hout : c.otherOut with
  | false => exact ⟨os, hmem, by simp [Fpu.orderNext, hstay, hout, hord], hcomm⟩
  | true =>
    have hhead := henv.oldest hout
    cases os with
    | nil => simp [hord] at hhead
    | cons o os =>
      refine ⟨os, fun h => hmem (List.mem_cons_of_mem _ h),
        by simp [Fpu.orderNext, hstay, hout, hord], .inl (hcomm.resolve_right (by simp))⟩

/-- The list of older instructions is empty if the instruction of the FPU is the oldest one. -/
theorem older_eq_nil {os rest : List Slot} (hmem : Slot.fpu ∉ os)
    (hhead : (os ++ .fpu :: rest).head? = some .fpu) : os = [] := by
  cases os with
  | nil => rfl
  | cons o os =>
    simp only [List.cons_append, List.head?_cons, Option.some.injEq] at hhead
    simp [hhead] at hmem

include henv hflush in
theorem comm_stays (hstay : leaves t.unit = false) :
    (trackedStep t c).log = t.log ∧ (trackedStep t c).unit.commFpscr = t.unit.commFpscr := by
  refine ⟨by simp [trackedStep, hstay], ?_⟩
  have hl : (t.unit.complete || t.unit.doIntr) = false := hstay
  simp [unit_trackedStep henv hflush, rin, hl]

/-- An empty FPU stays empty or takes over an instruction. -/
theorem Empty.step (h : Empty t) (hn : Normal t.unit.fpscr) (henv : Env t c)
    (hflush : c.i.flushIn = false) : Placed (trackedStep t c) := by
  have hunit := unit_trackedStep henv hflush
  obtain ⟨hlog, hcomm⟩ := comm_stays henv hflush h.stays
  have hwork : workJobs t c.i = [] := by simp [workJobs, h.quiet.state, h.fprf, h.jobs]
  have hfpscr : (rin t.unit c.i).fpscr = architected t.log := by
    rw [← h.fpscr]
    exact h.quiet.fpscrUpdate_eq_self _ hn h.fprf _
  have hdone : instrDoneNext t.unit c.i = false := by simp [h.quiet.instrDoneNext, h.done]
  have hstay : leaves (rin t.unit c.i) = false := by simp [leaves_rin, hdone]
  have hfprf : (rin t.unit c.i).updateFprf = false := h.quiet.updateFprfNext _
  have hos : .fpu ∉ (if leaves t.unit || c.otherOut then t.order.tail else t.order) := by
    split
    · exact fun hmem => h.order (List.mem_of_mem_tail hmem)
    · exact h.order
  cases hvalid : c.i.e.valid with
  | false =>
    refine .inl ⟨?_, ?_, ?_, ?_, ?_, ?_, ?_, ?_⟩
    · exact hunit ▸ h.quiet.rin_idle hvalid
    · exact hunit ▸ hdone
    · exact hunit ▸ hstay
    · exact hunit ▸ hfprf
    · simp [trackedStep, hflush, hwork, hvalid]
    · rw [hunit, hlog, hfpscr]
    · rw [hcomm, hlog, h.comm]
    · rw [order_trackedStep hflush]
      simp only [orderNext, dispatched, hvalid, List.mem_append, not_or]
      exact ⟨hos, by cases c.otherIn <;> simp⟩
  | true =>
    obtain ⟨hs, hb, hx⟩ := h.quiet.rin_accept hvalid
    refine .inr (.inl ⟨[], ?_, ?_, ?_, ?_, ?_, ?_, ?_, ?_, _, hos, ?_, ?_⟩)
    · exact hunit ▸ hs
    · exact hunit ▸ hb
    · exact hunit ▸ hdone
    · exact hunit ▸ hstay
    · exact hunit ▸ hfprf
    · simp [trackedStep, hflush, hwork, hvalid]
    · rw [hunit, hlog, hfpscr]
      rfl
    · rw [hunit, hlog, hx, h.fpscr]
    · rw [order_trackedStep hflush]
      simp [orderNext, dispatched, hvalid]
    · exact .inl (by rw [hcomm, hlog, h.comm])

include henv hflush in
/-- An instruction that is executed stays or is done. If it may leave it is the oldest one. -/
theorem placed_of_work (hs : t.unit.state ≠ .idle) (hb : t.unit.busy = true) (hne : t.jobs ≠ [])
    (hjobs : (trackedStep t c).jobs = [j])
    (hfpscr : (trackedStep t c).unit.fpscr = j.apply (architected (trackedStep t c).log))
    (hexc : t.unit.oldExc = excBits (architected (trackedStep t c).log))
    (hlast : Last (trackedStep t c)) : Placed (trackedStep t c) := by
  have hunit := unit_trackedStep henv hflush
  have hvalid := (not_dispatched henv hb).1
  cases hd : instrDoneNext t.unit c.i with
  | false =>
    obtain ⟨hs', hb', hx', hf'⟩ := rin_more hs hb hd
    refine .inr (.inl ⟨j, ?_, ?_, ?_, ?_, ?_, hjobs, hfpscr, ?_, hlast⟩)
    · exact hunit ▸ hs'
    · exact hunit ▸ hb'
    · exact hunit ▸ hd
    · rw [hunit, leaves_rin, hd]
      rfl
    · exact hunit ▸ hf'
    · rw [hunit, hx', hexc]
  | true =>
    refine .inr (.inr (.inl ⟨j, ?_, ?_, ?_, hjobs, hfpscr, fun _ => hlast, ?_⟩))
    · exact hunit ▸ rin_done hs hvalid hd
    · exact hunit ▸ hd
    · exact hunit ▸ legal_rin
    · intro hl
      rw [hunit, leaves_rin, hd, Bool.true_and, Bool.not_eq_true'] at hl
      obtain ⟨os, hmem, hord, -⟩ := hlast
      have hhead := henv.held hne hflush hd hl
      rw [← order_trackedStep hflush, hord] at hhead
      exact ⟨[], by simp, by rw [hord, older_eq_nil hmem hhead]; rfl⟩

/-- While an instruction is executed every cycle belongs to it. -/
theorem Running.step (h : Running j t) (henv : Env t c) (hflush : c.i.flushIn = false) :
    Placed (trackedStep t c) := by
  obtain ⟨hlog, hcomm⟩ := comm_stays henv hflush h.stays
  obtain ⟨hvalid, hsent⟩ := not_dispatched henv h.busy
  have hwork : workJobs t c.i = [j ++ [fpscrUpdate t.unit c.i]] := by
    simp [workJobs, h.state, h.jobs, addLast]
  refine placed_of_work (j := j ++ [fpscrUpdate t.unit c.i]) henv hflush h.state h.busy
    (by simp [h.jobs]) ?_ ?_ ?_ ?_
  · simp [trackedStep, hflush, hwork, hvalid, h.stays]
  · rw [unit_trackedStep henv hflush, hlog, Job.apply_append, ← h.oldExc, ← h.fpscr]
    rfl
  · rw [hlog, h.oldExc]
  · obtain ⟨os, hmem, hord, hc⟩ := h.order.orderNext henv h.stays
    refine ⟨os, hmem, ?_, ?_⟩
    · rw [order_trackedStep hflush, hord, hsent]
    · rw [hcomm, hlog]
      exact hc

/-- The next instruction goes on as the oldest one, with what its first cycle did in
`comm_fpscr`. -/
theorem Overlap.step (h : Overlap j t) (henv : Env t c) (hflush : c.i.flushIn = false) :
    Placed (trackedStep t c) := by
  obtain ⟨hvalid, hsent⟩ := not_dispatched henv h.busy
  have hcomplete : t.unit.complete = true := by
    have := h.leaves
    simpa [Fpu.leaves, doIntr_eq_false henv hflush] using this
  have hwork : workJobs t c.i = [j, [fpscrUpdate t.unit c.i]] := by
    simp [workJobs, h.state, h.jobs, addLast]
  have hlog : (trackedStep t c).log = t.log ++ [j] := by
    simp [trackedStep, h.leaves, h.legal hcomplete, hwork]
  refine placed_of_work (j := [fpscrUpdate t.unit c.i]) henv hflush h.state h.busy
    (by simp [h.jobs]) ?_ ?_ ?_ ?_
  · simp [trackedStep, hflush, hwork, hvalid, h.leaves]
  · rw [unit_trackedStep henv hflush, hlog, architected_append, ← h.fpscr]
    simp only [Job.apply, List.foldl_cons, List.foldl_nil]
    rw [h.fpscr, ← h.oldExc, ← h.fpscr]
    rfl
  · rw [hlog, architected_append, h.oldExc]
  · refine ⟨[], by simp, ?_, .inr rfl⟩
    rw [order_trackedStep hflush]
    simp [orderNext, h.leaves, h.order, hsent]

include h hn in
/-- The result flags are the last thing an instruction does. -/
theorem Pending.work (i : Inputs) :
    ∃ j', workJobs t i = [j'] ∧ (rin t.unit i).fpscr = j'.apply (architected t.log) := by
  cases hf : t.unit.updateFprf with
  | false =>
    refine ⟨j, by simp [workJobs, h.quiet.state, hf, h.jobs], ?_⟩
    rw [← h.fpscr]
    exact h.quiet.fpscrUpdate_eq_self i hn hf _
  | true =>
    refine ⟨j ++ [fpscrUpdate t.unit i], by simp [workJobs, hf, h.jobs, addLast], ?_⟩
    rw [Job.apply_append, ← h.fpscr]
    exact h.quiet.fpscrUpdate_congr i _ _ _

include h hn henv hflush in
/-- An instruction that waits goes on waiting, or is let go, possibly with the next one already
sent. -/
theorem Pending.step_held (hstay : leaves t.unit = false) : Placed (trackedStep t c) := by
  have hunit := unit_trackedStep henv hflush
  obtain ⟨hlog, hcomm⟩ := comm_stays henv hflush hstay
  obtain ⟨j', hwork, hfpscr⟩ := h.work hn c.i
  obtain ⟨os, hmem, hord, hc⟩ := (h.held hstay).orderNext henv hstay
  have hl : (t.unit.complete || t.unit.doIntr) = false := hstay
  have hd : instrDoneNext t.unit c.i = true := by simp [h.quiet.instrDoneNext, h.done, hl]
  have hvalue : (trackedStep t c).unit.fpscr = j'.apply (architected (trackedStep t c).log) := by
    rw [hunit, hlog, hfpscr]
  cases hstall : c.i.e.stall with
  | true =>
    have hnot : ¬(c.i.e.valid = true ∨ c.otherIn = true) := by
      intro hdis
      have := (henv.dispatch hdis).2.1
      simp [hstall] at this
    rw [not_or, Bool.not_eq_true, Bool.not_eq_true] at hnot
    have hlast : Last (trackedStep t c) := by
      refine ⟨os, hmem, ?_, by rw [hcomm, hlog]; exact hc⟩
      rw [order_trackedStep hflush, hord]
      simp [dispatched, hnot]
    refine .inr (.inr (.inl ⟨j', ?_, ?_, ?_, ?_, hvalue, fun _ => hlast, ?_⟩))
    · exact hunit ▸ h.quiet.rin_idle hnot.1
    · exact hunit ▸ hd
    · exact hunit ▸ legal_rin
    · simp [trackedStep, hflush, hwork, hnot.1, hstay]
    · intro hleave
      simp [hunit, leaves_rin, hstall] at hleave
  | false =>
    have hleave : leaves (trackedStep t c).unit = true := by simp [hunit, leaves_rin, hd, hstall]
    have horder : (trackedStep t c).order = .fpu :: dispatched c := by
      have hhead := henv.held (by simp [h.jobs]) hflush hd hstall
      rw [hord] at hhead
      rw [order_trackedStep hflush, hord, older_eq_nil hmem hhead]
      rfl
    cases hvalid : c.i.e.valid with
    | false =>
      refine .inr (.inr (.inl ⟨j', ?_, ?_, ?_, ?_, hvalue, ?_, fun _ => ⟨_, ?_, horder⟩⟩))
      · exact hunit ▸ h.quiet.rin_idle hvalid
      · exact hunit ▸ hd
      · exact hunit ▸ legal_rin
      · simp [trackedStep, hflush, hwork, hvalid, hstay]
      · intro hno
        simp [hleave] at hno
      · cases hin : c.otherIn <;> simp [dispatched, hvalid, hin]
    | true =>
      obtain ⟨hs', hb', hx'⟩ := h.quiet.rin_accept hvalid
      refine .inr (.inr (.inr ⟨j', ?_, ?_, hleave, ?_, ?_, ?_, hvalue, ?_, ?_⟩))
      · exact hunit ▸ hs'
      · exact hunit ▸ hb'
      · exact hunit ▸ legal_rin
      · exact hunit ▸ h.quiet.updateFprfNext _
      · simp [trackedStep, hflush, hwork, hvalid, hstay]
      · -- the result flags are no exception bits
        rw [← hvalue, hunit, hx']
        exact (h.quiet.excBits_fpscrUpdate _ _ _).symm
      · rw [horder]
        simp [dispatched, hvalid]

include h hn henv hflush in
/-- An instruction leaves, and `comm_fpscr` gets what it did. -/
theorem Pending.step_leaves (hleave : leaves t.unit = true) : Placed (trackedStep t c) := by
  have hunit := unit_trackedStep henv hflush
  obtain ⟨j', hwork, hfpscr⟩ := h.work hn c.i
  obtain ⟨rest, hmem, hord⟩ := h.order hleave
  have hcomplete : t.unit.complete = true := by
    simpa [leaves, doIntr_eq_false henv hflush] using hleave
  have hlog : (trackedStep t c).log = t.log ++ [j'] := by
    simp [trackedStep, hleave, h.legal hcomplete, hwork]
  have hvalue : (trackedStep t c).unit.fpscr = architected (trackedStep t c).log := by
    rw [hunit, hlog, architected_append, hfpscr]
  have hcomm : (trackedStep t c).unit.commFpscr = architected (trackedStep t c).log := by
    rw [← hvalue, hunit]
    simp only [rin, hcomplete, Bool.true_or, if_true]
    exact h.quiet.fpscrCommit_eq_update c.i hn.reserved _
  have hd : instrDoneNext t.unit c.i = false := by simp [h.quiet.instrDoneNext, hcomplete]
  have horder : (trackedStep t c).order = rest ++ dispatched c := by
    rw [order_trackedStep hflush]
    simp [orderNext, hleave, hord]
  have hstay : leaves (trackedStep t c).unit = false := by simp [hunit, leaves_rin, hd]
  cases hvalid : c.i.e.valid with
  | false =>
    refine .inl ⟨?_, ?_, hstay, ?_, ?_, hvalue, hcomm, ?_⟩
    · exact hunit ▸ h.quiet.rin_idle hvalid
    · exact hunit ▸ hd
    · exact hunit ▸ h.quiet.updateFprfNext _
    · simp [trackedStep, hflush, hwork, hvalid, hleave]
    · rw [horder]
      cases hin : c.otherIn <;> simp [dispatched, hvalid, hin, hmem]
  | true =>
    obtain ⟨hs', hb', hx'⟩ := h.quiet.rin_accept hvalid
    refine .inr (.inl ⟨[], ?_, ?_, ?_, hstay, ?_, ?_, hvalue, ?_, rest, hmem, ?_, .inl hcomm⟩)
    · exact hunit ▸ hs'
    · exact hunit ▸ hb'
    · exact hunit ▸ hd
    · exact hunit ▸ h.quiet.updateFprfNext _
    · simp [trackedStep, hflush, hwork, hvalid, hleave]
    · rw [← hvalue, hunit, hx']
      exact (h.quiet.excBits_fpscrUpdate _ _ _).symm
    · rw [horder]
      simp [dispatched, hvalid]

/-! ### A flush -/

/-- An instruction that is not the oldest one is flushed while `comm_fpscr` is right. -/
theorem Last.comm (h : Last t) (hhead : t.order.head? = some .other) :
    t.unit.commFpscr = architected t.log := by
  obtain ⟨os, -, hord, hc⟩ := h
  refine hc.resolve_right fun hnil => ?_
  simp [hord, hnil] at hhead

/-- Whatever is in the FPU, it cannot be leaving, and `comm_fpscr` is right. -/
theorem Placed.comm (h : Placed t) (hhead : t.order.head? = some .other) :
    leaves t.unit = false ∧ t.unit.commFpscr = architected t.log := by
  rcases h with h | ⟨j, h⟩ | ⟨j, h⟩ | ⟨j, h⟩
  · exact ⟨h.stays, h.comm⟩
  · exact ⟨h.stays, h.order.comm hhead⟩
  · cases hl : leaves t.unit with
    | false => exact ⟨rfl, (h.held hl).comm hhead⟩
    | true =>
      obtain ⟨rest, -, hord⟩ := h.order hl
      simp [hord] at hhead
  · simp [h.order] at hhead

theorem empty_of_flush (h : Placed t) (henv : RollbackEnv t c) (hflush : c.i.flushIn = true) :
    Empty (trackedStep t c) := by
  obtain ⟨henv, hclear⟩ := henv
  obtain ⟨hintr, harith, hfprf⟩ := hclear hflush
  obtain ⟨hstay, hcomm⟩ := h.comm (henv.flush hflush hintr)
  have hlog : (trackedStep t c).log = t.log := by simp [trackedStep, hstay]
  refine ⟨⟨?_, ?_⟩, ?_, ?_, ?_, ?_, ?_, ?_, ?_⟩
  · simp [trackedStep, step, hflush]
  · simpa [trackedStep, step, hflush] using harith
  · simp [trackedStep, step, hflush]
  · simp [trackedStep, step, hflush, leaves]
  · simpa [trackedStep, step, hflush] using hfprf
  · simp [trackedStep, hflush]
  · rw [hlog, ← hcomm]
    simp [trackedStep, step, hflush, henv.rst, hintr]
  · rw [hlog, ← hcomm]
    simp [trackedStep, step, hflush, henv.rst]
  · simp [trackedStep, hflush]

/-! ### Whole runs -/

/-- The instructions are where they should be, and the summary bits are right. -/
structure Inv (t : Tracked) : Prop where
  fpscr : Normal t.unit.fpscr
  log : Normal (architected t.log)
  place : Placed t

/-- What the instructions that left have done is a value that the FPSCR has or had. -/
theorem architected_trackedStep (h : Placed t) (hn : Normal t.unit.fpscr) (henv : Env t c)
    (hflush : c.i.flushIn = false) :
    architected (trackedStep t c).log = architected t.log ∨
      architected (trackedStep t c).log = t.unit.fpscr ∨
      architected (trackedStep t c).log = (trackedStep t c).unit.fpscr := by
  cases hl : leaves t.unit with
  | false => exact .inl (by rw [(comm_stays henv hflush hl).1])
  | true =>
    have hcomplete : t.unit.complete = true := by
      simpa [leaves, doIntr_eq_false henv hflush] using hl
    rcases h with h | ⟨j, h⟩ | ⟨j, h⟩ | ⟨j, h⟩
    · simp [h.stays] at hl
    · simp [h.stays] at hl
    · obtain ⟨j', hwork, hfpscr⟩ := h.work hn c.i
      have hlog : (trackedStep t c).log = t.log ++ [j'] := by
        simp [trackedStep, hl, h.legal hcomplete, hwork]
      exact .inr (.inr (by rw [unit_trackedStep henv hflush, hlog, architected_append, hfpscr]))
    · have hlog : (trackedStep t c).log = t.log ++ [j] := by
        simp [trackedStep, hl, h.legal hcomplete, workJobs, h.state, h.jobs, addLast]
      exact .inr (.inl (by rw [hlog, architected_append, h.fpscr]))

theorem Inv.step (h : Inv t) (henv : RollbackEnv t c) : Inv (trackedStep t c) := by
  obtain ⟨hn, hlog, hplace⟩ := h
  cases hflush : c.i.flushIn with
  | true =>
    have hempty := empty_of_flush hplace henv hflush
    have hsame : (trackedStep t c).log = t.log := by
      have hstay := (hplace.comm (henv.1.flush hflush (henv.2 hflush).1)).1
      simp [trackedStep, hstay]
    exact ⟨by rw [hempty.fpscr, hsame]; exact hlog, by rw [hsame]; exact hlog, .inl hempty⟩
  | false =>
    have hn' : Normal (trackedStep t c).unit.fpscr := by
      rw [unit_trackedStep henv.1 hflush]
      exact normal_fpscrUpdate _ _ _ _
    refine ⟨hn', ?_, ?_⟩
    · rcases architected_trackedStep hplace hn henv.1 hflush with h | h | h <;> rw [h] <;>
        assumption
    · rcases hplace with h | ⟨j, h⟩ | ⟨j, h⟩ | ⟨j, h⟩
      · exact h.step hn henv.1 hflush
      · exact h.step henv.1 hflush
      · cases hl : leaves t.unit with
        | false => exact h.step_held hn henv.1 hflush hl
        | true => exact h.step_leaves hn henv.1 hflush hl
      · exact h.step henv.1 hflush

theorem inv_start : Inv start :=
  ⟨normal_zero, normal_zero,
    .inl ⟨⟨rfl, rfl⟩, rfl, rfl, rfl, rfl, rfl, rfl, by simp [start]⟩⟩

/-- **Rollback of the FPSCR.** In runs in which no flush meets one of the three registers, a flush
leaves no instruction in the FPU, and as long as there is none the FPSCR is what the instructions
that completed have made of it, in order. -/
theorem fpscr_rollback (h : Reachable trackedStep RollbackEnv (· = start) t) :
    (t.flushed = true → t.jobs = []) ∧ (t.jobs = [] → t.unit.fpscr = architected t.log) := by
  have hinv : Inv t := by
    refine h.induct (fun s hs => ?_) fun _ _ hi he => hi.step he
    rw [hs]
    exact inv_start
  constructor
  · cases h with
    | start h => simp [h, start]
    | tick _ _ =>
      intro hflush
      simp only [trackedStep] at hflush
      simp [trackedStep, hflush]
  · intro hjobs
    rcases hinv.place with h | ⟨j, h⟩ | ⟨j, h⟩ | ⟨j, h⟩
    · exact h.fpscr
    all_goals simp [h.jobs] at hjobs

/-! ### Runs -/

/-- `mtfsb1`, sent with the exceptions enabled or not. -/
def mtfsb1 (bt : ℕ) (feMode : BitVec 2) : Execute1ToFpu where
  valid := true
  op := .fpMisc
  itag := ⟨1, true⟩
  insn := 63#6 ++ BitVec.ofNat 5 bt ++ 0#10 ++ 38#10 ++ 0#1
  feMode := feMode

def fadd (fra frb : BitVec 64) : Execute1ToFpu where
  valid := true
  op := .fpArith
  itag := ⟨1, true⟩
  insn := 63#6 ++ 0#20 ++ 21#5 ++ 0#1
  fra := fra
  frb := frb
  validA := true
  validB := true

def send (e : Execute1ToFpu) : Cycle := { i := { e := e } }

def sendLoad : Cycle := { i := {}, otherIn := true }

def stalled : Cycle := { i := { e := { stall := true } } }

/-- All is flushed, while loadstore1 stalls or not. -/
def flush (stall : Bool) : Cycle := { i := { flushIn := true, e := { stall := stall } } }

/-- A cycle with nothing but its result flags. -/
def idle (fprf : BitVec 5) : Cycle := { i := { dp := { fprf := fprf } } }

/-- `mtfsb1` completes and sets VE; the next one sets VXSOFT and is flushed by a load. -/
theorem fpscr_rollback_mtfsb1 :
    let t := run trackedStep start
      [send (mtfsb1 24 0), idle 0, sendLoad, send (mtfsb1 21 0), stalled, flush true]
    t.flushed = true ∧ t.log.length = 1 ∧ t.unit.fpscr = setBit 0 fpscrVe true ∧
      t.unit.fpscr = architected t.log := by
  intro t
  have hreach : Reachable trackedStep RollbackEnv (· = start) t :=
    reachable_run rfl (by decide +kernel)
  have hflush : t.flushed = true := by decide +kernel
  have h := fpscr_rollback hreach
  exact ⟨hflush, by decide +kernel, by decide +kernel, h.2 (h.1 hflush)⟩

/-- `mtfsb1` sets VE, another one sets VXSOFT and takes the interrupt. -/
def ownInterrupt : List Cycle :=
  [send (mtfsb1 24 3), idle 0, send (mtfsb1 21 3), idle 0, flush false]

/-- A load flushes an `fadd` with a signalling NaN in its second cycle. -/
def secondCycle : List Cycle :=
  [sendLoad, send (fadd 0x7ff0000000000001 0x3ff0000000000000), flush true, idle 0]

/-- A load flushes the addition 0.0 + 1.0 when it is done. The flags are those of a normal positive
number. -/
def resultFlags : List Cycle :=
  [sendLoad, send (fadd 0 0x3ff0000000000000), stalled, flush true, idle 0b00100]

/-- The interrupt clears the FPSCR, which should have VE, VXSOFT, VX, FEX and FX set. The flushed
additions set VXSNAN, with VX and FX, and FG in the FPSCR, which should be 0; the first one also
completes, without a valid tag. -/
theorem fpscr_rollback_fails :
    let t cs := run trackedStep start cs
    (∀ cs ∈ [ownInterrupt, secondCycle, resultFlags], Allowed trackedStep Env start cs) ∧
      ((t ownInterrupt).flushed = true ∧ architected (t ownInterrupt).log = 0xe0000480 ∧
        (t ownInterrupt).unit.fpscr = 0) ∧
      ((t secondCycle).log.length = 0 ∧ (t secondCycle).unit.fpscr = 0xa1000000 ∧
        (t secondCycle).unit.complete = true ∧ (t secondCycle).unit.completeTag.valid = false) ∧
      (t resultFlags).log.length = 0 ∧ (t resultFlags).unit.fpscr = 0x00004000 := by
  decide +kernel

end Fpu

end Microwatt
