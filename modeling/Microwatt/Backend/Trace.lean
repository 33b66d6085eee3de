import Microwatt.Backend.Basic
import Microwatt.LoadStore.Occupancy

/-!
# Single stepping

With MSR[SE] set, every instruction is to be followed by a trace interrupt, before anything else
happens. Execute1 sets `trace_next` when it executes the instruction, which may then still be on its
way through loadstore1 or the FPU and may turn out to interrupt itself. The flag makes the next
instruction an interrupt, and any interrupt clears it.

What goes wrong is where the address of the next instruction is saved. A trace interrupt replaces
the vector and the SRR1 bits of an exception of the instruction in whose place it is taken, but not
the mark that says that the interrupt is for the hypervisor, so that if that instruction is illegal
its address goes to HSRR0.

An interrupt that loadstore1 or the FPU raises while nothing younger than the stepped instruction
has been executed is its own, or it is that of an older one, which undoes it.

## Main definitions

* `Backend.TraceTracked` — the back end and the instruction being stepped
* `Backend.LegalNext` — the one after it is not illegal

## Main results

* `Backend.TraceInv.step`, `Backend.single_step`
-/

namespace Microwatt

open Clocked Execute1 Bool Writeback

namespace Backend

variable {g : Generics}

/-! ### The instruction that is being stepped -/

/-- The back end with the last instruction that was executed. -/
structure TraceTracked (g : Generics) where
  b : State g
  /-- It was executed with SE set, and no interrupt has been taken since. -/
  stepping : Bool
  /-- It is the first part of an instruction in two parts. -/
  half : Bool
  /-- It causes an interrupt in execute1. -/
  trapped : Bool
  /-- The address of the first instruction that was accepted after it. -/
  next : Option (BitVec 64)

/-- The instruction is subject to single stepping. An instruction that could not be fetched has not
been executed. -/
def stepped (s : Execute1.State g) (i : Execute1.Inputs) : Bool :=
  msrBit s msrSe && i.e.insnType != .rfid && i.e.insnType != .fetchFailed

def traceStep (t : TraceTracked g) (c : Cycle) : TraceTracked g :=
  let i := exIn t.b c
  let ends := c.rst || intr (wbIn t.b c)
  let go := go t.b.ex i
  let accepted := validIn t.b.ex i
  { b := step t.b c
    stepping := if ends then false else if go then stepped t.b.ex i else t.stepping
    half :=
      if c.rst || flushOut (wbIn t.b c) then false
      else if go then c.e.repeat_ && !c.e.second
      else t.half
    trapped :=
      if ends then false
      -- an FP exception that becomes enabled is taken before the next instruction
      else if go then actTrap i || fpIntr t.b.ex i
      else (accepted && c.e.second) || t.trapped
    next :=
      if ends || go then none
      else if accepted && !c.e.second && t.next.isNone then some c.e.nia
      else t.next }

/-- What the rest of the core keeps to: the second part of an instruction follows the first. -/
@[mk_iff] structure TraceEnv (t : TraceTracked g) (c : Cycle) : Prop where
  units : UnitsEnv t.b c
  decoded : c.e.valid = true → Decoded c.e
  pair : validIn t.b.ex (exIn t.b c) = true → c.e.second = true → t.half = true

instance (t : TraceTracked g) (c : Cycle) : Decidable (TraceEnv t c) :=
  decidable_of_iff _ (traceEnv_iff ..).symm

/-- The instruction presented after one that is being stepped is not illegal. -/
def LegalNext (t : TraceTracked g) (c : Cycle) : Prop :=
  t.stepping = true → validIn t.b.ex (exIn t.b c) = true → c.e.second = false →
    excKind t.b.ex (exIn t.b c) ≠ some .illegal

instance (t : TraceTracked g) (c : Cycle) : Decidable (LegalNext t c) :=
  inferInstanceAs (Decidable (_ → _ → _ → _))

/-- All of this, with no flush that the FPU does not expect. -/
@[mk_iff]
structure TraceClear (t : TraceTracked g) (c : Cycle) : Prop extends TraceEnv t c where
  fpu : FpuClear t.b c
  legal : LegalNext t c

/-- After a reset nothing has been executed. -/
structure TraceStart (t : TraceTracked g) : Prop where
  units : Start t.b
  cycle1 : t.b.fp.cycle1Ar = false
  stepping : t.stepping = false

/-- The interrupt is a trace interrupt. -/
def traceTaken (w : Writeback.Inputs) : Bool :=
  w.e.interrupt && w.e.intrVec == 0xd00 && !w.e.isScv

/-- The interrupt is one of the instruction itself: of execute1 on its behalf, or of the unit to
which it was sent. -/
def ownInterrupt (t : TraceTracked g) (w : Writeback.Inputs) : Bool :=
  t.trapped || w.l.interrupt || w.fp.interrupt

/-! ### What execute1 does with the next instruction -/

section Execute1

variable {s : Execute1.State g} {i : Execute1.Inputs}

theorem validIn_of_exception (h : exception s i = true) : validIn s i = true := by
  cases hgo : go s i with
  | true =>
    simp only [go, and_eq_true] at hgo
    exact hgo.1
  | false =>
    simp only [exception, hgo, false_eq_true, if_false, exceptionFirst,
      or_eq_true, and_eq_true] at h
    rcases h with h | h
    · exact h.1
    · by_contra hv
      simp [pending, hv] at h

/-- An instruction that is executed is not replaced by anything and has no exception. -/
theorem of_go (h : go s i = true) :
    pending s i = none ∧ excKind s i = none := by
  simp only [go, exceptionFirst, actException, and_eq_true,
    not_eq_true', or_eq_false_iff] at h
  obtain ⟨hv, hexc, hpend⟩ := h
  rw [hv, Bool.true_and] at hexc
  exact ⟨by simpa using hpend, by simpa using hexc⟩

theorem pending_of_traceNext (hv : validIn s i = true) (hs : i.e.second = false)
    (ht : s.ex1.traceNext = true) :
    pending s i =
      if g.hasFpu && s.ex1.fpExceptionNext then some .fpException else some .trace := by
  simp [pending, hv, hs, ht]

theorem pending_of_second (hs : i.e.second = true) : pending s i = none := by
  simp [pending, hs]

/-- What is accepted but not executed is an interrupt. -/
theorem exception_of_not_go (hv : validIn s i = true) (hgo : go s i = false) :
    exception s i = true := by
  have hexc : exceptionFirst s i = true := by simpa [go, hv] using hgo
  simp [exception, hgo, hexc]

/-- The first stage is not held when an instruction is accepted. -/
theorem not_busy_of_validIn (hv : validIn s i = true) :
    busyOut s i = false ∧ (s.ex1.busy || i.l.busy || i.fp.busy) = false ∧
      i.flushIn = false := by
  simp only [validIn, busyOut, and_eq_true, not_eq_true',
    or_eq_false_iff] at hv
  simp [busyOut, hv]

/-- An interrupt in the first stage after the clock edge is new, or it is held there. -/
theorem e1Next_interrupt (h : (e1Next s i).interrupt = true) :
    i.flushIn = false ∧
      (exception s i = true ∨
        (busyOut s i = true ∧ s.ex1.e.interrupt = true ∧
          (e1Next s i).isScv = s.ex1.e.isScv)) := by
  cases hf : i.flushIn with
  | true => simp [e1Next, hf] at h
  | false =>
    refine ⟨rfl, ?_⟩
    cases hb : s.ex1.busy || i.l.busy || i.fp.busy with
    | false =>
      left
      simpa [e1Next, hf, hb] using h
    | true =>
      have hout : busyOut s i = true := by
        simp only [busyOut, or_eq_true] at hb ⊢
        tauto
      exact .inr ⟨hout, by simpa [e1Next, hf, hb, hout] using h, by
        simp [e1Next, hb, hout]⟩

/-- An interrupt that is found when the instruction is accepted goes into the first stage. -/
theorem e1Next_interrupt_of_exception (h : exception s i = true) :
    (e1Next s i).interrupt = true := by
  obtain ⟨-, hb, hf⟩ := not_busy_of_validIn (validIn_of_exception h)
  simp [e1Next, hf, hb, h]

/-- An interrupt in the first stage blocks it. -/
theorem validIn_of_interrupt (h : s.ex1.e.interrupt = true) : validIn s i = false := by
  simp [validIn, h]

theorem go_of_interrupt (h : s.ex1.e.interrupt = true) : go s i = false := by
  simp [go, validIn_of_interrupt h]

theorem go_of_not_validIn (h : validIn s i = false) : go s i = false := by
  simp [go, h]

theorem interrupt_moves (h : s.ex1.e.interrupt = true) (hf : i.flushIn = false)
    (hl : i.l.l2stall = true → i.l.busy = true) (hp : i.fp.f2stall = true → i.fp.busy = true) :
    (e1Next s i).interrupt = true ∨ (e2Next s i).interrupt = true := by
  cases hst : stage2Stall i with
  | false => right; simp [e2Next, h, hst, hf]
  | true =>
    left
    have hb : (s.ex1.busy || i.l.busy || i.fp.busy) = true := by
      simp only [stage2Stall, or_eq_true] at hst
      rcases hst with hst | hst
      · simp [hl hst]
      · simp [hp hst]
    have hout : busyOut s i = true := by
      simp only [busyOut, or_eq_true] at hb ⊢
      tauto
    simp [e1Next, hf, hb, hout, h]

/-- The vector of a trap or of an exception of an instruction in two parts is not that of a trace
interrupt. -/
theorem actIntrVec_ne (h : i.e.insnType = .sc → i.e.insn.getLsbD 1 = true) :
    actIntrVec s i ≠ 0xd00 := by
  simp only [actIntrVec]
  by_cases hsc : i.e.insnType = .sc
  · rw [hsc, h hsc]
    split <;> simp
  · have : (i.e.insnType == InsnType.sc) = false := by simpa using hsc
    rw [this]
    split <;> simp

end Execute1

/-! ### The invariant -/

/-- What an interrupt of execute1 is, after an instruction that is being stepped: not a trace
interrupt if that instruction causes it, otherwise one with the address of the next. -/
def Due (trapped : Bool) (next : Option (BitVec 64)) (e : Execute1ToWriteback) : Prop :=
  if trapped then e.intrVec ≠ 0xd00 ∨ e.isScv = true
  else e.intrVec = 0xd00 ∧ e.isScv = false ∧ e.hvIntr = false ∧ next = some e.lastNia

/-- The invariant. The first four fields hold whether or not an instruction is being stepped. -/
structure TraceInv (t : TraceTracked g) : Prop where
  units : Inv t.b
  slow : LoadStore.Slow t.b.ls
  /-- While an interrupt is in the first stage, the FPU has nothing to do but to complete, -/
  fpu : t.b.ex.ex1.e.interrupt = true → t.b.fp.state = .idle ∧
    (t.b.fp.instrDone = true → (t.b.fp.complete || t.b.fp.doIntr) = true)
  /-- and when it is in the second, neither unit interrupts. -/
  excl : t.b.ex.ex2.e.interrupt = true → t.b.fp.doIntr = false ∧ t.b.ls.ls.r3.interrupt = false
  /-- A redirect does not flush an interrupt. -/
  redirect : t.b.ex.ex2.e.redirect = true → t.b.ex.ex1.e.interrupt = true →
    t.b.ex.ex2.e.interrupt = true
  trace : t.stepping = true → t.b.ex.ex1.traceNext = true
  fpNext : t.stepping = true → (g.hasFpu && t.b.ex.ex1.fpExceptionNext) = true → t.trapped = true
  first : t.stepping = true → t.b.ex.ex1.e.interrupt = true →
    Due t.trapped t.next t.b.ex.ex1.e ∧ (t.trapped = false → t.b.ex.ex1.advanceNia = false)
  second : t.stepping = true → t.b.ex.ex2.e.interrupt = true → Due t.trapped t.next t.b.ex.ex2.e
  /-- As long as there is no interrupt, no instruction has been accepted, -/
  fresh : t.stepping = true → t.b.ex.ex1.e.interrupt = false → t.b.ex.ex2.e.interrupt = false →
    t.next = none
  /-- and the instruction has not caused one, unless it is still to be taken. -/
  quiet : t.stepping = true → t.trapped = true → t.b.ex.ex1.e.interrupt = true ∨
    t.b.ex.ex2.e.interrupt = true ∨ (g.hasFpu && t.b.ex.ex1.fpExceptionNext) = true

section Step

variable {t : TraceTracked g} {c : Cycle}

theorem TraceInv.init (h : TraceStart t) : TraceInv t := by
  obtain ⟨hunits, hcycle, hst⟩ := h
  obtain ⟨s, i, hrst, hex⟩ := hunits.ex
  have h1 : t.b.ex.ex1.e.interrupt = false := by simp [hex, Execute1.step, hrst]
  have h2 : t.b.ex.ex2.e.interrupt = false := by simp [hex, Execute1.step, hrst]
  constructor
  · exact .init hunits hcycle
  · exact .init hunits.ls
  all_goals simp [h1, h2, hst]

theorem Inv.busy_of_f2stall (h : Inv t.b) (hs : (exIn t.b c).fp.f2stall = true) :
    (exIn t.b c).fp.busy = true :=
  h.fpu.busy (h.fpu.stall hs)

/-- The FPU is idle when an instruction is accepted. -/
theorem Inv.idle_of_validIn (h : Inv t.b) (hv : validIn t.b.ex (exIn t.b c) = true) :
    t.b.fp.state = .idle := by
  by_contra hs
  have := (of_validIn hv).2.2.2.1
  rw [h.fpu.busy hs] at this
  cases this

theorem instrDoneNext_of_idle {r : Fpu.Control} {i : Fpu.Inputs} (h : Fpu.Busy r)
    (hs : r.state = .idle) :
    Fpu.instrDoneNext r i = (r.instrDone && !(r.complete || r.doIntr)) := by
  have hc := h.cycle1_of_idle hs
  simp [Fpu.instrDoneNext, Fpu.stateDone, hs, Fpu.arithDone, Fpu.computes, Fpu.immediate, hc]

/-- The FPU after a cycle in which it was idle and nothing came. -/
theorem fpu_idle (h : Fpu.Busy t.b.fp) (hs : t.b.fp.state = .idle)
    (hv : (fpIn t.b c).e.valid = false) : (step t.b c).fp.state = .idle := by
  simp only [step, Fpu.step]
  split
  · rfl
  · simp [Fpu.rin, Fpu.finishes_of_idle hs, Fpu.stateNext_of_idle hs (h.cycle1_of_idle hs), hv]

theorem fValid_of_not_go (h : go t.b.ex (exIn t.b c) = false) : (fpIn t.b c).e.valid = false := by
  simp [fpIn, fpOut, h]

/-- What goes into the registers of execute1. -/
abbrev next1 (t : TraceTracked g) (c : Cycle) := e1Next t.b.ex (exIn t.b c)

abbrev next2 (t : TraceTracked g) (c : Cycle) := e2Next t.b.ex (exIn t.b c)

variable (h : TraceInv t) (henv : TraceEnv t c) (hrst : c.rst = false)
  (hintr : intr (wbIn t.b c) = false) (hclear : TraceClear t c)

include h henv in
theorem TraceInv.step_fpu (hi : (next1 t c).interrupt = true) :
    (step t.b c).fp.state = .idle ∧ ((step t.b c).fp.instrDone = true →
      ((step t.b c).fp.complete || (step t.b c).fp.doIntr) = true) := by
  obtain ⟨-, hexc | ⟨-, hold, -⟩⟩ := e1Next_interrupt hi
  · -- the interrupt is found in this cycle, in which nothing is stalled
    have hv := validIn_of_exception hexc
    have hidle := h.units.idle_of_validIn hv
    have hnew : (fpIn t.b c).e.valid = false := by
      by_contra hval
      rw [not_eq_false] at hval
      obtain ⟨hgo, hunit⟩ := go_of_fValid hval
      have htrap : actTrap (exIn t.b c) = true := by
        simpa [exception, hgo] using hexc
      have halu := (henv.decoded (of_validIn hv).1).trap
      have hkind : c.e.insnType = .sc ∨ c.e.insnType = .trap := by
        simp only [actTrap] at htrap
        split at htrap
        · next hk => exact .inl hk
        · next hk => exact .inr hk
        · cases htrap
      rw [halu hkind] at hunit
      cases hunit
    refine ⟨fpu_idle h.units.fpu hidle hnew, ?_⟩
    have hstall : (fpIn t.b c).e.stall = false := by
      have := (of_not_busy (of_validIn hv).2.1).1
      simp [fpIn, fpOut, l2stall_eq, this]
    simp only [step, Fpu.step]
    split
    · intro hd; cases hd
    · intro hd
      have hd' : Fpu.instrDoneNext t.b.fp (fpIn t.b c) = true := hd
      cases hill : Fpu.illegalNext t.b.fp (fpIn t.b c) <;> simp [Fpu.rin, hd', hstall, hill]
  · obtain ⟨hidle, hdone⟩ := h.fpu hold
    have hgo : go t.b.ex (exIn t.b c) = false := go_of_interrupt hold
    refine ⟨fpu_idle h.units.fpu hidle (fValid_of_not_go hgo), ?_⟩
    simp only [step, Fpu.step]
    split
    · intro hd; cases hd
    · intro hd
      have hd' : Fpu.instrDoneNext t.b.fp (fpIn t.b c) = true := hd
      rw [instrDoneNext_of_idle h.units.fpu hidle, and_eq_true, not_eq_true'] at hd'
      rw [hdone hd'.1] at hd'
      cases hd'.2

/-- What is needed to reach the second stage. -/
theorem e2Next_interrupt {s : Execute1.State g} {i : Execute1.Inputs}
    (h : (e2Next s i).interrupt = true) :
    s.ex1.e.interrupt = true ∧ stage2Stall i = false ∧ i.flushIn = false := by
  simp only [e2Next, and_eq_true, not_eq_true'] at h
  exact ⟨h.1.1, h.1.2, h.2⟩

include h henv hrst in
theorem TraceInv.step_excl (hi : (next2 t c).interrupt = true) :
    (step t.b c).fp.doIntr = false ∧ (step t.b c).ls.ls.r3.interrupt = false := by
  obtain ⟨hold, hstall, -⟩ := e2Next_interrupt hi
  constructor
  · obtain ⟨hidle, hdone⟩ := h.fpu hold
    simp only [step, Fpu.step]
    split
    · rfl
    · have hd : Fpu.instrDoneNext t.b.fp (fpIn t.b c) = false := by
        rw [instrDoneNext_of_idle h.units.fpu hidle]
        cases hi : t.b.fp.instrDone with
        | false => rfl
        | true => simp [hdone hi]
      simp [Fpu.rin, hd]
  · have hadv : LoadStore.advance t.b.ls.ls c.lsPorts = true := by
      simp only [stage2Stall, l2stall_eq, or_eq_false_iff, not_eq_false'] at hstall
      exact hstall.1
    have hflush : LoadStore.flush t.b.ls.ls (lsIn t.b c) = false := by
      by_contra hf
      have := h.slow.not_advance_of_flush (h.units.lsEnv henv.units) (not_eq_false _ ▸ hf)
      rw [advance_lsIn, hadv] at this
      cases this
    have hr : (lsIn t.b c).rst = false := hrst
    simp [step, LoadStore.Tracked.step, LoadStore.step, hr, LoadStore.r3in, hflush]

theorem TraceInv.step_redirect (hr : (next2 t c).redirect = true)
    (hi : (next1 t c).interrupt = true) :
    (next2 t c).interrupt = true := by
  simp only [e2Next, and_eq_true, not_eq_true'] at hr
  obtain ⟨⟨⟨-, hstall⟩, hflush⟩, hred⟩ := hr
  obtain ⟨-, hexc | ⟨-, hold, -⟩⟩ := e1Next_interrupt hi
  · -- a redirect in the first stage blocks it
    have := validIn_of_exception hexc
    simp [validIn, hred] at this
  · simp [e2Next, hold, hstall, hflush]

/-- What is being stepped after the clock edge was executed in this cycle or was being stepped
before. -/
theorem of_stepping (hs : (traceStep t c).stepping = true) :
    c.rst = false ∧ intr (wbIn t.b c) = false ∧
      ((go t.b.ex (exIn t.b c) = true ∧ stepped t.b.ex (exIn t.b c) = true) ∨
        (go t.b.ex (exIn t.b c) = false ∧ t.stepping = true)) := by
  simp only [traceStep] at hs
  cases hends : c.rst || intr (wbIn t.b c) with
  | true => simp [hends] at hs
  | false =>
    obtain ⟨hrst, hintr⟩ := or_eq_false_iff.mp hends
    refine ⟨hrst, hintr, ?_⟩
    cases hgo : go t.b.ex (exIn t.b c) with
    | true => exact .inl ⟨rfl, by simpa [hends, hgo] using hs⟩
    | false => exact .inr ⟨rfl, by simpa [hends, hgo] using hs⟩

theorem interruptIn_intr (h : intr (wbIn t.b c) = false) :
    (exIn t.b c).interruptIn.intr = false := h

theorem ex2_interrupt_of_not_intr (h : intr (wbIn t.b c) = false) :
    t.b.ex.ex2.e.interrupt = false := by
  simp only [intr, wbIn, eOut, or_eq_false_iff] at h
  exact h.1.1

include h hintr in
/-- An interrupt in the first stage stays in execute1 until it is taken. -/
theorem TraceInv.moves (hi : t.b.ex.ex1.e.interrupt = true) :
    (next1 t c).interrupt = true ∨
      (next2 t c).interrupt = true := by
  have hred : t.b.ex.ex2.e.redirect = false := by
    by_contra hr
    have := h.redirect (by simpa using hr) hi
    rw [ex2_interrupt_of_not_intr hintr] at this
    cases this
  refine interrupt_moves hi ?_ busy_of_l2stall h.units.busy_of_f2stall
  have hred' : (wbIn t.b c).e.redirect = false := hred
  simp [exIn, flushOut, hintr, hred']

include hrst hintr in
theorem ghosts_of_not_go (hgo : go t.b.ex (exIn t.b c) = false) :
    (traceStep t c).trapped =
        ((validIn t.b.ex (exIn t.b c) && c.e.second) || t.trapped) ∧
      (traceStep t c).next =
        if validIn t.b.ex (exIn t.b c) && !c.e.second && t.next.isNone then some c.e.nia
        else t.next := by
  simp [traceStep, hrst, hintr, hgo]

theorem doTrace_of_stepped {s : Execute1.State g} {i : Execute1.Inputs} (h : stepped s i = true) :
    doTrace s i = true := by
  simp only [stepped, and_eq_true, bne_iff_ne] at h
  obtain ⟨⟨hse, hrfid⟩, hfail⟩ := h
  simp only [doTrace]
  split
  · simp [hse]
  · simp [hse]
  · simp [hse]
  · contradiction
  · contradiction
  · exact hse

/-- The first stage when an interrupt is found for an instruction that is executed. -/
theorem due_of_trap (hgo : go t.b.ex (exIn t.b c) = true) :
    Due true (traceStep t c).next (next1 t c) := by
  obtain ⟨hout, hb, -⟩ := not_busy_of_validIn (validIn_of_go hgo)
  simp only [Due, if_true]
  cases hscv : scvTrap (exIn t.b c) with
  | true => right; simp [e1Next, hb, hgo, hscv]
  | false =>
    left
    have hvec : (next1 t c).intrVec =
        actIntrVec t.b.ex (exIn t.b c) := by
      simp [e1Next, hout, presentedE, (of_go hgo).1, actionsE]
    rw [hvec]
    refine actIntrVec_ne fun hsc => ?_
    simpa [scvTrap, hsc] using hscv

/-- The first stage when the second part of an instruction has an exception. -/
theorem due_of_second (hd : Decoded c.e) (hout : busyOut t.b.ex (exIn t.b c) = false)
    (hsec : c.e.second = true) (next : Option (BitVec 64)) :
    Due true next (next1 t c) := by
  simp only [Due, if_true]
  left
  have hpend : pending t.b.ex (exIn t.b c) = none := pending_of_second hsec
  have hvec : (next1 t c).intrVec =
      actIntrVec t.b.ex (exIn t.b c) := by
    simp [e1Next, hout, presentedE, hpend, actionsE]
  rw [hvec]
  refine actIntrVec_ne fun hsc => ?_
  have halu := hd.trap (.inl hsc)
  rw [hd.pair hsec] at halu
  cases halu

/-- Nothing is pending for the stepped instruction itself. -/
theorem TraceInv.not_trapped (h : TraceInv t) (hs : t.stepping = true)
    (hintr : intr (wbIn t.b c) = false) (hv : validIn t.b.ex (exIn t.b c) = true)
    (hfp : (g.hasFpu && t.b.ex.ex1.fpExceptionNext) = false) :
    t.trapped = false ∧ t.next = none := by
  have h1 := (of_validIn hv).2.2.2.2.2.2.2
  have h2 := ex2_interrupt_of_not_intr hintr
  refine ⟨?_, h.fresh hs h1 h2⟩
  by_contra ht
  rcases h.quiet hs (by simpa using ht) with hq | hq | hq
  · rw [h1] at hq; cases hq
  · rw [h2] at hq; cases hq
  · rw [hfp] at hq; cases hq

include h hclear in
theorem TraceInv.step_first (hs : (traceStep t c).stepping = true)
    (hi : (next1 t c).interrupt = true) :
    Due (traceStep t c).trapped (traceStep t c).next (next1 t c) ∧
      ((traceStep t c).trapped = false →
        (ex1in t.b.ex (exIn t.b c)).advanceNia = false) := by
  obtain ⟨hrst, hintr, hcase⟩ := of_stepping hs
  rcases hcase with ⟨hgo, -⟩ | ⟨hgo, hs0⟩
  · -- the instruction itself is a trap
    have htrap : actTrap (exIn t.b c) = true := by
      obtain ⟨-, hexc | ⟨-, hold, -⟩⟩ := e1Next_interrupt hi
      · simpa [exception, hgo] using hexc
      · rw [go_of_interrupt hold] at hgo; cases hgo
    have ht : (traceStep t c).trapped = true := by simp [traceStep, hrst, hintr, hgo, htrap]
    rw [ht]
    exact ⟨due_of_trap hgo, fun hf => by cases hf⟩
  obtain ⟨ht, hn⟩ := ghosts_of_not_go hrst hintr hgo
  obtain ⟨-, hexc | ⟨hout, hold, hscv⟩⟩ := e1Next_interrupt hi
  · have hv := validIn_of_exception hexc
    obtain ⟨hout, hb, -⟩ := not_busy_of_validIn hv
    have hd := hclear.decoded (of_validIn hv).1
    cases hsec : c.e.second with
    | true =>
      rw [ht, hv, hsec]
      exact ⟨due_of_second hd hout hsec _, fun hf => by cases hf⟩
    | false =>
      have hpend := pending_of_traceNext (i := exIn t.b c) hv hsec (h.trace hs0)
      cases hfp : g.hasFpu && t.b.ex.ex1.fpExceptionNext with
      | true =>
        rw [hfp, if_pos rfl] at hpend
        rw [ht, h.fpNext hs0 hfp, Bool.or_true]
        refine ⟨?_, fun hf => by cases hf⟩
        simp [Due, e1Next, hout, presentedE, hpend]
      | false =>
        -- the trace interrupt takes the place of the instruction
        rw [hfp] at hpend
        simp only [false_eq_true, if_false] at hpend
        obtain ⟨hnt, hnn⟩ := h.not_trapped hs0 hintr hv hfp
        have hlegal := hclear.legal hs0 hv hsec
        rw [ht, hn, hv, hsec, hnt, hnn]
        refine ⟨⟨?_, ?_, ?_, ?_⟩, fun _ => ?_⟩
        · simp [e1Next, hout, presentedE, hpend]
        · simp [e1Next, hb, hgo]
        · simpa [e1Next, hout, presentedE, hpend, actionsE] using hlegal
        · have hnia : (next1 t c).lastNia = (exIn t.b c).e.nia := by
            simp [e1Next, hout, presentedE, hpend, actionsE]
          rw [hnia]
          rfl
        · simp [ex1in, hgo, hout]
  · have hv : validIn t.b.ex (exIn t.b c) = false := validIn_of_interrupt hold
    obtain ⟨hdue, hadv⟩ := h.first hs0 hold
    rw [ht, hn, hv]
    simp only [Bool.false_and, Bool.false_or, false_eq_true, if_false]
    refine ⟨?_, fun hf => by simpa [ex1in, hgo, hout] using hadv hf⟩
    have hfields : (next1 t c).intrVec = t.b.ex.ex1.e.intrVec ∧
        (next1 t c).hvIntr = t.b.ex.ex1.e.hvIntr ∧
        (next1 t c).lastNia = t.b.ex.ex1.e.lastNia := by
      simp [e1Next, hout]
    simpa only [Due, hfields.1, hfields.2.1, hfields.2.2, hscv] using hdue

section

variable (h : TraceInv t) (hs : (traceStep t c).stepping = true)

include h hs

theorem TraceInv.step_second (hi : (next2 t c).interrupt = true) :
    Due (traceStep t c).trapped (traceStep t c).next (next2 t c) := by
  obtain ⟨hrst, hintr, hcase⟩ := of_stepping hs
  obtain ⟨hold, hstall, -⟩ := e2Next_interrupt hi
  have hv : validIn t.b.ex (exIn t.b c) = false := validIn_of_interrupt hold
  have hgo := go_of_not_validIn hv
  have hs0 : t.stepping = true := by
    rcases hcase with ⟨hg, -⟩ | ⟨-, hs0⟩
    · rw [hgo] at hg; cases hg
    · exact hs0
  obtain ⟨ht, hn⟩ := ghosts_of_not_go hrst hintr hgo
  obtain ⟨hdue, hadv⟩ := h.first hs0 hold
  rw [ht, hn, hv]
  simp only [Bool.false_and, Bool.false_or, false_eq_true, if_false]
  cases htr : t.trapped with
  | true =>
    rw [htr] at hdue
    exact hdue
  | false =>
    rw [htr] at hdue
    simpa [Due, e2Next, hstall, hadv htr] using hdue

theorem TraceInv.step_fresh (h1 : (next1 t c).interrupt = false)
    (h2 : (next2 t c).interrupt = false) :
    (traceStep t c).next = none := by
  obtain ⟨hrst, hintr, ⟨hgo, -⟩ | ⟨hgo, hs0⟩⟩ := of_stepping hs
  · simp [traceStep, hgo]
  · have hv : validIn t.b.ex (exIn t.b c) = false := by
      by_contra hv
      have := e1Next_interrupt_of_exception (exception_of_not_go (by simpa using hv) hgo)
      rw [h1] at this
      cases this
    have hi : t.b.ex.ex1.e.interrupt = false := by
      by_contra hi
      rcases h.moves hintr (by simpa using hi) with hm | hm
      · rw [h1] at hm; cases hm
      · rw [h2] at hm; cases hm
    rw [(ghosts_of_not_go hrst hintr hgo).2, hv]
    exact h.fresh hs0 hi (ex2_interrupt_of_not_intr hintr)

theorem TraceInv.step_quiet (ht : (traceStep t c).trapped = true) :
    (next1 t c).interrupt = true ∨
      (next2 t c).interrupt = true ∨
      (g.hasFpu && (ex1in t.b.ex (exIn t.b c)).fpExceptionNext) = true := by
  obtain ⟨hrst, hintr, ⟨hgo, -⟩ | ⟨hgo, hs0⟩⟩ := of_stepping hs
  · simp only [traceStep, hrst, hintr, hgo, Bool.or_self, false_eq_true, if_false, if_true,
      or_eq_true] at ht
    rcases ht with htrap | hfp
    · exact .inl (e1Next_interrupt_of_exception (by simp [exception, hgo, htrap]))
    · right; right
      have hfpu : g.hasFpu = true := by
        simp only [fpIntr] at hfp
        split at hfp
        · simp only [and_eq_true] at hfp; exact hfp.1.1
        · simp only [and_eq_true] at hfp; exact hfp.1.1.2
        · cases hfp
      simp [ex1in, hgo, hfp, hfpu, interruptIn_intr hintr]
  · rw [(ghosts_of_not_go hrst hintr hgo).1, or_eq_true, and_eq_true] at ht
    rcases ht with ⟨hv, -⟩ | ht
    · exact .inl (e1Next_interrupt_of_exception (exception_of_not_go hv hgo))
    · rcases h.quiet hs0 ht with hq | hq | hq
      · rcases h.moves hintr hq with hm | hm
        · exact .inl hm
        · exact .inr (.inl hm)
      · rw [ex2_interrupt_of_not_intr hintr] at hq; cases hq
      · right; right
        simpa [ex1in, hgo, interruptIn_intr hintr] using hq

end

include h hclear in
theorem TraceInv.step_reset (hrst : c.rst = true) : TraceInv (traceStep t c) := by
  have hr : (exIn t.b c).rst = true := hrst
  have hs : (traceStep t c).stepping = false := by simp [traceStep, hrst]
  have hex : (traceStep t c).b.ex.ex1.e.interrupt = false ∧
      (traceStep t c).b.ex.ex2.e.interrupt = false := by
    simp [traceStep, step, Execute1.step, hr]
  constructor
  · exact h.units.step hclear.units hclear.fpu
  · exact .reset hrst
  all_goals simp [hs, hex]

theorem mmuAligned (henv : TraceEnv t c) : LoadStore.MmuAligned (lsIn t.b c) := fun hv hop =>
  (henv.decoded (of_validIn (validIn_of_go (go_of_lValid hv).1)).1).mmu hop

include h hclear in
theorem TraceInv.step : TraceInv (traceStep t c) := by
  cases hrst : c.rst with
  | true => exact h.step_reset hclear hrst
  | false =>
    have hr : (exIn t.b c).rst = false := hrst
    have henv := hclear.toTraceEnv
    have he1 : (traceStep t c).b.ex.ex1 = ex1in t.b.ex (exIn t.b c) := by
      simp [traceStep, Backend.step, Execute1.step, hr]
    have he2 : (traceStep t c).b.ex.ex2.e = e2Next t.b.ex (exIn t.b c) := by
      simp [traceStep, Backend.step, Execute1.step, hr, ex2in]
    refine ⟨h.units.step hclear.units hclear.fpu,
      h.slow.step h.units.ls (h.units.lsEnv hclear.units) (mmuAligned henv), ?_, ?_, ?_,
      fun hs => ?_, fun hs hfp => ?_, ?_, ?_, ?_, ?_⟩
    · rw [he1]; exact h.step_fpu henv
    · rw [he2]; exact h.step_excl henv hrst
    · rw [he1, he2]; exact TraceInv.step_redirect
    · obtain ⟨-, hintr, ⟨hgo, hst⟩ | ⟨hgo, hs0⟩⟩ := of_stepping hs
      · simp [he1, ex1in, interruptIn_intr hintr, hgo, doTrace_of_stepped hst]
      · simp [he1, ex1in, interruptIn_intr hintr, hgo, h.trace hs0]
    · obtain ⟨-, hintr, ⟨hgo, -⟩ | ⟨hgo, hs0⟩⟩ := of_stepping hs
      · have hfp' : fpIntr t.b.ex (exIn t.b c) = true := by
          simp only [he1, ex1in, interruptIn_intr hintr, hgo, false_eq_true,
            if_false, if_true, and_eq_true] at hfp
          exact hfp.2
        simp [traceStep, hrst, hintr, hgo, hfp']
      · have hfp' : (g.hasFpu && t.b.ex.ex1.fpExceptionNext) = true := by
          simpa [he1, ex1in, interruptIn_intr hintr, hgo] using hfp
        rw [(ghosts_of_not_go hrst hintr hgo).1, h.fpNext hs0 hfp', Bool.or_true]
    · rw [he1]; exact h.step_first hclear
    · rw [he2]; exact h.step_second
    · rw [he1, he2]; exact h.step_fresh
    · rw [he1, he2]; exact h.step_quiet

end Step

/-! ### Main result -/

section Main

variable {t : TraceTracked g} {c : Cycle}

/-- An interrupt leaves nothing of another one in execute1. -/
theorem cleared_of_intr (h : intr (wbIn t.b c) = true) :
    (step t.b c).ex.ex1.traceNext = false ∧ (step t.b c).ex.ex1.e.interrupt = false ∧
      (step t.b c).ex.ex2.e.interrupt = false := by
  have hi : (exIn t.b c).interruptIn.intr = true := h
  have hf : (exIn t.b c).flushIn = true := by simp [exIn, flushOut, h]
  simp only [step, Execute1.step]
  split
  · exact ⟨rfl, rfl, rfl⟩
  · exact ⟨by simp [ex1in, hi], by simp [ex1in, e1Next, hf], by
      simp [ex2in, e2Next, hf]⟩

/-- An interrupt that is neither for the hypervisor nor of `scv` saves the address in SRR0. -/
theorem srr0_of_intr (h : t.b.ex.ex2.e.interrupt = true) (hhv : t.b.ex.ex2.e.hvIntr = false)
    (hscv : t.b.ex.ex2.e.isScv = false) :
    (step t.b c).ex.evenSprs ramsprSrr0 = t.b.ex.ex2.e.lastNia := by
  have hw : (exIn t.b c).interruptIn.intr = true ∧ (exIn t.b c).interruptIn.hvIntr = false ∧
      (exIn t.b c).interruptIn.scvInt = false := by
    simp [exIn, interruptOut, intr, wbIn, eOut, h, hhv, hscv]
  simp [step, Execute1.step, evenSprsNext, ramsprWrAddr, hw]

/-- The interrupt that is taken after a stepped instruction is its own or the trace interrupt. -/
theorem TraceInv.taken (h : TraceInv t) (hs : t.stepping = true)
    (hintr : intr (wbIn t.b c) = true) :
    traceTaken (wbIn t.b c) = !ownInterrupt t (wbIn t.b c) := by
  cases he : t.b.ex.ex2.e.interrupt with
  | false =>
    have hno : (wbIn t.b c).e.interrupt = false := he
    simp only [intr, hno, Bool.false_or] at hintr
    simp [traceTaken, hno, ownInterrupt, Bool.or_assoc, hintr]
  | true =>
    obtain ⟨hfp, hls⟩ := h.excl he
    have hfp' : (wbIn t.b c).fp.interrupt = false := hfp
    have hls' : (wbIn t.b c).l.interrupt = false := hls
    have he' : (wbIn t.b c).e = t.b.ex.ex2.e := rfl
    have hdue := h.second hs he
    simp only [traceTaken, ownInterrupt, hfp', hls', he', he, Bool.or_false, Bool.true_and]
    cases ht : t.trapped with
    | true =>
      simp only [Due, ht, if_true] at hdue
      rcases hdue with hvec | hscv
      · rw [beq_eq_false_iff_ne.mpr hvec]
        rfl
      · simp [hscv]
    | false =>
      simp only [Due, ht, false_eq_true, if_false] at hdue
      simp [hdue.1, hdue.2.1]

/-- **Single stepping.** After an instruction that was executed with SE set, nothing but its own
second part is executed before the next interrupt. That is its own, or it is the trace interrupt and
saves in SRR0 the address of the instruction presented next. Of the trace interrupt nothing is left
in either case. -/
theorem single_step (h : Reachable traceStep TraceClear TraceStart t)
    (hclear : TraceClear t c) (hs : t.stepping = true) :
    (go t.b.ex (exIn t.b c) = true → c.e.second = true ∧ t.half = true) ∧
      (intr (wbIn t.b c) = true →
        traceTaken (wbIn t.b c) = !ownInterrupt t (wbIn t.b c) ∧
        (traceTaken (wbIn t.b c) = true →
          t.next = some ((traceStep t c).b.ex.evenSprs ramsprSrr0)) ∧
        (traceStep t c).b.ex.ex1.traceNext = false ∧
        (traceStep t c).b.ex.ex1.e.interrupt = false ∧
        (traceStep t c).b.ex.ex2.e.interrupt = false) := by
  have hinv : TraceInv t := h.induct (fun _ => TraceInv.init) fun _ _ hi he => hi.step he
  refine ⟨fun hgo => ?_, fun hintr => ⟨hinv.taken hs hintr, fun htaken => ?_,
    cleared_of_intr hintr⟩⟩
  · have hv := validIn_of_go hgo
    have hsec : c.e.second = true := by
      by_contra hsec
      have hno : (exIn t.b c).e.second = false := not_eq_true _ ▸ hsec
      have hpend := pending_of_traceNext hv hno (hinv.trace hs)
      rw [(of_go hgo).1] at hpend
      split at hpend <;> cases hpend
    exact ⟨hsec, hclear.pair hv hsec⟩
  · have hown := hinv.taken hs hintr
    rw [htaken] at hown
    have ht : t.trapped = false := by
      have : ownInterrupt t (wbIn t.b c) = false := by simpa using hown
      simp only [ownInterrupt, or_eq_false_iff] at this
      exact this.1.1
    have he : t.b.ex.ex2.e.interrupt = true := by
      simp only [traceTaken, and_eq_true] at htaken
      exact htaken.1.1
    have hdue := hinv.second hs he
    simp only [Due, ht, false_eq_true, if_false] at hdue
    obtain ⟨-, hscv, hhv, hnext⟩ := hdue
    rw [hnext]
    exact congrArg some (srr0_of_intr he hhv hscv).symm

end Main

/-! ### Runs -/

def traceReset : TraceTracked {} where
  b :=
    { ex := Execute1.step {} { rst := true }
      ls := LoadStore.bootState
      fp := Fpu.step {} { rst := true } }
  stepping := false
  half := false
  trapped := false
  next := none

theorem traceStart_reset : TraceStart traceReset :=
  ⟨⟨⟨{}, { rst := true }, rfl, rfl⟩, ⟨⟨{}, { rst := true }, rfl, rfl⟩, rfl, rfl⟩,
    ⟨{}, { rst := true }, rfl, rfl⟩⟩, rfl, rfl⟩

instance (t : TraceTracked g) (c : Cycle) : Decidable (TraceClear t c) :=
  decidable_of_iff _ (traceClear_iff ..).symm

/-- `mtmsrd` that sets SE. -/
def setSe : Cycle where
  e :=
    { valid := true, instrTag := ⟨0, true⟩, insnType := .mtmsrd, privileged := true, nia := 0x100
      readData3 := setBit resetMsr msrSe true }

/-- An instruction that does nothing. -/
def nopAt (nia : BitVec 64) : Cycle where
  e := { valid := true, instrTag := ⟨1, true⟩, insnType := .nop, nia := nia }

def illegalAt (nia : BitVec 64) : Cycle where
  e := { valid := true, instrTag := ⟨2, true⟩, insnType := .illegal, nia := nia }

def quietCycle : Cycle := {}

/-- SE is set, an instruction is stepped, and another one is presented. -/
def stepRun (c : Cycle) : List Cycle :=
  [setSe, quietCycle, quietCycle, nopAt 0x104, quietCycle, c, quietCycle]

/-- The address of the second `nop` is saved. -/
theorem single_step_nop :
    let t := run traceStep traceReset (stepRun (nopAt 0x108))
    t.stepping = true ∧ traceTaken (wbIn t.b quietCycle) = true ∧
      t.next = some ((traceStep t quietCycle).b.ex.evenSprs ramsprSrr0) ∧ t.next = some 0x108 := by
  intro t
  have hreach : Reachable traceStep TraceClear TraceStart t :=
    reachable_run traceStart_reset (by decide +kernel)
  have hs : t.stepping = true := by decide +kernel
  have htaken : traceTaken (wbIn t.b quietCycle) = true := by decide +kernel
  obtain ⟨-, hmain⟩ := single_step hreach (c := quietCycle) (by decide +kernel) hs
  exact ⟨hs, htaken, (hmain (by decide +kernel)).2.1 htaken, by decide +kernel⟩

/-- If the second instruction is illegal, the trace interrupt is taken all the same, but the address
is saved in HSRR0, and SRR0 keeps its old value. -/
theorem single_step_fails :
    let t := run traceStep traceReset (stepRun (illegalAt 0x108))
    Allowed traceStep (fun t c => TraceEnv t c ∧ FpuClear t.b c) traceReset
        (stepRun (illegalAt 0x108) ++ [quietCycle]) ∧
      t.stepping = true ∧ traceTaken (wbIn t.b quietCycle) = true ∧ t.next = some 0x108 ∧
      (traceStep t quietCycle).b.ex.evenSprs ramsprSrr0 = 0 ∧
      (traceStep t quietCycle).b.ex.evenSprs ramsprHsrr0 = 0x108 := by
  decide +kernel

end Backend

end Microwatt
