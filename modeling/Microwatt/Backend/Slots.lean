import Microwatt.Lib.Sole
import Microwatt.Execute.Flush
import Microwatt.LoadStore.Slots
import Microwatt.Backend.Trace

/-!
# One instruction in each stage of the units

Each of the three units has two stages, of which each holds at most one instruction. Here it is said
where an instruction of execute1 or of the FPU is, as it was for loadstore1, and how it goes from
one stage to the next.

In execute1 an instruction is in the first stage while it is waiting for a result, or is valid or an
interrupt in `ex1`, and in the second while it is so in `ex2`. The FPU has a single set of
registers. An instruction in it is in its first stage until a cycle in which loadstore1 does not
stall, and in the second from then on; it may be done before it gets there, and then has left the
states that do something, so that the next instruction may start.

## Main results

* `first_step` and `second_step` of `Execute1.SlotInv`, `Fpu.SlotInv` and `LoadStore.SlotInv`
-/

namespace Microwatt

open Bool

/-! ### Execute1 -/

namespace Execute1

variable {g : Generics}

section

variable (s : State g)

def holds1 : Bool := s.ex1.busy || s.ex1.e.valid || s.ex1.e.interrupt

def holds2 : Bool := s.ex2.e.valid || s.ex2.e.interrupt

def first : Option InstrTag := if holds1 s then some s.ex1.e.instrTag else none

def second : Option InstrTag := if holds2 s then some s.ex2.e.instrTag else none

/-- An instruction is accepted that does not go to another unit. One for another unit that
interrupts before it is executed stays here. -/
def accepts (i : Inputs) : Bool := validIn s i && !(go s i && i.e.unit != .alu)

/-- The instruction in the first stage goes on to the second. -/
def moves (i : Inputs) : Bool := holds1 s && !s.ex1.busy && !stage2Stall i

end

/-- What the two stages may hold. -/
structure SlotInv (s : State g) : Prop where
  waits : s.ex1.busy.toNat = waiting s.ex1
  divider : s.ex1.divInProgress = true → g.hasFpu = false
  /-- While there is no result, there is nothing for the second stage. -/
  idle : s.ex1.busy = true → s.ex1.e.valid = false ∧ s.ex1.e.interrupt = false
  redirect1 : s.ex1.e.redirect = true → s.ex1.e.valid = true
  redirect2 : s.ex2.e.redirect = true → s.ex2.e.valid = true
  writes2 : (s.ex2.e.writeEnable || s.ex2.e.writeCrEnable || s.ex2.e.writeXercEnable) = true →
    s.ex2.e.valid = true

/-- Only instructions of the ALU take time in execute1 or trap. -/
def AluOnly (g : Generics) (i : Inputs) : Prop :=
  i.e.valid = true → i.e.unit ≠ .alu → owait g i = false ∧ actTrap i = false

variable {s : State g} {i : Inputs}

theorem SlotInv.reset (hrst : i.rst = true) : SlotInv (step s i) := by
  constructor <;> simp [step, hrst, waiting]

theorem starts_eq_owait (g : Generics) (i : Inputs) :
    (startDiv g i || startMul i || startBsort i || startBperm i) = owait g i := by
  simp only [owait]
  cases startDiv g i <;> cases startMul i <;> cases startBsort i <;> cases startBperm i <;> rfl

theorem actTrap_of_owait (h : owait g i = true) : actTrap i = false := by
  simp only [owait, startBsort, startBperm, startMul, startDiv, or_eq_true, and_eq_true,
    beq_iff_eq] at h
  simp only [actTrap]
  rcases h with ((h | h) | ⟨h, -⟩ | h) | ⟨-, (h | h) | h⟩ <;> rw [h]

theorem next_of_not_busy (hw : s.ex1.busy.toNat = waiting s.ex1) (hb : s.ex1.busy = false) :
    busyNext s i = (go s i && owait g i) ∧
      validNext s i = (if go s i then actComplete s i else busyOut s i && s.ex1.e.valid) := by
  obtain ⟨hm, hf, hd, hbs, hbp⟩ := waiting_zero (by rw [← hw, hb]; rfl)
  constructor
  · simp [busyNext, hm, hd, hbs, hbp, starts_eq_owait]
  · cases hgo : go s i <;> cases ho : busyOut s i <;>
      simp [validNext, hm, hf, hd, hbs, hbp, hgo, ho]

/-- A stage that is busy stays so or has its result. -/
theorem next_of_busy (hw : s.ex1.busy.toNat = waiting s.ex1)
    (hdiv : s.ex1.divInProgress = true → g.hasFpu = false) (hb : s.ex1.busy = true) :
    validNext s i = !busyNext s i := by
  have hgo : go s i = false := go_of_busy hb
  rw [hb] at hw
  simp only [waiting] at hw
  cases hm : s.ex1.mulInProgress <;> cases hf : s.ex1.mulFinish <;>
    cases hd : s.ex1.divInProgress <;> cases hbs : s.ex1.bsortInProgress <;>
    cases hbp : s.ex1.bpermInProgress <;> simp_all [validNext, busyNext]

theorem SlotInv.step_idle (h : SlotInv s) (hb : (ex1in s i).busy = true) :
    (ex1in s i).e.valid = false ∧ (ex1in s i).e.interrupt = false := by
  simp only [ex1in, and_eq_true, not_eq_true'] at hb ⊢
  obtain ⟨hb, hflush⟩ := hb
  cases hbusy : s.ex1.busy with
  | true =>
    have hv := next_of_busy (i := i) h.waits h.divider hbusy
    simp [e1Next, hflush, hv, hb, hbusy, busyOut_of_busy hbusy, (h.idle hbusy).2]
  | false =>
    obtain ⟨hbn, hvn⟩ := next_of_not_busy (i := i) h.waits hbusy
    rw [hbn, and_eq_true] at hb
    have hv : Execute1.validIn s i = true := by
      have := hb.1
      simp only [go, and_eq_true] at this
      exact this.1
    obtain ⟨-, hfree, -⟩ := Backend.not_busy_of_validIn hv
    constructor
    · simp [e1Next, hvn, hb.1, actComplete, hb.2]
    · simp only [e1Next, hflush, hfree, exception, hb.1, actTrap_of_owait hb.2]
      simp

theorem SlotInv.step (h : SlotInv s)
    (hsort : i.flushIn = true →
      (s.ex1.bsortInProgress = true → s.bsort.sd = true) ∧
      (s.ex1.bpermInProgress = true → s.bsort.bpDone = true)) : SlotInv (step s i) := by
  cases hrst : i.rst with
  | true => exact .reset hrst
  | false =>
    have hex1 : (Execute1.step s i).ex1 = ex1in s i := by simp [Execute1.step, hrst]
    have hex2 : (Execute1.step s i).ex2.e = e2Next s i := by simp [Execute1.step, hrst, ex2in]
    constructor
    · rw [hex1]; exact busy_step h.divider hsort h.waits
    · rw [hex1]; exact divider_step h.divider
    · rw [hex1]; exact h.step_idle
    · rw [hex1]
      intro hr
      simp only [ex1in, e1Next, and_eq_true] at hr ⊢
      exact hr.1
    · rw [hex2]
      intro hr
      simp only [e2Next, and_eq_true] at hr ⊢
      exact hr.1
    · rw [hex2]
      intro hr
      simp only [e2Next, or_eq_true, and_eq_true] at hr ⊢
      tauto

/-- The second stage takes over what leaves the first. What it held is gone, it completes in one
cycle. -/
theorem SlotInv.second_step (h : SlotInv s) (hrst : i.rst = false) (hflush : i.flushIn = false) :
    second (Execute1.step s i) = if moves s i then first s else none := by
  have hholds : holds2 (Execute1.step s i) = moves s i := by
    cases hb : s.ex1.busy with
    | true =>
      obtain ⟨hv, hi⟩ := h.idle hb
      simp [holds2, moves, Execute1.step, hrst, ex2in, e2Next, hv, hi, hb]
    | false =>
      cases hst : stage2Stall i <;>
        simp [holds2, moves, holds1, Execute1.step, hrst, ex2in, e2Next, hflush, hb, hst]
  have htag : (Execute1.step s i).ex2.e.instrTag = s.ex1.e.instrTag := by
    simp [Execute1.step, hrst, ex2in, e2Next]
  rw [second, hholds, htag]
  cases hm : moves s i with
  | false => rfl
  | true =>
    have hh : holds1 s = true := by
      simp only [moves, and_eq_true] at hm
      exact hm.1.1
    simp [first, hh]

/-- An accepted instruction is in the first stage, unless it goes to another unit. -/
theorem SlotInv.holds1_of_validIn (h : SlotInv s) (hrst : i.rst = false) (halu : AluOnly g i)
    (hv : validIn s i = true) :
    first (Execute1.step s i) = if accepts s i then some i.e.instrTag else none := by
  obtain ⟨hout, hfree, hflush⟩ := Backend.not_busy_of_validIn hv
  have hb : s.ex1.busy = false := by
    simp only [or_eq_false_iff] at hfree
    exact hfree.1.1
  obtain ⟨hbn, hvn⟩ := next_of_not_busy (i := i) h.waits hb
  have hev : i.e.valid = true := by
    simp only [validIn, and_eq_true] at hv
    exact hv.1
  have htag : (Execute1.step s i).ex1.e.instrTag = i.e.instrTag := by
    simp [Execute1.step, hrst, ex1in, e1Next_instrTag, hout]
  have hholds : holds1 (Execute1.step s i) = accepts s i := by
    simp only [holds1, accepts, Execute1.step, hrst, ex1in, e1Next, hbn, hvn, hflush, hfree, hv]
    cases hgo : go s i with
    | false => simp [Backend.exception_of_not_go hv hgo]
    | true =>
      by_cases hu : i.e.unit = .alu
      · have hexc : actException s i = false := by simp [actException, (Backend.of_go hgo).2]
        cases ho : owait g i <;> simp [hu, hev, hexc, ho, actComplete]
      · obtain ⟨ho, ht⟩ := halu hev hu
        have hne : (i.e.unit == UnitType.alu) = false := by simpa using hu
        simp [bne, hne, ho, ht, actComplete, exception, hgo]
  rw [first, hholds, htag]

/-- The first stage takes what is accepted, and keeps its instruction until that moves on. -/
theorem SlotInv.first_step (h : SlotInv s) (hrst : i.rst = false) (hflush : i.flushIn = false)
    (halu : AluOnly g i) (hl : i.l.l2stall = true → i.l.busy = true)
    (hp : i.fp.f2stall = true → i.fp.busy = true)
    (hheld : holds1 s = true → busyOut s i = true → s.ex1.busy = true ∨ stage2Stall i = true) :
    first (Execute1.step s i) =
      if accepts s i then some i.e.instrTag else if moves s i then none else first s := by
  have hfree : busyOut s i = false → s.ex1.busy = false ∧ stage2Stall i = false := by
    intro hout
    simp only [busyOut, or_eq_false_iff] at hout
    refine ⟨hout.1.1.2, ?_⟩
    by_contra hst
    simp only [stage2Stall, not_eq_false, or_eq_true] at hst
    rcases hst with hst | hst
    · rw [hl hst] at hout; cases hout.1.1.1
    · rw [hp hst] at hout; cases hout.1.2
  cases hv : validIn s i with
  | true =>
    obtain ⟨hout, -, -⟩ := Backend.not_busy_of_validIn hv
    obtain ⟨hb, hst⟩ := hfree hout
    rw [h.holds1_of_validIn hrst halu hv]
    cases ha : accepts s i with
    | true => rfl
    | false =>
      cases hh : holds1 s <;> simp [moves, first, hh, hb, hst]
  | false =>
    have hacc : accepts s i = false := by simp [accepts, hv]
    have hgo : go s i = false := by simp [go, hv]
    have hexc : exception s i = false := Flag.down Backend.validIn_of_exception hv
    rw [hacc, if_neg (by simp)]
    cases hout : busyOut s i with
    | false =>
      obtain ⟨hb, hst⟩ := hfree hout
      obtain ⟨hbn, hvn⟩ := next_of_not_busy (i := i) h.waits hb
      have hkeep : (s.ex1.busy || i.l.busy || i.fp.busy) = false := by
        simp only [busyOut, or_eq_false_iff] at hout
        simp [hout.1.1, hout.1.2]
      have hholds : holds1 (Execute1.step s i) = false := by
        simp only [holds1, Execute1.step, hrst, ex1in, e1Next, hbn, hvn, hgo, hflush, hkeep, hexc,
          hout]
        simp
      rw [first, hholds]
      cases hh : holds1 s <;> simp [moves, first, hh, hb, hst]
    | true =>
      have htag : (Execute1.step s i).ex1.e.instrTag = s.ex1.e.instrTag := by
        simp [Execute1.step, hrst, ex1in, e1Next_instrTag, hout]
      cases hb : s.ex1.busy with
      | true =>
        -- the result has come or not
        have hvn := next_of_busy (i := i) h.waits h.divider hb
        have hholds : holds1 (Execute1.step s i) = true := by
          cases hbn : busyNext s i <;>
            simp [holds1, Execute1.step, hrst, ex1in, e1Next, hvn, hbn, hflush]
        rw [first, hholds, htag]
        simp [moves, hb, first, holds1]
      | false =>
        obtain ⟨hbn, hvn⟩ := next_of_not_busy (i := i) h.waits hb
        cases hh : holds1 s with
        | true =>
          have hst := (hheld hh hout).resolve_left (by simp [hb])
          have hkeep : (s.ex1.busy || i.l.busy || i.fp.busy) = true := by
            simp only [stage2Stall, or_eq_true] at hst
            rcases hst with hst | hst
            · simp [hl hst]
            · simp [hp hst]
          have hholds : holds1 (Execute1.step s i) = true := by
            simp only [holds1, hb, Bool.false_or] at hh
            simp only [holds1, Execute1.step, hrst, ex1in, e1Next, hbn, hvn, hgo, hflush, hkeep,
              hout]
            simpa using hh
          rw [first, hholds, htag]
          simp [moves, hst, first, hh]
        | false =>
          have hvi : s.ex1.e.valid = false ∧ s.ex1.e.interrupt = false := by
            simp only [holds1, or_eq_false_iff] at hh
            exact ⟨hh.1.2, hh.2⟩
          have hholds : holds1 (Execute1.step s i) = false := by
            simp only [holds1, Execute1.step, hrst, ex1in, e1Next, hbn, hvn, hgo, hflush, hout,
              hexc]
            simp [hvi]
          rw [first, hholds]
          simp [moves, first, hh]

theorem empty_step (hflush : (i.rst || i.flushIn) = true) :
    first (step s i) = none ∧ second (step s i) = none := by
  cases hrst : i.rst with
  | true => simp [first, second, holds1, holds2, step, hrst]
  | false =>
    have hf : i.flushIn = true := by simpa [hrst] using hflush
    simp [first, second, holds1, holds2, step, hrst, ex1in, ex2in, e1Next, e2Next, hf]

end Execute1

/-! ### The FPU -/

namespace Fpu

/-- The instruction in the first stage: one that is executed and has not been let into the second,
or one that is done and cannot complete yet. -/
def first (r : Control) : Option InstrTag :=
  if r.state != .idle && !r.f2stall then some r.op.instrTag
  else if r.instrDone && !(r.complete || r.doIntr) then some r.completeTag
  else none

def second (r : Control) : Option InstrTag :=
  if r.complete || r.doIntr then some r.completeTag
  else if r.f2stall then some r.op.instrTag
  else none

/-- The instruction in the first stage goes on to the second. -/
def moves (r : Control) (i : Inputs) : Bool := (first r).isSome && !i.e.stall

/-- What the stages may hold. -/
structure SlotInv (r : Control) : Prop extends Busy r where
  working : r.busy = true → r.state ≠ .idle
  /-- What is done has left the states that do something, or completes. -/
  done : r.instrDone = true → r.state ≠ .idle → (r.complete || r.doIntr) = true
  held : r.f2stall = true → r.complete = false ∧ r.doIntr = false

/-- An instruction comes only if the FPU is not busy and nothing stalls it, and loadstore1 does not
stall an instruction in the second stage. -/
structure SlotEnv (r : Control) (i : Inputs) : Prop where
  issue : i.e.valid = true → r.busy = false ∧ i.e.stall = false
  stall : r.f2stall = true → i.e.stall = false
  flush : (i.rst || i.flushIn) = true → r.cycle1Ar = false

variable {r : Control} {i : Inputs}

theorem rin_complete (r : Control) (i : Inputs) :
    ((rin r i).complete || (rin r i).doIntr) = (instrDoneNext r i && !i.e.stall) := by
  cases hd : instrDoneNext r i <;> cases hs : i.e.stall <;> cases hi : illegalNext r i <;>
    simp [rin, hd, hs, hi]

theorem SlotInv.not_stalled (h : SlotInv r) (hs : r.state = .idle) : r.f2stall = false := by
  by_contra hf
  exact h.stall (by simpa using hf) hs

theorem SlotInv.not_done (h : SlotInv r) (hf : r.f2stall = true) : r.instrDone = false := by
  by_contra hd
  have hc := h.done (by simpa using hd) (h.stall hf)
  rw [(h.held hf).1, (h.held hf).2] at hc
  cases hc

variable (h : SlotInv r) (henv : SlotEnv r i) (hrun : (i.rst || i.flushIn) = false)

include h henv in
/-- An instruction does not come to a busy FPU. -/
theorem SlotInv.not_valid (hs : r.state ≠ .idle) : i.e.valid = false := by
  by_contra hv
  have hb := h.busy hs
  rw [(henv.issue (by simpa using hv)).1] at hb
  cases hb

include h henv in
theorem SlotInv.step : SlotInv (Fpu.step r i) := by
  have hbase := h.toBusy.step (fun hv => (henv.issue hv).1) henv.flush
  refine ⟨hbase, ?_, ?_, ?_⟩
  all_goals
    simp only [Fpu.step]
    split
    · simp
  · intro hb
    simp only [rin] at hb ⊢
    split at hb
    · cases hb
    · next hfin =>
      rw [if_neg hfin]
      refine stateNext_ne_idle ?_
      rw [or_eq_true, and_eq_true] at hb
      rcases hb with hb | hb
      · exact .inl (h.working hb)
      · exact .inr hb.2
  · intro hd hs
    rw [rin_complete]
    have hd' : instrDoneNext r i = true := hd
    have hidle : r.state = .idle := by
      by_contra hst
      exact hs (by simp [rin, finishes, hd', hst])
    have hv : i.e.valid = true := by
      by_contra hv
      refine hs ?_
      simp [rin, finishes_of_idle hidle, stateNext_of_idle hidle (h.cycle1_of_idle hidle), hv]
    rw [hd', (henv.issue hv).2]
    rfl
  · intro hf
    rw [← or_eq_false_iff, rin_complete]
    by_contra hc
    rw [not_eq_false, and_eq_true] at hc
    by_cases hidle : r.state = .idle
    · simp [rin, finishes_of_idle hidle, hidle, h.not_stalled hidle] at hf
    · simp [rin, finishes, hc.1, hidle] at hf

/-- An FPU with nothing to do may have a result. -/
theorem SlotInv.of_idle (h : SlotInv r) (hidle : r.state = .idle) :
    (rin r i).f2stall = false ∧ (rin r i).completeTag = r.completeTag ∧
      first r = if instrDoneNext r i then some r.completeTag else none := by
  have hdone := Backend.instrDoneNext_of_idle (i := i) h.toBusy hidle
  refine ⟨?_, ?_, ?_⟩
  · simp [rin, finishes_of_idle hidle, hidle, h.not_stalled hidle]
  · simp [rin, finishes_of_idle hidle]
  · simp [first, hidle, hdone]

include h henv hrun in
/-- The first stage takes what comes, and keeps its instruction while loadstore1 stalls. -/
theorem SlotInv.first_step :
    first (Fpu.step r i) =
      if i.e.valid then some i.e.itag else if moves r i then none else first r := by
  have hstep : Fpu.step r i = rin r i := by simp [Fpu.step, hrun]
  rw [hstep, first, rin_complete]
  by_cases hidle : r.state = .idle
  · obtain ⟨hf', htag, hfirst⟩ := h.of_idle (i := i) hidle
    have hnext := stateNext_of_idle (i := i) hidle (h.cycle1_of_idle hidle)
    cases hv : i.e.valid with
    | true =>
      have hs : (rin r i).state ≠ .idle := by
        simpa [rin, finishes_of_idle hidle, hnext, hv] using startState_ne_idle i.e
      have hop : (rin r i).op.instrTag = i.e.itag := by simp [rin, hv, capture]
      simp [hs, hf', hop]
    | false =>
      have hs : (rin r i).state = .idle := by simp [rin, finishes_of_idle hidle, hnext, hv]
      have hd' : (rin r i).instrDone = instrDoneNext r i := rfl
      cases hd : instrDoneNext r i <;> cases hst : i.e.stall <;>
        simp [hs, hd', hd, hst, htag, moves, hfirst]
  · have hv := h.not_valid henv hidle
    have hop : (rin r i).op = r.op := by simp [rin, hv]
    have hd' : (rin r i).instrDone = instrDoneNext r i := rfl
    cases hd : instrDoneNext r i with
    | true =>
      have hs : (rin r i).state = .idle := by simp [rin, finishes, hd, hidle]
      have htag : (rin r i).completeTag = r.op.instrTag := by simp [rin, finishes, hd, hidle]
      cases hf : r.f2stall with
      | true =>
        have hst := henv.stall hf
        have hno := h.not_done hf
        simp [hs, hd', hd, hst, hv, moves, first, hf, hno]
      | false =>
        cases hst : i.e.stall <;> simp [hs, hd', hd, hst, hv, htag, moves, first, hf, hidle]
    | false =>
      have hs : (rin r i).state ≠ .idle := by
        simpa [rin, finishes, hd] using stateNext_ne_idle (i := i) (.inl hidle)
      have hf' : (rin r i).f2stall = (!i.e.stall || r.f2stall) := by
        cases hst : i.e.stall <;> simp [rin, finishes, hd, hidle, hst]
      cases hf : r.f2stall with
      | true =>
        have hno := h.not_done hf
        simp [hd', hd, hf', hf, hv, moves, first, hno]
      | false =>
        cases hst : i.e.stall <;> simp [hs, hd', hd, hf', hf, hst, hv, hop, moves, first, hidle]

include h henv hrun in
/-- The second stage takes over what leaves the first, or keeps its own until it completes. -/
theorem SlotInv.second_step :
    second (Fpu.step r i) =
      if moves r i then first r else if r.complete || r.doIntr then none else second r := by
  have hstep : Fpu.step r i = rin r i := by simp [Fpu.step, hrun]
  rw [hstep, second, rin_complete]
  by_cases hidle : r.state = .idle
  · have hf := h.not_stalled hidle
    obtain ⟨hf', htag, hfirst⟩ := h.of_idle (i := i) hidle
    cases hd : instrDoneNext r i <;> cases hst : i.e.stall <;> cases hc : r.complete || r.doIntr <;>
      simp [hd, hst, hf', htag, moves, hfirst, second, hf, hc]
  · have hop : (rin r i).op = r.op := by simp [rin, h.not_valid henv hidle]
    cases hf : r.f2stall with
    | true =>
      have hst := henv.stall hf
      obtain ⟨hc, hi⟩ := h.held hf
      have hno := h.not_done hf
      have hfirst : first r = none := by simp [first, hf, hno]
      cases hd : instrDoneNext r i with
      | true =>
        have htag : (rin r i).completeTag = r.op.instrTag := by simp [rin, finishes, hd, hidle]
        simp [hst, htag, moves, hfirst, second, hf, hc, hi]
      | false =>
        have hf' : (rin r i).f2stall = true := by simp [rin, finishes, hd, hf]
        simp [hf', hop, moves, hfirst, second, hf, hc, hi]
    | false =>
      have hfirst : first r = some r.op.instrTag := by simp [first, hf, hidle]
      cases hd : instrDoneNext r i with
      | true =>
        have htag : (rin r i).completeTag = r.op.instrTag := by simp [rin, finishes, hd, hidle]
        have hf' : (rin r i).f2stall = false := by simp [rin, finishes, hd, hidle]
        cases hst : i.e.stall <;> cases hc : r.complete || r.doIntr <;>
          simp [hf', htag, moves, hfirst, second, hf, hst, hc]
      | false =>
        have hf' : (rin r i).f2stall = !i.e.stall := by
          cases hst : i.e.stall <;> simp [rin, finishes, hd, hidle, hst, hf]
        cases hst : i.e.stall <;> cases hc : r.complete || r.doIntr <;>
          simp [hf', hop, moves, hfirst, second, hf, hst, hc]

theorem empty_step (hflush : (i.rst || i.flushIn) = true) :
    first (step r i) = none ∧ second (step r i) = none := by
  simp [first, second, step, hflush]

end Fpu

/-! ### Loadstore1 -/

namespace LoadStore

variable {b : Bool} {p : Port} {t : Tracked} {i : Inputs}

def first (s : State) : Option InstrTag := if holds1 s then some s.r1.req.instrTag else none

def second (s : State) : Option InstrTag := if holds2 s then some s.r2.req.instrTag else none

variable (h : SlotInv t) (hport : PortInv p t) (hinv : Inv b t) (hslow : Slow t)
  (henv : PortEnv p t.ls i) (hsend : SendEnv t.ls i) (hrst : i.rst = false)
  (hflush : flush t.ls i = false)

include hport hsend hrst hflush in
/-- The first stage takes what is sent, and keeps its instruction until that moves on. -/
theorem SlotInv.first_step :
    first (t.step b i).ls =
      if i.l.valid then some i.l.instrTag else if moves t.ls i then none else first t.ls := by
  have hr1 := t.r1_step b hrst
  have hstep := holds1_step (b := b) hport hsend hflush
  simp only [first, holds1, hr1]
  split at hstep
  · next hc =>
    simp only [and_eq_true, not_eq_true'] at hc
    obtain ⟨hv, htag, hbusy⟩ := hstep
    have hlv : i.l.valid = false := Flag.down hsend.issue hbusy
    have hv1 : t.ls.r1.req.valid = true := hc.1
    simp [hv, htag, hlv, hc.2, hv1]
  · next hc =>
    rw [hstep.1]
    cases hlv : i.l.valid with
    | true => simp [hstep.2 hlv]
    | false =>
      by_cases hv1 : t.ls.r1.req.valid = true
      · have hm : moves t.ls i = true := by simpa [holds1, hv1] using hc
        simp [hm]
      · simp [hv1]

include h hport hinv hslow henv hsend hrst hflush in
/-- The second stage takes over what leaves the first, or keeps its own until it completes. -/
theorem SlotInv.second_step (hi : t.ls.r3.interrupt = false) :
    second (t.step b i).ls =
      if moves t.ls i then first t.ls else if complete t.ls i then none else second t.ls := by
  have hr2 := t.r2_step b hrst
  have hr3 := t.r3_step b hrst
  have hi3 : (r3in b t.ls i).interrupt = false := hflush
  obtain ⟨hholds, htag⟩ := h.holds2_step hport hinv hslow henv hsend hflush hi
  have hholds' : holds2 (t.step b i).ls = (moves t.ls i || (holds2 t.ls && !complete t.ls i)) := by
    rw [holds2, hr2, hr3, hi3, Bool.or_false]
    exact hholds
  rw [second, hholds', hr2, htag]
  cases hm : moves t.ls i with
  | true =>
    simp only [moves, and_eq_true] at hm
    simp [hm.1.1, first, holds1, hm.1.2]
  | false =>
    cases hc : complete t.ls i with
    | true => simp
    | false =>
      cases hh : holds2 t.ls with
      | false => simp [second, hh]
      | true =>
        -- what does not complete does not move
        have hadv : advance t.ls i = false := by
          rw [← h.complete_eq hport hslow henv hsend hh hi]
          exact hc
        simp [second, hh, takes, hadv]

theorem valid2_of_flush (hport : PortInv p t) (hbase : Env t i) (hflush : flush t.ls i = true) :
    t.ls.r2.req.valid = true := by
  simp only [flush, or_eq_true, and_eq_true] at hflush
  rcases hflush with ((htrap | hal) | hintr) | herr
  · simp only [hashchkTrap, and_eq_true] at htrap
    exact (hport.waits (hbase.answer htrap.1.1).1).1
  · exact hal.1
  · simp only [dcacheIntr, and_eq_true] at hintr
    exact (hport.waits (hbase.error hintr.1).1).1
  · exact (hbase.mmu (by simp [herr])).1

include h hport hslow henv hsend hrst in
/-- An interrupt empties the first stage. The instruction that it is for may have been there. -/
theorem SlotInv.flushed_step (hflush : flush t.ls i = true) (hi : t.ls.r3.interrupt = false) :
    advance t.ls i = false ∧ complete t.ls i = false ∧ first (t.step b i).ls = none ∧
      second (t.step b i).ls = some t.ls.r2.req.instrTag ∧
      (second t.ls = some t.ls.r2.req.instrTag ∨
        (second t.ls = none ∧ first t.ls = some t.ls.r2.req.instrTag)) := by
  have hbase := hport.env hslow henv hsend
  have hadv := hslow.not_advance_of_flush hbase hflush
  have hv2 := valid2_of_flush hport hbase hflush
  have hc : complete t.ls i = false :=
    Flag.down (h.advance_of_complete hport hslow henv hsend hi) hadv
  refine ⟨hadv, hc, ?_, ?_, ?_⟩
  · simp [first, holds1, Tracked.step, LoadStore.step, hrst, r1in, hflush]
  · have hi3 : (r3in b t.ls i).interrupt = true := hflush
    have ht : takes t.ls i = false := by simp [takes, hadv]
    simp [second, holds2, Tracked.step, LoadStore.step, hrst, hi3, r2in, nextReq2, ht]
  · cases hl : t.ls.r2.req.last with
    | true => exact .inl (by simp [second, holds2, hv2, hl])
    | false =>
      obtain ⟨hv1, htag⟩ := h.part hv2 hl
      have hc3 : t.ls.r3.complete = false := by
        by_contra hc3
        have hlast := ((h.done (by simp [hc3])).2.2.2 hv2).1
        rw [hl] at hlast
        cases hlast
      exact .inr ⟨by simp [second, holds2, hl, hc3, hi], by simp [first, holds1, hv1, htag]⟩

end LoadStore

end Microwatt
