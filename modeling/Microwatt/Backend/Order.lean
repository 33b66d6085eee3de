import Microwatt.Backend.Core

/-!
# One completion at a time

Seen from outside, the three units are one pipeline of two stages. An instruction that execute1
accepts is in the first stage of one of the units, the one before it in the second stage of that or
another unit, and nothing enters a stage before what was there has left it. What keeps the units in
step is that a unit whose first stage cannot move on is busy, and that a unit whose second stage
cannot complete stalls the others. So instructions complete in the order in which they were issued,
one at a time, and with the one in decode2 at most four are outstanding, as many as there are tags.

There are five ways in which this can go wrong.

* A flush while the bit sorter is at work leaves behind a result that nobody waits for.
* A request that is sent to the data cache behind a `hashchk` is answered too early.
* An instruction of the FPU that is done but held up by loadstore1 does not keep execute1 busy. When
  it takes its interrupt, an instruction that was accepted in the cycle before may be in loadstore1,
  which has no flush input, or in its second cycle in the FPU.
* The same happens to the FPU if there is a reset in the second cycle of an arithmetic instruction.
* Without an FPU, an instruction for it is neither illegal nor ever completes.

## Main results

* `Core.OrderInv.first_step`, `Core.OrderInv.second_step` — a cycle without a flush
* `Core.OrderInv.step`
* `Core.one_completion`, `Core.one_completion_fails`
* `Core.interrupt_precise`, `Core.flush_empties`
* `Core.one_pipeline`, `Core.serialized_alone`, `Core.loads_and_stores`
-/

namespace Microwatt

open Clocked Execute1 LoadStore Backend Writeback List
open Bool (and_eq_true and_eq_true_iff false_eq_true not_eq_false not_eq_true' or_eq_false_iff
  or_eq_true)

namespace Core

variable {g : Generics} {x : Bool} {t : Core g} {c : Cycle}

/-! ### The stages -/

section

variable (t : Core g)

/-- What decode2 presents to execute1. -/
abbrev e : Decode2ToExecute1 := Decode2.eOut t.dec.dec2

/-- The inputs of decode2. -/
abbrev decPorts (c : Cycle) : Decode2.Inputs := t.dec.ports (decCycle t c)

def first : UnitType → Option InstrTag
  | .alu => Execute1.first t.b.ex
  | .ldst => LoadStore.first t.b.ls.ls
  | .fpu => Fpu.first t.b.fp

/-- The instruction in the second stage of a unit. -/
def second : UnitType → Option InstrTag
  | .alu => Execute1.second t.b.ex
  | .ldst => LoadStore.second t.b.ls.ls
  | .fpu => Fpu.second t.b.fp

def young : Option InstrTag :=
  if t.e.valid then some t.e.instrTag else none

def lsIn (c : Cycle) : LoadStore.Inputs := Backend.lsIn t.b (units t c)

def fpIn (c : Cycle) : Fpu.Inputs := Backend.fpIn t.b (units t c)

/-- Execute1 accepts the instruction in decode2. -/
def accepted (c : Cycle) : Bool := validIn t.b.ex (exIn t c)

/-- The instruction that enters the first stage of a unit. -/
def enters (c : Cycle) : UnitType → Option InstrTag
  | .alu => if accepts t.b.ex (exIn t c) then some t.e.instrTag else none
  | .ldst => if (lsIn t c).l.valid then some t.e.instrTag else none
  | .fpu => if (fpIn t c).e.valid then some t.e.instrTag else none

/-- The instruction in the first stage of a unit goes on to the second. -/
def moves (c : Cycle) : UnitType → Bool
  | .alu => Execute1.moves t.b.ex (exIn t c)
  | .ldst => LoadStore.moves t.b.ls.ls (lsIn t c)
  | .fpu => Fpu.moves t.b.fp (fpIn t c)

/-- The instruction in the second stage of a unit completes. -/
def leaves (c : Cycle) : UnitType → Bool
  | .alu => true
  | .ldst => complete t.b.ls.ls (lsIn t c)
  | .fpu => t.b.fp.complete || t.b.fp.doIntr

/-- Something is flushed in this cycle. It shows in the registers. -/
def flushes : Bool :=
  t.b.ex.ex2.e.redirect || t.b.ex.ex2.e.interrupt || t.b.ls.ls.r3.interrupt || t.b.fp.doIntr

end

theorem flushOut_eq : flushOut (wb t c) = flushes t := by
  simp [flushOut, intr, wb, wbIn, Execute1.eOut, LoadStore.lOut, Fpu.wOut,
    flushes, Bool.or_assoc]

/-- None of the things happens that bring the units out of step. -/
@[mk_iff] structure Clear (t : Core g) (c : Cycle) : Prop where
  /-- No flush finds the bit sorter at work. -/
  sorter : flushes t = true →
    (t.b.ex.ex1.bsortInProgress = true → t.b.ex.bsort.sd = true) ∧
    (t.b.ex.ex1.bpermInProgress = true → t.b.ex.bsort.bpDone = true)
  /-- Nothing is sent to the data cache behind a `hashchk`. -/
  hash : HashAlone g.hasFpu t.b.ls.ls (lsIn t c)
  /-- Nothing goes to loadstore1 or to the FPU when the FPU is about to interrupt. -/
  fpuIntr : (Fpu.rin t.b.fp (fpIn t c)).doIntr = true →
    go t.b.ex (exIn t c) = true → t.e.unit = .alu
  /-- No reset comes in the second cycle of an arithmetic instruction of the FPU. -/
  fpuReset : c.ext.rst = true → t.b.fp.cycle1Ar = false
  /-- There is an FPU for the instructions that need one. -/
  fpuHere : go t.b.ex (exIn t c) = true → t.e.unit = .fpu →
    g.hasFpu = true

instance (t : Core g) (c : Cycle) : Decidable (Clear t c) :=
  decidable_of_iff _ (clear_iff ..).symm

/-- The next instruction issues alone. -/
def NextAlone (r : Decode2.Reg) : Prop := if r.busy then r.prevSgl = true else r.sglPipe = true

/-- A `wait` has been issued and not been carried out. -/
def waitPending (t : Core g) : Bool :=
  t.e.valid && t.e.insnType == .wait ||
    t.b.ex.ex1.se.enterWait

def tagOf (e : Control.Instr) : InstrTag := ⟨e.tag, true⟩

/-- The units as one pipeline: the instructions in flight, the youngest first, are the one in
decode2, the one in the first stage and the one in the second. Only when there is a flush others are
left, which go with it. -/
structure Flight (t : Core g) (ys : List InstrTag) (a b : Option InstrTag) : Prop where
  first : Sole (first t) a
  second : Sole (second t) b
  flight : t.dec.inFlight.map tagOf = ys ++ a.toList ++ b.toList
  young : flushes t = false → ys = (young t).toList
  short : ys.length ≤ 2

structure OrderInv (x : Bool) (t : Core g) : Prop where
  backend : Inv t.b
  slow : Slow t.b.ls
  port : PortInv t.port t.b.ls
  ls : SlotInv t.b.ls
  ex : SlotInv t.b.ex
  fp : Fpu.SlotInv t.b.fp
  serial : Decode2.SerialInv (decGenerics x g) t.dec
  dexcr : t.b.ex.ctrl.dexcrPro = BitVec.allOnes 5 ∧ t.b.ex.ctrl.hdexcrHyp = BitVec.allOnes 5
  /-- What decode2 gets and holds is from the decode table. -/
  tabled : t.dec.d.valid = true → Tabled g.hasFpu t.dec.d
  held : (t.e.valid || t.dec.dec2.dc2.busy) = true →
    Ordered g.hasFpu t.e ∧
      (t.e.insnType = .wait → t.dec.dec2.dc2.sglPipe = true)
  flight : ∃ ys a b, Flight t ys a b
  /-- While the FPU holds up the second stage, nothing is in the first. -/
  stalled : t.b.fp.f2stall = true → ∀ u, first t u = none
  /-- While the core waits, nothing is in the first stage of execute1. -/
  waitState : t.b.ex.ctrl.waitState = true → Execute1.first t.b.ex = none
  /-- What cannot be flushed is not there when there is a flush. -/
  flushing : flushes t = true → LoadStore.first t.b.ls.ls = none ∧ t.b.fp.cycle1Ar = false
  /-- A `wait` is alone until it is carried out. -/
  wait : waitPending t = true → t.dec.inFlight.length ≤ 1 ∧ NextAlone t.dec.dec2.dc2
  waits : t.b.ex.ex1.se.enterWait = true → t.b.ex.ex1.e.valid = true

/-! ### What goes where -/

theorem lValid_eq : (lsIn t c).l.valid =
    (go t.b.ex (exIn t c) && t.e.unit == .ldst) := rfl

theorem fValid_eq : (fpIn t c).e.valid =
    (g.hasFpu && go t.b.ex (exIn t c) && t.e.unit == .fpu) := rfl

theorem sole_enters (hfpu : go t.b.ex (exIn t c) = true → t.e.unit = .fpu → g.hasFpu = true) :
    Sole (enters t c)
      (if accepted t c then some t.e.instrTag else none) := by
  have hunit : (exIn t c).e.unit = t.e.unit := rfl
  cases hv : accepted t c with
  | false =>
    have hv' : validIn t.b.ex (exIn t c) = false := hv
    have hgo : go t.b.ex (exIn t c) = false := go_of_not_validIn hv'
    intro u
    cases u <;> simp [enters, accepts, hv', lValid_eq, fValid_eq, hgo]
  | true =>
    have hv' : validIn t.b.ex (exIn t c) = true := hv
    cases hgo : go t.b.ex (exIn t c) with
    | false =>
      refine ⟨.alu, by simp [enters, accepts, hv', hgo], fun u hu => ?_⟩
      cases u
      · exact absurd rfl hu
      all_goals simp [enters, lValid_eq, fValid_eq, hgo]
    | true =>
      refine ⟨t.e.unit, ?_, fun u hu => ?_⟩
      · cases hk : t.e.unit with
        | alu => simp [enters, accepts, hv', hunit, hk]
        | ldst => simp [enters, lValid_eq, hgo, hk]
        | fpu => simp [enters, fValid_eq, hgo, hk, hfpu hgo hk]
      · cases u <;> cases hk : t.e.unit <;>
          simp_all [enters, accepts, lValid_eq, fValid_eq]

/-- A cycle in which nothing is flushed, reset or found to interrupt. -/
structure Calm (t : Core g) (c : Cycle) : Prop where
  rst : c.ext.rst = false
  flush : flushes t = false
  ls : LoadStore.flush t.b.ls.ls (lsIn t c) = false

theorem flushIn_ex : (exIn t c).flushIn = flushes t := flushOut_eq

theorem flushIn_fp : (fpIn t c).flushIn = flushes t := flushOut_eq

theorem rst_fp : (fpIn t c).rst = c.ext.rst := rfl

variable (h : OrderInv x t) (henv : Env t c) (hclear : Clear t c) (hrst : c.ext.rst = false)
  (hflush : flushes t = false)

include hrst hflush in
theorem run_fp : ((fpIn t c).rst || (fpIn t c).flushIn) = false := by
  rw [rst_fp, flushIn_fp, hrst, hflush]
  rfl

theorem advance_of_stall (hl : (exIn t c).l.l2stall = false) :
    LoadStore.advance t.b.ls.ls (lsIn t c) = true := by
  have hl' : (Backend.exIn t.b (units t c)).l.l2stall = false := hl
  rw [l2stall_eq, Bool.not_eq_false'] at hl'
  exact hl'

theorem ex_step (hrst : c.ext.rst = false) :
    (step x t c).b.ex.ctrl = ctrlTmp t.b.ex (exIn t c) ∧
      (step x t c).b.ex.ex1 = ex1in t.b.ex (exIn t c) ∧
      (step x t c).b.ex.ex2.e = e2Next t.b.ex (exIn t c) := by
  have hr : (Backend.exIn t.b (units t c)).rst = false := hrst
  simp [step, Backend.step, Execute1.step, hr, ex2in, exIn]

theorem enterWait_of_rst (hrst : c.ext.rst = true) :
    (step x t c).b.ex.ex1.se.enterWait = false := by
  have hr : (Backend.exIn t.b (units t c)).rst = true := hrst
  simp [step, Backend.step, Execute1.step, hr]

theorem intr_step (hrst : c.ext.rst = false) :
    (step x t c).b.ls.ls.r3.interrupt = LoadStore.flush t.b.ls.ls (lsIn t c) := by
  have hr : (Backend.lsIn t.b (units t c)).rst = false := hrst
  simp only [step, Backend.step, LoadStore.Tracked.step, LoadStore.step, hr, false_eq_true,
    if_false]
  rfl

theorem first_of_moves {u : UnitType} (hm : moves t c u = true) : ∃ a, first t u = some a := by
  cases u with
  | alu =>
    have hm' : Execute1.moves t.b.ex (exIn t c) = true := hm
    simp only [Execute1.moves, and_eq_true] at hm'
    exact ⟨t.b.ex.ex1.e.instrTag, by simp [first, Execute1.first, hm'.1.1]⟩
  | ldst =>
    have hm' : LoadStore.moves t.b.ls.ls (lsIn t c) = true := hm
    simp only [LoadStore.moves, and_eq_true] at hm'
    exact ⟨t.b.ls.ls.r1.req.instrTag, by simp [first, LoadStore.first, LoadStore.holds1, hm'.1.2]⟩
  | fpu =>
    have hm' : Fpu.moves t.b.fp (fpIn t c) = true := hm
    simp only [Fpu.moves, and_eq_true] at hm'
    exact Option.isSome_iff_exists.mp hm'.1

theorem not_intr (hflush : flushes t = false) : t.b.ls.ls.r3.interrupt = false ∧
    t.b.fp.doIntr = false ∧ t.b.ex.ex2.e.interrupt = false ∧ t.b.ex.ex2.e.redirect = false := by
  simp only [flushes, or_eq_false_iff] at hflush
  exact ⟨hflush.1.2, hflush.2, hflush.1.1.2, hflush.1.1.1⟩

/-- The data cache and the MMU, as the units see them. -/
theorem Env.portEnv (henv : Env t c) : PortEnv t.port t.b.ls.ls (lsIn t c) :=
  ⟨henv.port.1, henv.port.2, henv.port.3, henv.port.4, henv.port.5, henv.port.6⟩

namespace OrderInv

variable (h : OrderInv x t)

include h

theorem ls_empty_of_f2stall (hf : t.b.fp.f2stall = true) :
    LoadStore.holds1 t.b.ls.ls = false ∧ LoadStore.holds2 t.b.ls.ls = false := by
  obtain ⟨ys, a, b, hfl⟩ := h.flight
  have hfp : second t .fpu ≠ none := by
    simp [second, Fpu.second, (h.fp.held hf).1, (h.fp.held hf).2, hf]
  have h1 : LoadStore.first t.b.ls.ls = none := h.stalled hf .ldst
  have h2 : second t .ldst = none := hfl.second.other hfp (by simp)
  constructor
  · by_contra hh
    simp [LoadStore.first, hh] at h1
  · by_contra hh
    simp [second, LoadStore.second, hh] at h2

/-- What execute1 sends to loadstore1 is as expected. -/
theorem send (c : Cycle) : LoadStore.SendEnv t.b.ls.ls (lsIn t c) where
  issue hv := (of_validIn (validIn_of_go (go_of_lValid hv).1)).2.1
  formed hv := by
    obtain ⟨hgo, -⟩ := go_of_lValid hv
    have he : t.e.valid = true :=
      (of_validIn (validIn_of_go hgo)).1
    obtain ⟨hord, -⟩ := h.held (by simp [he])
    refine ⟨hord.mmu, hord.tlbie, hord.hash, ?_⟩
    have hdex : dex t.b.ex = BitVec.allOnes 5 := by
      rw [dex, h.dexcr.1, h.dexcr.2, BitVec.allOnes_or]
      split <;> rfl
    simp [lsIn, Backend.lsIn, Execute1.lOut, hdex]
  hold hf := by
    have hf' : t.b.fp.f2stall = true := hf
    have hb := h.fp.busy (h.fp.stall hf')
    obtain ⟨h1, h2⟩ := h.ls_empty_of_f2stall hf'
    exact ⟨lValid_of_fpuBusy hb, h1, (h.ls.calm h.port h1 (.inl h2)).2.2 h2⟩

theorem lsEnv (henv : Env t c) : LoadStore.Env t.b.ls (lsIn t c) :=
  h.port.env h.slow henv.portEnv (h.send c)

theorem unitsEnv (henv : Env t c) : Backend.UnitsEnv t.b (Core.units t c) :=
  ⟨(h.lsEnv henv).answer, (h.lsEnv henv).error, (h.lsEnv henv).stall, (h.lsEnv henv).mmu⟩

theorem fpuClear (hclear : Clear t c) : FpuClear t.b (Core.units t c) := by
  intro hf
  rcases Bool.or_eq_true_iff.mp hf with hr | hf
  · exact hclear.fpuReset hr
  · have hf' : flushOut (wb t c) = true := hf
    rw [flushOut_eq] at hf'
    exact (h.flushing hf').2

theorem fpEnv (henv : Env t c) (hclear : Clear t c) : Fpu.SlotEnv t.b.fp (fpIn t c) where
  issue hv := by
    have hin := validIn_of_go (go_of_fValid hv).1
    refine ⟨(of_validIn hin).2.2.2.1, ?_⟩
    have hadv := (of_not_busy (of_validIn hin).2.1).1
    simp [fpIn, Backend.fpIn, fpOut, l2stall_eq, hadv]
  stall hf := by
    obtain ⟨h1, h2⟩ := h.ls_empty_of_f2stall hf
    obtain ⟨hw, hb, -⟩ := h.ls.calm h.port h1 (.inl h2)
    have hadv := h.port.advance_of_calm h.slow henv.portEnv hw hb
    have hadv' : LoadStore.advance t.b.ls.ls (Core.units t c).lsPorts = true := hadv
    simp [fpIn, Backend.fpIn, fpOut, l2stall_eq, hadv']
  flush hf := h.fpuClear hclear hf

/-- What execute1 does with an instruction for another unit. -/
theorem aluOnly (c : Cycle) : Execute1.AluOnly g (exIn t c) := by
  intro he hu
  have he' : t.e.valid = true := he
  obtain ⟨hord, -⟩ := h.held (by simp [he'])
  have hu' : t.e.unit ≠ .alu := hu
  constructor
  · by_contra ho
    simp only [owait, startBsort, startBperm, startMul,
      startDiv, not_eq_false, or_eq_true, and_eq_true, beq_iff_eq,
      not_eq_true'] at ho
    rcases ho with ((ho | ho) | ⟨ho, -⟩ | ho) | ⟨hf, ho⟩
    · exact hu' (hord.slow (.inl ho))
    · exact hu' (hord.slow (.inr (.inl ho)))
    · exact hu' (hord.slow (.inr (.inr (.inl ho))))
    · exact hu' (hord.slow (.inr (.inr (.inr ho))))
    · exact hu' (hord.div hf (by tauto))
  · have hk : (exIn t c).e.insnType = t.e.insnType := rfl
    simp only [actTrap, hk]
    split
    · next hs => exact absurd (hord.trap (.inl hs)) hu'
    · next hs => exact absurd (hord.trap (.inr hs)) hu'
    · rfl

theorem busy_of_f2stall (hf : (exIn t c).fp.f2stall = true) : (exIn t c).fp.busy = true :=
  h.fp.busy (h.fp.stall hf)

/-- Execute1 is held only by a stall of the second stage, if there is an instruction in it. -/
theorem held_ex (hh : Execute1.holds1 t.b.ex = true) (hb : busyOut t.b.ex (exIn t c) = true) :
    t.b.ex.ex1.busy = true ∨ stage2Stall (exIn t c) = true := by
  obtain ⟨ys, a, b, hfl⟩ := h.flight
  have hex : first t .alu ≠ none := by simp [first, Execute1.first, hh]
  simp only [busyOut, or_eq_true] at hb
  rcases hb with ((hb | hb) | hb) | hb
  · right
    have hls : first t .ldst = none := hfl.first.other hex (by simp)
    have hb1 : t.b.ls.ls.r1.busy = false := by
      by_contra hb1
      have hv : t.b.ls.ls.r1.req.valid = true := h.port.busy1 (by simpa using hb1)
      simp [first, LoadStore.first, LoadStore.holds1, hv] at hls
    have hb' : busy t.b.ls.ls (Core.units t c).lsPorts = true := hb
    simp only [busy, hb1, Bool.or_false, or_eq_true] at hb'
    simp only [stage2Stall, exIn, Backend.exIn, LoadStore.eOut, or_eq_true]
    tauto
  · exact .inl hb
  · right
    have hb' : t.b.fp.busy = true := hb
    by_cases hf : t.b.fp.f2stall = true
    · have : (exIn t c).fp.f2stall = true := hf
      simp [stage2Stall, this]
    · have hfp : first t .fpu = none := hfl.first.other hex (by simp)
      simp [first, Fpu.first, h.fp.working hb', hf] at hfp
  · have hnone := h.waitState hb
    simp [Execute1.first, hh] at hnone

variable (henv : Env t c) (hclear : Clear t c) (hcalm : Calm t c) (hrst : c.ext.rst = false)
  (hflush : flushes t = false)

include hrst hflush in
/-- The first stage of execute1 in a cycle without a flush. -/
theorem first_ex :
    first (step x t c) .alu =
      (enters t c .alu).or (if moves t c .alu then none else first t .alu) := by
  have hf : (exIn t c).flushIn = false := flushIn_ex.trans hflush
  have hstep := h.ex.first_step (i := exIn t c) hrst hf (h.aluOnly c) busy_of_l2stall
    h.busy_of_f2stall h.held_ex
  simp only [first, enters, moves]
  refine Eq.trans hstep ?_
  split <;> rfl

include henv hclear hrst hflush in
theorem first_fp :
    first (step x t c) .fpu =
      (enters t c .fpu).or (if moves t c .fpu then none else first t .fpu) := by
  have hstep := h.fp.first_step (h.fpEnv henv hclear) (run_fp hrst hflush)
  simp only [first, enters, moves]
  refine Eq.trans hstep ?_
  split <;> rfl

theorem first_ls (hcalm : Calm t c) :
    first (step x t c) .ldst =
      (enters t c .ldst).or (if moves t c .ldst then none else first t .ldst) := by
  have hstep := LoadStore.SlotInv.first_step (b := g.hasFpu) h.port (h.send c) hcalm.rst hcalm.ls
  simp only [first, enters, moves]
  refine Eq.trans hstep ?_
  split <;> rfl

include henv hclear hcalm in
/-- What is in the first stages after a cycle. -/
theorem first_step (u : UnitType) :
    first (step x t c) u = (enters t c u).or (if moves t c u then none else first t u) := by
  cases u with
  | alu => exact h.first_ex hcalm.rst hcalm.flush
  | ldst => exact h.first_ls hcalm
  | fpu => exact h.first_fp henv hclear hcalm.rst hcalm.flush

include hrst hflush in
theorem second_ex : second (step x t c) .alu = if moves t c .alu then first t .alu else none :=
  h.ex.second_step (i := exIn t c) hrst (flushIn_ex.trans hflush)

include henv hclear hrst hflush in
/-- The second stage of the FPU. -/
theorem second_fp :
    second (step x t c) .fpu =
      if moves t c .fpu then first t .fpu else if leaves t c .fpu then none else second t .fpu :=
  h.fp.second_step (h.fpEnv henv hclear) (run_fp hrst hflush)

include henv hclear hcalm in
/-- What is in the second stages after a cycle. -/
theorem second_step (u : UnitType) :
    second (step x t c) u =
      (if moves t c u then first t u else none).or (if leaves t c u then none else second t u) := by
  have hor : ∀ a b : Option InstrTag, (moves t c u = true → ∃ v, a = some v) →
      (if moves t c u then a else b) = (if moves t c u then a else none).or b := by
    intro a b ha
    cases hm : moves t c u with
    | false => rfl
    | true =>
      obtain ⟨v, rfl⟩ := ha hm
      rfl
  rw [← hor _ _ first_of_moves]
  cases u with
  | alu =>
    rw [h.second_ex hcalm.rst hcalm.flush]
    rfl
  | ldst =>
    exact h.ls.second_step h.port h.backend.ls h.slow henv.portEnv (h.send c) hcalm.rst hcalm.ls
      (not_intr hcalm.flush).1
  | fpu => exact h.second_fp henv hclear hcalm.rst hcalm.flush

theorem advance_of_moves {u : UnitType} (hm : moves t c u = true) :
    LoadStore.advance t.b.ls.ls (lsIn t c) = true ∧ t.b.fp.f2stall = false := by
  obtain ⟨a, ha⟩ := first_of_moves hm
  have hf : t.b.fp.f2stall = false := by
    by_contra hf
    rw [h.stalled (by simpa using hf) u] at ha
    cases ha
  refine ⟨?_, hf⟩
  cases u with
  | alu =>
    have hm' : Execute1.moves t.b.ex (exIn t c) = true := hm
    simp only [Execute1.moves, stage2Stall, and_eq_true, not_eq_true',
      or_eq_false_iff] at hm'
    exact advance_of_stall hm'.2.1
  | ldst =>
    have hm' : LoadStore.moves t.b.ls.ls (lsIn t c) = true := hm
    simp only [LoadStore.moves, takes, and_eq_true] at hm'
    exact hm'.1.1.1.1
  | fpu =>
    have hm' : Fpu.moves t.b.fp (fpIn t c) = true := hm
    simp only [Fpu.moves, and_eq_true, not_eq_true'] at hm'
    exact advance_of_stall hm'.2

include henv hflush in
/-- What is in the second stage completes, unless the units are stalled. -/
theorem leaves_of_advance (hadv : LoadStore.advance t.b.ls.ls (lsIn t c) = true)
    (hf : t.b.fp.f2stall = false) {u : UnitType} (hu : second t u ≠ none) :
    leaves t c u = true := by
  cases u with
  | alu => rfl
  | ldst =>
    have hh : LoadStore.holds2 t.b.ls.ls = true := by
      by_contra hh
      exact hu (by simp [second, LoadStore.second, hh])
    exact (h.ls.complete_eq h.port h.slow henv.portEnv (h.send c) hh
      (not_intr hflush).1).trans hadv
  | fpu =>
    by_contra hl
    have hl' : (t.b.fp.complete || t.b.fp.doIntr) = false := by simpa [leaves] using hl
    exact hu (by simp [second, Fpu.second, hl', hf])

theorem moves_of_accepted (henv : Env t c) (hv : accepted t c = true) {u : UnitType}
    (hu : first t u ≠ none) : moves t c u = true := by
  have hin := of_validIn (t := t.b) (c := Core.units t c) hv
  have hadv := (of_not_busy hin.2.1).1
  have hl : (Backend.exIn t.b (Core.units t c)).l.l2stall = false := by
    rw [l2stall_eq, hadv]
    rfl
  cases u with
  | alu =>
    have hh : Execute1.holds1 t.b.ex = true := by
      by_contra hh
      exact hu (by simp [first, Execute1.first, hh])
    have hf : (exIn t c).fp.f2stall = false := by
      by_contra hf
      have hb := h.busy_of_f2stall (c := c) (by simpa using hf)
      have hb' : t.b.fp.busy = true := hb
      rw [hin.2.2.2.1] at hb'
      cases hb'
    have hl' : (exIn t c).l.l2stall = false := hl
    simp [moves, Execute1.moves, hh, hin.2.2.1, stage2Stall, hl', hf]
  | ldst =>
    have hh : LoadStore.holds1 t.b.ls.ls = true := by
      by_contra hh
      exact hu (by simp [first, LoadStore.first, hh])
    by_contra hm
    have hls : LoadStore.flush t.b.ls.ls (lsIn t c) = false := by
      by_contra hls
      have hno := h.slow.not_advance_of_flush (h.lsEnv henv) (not_eq_false _ ▸ hls)
      have hno' : LoadStore.advance t.b.ls.ls (Core.units t c).lsPorts = false := hno
      rw [hadv] at hno'
      cases hno'
    have hstay := LoadStore.SlotInv.holds1_step (b := g.hasFpu) h.port (h.send c) hls
    have hm' : LoadStore.moves t.b.ls.ls (lsIn t c) = false := by simpa [moves] using hm
    rw [if_pos (by simp [hh, hm'])] at hstay
    have hb : busy t.b.ls.ls (Core.units t c).lsPorts = true := hstay.2.2
    rw [hin.2.1] at hb
    cases hb
  | fpu =>
    have hs : (fpIn t c).e.stall = false := hl
    simp only [moves, Fpu.moves, hs, and_eq_true, Bool.not_false, and_true]
    exact Option.isSome_iff_ne_none.mpr hu

end OrderInv

/-! ### Completions -/

def presents (t : Core g) (c : Cycle) : UnitType → Bool
  | .alu => (wb t c).e.valid
  | .ldst => (wb t c).l.valid
  | .fpu => (wb t c).fp.valid

/-- The tag that goes with it. -/
def presented (t : Core g) (c : Cycle) : UnitType → InstrTag
  | .alu => (wb t c).e.instrTag
  | .ldst => (wb t c).l.instrTag
  | .fpu => (wb t c).fp.instrTag

/-- A completion is that of the instruction in the second stage. -/
theorem OrderInv.second_of_presents (h : OrderInv x t) {u : UnitType} (hu : presents t c u = true) :
    second t u = some (presented t c u) := by
  cases u with
  | alu =>
    have hv : t.b.ex.ex2.e.valid = true := hu
    simp [second, presented, Execute1.second, Execute1.holds2, hv, wb, wbIn, Execute1.eOut]
  | ldst =>
    have hc : complete t.b.ls.ls (lsIn t c) = true := hu
    have hh := h.ls.holds2_of_complete h.port hc
    simp [second, presented, LoadStore.second, hh, wb, wbIn, LoadStore.lOut]
  | fpu =>
    have hv : t.b.fp.complete = true := hu
    simp [second, presented, Fpu.second, hv, wb, wbIn, Fpu.wOut]

theorem OrderInv.presents_alone (h : OrderInv x t) {u v : UnitType} (hu : presents t c u = true)
    (hv : presents t c v = true) : u = v := by
  obtain ⟨ys, a, b, hfl⟩ := h.flight
  by_contra hne
  have hnone := hfl.second.other (by rw [h.second_of_presents hv]; simp) hne
  rw [h.second_of_presents hu] at hnone
  cases hnone

theorem OrderInv.completeOut_cases (h : OrderInv x t) {b : Option InstrTag}
    (hs : Sole (second t) b) :
    (∃ u, presents t c u = true ∧ b = some (completeOut (wb t c))) ∨
      ((∀ u, presents t c u = false) ∧ completeOut (wb t c) = instrTagInit) := by
  have hother : ∀ u v, u ≠ v → presents t c u = true → presents t c v = false := by
    intro u v hne hu
    by_contra hv
    exact hne (h.presents_alone hu (by simpa using hv))
  have hout : completeOut (wb t c) =
      if presents t c .alu then presented t c .alu
      else if presents t c .ldst then presented t c .ldst
      else if presents t c .fpu then presented t c .fpu
      else instrTagInit := rfl
  by_cases hex : ∃ u, presents t c u = true
  · obtain ⟨u, hu⟩ := hex
    refine .inl ⟨u, hu, ?_⟩
    have htag : completeOut (wb t c) = presented t c u := by
      rw [hout]
      cases u with
      | alu => simp [hu]
      | ldst => simp [hu, hother .ldst .alu (by simp) hu]
      | fpu => simp [hu, hother .fpu .alu (by simp) hu, hother .fpu .ldst (by simp) hu]
    rw [htag]
    exact hs.eq_of_some (h.second_of_presents hu)
  · have hnone : ∀ u, presents t c u = false := fun u => by
      by_contra hu
      exact hex ⟨u, by simpa using hu⟩
    exact .inr ⟨hnone, by rw [hout]; simp [hnone]⟩

/-- Without a flush, what leaves the second stage completes. -/
theorem presents_of_leaves (hflush : flushes t = false) {u : UnitType} (hu : second t u ≠ none)
    (hl : leaves t c u = true) : presents t c u = true := by
  obtain ⟨-, hdo, hint, -⟩ := not_intr hflush
  cases u with
  | alu =>
    have hv : t.b.ex.ex2.e.valid = true := by
      by_contra hv
      exact hu (by simp [second, Execute1.second, Execute1.holds2, hv, hint])
    exact hv
  | ldst => exact hl
  | fpu =>
    have hl' : (t.b.fp.complete || t.b.fp.doIntr) = true := hl
    rw [hdo, Bool.or_false] at hl'
    exact hl'

/-! ### The instructions in flight -/

theorem Flight.valid {ys : List InstrTag} {a b : Option InstrTag} (h : Flight t ys a b)
    {v : InstrTag} (hb : b = some v) : v.valid = true := by
  have hmem : v ∈ t.dec.inFlight.map tagOf := by
    rw [h.flight, hb]
    simp
  obtain ⟨e, -, rfl⟩ := mem_map.mp hmem
  rfl

/-- What control sees. -/
abbrev ctlPorts (x : Bool) (t : Core g) (c : Cycle) : Control.Inputs :=
  t.dec.ctlPorts (decGenerics x g) (decCycle t c)

/-- The instructions that are outstanding after the completion of this cycle. -/
def outstanding (x : Bool) (t : Core g) (c : Cycle) : List Control.Instr :=
  t.dec.outstanding (decGenerics x g) (decCycle t c)

/-- The instruction that is issued in this cycle. -/
def issued (x : Bool) (t : Core g) (c : Cycle) : List Control.Instr :=
  Control.issued x t.dec.dec2.control (ctlPorts x t c)

include hrst hflush in
theorem inFlight_step : (step x t c).dec.inFlight = issued x t c ++ outstanding x t c :=
  Decode2.inFlight_step (g := decGenerics x g) hrst (flushOut_eq.trans hflush)

/-- A completion takes away the instruction in the second stage. -/
theorem OrderInv.outstanding_eq (h : OrderInv x t) {ys : List InstrTag} {a b : Option InstrTag}
    (hfl : Flight t ys a b) (left : Bool) (hflush : flushes t = false)
    (hleft : ∀ u, second t u ≠ none → leaves t c u = left) :
    (outstanding x t c).map tagOf =
      ys ++ a.toList ++ (if left then none else b).toList := by
  have hin : (ctlPorts x t c).completeIn = completeOut (wb t c) := rfl
  rcases h.completeOut_cases (c := c) hfl.second with ⟨u, hu, hb⟩ | ⟨hnone, hc⟩
  · have hv := hfl.valid hb
    have hl : left = true := by
      rw [← hleft u (by rw [h.second_of_presents hu]; simp)]
      cases u with
      | alu => rfl
      | ldst => exact hu
      | fpu =>
        have hc : t.b.fp.complete = true := hu
        simp [leaves, hc]
    rw [outstanding, Decode2.SerialTracked.outstanding, Control.retire, hin, if_pos hv,
      map_dropLast, hfl.flight, hb, hl]
    simp
  · have hv : (completeOut (wb t c)).valid = false := by rw [hc]; rfl
    rw [outstanding, Decode2.SerialTracked.outstanding, Control.retire, hin,
      if_neg (by simp [hv]), hfl.flight]
    cases left with
    | false => rfl
    | true =>
      have hb : b = none := by
        rw [hfl.second.eq_none_iff]
        intro u
        by_contra hu
        have hp := presents_of_leaves hflush hu (hleft u hu)
        rw [hnone u] at hp
        cases hp
      rw [hb]
      rfl

/-- The instruction in decode2 stays there while execute1 is busy. -/
def keeps (t : Core g) (c : Cycle) : Bool :=
  t.e.valid && busyOut t.b.ex (exIn t c)

section

include hrst hflush

theorem dc2_step :
    (step x t c).dec.dec2.dc2 =
      if keeps t c then Decode2.dc2Held (decGenerics x g) t.dec.dec2 (decPorts t c)
      else Decode2.dc2in (decGenerics x g) t.dec.dec2 (decPorts t c) := by
  have hr : (decPorts t c).rst = false := hrst
  have hf : (decPorts t c).flushIn = false := flushOut_eq.trans hflush
  simp only [step, Decode2.serialStep, Decode2.step, Decode2.dc2Next, hr, hf, Bool.or_self,
    false_eq_true, if_false]
  rfl

theorem dc2_of_keeps (hh : keeps t c = true) : (step x t c).dec.dec2.dc2 =
      Decode2.dc2Held (decGenerics x g) t.dec.dec2 (decPorts t c) := by
  rw [dc2_step hrst hflush, if_pos hh]

theorem dc2_of_not_keeps (hh : keeps t c = false) : (step x t c).dec.dec2.dc2 =
      Decode2.dc2in (decGenerics x g) t.dec.dec2 (decPorts t c) := by
  rw [dc2_step hrst hflush, if_neg (by simp [hh])]

theorem young_step :
    (issued x t c).map tagOf ++ (if keeps t c then (young t).toList else []) =
      (young (step x t c)).toList := by
  cases hh : keeps t c with
  | true =>
    have hd : (ctlPorts x t c).deferred = true := hh
    have hno : issued x t c = [] := Control.issued_of_not_valid (by simp [Control.instrTag, hd])
    have hsame : young (step x t c) = young t := by
      simp only [young, Decode2.eOut, dc2_of_keeps hrst hflush hh]
      rfl
    simp [hsame, hno]
  | false =>
    have hd : (ctlPorts x t c).deferred = false := hh
    have htag : Decode2.instrTag (decGenerics x g) t.dec.dec2 (decPorts t c) =
        ⟨t.dec.dec2.control.currTag,
          Decode2.validOut (decGenerics x g) t.dec.dec2 (decPorts t c)⟩ := by
      have hd' : (Decode2.ctl (decGenerics x g) t.dec.dec2
        (decPorts t c)).deferred = false := hh
      simp [Decode2.instrTag, Control.instrTag, hd', Decode2.validOut]
    have hiss : issued x t c = if Decode2.validOut (decGenerics x g) t.dec.dec2
        (decPorts t c) then [⟨t.dec.dec2.control.currTag,
          Control.gprWriteValid x t.dec.dec2.control (ctlPorts x t c),
          (ctlPorts x t c).gprWriteIn⟩] else [] := by
      have hv : (Control.instrTag x t.dec.dec2.control (ctlPorts x t c)).valid =
          Decode2.validOut (decGenerics x g) t.dec.dec2 (decPorts t c) :=
        congrArg InstrTag.valid htag
      rw [issued, Control.issued, hv]
      rfl
    simp only [young, Decode2.eOut, dc2_of_not_keeps hrst hflush hh, Decode2.dc2in, Decode2.eNext,
      htag, hiss]
    cases Decode2.validOut (decGenerics x g) t.dec.dec2 (decPorts t c) <;> simp [tagOf]

end

include h hrst hflush in
/-- Execute1 takes or drops the instruction in decode2 unless it is busy, and what is dropped is
flushed. -/
theorem OrderInv.flushes_of_dropped (he : t.e.valid = true)
    (hh : keeps t c = false) (hv : accepted t c = false) : flushes (step x t c) = true := by
  have hb : busyOut t.b.ex (exIn t c) = false := by simpa [keeps, he] using hh
  have hev : (exIn t c).e.valid = true := he
  have hf : (exIn t c).flushIn = false := flushIn_ex.trans hflush
  have hri : t.b.ex.ex1.e.redirect = true ∨ t.b.ex.ex1.e.interrupt = true := by
    by_contra hno
    rw [not_or, Bool.not_eq_true, Bool.not_eq_true] at hno
    have hv' : validIn t.b.ex (exIn t c) = false := hv
    simp [validIn, hev, hb, hf, hno.1, hno.2] at hv'
  have hst : stage2Stall (exIn t c) = false := by
    simp only [busyOut, or_eq_false_iff] at hb
    simp only [stage2Stall, or_eq_false_iff]
    constructor
    · by_contra hl
      have hl' := busy_of_l2stall (t := t.b) (c := units t c) (not_eq_false _ ▸ hl)
      have hb' : (Backend.exIn t.b (units t c)).l.busy = false := hb.1.1.1
      rw [hb'] at hl'
      cases hl'
    · by_contra hl
      have hl' := h.busy_of_f2stall (c := c) (not_eq_false _ ▸ hl)
      rw [hb.1.2] at hl'
      cases hl'
  have hex2 := (ex_step (x := x) (t := t) hrst).2.2
  rcases hri with hr | hi
  · simp [flushes, hex2, e2Next, hr, h.ex.redirect1 hr, hst, hf]
  · simp [flushes, hex2, e2Next, hi, hst, hf]

include h henv hclear in
/-- A cycle without a flush. -/
theorem OrderInv.flight_calm (hcalm : Calm t c) : ∃ ys a b, Flight (step x t c) ys a b := by
  obtain ⟨ys, a, b, hfl⟩ := h.flight
  obtain ⟨moved, hmoved⟩ := hfl.first.exists_flag (moves t c)
  obtain ⟨left, hleft⟩ := hfl.second.exists_flag (leaves t c)
  have hys : ys = (young t).toList := hfl.young hcalm.flush
  have hroom1 : accepted t c = true → a ≠ none → moved = true := by
    intro hv ha
    obtain ⟨v, rfl⟩ := Option.ne_none_iff_exists'.mp ha
    obtain ⟨u, hu⟩ := hfl.first.exists_of_some
    have hne : first t u ≠ none := by rw [hu]; simp
    rw [← hmoved u hne]
    exact h.moves_of_accepted henv hv hne
  have hroom2 : moved = true → a ≠ none → b ≠ none → left = true := by
    intro hm ha hb
    obtain ⟨v, rfl⟩ := Option.ne_none_iff_exists'.mp ha
    obtain ⟨w, rfl⟩ := Option.ne_none_iff_exists'.mp hb
    obtain ⟨u, hu⟩ := hfl.first.exists_of_some
    obtain ⟨u', hu'⟩ := hfl.second.exists_of_some
    have hne : first t u ≠ none := by rw [hu]; simp
    have hne' : second t u' ≠ none := by rw [hu']; simp
    obtain ⟨hadv, hf⟩ := h.advance_of_moves ((hmoved u hne).trans hm)
    rw [← hleft u' hne']
    exact h.leaves_of_advance henv hcalm.flush hadv hf hne'
  have hacc : accepted t c = true → ys = [t.e.instrTag] := by
    intro hv
    have he : t.e.valid = true := (of_validIn hv).1
    rw [hys, young, if_pos he]
    rfl
  refine ⟨(issued x t c).map tagOf ++ (if accepted t c then [] else ys),
    (if accepted t c then some t.e.instrTag else none).or
      (if moved then none else a),
    (if moved then a else none).or (if left then none else b), ?_, ?_, ?_, ?_, ?_⟩
  · refine hfl.first.step (sole_enters hclear.fpuHere) hmoved (fun hv => hroom1 ?_)
      (h.first_step henv hclear hcalm)
    by_contra hno
    simp [hno] at hv
  · refine hfl.second.step (hfl.first.filter hmoved) hleft (fun hm hb => ?_)
      (h.second_step henv hclear hcalm)
    cases moved with
    | false => simp at hm
    | true => exact hroom2 rfl hm hb
  · have hq := inFlight_step (x := x) hcalm.rst hcalm.flush
    have hout := h.outstanding_eq hfl _ hcalm.flush hleft
    rw [hq, map_append, hout]
    cases hv : accepted t c with
    | false => cases moved <;> cases left <;> cases a <;> cases b <;> simp_all
    | true =>
      rw [hacc hv]
      cases moved <;> cases left <;> cases a <;> cases b <;> simp_all
  · intro hflush'
    rw [← young_step hcalm.rst hcalm.flush, hys]
    cases hv : accepted t c with
    | true =>
      have hh : keeps t c = false := by
        have hb := (not_busy_of_validIn (s := t.b.ex) (i := exIn t c) hv).1
        simp [keeps, hb]
      simp [hh]
    | false =>
      cases hh : keeps t c with
      | true => rfl
      | false =>
        cases he : t.e.valid with
        | false => simp [young, he]
        | true =>
          rw [h.flushes_of_dropped hcalm.rst hcalm.flush he hh hv] at hflush'
          cases hflush'
  · have hiss : (issued x t c).length ≤ 1 := by
      rw [issued, Control.issued]
      split <;> simp
    have hlen : ys.length ≤ 1 := by
      rw [hys]
      cases young t <;> simp
    cases accepted t c <;> simp <;> omega

theorem not_accepted_of_stall (hadv : LoadStore.advance t.b.ls.ls (lsIn t c) = false) :
    busyOut t.b.ex (exIn t c) = true ∧ accepted t c = false ∧
      stage2Stall (exIn t c) = true ∧ (fpIn t c).e.stall = true := by
  have hl : (Backend.exIn t.b (units t c)).l.l2stall = true := by
    rw [l2stall_eq, not_eq_true']
    exact hadv
  have hb := busy_of_l2stall hl
  have hbusy : busyOut t.b.ex (exIn t c) = true := by
    simp only [busyOut, or_eq_true]
    exact .inl (.inl (.inl hb))
  refine ⟨hbusy, by simp [accepted, validIn, hbusy], ?_, hl⟩
  have hl' : (exIn t c).l.l2stall = true := hl
  simp [stage2Stall, hl']

theorem enters_of_not_accepted (hv : accepted t c = false) (u : UnitType) :
    enters t c u = none := by
  have hv' : validIn t.b.ex (exIn t c) = false := hv
  have hgo : go t.b.ex (exIn t c) = false := go_of_not_validIn hv'
  cases u <;> simp [enters, accepts, hv', lValid_eq, fValid_eq, hgo]

theorem fValid_of_not_accepted (hv : accepted t c = false) : (fpIn t c).e.valid = false := by
  have hgo : go t.b.ex (exIn t c) = false := go_of_not_validIn hv
  simp [fValid_eq, hgo]

include h henv hclear hrst hflush in
/-- The other units keep what is in their first stages, and their second stages are empty then. -/
theorem OrderInv.others_of_ls (hls : LoadStore.flush t.b.ls.ls (lsIn t c) = true) :
    t.b.fp.f2stall = false ∧ ∀ u, u ≠ .ldst →
      first (step x t c) u = first t u ∧ second (step x t c) u = none := by
  obtain ⟨hadv, -, -, -, hcase⟩ := h.ls.flushed_step (b := g.hasFpu) h.port h.slow
    henv.portEnv (h.send c) hrst hls (not_intr hflush).1
  obtain ⟨-, hacc, hstall, hfpst⟩ := not_accepted_of_stall hadv
  have hf2 : t.b.fp.f2stall = false := by
    by_contra hf
    obtain ⟨h1, h2⟩ := h.ls_empty_of_f2stall (by simpa using hf)
    rcases hcase with hc | ⟨-, hc⟩
    · simp [LoadStore.second, h2] at hc
    · simp [LoadStore.first, h1] at hc
  refine ⟨hf2, fun u hu => ?_⟩
  cases u with
  | ldst => exact absurd rfl hu
  | alu =>
    have hm : moves t c .alu = false := by simp [moves, Execute1.moves, hstall]
    rw [h.first_ex hrst hflush, h.second_ex hrst hflush, enters_of_not_accepted hacc, hm]
    exact ⟨rfl, rfl⟩
  | fpu =>
    have hm : moves t c .fpu = false := by simp [moves, Fpu.moves, hfpst]
    rw [h.first_fp henv hclear hrst hflush, h.second_fp henv hclear hrst hflush,
      enters_of_not_accepted hacc, hm]
    refine ⟨rfl, ?_⟩
    cases hc : t.b.fp.complete || t.b.fp.doIntr <;>
      simp [leaves, second, Fpu.second, hc, hf2]

include h henv hclear hrst hflush in
/-- A cycle in which loadstore1 finds that an instruction interrupts. What is behind it in
loadstore1 is gone, but for the issue control it is in flight until the flush in the next cycle. -/
theorem OrderInv.flight_ls (hls : LoadStore.flush t.b.ls.ls (lsIn t c) = true) :
    ∃ ys a b, Flight (step x t c) ys a b := by
  obtain ⟨ys, a, b, hfl⟩ := h.flight
  have hys : ys = (young t).toList := hfl.young hflush
  obtain ⟨hadv, -, hfirst, hsecond, hcase⟩ := h.ls.flushed_step (b := g.hasFpu) h.port h.slow
    henv.portEnv (h.send c) hrst hls (not_intr hflush).1
  obtain ⟨hf2, hother⟩ := h.others_of_ls henv hclear hrst hflush hls
  have hfirst' : first (step x t c) .ldst = none := hfirst
  have hsole2 : Sole (second (step x t c)) (some t.b.ls.ls.r2.req.instrTag) :=
    ⟨.ldst, hsecond, fun u hu => (hother u hu).2⟩
  have hgone : first t .ldst ≠ none → Sole (first (step x t c)) none := by
    intro hl u
    by_cases hu : u = .ldst
    · rw [hu, hfirst']
    · rw [(hother u hu).1]
      exact hfl.first.other hl hu
  have hnew : (issued x t c).map tagOf ++ ys = (young (step x t c)).toList := by
    rw [← young_step hrst hflush, hys]
    cases he : t.e.valid <;> simp [keeps, he, (not_accepted_of_stall hadv).1, young]
  have hlen : ((issued x t c).map tagOf ++ ys).length ≤ 1 := by
    rw [hnew]
    cases young (step x t c) <;> simp
  have hflush' : flushes (step x t c) = true := by simp [flushes, intr_step hrst, hls]
  have hq := inFlight_step (x := x) hrst hflush
  rcases hcase with hb | ⟨hnone, ha⟩
  · -- the instruction in the second stage interrupts; one behind it in loadstore1 is dropped
    have hb2 : second t .ldst = some t.b.ls.ls.r2.req.instrTag := hb
    have hb' := hfl.second.eq_of_some hb2
    have hout := h.outstanding_eq (c := c) hfl false hflush (fun u hu => by
      by_cases hl : u = .ldst
      · subst hl
        by_contra hl
        have hc : complete t.b.ls.ls (lsIn t c) = true := by simpa [leaves] using hl
        rw [h.ls.advance_of_complete h.port h.slow henv.portEnv (h.send c) (not_intr hflush).1 hc]
          at hadv
        cases hadv
      · have hnone : second t .ldst = none := hfl.second.other hu (Ne.symm hl)
        rw [hb2] at hnone
        cases hnone)
    have hflight : (step x t c).dec.inFlight.map tagOf =
        (issued x t c).map tagOf ++ ys ++ a.toList ++ [t.b.ls.ls.r2.req.instrTag] := by
      rw [hq, map_append, hout, hb']
      simp
    cases hl : first t .ldst with
    | none =>
      refine ⟨(issued x t c).map tagOf ++ ys, a, some t.b.ls.ls.r2.req.instrTag, ?_, hsole2,
        hflight, by simp [hflush'], by omega⟩
      have hsame : first (step x t c) = first t := by
        funext u
        by_cases hu : u = .ldst
        · rw [hu, hfirst', hl]
        · exact (hother u hu).1
      rw [hsame]
      exact hfl.first
    | some v =>
      have ha : a = some v := hfl.first.eq_of_some hl
      refine ⟨(issued x t c).map tagOf ++ ys ++ [v], none, some t.b.ls.ls.r2.req.instrTag,
        hgone (by simp [hl]), hsole2, by rw [ha] at hflight; simpa using hflight,
        by simp [hflush'], ?_⟩
      rw [length_append, length_singleton]
      omega
  · -- a part of the instruction in the first stage interrupts
    have ha1 : first t .ldst = some t.b.ls.ls.r2.req.instrTag := ha
    have ha' := hfl.first.eq_of_some ha1
    have hout := h.outstanding_eq (c := c) hfl true hflush (fun u hu => by
      cases u with
      | alu => rfl
      | ldst => exact absurd hnone hu
      | fpu =>
        by_contra hl
        have hl' : (t.b.fp.complete || t.b.fp.doIntr) = false := by simpa [leaves] using hl
        exact hu (by simp [second, Fpu.second, hl', hf2]))
    refine ⟨(issued x t c).map tagOf ++ ys, none, some t.b.ls.ls.r2.req.instrTag,
      hgone (by simp [ha1]), hsole2, ?_, by simp [hflush'], by omega⟩
    rw [hq, map_append, hout, ha']
    simp

/-- The instruction that causes a flush is in the second stage. -/
theorem OrderInv.second_of_flushes (h : OrderInv x t) (hf : flushes t = true) :
    ∃ u, second t u ≠ none ∧ (u = .ldst → t.b.ls.ls.r3.interrupt = true) := by
  simp only [flushes, or_eq_true] at hf
  rcases hf with ((hf | hf) | hf) | hf
  · exact ⟨.alu, by simp [second, Execute1.second, Execute1.holds2, h.ex.redirect2 hf], by simp⟩
  · exact ⟨.alu, by simp [second, Execute1.second, Execute1.holds2, hf], by simp⟩
  · exact ⟨.ldst, by simp [second, LoadStore.second, LoadStore.holds2, hf], fun _ => hf⟩
  · exact ⟨.fpu, by simp [second, Fpu.second, hf], by simp⟩

/-- Loadstore1 has nothing in its first stage then, and in its second one only what interrupts. -/
theorem OrderInv.ls_of_flushes (h : OrderInv x t) (hf : flushes t = true) :
    LoadStore.holds1 t.b.ls.ls = false ∧
      (LoadStore.holds2 t.b.ls.ls = false ∨ t.b.ls.ls.r3.interrupt = true) := by
  constructor
  · by_contra hh
    have := (h.flushing hf).1
    simp [LoadStore.first, hh] at this
  · obtain ⟨ys, a, b, hfl⟩ := h.flight
    obtain ⟨u, hne, hu⟩ := h.second_of_flushes hf
    by_cases hls : u = .ldst
    · exact .inr (hu hls)
    · have hnone : second t .ldst = none := hfl.second.other hne (Ne.symm hls)
      left
      by_contra hh
      simp [second, LoadStore.second, hh] at hnone

/-- A cycle with a flush or a reset, after which nothing is left. -/
theorem OrderInv.empty_step (h : OrderInv x t) (henv : Env t c)
    (hflush : (c.ext.rst || flushes t) = true) (u : UnitType) :
    first (step x t c) u = none ∧ second (step x t c) u = none := by
  cases u with
  | alu =>
    refine Execute1.empty_step (s := t.b.ex) (i := exIn t c) ?_
    rw [flushIn_ex]
    exact hflush
  | fpu =>
    refine Fpu.empty_step (r := t.b.fp) (i := fpIn t c) ?_
    rw [flushIn_fp]
    exact hflush
  | ldst =>
    have hempty : LoadStore.holds1 (step x t c).b.ls.ls = false ∧
        LoadStore.holds2 (step x t c).b.ls.ls = false := by
      cases hrst : c.ext.rst with
      | true =>
        have hr : (Backend.lsIn t.b (units t c)).rst = true := hrst
        simp [LoadStore.holds1, LoadStore.holds2, step, Backend.step, LoadStore.Tracked.step,
          LoadStore.step, hr, LoadStore.Stage1.reset, LoadStore.Stage2.reset,
          LoadStore.Stage3.reset]
      | false =>
        have hf : flushes t = true := by simpa [hrst] using hflush
        obtain ⟨h1, h2⟩ := h.ls_of_flushes hf
        have hv : (lsIn t c).l.valid = false := by
          have hfi : (exIn t c).flushIn = true := flushIn_ex.trans hf
          have hgo : go t.b.ex (exIn t c) = false := go_of_flush hfi
          simp [lValid_eq, hgo]
        exact h.ls.empty_step h.port h.slow henv.portEnv (h.send c) hrst h1 h2 hv
    exact ⟨by simp [first, LoadStore.first, hempty.1], by simp [second, LoadStore.second, hempty.2]⟩

theorem dec_empty (hflush : (c.ext.rst || flushes t) = true) :
    (step x t c).dec.dec2.dc2 = {} ∧ (step x t c).dec.inFlight = [] := by
  have hf : ((decPorts t c).rst || (decPorts t c).flushIn) = true := by
    rw [← hflush, ← flushOut_eq (c := c)]
    rfl
  have hf' : ((ctlPorts x t c).rst || (ctlPorts x t c).flushIn) = true := hf
  constructor
  · simp [step, Decode2.serialStep, Decode2.step, Decode2.dc2Next, hf]
  · simp [step, Decode2.serialStep, Control.Tracked.step, hf']

theorem OrderInv.flight_empty (h : OrderInv x t) (henv : Env t c)
    (hflush : (c.ext.rst || flushes t) = true) : Flight (step x t c) [] none none := by
  obtain ⟨hdc, hq⟩ := dec_empty (x := x) hflush
  refine ⟨fun u => (h.empty_step henv hflush u).1, fun u => (h.empty_step henv hflush u).2,
    ?_, ?_, ?_⟩
  · rw [hq]
    rfl
  · intro _
    simp [young, Decode2.eOut, hdc]
  · simp

include h henv hclear in
theorem OrderInv.step_flight : ∃ ys a b, Flight (step x t c) ys a b := by
  cases hoff : c.ext.rst || flushes t with
  | true => exact ⟨_, _, _, h.flight_empty henv hoff⟩
  | false =>
    obtain ⟨hrst, hflush⟩ := or_eq_false_iff.mp hoff
    cases hls : LoadStore.flush t.b.ls.ls (lsIn t c) with
    | true => exact h.flight_ls henv hclear hrst hflush hls
    | false => exact h.flight_calm henv hclear ⟨hrst, hflush, hls⟩

/-! ### The rest of the invariant -/

theorem not_accepted_of_fpBusy (hb : t.b.fp.busy = true) : accepted t c = false := by
  by_contra hv
  have hv' := (of_validIn (t := t.b) (c := units t c) (not_eq_false _ ▸ hv)).2.2.2.1
  rw [hb] at hv'
  cases hv'

include h henv hrst hflush in
/-- Loadstore1 finds an interrupt only while it stalls. -/
theorem OrderInv.calm_of_advance (hadv : LoadStore.advance t.b.ls.ls (lsIn t c) = true) :
    Calm t c := by
  refine ⟨hrst, hflush, ?_⟩
  exact Flag.down (h.slow.not_advance_of_flush (h.lsEnv henv)) hadv

include hrst hflush in
theorem fp_step : (step x t c).b.fp = Fpu.rin t.b.fp (fpIn t c) := by
  have hf : (fpIn t c).flushIn = false := flushIn_fp.trans hflush
  have hr : (fpIn t c).rst = false := hrst
  have hstep : Fpu.step t.b.fp (fpIn t c) = Fpu.rin t.b.fp (fpIn t c) := by simp [Fpu.step, hf, hr]
  exact hstep

include h henv hclear in
theorem OrderInv.step_stalled (hf' : (step x t c).b.fp.f2stall = true) (u : UnitType) :
    first (step x t c) u = none := by
  cases hoff : c.ext.rst || flushes t with
  | true => exact (h.empty_step henv hoff u).1
  | false =>
    obtain ⟨hrst, hflush⟩ := or_eq_false_iff.mp hoff
    rw [fp_step hrst hflush] at hf'
    have hst : t.b.fp.state ≠ .idle := by
      intro hs
      simp [Fpu.rin, Fpu.finishes_of_idle hs, hs, h.fp.not_stalled hs] at hf'
    have hfpst : (fpIn t c).e.stall = false := by
      by_contra hs
      have hs' : (fpIn t c).e.stall = true := by simpa using hs
      have hf : t.b.fp.f2stall = true := by
        by_contra hf
        cases hfin : Fpu.finishes t.b.fp (fpIn t c) <;> simp [Fpu.rin, hfin, hs', hf] at hf'
      rw [(h.fpEnv henv hclear).stall hf] at hs'
      cases hs'
    have hacc : accepted t c = false := not_accepted_of_fpBusy (h.fp.busy hst)
    have hcalm := h.calm_of_advance henv hrst hflush (advance_of_stall hfpst)
    rw [h.first_step henv hclear hcalm, enters_of_not_accepted hacc, Option.none_or]
    cases hf : t.b.fp.f2stall with
    | true => rw [h.stalled hf u]; simp
    | false =>
      obtain ⟨ys, a, b, hfl⟩ := h.flight
      have hne : first t .fpu ≠ none := by simp [first, Fpu.first, hst, hf]
      by_cases hu : u = .fpu
      · rw [hu, if_pos]
        simp only [moves, Fpu.moves, hfpst, and_eq_true, Bool.not_false, and_true]
        exact Option.isSome_iff_ne_none.mpr hne
      · rw [hfl.first.other hne hu]; simp

/-- While a `wait` is in execute1, nothing is in decode2, nor is there a flush. -/
theorem OrderInv.alone_of_enterWait (h : OrderInv x t) (hse : t.b.ex.ex1.se.enterWait = true) :
    first t .alu ≠ none ∧ flushes t = false ∧ t.e.valid = false := by
  obtain ⟨ys, a, b, hfl⟩ := h.flight
  have hne : first t .alu ≠ none := by simp [first, Execute1.first, Execute1.holds1, h.waits hse]
  have ha : a ≠ none := fun ha => hne (hfl.first.eq_none ha)
  have hlen : (ys ++ a.toList ++ b.toList).length ≤ 1 := by
    rw [← hfl.flight, length_map]
    exact (h.wait (by simp [waitPending, hse])).1
  obtain ⟨v, rfl⟩ := Option.ne_none_iff_exists'.mp ha
  simp only [length_append, Option.toList_some, length_singleton] at hlen
  have hb : b = none := by
    cases b with
    | none => rfl
    | some w => simp at hlen
  have hflush : flushes t = false := by
    by_contra hf
    obtain ⟨u, hu, -⟩ := h.second_of_flushes (by simpa using hf)
    exact hu (hfl.second.eq_none_iff.mp hb u)
  refine ⟨hne, hflush, ?_⟩
  by_contra he
  have hys := hfl.young hflush
  rw [young, if_pos (by simpa using he)] at hys
  have hone : ys.length = 1 := by rw [hys]; rfl
  omega

theorem OrderInv.step_waitState (h : OrderInv x t) (henv : Env t c)
    (hw : (step x t c).b.ex.ctrl.waitState = true) : first (step x t c) .alu = none := by
  cases hoff : c.ext.rst || flushes t with
  | true => exact (h.empty_step henv hoff .alu).1
  | false =>
    obtain ⟨hrst, hflush⟩ := or_eq_false_iff.mp hoff
    rw [h.first_ex hrst hflush]
    rw [(ex_step hrst).1] at hw
    have hcase : does (exIn t c) t.b.ex.ex1.se.enterWait = true ∨
        t.b.ex.ctrl.waitState = true := by
      simp only [ctrlTmp] at hw
      split at hw
      · cases hw
      · exact Bool.or_eq_true_iff.mp hw
    rcases hcase with hdo | hw
    · -- the `wait` moves on, and there is nothing behind it
      simp only [does, and_eq_true, not_eq_true'] at hdo
      obtain ⟨hne, -, he⟩ := h.alone_of_enterWait hdo.2
      have hacc : accepted t c = false := by
        have he' : (exIn t c).e.valid = false := he
        simp [accepted, validIn, he']
      have hv := h.waits hdo.2
      have hb : t.b.ex.ex1.busy = false := Flag.down (fun hb => (h.ex.idle hb).1) hv
      have hm : moves t c .alu = true := by
        simp [moves, Execute1.moves, Execute1.holds1, hv, hb, hdo.1]
      rw [enters_of_not_accepted hacc, hm]
      rfl
    · have hacc : accepted t c = false := by simp [accepted, validIn, busyOut, hw]
      have hnone : first t .alu = none := h.waitState hw
      rw [enters_of_not_accepted hacc, hnone]
      simp

include h henv hclear in
theorem OrderInv.step_flushing (hf' : flushes (step x t c) = true) :
    first (step x t c) .ldst = none ∧ (step x t c).b.fp.cycle1Ar = false := by
  cases hoff : c.ext.rst || flushes t with
  | true =>
    refine ⟨(h.empty_step henv hoff .ldst).1, ?_⟩
    have hoff' : ((fpIn t c).rst || (fpIn t c).flushIn) = true := by
      rw [flushIn_fp]
      exact hoff
    have hc := (h.fpEnv henv hclear).flush hoff'
    have hstep : (Fpu.step t.b.fp (fpIn t c)).cycle1Ar = t.b.fp.cycle1Ar := by
      simp [Fpu.step, hoff']
    exact hstep.trans hc
  | false =>
    obtain ⟨hrst, hflush⟩ := or_eq_false_iff.mp hoff
    obtain ⟨ys, a, b, hfl⟩ := h.flight
    rw [fp_step hrst hflush]
    have hcycle : (fpIn t c).e.valid = false → (Fpu.rin t.b.fp (fpIn t c)).cycle1Ar = false := by
      intro hv
      simp [Fpu.rin, hv]
    -- it is enough that nothing goes to the two units and that loadstore1 has nothing
    have henough : LoadStore.flush t.b.ls.ls (lsIn t c) = false → enters t c .ldst = none →
        (fpIn t c).e.valid = false → first t .ldst = none →
        first (step x t c) .ldst = none ∧ (Fpu.rin t.b.fp (fpIn t c)).cycle1Ar = false := by
      intro hls he hv hnone
      refine ⟨?_, hcycle hv⟩
      rw [h.first_ls ⟨hrst, hflush, hls⟩, he, hnone]
      simp
    cases hls : LoadStore.flush t.b.ls.ls (lsIn t c) with
    | true =>
      obtain ⟨hadv, -, hfirst, -⟩ := h.ls.flushed_step (b := g.hasFpu) h.port h.slow
        henv.portEnv (h.send c) hrst hls (not_intr hflush).1
      exact ⟨hfirst, hcycle (fValid_of_not_accepted (not_accepted_of_stall hadv).2.1)⟩
    | false =>
      have hr3 := (intr_step (x := x) hrst).trans hls
      simp only [flushes, hr3, (ex_step hrst).2.2, fp_step hrst hflush, Bool.or_false,
        or_eq_true] at hf'
      rcases hf' with hex | hdo
      · -- a redirect or an interrupt in the first stage of execute1 blocks it
        have hri : (t.b.ex.ex1.e.redirect = true ∨ t.b.ex.ex1.e.interrupt = true) ∧
            first t .alu ≠ none := by
          rcases hex with hr | hi
          · simp only [e2Next, and_eq_true] at hr
            exact ⟨.inl hr.2, by
              simp [first, Execute1.first, Execute1.holds1, hr.1.1.1]⟩
          · simp only [e2Next, and_eq_true] at hi
            exact ⟨.inr hi.1.1, by simp [first, Execute1.first, Execute1.holds1, hi.1.1]⟩
        have hacc : accepted t c = false := by
          rcases hri.1 with hr | hi <;> simp [accepted, validIn, *]
        exact henough hls (enters_of_not_accepted hacc .ldst) (fValid_of_not_accepted hacc)
          (hfl.first.other hri.2 (by simp))
      · have hunit := hclear.fpuIntr hdo
        have hl : enters t c .ldst = none := by
          by_contra hv
          cases hgo : go t.b.ex (exIn t c) with
          | false => simp [enters, lValid_eq, hgo] at hv
          | true => simp [enters, lValid_eq, hgo, hunit hgo] at hv
        have hv : (fpIn t c).e.valid = false := by
          cases hgo : go t.b.ex (exIn t c) with
          | false => simp [fValid_eq, hgo]
          | true => simp [fValid_eq, hunit hgo]
        refine henough hls hl hv ?_
        by_cases hf : t.b.fp.f2stall = true
        · exact h.stalled hf .ldst
        · refine hfl.first.other (i := .fpu) ?_ (by simp)
          have hdone : Fpu.instrDoneNext t.b.fp (fpIn t c) = true := by
            simp only [Fpu.rin, and_eq_true] at hdo
            exact hdo.1.1
          by_cases hs : t.b.fp.state = .idle
          · rw [instrDoneNext_of_idle h.fp.toBusy hs] at hdone
            rw [first, Fpu.first, hs, if_neg (by simp), if_pos hdone]
            simp
          · simp [first, Fpu.first, hs, hf]

theorem OrderInv.oldest (h : OrderInv x t) (hv : (completeOut (wb t c)).valid = true) :
    t.dec.inFlight.getLast?.map tagOf = some (completeOut (wb t c)) := by
  obtain ⟨ys, a, b, hfl⟩ := h.flight
  rcases h.completeOut_cases (c := c) hfl.second with ⟨u, hu, hb⟩ | ⟨-, hc⟩
  · rw [← getLast?_map, hfl.flight, hb]
    simp
  · rw [hc] at hv
    cases hv

include h henv hclear in
/-- The completions arrive in order, and there are enough tags. -/
theorem OrderInv.serialEnv : Decode2.SerialEnv (decGenerics x g) t.dec (decCycle t c) where
  inOrder hv := by
    obtain ⟨e, he, htag⟩ := Option.map_eq_some_iff.mp (h.oldest (c := c) hv)
    change t.dec.inFlight.getLast?.map Control.Instr.tag =
      some (completeOut (wb t c)).tag
    rw [he, ← htag]
    rfl
  bounded := by
    obtain ⟨ys, a, b, hfl⟩ := h.step_flight henv hclear
    have hlen : (step x t c).dec.inFlight.length ≤ tagCount := by
      have := hfl.short
      rw [← length_map tagOf, hfl.flight]
      cases a <;> cases b <;> simp [tagCount] <;> omega
    exact hlen

theorem OrderInv.step_tabled (h : OrderInv x t) (henv : Env t c)
    (hv : (step x t c).dec.d.valid = true) : Tabled g.hasFpu (step x t c).dec.d := by
  revert hv
  simp only [step, Decode2.serialStep]
  split
  · intro hv; cases hv
  · split
    · intro hv; cases hv
    · split
      · exact h.tabled
      · exact henv.tabled

theorem OrderInv.ordered_pending (h : OrderInv x t)
    (hv : Decode2.validIn t.dec.dec2 (decPorts t c) = true) :
    Ordered g.hasFpu
        (Decode2.pending (decGenerics x g) t.dec.dec2 (decPorts t c)).e ∧
      ((Decode2.pending (decGenerics x g) t.dec.dec2 (decPorts t c)).e.insnType = .wait →
        (Decode2.pending (decGenerics x g) t.dec.dec2 (decPorts t c)).sglPipe =
          true) := by
  simp only [Decode2.pending]
  cases hb : t.dec.dec2.dc2.busy with
  | true => exact h.held (by simp [hb])
  | false =>
    have hd : (decPorts t c).d.valid = true := by simpa [Decode2.validIn, hb] using hv
    have htab : Tabled g.hasFpu (decPorts t c).d := h.tabled hd
    refine ⟨ordered_freshE htab, fun hw => ?_⟩
    simp only [false_eq_true, if_false, Decode2.fresh, hd, if_true]
    exact sglPipe_of_wait htab hw

theorem OrderInv.step_held (h : OrderInv x t)
    (hv : ((step x t c).e.valid || (step x t c).dec.dec2.dc2.busy) = true) :
    Ordered g.hasFpu (step x t c).e ∧
      ((step x t c).e.insnType = .wait →
        (step x t c).dec.dec2.dc2.sglPipe = true) := by
  cases hoff : c.ext.rst || flushes t with
  | true =>
    rw [e, Decode2.eOut, (dec_empty hoff).1] at hv
    cases hv
  | false =>
    obtain ⟨hrst, hflush⟩ := or_eq_false_iff.mp hoff
    cases hk : keeps t c with
    | true =>
      have he : t.e.valid = true := (and_eq_true_iff.mp hk).1
      obtain ⟨hord, hsgl⟩ := h.held (by simp [he])
      rw [e, Decode2.eOut, dc2_of_keeps hrst hflush hk]
      exact ⟨⟨⟨hord.trap, hord.pair, hord.mmu⟩, hord.slow, hord.div, hord.wait, hord.tlbie,
        hord.hash⟩,
        hsgl⟩
    | false =>
      rw [e, Decode2.eOut, dc2_of_not_keeps hrst hflush hk] at hv ⊢
      have hin : Decode2.validIn t.dec.dec2 (decPorts t c) = true := by
        rcases Bool.or_eq_true_iff.mp hv with hv | hv
        · exact Decode2.validIn_of_validOut hv
        · exact (and_eq_true_iff.mp hv).1
      obtain ⟨hord, hsgl⟩ := h.ordered_pending hin
      exact ⟨⟨⟨hord.trap, hord.pair, hord.mmu⟩, hord.slow, hord.div, hord.wait, hord.tlbie,
        hord.hash⟩,
        hsgl⟩

/-! ### Waiting -/

def issues (x : Bool) (t : Core g) (c : Cycle) : Bool :=
  t.dec.issues (decGenerics x g) (decCycle t c)

theorem validOut_of_not_issues (hi : issues x t c = false) (hk : keeps t c = false) :
    Decode2.validOut (decGenerics x g) t.dec.dec2 (decPorts t c) = false := by
  by_contra hout
  have hi' : t.dec.issues (decGenerics x g) (decCycle t c) = true :=
    Decode2.issues_iff.mpr ⟨by simpa using hout, hk⟩
  rw [issues, hi'] at hi
  cases hi

/-- The next instruction is marked for serialization. -/
theorem serialize_of_nextAlone (hn : NextAlone t.dec.dec2.dc2)
    (hv : Decode2.validIn t.dec.dec2 (decPorts t c) = true) :
    t.dec.serialize (decGenerics x g) (decCycle t c) = true := by
  simp only [Decode2.SerialTracked.serialize, Decode2.pending]
  simp only [NextAlone] at hn
  cases hb : t.dec.dec2.dc2.busy with
  | true =>
    rw [hb] at hn
    simp only [if_true] at hn ⊢
    simp [hn]
  | false =>
    have hd : (decPorts t c).d.valid = true := by simpa [Decode2.validIn, hb] using hv
    rw [hb] at hn
    simp only [false_eq_true, if_false] at hn ⊢
    simp [Decode2.fresh, hd, hn]

include hrst hflush in
/-- While nothing issues, the next instruction remains the same. -/
theorem nextAlone_step (hi : issues x t c = false) (hn : NextAlone t.dec.dec2.dc2) :
    NextAlone (step x t c).dec.dec2.dc2 := by
  cases hk : keeps t c with
  | true =>
    rw [dc2_of_keeps hrst hflush hk]
    exact hn
  | false =>
    have hout := validOut_of_not_issues hi hk
    rw [dc2_of_not_keeps hrst hflush hk]
    simp only [NextAlone] at hn ⊢
    simp only [Decode2.dc2in, Decode2.pending, Decode2.validIn, hout]
    cases hb : t.dec.dec2.dc2.busy with
    | true =>
      rw [hb] at hn
      simpa using hn
    | false =>
      rw [hb] at hn
      cases hd : (decPorts t c).d.valid <;> simpa [Decode2.fresh, hd] using hn

include h henv hclear hflush in
theorem OrderInv.not_issues_of_wait (hw : waitPending t = true) : issues x t c = false := by
  by_contra hi
  have hi' : t.dec.issues (decGenerics x g) (decCycle t c) = true := by simpa [issues] using hi
  have hser : t.dec.serialize (decGenerics x g) (decCycle t c) = true :=
    serialize_of_nextAlone (h.wait hw).2 (Decode2.validIn_of_validOut (Decode2.issues_iff.mp hi').1)
  have hnil : outstanding x t c = [] := h.serial.issues_alone (h.serialEnv henv hclear) hi' hser
  obtain ⟨ys, a, b, hfl⟩ := h.flight
  obtain ⟨left, hleft⟩ := hfl.second.exists_flag (leaves t c)
  have hout := h.outstanding_eq hfl _ hflush hleft
  rw [hnil, map_nil, eq_comm, append_eq_nil_iff, append_eq_nil_iff] at hout
  simp only [waitPending, or_eq_true, and_eq_true] at hw
  rcases hw with hw | hw
  · have hys := hfl.young hflush
    rw [hout.1.1, young, if_pos hw.1] at hys
    cases hys
  · obtain ⟨hne, -⟩ := h.alone_of_enterWait hw
    refine hne (hfl.first.eq_none ?_)
    cases a with
    | none => rfl
    | some v => simp at hout

theorem se_step (hrst : c.ext.rst = false) (hse : (step x t c).b.ex.ex1.se.enterWait = true) :
    (go t.b.ex (exIn t c) = true ∧ t.e.insnType = .wait) ∨
      (busyOut t.b.ex (exIn t c) = true ∧ t.b.ex.ex1.se.enterWait = true) := by
  rw [(ex_step hrst).2.1] at hse
  simp only [ex1in, se1Next] at hse
  split at hse
  · next hgo =>
    simp only [actionsSe, and_eq_true, beq_iff_eq] at hse
    exact .inl ⟨hgo, hse.1⟩
  · split at hse
    · next hb => exact .inr ⟨hb, hse⟩
    · cases hse

theorem OrderInv.step_waits (h : OrderInv x t) (hse : (step x t c).b.ex.ex1.se.enterWait = true) :
    (step x t c).b.ex.ex1.e.valid = true := by
  cases hrst : c.ext.rst with
  | true =>
    rw [enterWait_of_rst hrst] at hse
    cases hse
  | false =>
    have hcase := se_step hrst hse
    rw [(ex_step hrst).2.1]
    rcases hcase with ⟨hgo, hop⟩ | ⟨hb, hold⟩
    · have hv := validIn_of_go (t := t.b) (c := units t c) hgo
      have he : t.e.valid = true := (of_validIn hv).1
      obtain ⟨-, hfree, hf⟩ := not_busy_of_validIn hv
      have hf' : (exIn t c).flushIn = false := hf
      have hb1 := (of_validIn hv).2.2.1
      have hunit : (exIn t c).e.unit = .alu := (h.held (by simp [he])).1.wait hop
      have hop' : (exIn t c).e.insnType = .wait := hop
      have hev : (exIn t c).e.valid = true := he
      have hexc : actException t.b.ex (exIn t c) = false := by
        simp [actException, (of_go hgo).2]
      have how : owait g (exIn t c) = false := by
        simp [owait, startBsort, startBperm, startMul,
          startDiv, hop']
      have hvn := (next_of_not_busy (i := exIn t c) h.ex.waits hb1).2
      simp [ex1in, e1Next, hvn, hgo, actComplete, hunit, hev, hexc, how, hf']
    · obtain ⟨hne, hflush, he⟩ := h.alone_of_enterWait hold
      have hv := h.waits hold
      have hb1 : t.b.ex.ex1.busy = false := Flag.down (fun hb1 => (h.ex.idle hb1).1) hv
      have hgo : go t.b.ex (exIn t c) = false := by
        have he' : (exIn t c).e.valid = false := he
        simp [go, validIn, he']
      have hf : (exIn t c).flushIn = false := flushIn_ex.trans hflush
      have hvn := (next_of_not_busy (i := exIn t c) h.ex.waits hb1).2
      simp [ex1in, e1Next, hvn, hgo, hb, hv, hf]

include h henv hclear in
theorem OrderInv.step_wait (hw : waitPending (step x t c) = true) :
    (step x t c).dec.inFlight.length ≤ 1 ∧ NextAlone (step x t c).dec.dec2.dc2 := by
  simp only [waitPending, or_eq_true, and_eq_true, beq_iff_eq] at hw
  cases hoff : c.ext.rst || flushes t with
  | true =>
    -- a `wait` that is pending does not see a flush
    exfalso
    obtain ⟨hdc, -⟩ := dec_empty (x := x) hoff
    rcases hw with hw | hse
    · rw [e, Decode2.eOut, hdc] at hw
      cases hw.1
    · cases hrst : c.ext.rst with
      | true =>
        rw [enterWait_of_rst hrst] at hse
        cases hse
      | false =>
        have hf : flushes t = true := by simpa [hrst] using hoff
        rcases se_step hrst hse with ⟨hgo, -⟩ | ⟨-, hold⟩
        · rw [go_of_flush (flushIn_ex.trans hf)] at hgo
          cases hgo
        · rw [(h.alone_of_enterWait hold).2.1] at hf
          cases hf
  | false =>
    obtain ⟨hrst, hflush⟩ := or_eq_false_iff.mp hoff
    cases hi : issues x t c with
    | true =>
      -- what is pending now has just been issued, with nothing outstanding
      have hno : waitPending t = false := Flag.down (h.not_issues_of_wait henv hclear hflush) hi
      simp only [waitPending, or_eq_false_iff, Bool.and_eq_false_iff, beq_eq_false_iff_ne]
        at hno
      have hk : keeps t c = false := (Decode2.issues_iff.mp hi).2
      have hnew : (Decode2.pending (decGenerics x g) t.dec.dec2
          (decPorts t c)).e.insnType = .wait := by
        rcases hw with hw | hse
        · have := hw.2
          rw [e, Decode2.eOut, dc2_of_not_keeps hrst hflush hk] at this
          exact this
        · rcases se_step hrst hse with ⟨hgo, hop⟩ | ⟨-, hold⟩
          · have he : t.e.valid = true :=
              (of_validIn (validIn_of_go (t := t.b) (c := units t c) hgo)).1
            rcases hno.1 with hno | hno
            · rw [he] at hno; cases hno
            · exact absurd hop hno
          · rw [hno.2] at hold; cases hold
      have hout := (Decode2.issues_iff.mp hi).1
      obtain ⟨-, hsgl⟩ := h.ordered_pending (Decode2.validIn_of_validOut hout)
      have hser : t.dec.serialize (decGenerics x g) (decCycle t c) = true := by
        simp [Decode2.SerialTracked.serialize, hsgl hnew]
      have hnil : outstanding x t c = [] := h.serial.issues_alone (h.serialEnv henv hclear) hi hser
      constructor
      · rw [inFlight_step hrst hflush, hnil, append_nil, issued, Control.issued]
        split <;> simp
      · rw [dc2_of_not_keeps hrst hflush hk]
        simp [NextAlone, Decode2.dc2in, hout, hsgl hnew]
    | false =>
      have hp : waitPending t = true := by
        simp only [waitPending, or_eq_true, and_eq_true, beq_iff_eq]
        rcases hw with hw | hse
        · left
          cases hk : keeps t c with
          | true =>
            rw [e, Decode2.eOut, dc2_of_keeps hrst hflush hk] at hw
            exact hw
          | false =>
            rw [e, Decode2.eOut, dc2_of_not_keeps hrst hflush hk] at hw
            cases (validOut_of_not_issues hi hk).symm.trans hw.1
        · rcases se_step hrst hse with ⟨hgo, hop⟩ | ⟨-, hold⟩
          · exact .inl
              ⟨(of_validIn (validIn_of_go (t := t.b) (c := units t c) hgo)).1, hop⟩
          · exact .inr hold
      obtain ⟨hlen, hnext⟩ := h.wait hp
      refine ⟨?_, nextAlone_step hrst hflush hi hnext⟩
      have hq : (step x t c).dec.inFlight = outstanding x t c :=
        Decode2.inFlight_step_idle (g := decGenerics x g) hrst (flushOut_eq.trans hflush) hi
      rw [hq, outstanding, Decode2.SerialTracked.outstanding, Control.retire]
      split
      · rw [length_dropLast]
        omega
      · exact hlen

/-! ### The invariant -/

theorem OrderInv.init (h : Start t) : OrderInv x t := by
  obtain ⟨hdec, hunits, hcycle, hport⟩ := h
  obtain ⟨se, ie, hrste, hex⟩ := hunits.ex
  obtain ⟨⟨sl, il, hrstl, hls⟩, hw, -⟩ := hunits.ls
  obtain ⟨r, ifp, hrstf, hfp⟩ := hunits.fp
  have hbase := Inv.init hunits hcycle
  have hex1 := Execute1.empty_step (s := se) (i := ie) (by simp [hrste])
  have hfp1 := Fpu.empty_step (r := r) (i := ifp) (by simp [hrstf])
  rw [← hex] at hex1
  rw [← hfp] at hfp1
  have hls1 : LoadStore.first t.b.ls.ls = none ∧ LoadStore.second t.b.ls.ls = none := by
    simp [hls, LoadStore.first, LoadStore.second, LoadStore.holds1, LoadStore.holds2,
      LoadStore.step, hrstl, LoadStore.Stage1.reset, LoadStore.Stage2.reset, LoadStore.Stage3.reset]
  have hfirst : ∀ u, first t u = none := fun u => by
    cases u
    exacts [hex1.1, hls1.1, hfp1.1]
  have hsecond : ∀ u, second t u = none := fun u => by
    cases u
    exacts [hex1.2, hls1.2, hfp1.2]
  have he : t.e.valid = false := by rw [e, Decode2.eOut, hdec.dc2]
  constructor
  · exact hbase
  · exact .init hunits.ls
  · rw [hport]
    exact .init hunits.ls
  · exact .init hunits.ls
  · rw [hex]
    exact .reset hrste
  · have hidle : t.b.fp.state = .idle ∧ t.b.fp.busy = false ∧ t.b.fp.f2stall = false ∧
        t.b.fp.instrDone = false := by
      simp [hfp, Fpu.step, hrstf]
    exact ⟨hbase.fpu, by simp [hidle], by simp [hidle], by simp [hidle]⟩
  · exact .init hdec
  · simp [hex, Execute1.step, hrste]
  · simp [hdec.d]
  · simp [he, hdec.dc2]
  · exact ⟨[], none, none, hfirst, hsecond, by simp [hdec.empty], by simp [young, he], by simp⟩
  · exact fun _ => hfirst
  · exact fun _ => hfirst .alu
  · exact fun _ => ⟨hfirst .ldst, hcycle⟩
  · simp [waitPending, he, hex, Execute1.step, hrste]
  · simp [hex, Execute1.step, hrste]

include h henv hclear in
theorem OrderInv.step : OrderInv x (step x t c) := by
  have hmmu : LoadStore.MmuAligned (lsIn t c) := fun hv => ((h.send c).formed hv).mmu
  constructor
  · exact h.backend.step (h.unitsEnv henv) (h.fpuClear hclear)
  · exact h.slow.step h.backend.ls (h.lsEnv henv) hmmu
  · exact h.port.step h.backend.ls h.slow henv.portEnv (h.send c) hclear.hash
  · exact h.ls.step h.port h.backend.ls h.slow henv.portEnv (h.send c)
  · refine h.ex.step (i := exIn t c) fun hf => hclear.sorter ?_
    rw [← hf, flushIn_ex]
  · exact h.fp.step (h.fpEnv henv hclear)
  · exact h.serial.step (h.serialEnv henv hclear)
  · cases hrst : c.ext.rst with
    | true =>
      have hr : (Backend.exIn t.b (Core.units t c)).rst = true := hrst
      simp [Core.step, Backend.step, Execute1.step, hr]
    | false =>
      rw [(ex_step hrst).1]
      exact h.dexcr
  · exact h.step_tabled henv
  · exact h.step_held
  · exact h.step_flight henv hclear
  · exact h.step_stalled henv hclear
  · exact h.step_waitState henv
  · exact h.step_flushing henv hclear
  · exact h.step_wait henv hclear
  · exact h.step_waits

/-- Of three flags that are set for instructions in the second stage at most one is set. -/
theorem OrderInv.sum_le_one (h : OrderInv x t) {f : UnitType → Bool}
    (hf : ∀ u, f u = true → second t u ≠ none) :
    (f .alu).toNat + (f .ldst).toNat + (f .fpu).toNat ≤ 1 := by
  obtain ⟨ys, a, b, hfl⟩ := h.flight
  have hother : ∀ u v, u ≠ v → f u = true → f v = false := by
    intro u v hne hu
    by_contra hv
    exact hf v (by simpa using hv) (hfl.second.other (hf u hu) hne.symm)
  cases h1 : f .alu with
  | true => simp [hother .alu .ldst (by simp) h1, hother .alu .fpu (by simp) h1]
  | false =>
    cases h2 : f .ldst with
    | true => simp [hother .ldst .fpu (by simp) h2]
    | false => cases f .fpu <;> simp

theorem OrderInv.consistent (h : OrderInv x t) (henv : Env t c) : Consistent (wb t c) := by
  obtain ⟨ys, a, b, hfl⟩ := h.flight
  have hsec : ∀ u, presents t c u = true → second t u ≠ none := fun u hu => by
    rw [h.second_of_presents hu]
    simp
  have htag : ∀ u, presents t c u = true → (presented t c u).valid = true := fun u hu =>
    hfl.valid (hfl.second.eq_of_some (h.second_of_presents hu))
  -- each kind of write is that of an instruction in the second stage
  have hexw : (t.b.ex.ex2.e.writeEnable || t.b.ex.ex2.e.writeCrEnable ||
      t.b.ex.ex2.e.writeXercEnable) = true → second t .alu ≠ none := fun hw =>
    hsec .alu (h.ex.writes2 hw)
  have hlsw : (wb t c).l.writeEnable = true → second t .ldst ≠ none := by
    intro hw
    have hh := LoadStore.SlotInv.holds2_of_writeEnable (i := lsIn t c) h.port (h.lsEnv henv) hw
    simp [second, LoadStore.second, hh]
  have hfpc : t.b.fp.complete = true → second t .fpu ≠ none := fun hc => hsec .fpu hc
  constructor
  · exact h.sum_le_one hsec
  · refine h.sum_le_one (f := fun | .alu => _ | .ldst => _ | .fpu => _) fun u => ?_
    cases u with
    | alu => exact fun hw => hexw (by simp [show t.b.ex.ex2.e.writeEnable = true from hw])
    | ldst => exact hlsw
    | fpu => exact fun hw => hfpc (and_eq_true_iff.mp hw).2
  · refine h.sum_le_one (f := fun | .alu => _ | .ldst => _ | .fpu => _) fun u => ?_
    cases u with
    | alu => exact fun hw => hexw (by simp [show t.b.ex.ex2.e.writeCrEnable = true from hw])
    | ldst => exact fun hw => hsec .ldst (and_eq_true_iff.mp hw).2
    | fpu => exact fun hw => hfpc (and_eq_true_iff.mp hw).2
  · by_contra hx
    rw [not_eq_false, and_eq_true] at hx
    have he := hexw (by simp [show t.b.ex.ex2.e.writeXercEnable = true from hx.1])
    exact hfpc (and_eq_true_iff.mp hx.2).2 (hfl.second.other he (by simp))
  · exact htag .alu
  · exact htag .ldst
  · exact htag .fpu

theorem OrderInv.nodup (h : OrderInv x t) : (t.dec.inFlight.map tagOf).Nodup := by
  have htags := h.serial.base.order.nodup_tags h.serial.base.bounded
  have hmap : t.dec.inFlight.map tagOf =
      (t.dec.inFlight.map Control.Instr.tag).map fun n => (⟨n, true⟩ : InstrTag) := by
    rw [map_map]
    rfl
  rw [hmap]
  exact htags.map fun a b hab => by simpa using hab

/-- What a run has to keep to. -/
def ClearEnv (t : Core g) (c : Cycle) : Prop := Env t c ∧ Clear t c

instance (t : Core g) (c : Cycle) : Decidable (ClearEnv t c) := inferInstanceAs (Decidable (_ ∧ _))

theorem orderInv_of_reachable (h : Reachable (step x) ClearEnv Start t) : OrderInv x t :=
  h.induct (fun _ => OrderInv.init) fun _ _ hi he => hi.step he.1 he.2

/-- **One completion at a time.** In every run in which the units are not brought out of step: of
the three units at most one presents a completion, a write of a register, of CR or of XER, and the
tags are valid, so that the assertions of writeback hold; what completes is the oldest instruction
that has been issued; at most `TAG_COUNT` instructions are outstanding, each with a tag of its own;
and a tag that is handed out is not in use. -/
theorem one_completion (h : Reachable (step x) ClearEnv Start t) (hc : ClearEnv t c) :
    Consistent (wb t c) ∧
      ((completeOut (wb t c)).valid = true →
        t.dec.inFlight.getLast?.map tagOf = some (completeOut (wb t c))) ∧
      t.dec.inFlight.length ≤ tagCount ∧ (t.dec.inFlight.map tagOf).Nodup ∧
      (issues x t c = true →
        ∀ e ∈ outstanding x t c, e.tag ≠ t.dec.dec2.control.currTag) := by
  have hinv := orderInv_of_reachable h
  refine ⟨hinv.consistent hc.1, hinv.oldest, hinv.serial.base.bounded, hinv.nodup,
    fun hi e he => ?_⟩
  -- afterwards the new instruction and the others have different tags
  obtain ⟨hrst, hflush⟩ := Decode2.validOut_running (Decode2.issues_iff.mp hi).1
  have hnext := (hinv.step hc.1 hc.2).nodup
  have hnew : issued x t c = [⟨t.dec.dec2.control.currTag, _, _⟩] := Control.issued_of_valid hi
  rw [inFlight_step hrst (flushOut_eq.symm.trans hflush), hnew, singleton_append, map_cons,
    nodup_cons] at hnext
  intro heq
  exact hnext.1 (mem_map.mpr ⟨e, he, by rw [tagOf, tagOf, heq]⟩)

/-! ### Interrupts and flushes -/

def interrupts (t : Core g) (c : Cycle) : UnitType → Bool
  | .alu => (wb t c).e.interrupt
  | .ldst => (wb t c).l.interrupt
  | .fpu => (wb t c).fp.interrupt

theorem second_of_interrupts {u : UnitType} (hu : interrupts t c u = true) : second t u ≠ none := by
  cases u with
  | alu =>
    simp [second, Execute1.second, Execute1.holds2, show t.b.ex.ex2.e.interrupt = true from hu]
  | ldst =>
    simp [second, LoadStore.second, LoadStore.holds2, show t.b.ls.ls.r3.interrupt = true from hu]
  | fpu => simp [second, Fpu.second, show t.b.fp.doIntr = true from hu]

/-- **Interrupts are precise** in every run in which the units are not brought out of step: an
interrupt is that of the oldest instruction outstanding, and no other unit presents an interrupt or
a completion beside it. -/
theorem interrupt_precise (h : Reachable (step x) ClearEnv Start t) {u : UnitType}
    (hu : interrupts t c u = true) :
    second t u = t.dec.inFlight.getLast?.map tagOf ∧
      ∀ v, v ≠ u → interrupts t c v = false ∧ presents t c v = false := by
  have hinv := orderInv_of_reachable h
  obtain ⟨ys, a, b, hfl⟩ := hinv.flight
  have hne := second_of_interrupts hu
  constructor
  · obtain ⟨tag, htag⟩ := Option.ne_none_iff_exists'.mp hne
    rw [htag, ← getLast?_map, hfl.flight, hfl.second.eq_of_some htag]
    simp
  · intro v hv
    have hnone := hfl.second.other hne hv
    constructor
    · by_contra hi
      exact second_of_interrupts (by simpa using hi) hnone
    · by_contra hp
      rw [hinv.second_of_presents (by simpa using hp)] at hnone
      cases hnone

/-- **A flush leaves nothing behind** in such a run: no instruction in decode2 or in any stage of a
unit, none that is outstanding, and no request for which the data cache owes an answer, although
loadstore1 cannot be flushed. -/
theorem flush_empties (h : Reachable (step x) ClearEnv Start t) (hc : ClearEnv t c)
    (hf : flushOut (wb t c) = true) :
    (∀ u, first (step x t c) u = none ∧ second (step x t c) u = none) ∧
      young (step x t c) = none ∧ (step x t c).dec.inFlight = [] ∧ (step x t c).port = {} := by
  have hinv := orderInv_of_reachable h
  have hoff : (c.ext.rst || flushes t) = true := by rw [← flushOut_eq (c := c), hf, Bool.or_true]
  have hnone := hinv.empty_step hc.1 hoff
  obtain ⟨hdc, hq⟩ := dec_empty (x := x) hoff
  refine ⟨hnone, by simp [young, Decode2.eOut, hdc], hq, ?_⟩
  have hnext := hinv.step hc.1 hc.2
  have h1 : LoadStore.holds1 (step x t c).b.ls.ls = false := by
    by_contra hh
    simpa [first, LoadStore.first, hh] using (hnone .ldst).1
  have h2 : LoadStore.holds2 (step x t c).b.ls.ls = false := by
    by_contra hh
    simpa [second, LoadStore.second, hh] using (hnone .ldst).2
  have hw := (hnext.ls.calm hnext.port h1 (.inl h2)).1
  -- a request belongs to an instruction in one of the stages
  have hserved : (step x t c).port.served = false :=
    Flag.down (fun hs => (hnext.port.served hs).1) hw
  have hsent : (step x t c).port.sent = false := by
    by_contra hs
    rcases hnext.port.sent (by simpa using hs) with hi | hi
    · rw [LoadStore.holds1, (hnext.port.issued1 hi.1).1] at h1
      cases h1
    · rw [hi.1] at hw
      cases hw
  exact congrArg₂ Port.mk hsent hserved

/-! ### One pipeline -/

/-- **Serialization empties the units.** An instruction that is marked for it issues only when
decode2 and the first stages are empty and what is in a second stage completes. -/
theorem serialized_alone (h : Reachable (step x) ClearEnv Start t) (hc : ClearEnv t c)
    (hi : issues x t c = true) (hs : t.dec.serialize (decGenerics x g) (decCycle t c) = true) :
    young t = none ∧ ∀ u, first t u = none ∧ (second t u ≠ none → leaves t c u = true) := by
  have hinv := orderInv_of_reachable h
  have hnil : outstanding x t c = [] := hinv.serial.issues_alone (hinv.serialEnv hc.1 hc.2) hi hs
  have hflush : flushes t = false :=
    flushOut_eq.symm.trans (Decode2.validOut_running (Decode2.issues_iff.mp hi).1).2
  obtain ⟨ys, a, b, hfl⟩ := hinv.flight
  obtain ⟨left, hleft⟩ := hfl.second.exists_flag (leaves t c)
  have hout := hinv.outstanding_eq hfl _ hflush hleft
  rw [hnil, map_nil, eq_comm, append_eq_nil_iff, append_eq_nil_iff] at hout
  have hys := hfl.young hflush
  refine ⟨by simpa [hout.1.1] using hys, fun u => ⟨hfl.first.eq_none (by simpa using hout.1.2), ?_⟩⟩
  intro hu
  rw [hleft u hu]
  by_contra hl
  simp only [hl, if_false, Option.toList_eq_nil_iff] at hout
  exact hu (hfl.second.eq_none hout.2)

/-- **Loads and stores of the core.** What the results on loadstore1 alone assume of the other units
holds in such a run: a request is for a doubleword of the instruction that execute1 has sent, and
the last answer makes up the value of a load. -/
theorem loads_and_stores (h : Reachable (step x) ClearEnv Start t) (hc : ClearEnv t c)
    (hrst : c.ext.rst = false) :
    let ls := t.b.ls
    let i := lsIn t c
    LoadStore.Env ls i ∧
      ((dOut g.hasFpu ls.ls i).valid = true → (ls.sentOp i).Plain →
        ∃ w ∈ (ls.sentOp i).doublewords g.hasFpu, (dOut g.hasFpu ls.ls i).addr = w.addr ∧
          (dOut g.hasFpu ls.ls i).byteSel = w.sel ∧
          ∀ i', (dOut g.hasFpu (step x t c).b.ls.ls i').data = w.data) ∧
      (i.d.valid = true → ls.op2.Plain → ls.ls.r2.req.incomplete = false →
        (ls.op2.request g.hasFpu).load = true → ∀ mem : Memory,
          (∀ p ∈ (ls.op2.doublewords g.hasFpu).zip (ls.answers ++ [i.d.data]),
            dwordAt mem p.1.addr = p.2) → dataTrimmed ls.ls i = loadValue mem ls.op2) := by
  have hinv := orderInv_of_reachable h
  have henv := hinv.lsEnv hc.1
  exact ⟨henv, hinv.backend.ls.request_sent henv hrst,
    fun hv hp hl => (hinv.backend.ls.access_done henv hv hp hl).2⟩

/-! ### Runs -/

def coreReset : Core {} where
  dec := Decode2.serialReset
  b := traceReset.b

theorem start_reset : Start coreReset :=
  ⟨Decode2.serialStart_reset, traceStart_reset.units, rfl, rfl⟩

def idle : Cycle := {}

/-- A load into register 0. -/
def presentLoad : Cycle := { next := { valid := true, decode := decodeRom true .lbz } }

/-- A `bpermd` that does not use register 0. -/
def presentBperm : Cycle where
  next :=
    { valid := true, decode := decodeRom true .bperm, insn := 0x00231000, regB := 2, regC := 1 }

/-- The data cache has the data. -/
def answers : Cycle := { ext := { d := { valid := true } } }

/-- The data cache has an error. -/
def faults : Cycle := { ext := { d := { error := true, cacheParadox := true } } }

/-- A load and a `bpermd` behind it; the load is answered and completes. -/
theorem one_completion_load :
    let t := run (step true) coreReset [presentLoad, presentBperm, idle, idle]
    (completeOut (wb t answers)).valid = true ∧ t.dec.inFlight.length = 2 ∧
      t.dec.inFlight.getLast?.map tagOf = some (completeOut (wb t answers)) := by
  intro t
  have hreach : Reachable (step true) ClearEnv Start t :=
    reachable_run start_reset (by decide +kernel)
  have hv : (completeOut (wb t answers)).valid = true := by decide +kernel
  have hc : ClearEnv t answers := by decide +kernel
  exact ⟨hv, by decide +kernel, (one_completion hreach hc).2.1 hv⟩

/-- The load faults while the `bpermd` behind it is in execute1. The flush takes both, but some
cycles later, with nothing in flight, execute1 presents a completion without a valid tag. -/
theorem one_completion_fails :
    let cs := [presentLoad, presentBperm, idle, idle, faults] ++ replicate 8 idle
    let t := run (step true) coreReset cs
    Allowed (step true) Env coreReset (cs ++ [idle]) ∧ t.dec.inFlight = [] ∧
      (wb t idle).e.valid = true ∧ (wb t idle).e.instrTag.valid = false ∧
      ¬ Consistent (wb t idle) := by
  intro cs t
  have hv : (wb t idle).e.valid = true := by decide +kernel
  have htag : (wb t idle).e.instrTag.valid = false := by decide +kernel
  refine ⟨by decide +kernel, by decide +kernel, hv, htag, fun h => ?_⟩
  rw [h.tagE hv] at htag
  cases htag

/-- The load is answered with an error, which it takes as an interrupt. -/
def afterFault : Core {} :=
  run (step true) coreReset [presentLoad, idle, idle, idle, faults]

theorem reachable_afterFault : Reachable (step true) ClearEnv Start afterFault :=
  reachable_run start_reset (by decide +kernel)

theorem afterFault_facts : ClearEnv afterFault idle ∧ interrupts afterFault idle .ldst = true ∧
    flushOut (wb afterFault idle) = true ∧ afterFault.dec.inFlight.length = 1 := by
  decide +kernel

theorem interrupt_precise_load : interrupts afterFault idle .ldst = true ∧
    second afterFault .ldst = afterFault.dec.inFlight.getLast?.map tagOf := by
  obtain ⟨-, hi, -, -⟩ := afterFault_facts
  exact ⟨hi, (interrupt_precise reachable_afterFault hi).1⟩

theorem flush_empties_load : afterFault.dec.inFlight.length = 1 ∧
    (step true afterFault idle).dec.inFlight = [] := by
  obtain ⟨hc, -, hf, hlen⟩ := afterFault_facts
  exact ⟨hlen, (flush_empties reachable_afterFault hc hf).2.2.1⟩

/-- A load waits for its data, and behind it an `icbi`. -/
def loading : Core {} :=
  run (step true) coreReset
    [presentLoad, { next := { valid := true, decode := decodeRom true .icbi } }, idle, idle]

def loads : Cycle := { ext := { d := { valid := true, data := dwordAt sampleMemory 0 } } }

theorem reachable_loading : Reachable (step true) ClearEnv Start loading :=
  reachable_run start_reset (by decide +kernel)

theorem loading_facts : (ClearEnv loading loads ∧ flushes loading = false ∧
      second loading .ldst ≠ none ∧ issues true loading loads = true ∧
      loading.dec.serialize (decGenerics true {}) (decCycle loading loads) = true) ∧
    (loading.b.ls.op2.l.op = .load ∧ loading.b.ls.op2.l.length = 1 ∧
      loading.b.ls.op2.l.hash = false) ∧ loading.b.ls.ls.r2.req.incomplete = false ∧
    (loading.b.ls.op2.request true).load = true ∧
    ∀ p ∈ (loading.b.ls.op2.doublewords true).zip (loading.b.ls.answers ++ [loads.ext.d.data]),
      dwordAt sampleMemory p.1.addr = p.2 := by
  decide +kernel

theorem serialized_alone_icbi :
    second loading .ldst ≠ none ∧ leaves loading loads .ldst = true := by
  obtain ⟨⟨hc, -, hs, hi, hser⟩, -⟩ := loading_facts
  exact ⟨hs, ((serialized_alone reachable_loading hc hi hser).2 .ldst).2 hs⟩

theorem loads_and_stores_lbz : dataTrimmed loading.b.ls.ls (lsIn loading loads) =
    loadValue sampleMemory loading.b.ls.op2 := by
  obtain ⟨⟨hc, -⟩, ⟨hop, hlen, hno⟩, hlast, hld, hmem⟩ := loading_facts
  exact (loads_and_stores reachable_loading hc rfl).2.2 rfl ⟨.inl hop, .inl hlen, hno⟩ hlast hld _
    hmem

end Core

end Microwatt
