import Microwatt.Backend.Order
import Microwatt.Execute.Msr

/-!
# SPRs in RAM, from decode1 to writeback

Execute1 reads the SPRs in RAM right as long as decode2 gives it the right addresses, a unit that
stalls its second stage is busy, and no flush takes away an instruction that is going to write while
execute1 is busy. Here all of this is shown of decode1, decode2 and the back end connected to each
other. The last point rests on the units being one pipeline: the instruction that causes the flush
is the one in the second stage, the one that would have written is in the first stage of execute1,
and so loadstore1 and the FPU have nothing left to be busy with. What the invariants of the MSR rest
on holds as well.

## Main definitions

* `SprCore` — decode1 and the core, with the values that should be read

## Main results

* `SprCore.ramspr_delivered`, `SprCore.msrOk`
-/

namespace Microwatt

open Clocked Execute1 Bool

/-- The output of decode1 as a state of the stage. -/
def Decode1.ofOut (d : Decode1ToDecode2) : Decode1.State := { r := d, decode := d.decode }

theorem Decode2.looked_default : Looked {} :=
  ⟨rfl, rfl, ⟨fun _ => rfl, fun _ => rfl, rfl, nofun⟩⟩

/-- Decode1 and the core, with the values of the SPRs in RAM that should be read and what the
instruction in the first stage of execute1 is going to write. -/
structure SprCore (g : Generics) where
  d1 : Decode1.State := {}
  core : Core g
  sprs : RamSpr → BitVec 64
  pend : SprWrites

structure SprCoreCycle where
  i1 : Decode1.Inputs := {}
  c : Core.Cycle := {}

namespace SprCore

variable {g : Generics} {x : Bool}

section

variable (x : Bool) (t : SprCore g) (c : SprCoreCycle)

/-- What the core gets. Decode1 may be stalled and flushed at any time. -/
def cycle : Core.Cycle := { c.c with next := Decode1.dOut (Decode1.step g.hasFpu t.d1 c.i1) }

def exIn : Execute1.Inputs := Core.exIn t.core (t.cycle c)

/-- Execute1 with the values that should be read. -/
def ram : RamTracked g := ⟨t.core.b.ex, t.sprs, t.pend⟩

def step : SprCore g where
  d1 := Decode1.step g.hasFpu t.d1 c.i1
  core := Core.step x t.core (t.cycle c)
  sprs := (ramStep t.ram (t.exIn c)).sprs
  pend := (ramStep t.ram (t.exIn c)).pend

def Env : Prop := Core.ClearEnv t.core (t.cycle c)

instance : Decidable (t.Env c) := inferInstanceAs (Decidable (Core.ClearEnv ..))

structure Start : Prop where
  d1 : t.d1 = {}
  core : Core.Start t.core
  sprs : t.sprs = ramOf t.core.b.ex
  pend : t.pend = fun _ => none

/-- What holds of the stages. An instruction that is going to write has all it needs. -/
structure Inv : Prop where
  order : Core.OrderInv x t.core
  looked : Decode2.Looked t.d1
  presented : Decode2.Looked (Decode1.ofOut t.core.dec.d)
  held : Decode2.RamsprHeld t.core.dec.dec2.dc2
  ram : RamInv t.ram
  ready : t.ram.writer → t.core.b.ex.ex1.e.valid = true
  privileged : Decode2.MsrPrivileged t.core.dec.dec2.dc2.e
  msr : MsrInv t.core.b.ex

end

variable {t : SprCore g} {c : SprCoreCycle}

/-! ### A flush -/

/-- Loadstore1 lets execute1 go on when there is a flush. -/
theorem ls_free_of_flushes {t : Core g} {c : Core.Cycle} (h : Core.OrderInv x t)
    (henv : Core.Env t c) (hf : Core.flushes t = true) :
    LoadStore.busy t.b.ls.ls (Core.lsIn t c) = false := by
  obtain ⟨h1, h2⟩ := h.ls_of_flushes hf
  obtain ⟨hw, hb2, -⟩ := h.ls.calm h.port h1 h2
  have hadv := h.port.advance_of_calm h.slow henv.portEnv hw hb2
  have hb1 : t.b.ls.ls.r1.busy = false := by
    by_contra hb
    rw [LoadStore.holds1, h.port.busy1 (by simpa using hb)] at h1
    cases h1
  simp only [LoadStore.advance, Bool.not_eq_true', or_eq_false_iff] at hadv
  simp [LoadStore.busy, hadv, hb1]

/-- Execute1 does not wait for a result of an instruction that is going to write. -/
theorem Inv.not_waiting (h : Inv x t) (hw : t.ram.writer) : t.core.b.ex.ex1.busy = false := by
  by_contra hb
  have hv := h.ready hw
  rw [(h.order.ex.idle (by simpa using hb)).1] at hv
  cases hv

/-- Nor is it busy when a flush takes such an instruction away. -/
theorem Inv.not_busy (h : Inv x t) (henv : t.Env c) (hf : (t.exIn c).flushIn = true)
    (hw : t.ram.writer) : busyOut t.core.b.ex (t.exIn c) = false := by
  have hflushes : Core.flushes t.core = true := Core.flushIn_ex.symm.trans hf
  have hfirst : Core.first t.core .alu ≠ none := by
    simp [Core.first, Execute1.first, Execute1.holds1, h.ready hw]
  have hls : (t.exIn c).l.busy = false := ls_free_of_flushes h.order henv.1 hflushes
  have hfp : (t.exIn c).fp.busy = false := by
    by_contra hb
    obtain ⟨ys, a, b, hfl⟩ := h.order.flight
    have hnone : Core.first t.core .fpu = none := hfl.first.other hfirst (by simp)
    have hst : t.core.b.fp.state ≠ .idle := h.order.fp.working (Bool.not_eq_false _ ▸ hb)
    cases hs : t.core.b.fp.f2stall with
    | true => exact hfirst (h.order.stalled hs .alu)
    | false => simp [Core.first, Fpu.first, hst, hs] at hnone
  have hwait : t.core.b.ex.ctrl.waitState = false := by
    by_contra hs
    exact hfirst (h.order.waitState (by simpa using hs))
  simp [busyOut, hls, h.not_waiting hw, hfp, hwait]

theorem Inv.ramEnv (h : Inv x t) (henv : t.Env c) : RamEnv t.ram (t.exIn c) :=
  h.order.backend.ramEnv h.held.decoded (h.not_busy henv)

/-! ### The invariant -/

theorem insnType_of_writesSpr {e : Decode2ToExecute1} {r : RamSpr}
    (h : Decode2.writesSpr e r = true) : e.insnType = .mtspr ∨ e.insnType = .b ∨
      e.insnType = .bc ∨ e.insnType = .bcreg := by
  simp only [Decode2.writesSpr] at h
  split at h
  · next hop => exact .inl hop
  · simp only [Decode2.links, Decode2.decrements, or_eq_true, and_eq_true, beq_iff_eq] at h
    tauto

/-- An instruction that is going to write is complete when it comes into the first stage. -/
theorem Inv.step_ready (h : Inv x t) (henv : t.Env c) (hw : (step x t c).ram.writer) :
    (step x t c).core.b.ex.ex1.e.valid = true := by
  have hlive := live_step h.ram (h.ramEnv henv) hw
  refine hlive.resolve_right fun hb => ?_
  obtain ⟨r, hr⟩ := hw
  obtain ⟨hrst, hbusy, hflush⟩ :
      (t.exIn c).rst = false ∧ busyNext t.core.b.ex (t.exIn c) = true ∧
        (t.exIn c).flushIn = false := by
    have hb' : (Execute1.step t.core.b.ex (t.exIn c)).ex1.busy = true := hb
    cases hrst : (t.exIn c).rst with
    | true => simp [Execute1.step, hrst] at hb'
    | false => simpa [Execute1.step, hrst, ex1in] using hb'
  change ((if (t.exIn c).rst || (t.exIn c).flushIn then _ else
    if busyOut t.core.b.ex (t.exIn c) then t.pend else if go t.core.b.ex (t.exIn c) then
      insnWrites (t.exIn c).e t.ram.now else _ : SprWrites) r).isSome = true at hr
  rw [hrst, hflush, Bool.or_self, if_neg Bool.false_ne_true] at hr
  -- nothing was at work before
  have hidle : t.core.b.ex.ex1.busy = false := by
    cases hout : busyOut t.core.b.ex (t.exIn c) with
    | true =>
      rw [hout, if_pos rfl] at hr
      exact h.not_waiting ⟨r, hr⟩
    | false =>
      simp only [busyOut, or_eq_false_iff] at hout
      exact hout.1.1.2
  have hzero := h.order.ex.waits
  rw [hidle] at hzero
  obtain ⟨hm, hmf, hd, hs, hp⟩ := waiting_zero hzero.symm
  simp only [busyNext, hm, hd, hs, hp, Bool.and_false, Bool.false_eq_true, if_false,
    and_eq_true_iff] at hbusy
  obtain ⟨hgo, hstart⟩ := hbusy
  rw [busyOut_of_go hgo, if_neg Bool.false_ne_true, if_pos hgo] at hr
  have hwrites : Decode2.writesSpr (t.exIn c).e r = true := by
    by_contra hn
    simp [insnWrites, hn] at hr
  rcases insnType_of_writesSpr hwrites with h | h | h | h <;>
    simp [startDiv, startMul, startBsort, startBperm, h] at hstart

/-- What decode1 presents is looked up as its register is. -/
theorem Inv.step_presented (h : Inv x t) (hd1 : Decode2.Looked (step x t c).d1) :
    Decode2.Looked (Decode1.ofOut (step x t c).core.dec.d) := by
  change Decode2.Looked (Decode1.ofOut (if _ then _ else if _ then _ else if _ then _ else _))
  split_ifs
  · exact Decode2.looked_default
  · exact ⟨h.presented.sprInfo, h.presented.ramSpr, h.presented.row⟩
  · exact h.presented
  · exact ⟨hd1.sprInfo, hd1.ramSpr, hd1.row⟩

theorem Inv.step (h : Inv x t) (henv : t.Env c) : Inv x (SprCore.step x t c) where
  order := h.order.step henv.1 henv.2
  looked := h.looked.step c.i1
  presented := h.step_presented (h.looked.step c.i1)
  held := Decode2.ramsprHeld_step h.held h.presented rfl
  ram := h.ram.step (h.ramEnv henv)
  ready := h.step_ready henv
  privileged := Decode2.msrPrivileged_step h.privileged h.presented rfl
  msr := h.msr.step (show MsrEnv t.core.b.ex (t.exIn c) from h.privileged)

theorem Inv.init (h : t.Start) : Inv x t where
  order := .init h.core
  looked := by rw [h.d1]; exact Decode2.looked_default
  presented := by rw [h.core.dec.d]; exact Decode2.looked_default
  held := by rw [h.core.dec.dc2]; exact Decode2.ramsprHeld_default
  ram := ramInv_start ⟨h.core.units.ex, h.sprs, h.pend⟩
  ready hw := by
    obtain ⟨r, hr⟩ := hw
    rw [show t.ram.pend = fun _ => none from h.pend] at hr
    cases hr
  privileged := by rw [h.core.dec.dc2]; exact nofun
  msr := by
    obtain ⟨s, i, hrst, hex⟩ := h.core.units.ex
    rw [hex]
    exact msrInv_reset hrst

theorem inv_of_reachable (h : Reachable (step x) Env Start t) : Inv x t :=
  h.induct (fun _ => Inv.init) fun _ _ hi he => hi.step he

/-- **The MSR in the core.** Both copies are acceptable, with nothing assumed of the decoder. -/
theorem msrOk (h : Reachable (step x) Env Start t) :
    MsrOk t.core.b.ex.ex1.msr ∧ MsrOk t.core.b.ex.ctrl.msr :=
  ⟨(inv_of_reachable h).msr.ex1, (inv_of_reachable h).msr.ctrl⟩

/-- **SPRs in RAM are delivered.** In every run of decode1, decode2 and the back end in which the
units are not brought out of step, the RAMs hold what completed instructions and interrupts have
written. An instruction that is executed reads each of these SPRs as the youngest older instruction
left it, and one that is going to write a SPR does so unless it is flushed. -/
theorem ramspr_delivered (h : Reachable (step x) Env Start t) (henv : t.Env c) :
    ramOf t.core.b.ex = t.sprs ∧
      (go t.core.b.ex (t.exIn c) = true → ∀ r,
        Decode2.readsSpr (Decode2.eOut t.core.dec.dec2) r = true →
          portValue t.core.b.ex (t.exIn c) r = t.ram.now r) ∧
      (t.ram.writer → Core.flushes t.core = false → busyOut t.core.b.ex (t.exIn c) = false →
        (ex2in t.core.b.ex (t.exIn c)).e.valid = true) := by
  have hinv := inv_of_reachable h
  have hram := hinv.ramEnv henv
  refine ⟨hinv.ram.ram, fun hgo r hr => hinv.ram.port hram (valid_of_go hgo).1 hr,
    fun hw hf hout => ?_⟩
  have hflush : (t.exIn c).flushIn = false := Core.flushIn_ex.trans hf
  have hstall : stage2Stall (t.exIn c) = false := by
    by_contra hs
    have hb : busyOut t.core.b.ex (t.exIn c) = true := hram.stall (by simpa using hs)
    rw [hout] at hb
    cases hb
  rw [ex2_valid, hinv.ready hw, hstall, hflush]
  rfl

/-- The instruction cache delivers an instruction, and the register file shows 5. -/
def fetches (icode : InsnCode) (insn : BitVec 32) : SprCoreCycle where
  i1 := { f := { valid := true, icode := icode, insn := some insn } }
  c := { r := { read3Data := 5 } }

def sprReset : SprCore {} where
  core := Core.coreReset
  sprs := fun _ => 0
  pend := fun _ => none

theorem start_sprReset : Start sprReset := by
  refine ⟨rfl, Core.start_reset, ?_, rfl⟩
  funext r
  cases r <;> rfl

/-- `mfctr` right behind `mtctr` reads what has not been written yet. -/
theorem ramspr_delivered_mfctr :
    let t := run (step true) sprReset
      [fetches .mtspr 0x7C6903A6, fetches .mfspr 0x7C8902A6, {}]
    go t.core.b.ex (t.exIn {}) = true ∧ t.sprs .ctr = 0 ∧ t.ram.now .ctr = 5 ∧
      portValue t.core.b.ex (t.exIn {}) .ctr = t.ram.now .ctr := by
  intro t
  have hreach : Reachable (step true) Env Start t :=
    reachable_run start_sprReset (by decide +kernel)
  obtain ⟨henv, hgo, hold, hnow, hr⟩ : t.Env {} ∧ go t.core.b.ex (t.exIn {}) = true ∧
      t.sprs .ctr = 0 ∧ t.ram.now .ctr = 5 ∧
      Decode2.readsSpr (Decode2.eOut t.core.dec.dec2) .ctr = true := by decide +kernel
  exact ⟨hgo, hold, hnow, (ramspr_delivered hreach henv).2.1 hgo .ctr hr⟩

end SprCore

end Microwatt
