import Microwatt.Control.Hazards
import Microwatt.Decode.Decode2

/-!
# Serialization

Some instructions may issue only when nothing older is outstanding, and so may the instruction after
one of them; the debug unit is told that the core has stopped under the same condition. Control does
not count the outstanding instructions. It remembers the tag of the last one in `prev_tag` and looks
whether that tag is still held, which is enough as long as completions come in order.

There is one flaw in this. `prev_tag` is also written when an instruction is let out in a cycle in
which decode2 is deferred. No tag is handed out in such a cycle, so `prev_tag` then names a tag that
nobody holds. An instruction in this position is `passed` below. It does no harm to the instructions
themselves, since the one that is passed stays in the stage until it issues and is not one that has
to wait; but `stopped_out` is wrong if the stop mark arrives with it.

Decode1 is represented by its output register, which it keeps while the stage stalls, of which a
flush clears `valid`, and which may otherwise change to anything.

## Main results

* `Decode2.SerialInv.step` — `prev_tag` is the tag of the youngest instruction in flight, unless an
  instruction is passed
* `Decode2.serialization` — a serialized instruction issues alone, and the core is reported as
  stopped only when nothing is outstanding, if no instruction is passed
* `Decode2.stopped_fails` — the report is wrong otherwise
-/

namespace Microwatt

open Clocked Control

namespace Decode2

/-! ### The stage with its instructions -/

/-- The stage, the output of decode1, the instructions in flight, and whether the instruction that
waits has been let out in a deferred cycle. -/
structure SerialTracked where
  dec2 : State
  d : Decode1ToDecode2
  inFlight : List Instr
  passed : Bool

open SerialTracked

/-- The inputs of a cycle, and the next output of decode1. -/
structure SerialCycle where
  i : Inputs := {}
  next : Decode1ToDecode2 := {}

variable {g : Generics} {t : SerialTracked} {c : SerialCycle}

def SerialTracked.ports (t : SerialTracked) (c : SerialCycle) : Inputs := { c.i with d := t.d }

/-- The issue control with its instructions. -/
def SerialTracked.ctl (t : SerialTracked) : Tracked := ⟨t.dec2.control, t.inFlight⟩

section

variable (g : Generics) (t : SerialTracked) (c : SerialCycle)

def SerialTracked.ctlPorts : Control.Inputs :=
  Decode2.ctl g t.dec2 (t.ports c)

/-- The instruction in the stage is marked for serialization. -/
def SerialTracked.serialize : Bool :=
  (pending g t.dec2 (t.ports c)).sglPipe || (pending g t.dec2 (t.ports c)).prevSgl

def SerialTracked.issues : Bool :=
  (instrTag g t.dec2 (t.ports c)).valid

/-- The instructions that are outstanding, those that complete in this cycle not counted. -/
def SerialTracked.outstanding :
    List Instr :=
  retire (t.ctlPorts g c) t.inFlight

def serialStep : SerialTracked where
  dec2 := step g t.dec2 (t.ports c)
  d :=
    if c.i.rst then {}
    else if c.i.flushIn then { t.d with valid := false }
    else if stallOut t.dec2 (t.ports c) then t.d
    else c.next
  inFlight := (t.ctl.step g.ex1Bypass (t.ctlPorts g c)).inFlight
  passed :=
    if c.i.rst || c.i.flushIn || t.issues g c then false
    else validOut g t.dec2 (t.ports c) || t.passed

/-- Completions arrive in issue order, and at most `TAG_COUNT` instructions are outstanding. -/
def SerialEnv : Prop :=
  Control.Env g.ex1Bypass t.ctl (t.ctlPorts g c)

end

structure SerialStart (t : SerialTracked) : Prop where
  dc2 : t.dec2.dc2 = {}
  control : IsReset t.dec2.control
  d : t.d = {}
  empty : t.inFlight = []
  notPassed : t.passed = false

/-! ### What an edge does -/

theorem validOut_running (h : validOut g t.dec2 (t.ports c) = true) :
    c.i.rst = false ∧ c.i.flushIn = false := by
  by_contra hne
  have hor : c.i.rst = true ∨ c.i.flushIn = true := by
    cases hr : c.i.rst <;> cases hf : c.i.flushIn <;> simp_all
  rcases hor with h1 | h1 <;>
    simp [validOut, Control.validOut, ctl, ports, h1] at h

/-- An instruction that is let out and is serialized finds the last tag free. -/
theorem serialStall_of_validOut (h : validOut g t.dec2 (t.ports c) = true)
    (hser : t.serialize g c = true) :
    serialStall t.dec2.control (t.ctlPorts g c) = false := by
  by_contra hne
  rw [Bool.not_eq_false] at hne
  have hser' : (ctl g t.dec2 (t.ports c)).serialize = true := hser
  have hne' : serialStall t.dec2.control (ctl g t.dec2 (t.ports c)) = true := hne
  simp [validOut, Control.validOut, hser', hne'] at h

theorem issues_iff :
    t.issues g c = true ↔
      validOut g t.dec2 (t.ports c) = true ∧ deferred t.dec2 (t.ports c) = false := by
  have hdef : (ctl g t.dec2 (t.ports c)).deferred = deferred t.dec2 (t.ports c) := rfl
  simp [issues, instrTag, Control.instrTag, validOut, hdef]

theorem prevTag_step :
    (serialStep g t c).dec2.control.prevTag =
      if c.i.rst then 0
      else if validOut g t.dec2 (t.ports c) then t.dec2.control.currTag
      else t.dec2.control.prevTag := rfl

/-- What waits in the stage, and whether it is serialized, does not change while it is neither
issued nor flushed. -/
theorem waiting_step (c' : SerialCycle) (hrst : c.i.rst = false) (hflush : c.i.flushIn = false)
    (hissue : t.issues g c = false) (hvalid : validIn t.dec2 (t.ports c) = true) :
    validIn (serialStep g t c).dec2 ((serialStep g t c).ports c') = true ∧
      (serialStep g t c).serialize g c' = t.serialize g c := by
  cases hdef : deferred t.dec2 (t.ports c) with
  | true =>
    -- everything is held
    have hstall : stallOut t.dec2 (t.ports c) = true := by simp [stallOut, hdef]
    have hd : (serialStep g t c).d = t.d := by simp [serialStep, hrst, hflush, hstall]
    have hdc : (serialStep g t c).dec2.dc2 = dc2Held g t.dec2 (t.ports c) := by
      have hr : (t.ports c).rst = false := hrst
      have hf : (t.ports c).flushIn = false := hflush
      simp [serialStep, step, dc2Next, hdef, hr, hf]
    constructor
    · simpa [validIn, ports, hd, hdc, dc2Held] using hvalid
    · cases hb : t.dec2.dc2.busy <;> cases hv : t.d.valid <;>
        simp [serialize, pending, fresh, ports, hd, hdc, dc2Held, hb, hv]
  | false =>
    have hout : validOut g t.dec2 (t.ports c) = false :=
      Flag.down (fun hne => issues_iff.mpr ⟨hne, hdef⟩) hissue
    have hdc : (serialStep g t c).dec2.dc2 = dc2in g t.dec2 (t.ports c) := by
      have hr : (t.ports c).rst = false := hrst
      have hf : (t.ports c).flushIn = false := hflush
      simp [serialStep, step, dc2Next, hdef, hr, hf]
    have hbusy : (serialStep g t c).dec2.dc2.busy = true := by
      simp [hdc, dc2in, hvalid, hout]
    have hpend : pending g (serialStep g t c).dec2 ((serialStep g t c).ports c') =
        dc2in g t.dec2 (t.ports c) := (if_pos hbusy).trans hdc
    refine ⟨by simp [validIn, hbusy], ?_⟩
    simp only [serialize, hpend, dc2in]

/-! ### The invariant -/

/-- What `prev_tag` says about the instructions in flight. -/
structure SerialInv (g : Generics) (t : SerialTracked) : Prop where
  base : Control.Inv t.ctl
  /-- `prev_tag` is the tag of the youngest one, unless an instruction is passed. -/
  prev : t.passed = false →
    ∀ e ∈ t.inFlight.head?, e.tag = t.dec2.control.prevTag
  /-- An instruction that is passed waits in the stage and need not issue alone. -/
  waits : t.passed = true → t.inFlight = [] ∨
    ∀ c, validIn t.dec2 (t.ports c) = true ∧ t.serialize g c = false

theorem SerialInv.init (h : SerialStart t) : SerialInv g t where
  base := Inv.init ⟨h.control, h.empty⟩
  prev := by simp [h.empty]
  waits hp := by rw [h.notPassed] at hp; cases hp

/-- If the last tag is free, nothing is outstanding. -/
theorem SerialInv.alone (h : SerialInv g t) (henv : SerialEnv g t c) (hp : t.passed = false)
    (hfree : serialStall t.dec2.control (t.ctlPorts g c) = false) :
    t.outstanding g c = [] := by
  cases hq : t.inFlight with
  | nil =>
    simp only [SerialTracked.outstanding, retire, hq]
    split <;> rfl
  | cons e q =>
    have htag : e.tag = t.dec2.control.prevTag := h.prev hp e (by simp [hq])
    have hheld : (t.dec2.control.tagRegs t.dec2.control.prevTag).valid = true :=
      (h.base.held t.dec2.control.prevTag).mpr ⟨e, by simp [SerialTracked.ctl, hq], htag⟩
    -- its tag is free because it completes now, and it is the oldest one as well
    have hdone : (t.ctlPorts g c).completeIn.valid = true ∧
        t.dec2.control.prevTag = (t.ctlPorts g c).completeIn.tag := by
      by_contra hne
      have hmatch :
          tagMatch ⟨t.dec2.control.prevTag, true⟩ (t.ctlPorts g c).completeIn = false := by
        rw [← Bool.not_eq_true, tagMatch_iff]
        rintro ⟨-, hv, ht⟩
        exact hne ⟨hv, ht⟩
      simp [serialStall, tagPrev, hheld, hmatch] at hfree
    obtain ⟨hv, hcomp⟩ := hdone
    rcases retire_split henv with ⟨hno, -⟩ | ⟨x, hx, -, hsplit⟩
    · rw [hv] at hno; cases hno
    · change t.inFlight = t.outstanding g c ++ [x] at hsplit
      cases hout : t.outstanding g c with
      | nil => rfl
      | cons y q' =>
        rw [hout, hq, List.cons_append, List.cons.injEq] at hsplit
        have hne : e.tag ≠ x.tag := by
          have horder := h.base.order
          have hlen := h.base.bounded
          have hall : t.ctl.inFlight = (e :: q') ++ x :: [] := by
            change t.inFlight = _
            rw [hq, hsplit.2]; rfl
          rw [hall] at horder hlen
          exact horder.tag_ne_of_append hlen (.inl (by simp))
        exact absurd (htag.trans (hcomp.trans hx.symm)) hne

theorem head_retire (i : Control.Inputs) (q : List Instr) :
    ∀ e ∈ (retire i q).head?, e ∈ q.head? := by
  intro e he
  simp only [retire] at he
  split at he
  · cases q with
    | nil => simp at he
    | cons x q =>
      cases q with
      | nil => simp at he
      | cons y q => simpa [List.dropLast] using he
  · exact he

theorem inFlight_step (hrst : c.i.rst = false) (hflush : c.i.flushIn = false) :
    (serialStep g t c).inFlight =
      issued g.ex1Bypass t.dec2.control (t.ctlPorts g c) ++ t.outstanding g c := by
  have hr : (t.ctlPorts g c).rst = false := hrst
  have hf : (t.ctlPorts g c).flushIn = false := hflush
  simp [serialStep, Control.Tracked.step, hr, hf, SerialTracked.ctl, SerialTracked.outstanding]

theorem inFlight_step_idle (hrst : c.i.rst = false) (hflush : c.i.flushIn = false)
    (hissue : t.issues g c = false) :
    (serialStep g t c).inFlight = t.outstanding g c := by
  have hnone : issued g.ex1Bypass t.dec2.control (t.ctlPorts g c) = [] :=
    issued_of_not_valid hissue
  rw [inFlight_step hrst hflush, hnone, List.nil_append]

theorem SerialInv.step (h : SerialInv g t) (henv : SerialEnv g t c) :
    SerialInv g (serialStep g t c) := by
  have hbase : Control.Inv (serialStep g t c).ctl := h.base.step henv
  cases hoff : c.i.rst || c.i.flushIn with
  | true =>
    have hq : (serialStep g t c).inFlight = [] := by
      have : ((t.ctlPorts g c).rst || (t.ctlPorts g c).flushIn) = true := hoff
      simp [serialStep, Control.Tracked.step, this]
    exact ⟨hbase, by simp [hq], fun _ => .inl hq⟩
  | false =>
    obtain ⟨hrst, hflush⟩ := Bool.or_eq_false_iff.mp hoff
    cases hissue : t.issues g c with
    | true =>
      -- the tag handed out is the one that is remembered
      refine ⟨hbase, fun _ e he => ?_, fun hp => by simp [serialStep, hissue] at hp⟩
      have hnew : ∃ wr reg, issued g.ex1Bypass t.dec2.control (t.ctlPorts g c) =
          [⟨t.dec2.control.currTag, wr, reg⟩] := ⟨_, _, issued_of_valid hissue⟩
      obtain ⟨wr, reg, hnew⟩ := hnew
      rw [inFlight_step hrst hflush, hnew] at he
      rw [prevTag_step, if_neg (by simp [hrst]), if_pos (issues_iff.mp hissue).1]
      simp only [List.singleton_append, List.head?_cons, Option.mem_def, Option.some.injEq] at he
      rw [← he]
    | false =>
      have hq := inFlight_step_idle hrst hflush hissue
      have hpass : (serialStep g t c).passed =
          (validOut g t.dec2 (t.ports c) || t.passed) := by
        simp [serialStep, hoff, hissue]
      refine ⟨hbase, fun hp e he => ?_, fun hp => ?_⟩
      · rw [hpass, Bool.or_eq_false_iff] at hp
        rw [prevTag_step, if_neg (by simp [hrst]), if_neg (by simp [hp.1])]
        rw [hq] at he
        exact h.prev hp.2 e (head_retire _ _ e he)
      · rw [hq]
        -- while something is outstanding, the instruction that waits is not serialized
        have hser : t.outstanding g c = [] ∨
            (validIn t.dec2 (t.ports c) = true ∧ t.serialize g c = false) := by
          cases hpt : t.passed with
          | true =>
            rcases h.waits hpt with hnil | hw
            · left
              simp only [SerialTracked.outstanding, retire, hnil]
              split <;> rfl
            · exact .inr (hw c)
          | false =>
            have hout : validOut g t.dec2 (t.ports c) = true := by
              rw [hpass, hpt, Bool.or_false] at hp
              exact hp
            cases hs : t.serialize g c with
            | true => exact .inl (h.alone henv hpt (serialStall_of_validOut hout hs))
            | false =>
              refine .inr ⟨?_, rfl⟩
              by_contra hne
              rw [Bool.not_eq_true] at hne
              have hv : (ctl g t.dec2 (t.ports c)).validIn = false := hne
              simp [validOut, Control.validOut, hv] at hout
        rcases hser with hnil | ⟨hv, hs⟩
        · exact .inl hnil
        · refine .inr fun c' => ?_
          obtain ⟨h1, h2⟩ := waiting_step c' hrst hflush hissue hv
          exact ⟨h1, h2.trans hs⟩

theorem SerialInv.issues_alone (h : SerialInv g t) (henv : SerialEnv g t c)
    (hissue : t.issues g c = true) (hser : t.serialize g c = true) : t.outstanding g c = [] := by
  have hfree := serialStall_of_validOut (issues_iff.mp hissue).1 hser
  cases hp : t.passed with
  | false => exact h.alone henv hp hfree
  | true =>
    rcases h.waits hp with hnil | hw
    · simp only [SerialTracked.outstanding, retire, hnil]
      split <;> rfl
    · rw [(hw c).2] at hser
      cases hser

theorem serialInv_of_reachable
    (h : Reachable (serialStep g) (SerialEnv g) SerialStart t) : SerialInv g t :=
  h.induct (fun _ => SerialInv.init) fun _ _ hi he => hi.step he

/-- **Serialization.** In every run from reset in which completions arrive in issue order and at
most `TAG_COUNT` instructions are outstanding: an instruction that is marked for serialization
issues only when nothing older is outstanding, and the core is reported as stopped only then, unless
the stop mark comes while the instruction in decode2 has been let out in a deferred cycle. -/
theorem serialization (h : Reachable (serialStep g) (SerialEnv g) SerialStart t)
    (henv : SerialEnv g t c) :
    (t.issues g c = true → t.serialize g c = true → t.outstanding g c = []) ∧
      (stoppedOut g t.dec2 (t.ports c) = true → t.passed = false → t.outstanding g c = []) := by
  have hinv := serialInv_of_reachable h
  refine ⟨hinv.issues_alone henv, fun hstop hp => hinv.alone henv hp ?_⟩
  have : Control.stoppedOut t.dec2.control (t.ctlPorts g c) = true := hstop
  simpa [Control.stoppedOut] using (Bool.and_eq_true_iff.mp this).2

/-! ### Runs -/

/-- After reset, with the fields of the tag registers that are not reset cleared. -/
def serialReset : SerialTracked where
  dec2 := { control := resetState.ctl }
  d := {}
  inFlight := []
  passed := false

theorem serialStart_reset : SerialStart serialReset :=
  ⟨rfl, ⟨fun _ => ⟨rfl, rfl, rfl, rfl⟩, rfl, rfl, rfl, rfl⟩, rfl, rfl, rfl⟩

instance (g : Generics) (t : SerialTracked) (c : SerialCycle) : Decidable (SerialEnv g t c) :=
  inferInstanceAs (Decidable (Control.Env ..))

/-- An instruction without operands. -/
def plainInsn : Decode1ToDecode2 := { valid := true, decode := { insnType := .nop } }

/-- An instruction that has to issue alone. -/
def singleInsn : Decode1ToDecode2 :=
  { valid := true, decode := { insnType := .isync, sglPipe := true } }

/-- A plain instruction is issued and completes two cycles later, when the one after it, which must
issue alone, does issue. -/
def serialRun : List SerialCycle := [{ next := plainInsn }, { next := singleInsn }, {}]

theorem serialization_isync :
    let t := run (serialStep {}) serialReset serialRun
    let done : SerialCycle := { i := { completeIn := ⟨0, true⟩ } }
    t.inFlight.length = 1 ∧ t.issues {} done = true ∧ t.serialize {} done = true ∧
      t.outstanding {} done = [] := by
  intro t done
  have hreach : Reachable (serialStep {}) (SerialEnv {}) SerialStart t :=
    reachable_run serialStart_reset (by decide +kernel)
  have hissue : t.issues {} done = true := by decide +kernel
  have hser : t.serialize {} done = true := by decide +kernel
  exact ⟨by decide +kernel, hissue, hser,
    (serialization hreach (by decide +kernel)).1 hissue hser⟩

/-- A plain instruction is issued, and execute1 does not take it. Behind it comes one with the stop
mark, as decode1 presents it for a failed fetch; it is let out while the stage is deferred. -/
def stoppedRun : List SerialCycle :=
  [{ next := plainInsn }, { next := { plainInsn with stopMark := true } },
    { i := { busyIn := true } }]

/-- The core is reported as stopped while the first instruction is outstanding. -/
theorem stopped_fails :
    ∃ (t : SerialTracked) (c : SerialCycle),
      Reachable (serialStep {}) (SerialEnv {}) SerialStart t ∧ SerialEnv {} t c ∧
        stoppedOut {} t.dec2 (t.ports c) = true ∧ t.outstanding {} c ≠ [] := by
  refine ⟨run (serialStep {}) serialReset stoppedRun, { i := { busyIn := true } },
    reachable_run serialStart_reset (by decide +kernel), ?_, ?_, ?_⟩
  all_goals decide +kernel

end Decode2

end Microwatt
