import Microwatt.Lib.Clocked
import Microwatt.Execute.Stages

/-!
# Flushed instructions do not complete

When `flush_in` is asserted, whatever is in execute1 has to disappear. For an instruction that takes
several cycles this means that the unit has to forget that it waits for a result: five flags say
what it waits for, and `busy` says that it waits at all. A flush clears `busy` and three of the
flags. It leaves alone the two for the bit sorter, which itself cannot be stopped. If the bit sorter
is not done at that moment, the result that arrives later completes whatever the first stage holds
by then, which is nothing.

Instructions are numbered in the order in which they are accepted. What is allowed to complete is
what was accepted since the last flush.

## Main results

* `Execute1.busy_step` — the unit is busy exactly if it waits for one thing
* `Execute1.FlushInv.step`
* `Execute1.flush_safe`, `Execute1.flush_safe_fails`
-/

namespace Microwatt

open Clocked

namespace Execute1

variable {g : Generics}

/-! ### The instructions in the unit -/

/-- An instruction: its number in the order of acceptance, and its tag. -/
structure Instr where
  id : ℕ
  tag : InstrTag
  deriving DecidableEq, Repr

/-- The unit with the instruction in each of the two stages, the number of instructions accepted so
far and up to the last flush, and whether that flush was in the last cycle. -/
structure FlushTracked (g : Generics) where
  unit : State g
  first : Option Instr
  second : Option Instr
  accepted : ℕ
  floor : ℕ
  flushed : Bool

/-- One clock edge. The registers of the first stage are held while `busy_out` is asserted and take
an empty slot if there is nothing to accept. -/
def flushStep (t : FlushTracked g) (i : Inputs) : FlushTracked g where
  unit := step t.unit i
  first :=
    if i.rst then none
    else if busyOut t.unit i then t.first
    else if validIn t.unit i then some ⟨t.accepted, i.e.instrTag⟩
    else none
  second := if i.rst then none else t.first
  accepted := if validIn t.unit i then t.accepted + 1 else t.accepted
  floor := if i.flushIn then t.accepted else t.floor
  flushed := i.flushIn

/-- What decode2 promises: a valid instruction has a valid tag, and none comes in the cycle after a
flush. -/
@[mk_iff]
structure Decode2Env (t : FlushTracked g) (i : Inputs) : Prop where
  tag : i.e.valid = true → i.e.instrTag.valid = true
  quiet : t.flushed = true → i.e.valid = false

instance (t : FlushTracked g) (i : Inputs) : Decidable (Decode2Env t i) :=
  decidable_of_iff _ (decode2Env_iff ..).symm

/-- No flush arrives while the bit sorter is at work. In its last cycle, in which it says that it is
done, a flush does no harm. -/
def SorterClear (t : FlushTracked g) (i : Inputs) : Prop :=
  i.flushIn = true →
    (t.unit.ex1.bsortInProgress = true → t.unit.bsort.sd = true) ∧
    (t.unit.ex1.bpermInProgress = true → t.unit.bsort.bpDone = true)

instance (t : FlushTracked g) (i : Inputs) : Decidable (SorterClear t i) :=
  inferInstanceAs (Decidable (_ → _))

def FlushEnv (t : FlushTracked g) (i : Inputs) : Prop := Decode2Env t i ∧ SorterClear t i

instance (t : FlushTracked g) (i : Inputs) : Decidable (FlushEnv t i) :=
  inferInstanceAs (Decidable (_ ∧ _))

/-- After a reset nothing is in the unit. -/
def flushStart (g : Generics) : FlushTracked g where
  unit := step {} { rst := true }
  first := none
  second := none
  accepted := 0
  floor := 0
  flushed := false

/-- `n` is an instruction accepted since the last flush, and `tag` is its tag, a valid one. -/
structure Live (floor : ℕ) (n : Option Instr) (tag : InstrTag) : Prop where
  valid : tag.valid = true
  since : ∃ m, n = some m ∧ floor ≤ m.id ∧ m.tag = tag

/-! ### One thing at a time -/

/-- The number of results the first stage waits for. -/
def waiting {n : ℕ} (r : Stage1 n) : ℕ :=
  r.mulInProgress.toNat + r.mulFinish.toNat + r.divInProgress.toNat + r.bsortInProgress.toNat +
    r.bpermInProgress.toNat

theorem waiting_zero {n : ℕ} {r : Stage1 n} (h : waiting r = 0) :
    r.mulInProgress = false ∧ r.mulFinish = false ∧ r.divInProgress = false ∧
      r.bsortInProgress = false ∧ r.bpermInProgress = false := by
  simp only [waiting] at h
  refine ⟨?_, ?_, ?_, ?_, ?_⟩ <;> apply Bool.toNat_eq_zero.mp <;> omega

variable {s : State g}

theorem go_of_busy {i : Inputs} (h : s.ex1.busy = true) : go s i = false := by
  simp [go, validIn, busyOut, h]

theorem go_of_flush {i : Inputs} (h : i.flushIn = true) : go s i = false := by
  simp [go, validIn, h]

theorem starts_exclusive (g : Generics) (i : Inputs) :
    (startMul i).toNat + (startDiv g i).toNat + (startBsort i).toNat + (startBperm i).toNat =
      (startDiv g i || startMul i || startBsort i || startBperm i).toNat := by
  simp only [startMul, startDiv, startBsort, startBperm]
  cases i.e.insnType <;> cases g.hasFpu <;> cases i.e.is32bit <;> rfl

theorem startDiv_hasFpu {i : Inputs} (h : startDiv g i = true) : g.hasFpu = false := by
  simp only [startDiv, Bool.and_eq_true, Bool.not_eq_true'] at h
  exact h.1

/-- The first stage waits for nothing or for one thing, and is busy in the second case. -/
theorem busy_step {i : Inputs} (hdiv : s.ex1.divInProgress = true → g.hasFpu = false)
    (hsort : i.flushIn = true →
      (s.ex1.bsortInProgress = true → s.bsort.sd = true) ∧
      (s.ex1.bpermInProgress = true → s.bsort.bpDone = true))
    (h : s.ex1.busy.toNat = waiting s.ex1) : (ex1in s i).busy.toNat = waiting (ex1in s i) := by
  cases hflush : i.flushIn with
  | true =>
    have hgo : go s i = false := go_of_flush hflush
    obtain ⟨h1, h2⟩ := hsort hflush
    cases hb : s.ex1.bsortInProgress <;> cases hp : s.ex1.bpermInProgress <;>
      simp_all [waiting, ex1in]
  | false =>
    cases hbusy : s.ex1.busy with
    | true =>
      have hgo : go s i = false := go_of_busy hbusy
      rw [hbusy] at h
      simp only [waiting, ex1in, busyNext, hflush, hgo] at h ⊢
      -- which of the five it is
      cases hm : s.ex1.mulInProgress <;> cases hf : s.ex1.mulFinish <;>
        cases hd : s.ex1.divInProgress <;> cases hb : s.ex1.bsortInProgress <;>
        cases hp : s.ex1.bpermInProgress <;> simp_all
      all_goals cases i.dp.multiplyValid <;> cases s.ex1.oe <;> rfl
    | false =>
      rw [hbusy] at h
      obtain ⟨hm, hf, hd, hb, hp⟩ := waiting_zero h.symm
      cases hgo : go s i with
      | true =>
        have hx := starts_exclusive g i
        simp only [waiting, ex1in, busyNext, hflush, hgo, hm, hf, hd, hb, hp]
        simp at hx ⊢
        omega
      | false => simp [waiting, ex1in, busyNext, hflush, hgo, hm, hf, hd, hb, hp]

/-- The divider is at work only if there is one. -/
theorem divider_step {i : Inputs} (hdiv : s.ex1.divInProgress = true → g.hasFpu = false)
    (hd : (ex1in s i).divInProgress = true) : g.hasFpu = false := by
  simp only [ex1in] at hd
  split at hd
  · cases hd
  · split at hd
    · next h => exact hdiv (by simp_all)
    · split at hd
      · exact startDiv_hasFpu hd
      · exact hdiv hd

/-! ### What makes a result valid -/

theorem e1Next_instrTag (s : State g) (i : Inputs) :
    (e1Next s i).instrTag = if busyOut s i then s.ex1.e.instrTag else i.e.instrTag := by
  simp only [e1Next, presentedE]
  split
  · rfl
  · split <;> rfl

theorem busyOut_of_busy {i : Inputs} (h : s.ex1.busy = true) : busyOut s i = true := by
  simp [busyOut, h]

theorem busyOut_of_go {i : Inputs} (h : go s i = true) : busyOut s i = false := by
  simp only [go, validIn, Bool.and_eq_true, Bool.not_eq_true', Bool.or_eq_false_iff] at h
  exact h.1.2.1.1.1

theorem go_of_busyOut {i : Inputs} (h : busyOut s i = true) : go s i = false := by
  cases hgo : go s i with
  | false => rfl
  | true => rw [busyOut_of_go hgo] at h; cases h

theorem valid_of_go {i : Inputs} (h : go s i = true) :
    i.e.valid = true ∧ i.flushIn = false ∧ s.ex1.busy = false ∧ actException s i = false := by
  have hin : validIn s i = true := (Bool.and_eq_true_iff.mp h).1
  have hbusy := busyOut_of_go h
  simp only [busyOut, Bool.or_eq_false_iff] at hbusy
  have hexc := (Bool.and_eq_true_iff.mp h).2
  rw [exceptionFirst, hin] at hexc
  simp only [validIn, Bool.and_eq_true, Bool.not_eq_true', Bool.or_eq_false_iff] at hin
  refine ⟨hin.1, hin.2.1.1.2, hbusy.1.1.2, ?_⟩
  cases hx : actException s i with
  | false => rfl
  | true => rw [hx] at hexc; cases hexc

/-- What completes has gone through the first stage unharmed. -/
theorem ex2_valid (s : State g) (i : Inputs) :
    (ex2in s i).e.valid = (s.ex1.e.valid && !stage2Stall i && !i.flushIn) := rfl

/-- The first stage becomes or stays busy on behalf of the instruction it holds or of a new one. -/
theorem busyNext_cases {i : Inputs} (hw : s.ex1.busy.toNat = waiting s.ex1)
    (h : busyNext s i = true) : s.ex1.busy = true ∨ go s i = true := by
  by_contra hnot
  rw [not_or, Bool.not_eq_true, Bool.not_eq_true] at hnot
  obtain ⟨hbusy, hgo⟩ := hnot
  obtain ⟨hm, -, hd, hb, hp⟩ := waiting_zero (by rw [← hw, hbusy]; rfl)
  simp [busyNext, hm, hd, hb, hp, hgo] at h

/-- A result becomes or stays valid for the instruction that is held or for a new one. -/
theorem validNext_cases {i : Inputs} (hw : s.ex1.busy.toNat = waiting s.ex1)
    (h : validNext s i = true) :
    busyOut s i = true ∧ (s.ex1.busy = true ∨ s.ex1.e.valid = true) ∨ go s i = true := by
  cases hbusy : s.ex1.busy with
  | true => exact .inl ⟨busyOut_of_busy hbusy, .inl rfl⟩
  | false =>
    obtain ⟨hm, hf, hd, hb, hp⟩ := waiting_zero (by rw [← hw, hbusy]; rfl)
    cases hgo : go s i with
    | true => exact .inr rfl
    | false =>
      simp only [validNext, hm, hf, hd, hb, hp, hgo] at h
      simp only [Bool.false_eq_true, Bool.and_false, if_false] at h
      split at h
      · next hout => exact .inl ⟨hout, .inr h⟩
      · cases h

/-! ### The invariant -/

/-- Whatever the unit works at or is about to complete was accepted since the last flush. -/
structure FlushInv (t : FlushTracked g) : Prop where
  floor_le : t.floor ≤ t.accepted
  waits : t.unit.ex1.busy.toNat = waiting t.unit.ex1
  divider : t.unit.ex1.divInProgress = true → g.hasFpu = false
  busy : t.unit.ex1.busy = true → Live t.floor t.first t.unit.ex1.e.instrTag
  first : t.unit.ex1.e.valid = true → Live t.floor t.first t.unit.ex1.e.instrTag
  second : t.unit.ex2.e.valid = true → Live t.floor t.second t.unit.ex2.e.instrTag

variable {t : FlushTracked g} {i : Inputs}

theorem flushInv_reset (hrst : i.rst = true) (hle : t.floor ≤ t.accepted) :
    FlushInv (flushStep t i) := by
  constructor
  · simp only [flushStep]
    split <;> split <;> omega
  all_goals simp [flushStep, step, hrst, waiting]

theorem live_kept (hrst : i.rst = false) (hflush : i.flushIn = false)
    (hout : busyOut t.unit i = true) (h : Live t.floor t.first t.unit.ex1.e.instrTag) :
    Live (flushStep t i).floor (flushStep t i).first (e1Next t.unit i).instrTag := by
  simpa [flushStep, hrst, hflush, hout, e1Next_instrTag] using h

/-- An instruction that is executed was accepted just now. -/
theorem live_go (hrst : i.rst = false) (henv : Decode2Env t i) (hle : t.floor ≤ t.accepted)
    (hgo : go t.unit i = true) :
    Live (flushStep t i).floor (flushStep t i).first (e1Next t.unit i).instrTag := by
  have hout := busyOut_of_go hgo
  have hin : validIn t.unit i = true := by
    simp only [go, Bool.and_eq_true] at hgo
    exact hgo.1
  have hval := hin
  simp only [validIn, Bool.and_eq_true, Bool.not_eq_true', Bool.or_eq_false_iff] at hval
  obtain ⟨hval, ⟨⟨-, hflush⟩, -⟩, -⟩ := hval
  constructor
  · simpa [e1Next_instrTag, hout] using henv.tag hval
  · exact ⟨⟨t.accepted, i.e.instrTag⟩, by simp [flushStep, hrst, hout, hin],
      by simpa [flushStep, hflush] using hle, by simp [e1Next_instrTag, hout]⟩

theorem FlushInv.step (h : FlushInv t) (henv : FlushEnv t i) : FlushInv (flushStep t i) := by
  cases hrst : i.rst with
  | true => exact flushInv_reset hrst h.floor_le
  | false =>
    have hex1 : (flushStep t i).unit.ex1 = ex1in t.unit i := by
      simp [flushStep, Execute1.step, hrst]
    constructor
    · have := h.floor_le
      simp only [flushStep]
      split <;> split <;> omega
    · rw [hex1]
      exact busy_step h.divider henv.2 h.waits
    · rw [hex1]
      exact divider_step h.divider
    · rw [hex1]
      intro hb
      simp only [ex1in, Bool.and_eq_true, Bool.not_eq_true'] at hb
      rcases busyNext_cases h.waits hb.1 with hbusy | hgo
      · exact live_kept hrst hb.2 (busyOut_of_busy hbusy) (h.busy hbusy)
      · exact live_go hrst henv.1 h.floor_le hgo
    · rw [hex1]
      intro hv
      simp only [ex1in, e1Next, Bool.and_eq_true, Bool.not_eq_true'] at hv
      rcases validNext_cases h.waits hv.1 with ⟨hout, hbusy | hval⟩ | hgo
      · exact live_kept hrst hv.2 hout (h.busy hbusy)
      · exact live_kept hrst hv.2 hout (h.first hval)
      · exact live_go hrst henv.1 h.floor_le hgo
    · intro hv
      -- the second stage takes over what the first one holds
      have hv' : (t.unit.ex1.e.valid = true ∧ stage2Stall i = false) ∧ i.flushIn = false := by
        simpa [flushStep, Execute1.step, hrst, ex2in, e2Next] using hv
      simpa [flushStep, Execute1.step, hrst, ex2in, e2Next, hv'.2] using h.first hv'.1.1

theorem flushInv_start (g : Generics) : FlushInv (flushStart g) := by
  constructor <;> simp [flushStart, Execute1.step, waiting]

/-- **Flush safety.** If no flush arrives while the bit sorter is at work, a result that goes to
writeback has a valid tag, which is that of an instruction accepted since the last flush. -/
theorem flush_safe (h : Reachable flushStep FlushEnv (· = flushStart g) t)
    (hv : (eOut t.unit).valid = true) : Live t.floor t.second (eOut t.unit).instrTag := by
  have hinv : FlushInv t := by
    refine h.induct (fun s hs => ?_) fun _ _ hi he => hi.step he
    rw [hs]
    exact flushInv_start g
  exact hinv.second hv

/-- `bpermd`, with a tag of its own. -/
def bpermd : Inputs where
  e := { valid := true, instrTag := ⟨1, true⟩, insnType := .bperm }

def idle : Inputs := {}

/-- A `bpermd` after a flush completes. -/
theorem flush_safe_bpermd :
    let t := run flushStep (flushStart {})
      ([{ flushIn := true }, idle, bpermd] ++ List.replicate 9 idle)
    (eOut t.unit).valid = true ∧ Live t.floor t.second (eOut t.unit).instrTag := by
  intro t
  have hreach : Reachable flushStep FlushEnv (· = flushStart {}) t :=
    reachable_run rfl (by decide +kernel)
  have hv : (eOut t.unit).valid = true := by decide +kernel
  exact ⟨hv, flush_safe hreach hv⟩

/-- A `bpermd` is flushed in the cycle after it was accepted, and nothing else is presented. In the
cycle after the flush loadstore1 may or may not be busy. -/
def flushedBpermd (lbusy : Bool) : List Inputs :=
  [bpermd, { flushIn := true }, { l := { busy := lbusy } }] ++ List.replicate 7 idle

/-- Nine cycles after the flush a result goes to writeback all the same. If loadstore1 was busy it
has the tag of the flushed `bpermd`, otherwise one that is not valid. -/
theorem flush_safe_fails :
    let t lbusy := run flushStep (flushStart {}) (flushedBpermd lbusy)
    (∀ lbusy, Allowed flushStep Decode2Env (flushStart {}) (flushedBpermd lbusy)) ∧
      ((eOut (t false).unit).valid = true ∧ (eOut (t false).unit).instrTag.valid = false) ∧
      (eOut (t true).unit).valid = true ∧ (t true).second = some ⟨0, ⟨1, true⟩⟩ ∧
        (t true).floor = 1 := by
  decide +kernel

end Execute1

end Microwatt
