import Microwatt.Decode.Sprs
import Microwatt.Execute.Flush

/-!
# SPRs in RAM

LR, CTR, TAR, the save and restore registers and a few others are kept in two RAMs. An instruction
reads them in the first stage and writes them when it goes to the second, one stage later, so there
is a bypass: what the instruction in the first stage is going to write is what the next one reads.
The bypass looks neither at `valid` nor at the stall of the second stage. An interrupt writes its
two registers through the same port.

What should be read is given by `RamTracked.sprs`, the values that instructions and interrupts have
written, and `RamTracked.pend`, what the instruction in the first stage is going to write. A flush
takes the latter away. That an instruction which leaves the first stage without a flush does write
is part of the result.

The environment has to keep to three things. An interrupt comes with a flush. A unit that stalls the
second stage is busy. And a flush that takes away an instruction which writes one of these SPRs does
not find execute1 busy; otherwise the bypass would go on showing what the flushed instruction would
have written. Such a flush is an interrupt of the instruction before it in another unit, which is
empty by then.

## Main definitions

* `Execute1.RamTracked`, `Execute1.ramStep` — with the values that should be read
* `Execute1.RamEnv` — what the other units promise

## Main results

* `Execute1.RamInv.step`, `Execute1.ramspr_refines`
-/

namespace Microwatt

open Clocked Bool Decode2

namespace Execute1

open Decode2 (readsSpr writesSpr sourceSpr RamsprDecoded)

variable {g : Generics}

/-! ### The values that should be read -/

/-- For each SPR the value that is written, if any. -/
abbrev SprWrites := RamSpr → Option (BitVec 64)

/-- The values after the writes. -/
def SprWrites.over (w : SprWrites) (v : RamSpr → BitVec 64) : RamSpr → BitVec 64 :=
  fun r => (w r).getD (v r)

def insnWrites (e : Decode2ToExecute1) (now : RamSpr → BitVec 64) : SprWrites := fun r =>
  if writesSpr e r then
    match e.insnType with
    | .mtspr => some e.readData3
    | _ => if r = .lr then some (e.nia + 4) else some (now .ctr - 1)
  else none

/-- The registers for the address and the MSR of an interrupt. -/
def intrRegs (w : WritebackToExecute1) : RamSpr × RamSpr :=
  if w.hvIntr then (.hsrr0, .hsrr1) else if w.scvInt then (.lr, .ctr) else (.srr0, .srr1)

/-- What an interrupt writes. -/
def intrWrites (s : State g) (w : WritebackToExecute1) : SprWrites := fun r =>
  if r = (intrRegs w).1 then some s.ex2.e.lastNia
  else if r = (intrRegs w).2 then some (intrSrr1 s.ctrl.msr w.srr1)
  else none

/-- Execute1, the values that have been written, and what the instruction in the first stage is
going to write. -/
structure RamTracked (g : Generics) where
  unit : State g
  sprs : RamSpr → BitVec 64
  pend : SprWrites

/-- The values as the next instruction should see them. -/
def RamTracked.now (t : RamTracked g) : RamSpr → BitVec 64 := t.pend.over t.sprs

def ramStep (t : RamTracked g) (i : Inputs) : RamTracked g where
  unit := step t.unit i
  sprs :=
    let done := if (ex2in t.unit i).e.valid then t.pend.over t.sprs else t.sprs
    if i.interruptIn.intr then (intrWrites t.unit i.interruptIn).over done else done
  pend :=
    if i.rst || i.flushIn then fun _ => none
    else if busyOut t.unit i then t.pend
    else if go t.unit i then insnWrites i.e t.now
    else fun _ => none

/-- The instruction in the first stage writes one of these SPRs. -/
def RamTracked.writer (t : RamTracked g) : Prop := ∃ r, (t.pend r).isSome = true

instance (t : RamTracked g) : Decidable t.writer :=
  inferInstanceAs (Decidable (∃ r, (t.pend r).isSome = true))

/-- What the other units promise. The last point, that a flush takes away no such writer while
execute1 is busy, is shown in `Backend.Sprs` only for runs in which the units stay in step
(`Core.ClearEnv`). -/
@[mk_iff]
structure RamEnv (t : RamTracked g) (i : Inputs) : Prop where
  decoded : RamsprDecoded i.e
  intr : i.interruptIn.intr = true → i.flushIn = true
  stall : stage2Stall i = true → busyOut t.unit i = true
  flushed : i.flushIn = true → t.writer → busyOut t.unit i = false

instance (t : RamTracked g) (i : Inputs) : Decidable (RamEnv t i) :=
  decidable_of_iff _ (ramEnv_iff ..).symm

/-! ### What the registers hold -/

def ramOf (s : State g) (r : RamSpr) : BitVec 64 :=
  if r.isOdd then s.oddSprs r.index else s.evenSprs r.index

/-- What the read port of its RAM shows. -/
def portValue (s : State g) (i : Inputs) (r : RamSpr) : BitVec 64 :=
  if r.isOdd then ramsprOdd s i else ramsprEven s i

/-- What the registers of the first stage say is going to be written. -/
def heldWrite (s : State g) : SprWrites := fun r =>
  if (if r.isOdd then s.ex1.se.ramsprWriteOdd else s.ex1.se.ramsprWriteEven) &&
      s.ex1.ramsprWraddr == r.index then
    some (if r.isOdd then s.ex1.sprWriteData else ramsprEvenData s)
  else none

variable {s : State g} {r : RamSpr} {e : Decode2ToExecute1} {now : RamSpr → BitVec 64}

/-- The read port shows the value in the RAM or the one that is going to be written. -/
theorem portValue_eq {i : Inputs}
    (h : (if r.isOdd then i.e.ramsprOddRdaddr else i.e.ramsprEvenRdaddr) = r.index) :
    portValue s i r = (heldWrite s).over (ramOf s) r := by
  have hcomm : (r.index == s.ex1.ramsprWraddr) = (s.ex1.ramsprWraddr == r.index) := BEq.comm
  cases ho : r.isOdd with
  | true =>
    rw [ho, if_pos rfl] at h
    simp only [portValue, SprWrites.over, heldWrite, ramOf, ramsprOdd, ho, h, hcomm, if_true]
    split <;> rfl
  | false =>
    rw [ho, if_neg Bool.false_ne_true] at h
    simp only [portValue, SprWrites.over, heldWrite, ramOf, ramsprEven, ho, h, hcomm,
      false_eq_true, if_false]
    split <;> rfl

/-! ### The RAMs -/

variable {t : RamTracked g} {i : Inputs}

/-- An instruction that completes writes what the registers say. -/
theorem ramOf_step (s : State g) (i : Inputs) (h : i.interruptIn.intr = false) :
    ramOf (step s i) =
      if (ex2in s i).e.valid then (heldWrite s).over (ramOf s) else ramOf s := by
  have hdoit : ramsprDoit s i = (ex2in s i).e.valid := rfl
  have haddr : ramsprWrAddr s i = s.ex1.ramsprWraddr := by simp [ramsprWrAddr, h]
  funext r
  change (if r.isOdd then oddSprsNext s i r.index else evenSprsNext s i r.index) = _
  simp only [oddSprsNext, evenSprsNext, hdoit, h, haddr, Bool.or_false, false_eq_true, if_false]
  cases (ex2in s i).e.valid with
  | false => simp [ramOf]
  | true =>
    simp only [Bool.and_true, if_true, SprWrites.over, heldWrite, ramOf]
    by_cases hi : s.ex1.ramsprWraddr = r.index
    · cases r.isOdd <;> cases s.ex1.se.ramsprWriteOdd <;> cases s.ex1.se.ramsprWriteEven <;>
        simp [hi]
    · have hi' : r.index ≠ s.ex1.ramsprWraddr := fun he => hi he.symm
      cases r.isOdd <;> cases s.ex1.se.ramsprWriteOdd <;> cases s.ex1.se.ramsprWriteEven <;>
        simp [hi, hi']

theorem intrRegs_place (s : State g) (h : i.interruptIn.intr = true) :
    ramsprWrAddr s i = (intrRegs i.interruptIn).1.index ∧
      (intrRegs i.interruptIn).2.index = (intrRegs i.interruptIn).1.index ∧
      (intrRegs i.interruptIn).1.isOdd = false ∧ (intrRegs i.interruptIn).2.isOdd = true := by
  simp only [ramsprWrAddr, intrRegs, h, if_true]
  cases i.interruptIn.hvIntr <;> cases i.interruptIn.scvInt <;> exact ⟨rfl, rfl, rfl, rfl⟩

/-- An interrupt writes its two registers, whatever is in the first stage. -/
theorem ramOf_intr (s : State g) (h : i.interruptIn.intr = true) :
    ramOf (step s i) = (intrWrites s i.interruptIn).over (ramOf s) := by
  obtain ⟨haddr, hindex, h1, h2⟩ := intrRegs_place s h
  funext r
  change (if r.isOdd then oddSprsNext s i r.index else evenSprsNext s i r.index) = _
  simp only [oddSprsNext, evenSprsNext, h, haddr, Bool.or_true, if_true, SprWrites.over, intrWrites]
  by_cases hr1 : r = (intrRegs i.interruptIn).1
  · rw [if_pos hr1, hr1, h1]
    simp
  · rw [if_neg hr1]
    by_cases hr2 : r = (intrRegs i.interruptIn).2
    · rw [if_pos hr2, hr2, h2, hindex]
      simp
    · rw [if_neg hr2]
      have hne : r.index ≠ (intrRegs i.interruptIn).1.index := by
        intro hi
        cases ho : r.isOdd with
        | false => exact hr1 (RamSpr.place_inj (ho.trans h1.symm) hi)
        | true => exact hr2 (RamSpr.place_inj (ho.trans h2.symm) (hi.trans hindex.symm))
      simp [Function.update_of_ne hne, ramOf]

/-! ### The first stage -/

/-- The registers of the first stage are held. -/
theorem heldWrite_busy (hrst : i.rst = false) (hout : busyOut s i = true) :
    heldWrite (step s i) = heldWrite s := by
  have hgo := go_of_busyOut hout
  have hex1 : (step s i).ex1 = ex1in s i := by simp [step, hrst]
  have hse : (ex1in s i).se.ramsprWriteOdd = s.ex1.se.ramsprWriteOdd ∧
      (ex1in s i).se.ramsprWriteEven = s.ex1.se.ramsprWriteEven := by
    simp [ex1in, se1Next, hgo, hout]
  have haddr : (ex1in s i).ramsprWraddr = s.ex1.ramsprWraddr := by simp [ex1in, hout]
  have hdata : (ex1in s i).sprWriteData = s.ex1.sprWriteData := by simp [ex1in, hout]
  have heven : ramsprEvenData (step s i) = ramsprEvenData s := by
    have hlr : (ex1in s i).lrFromNext = s.ex1.lrFromNext := by simp [ex1in, hout]
    have hnia : (ex1in s i).e.lastNia = s.ex1.e.lastNia := by simp [ex1in, e1Next, hout]
    rw [ramsprEvenData, ramsprEvenData, nextNia, nextNia, hex1, hlr, hnia, hdata]
  funext r
  rw [heldWrite, heldWrite, heven, hex1, hse.1, hse.2, haddr, hdata]

theorem heldWrite_idle (hrst : i.rst = false) (hout : busyOut s i = false) (hgo : go s i = false) :
    heldWrite (step s i) = fun _ => none := by
  have hex1 : (step s i).ex1 = ex1in s i := by simp [step, hrst]
  have hse : (ex1in s i).se.ramsprWriteOdd = false ∧ (ex1in s i).se.ramsprWriteEven = false := by
    simp [ex1in, se1Next, hgo, hout]
  funext r
  rw [heldWrite, hex1, hse.1, hse.2]
  simp

theorem heldWrite_rst (hrst : i.rst = true) : heldWrite (step s i) = fun _ => none := by
  funext r
  simp [heldWrite, step, hrst]

theorem writesSpr_of_ne (h : e.insnType ≠ .mtspr) :
    writesSpr e r = ((links e && r == .lr) || (decrements e && r == .ctr)) := by
  simp [writesSpr]

theorem insnWrites_mtspr (h : e.insnType = .mtspr) :
    insnWrites e now r = if writesSpr e r then some e.readData3 else none := by
  simp [insnWrites, h]

theorem insnWrites_of_ne (h : e.insnType ≠ .mtspr) : insnWrites e now r = if writesSpr e r then
      if r = .lr then some (e.nia + 4) else some (now .ctr - 1) else none := by
  simp [insnWrites]

/-- An instruction comes into the first stage: the registers say what it is going to write. -/
theorem heldWrite_go (hrst : i.rst = false) (hgo : go s i = true) (hdec : RamsprDecoded i.e)
    (hctr : decrements i.e = true → ramsprOdd s i = now .ctr) :
    heldWrite (step s i) = insnWrites i.e now := by
  have hout := busyOut_of_go hgo
  have hex1 : (step s i).ex1 = ex1in s i := by simp [step, hrst]
  have hse : (ex1in s i).se = actionsSe s i := by simp [ex1in, se1Next, hgo]
  have haddr : (ex1in s i).ramsprWraddr = i.e.ramsprWraddr := by simp [ex1in, hout]
  have hdata : (ex1in s i).sprWriteData = actSprWriteData s i := by simp [ex1in, hout]
  have hnia : (ex1in s i).e.lastNia = i.e.nia := by
    simp only [ex1in, e1Next, hout, presentedE, false_eq_true, if_false]
    split <;> rfl
  have heven : ramsprEvenData (step s i) = if i.e.lr then i.e.nia + 4 else actSprWriteData s i := by
    have hlr : (ex1in s i).lrFromNext = i.e.lr := by simp [ex1in, hout]
    rw [ramsprEvenData, nextNia, hex1, hlr, hnia, hdata]
  funext r
  have hw := hdec.writes.writes r
  rw [heldWrite, heven, hex1, hse, haddr, hdata]
  change (if (if r.isOdd then i.e.ramsprWriteOdd else i.e.ramsprWriteEven) && _ then _ else _) = _
  rw [hw]
  by_cases hop : i.e.insnType = .mtspr
  · have hl : links i.e = false := by simp [links, hop]
    have hd : decrements i.e = false := by simp [decrements, hop]
    rw [insnWrites_mtspr hop, hdec.writes.lr, actSprWriteData, hdec.writes.decCtr]
    simp [hl, hd]
  · rw [insnWrites_of_ne hop]
    split
    · next hwrites =>
      rw [hdec.writes.lr, actSprWriteData, hdec.writes.decCtr]
      rw [writesSpr_of_ne hop] at hwrites
      rcases or_eq_true_iff.mp hwrites with h | h
      · obtain ⟨hl, hr⟩ := and_eq_true_iff.mp h
        simp [eq_of_beq hr, RamSpr.isOdd, hl]
      · obtain ⟨hd, hr⟩ := and_eq_true_iff.mp h
        simp [eq_of_beq hr, RamSpr.isOdd, hd, hctr hd]
    · rfl

/-! ### Instructions that write are not lost -/

/-- The first stage waits for a result, or the bit sorter was left behind at work. -/
def working (s : State g) : Bool :=
  s.ex1.bpermInProgress || s.ex1.bsortInProgress || s.ex1.mulFinish || s.ex1.mulInProgress ||
    (!g.hasFpu && s.ex1.divInProgress)

/-- While something is at work the instruction in the first stage is complete or kept there. -/
theorem valid_or_busy_of_working (h : working s = true) :
    validNext s i = true ∨ busyNext s i = true := by
  simp only [working, validNext, busyNext] at h ⊢
  cases hp : s.ex1.bpermInProgress with
  | true => cases s.bsort.bpDone <;> simp
  | false =>
    cases hb : s.ex1.bsortInProgress with
    | true => cases s.bsort.sd <;> simp
    | false =>
      cases hf : s.ex1.mulFinish with
      | true => simp
      | false =>
        cases hm : s.ex1.mulInProgress with
        | true => cases i.dp.multiplyValid <;> cases s.ex1.oe <;> simp
        | false =>
          rw [hp, hb, hf, hm] at h
          simp only [Bool.false_or] at h
          rw [h]
          cases i.dp.dividerValid <;> simp

/-- An instruction that writes a SPR is complete after one cycle, unless something is at work. -/
theorem valid_or_busy_go (hgo : go s i = true) (hdec : RamsprDecoded i.e)
    (hw : writesSpr i.e r = true) : validNext s i = true ∨ busyNext s i = true := by
  cases hwork : working s with
  | true => exact valid_or_busy_of_working hwork
  | false =>
    left
    obtain ⟨hvalid, -, -, hexc⟩ := valid_of_go hgo
    have hunit : i.e.unit = .alu := hdec.writes.unit ⟨r, hw⟩
    have howait : owait g i = false := by
      have hop : i.e.insnType = .mtspr ∨ i.e.insnType = .b ∨ i.e.insnType = .bc ∨
          i.e.insnType = .bcreg := by
        simp only [writesSpr] at hw
        split at hw
        · next h => exact .inl h
        · simp only [links, decrements, or_eq_true, and_eq_true,
            beq_iff_eq] at hw
          tauto
      simp only [owait, startBsort, startBperm, startMul, startDiv]
      rcases hop with h | h | h | h <;> simp [h]
    simp only [working, or_eq_false_iff] at hwork
    simp [validNext, hwork, hgo, actComplete, hunit, hvalid, hexc, howait]

/-- What is at work stays at work while the first stage is busy. -/
structure Works (s : State g) : Prop where
  busy : s.ex1.busy = true → working s = true
  multiplier : s.ex1.mulFinish = true → s.ex1.mulInProgress = false

theorem Works.step (h : Works s) (hrst : i.rst = false) : Works (Execute1.step s i) := by
  have hex1 : (Execute1.step s i).ex1 = ex1in s i := by simp [Execute1.step, hrst]
  refine ⟨fun hb => ?_, fun hf => ?_⟩
  · rw [working, hex1]
    rw [hex1] at hb
    obtain ⟨hbusy, hflush⟩ : busyNext s i = true ∧ i.flushIn = false := by
      simpa [ex1in] using hb
    simp only [ex1in, hflush, false_eq_true, if_false]
    simp only [busyNext] at hbusy
    cases hp : s.ex1.bpermInProgress with
    | true =>
      rw [hp, if_pos rfl] at hbusy
      simp [hbusy]
    | false =>
      rw [hp, if_neg Bool.false_ne_true] at hbusy
      cases hs : s.ex1.bsortInProgress with
      | true =>
        rw [hs, if_pos rfl] at hbusy
        simp [hbusy]
      | false =>
        rw [hs, if_neg Bool.false_ne_true] at hbusy
        cases hm : s.ex1.mulInProgress with
        | true =>
          have hf : s.ex1.mulFinish = false := by
            cases hf : s.ex1.mulFinish with
            | false => rfl
            | true => rw [h.multiplier hf] at hm; cases hm
          rw [hm, if_pos rfl] at hbusy
          simp only [hf, Bool.true_and, if_true, false_eq_true, if_false]
          revert hbusy
          cases i.dp.multiplyValid <;> cases s.ex1.oe <;> simp
        | false =>
          rw [hm, if_neg Bool.false_ne_true] at hbusy
          cases hd : !g.hasFpu && s.ex1.divInProgress with
          | true =>
            rw [hd, if_pos rfl] at hbusy
            simp only [if_true]
            rw [(and_eq_true_iff.mp hd).1]
            simp [hbusy]
          | false =>
            rw [hd, if_neg Bool.false_ne_true] at hbusy
            obtain ⟨hgo, hstart⟩ := and_eq_true_iff.mp hbusy
            simp only [hgo, Bool.true_and, if_true, false_eq_true, if_false]
            simp only [or_eq_true] at hstart
            rcases hstart with ((hx | hx) | hx) | hx
            · simp [hx, startDiv_hasFpu hx]
            · simp [hx]
            · simp [hx]
            · simp [hx]
  · rw [hex1] at hf ⊢
    simp only [ex1in] at hf ⊢
    cases hflush : i.flushIn with
    | true => rfl
    | false =>
      obtain ⟨-, ⟨hm, hv⟩, -⟩ : s.ex1.mulFinish = false ∧
          (s.ex1.mulInProgress = true ∧ i.dp.multiplyValid = true) ∧ s.ex1.oe = true := by
        simpa [hflush] using hf
      simp [hm, hv]

/-! ### The invariant -/

structure RamInv (t : RamTracked g) : Prop where
  works : Works t.unit
  ram : ramOf t.unit = t.sprs
  held : heldWrite t.unit = t.pend
  live : t.writer → t.unit.ex1.e.valid = true ∨ t.unit.ex1.busy = true

theorem RamInv.port (h : RamInv t) (henv : RamEnv t i) (hvalid : i.e.valid = true)
    (hr : readsSpr i.e r = true) : portValue t.unit i r = t.now r := by
  rw [portValue_eq ((henv.decoded.reads hvalid).addr r hr), h.ram, h.held]
  rfl

/-- An instruction that decrements CTR reads it. -/
theorem readsSpr_ctr (h : decrements e = true) : readsSpr e .ctr = true := by
  have hop := (and_eq_true_iff.mp h).2
  simp only [or_eq_true, and_eq_true, beq_iff_eq] at hop
  rcases hop with hop | ⟨hop, -⟩ <;> simp [readsSpr, hop, h]

section

variable (h : RamInv t) (henv : RamEnv t i)

include h henv

theorem sprs_step : ramOf (ramStep t i).unit = (ramStep t i).sprs := by
  change ramOf (step t.unit i) = if i.interruptIn.intr then _ else _
  cases hintr : i.interruptIn.intr with
  | true =>
    -- the instruction in the first stage is flushed
    have hvalid : (ex2in t.unit i).e.valid = false := by
      rw [ex2_valid, henv.intr hintr, Bool.not_true, Bool.and_false]
    rw [ramOf_intr t.unit hintr, h.ram, if_pos rfl, hvalid]
    rfl
  | false => rw [ramOf_step t.unit i hintr, h.ram, h.held, if_neg Bool.false_ne_true]

theorem pend_step : heldWrite (ramStep t i).unit = (ramStep t i).pend := by
  change heldWrite (step t.unit i) = if i.rst || i.flushIn then _ else _
  cases hrst : i.rst with
  | true => rw [heldWrite_rst hrst]; rfl
  | false =>
    rw [Bool.false_or]
    cases hflush : i.flushIn with
    | true =>
      rw [if_pos rfl]
      cases hout : busyOut t.unit i with
      | false => exact heldWrite_idle hrst hout (go_of_flush hflush)
      | true =>
        -- nothing is held that would be written
        rw [heldWrite_busy hrst hout, h.held]
        funext r
        cases hr : t.pend r with
        | none => rfl
        | some x =>
          rw [henv.flushed hflush ⟨r, by rw [hr]; rfl⟩] at hout
          cases hout
    | false =>
      rw [if_neg Bool.false_ne_true]
      cases hout : busyOut t.unit i with
      | true => rw [heldWrite_busy hrst hout, h.held, if_pos rfl]
      | false =>
        rw [if_neg Bool.false_ne_true]
        cases hgo : go t.unit i with
        | false => rw [heldWrite_idle hrst hout hgo]; rfl
        | true =>
          rw [if_pos rfl]
          refine heldWrite_go hrst hgo henv.decoded fun hd => ?_
          exact h.port henv (valid_of_go hgo).1 (readsSpr_ctr hd)

theorem live_step (hw : (ramStep t i).writer) :
    (ramStep t i).unit.ex1.e.valid = true ∨ (ramStep t i).unit.ex1.busy = true := by
  obtain ⟨r, hr⟩ := hw
  simp only [ramStep] at hr
  cases hrst : i.rst with
  | true => rw [hrst] at hr; cases hr
  | false =>
    cases hflush : i.flushIn with
    | true => rw [hrst, hflush] at hr; cases hr
    | false =>
      simp only [hrst, hflush, Bool.or_self, false_eq_true, if_false] at hr
      have hvalid : (ramStep t i).unit.ex1.e.valid = validNext t.unit i := by
        simp [ramStep, step, hrst, ex1in, e1Next, hflush]
      have hbusy : (ramStep t i).unit.ex1.busy = busyNext t.unit i := by
        simp [ramStep, step, hrst, ex1in, hflush]
      rw [hvalid, hbusy]
      cases hout : busyOut t.unit i with
      | true =>
        rw [hout, if_pos rfl] at hr
        cases hwork : working t.unit with
        | true => exact valid_or_busy_of_working hwork
        | false =>
          have hidle : t.unit.ex1.busy = false := Flag.down h.works.busy hwork
          left
          simp only [working, or_eq_false_iff] at hwork
          simpa [validNext, hwork, go_of_busyOut hout, hout, hidle] using h.live ⟨r, hr⟩
      | false =>
        rw [hout, if_neg Bool.false_ne_true] at hr
        cases hgo : go t.unit i with
        | false => rw [hgo] at hr; cases hr
        | true =>
          rw [hgo, if_pos rfl, insnWrites] at hr
          split at hr
          · next hwrites => exact valid_or_busy_go hgo henv.decoded hwrites
          · cases hr

theorem RamInv.step : RamInv (ramStep t i) where
  works := by
    cases hrst : i.rst with
    | false => exact h.works.step hrst
    | true => constructor <;> simp [ramStep, Execute1.step, hrst]
  ram := sprs_step h henv
  held := pend_step h henv
  live := live_step h henv

end

/-- The state after a reset. The RAMs may hold anything. -/
def RamStart (t : RamTracked g) : Prop :=
  (∃ s i, i.rst = true ∧ t.unit = Execute1.step s i) ∧ t.sprs = ramOf t.unit ∧
    t.pend = fun _ => none

theorem ramInv_start (h : RamStart t) : RamInv t := by
  obtain ⟨⟨s, i, hrst, hunit⟩, hsprs, hpend⟩ := h
  refine ⟨⟨?_, ?_⟩, hsprs.symm, ?_, ?_⟩
  · simp [hunit, Execute1.step, hrst]
  · simp [hunit, Execute1.step, hrst]
  · rw [hpend, hunit]
    exact heldWrite_rst hrst
  · rintro ⟨r, hr⟩
    rw [hpend] at hr
    cases hr

/-- **SPRs in RAM.** In every run the RAMs hold what instructions that were not flushed and
interrupts have written. An instruction that is executed reads each SPR as the youngest of them left
it, and an instruction that leaves the first stage without a flush writes. -/
theorem ramspr_refines (h : Reachable ramStep RamEnv RamStart t) (henv : RamEnv t i) :
    ramOf t.unit = t.sprs ∧
      (go t.unit i = true →
        (∀ r, readsSpr i.e r = true → portValue t.unit i r = t.now r) ∧
        ∀ r, sourceSpr i.e = some r → ramsprResult t.unit i =
          if r = .vrsave then 0#32 ++ (t.now r).extractLsb' 0 32 else t.now r) ∧
      (t.writer → i.flushIn = false → busyOut t.unit i = false →
        (ex2in t.unit i).e.valid = true) := by
  have hinv : RamInv t := h.induct (fun _ hs => ramInv_start hs) fun _ _ hi he => hi.step he
  refine ⟨hinv.ram, fun hgo => ?_, fun hw hflush hout => ?_⟩
  · have hvalid := (valid_of_go hgo).1
    refine ⟨fun r hr => hinv.port henv hvalid hr, fun r hr => ?_⟩
    obtain ⟨hodd, h32⟩ := (henv.decoded.reads hvalid).source r hr
    have hreads : readsSpr i.e r = true := by
      simp only [sourceSpr] at hr
      split at hr <;> rename_i hop
      · simp [readsSpr, hop, hr]
      · cases hr
        simp [readsSpr, hop]
      · cases hr
    have hport := hinv.port henv hvalid hreads
    rw [portValue] at hport
    rw [ramsprResult, hodd, h32, hport]
    simp
  · have hbusy : t.unit.ex1.busy = false := by
      simp only [busyOut, or_eq_false_iff] at hout
      exact hout.1.1.2
    have hstall : stage2Stall i = false := Flag.down henv.stall hout
    rw [ex2_valid, hstall, hflush, (hinv.live hw).resolve_right (by rw [hbusy]; simp)]
    rfl

/-- A cycle in which decode2 presents `mtspr` to CTR. -/
def mtctr (x : BitVec 64) : Inputs where
  e := {
    valid := true
    insnType := .mtspr
    insn := 0#11 ++ 9#5 ++ 0#5 ++ 0#11
    readData3 := x
    sprIsRam := true
    ramsprWraddr := 5
    ramsprWriteOdd := true }

/-- A cycle in which it presents a `bcl` that decrements CTR. -/
def bcl (nia : BitVec 64) : Inputs where
  e := {
    valid := true
    insnType := .bc
    insn := 1
    nia := nia
    lr := true
    brPred := true
    ramsprOddRdaddr := 5
    ramsprWraddr := 5
    ramsprWriteEven := true
    ramsprWriteOdd := true
    decCtr := true }

/-- A cycle in which the second stage is stalled, and loadstore1 is busy. -/
def stalled : Inputs where
  l := { busy := true, l2stall := true }

/-- The state after a reset with empty RAMs. -/
def ramStart (g : Generics) : RamTracked g where
  unit := step {} { rst := true }
  sprs := fun _ => 0
  pend := fun _ => none

theorem ramStart_start (g : Generics) : RamStart (ramStart g) := by
  refine ⟨⟨{}, { rst := true }, rfl, rfl⟩, ?_, rfl⟩
  funext r
  cases r <;> rfl

/-- CTR is written, and two `bcl` follow. The second one finds CTR decremented once, by an
instruction that has just come out of a stall, and LR set. -/
theorem ramspr_refines_bcl :
    let t := run ramStep (ramStart {}) [mtctr 9, bcl 0x100, stalled, stalled]
    go t.unit (bcl 0x200) = true ∧ t.now .ctr = 8 ∧ t.now .lr = 0x104 ∧
      portValue t.unit (bcl 0x200) .ctr = t.now .ctr := by
  intro t
  have hreach : Reachable ramStep RamEnv RamStart t :=
    reachable_run (ramStart_start {}) (by decide +kernel)
  have hgo : go t.unit (bcl 0x200) = true := by decide +kernel
  have henv : RamEnv t (bcl 0x200) := by decide +kernel
  exact ⟨hgo, by decide +kernel, by decide +kernel,
    ((ramspr_refines hreach henv).2.1 hgo).1 .ctr (by decide)⟩

end Execute1

end Microwatt
