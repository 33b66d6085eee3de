import Microwatt.LoadStore.Port

/-!
# One instruction in each stage of loadstore1

An instruction of loadstore1 may need up to three requests, and while the last of them is in stage 1
an earlier one is in stage 2. Seen from outside it is still in one stage: in the first until its
last request leaves stage 1, and in the second from then on until it completes or interrupts. An
instruction in the second stage either completes in a cycle or holds up everything behind it.

## Main results

* `LoadStore.SlotInv.complete_eq` — the second stage completes its instruction or stalls
* `LoadStore.SlotInv.holds1_step`, `LoadStore.SlotInv.holds2_step` — where instructions go
* `LoadStore.SlotInv.holds2_of_writeEnable` — results are those of the second stage
-/

namespace Microwatt

open Bool (and_eq_true false_eq_true not_eq_false not_eq_true' or_eq_true)

namespace LoadStore

variable {b : Bool}

/-- Stage 1 has an instruction. -/
def holds1 (s : State) : Bool := s.r1.req.valid

/-- Stage 2 has one: its last request, or a result that is due. -/
def holds2 (s : State) : Bool :=
  (s.r2.req.valid && s.r2.req.last) || s.r3.complete || s.r3.interrupt

/-- The instruction in the first stage goes on to the second. -/
def moves (s : State) (i : Inputs) : Bool := takes s i && s.r1.req.valid && s.r1.req.last

/-- What stage 2 may hold. -/
structure SlotInv (t : Tracked) : Prop where
  one : t.ls.r2.oneCycle = true → t.ls.r2.req.valid = true ∧ t.ls.r2.req.last = true ∧
    t.ls.r2.busy = false ∧ t.waiting = false
  wait : t.ls.r2.waitDc = true →
    t.waiting = true ∧ t.ls.r2.req.last = true ∧ t.ls.r2.req.hashcmp = false
  full : t.waiting = true → t.ls.r2.req.last = true → t.ls.r2.req.hashcmp = false →
    t.ls.r2.waitDc = true
  kinds : t.ls.r2.req.valid = true → t.ls.r2.oneCycle = true ∨ t.waiting = true ∨
    (t.ls.r2.busy = true ∧ (t.ls.r2.req.mmuOp = true ∨ t.ls.r2.req.alignIntr = true)) ∨
    ((t.ls.r3.complete = true ∨ t.ls.r3.interrupt = true) ∧ t.ls.r2.req.hashcmp = true)
  busy2 : t.ls.r2.busy = true → t.ls.r2.req.valid = true
  mmuOp2 : t.ls.r2.req.valid = true → t.ls.r2.req.mmuOp = true → t.ls.r2.req.dcReq = false
  repair : t.waiting = true → t.ls.r2.waitMmu = true → t.ls.r3.state = .mmuWait
  /-- When it has completed or interrupted, stage 2 has nothing more to do. -/
  done : (t.ls.r3.complete || t.ls.r3.interrupt) = true → t.waiting = false ∧
    t.ls.r2.busy = false ∧ t.ls.r2.oneCycle = false ∧
    (t.ls.r2.req.valid = true → t.ls.r2.req.last = true ∧ t.ls.r2.req.alignIntr = false)
  intr : t.ls.r3.interrupt = true → t.ls.r1.req.valid = false ∧ t.ls.r3.complete = false
  /-- A request that is not the last one is followed by the rest of its instruction. -/
  part : t.ls.r2.req.valid = true → t.ls.r2.req.last = false →
    t.ls.r1.req.valid = true ∧ t.ls.r1.req.instrTag = t.ls.r2.req.instrTag

section Step

variable {p : Port} {t : Tracked} {i : Inputs}

variable (h : SlotInv t) (hport : PortInv p t) (hinv : Inv b t) (hslow : Slow t)
  (henv : PortEnv p t.ls i) (hsend : SendEnv t.ls i)

theorem SlotInv.init (h : t.Init b) : SlotInv t := by
  obtain ⟨⟨s, i, hrst, hls⟩, hw, -⟩ := h
  have h2 : t.ls.r2.req.valid = false ∧ t.ls.r2.busy = false ∧ t.ls.r2.waitDc = false ∧
      t.ls.r2.oneCycle = false := by
    simp [hls, LoadStore.step, hrst, Stage2.reset]
  have h3 : t.ls.r3.complete = false ∧ t.ls.r3.interrupt = false := by
    simp [hls, LoadStore.step, hrst, Stage3.reset]
  constructor <;> simp [h2, h3, hw]

theorem SlotInv.reset (hrst : i.rst = true) : SlotInv (t.step b i) := by
  constructor <;>
    simp [Tracked.step, LoadStore.step, hrst, Stage2.reset, Stage3.reset]

/-- An instruction of one cycle waits for nobody. -/
theorem SlotInv.not_one (h : SlotInv t) (hb : t.waiting = true ∨ t.ls.r2.busy = true) :
    t.ls.r2.oneCycle = false := by
  by_contra ho
  obtain ⟨-, -, hb2, hw⟩ := h.one (by simpa using ho)
  simp [hb2, hw] at hb

/-! ### Completion -/

/-- With nothing waiting and stage 2 not busy, the stages move. -/
theorem PortInv.advance_of_calm (h : PortInv p t) (hslow : Slow t) (henv : PortEnv p t.ls i)
    (hw : t.waiting = false) (hb : t.ls.r2.busy = false) : advance t.ls i = true := by
  have hs : p.served = false := Flag.down (fun hs => (h.served hs).1) hw
  have he := (henv.no_answer hs).2
  have hst : i.dcStall = false := by
    by_contra hst
    rcases henv.stall (by simpa using hst) with h' | h'
    · rw [hs] at h'; cases h'
    · rw [(hslow.mmuWait h').1] at hb; cases hb
  simp [advance, he, hst, hb]

/-- An answer finds the stages ready to move, unless it is for a `hashchk`. -/
theorem PortInv.advance_of_answer (h : PortInv p t) (henv : PortEnv p t.ls i)
    (hv : i.d.valid = true) (hc : t.ls.r2.req.hashcmp = false) : advance t.ls i = true := by
  obtain ⟨hs, he, hst⟩ := henv.answer hv
  have hb : t.ls.r2.busy = false := Flag.down ((h.served hs).2.2) hc
  simp [advance, he, hst, hb]

theorem SlotInv.holds2_of_complete (h : SlotInv t) (hport : PortInv p t)
    (hc : complete t.ls i = true) : holds2 t.ls = true := by
  simp only [complete, or_eq_true, and_eq_true] at hc
  rcases hc with (hc | hc) | hc
  · obtain ⟨hv, hl, -⟩ := h.one hc
    simp [holds2, hv, hl]
  · obtain ⟨hw, hl, -⟩ := h.wait hc.1
    simp [holds2, (hport.waits hw).1, hl]
  · simp [holds2, hc]

include h hport hslow henv hsend in
/-- **The second stage completes its instruction or holds up what is behind it.** -/
theorem SlotInv.complete_eq (hh : holds2 t.ls = true) (hi : t.ls.r3.interrupt = false) :
    complete t.ls i = advance t.ls i := by
  cases hc3 : t.ls.r3.complete with
  | true =>
    obtain ⟨hw, hb, -⟩ := h.done (by simp [hc3])
    rw [hport.advance_of_calm hslow henv hw hb]
    simp [complete, hc3]
  | false =>
    have hvl : t.ls.r2.req.valid = true ∧ t.ls.r2.req.last = true := by
      simpa [holds2, hc3, hi] using hh
    rcases h.kinds hvl.1 with ho | hw | ⟨hb, -⟩ | ⟨hd, -⟩
    · obtain ⟨-, -, hb, hw⟩ := h.one ho
      rw [hport.advance_of_calm hslow henv hw hb]
      simp [complete, ho]
    · have ho := h.not_one (.inl hw)
      cases hc : t.ls.r2.req.hashcmp with
      | true =>
        have hwd : t.ls.r2.waitDc = false := Flag.down (fun hwd => (h.wait hwd).2.2) hc
        simp [complete, advance, ho, hwd, hc3, hslow.hash hw hc]
      | false =>
        have hcomp : complete t.ls i = i.d.valid := by
          simp [complete, ho, hc3, h.full hw hvl.2 hc]
        rw [hcomp]
        cases hv : i.d.valid with
        | true => exact (hport.advance_of_answer henv hv hc).symm
        | false =>
          rcases (hport.env hslow henv hsend).stall hw with hv' | ha
          · rw [hv] at hv'; cases hv'
          · exact ha.symm
    · have ho := h.not_one (.inr hb)
      have hadv : advance t.ls i = false := by simp [advance, hb]
      rw [hadv]
      by_contra hcomp
      simp only [complete, ho, hc3, Bool.or_false, Bool.false_or, not_eq_false,
        and_eq_true] at hcomp
      -- an answer would have been for a `hashchk`
      obtain ⟨hwd, hv⟩ := hcomp
      rw [hport.advance_of_answer henv hv (h.wait hwd).2.2] at hadv
      cases hadv
    · rw [hc3, hi] at hd
      rcases hd with hd | hd <;> cases hd

include h hport hslow henv hsend in
theorem SlotInv.advance_of_complete (hi : t.ls.r3.interrupt = false)
    (hc : complete t.ls i = true) : advance t.ls i = true := by
  rw [← h.complete_eq hport hslow henv hsend (h.holds2_of_complete hport hc) hi]
  exact hc

/-- Stage 3 has something to complete in the next cycle only if stage 2 is busy now. -/
theorem r3in_complete_of_advance (hslow : Slow t) (henv : Env t i) (hadv : advance t.ls i = true) :
    (r3in b t.ls i).complete = false := by
  have hb := (advance_iff.mp hadv).2.2
  have hdone : i.m.done = false :=
    Flag.down (fun hd => (hslow.mmuWait (henv.mmu (by simp [not_eq_false _ ▸ hd])).2).1) hb
  have hchk : (i.d.valid && t.ls.r2.req.hashcmp) = false := by
    by_contra hc
    simp only [not_eq_false, and_eq_true] at hc
    rw [hslow.hash (henv.answer hc.1).1 hc.2] at hb
    cases hb
  simp [r3in, hdone, hchk]

/-! ### Where instructions go -/

theorem last_takenReq {s : State} (h : s.r1.req.Shaped) : (takenReq s).last = s.r1.req.last := by
  cases hm : s.r1.req.mmuOp with
  | false => simp [takenReq, Request.last, hm]
  | true => simp [takenReq, Request.last, hm, (h.mmuOp hm).2.1]

/-- The instruction in the first stage stays there, or makes room for the next one. -/
theorem SlotInv.holds1_step (hport : PortInv p t) (hsend : SendEnv t.ls i)
    (hflush : flush t.ls i = false) :
    if holds1 t.ls && !moves t.ls i then
      (r1in b t.ls i).req.valid = true ∧
        (r1in b t.ls i).req.instrTag = t.ls.r1.req.instrTag ∧ busy t.ls i = true
    else
      (r1in b t.ls i).req.valid = i.l.valid ∧
        (i.l.valid = true → (r1in b t.ls i).req.instrTag = i.l.instrTag) := by
  have hlv : busy t.ls i = true → i.l.valid = false := by
    intro hb
    exact Flag.down hsend.issue hb
  have htag : ∀ q : Request, stage1Req b t.ls i = q →
      (nextReq1 b t.ls i).instrTag = q.instrTag := by
    rintro q rfl
    simp only [nextReq1]
    split <;> rfl
  cases hadv : advance t.ls i with
  | false =>
    have hbusy : busy t.ls i = true := by
      simp only [advance, Bool.not_eq_false', or_eq_true] at hadv
      simp only [busy, or_eq_true]
      tauto
    rw [r1in_req_of_not_advance hflush hadv, hlv hbusy]
    split
    · next hc =>
      rw [and_eq_true] at hc
      exact ⟨hc.1, rfl, hbusy⟩
    · next hc =>
      refine ⟨?_, fun h => by cases h⟩
      simpa [holds1, moves, takes, hadv] using hc
  | true =>
    rw [r1in_req_of_advance hflush hadv, (nextReq1_decided t.ls).1]
    cases hb : t.ls.r1.busy with
    | false =>
      have hnew := stage1Req_of_free b t.ls i hb
      rw [if_neg, htag _ hnew, hnew]
      · exact ⟨rfl, fun _ => rfl⟩
      · -- it has nothing more to do in stage 1
        simp only [and_eq_true, not_eq_true', not_and, not_eq_false]
        intro hv
        have hv : t.ls.r1.req.valid = true := hv
        obtain ⟨hready, -, hlast⟩ := hport.free1 hv hb
        have hlast := hlast.resolve_right (not_doomed hflush)
        have hhold := hsend.not_hold (.inl hv)
        rcases hready with hready | hready <;> simp [moves, takes, hadv, hhold, hready, hv, hlast]
    | true =>
      have hbusy : busy t.ls i = true := by simp [busy, hb]
      have hv := hport.busy1 hb
      have hhold := hsend.not_hold (.inl hv)
      rw [hlv hbusy]
      rcases stage1Req_of_busy b t.ls i hb with ⟨hc, hs1⟩ | ⟨-, hinc, hs1⟩ | ⟨hc, hinc, hs1⟩
      · -- it has to be sent first
        rw [and_eq_true, not_eq_true'] at hc
        have hm : moves t.ls i = false := by simp [moves, takes, hv, hc]
        simp [holds1, hv, hm, htag _ hs1, hs1, hbusy]
      · have hm : moves t.ls i = false := by simp [moves, Request.last, hinc]
        rw [htag _ hs1, hs1]
        simp [holds1, hv, hm, hbusy, secondRequest]
      · have ht : takes t.ls i = true := by
          simp only [Bool.and_eq_false_iff, Bool.not_eq_false'] at hc
          rcases hc with hc | hc <;> simp [takes, hadv, hhold, hc]
        rw [htag _ hs1, hs1]
        cases hsp : t.ls.r1.req.loadSp with
        | true =>
          have hm : moves t.ls i = false := by
            simp [moves, Request.last, hsp, hport.single1 hb hsp]
          simp [holds1, hv, hm, hbusy]
        | false =>
          have hm : moves t.ls i = true := by simp [moves, ht, hv, Request.last, hinc, hsp]
          simp [hm]

include h hport hinv hslow henv hsend in
/-- The second stage takes over the instruction of the first, or keeps its own until it completes.
-/
theorem SlotInv.holds2_step (hflush : flush t.ls i = false) (hi : t.ls.r3.interrupt = false) :
    (((r2in t.ls i).req.valid && (r2in t.ls i).req.last) || (r3in b t.ls i).complete) =
        (moves t.ls i || (holds2 t.ls && !complete t.ls i)) ∧
      (r2in t.ls i).req.instrTag =
        (if takes t.ls i then t.ls.r1.req.instrTag else t.ls.r2.req.instrTag) := by
  have hintr := interrupt2_of_not_flush hflush
  have hbase := hport.env hslow henv hsend
  have htag : (r2in t.ls i).req.instrTag =
      (if takes t.ls i then t.ls.r1.req.instrTag else t.ls.r2.req.instrTag) := by
    cases ht : takes t.ls i <;> simp [r2in, nextReq2, ht, takenReq]
  refine ⟨?_, htag⟩
  cases hadv : advance t.ls i with
  | true =>
    have hleft : (holds2 t.ls && !complete t.ls i) = false := by
      by_contra hh
      simp only [not_eq_false, and_eq_true, not_eq_true'] at hh
      rw [h.complete_eq hport hslow henv hsend hh.1 hi, hadv] at hh
      cases hh.2
    rw [hleft, r3in_complete_of_advance hslow hbase hadv, Bool.or_false, Bool.or_false]
    cases ht : takes t.ls i with
    | true =>
      rw [r2in_req_of_takes ht hintr (hinv.waitMmu_of_advance hadv)]
      cases hv : t.ls.r1.req.valid with
      | false => simp [takenReq, moves, hv]
      | true =>
        rw [last_takenReq (hport.shaped hflush hv)]
        simp [takenReq, moves, ht, hv]
    | false =>
      have hgone : (r2in t.ls i).req.valid = false := by
        by_contra hv
        obtain ⟨-, -, ⟨ht', -⟩ | ⟨-, hbub, hv2, -⟩⟩ := r2in_valid (not_eq_false _ ▸ hv)
        · rw [ht] at ht'; cases ht'
        · have hhold := hsend.not_hold (.inr hv2)
          simp only [takes, bubble, hadv, hhold, Bool.not_false, Bool.true_and] at ht hbub
          rw [ht] at hbub
          cases hbub
      simp [hgone, moves, ht]
  | false =>
    have ht : takes t.ls i = false := by simp [takes, hadv]
    have hbub : bubble t.ls i = false := by simp [bubble, hadv]
    have hcomp : complete t.ls i = false :=
      Flag.down (h.advance_of_complete hport hslow henv hsend hi) hadv
    have hc3 : t.ls.r3.complete = false := by
      by_contra hc
      simp [complete, not_eq_false _ ▸ hc] at hcomp
    have hl : (r2in t.ls i).req.last = t.ls.r2.req.last := by
      simp [r2in, nextReq2, ht, Request.last]
    have hv : (r2in t.ls i).req.valid = (t.ls.r2.req.valid && !mmuOpDone t.ls i) := by
      simp [r2in, nextReq2, ht, hbub, hintr]
    simp only [moves, ht, hcomp, holds2, hc3, hi, hl, hv, Bool.false_and, Bool.false_or,
      Bool.or_false, Bool.not_false, Bool.and_true]
    rw [Bool.eq_iff_iff]
    constructor
    · intro hh
      simp only [or_eq_true, and_eq_true] at hh ⊢
      rcases hh with hh | hh
      · exact ⟨hh.1.1, hh.2⟩
      · simp only [r3in, or_eq_true, and_eq_true, not_eq_true'] at hh
        rcases hh with hh | hh
        · have hv2 := (hport.waits (hbase.answer hh.1.1).1).1
          obtain ⟨hinc, hsp, -⟩ := (hport.shape2 hv2).hash (by simp [hh.1.2])
          exact ⟨hv2, by simp [Request.last, hinc, hsp]⟩
        · have hv2 := (henv.mmu (by simp [hh.1])).1
          have hinc : t.ls.r2.req.incomplete = false := by
            by_contra hinc
            rw [(hport.shape2 hv2).incomplete (by simpa using hinc)] at hh
            cases hh.2
          exact ⟨hv2, by simp [Request.last, hinc, hh.2]⟩
    · intro hh
      rw [and_eq_true] at hh
      cases hd : mmuOpDone t.ls i with
      | false => simp [hh]
      | true =>
        simp only [mmuOpDone, and_eq_true] at hd
        simp [r3in, hd.1.2, h.mmuOp2 hh.1 hd.2]

/-! ### The clock edge -/

theorem takes_next (hinv : Inv b t) (hrst : i.rst = false) (hflush : flush t.ls i = false)
    (ht : takes t.ls i = true) :
    (r2in t.ls i).req = takenReq t.ls ∧
      (r2in t.ls i).oneCycle = (!slowReq t.ls && t.ls.r1.req.valid &&
        !(t.ls.r1.req.dcReq || t.ls.r1.req.mmuOp)) ∧
      (r2in t.ls i).waitDc = (t.ls.r1.req.valid && t.ls.r1.req.dcReq && !t.ls.r1.req.loadSp &&
        !t.ls.r1.req.incomplete && !t.ls.r1.req.hashcmp && !t.ls.r1.req.tlbie) ∧
      (r2in t.ls i).busy = (slowReq t.ls || (t.ls.r1.req.valid && t.ls.r1.req.mmuOp)) ∧
      (r2in t.ls i).waitMmu = (t.ls.r1.req.valid && t.ls.r1.req.mmuOp) ∧
      (t.step b i).waiting = (t.ls.r1.req.valid && t.ls.r1.req.dcReq && !t.ls.r1.req.mmuOp) := by
  have hintr := interrupt2_of_not_flush hflush
  have hw := hinv.waitMmu_of_advance (advance_of_takes ht)
  exact ⟨r2in_req_of_takes ht hintr hw, by simp [r2in, ht], by simp [r2in, ht, hintr],
    (busy_of_takes hinv ht hintr).1, (busy_of_takes hinv ht hintr).2, by
    simp [Tracked.step, hrst, hflush, ht]⟩

/-- A request that stays in stage 2 does so because the stages do not move. -/
theorem SendEnv.not_advance (hsend : SendEnv t.ls i) (ht : takes t.ls i = false)
    (hbub : bubble t.ls i = false) (hv : t.ls.r2.req.valid = true) : advance t.ls i = false := by
  have hhold := hsend.not_hold (.inr hv)
  by_contra hadv
  simp only [takes, bubble, not_eq_false _ ▸ hadv, hhold, Bool.not_false,
    Bool.true_and] at ht hbub
  rw [ht] at hbub
  cases hbub

/-- What waits for the data cache is a last request that was sent. -/
theorem SlotInv.step_wait (h : SlotInv t) (hport : PortInv p t) (hinv : Inv b t)
    (henv : PortEnv p t.ls i) (hsend : SendEnv t.ls i) (hrst : i.rst = false)
    (hflush : flush t.ls i = false) (hwd : (r2in t.ls i).waitDc = true) :
    (t.step b i).waiting = true ∧ (r2in t.ls i).req.last = true ∧
      (r2in t.ls i).req.hashcmp = false := by
  have hintr := interrupt2_of_not_flush hflush
  cases ht : takes t.ls i with
  | true =>
    obtain ⟨hreq, -, hwd', -, -, hw⟩ := takes_next hinv hrst hflush ht
    rw [hwd'] at hwd
    simp only [and_eq_true, not_eq_true'] at hwd
    obtain ⟨⟨⟨⟨⟨hv, hdc⟩, hsp⟩, hinc⟩, hc⟩, htl⟩ := hwd
    have hshape := hport.shaped hflush hv
    have hm : t.ls.r1.req.mmuOp = false := Flag.down (fun hm => hshape.probe hm hdc) htl
    rw [hreq, last_takenReq hshape]
    exact ⟨by simp [hw, hv, hdc, hm], by simp [Request.last, hinc, hsp], hc⟩
  | false =>
    simp only [r2in, ht, hintr, false_eq_true, if_false, and_eq_true,
      not_eq_true'] at hwd
    obtain ⟨hw, hl, hc⟩ := h.wait hwd.1
    have hadv := hsend.not_advance ht hwd.2 (hport.waits hw).1
    have hv : i.d.valid = false := Flag.down (fun hv => hport.advance_of_answer henv hv hc) hadv
    refine ⟨by simp [Tracked.step, hrst, hflush, ht, hw, hv], ?_, ?_⟩
    · simpa [r2in, nextReq2, ht, Request.last] using hl
    · simpa [r2in, nextReq2, ht] using hc

section Run

variable (hrst : i.rst = false) (hflush : flush t.ls i = false)

include h hport hinv hslow henv hsend hrst hflush

theorem SlotInv.step_one (ho : (r2in t.ls i).oneCycle = true) :
    (r2in t.ls i).req.valid = true ∧ (r2in t.ls i).req.last = true ∧ (r2in t.ls i).busy = false ∧
      (t.step b i).waiting = false := by
  cases ht : takes t.ls i with
  | true =>
    obtain ⟨hreq, hone, -, hb, -, hw⟩ := takes_next hinv hrst hflush ht
    rw [hone] at ho
    simp only [and_eq_true, not_eq_true', Bool.or_eq_false_iff] at ho
    obtain ⟨⟨hs, hv⟩, hdc, hm⟩ := ho
    have hshape := hport.shaped hflush hv
    have hinc : t.ls.r1.req.incomplete = false := Flag.down hshape.incomplete hdc
    rw [hreq, last_takenReq hshape]
    exact ⟨hv, by simp [Request.last, hinc, hdc], by simp [hb, hs, hm], by simp [hw, hdc]⟩
  | false =>
    -- it has completed, and the stages have moved
    simp only [r2in, ht, false_eq_true, if_false, and_eq_true, not_eq_true'] at ho
    obtain ⟨hv, -, hb, hw⟩ := h.one ho.1
    have hadv := hsend.not_advance ht ho.2 hv
    rw [hport.advance_of_calm hslow henv hw hb] at hadv
    cases hadv

theorem SlotInv.step_full (hw : (t.step b i).waiting = true)
    (hl : (t.step b i).ls.r2.req.last = true) (hc : (t.step b i).ls.r2.req.hashcmp = false) :
    (r2in t.ls i).waitDc = true := by
  have hintr := interrupt2_of_not_flush hflush
  have hbase := hport.env hslow henv hsend
  rcases waiting_cases hbase hinv hrst hflush hw with ⟨ht, hv, hdc, hm, -, hreq, -⟩ |
    ⟨ht, hw0, hv, -, hreq, -⟩
  · have hshape := hport.shaped hflush hv
    rw [hreq, last_takenReq hshape] at hl
    rw [hreq] at hc
    have hc : t.ls.r1.req.hashcmp = false := hc
    have htl : t.ls.r1.req.tlbie = false := Flag.down hshape.tlbie hm
    simp only [Request.last, hdc, Bool.and_true, and_eq_true, not_eq_true'] at hl
    simp [(takes_next hinv hrst hflush ht).2.2.1, hv, hdc, hl, hc, htl]
  · rw [hreq] at hl hc
    have hadv : advance t.ls i = false := by
      rcases hbase.stall hw0 with hv' | ha
      · rw [hv] at hv'; cases hv'
      · exact ha
    have hbub : bubble t.ls i = false := by simp [bubble, hadv]
    simp [r2in, hintr, ht, hbub, h.full hw0 hl hc]

/-- What the kinds of requests wait for. -/
theorem SlotInv.step_kinds (hv : (r2in t.ls i).req.valid = true) :
    (r2in t.ls i).oneCycle = true ∨ (t.step b i).waiting = true ∨
      ((r2in t.ls i).busy = true ∧
        ((r2in t.ls i).req.mmuOp = true ∨ (r2in t.ls i).req.alignIntr = true)) ∨
      (((r3in b t.ls i).complete = true ∨ (r3in b t.ls i).interrupt = true) ∧
        (r2in t.ls i).req.hashcmp = true) := by
  have hintr := interrupt2_of_not_flush hflush
  obtain ⟨-, hdone, ⟨ht, hv1, ha, hop⟩ | ⟨ht, hbub, hv2, ha, hop⟩⟩ := r2in_valid hv
  · obtain ⟨hreq, hone, -, hb, -, hw⟩ := takes_next hinv hrst hflush ht
    have hshape := hport.shaped hflush hv1
    rw [hone, hb, hw, ha, hop]
    cases hal : t.ls.r1.req.alignIntr with
    | true => simp [slowReq, hv1, hal]
    | false =>
      cases hm : t.ls.r1.req.mmuOp with
      | true => simp [hv1]
      | false =>
        cases hdc : t.ls.r1.req.dcReq with
        | true => simp [hv1]
        | false =>
          have hc : t.ls.r1.req.hashcmp = false := by
            by_contra hc
            rcases (hshape.hash (by simp [not_eq_false _ ▸ hc])).2.2 with h' | h'
            · rw [hdc] at h'; cases h'
            · rw [hal] at h'; cases h'
          simp [slowReq, hv1, hal, hc]
  · have hadv := hsend.not_advance ht hbub hv2
    rcases h.kinds hv2 with ho | hw | ⟨hb, hm | hal⟩ | ⟨hd, -⟩
    · obtain ⟨-, -, hb, hw⟩ := h.one ho
      rw [hport.advance_of_calm hslow henv hw hb] at hadv
      cases hadv
    · cases hdv : i.d.valid with
      | false => exact .inr (.inl (by simp [Tracked.step, hrst, hflush, ht, hw, hdv]))
      | true =>
        -- a `hashchk` whose comparison succeeds
        have hc : t.ls.r2.req.hashcmp = true := by
          by_contra hc
          rw [hport.advance_of_answer henv hdv (by simpa using hc)] at hadv
          cases hadv
        have heq : i.d.data = t.ls.r2.req.storeData := by
          by_contra hne
          simp [flush, hashchkTrap, hdv, hc, hne] at hflush
        exact .inr (.inr (.inr ⟨.inl (by simp [r3in, hdv, hc, heq]), by
          simpa [r2in, nextReq2, ht] using hc⟩))
    · have hwm := (hslow.mmuOp hv2 hm).2
      have hd : i.m.done = false := by simpa [mmuOpDone, hwm, hm] using hdone
      rw [hop]
      exact .inr (.inr (.inl ⟨(busy_of_waitMmu hb hwm hintr hd).1, .inl hm⟩))
    · simp [flush, hv2, hal] at hflush
    · obtain ⟨hw, hb, -⟩ := h.done (by rcases hd with hd | hd <;> simp [hd])
      rw [hport.advance_of_calm hslow henv hw hb] at hadv
      cases hadv

theorem SlotInv.step_busy2 (hb : (r2in t.ls i).busy = true) : (r2in t.ls i).req.valid = true := by
  have hintr := interrupt2_of_not_flush hflush
  cases ht : takes t.ls i with
  | true =>
    obtain ⟨hreq, -, -, hb', -⟩ := takes_next hinv hrst hflush ht
    rw [hb'] at hb
    rw [hreq]
    simp only [slowReq, or_eq_true, and_eq_true] at hb
    exact hb.elim And.left And.left
  | false =>
    cases he : i.d.error with
    | true =>
      have hw := ((hport.env hslow henv hsend).error he).1
      have hadv : advance t.ls i = false := by simp [advance, he]
      rw [r2in_req_of_not_advance hadv hintr (hinv.align2 hw).2]
      exact (hport.waits hw).1
    | false =>
      simp only [r2in, hintr, he, ht, false_eq_true, if_false] at hb
      split at hb
      · cases hb
      · split at hb
        · cases hb
        · next hd =>
          have hbub : bubble t.ls i = false := by simp [bubble, advance, hb]
          simp [r2in, nextReq2, ht, hbub, hd, hintr, h.busy2 hb]

/-- A request that waits for both units has missed in the TLB. -/
theorem SlotInv.step_repair (hw : (t.step b i).waiting = true)
    (hwm : (r2in t.ls i).waitMmu = true) : (r3in b t.ls i).state = .mmuWait := by
  have hintr := interrupt2_of_not_flush hflush
  have hbase := hport.env hslow henv hsend
  rcases waiting_cases hbase hinv hrst hflush hw with ⟨ht, -, -, hm, -⟩ | ⟨ht, hw0, -⟩
  · rw [(takes_next hinv hrst hflush ht).2.2.2.2.1, hm, Bool.and_false] at hwm
    cases hwm
  · cases he : i.d.error with
    | true =>
      obtain ⟨hdone, herr⟩ := not_mmu_of_idle henv (hbase.error he).2
      simp [r3in, hdone, herr, dcacheMiss_of_error hflush he]
    | false =>
      simp only [r2in, hintr, he, ht, false_eq_true, if_false] at hwm
      split at hwm
      · cases hwm
      · next hnd =>
        rw [and_eq_true] at hwm
        have hst := h.repair hw0 hwm.1
        have hdone : i.m.done = false := by simpa [hwm.1] using hnd
        simp [r3in, hdone, err_of_not_flush hflush, hst]

end Run

include h hport hslow henv in
/-- The answer to a `hashchk` ends it. -/
theorem SlotInv.checked (hv : i.d.valid = true) (hc : t.ls.r2.req.hashcmp = true) :
    (t.step b i).waiting = false ∧ (r2in t.ls i).busy = false ∧ (r2in t.ls i).oneCycle = false ∧
      ((r2in t.ls i).req.valid = true →
        (r2in t.ls i).req.last = true ∧ (r2in t.ls i).req.alignIntr = false) := by
  obtain ⟨hs, he, -⟩ := henv.answer hv
  obtain ⟨hw, hst, -⟩ := hport.served hs
  have hb := hslow.hash hw hc
  have hwm : t.ls.r2.waitMmu = false := by
    by_contra hwm
    rw [h.repair hw (by simpa using hwm)] at hst
    cases hst
  have ho := h.not_one (.inr hb)
  have ht : takes t.ls i = false := by simp [takes, advance, hb]
  have hv2 := (hport.waits hw).1
  obtain ⟨hinc, hsp, -⟩ := (hport.shape2 hv2).hash (by simp [hc])
  have hal := (hport.shape2 hv2).aligned (hport.waits hw).2
  refine ⟨by simp [Tracked.step, ht, hv], by simp [r2in, he, hb, hwm, hv], by simp [r2in, ht, ho],
    fun _ => ⟨?_, ?_⟩⟩
  · simp [r2in, nextReq2, ht, Request.last, hinc, hsp]
  · simp [r2in, nextReq2, ht, hal]

include h hport hslow henv in
/-- Nothing is left to wait for at a completion. -/
theorem SlotInv.step_done (hc : (r3in b t.ls i).complete = true) :
    (t.step b i).waiting = false ∧ (r2in t.ls i).busy = false ∧ (r2in t.ls i).oneCycle = false ∧
      ((r2in t.ls i).req.valid = true →
        (r2in t.ls i).req.last = true ∧ (r2in t.ls i).req.alignIntr = false) := by
  simp only [r3in, or_eq_true, and_eq_true, not_eq_true'] at hc
  rcases hc with hc | ⟨hd, hdc⟩
  · exact h.checked hport hslow henv hc.1.1 hc.1.2
  · -- an operation of the MMU
    obtain ⟨hv, hst⟩ := henv.mmu (by simp [hd])
    obtain ⟨hb, hwm, hal⟩ := hslow.mmuWait hst
    have hw : t.waiting = false := Flag.down (fun hw => (hport.waits hw).2) hdc
    have ho := h.not_one (.inr hb)
    have hm : t.ls.r2.req.mmuOp = true := by
      rcases h.kinds hv with ho' | hw' | ⟨-, hm | hal'⟩ | ⟨hc, -⟩
      · rw [ho] at ho'; cases ho'
      · rw [hw] at hw'; cases hw'
      · exact hm
      · rw [hal] at hal'; cases hal'
      · rw [(h.done (by rcases hc with hc | hc <;> simp [hc])).2.1] at hb
        cases hb
    have hdone : mmuOpDone t.ls i = true := by simp [mmuOpDone, hwm, hd, hm]
    have ht : takes t.ls i = false := by simp [takes, advance, hb]
    have he : i.d.error = false := by
      by_contra he
      rw [(hport.served (henv.error (by simpa using he)).1).2.1] at hst
      cases hst
    refine ⟨by simp [Tracked.step, ht, hw], ?_, by simp [r2in, ht, ho], fun hv' => ?_⟩
    · simp [r2in, he, hwm, hdone]
    · simp [r2in, hdone] at hv'

/-- Behind the first of two requests is the second one. -/
theorem SlotInv.step_part (h : SlotInv t) (hport : PortInv p t) (hinv : Inv b t)
    (hsend : SendEnv t.ls i) (hrst : i.rst = false) (hflush : flush t.ls i = false)
    (hv : (r2in t.ls i).req.valid = true) (hl : (r2in t.ls i).req.last = false) :
    (r1in b t.ls i).req.valid = true ∧
      (r1in b t.ls i).req.instrTag = (r2in t.ls i).req.instrTag := by
  obtain ⟨-, -, ⟨ht, hv1, -⟩ | ⟨ht, hbub, hv2, -⟩⟩ := r2in_valid hv
  · have hreq := (takes_next hinv hrst hflush ht).1
    have hshape := hport.shaped hflush hv1
    rw [hreq, last_takenReq hshape] at hl
    have hstay := holds1_step (b := b) hport hsend hflush
    rw [if_pos (by simp [holds1, hv1, moves, hl])] at hstay
    rw [hreq]
    exact ⟨hstay.1, hstay.2.1⟩
  · have hadv := hsend.not_advance ht hbub hv2
    have hl2 : t.ls.r2.req.last = false := by simpa [r2in, nextReq2, ht, Request.last] using hl
    obtain ⟨hv1, htag⟩ := h.part hv2 hl2
    rw [r1in_req_of_not_advance hflush hadv]
    exact ⟨hv1, by simpa [r2in, nextReq2, ht] using htag⟩

include h hport hinv hslow henv hsend in
/-- An interrupt leaves stage 2 with nothing to do. -/
theorem SlotInv.step_flush (hrst : i.rst = false) (hflush : flush t.ls i = true) :
    SlotInv (t.step b i) := by
  have hbase := hport.env hslow henv hsend
  have hadv := hslow.not_advance_of_flush hbase hflush
  have ht : takes t.ls i = false := by simp [takes, hadv]
  have hr1 := t.r1_step b hrst
  have hr2 := t.r2_step b hrst
  have hr3 := t.r3_step b hrst
  have hw : (t.step b i).waiting = false := by simp [Tracked.step, hflush]
  have hv1 : (r1in b t.ls i).req.valid = false := by simp [r1in, hflush]
  have hi3 : (r3in b t.ls i).interrupt = true := hflush
  have ho : (r2in t.ls i).oneCycle = false := by
    by_contra ho
    have ho : t.ls.r2.oneCycle = true ∧ bubble t.ls i = false := by simpa [r2in, ht] using ho
    obtain ⟨-, -, hb, hw⟩ := h.one ho.1
    rw [hport.advance_of_calm hslow henv hw hb] at hadv
    cases hadv
  -- either the request is gone, or it is a `hashchk` that has failed
  have hcase : ((r2in t.ls i).req.valid = false ∧ (r2in t.ls i).busy = false ∧
      (r2in t.ls i).waitDc = false) ∨ (i.d.valid = true ∧ t.ls.r2.req.hashcmp = true ∧
        interrupt2 t.ls i = false) := by
    cases hintr : interrupt2 t.ls i with
    | true => exact .inl ⟨by simp [r2in, hintr], by simp [r2in, hintr], by simp [r2in, hintr]⟩
    | false =>
      have htrap : hashchkTrap t.ls i = true := by
        simp only [interrupt2, Bool.or_eq_false_iff] at hintr
        simpa [flush, hintr.1.1, hintr.1.2, hintr.2] using hflush
      simp only [hashchkTrap, and_eq_true] at htrap
      exact .inr ⟨htrap.1.1, htrap.1.2, rfl⟩
  have hc3 : (r3in b t.ls i).complete = false := by
    by_contra hc
    simp only [r3in, not_eq_false, or_eq_true, and_eq_true, beq_iff_eq,
      not_eq_true'] at hc
    rcases hc with hc | hc
    · obtain ⟨-, he, hst⟩ := hbase.answer hc.1.1
      obtain ⟨hw, -⟩ := hbase.answer hc.1.1
      obtain ⟨-, herr⟩ := not_mmu_of_idle henv hst
      simp [flush, hashchkTrap, hc.2, (hinv.align2 hw).1, dcacheIntr, he, herr] at hflush
    · obtain ⟨-, hst⟩ := henv.mmu (by simp [hc.1])
      obtain ⟨hdv, he⟩ := hbase.no_answer_of_mmuWait hst
      simp [flush, hashchkTrap, hdv, (hslow.mmuWait hst).2.2, dcacheIntr, he,
        (henv.done hc.1).1] at hflush
  rcases hcase with ⟨hv2, hb2, hwd⟩ | ⟨hdv, hc, hintr⟩
  · constructor <;> simp [hr1, hr2, hr3, hw, hv1, ho, hv2, hb2, hwd, hc3]
  · obtain ⟨-, hb2, -, hlast⟩ := h.checked (b := b) hport hslow henv hdv hc
    have hwd : (r2in t.ls i).waitDc = false := by
      by_contra hwd
      have hwd : t.ls.r2.waitDc = true ∧ bubble t.ls i = false := by
        simpa [r2in, ht, hintr] using hwd
      rw [(h.wait hwd.1).2.2] at hc
      cases hc
    have hm : (r2in t.ls i).req.mmuOp = false := by
      simpa [r2in, nextReq2, ht] using (hinv.align2 (hbase.answer hdv).1).2
    have hc2 : (r2in t.ls i).req.hashcmp = true := by simpa [r2in, nextReq2, ht] using hc
    constructor
    case part =>
      rw [hr2]
      intro hv hl
      rw [(hlast hv).1] at hl
      cases hl
    case done => rw [hr2]; exact fun _ => ⟨hw, hb2, ho, hlast⟩
    all_goals simp [hr1, hr2, hr3, hw, hv1, ho, hb2, hwd, hc3, hi3, hm, hc2]

include h hport hinv hslow henv hsend in
theorem SlotInv.step : SlotInv (t.step b i) := by
  cases hrst : i.rst with
  | true => exact .reset hrst
  | false =>
    cases hflush : flush t.ls i with
    | true => exact h.step_flush hport hinv hslow henv hsend hrst hflush
    | false =>
      have hr1 := t.r1_step b hrst
      have hr2 := t.r2_step b hrst
      have hr3 := t.r3_step b hrst
      have hi3 : (r3in b t.ls i).interrupt = false := hflush
      constructor
      · rw [hr2]; exact h.step_one hport hinv hslow henv hsend hrst hflush
      · rw [hr2]; exact h.step_wait hport hinv henv hsend hrst hflush
      · intro hw hl hc
        rw [hr2]
        exact h.step_full hport hinv hslow henv hsend hrst hflush hw hl hc
      · rw [hr2, hr3]; exact h.step_kinds hport hinv hslow henv hsend hrst hflush
      · rw [hr2]; exact h.step_busy2 hport hinv hslow henv hsend hrst hflush
      · rw [hr2]
        intro hv hm
        obtain ⟨-, -, ⟨ht, -, -, hop⟩ | ⟨ht, -, hv2, -, hop⟩⟩ := r2in_valid hv
        · rw [hop] at hm
          simp [r2in, nextReq2, ht, takenReq, hm]
        · rw [hop] at hm
          simpa [r2in, nextReq2, ht] using h.mmuOp2 hv2 hm
      · rw [hr2, hr3]; exact h.step_repair hport hinv hslow henv hsend hrst hflush
      · rw [hr2, hr3, hi3, Bool.or_false]; exact h.step_done hport hslow henv
      · rw [hr3, hi3]
        intro hi
        cases hi
      · rw [hr1, hr2]; exact h.step_part hport hinv hsend hrst hflush

/-! ### Flushes by other units, and results -/

/-- Without an instruction, or when the one in the second stage has interrupted, stage 2 has nothing
to do. -/
theorem SlotInv.calm (h : SlotInv t) (hport : PortInv p t) (h1 : holds1 t.ls = false)
    (h2 : holds2 t.ls = false ∨ t.ls.r3.interrupt = true) :
    t.waiting = false ∧ t.ls.r2.busy = false ∧
      (holds2 t.ls = false → t.ls.r2.req.valid = false) := by
  have hv1 : t.ls.r1.req.valid = false := h1
  have hnone : holds2 t.ls = false → t.ls.r2.req.valid = false := by
    intro h2
    by_contra hv2
    have hv2 : t.ls.r2.req.valid = true := by simpa using hv2
    have hl : t.ls.r2.req.last = false := by
      by_contra hl
      simp [holds2, hv2, hl] at h2
    rw [(h.part hv2 hl).1] at hv1
    cases hv1
  rcases h2 with h2 | h2
  · have hv2 := hnone h2
    refine ⟨?_, ?_, hnone⟩
    · exact Flag.down (fun hw => (hport.waits hw).1) hv2
    · exact Flag.down h.busy2 hv2
  · obtain ⟨hw, hb, -⟩ := h.done (by simp [h2])
    exact ⟨hw, hb, hnone⟩

include h hport hslow henv hsend in
/-- Without an instruction, or when the one in the second stage has interrupted, nothing is left. -/
theorem SlotInv.empty_step (hrst : i.rst = false) (h1 : holds1 t.ls = false)
    (h2 : holds2 t.ls = false ∨ t.ls.r3.interrupt = true) (hv : i.l.valid = false) :
    holds1 (t.step b i).ls = false ∧ holds2 (t.step b i).ls = false := by
  have hv1 : t.ls.r1.req.valid = false := h1
  have hbase := hport.env hslow henv hsend
  obtain ⟨hw, hb, -⟩ := h.calm hport h1 h2
  have hadv := hport.advance_of_calm hslow henv hw hb
  have hflush : flush t.ls i = false := Flag.down (hslow.not_advance_of_flush hbase) hadv
  have hgone : (r2in t.ls i).req.valid = false := by
    by_contra hv2
    obtain ⟨-, -, ⟨-, hv', -⟩ | ⟨ht, hbub, hv2, -⟩⟩ := r2in_valid (not_eq_false _ ▸ hv2)
    · rw [hv1] at hv'; cases hv'
    · rw [hsend.not_advance ht hbub hv2] at hadv; cases hadv
  have hb1 : t.ls.r1.busy = false := Flag.down hport.busy1 hv1
  constructor
  · simp [holds1, Tracked.step, LoadStore.step, hrst, r1in, hflush, hadv, (nextReq1_decided t.ls).1,
      stage1Req, hb1, hv]
  · have hi3 : (r3in b t.ls i).interrupt = false := hflush
    simp [holds2, Tracked.step, LoadStore.step, hrst, hgone, hi3,
      r3in_complete_of_advance hslow hbase hadv]

theorem SlotInv.holds2_of_writeEnable (hport : PortInv p t) (hbase : Env t i)
    (hw : (writeEnable t.ls i || doUpdate t.ls i) = true) : holds2 t.ls = true := by
  have hlast : t.ls.r2.req.valid = true → t.ls.r2.req.dcReq = false → holds2 t.ls = true := by
    intro hv hdc
    have hinc : t.ls.r2.req.incomplete = false := Flag.down ((hport.shape2 hv).incomplete) hdc
    simp [holds2, hv, Request.last, hinc, hdc]
  simp only [writeEnable, doUpdate] at hw
  split at hw
  · next hc =>
    rw [and_eq_true, not_eq_true'] at hc
    have hv := (hport.waits (hbase.answer hc.1).1).1
    have hsp : t.ls.r2.req.loadSp = false := by
      by_contra hsp
      have hst := (hport.shape2 hv).single (by simpa using hsp)
      simp [not_eq_false _ ▸ hsp, hst] at hw
    simp [holds2, hv, Request.last, hc.2, hsp]
  · simp only [or_eq_true, and_eq_true, not_eq_true'] at hw
    rcases hw with ⟨hv, hr | hr⟩ | ⟨hv, hr⟩
    · exact hlast hv ((hport.shape2 hv).spr (by simp [hr]))
    · exact hlast hv hr.2
    · exact hlast hv ((hport.shape2 hv).spr (by simp [hr]))

end Step

end LoadStore

end Microwatt
