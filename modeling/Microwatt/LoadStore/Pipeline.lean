import Microwatt.Lib.Clocked
import Microwatt.LoadStore.Format
import Microwatt.LoadStore.Stages

/-!
# Loads and stores through the pipeline

`Format` says what the doublewords of one access mean. Here the three stages are followed along
arbitrary runs, with stalls, TLB misses that are repaired and sent again, interrupts and resets,
to show that the requests on the port to the data cache are those doublewords, that an access
that needs two of them completes only when both have been answered, and that the data written
back is put together from the two answers to its own requests.

The instructions in stages 1 and 2 are kept beside the unit, with the answers received so far for
the one in stage 2.

## Main definitions

* `LoadStore.Tracked` — the stages and the instructions in them

## Main results

* `LoadStore.Inv.step`, `LoadStore.Inv.request_sent`
-/

namespace Microwatt

open LoadStore
open Bool (and_eq_true false_eq_true not_eq_true' or_eq_false_iff)

namespace LoadStore

/-! ### Following the instructions -/

/-- The unit together with the instructions in its first two stages. -/
structure Tracked where
  ls : State
  /-- The instruction in stage 1. -/
  op1 : Op
  /-- The instruction in stage 2. -/
  op2 : Op
  /-- The request in stage 2 has not been answered by the data cache. -/
  waiting : Bool
  /-- The doublewords returned so far for the instruction in stage 2. -/
  answers : List (BitVec 64)

variable {b : Bool}

/-- The instruction that execute1 presents. -/
def State.presented (s : State) (i : Inputs) : Op := ⟨i.l, s.r1.addr0⟩

theorem reqIn_eq (b : Bool) (s : State) (i : Inputs) :
    reqIn b s i = (s.presented i).request b := rfl

def Tracked.step (b : Bool) (t : Tracked) (i : Inputs) : Tracked where
  ls := LoadStore.step b t.ls i
  op1 := if !t.ls.r1.busy && i.l.valid then t.ls.presented i else t.op1
  op2 := if takes t.ls i then t.op1 else t.op2
  waiting :=
    if i.rst || flush t.ls i then false
    else if takes t.ls i then t.ls.r1.req.valid && t.ls.r1.req.dcReq && !t.ls.r1.req.mmuOp
    else t.waiting && !i.d.valid
  answers :=
    if takes t.ls i && !t.ls.r1.req.dwordIndex then []
    else if i.d.valid then t.answers ++ [i.d.data]
    else t.answers

/-- What execute1, the data cache and the MMU keep to. The assertions of `loadstore1_reg` are
among it. -/
@[mk_iff] structure Env (t : Tracked) (i : Inputs) : Prop where
  /-- Execute1 sends nothing to a busy unit, -/
  issue : i.l.valid = true → busy t.ls i = false
  /-- and while the FPU holds up the second execute stage, no request is in stage 1. -/
  hold : i.l.e2stall = true → t.ls.r1.req.valid = false
  /-- The data cache answers only what it was asked, -/
  answer : i.d.valid = true → t.waiting = true ∧ i.d.error = false ∧ t.ls.r3.state = .idle
  error : i.d.error = true → t.waiting = true ∧ t.ls.r3.state = .idle
  /-- and stalls the unit until it does. -/
  stall : t.waiting = true → i.d.valid = true ∨ advance t.ls i = false
  /-- The MMU finishes only what it was asked. -/
  mmu : (i.m.done || i.m.err) = true → t.ls.r2.req.valid = true ∧ t.ls.r3.state = .mmuWait

instance (t : Tracked) (i : Inputs) : Decidable (Env t i) :=
  decidable_of_iff _ (env_iff ..).symm

/-- The unit after a reset. -/
def Tracked.Init (b : Bool) (t : Tracked) : Prop :=
  (∃ s i, i.rst = true ∧ t.ls = LoadStore.step b s i) ∧ t.waiting = false ∧ t.answers = []

/-- `q` is the request for the first or for the second doubleword of the instruction. -/
def Op.IsPart (b : Bool) (o : Op) (q : Request) : Prop :=
  q = o.request b ∨ (q = secondRequest (o.request b) ∧ (o.request b).twoDwords = true)

/-- The answer to the first doubleword has been received, and its bytes are kept if the
instruction is a load. -/
def Tracked.Captured (b : Bool) (t : Tracked) (o : Op) : Prop :=
  ∃ d, t.answers = [d] ∧ ((o.request b).load = true → t.ls.r3.loadData = permute o.control d)

/-! ### Requests -/

variable {o : Op} {q : Request} {s : State} {i : Inputs} {t : Tracked}

theorem Op.request_dcReq (h : (o.request b).dcReq = true) :
    (o.request b).valid = true ∧ (o.request b).alignIntr = false := by
  simp only [Op.request, loadstore1In, and_eq_true, not_eq_true'] at h ⊢
  exact ⟨h.1.1.1, h.1.2⟩

theorem Op.Plain.request (ho : o.Plain) :
    (o.request b).mmuOp = false ∧ (o.request b).hashst = false ∧
      (o.request b).hashcmp = false := by
  have hhash := ho.noHash
  rcases ho.kind with hk | hk <;> simp [Op.request, loadstore1In, hk, hhash]

theorem Op.IsPart.fields (h : o.IsPart b q) :
    q.valid = (o.request b).valid ∧ q.dcReq = (o.request b).dcReq ∧
      q.load = (o.request b).load ∧ q.mmuOp = (o.request b).mmuOp ∧
      q.hashst = (o.request b).hashst ∧ q.hashcmp = (o.request b).hashcmp ∧
      q.alignIntr = (o.request b).alignIntr ∧ q.length = o.l.length ∧
      q.byteReverse = o.l.byteReverse ∧ q.signExtend = o.l.signExtend ∧
      q.brevMask = brevMaskOf o.l ∧ q.storeData = storeValue b o.l := by
  rcases h with rfl | ⟨rfl, -⟩ <;>
    exact ⟨rfl, rfl, rfl, rfl, rfl, rfl, rfl, rfl, rfl, rfl, rfl, rfl⟩

/-- The first part is the one that is incomplete or alone, the second one has index 1. -/
theorem Op.IsPart.dwordIndex (h : o.IsPart b q) (hdc : q.dcReq = true) :
    (q.dwordIndex = false ∧ q = o.request b ∧ q.incomplete = (o.request b).twoDwords) ∨
      (q.dwordIndex = true ∧ q = secondRequest (o.request b) ∧ q.incomplete = false ∧
        (o.request b).twoDwords = true) := by
  rcases h with rfl | ⟨rfl, htwo⟩
  · refine .inl ⟨rfl, rfl, ?_⟩
    have hinc : (o.request b).incomplete =
        ((o.request b).dcReq && (o.request b).twoDwords) := rfl
    rw [hinc, hdc, Bool.true_and]
  · exact .inr ⟨rfl, rfl, rfl, htwo⟩

theorem Op.IsPart.mem_doublewords (h : o.IsPart b q) :
    ⟨q.addr, q.byteSel, o.dataOut b⟩ ∈ o.doublewords b := by
  rcases h with rfl | ⟨rfl, htwo⟩
  · exact List.mem_cons_self
  · rw [Op.doublewords]
    simp [htwo]

theorem storeData_eq (hpart : o.IsPart b s.r1.req) (haddr : s.r1.addr0 = o.ea) :
    storeData s = o.dataOut b := by
  obtain ⟨hmask, hdata⟩ := hpart.fields.2.2.2.2.2.2.2.2.2.2
  rw [storeData, haddr, hmask, hdata]
  rfl

/-! ### One step of stage 2 -/

section

variable (t : Tracked) (b : Bool) (hrst : i.rst = false)

include hrst

theorem Tracked.r1_step : (t.step b i).ls.r1 = r1in b t.ls i := by
  simp [Tracked.step, LoadStore.step, hrst]

theorem Tracked.r2_step : (t.step b i).ls.r2 = r2in t.ls i := by
  simp [Tracked.step, LoadStore.step, hrst]

theorem Tracked.r3_step : (t.step b i).ls.r3 = r3in b t.ls i := by
  simp [Tracked.step, LoadStore.step, hrst]

end

theorem interrupt2_of_not_flush (h : flush s i = false) : interrupt2 s i = false := by
  simp only [flush, interrupt2, or_eq_false_iff] at h ⊢
  exact ⟨⟨h.1.1.2, h.1.2⟩, h.2⟩

theorem err_of_not_flush (h : flush s i = false) : i.m.err = false := by
  simp only [flush, or_eq_false_iff] at h
  exact h.2

/-- An error that does not interrupt at once is a miss. -/
theorem dcacheMiss_of_error (h : flush s i = false) (he : i.d.error = true) :
    dcacheMiss s i = true := by
  simp only [flush, dcacheIntr, he, Bool.true_and, or_eq_false_iff] at h
  simp [dcacheMiss, he, h.1.2]

theorem advance_of_takes (h : takes s i = true) : advance s i = true := by
  simp only [takes, and_eq_true] at h
  exact h.1.1

theorem advance_iff :
    advance s i = true ↔ i.dcStall = false ∧ i.d.error = false ∧ s.r2.busy = false := by
  simp [advance, and_assoc]

/-- What becomes of the request of stage 1 with a hash instruction does not concern these. -/
@[simp] theorem nextReq1_dcReq (s : State) : (nextReq1 b s i).dcReq = (stage1Req b s i).dcReq := by
  simp only [nextReq1]; split <;> rfl

@[simp] theorem nextReq1_incomplete (s : State) :
    (nextReq1 b s i).incomplete = (stage1Req b s i).incomplete := by
  simp only [nextReq1]; split <;> rfl

@[simp] theorem nextReq1_mmuOp (s : State) : (nextReq1 b s i).mmuOp = (stage1Req b s i).mmuOp := by
  simp only [nextReq1]; split <;> rfl

@[simp] theorem nextReq1_hash (s : State) :
    (nextReq1 b s i).hashst = (stage1Req b s i).hashst ∧
      (nextReq1 b s i).hashcmp = (stage1Req b s i).hashcmp := by
  simp only [nextReq1]; split <;> exact ⟨rfl, rfl⟩

/-- An ordinary access is not a hash instruction. -/
theorem Op.IsPart.nextReq1_eq (hpart : o.IsPart b (nextReq1 b s i)) (hplain : o.Plain) :
    nextReq1 b s i = stage1Req b s i := by
  have hf := hpart.fields
  have hhash : hashIssue b s i = false := by
    simp only [hashIssue, ← (nextReq1_hash s).1, ← (nextReq1_hash s).2, hf.2.2.2.2.1,
      hf.2.2.2.2.2.1, hplain.request.2.1, hplain.request.2.2, Bool.or_self, Bool.and_false]
  simp [nextReq1, hhash]

/-- The decisions about an instruction survive the exchange of its address. -/
theorem nextReq1_decided (s : State) :
    (nextReq1 b s i).valid = (stage1Req b s i).valid ∧
      (nextReq1 b s i).alignIntr = (stage1Req b s i).alignIntr := by
  simp only [nextReq1]
  split <;> exact ⟨rfl, rfl⟩

/-- Stage 1 stays as it is when the pipeline does not move. -/
theorem r1in_req_of_not_advance (hflush : flush s i = false) (hadv : advance s i = false) :
    (r1in b s i).req = s.r1.req := by
  simp [r1in, hflush, hadv]

theorem r1in_req_of_advance (hflush : flush s i = false) (hadv : advance s i = true) :
    (r1in b s i).req = nextReq1 b s i := by
  simp [r1in, hflush, hadv]

/-- Nothing happens to a request that waits for the data cache. -/
theorem r2in_req_of_not_advance (ha : advance s i = false) (hintr : interrupt2 s i = false)
    (hmmu : s.r2.req.mmuOp = false) : (r2in s i).req = s.r2.req := by
  have htakes : takes s i = false := by simp [takes, ha]
  have hbubble : bubble s i = false := by simp [bubble, ha]
  have hdone : mmuOpDone s i = false := by simp [mmuOpDone, hmmu]
  simp [r2in, nextReq2, htakes, hbubble, hdone, hintr]

theorem r2in_req_of_takes (h : takes s i = true) (hintr : interrupt2 s i = false)
    (hwait : s.r2.waitMmu = false) : (r2in s i).req = takenReq s := by
  have hbubble : bubble s i = false := by
    simp only [takes, and_eq_true] at h
    simp only [bubble, h.2, Bool.not_true, Bool.and_false]
  simp [r2in, nextReq2, h, hbubble, mmuOpDone, hwait, hintr]

theorem r2in_waitMmu (h : s.r2.waitMmu = true → s.r2.busy = true) (h' : (r2in s i).waitMmu = true) :
    (r2in s i).busy = true := by
  revert h'
  simp only [r2in]
  cases interrupt2 s i with
  | true => simp
  | false =>
    cases i.d.error with
    | true => simp
    | false =>
      cases hw : s.r2.waitMmu with
      | true =>
        have htakes : takes s i = false := by simp [takes, advance, h hw]
        have hbubble : bubble s i = false := by simp [bubble, advance, h hw]
        cases hd : i.m.done <;> simp [h hw, htakes, hbubble, mmuOpDone, hd]
      | false =>
        cases ht : takes s i with
        | true =>
          have hb : s.r2.busy = false := (advance_iff.mp (advance_of_takes ht)).2.2
          simp +contextual [hb, mmuOpDone, hw]
        | false => simp

/-! ### The invariant -/

/-- What the stages hold. -/
structure Inv (b : Bool) (t : Tracked) : Prop where
  /-- A misaligned access that interrupts is never sent to the data cache. -/
  align1 : t.ls.r1.req.dcReq = true → t.ls.r1.req.alignIntr = false
  align2 : t.waiting = true → t.ls.r2.req.alignIntr = false ∧ t.ls.r2.req.mmuOp = false
  /-- Waiting for the MMU keeps stage 2 busy, -/
  waitMmu : t.ls.r2.waitMmu = true → t.ls.r2.busy = true
  /-- and so does the repair of a miss. -/
  retry : t.ls.r3.stage1En = false →
    t.waiting = true ∧ t.ls.r2.waitMmu = true ∧ t.ls.r3.state = .mmuWait
  /-- The second part is built only for a request that has been issued. -/
  incomplete : (t.ls.r1.busy || t.ls.r1.issued) = true → t.op1.Plain →
    t.ls.r1.req.incomplete = true → t.ls.r1.req.dcReq = true
  /-- Stage 1 holds a part of its instruction, -/
  hold1 : t.ls.r1.req.dcReq = true → t.op1.Plain →
    t.op1.IsPart b t.ls.r1.req ∧ t.ls.r1.addr0 = t.op1.ea
  /-- and stage 2 one whose data has been formatted. -/
  hold2 : t.waiting = true → t.op2.Plain →
    t.ls.r2.control = t.op2.control ∧ ∃ q, t.op2.IsPart b q ∧ q.dcReq = true ∧
      t.ls.r2.req =
        { q with storeData := t.op2.dataOut b, dawrIntr := t.ls.r2.req.dawrIntr }
  /-- Nothing has been returned before the first answer, -/
  first : t.waiting = true → t.ls.r2.req.dwordIndex = false → t.answers = []
  /-- the second part waits with the first answer at hand, -/
  second : t.waiting = true → t.op2.Plain → t.ls.r2.req.dwordIndex = true → t.Captured b t.op2
  /-- and follows the first part through the stages. -/
  next : t.ls.r1.req.dcReq = true → t.op1.Plain → t.ls.r1.req.dwordIndex = true →
    t.op2 = t.op1 ∧ (t.waiting = true → t.ls.r2.req.dwordIndex = false) ∧
      (t.waiting = false → t.Captured b t.op1)

theorem Inv.of_reset (hls : ∃ s i, i.rst = true ∧ t.ls = step b s i)
    (hw : t.waiting = false) : Inv b t := by
  obtain ⟨s, i, hrst, hls⟩ := hls
  have hdc : t.ls.r1.req.dcReq = false := by simp [hls, step, hrst, Stage1.reset]
  have hbusy : t.ls.r1.busy = false ∧ t.ls.r1.issued = false := by
    simp [hls, step, hrst, Stage1.reset]
  have hen : t.ls.r3.stage1En = true := by simp [hls, step, hrst, Stage3.reset]
  have hmmu : t.ls.r2.waitMmu = false := by simp [hls, step, hrst, Stage2.reset]
  constructor <;> simp [hdc, hen, hmmu, hw, hbusy]

theorem Inv.init (h : t.Init b) : Inv b t := Inv.of_reset h.1 h.2.1

theorem Inv.waitMmu_of_advance (hinv : Inv b t) (hadv : advance t.ls i = true) :
    t.ls.r2.waitMmu = false := by
  by_contra hw
  have hb := hinv.waitMmu (by simpa using hw)
  rw [(advance_iff.mp hadv).2.2] at hb
  cases hb

theorem Inv.stage1En_of_idle (hinv : Inv b t) (hst : t.ls.r3.state = .idle) :
    t.ls.r3.stage1En = true := by
  by_contra hen
  rw [(hinv.retry (by simpa using hen)).2.2] at hst
  cases hst

/-! ### The pieces of a step -/

section Step

/-- An instruction is presented only when both stages can move. -/
theorem Env.advance_of_valid (henv : Env t i) (hv : i.l.valid = true) :
    advance t.ls i = true ∧ t.ls.r1.busy = false := by
  have hb := henv.issue hv
  simp only [busy, or_eq_false_iff] at hb
  simp [advance, hb]

/-- Nothing is presented to a pipeline that does not move. -/
theorem Env.not_valid (henv : Env t i) (hadv : advance t.ls i = false) : i.l.valid = false :=
  Flag.down (fun hv => (henv.advance_of_valid hv).1) hadv

/-- The data cache has nothing to say to a unit that is not waiting for it. -/
theorem Env.no_answer (henv : Env t i) (hw : t.waiting = false) :
    i.d.valid = false ∧ i.d.error = false := by
  constructor
  · exact Flag.down (fun hv => (henv.answer hv).1) hw
  · exact Flag.down (fun he => (henv.error he).1) hw

theorem Env.no_answer_of_mmuWait (henv : Env t i) (hst : t.ls.r3.state = .mmuWait) :
    i.d.valid = false ∧ i.d.error = false := by
  constructor
  · by_contra hv
    rw [(henv.answer (by simpa using hv)).2.2] at hst
    cases hst
  · by_contra he
    rw [(henv.error (by simpa using he)).2] at hst
    cases hst

variable (henv : Env t i) (hinv : Inv b t) (hrst : i.rst = false) (hflush : flush t.ls i = false)

include henv hflush in
/-- What is in the first stage after a step that is no flush: what was there, a new instruction,
or the second part of the one that was there. -/
theorem stage1_cases (hinv : Inv b t) (hdc : (r1in b t.ls i).req.dcReq = true)
    (hplain : (t.step b i).op1.Plain) :
    ((r1in b t.ls i).req = t.ls.r1.req ∧ (t.step b i).op1 = t.op1 ∧ takes t.ls i = false ∧
        (r1in b t.ls i).addr0 = t.ls.r1.addr0) ∨
      (advance t.ls i = true ∧ (r1in b t.ls i).req = (t.step b i).op1.request b ∧
        (r1in b t.ls i).addr0 = (t.step b i).op1.ea) ∨
      (takes t.ls i = true ∧ t.ls.r1.req = t.op1.request b ∧ t.ls.r1.req.dcReq = true ∧
        (t.op1.request b).twoDwords = true ∧ (t.step b i).op1 = t.op1 ∧
        (r1in b t.ls i).req = secondRequest (t.op1.request b) ∧
        (r1in b t.ls i).addr0 = t.ls.r1.addr0) := by
  cases hadv : advance t.ls i with
  | false =>
    -- nothing moves
    have hv := henv.not_valid hadv
    refine .inl ⟨by simp [r1in, hflush, hadv], by simp [Tracked.step, hv],
      by simp [takes, hadv], by simp [r1in, hv]⟩
  | true =>
    have hreq := r1in_req_of_advance (b := b) hflush hadv
    cases hbusy : t.ls.r1.busy with
    | false =>
      -- a new instruction, or nothing
      have hs1 := stage1Req_of_free b t.ls i hbusy
      rw [reqIn_eq] at hs1
      have hdc1 : (stage1Req b t.ls i).dcReq = true := by rwa [hreq, nextReq1_dcReq] at hdc
      have hboth : ((t.ls.presented i).request b).dcReq = true ∧ t.ls.flushing = false := by
        rw [hs1] at hdc1
        simpa using hdc1
      have hv : i.l.valid = true := (Op.request_dcReq hboth.1).1
      have hop : (t.step b i).op1 = t.ls.presented i := by simp [Tracked.step, hbusy, hv]
      rw [hop] at hplain ⊢
      have hreq1 : stage1Req b t.ls i = (t.ls.presented i).request b := by
        rw [hs1, hboth.2, hv]
        simp only [Bool.not_false, Bool.and_true]
        have : ((t.ls.presented i).request b).valid = true := hv
        rw [← this]
      have hhash : hashIssue b t.ls i = false := by
        simp [hashIssue, hreq1, hplain.request.2.1, hplain.request.2.2]
      refine .inr (.inl ⟨rfl, by simp [hreq, nextReq1, hhash, hreq1], ?_⟩)
      simp only [r1in, hbusy, hv, hreq1, Bool.not_false, Bool.and_self, if_true]
      rfl
    | true =>
      have hop : (t.step b i).op1 = t.op1 := by simp [Tracked.step, hbusy]
      have haddr : (r1in b t.ls i).addr0 = t.ls.r1.addr0 := by simp [r1in, hbusy]
      rw [hop] at hplain ⊢
      have hdc1 : (stage1Req b t.ls i).dcReq = true := by rwa [hreq, nextReq1_dcReq] at hdc
      rcases stage1Req_of_busy b t.ls i hbusy with ⟨hwait, hs⟩ | ⟨hwait, hinc, hs⟩ | ⟨-, -, hs⟩
      · -- the request is sent again
        obtain ⟨hdcold, hiss⟩ : t.ls.r1.req.dcReq = true ∧ t.ls.r1.issued = false := by
          simpa using hwait
        have hf := (hinv.hold1 hdcold hplain).1.fields
        have hvalid : t.ls.r1.req.valid = true := by
          rw [hf.1]
          exact (Op.request_dcReq (hf.2.1 ▸ hdcold)).1
        have hhash : hashIssue b t.ls i = false := by
          simp [hashIssue, hs, hf.2.2.2.2.1, hf.2.2.2.2.2.1, hplain.request]
        exact .inl ⟨by simp [hreq, nextReq1, hhash, hs], rfl,
          by simp [takes, hiss, hdcold, hvalid], haddr⟩
      · -- the second part takes the place of the first
        have hdcold : t.ls.r1.req.dcReq = true := by rwa [hs] at hdc1
        have hiss : t.ls.r1.issued = true := by simpa [hdcold] using hwait
        rcases (hinv.hold1 hdcold hplain).1.dwordIndex hdcold with
          ⟨-, hfirst, htwo⟩ | ⟨-, -, hno, -⟩
        · have hvalid : t.ls.r1.req.valid = true := by
            rw [hfirst]
            exact (Op.request_dcReq (hfirst ▸ hdcold)).1
          have hhold : i.l.e2stall = false := by
            cases he : i.l.e2stall with
            | false => rfl
            | true => rw [henv.hold he] at hvalid; cases hvalid
          have hhash : hashIssue b t.ls i = false := by
            simp [hashIssue, hs, secondRequest, hfirst, hplain.request]
          refine .inr (.inr ⟨by simp [takes, hadv, hhold, hiss], hfirst, hdcold, ?_, rfl, ?_,
            haddr⟩)
          · rw [← htwo, hinc]
          · simp [hreq, nextReq1, hhash, hs, hfirst]
        · rw [hno] at hinc
          cases hinc
      · rw [hs] at hdc1
        cases hdc1

include henv hinv hrst in
/-- The first answer is kept until the second part is done. -/
theorem captured_step (hplain : t.op2.Plain) (hdone : t.waiting = true → i.d.valid = true)
    (hfirst : t.waiting = true → t.ls.r2.req.dwordIndex = false)
    (hcapt : t.waiting = false → t.Captured b t.op2)
    (hkeep : (takes t.ls i && !t.ls.r1.req.dwordIndex) = false) :
    (t.step b i).Captured b t.op2 := by
  have hans : (t.step b i).answers =
      if i.d.valid then t.answers ++ [i.d.data] else t.answers := by
    simp only [Tracked.step, hkeep, false_eq_true, if_false]
  have hload : (t.step b i).ls.r3.loadData =
      if i.d.valid && t.ls.r2.req.load then permute t.ls.r2.control i.d.data
      else t.ls.r3.loadData := by
    simp [Tracked.step, LoadStore.step, hrst, r3in, dataPermuted]
  cases hw : t.waiting with
  | true =>
    obtain ⟨hctl, q, hq, -, hr2⟩ := hinv.hold2 hw hplain
    refine ⟨i.d.data, ?_, fun hld => ?_⟩
    · rw [hans, if_pos (hdone hw), hinv.first hw (hfirst hw)]
      rfl
    · have hr2load : t.ls.r2.req.load = true := by
        rw [hr2]
        exact hq.fields.2.2.1.trans hld
      rw [hload, if_pos (by rw [hdone hw, hr2load]; rfl), hctl]
  | false =>
    have hv := (henv.no_answer hw).1
    obtain ⟨d, hd, hperm⟩ := hcapt hw
    refine ⟨d, by simp [hans, hv, hd], fun hld => ?_⟩
    rw [hload, hv]
    exact hperm hld

theorem Inv.step_align1 (hinv : Inv b t) (hdc : (r1in b t.ls i).req.dcReq = true) :
    (r1in b t.ls i).req.alignIntr = false := by
  have hs1 : (stage1Req b t.ls i).dcReq = true → (stage1Req b t.ls i).alignIntr = false := by
    simp only [stage1Req]
    split
    · intro h
      simp only [and_eq_true] at h
      exact (Op.request_dcReq (o := t.ls.presented i) h.1).2
    · split
      · exact hinv.align1
      · split
        · exact hinv.align1
        · intro h; cases h
  revert hdc
  simp only [r1in]
  split
  · intro h; cases h
  · split
    · simp only [nextReq1]
      split <;> exact hs1
    · exact hinv.align1

/-- A request is issued with `dc_req` set, unless it is the second part of one without. -/
theorem stage1Req_of_issue {s : State} (h : issue b s i = true) :
    (stage1Req b s i).dcReq = true ∨
      (s.r1.busy = true ∧ s.r1.req.incomplete = true ∧ s.r1.req.dcReq = false ∧
        stage1Req b s i = secondRequest s.r1.req) := by
  cases hb : s.r1.busy with
  | false =>
    simp only [issue, hb, Bool.not_false, if_true, and_eq_true] at h
    exact .inl h.2
  | true =>
    simp only [issue, stage1Req, hb, Bool.not_true, false_eq_true, if_false] at h ⊢
    cases hdc : s.r1.req.dcReq with
    | true =>
      left
      cases hi : s.r1.issued with
      | false => simp [hdc]
      | true =>
        have hinc : s.r1.req.incomplete = true := by simpa [hdc, hi] using h
        simp [hinc, secondRequest, hdc]
    | false =>
      have hinc : s.r1.req.incomplete = true := by simpa [hdc] using h
      exact .inr ⟨trivial, hinc, rfl, by simp [hinc]⟩

theorem Inv.step_incomplete (hinv : Inv b t) (henv : Env t i) (hflush : flush t.ls i = false)
    (hbusy : ((r1in b t.ls i).busy || (r1in b t.ls i).issued) = true)
    (hplain : (t.step b i).op1.Plain) (hinc : (r1in b t.ls i).req.incomplete = true) :
    (r1in b t.ls i).req.dcReq = true := by
  cases hadv : advance t.ls i with
  | false =>
    have hv := henv.not_valid hadv
    simp only [r1in, hflush, hadv, false_eq_true, if_false] at hinc hbusy ⊢
    refine hinv.incomplete ?_ (by simpa [Tracked.step, hv] using hplain) hinc
    cases hb : t.ls.r1.busy <;> cases hi : t.ls.r1.issued <;> simp [hb, hi] at hbusy ⊢
  | true =>
    have hreq := r1in_req_of_advance (b := b) hflush hadv
    rw [hreq, nextReq1_dcReq]
    rw [hreq, nextReq1_incomplete] at hinc
    have hissue : issue b t.ls i = true ∨ ((stage1Req b t.ls i).valid = true ∧
        (stage1Req b t.ls i).mmuOp = true) := by
      simp only [r1in, hflush, hadv, false_eq_true, if_false, if_true, issueFinal,
        Bool.or_eq_true] at hbusy
      cases hi : issue b t.ls i with
      | true => exact .inl rfl
      | false => right; simpa [hashIssue, hi] using hbusy
    cases hb : t.ls.r1.busy with
    | true =>
      -- the second part is complete, and so is the dummy of lfs
      cases hdc : t.ls.r1.req.dcReq && !t.ls.r1.issued with
      | true =>
        simp only [stage1Req, hb, hdc, Bool.not_true, false_eq_true, if_false, if_true]
        exact (Bool.and_eq_true_iff.mp hdc).1
      | false =>
        cases hinc0 : t.ls.r1.req.incomplete with
        | true => simp [stage1Req, hb, hdc, hinc0, secondRequest] at hinc
        | false => simp [stage1Req, hb, hdc, hinc0] at hinc
    | false =>
      rcases hissue with hissue | ⟨hv, hmmu⟩
      · rcases stage1Req_of_issue hissue with hdc | ⟨hb', -⟩
        · exact hdc
        · rw [hb] at hb'; cases hb'
      · have hlv : i.l.valid = true := by simpa [stage1Req, hb] using hv
        have hop : (t.step b i).op1 = t.ls.presented i := by simp [Tracked.step, hb, hlv]
        rw [hop] at hplain
        have hno : (stage1Req b t.ls i).mmuOp = ((t.ls.presented i).request b).mmuOp := by
          simp [stage1Req, hb, reqIn, Op.request, State.presented]
        rw [hno, hplain.request.1] at hmmu
        cases hmmu

/-- A flush ends the repair of a miss: it is the MMU's error, or there was nothing to repair. -/
theorem stage1En_of_flush (henv : Env t i) (hinv : Inv b t) (hflush : flush t.ls i = true) :
    (r3in b t.ls i).stage1En = true := by
  simp only [r3in]
  cases hm : i.m.done || i.m.err with
  | true => rfl
  | false =>
    have herr : i.m.err = false := (or_eq_false_iff.mp hm).2
    simp only [flush, herr, Bool.or_false, Bool.or_eq_true] at hflush
    simp only [false_eq_true, if_false]
    rcases hflush with (htrap | halign) | hintr
    · -- a failed hash check
      have hv : i.d.valid = true := by
        simp only [hashchkTrap, and_eq_true] at htrap; exact htrap.1.1
      obtain ⟨-, hne, hst⟩ := henv.answer hv
      simp [dcacheMiss, hne, hinv.stage1En_of_idle hst]
    · -- an alignment interrupt: nothing is waiting for the data cache
      rw [and_eq_true] at halign
      have hw : t.waiting = false := by
        cases hw : t.waiting with
        | false => rfl
        | true => rw [(hinv.align2 hw).1] at halign; cases halign.2
      have hne := (henv.no_answer hw).2
      have hen : t.ls.r3.stage1En = true := by
        cases hen : t.ls.r3.stage1En with
        | true => rfl
        | false => rw [(hinv.retry hen).1] at hw; cases hw
      simp [dcacheMiss, hne, hen]
    · -- an error that interrupts at once
      simp only [dcacheIntr, and_eq_true] at hintr
      simp [dcacheMiss, hintr.2, hinv.stage1En_of_idle (henv.error hintr.1).2]

include henv hinv hrst in
theorem Inv.step_flush (hflush : flush t.ls i = true) : Inv b (t.step b i) := by
  have hw : (t.step b i).waiting = false := by simp [Tracked.step, hflush]
  have hdc : (t.step b i).ls.r1.req.dcReq = false := by
    simp [Tracked.step, LoadStore.step, hrst, r1in, hflush]
  have hen : (t.step b i).ls.r3.stage1En = true := by
    simp only [Tracked.step, LoadStore.step, hrst, false_eq_true, if_false]
    exact stage1En_of_flush henv hinv hflush
  have hmmu : (t.step b i).ls.r2.waitMmu = true → (t.step b i).ls.r2.busy = true := by
    simp only [Tracked.step, LoadStore.step, hrst, false_eq_true, if_false]
    exact r2in_waitMmu hinv.waitMmu
  have hbusy : (t.step b i).ls.r1.busy = false ∧ (t.step b i).ls.r1.issued = false := by
    simp [Tracked.step, LoadStore.step, hrst, r1in, hflush]
  exact ⟨by simp [hdc], by simp [hw], hmmu, by simp [hen], by simp [hbusy], by simp [hdc],
    by simp [hw], by simp [hw], by simp [hw], by simp [hdc]⟩

section

include henv hinv hrst hflush

/-- A request that is still waiting after a step is the one taken over just now, or the one that
was waiting before. -/
theorem waiting_cases (hw : (t.step b i).waiting = true) :
    (takes t.ls i = true ∧ t.ls.r1.req.valid = true ∧ t.ls.r1.req.dcReq = true ∧
        t.ls.r1.req.mmuOp = false ∧ (t.step b i).op2 = t.op1 ∧
        (t.step b i).ls.r2.req = takenReq t.ls ∧
        (t.step b i).ls.r2.control =
          loadControl (t.ls.r1.addr0.extractLsb' 0 3) t.ls.r1.req.brevMask) ∨
      (takes t.ls i = false ∧ t.waiting = true ∧ i.d.valid = false ∧ (t.step b i).op2 = t.op2 ∧
        (t.step b i).ls.r2.req = t.ls.r2.req ∧ (t.step b i).ls.r2.control = t.ls.r2.control) := by
  have hintr := interrupt2_of_not_flush hflush
  have hr2 := t.r2_step b hrst
  cases ht : takes t.ls i with
  | true =>
    have hwait := hinv.waitMmu_of_advance (advance_of_takes ht)
    simp only [Tracked.step, hrst, hflush, ht, Bool.or_self, false_eq_true, if_false, if_true,
      and_eq_true, not_eq_true'] at hw
    refine .inl ⟨rfl, hw.1.1, hw.1.2, hw.2, by simp [Tracked.step, ht], ?_, ?_⟩
    · rw [hr2, r2in_req_of_takes ht hintr hwait]
    · simp [hr2, r2in, ht]
  | false =>
    simp only [Tracked.step, hrst, hflush, ht, Bool.or_self, false_eq_true, if_false,
      and_eq_true, not_eq_true'] at hw
    have hadv : advance t.ls i = false := by
      rcases henv.stall hw.1 with hv | ha
      · rw [hw.2] at hv; cases hv
      · exact ha
    refine .inr ⟨rfl, hw.1, hw.2, by simp [Tracked.step, ht], ?_, by simp [hr2, r2in, ht]⟩
    rw [hr2, r2in_req_of_not_advance hadv hintr (hinv.align2 hw.1).2]

/-- The repair of a miss goes on until the MMU answers. -/
theorem Inv.step_retry (hen : (t.step b i).ls.r3.stage1En = false) :
    (t.step b i).waiting = true ∧ (t.step b i).ls.r2.waitMmu = true ∧
      (t.step b i).ls.r3.state = .mmuWait := by
  have hintr := interrupt2_of_not_flush hflush
  have hr2 := t.r2_step b hrst
  have hr3 := t.r3_step b hrst
  rw [hr2, hr3]
  rw [hr3] at hen
  cases hm : i.m.done || i.m.err with
  | true => simp [r3in, hm] at hen
  | false =>
    have hdone : i.m.done = false := (or_eq_false_iff.mp hm).1
    cases hmiss : dcacheMiss t.ls i with
    | true =>
      have herr : i.d.error = true := by
        simp only [dcacheMiss, and_eq_true] at hmiss; exact hmiss.1
      have hnv : i.d.valid = false := by
        cases hv : i.d.valid with
        | false => rfl
        | true => rw [(henv.answer hv).2.1] at herr; cases herr
      have ht : takes t.ls i = false := by simp [takes, advance, herr]
      refine ⟨?_, by simp [r2in, hintr, herr], by simp [r3in, hm, hmiss]⟩
      simp [Tracked.step, hrst, hflush, ht, (henv.error herr).1, hnv]
    | false =>
      have hen0 : t.ls.r3.stage1En = false := by simpa [r3in, hm, hmiss] using hen
      obtain ⟨hw, hwait, hst⟩ := hinv.retry hen0
      obtain ⟨hnv, hne⟩ := henv.no_answer_of_mmuWait hst
      have hadv : advance t.ls i = false := by simp [advance, hinv.waitMmu hwait]
      have ht : takes t.ls i = false := by simp [takes, hadv]
      have hbub : bubble t.ls i = false := by simp [bubble, hadv]
      refine ⟨by simp [Tracked.step, hrst, hflush, ht, hw, hnv], ?_, ?_⟩
      · simp [r2in, hintr, hne, hdone, ht, hwait, hbub]
      · simp [r3in, hm, hmiss, mmuOpStart, hst]

omit henv hinv in
/-- The first part waits for the data cache once it has moved on to stage 2. -/
theorem waiting_of_moved (ht : takes t.ls i = true) (hreq : t.ls.r1.req = t.op1.request b)
    (hdc : t.ls.r1.req.dcReq = true) (hplain : t.op1.Plain) : (t.step b i).waiting = true := by
  have hvalid : t.ls.r1.req.valid = true := by
    rw [hreq]
    exact (Op.request_dcReq (hreq ▸ hdc)).1
  have hmmu : t.ls.r1.req.mmuOp = false := by
    rw [hreq]
    exact hplain.request.1
  simp [Tracked.step, hrst, hflush, ht, hvalid, hdc, hmmu]

/-- What is kept of the first part until the second one is done. `P` says it before the step and
`Q` after it. -/
theorem kept_step {P Q : Op → Prop}
    (hsecond : t.waiting = true → t.op2.Plain → t.ls.r2.req.dwordIndex = true → P t.op2)
    (hnext : t.ls.r1.req.dcReq = true → t.op1.Plain → t.ls.r1.req.dwordIndex = true →
      t.waiting = false → P t.op1)
    (hstay : t.waiting = true → i.d.valid = false → takes t.ls i = false → P t.op2 → Q t.op2)
    (hkept : t.op2.Plain →
      (t.waiting = true → i.d.valid = true ∧ t.ls.r2.req.dwordIndex = false) →
      (t.waiting = false → P t.op2) → (takes t.ls i && !t.ls.r1.req.dwordIndex) = false →
      Q t.op2) :
    ((t.step b i).waiting = true → (t.step b i).op2.Plain →
        (t.step b i).ls.r2.req.dwordIndex = true → Q (t.step b i).op2) ∧
      ((t.step b i).ls.r1.req.dcReq = true → (t.step b i).op1.Plain →
        (t.step b i).ls.r1.req.dwordIndex = true → (t.step b i).waiting = false →
        Q (t.step b i).op1) := by
  constructor
  · intro hw hplain hidx
    rcases waiting_cases henv hinv hrst hflush hw with ⟨ht, -, hdc, -, hop, hreq, -⟩ |
      ⟨ht, hw0, hnv, hop, hreq, -⟩
    · -- the second part has just been taken over
      rw [hop] at hplain ⊢
      have hidx0 : t.ls.r1.req.dwordIndex = true := by rw [hreq] at hidx; exact hidx
      obtain ⟨hop2, hfirst, -⟩ := hinv.next hdc hplain hidx0
      rw [← hop2] at hplain ⊢
      refine hkept hplain (fun hw0 => ⟨?_, hfirst hw0⟩) (fun hw0 => ?_) (by simp [hidx0])
      · rcases henv.stall hw0 with hv | ha
        · exact hv
        · rw [advance_of_takes ht] at ha; cases ha
      · rw [hop2] at hplain ⊢
        exact hnext hdc hplain hidx0 hw0
    · rw [hop] at hplain ⊢
      rw [hreq] at hidx
      exact hstay hw0 hnv ht (hsecond hw0 hplain hidx)
  · intro hdc hplain hidx hw
    rw [t.r1_step b hrst] at hdc hidx
    rcases stage1_cases henv hflush hinv hdc hplain with ⟨hreq, hop, ht, -⟩ | ⟨-, hreq, -⟩ |
      ⟨ht, hreq0, hdc0, -, hop, -, -⟩
    · -- the second part stays in stage 1
      rw [hreq] at hdc hidx
      rw [hop] at hplain ⊢
      obtain ⟨hop2, hfirst, -⟩ := hinv.next hdc hplain hidx
      have hwstep : (t.step b i).waiting = (t.waiting && !i.d.valid) := by
        simp [Tracked.step, hrst, hflush, ht]
      rw [← hop2] at hplain ⊢
      refine hkept hplain (fun hw0 => ⟨?_, hfirst hw0⟩) (fun hw0 => ?_) (by simp [ht])
      · rw [hwstep, hw0] at hw
        simpa using hw
      · rw [hop2] at hplain ⊢
        exact hnext hdc hplain hidx hw0
    · -- a new instruction starts with its first part
      rw [hreq] at hidx
      cases hidx
    · -- the first part has just moved on, and waits
      rw [waiting_of_moved hrst hflush ht hreq0 hdc0 (hop ▸ hplain)] at hw
      cases hw

theorem Inv.step_run : Inv b (t.step b i) := by
  have hr1 := t.r1_step b hrst
  have hr2 := t.r2_step b hrst
  -- the answer to the first part is kept until the second one is done
  have hkept := kept_step henv hinv hrst hflush (P := t.Captured b) (Q := (t.step b i).Captured b)
    hinv.second (fun hdc hplain hidx => (hinv.next hdc hplain hidx).2.2)
    (fun _ hnv ht ⟨d, hd, hperm⟩ => ⟨d, by simp [Tracked.step, ht, hnv, hd], by
      simpa [Tracked.step, LoadStore.step, hrst, r3in, hnv] using hperm⟩)
    fun hplain hdone hcapt hkeep => captured_step henv hinv hrst hplain (fun hw => (hdone hw).1)
      (fun hw => (hdone hw).2) hcapt hkeep
  refine ⟨?_, fun hw => ?_, ?_, hinv.step_retry henv hrst hflush,
    hr1 ▸ hinv.step_incomplete henv hflush, fun hdc hplain => ?_, fun hw hplain => ?_,
    fun hw hidx => ?_, hkept.1, fun hdc hplain hidx => ?_⟩
  · rw [hr1]; exact hinv.step_align1
  · -- align2
    rcases waiting_cases henv hinv hrst hflush hw with ⟨-, -, hdc, hmmu, -, hreq, -⟩ |
      ⟨-, hw0, -, -, hreq, -⟩
    · rw [hreq]
      exact ⟨hinv.align1 hdc, hmmu⟩
    · rw [hreq]
      exact hinv.align2 hw0
  · rw [hr2]; exact r2in_waitMmu hinv.waitMmu
  · -- hold1
    rw [hr1] at hdc ⊢
    rcases stage1_cases henv hflush hinv hdc hplain with ⟨hreq, hop, -, haddr⟩ |
      ⟨-, hreq, haddr⟩ | ⟨-, -, hdc0, htwo, hop, hreq, haddr⟩
    · rw [hreq] at hdc ⊢
      rw [hop] at hplain ⊢
      rw [haddr]
      exact hinv.hold1 hdc hplain
    · exact ⟨.inl hreq, haddr⟩
    · rw [hop] at hplain ⊢
      rw [haddr, hreq]
      exact ⟨.inr ⟨rfl, htwo⟩, (hinv.hold1 hdc0 hplain).2⟩
  · -- hold2
    rcases waiting_cases henv hinv hrst hflush hw with ⟨-, -, hdc, hmmu, hop, hreq, hctl⟩ |
      ⟨-, hw0, -, hop, hreq, hctl⟩
    · rw [hop] at hplain ⊢
      obtain ⟨hpart, haddr⟩ := hinv.hold1 hdc hplain
      have hmask := hpart.fields.2.2.2.2.2.2.2.2.2.2.1
      refine ⟨?_, t.ls.r1.req, hpart, hdc, ?_⟩
      · rw [hctl, haddr, hmask]
        rfl
      · rw [hreq]
        simp [takenReq, storeData_eq hpart haddr, hdc, hmmu]
    · rw [hop] at hplain ⊢
      rw [hctl, hreq]
      exact hinv.hold2 hw0 hplain
  · -- first
    rcases waiting_cases henv hinv hrst hflush hw with ⟨ht, -, -, -, -, hreq, -⟩ |
      ⟨ht, hw0, hnv, -, hreq, -⟩
    · have hidx0 : t.ls.r1.req.dwordIndex = false := by rw [hreq] at hidx; exact hidx
      simp [Tracked.step, ht, hidx0]
    · rw [hreq] at hidx
      simp [Tracked.step, ht, hnv, hinv.first hw0 hidx]
  · -- next
    have hthird := hkept.2 hdc hplain hidx
    rw [hr1] at hdc hidx
    rcases stage1_cases henv hflush hinv hdc hplain with ⟨hreq, hop, ht, -⟩ | ⟨-, hreq, -⟩ |
      ⟨ht, hreq0, -, -, hop, -, -⟩
    · -- the second part stays in stage 1
      rw [hreq] at hdc hidx
      obtain ⟨hop2, hfirst, -⟩ := hinv.next hdc (hop ▸ hplain) hidx
      have hr2idx : (t.step b i).ls.r2.req.dwordIndex = t.ls.r2.req.dwordIndex := by
        simp [hr2, r2in, nextReq2, ht]
      refine ⟨by rw [hop]; simpa [Tracked.step, ht] using hop2, fun hw => ?_, hthird⟩
      simp only [Tracked.step, hrst, hflush, ht, Bool.or_self, false_eq_true, if_false,
        and_eq_true] at hw
      rw [hr2idx]
      exact hfirst hw.1
    · -- a new instruction starts with its first part
      rw [hreq] at hidx
      cases hidx
    · -- the first part has just moved on
      have hr2idx : (t.step b i).ls.r2.req.dwordIndex = t.ls.r1.req.dwordIndex := by
        simp [hr2, r2in, nextReq2, ht, takenReq]
      refine ⟨by rw [hop]; simp [Tracked.step, ht], fun _ => ?_, hthird⟩
      rw [hr2idx, hreq0]
      rfl

end

theorem Inv.step (hinv : Inv b t) (henv : Env t i) : Inv b (t.step b i) := by
  cases hrst : i.rst with
  | true => exact Inv.of_reset ⟨t.ls, i, hrst, rfl⟩ (by simp [Tracked.step, hrst])
  | false =>
    cases hflush : flush t.ls i with
    | true => exact hinv.step_flush henv hrst hflush
    | false => exact hinv.step_run henv hrst hflush

end Step

/-! ### Requests and results -/

/-- The instruction whose request is on the port to the data cache. -/
def Tracked.sentOp (t : Tracked) (i : Inputs) : Op :=
  if t.ls.r3.stage1En then if t.ls.r1.busy then t.op1 else t.ls.presented i else t.op2

/-- Requests of ordinary accesses are for their doublewords, and the data follows one cycle
later. -/
theorem Inv.request_sent (hinv : Inv b t) (henv : Env t i) (hrst : i.rst = false)
    (hvalid : (dOut b t.ls i).valid = true) (hplain : (t.sentOp i).Plain) :
    ∃ w ∈ (t.sentOp i).doublewords b, (dOut b t.ls i).addr = w.addr ∧
      (dOut b t.ls i).byteSel = w.sel ∧ ∀ i', (dOut b (t.step b i).ls i').data = w.data := by
  cases hen : t.ls.r3.stage1En with
  | true =>
    simp only [dOut, hen, if_true] at hvalid
    simp only [Tracked.sentOp, hen, if_true] at hplain ⊢
    obtain ⟨hflush, hadv, -, hissue⟩ := issue_of_stage1Dcreq hvalid
    have hop : (t.step b i).op1 = if t.ls.r1.busy then t.op1 else t.ls.presented i := by
      cases hb : t.ls.r1.busy with
      | true => simp [Tracked.step, hb]
      | false =>
        have hlv : i.l.valid = true := by
          simp only [issue, hb, Bool.not_false, if_true, and_eq_true] at hissue
          exact hissue.1
        simp [Tracked.step, hb, hlv]
    rw [← hop] at hplain ⊢
    have hr1 := t.r1_step b hrst
    have hreq : (t.step b i).ls.r1.req = nextReq1 b t.ls i := by
      rw [hr1, r1in_req_of_advance hflush hadv]
    have hdc : (t.step b i).ls.r1.req.dcReq = true := by
      rw [hreq, nextReq1_dcReq]
      rcases stage1Req_of_issue hissue with hdc | ⟨hb, hinc, hdc, -⟩
      · exact hdc
      · rw [hinv.incomplete (by simp [hb]) (by simpa [hop, hb] using hplain) hinc] at hdc
        cases hdc
    obtain ⟨hpart, haddr⟩ := (hinv.step henv).hold1 hdc hplain
    have hstage : nextReq1 b t.ls i = stage1Req b t.ls i := (hreq ▸ hpart).nextReq1_eq hplain
    refine ⟨_, hpart.mem_doublewords, ?_, ?_, fun i' => ?_⟩
    · simp only [dOut, dOutReq, hen, if_true, hreq, hstage]
    · simp only [dOut, dOutReq, hen, if_true, hreq, hstage]
    · have hdreq : (t.step b i).ls.stage1Dreq = true := hvalid
      simp only [dOut, hdreq, if_true]
      exact storeData_eq hpart haddr
  | false =>
    obtain ⟨hw, hwait, -⟩ := hinv.retry hen
    have hadv : advance t.ls i = false := by simp [advance, hinv.waitMmu hwait]
    have ht : takes t.ls i = false := by simp [takes, hadv]
    simp only [Tracked.sentOp, hen, false_eq_true, if_false] at hplain ⊢
    obtain ⟨-, q, hq, -, hr2⟩ := hinv.hold2 hw hplain
    refine ⟨_, hq.mem_doublewords, ?_, ?_, fun i' => ?_⟩
    · simp only [dOut, dOutReq, hen, false_eq_true, if_false]
      rw [hr2]
    · simp only [dOut, dOutReq, hen, false_eq_true, if_false]
      rw [hr2]
    · have hdreq : (t.step b i).ls.stage1Dreq = false := by
        simp [Tracked.step, LoadStore.step, stage1Dcreq, hadv]
      have hdata : (t.step b i).ls.r2.req.storeData = t.ls.r2.req.storeData := by
        simp [Tracked.step, LoadStore.step, hrst, r2in, nextReq2, ht]
      simp only [dOut, hdreq, false_eq_true, if_false]
      rw [hdata, hr2]

/-- The last answer completes the access: every doubleword has been answered, and a load has its
value. -/
theorem Inv.access_done (hinv : Inv b t) (henv : Env t i) (hvalid : i.d.valid = true)
    (hplain : t.op2.Plain) (hlast : t.ls.r2.req.incomplete = false) :
    (t.answers ++ [i.d.data]).length = (t.op2.doublewords b).length ∧
      ((t.op2.request b).load = true → ∀ mem : Memory,
        (∀ p ∈ (t.op2.doublewords b).zip (t.answers ++ [i.d.data]),
          dwordAt mem p.1.addr = p.2) →
        dataTrimmed t.ls i = loadValue mem t.op2) := by
  have hw := (henv.answer hvalid).1
  obtain ⟨hctl, q, hq, hqdc, hr2⟩ := hinv.hold2 hw hplain
  obtain ⟨-, -, -, -, -, -, -, hlen, hbrev, hsext, -, -⟩ := hq.fields
  have htrim : dataTrimmed t.ls i = trimData t.op2.l.length t.op2.l.byteReverse t.op2.l.signExtend
      q.dwordIndex t.op2.control t.ls.r3.loadData (permute t.op2.control i.d.data) := by
    rw [dataTrimmed, dataPermuted, hctl, hr2, ← hlen, ← hbrev, ← hsext]
  have hinc : q.incomplete = false := by rw [hr2] at hlast; exact hlast
  have hidx2 : t.ls.r2.req.dwordIndex = q.dwordIndex := by rw [hr2]
  rcases hq.dwordIndex hqdc with ⟨hidx, hqeq, htwo⟩ | ⟨hidx, hqeq, -, htwo⟩
  · -- one doubleword
    rw [hinc] at htwo
    have hans : t.answers = [] := hinv.first hw (by rw [hidx2, hidx])
    have hdw : t.op2.doublewords b =
        [⟨t.op2.ea, (t.op2.request b).byteSel, t.op2.dataOut b⟩] := by
      simp only [Op.doublewords, ← htwo, false_eq_true, if_false]
      rfl
    refine ⟨by simp [hans, hdw], fun _ mem hmem => ?_⟩
    rw [hdw, hans] at hmem
    have hd : dwordAt mem t.op2.ea = i.d.data := by simpa using hmem
    rw [htrim, hidx, ← hd]
    exact (Op.load_correct b hplain mem _).1 htwo.symm
  · -- two doublewords
    obtain ⟨d, hd, hperm⟩ := hinv.second hw hplain (by rw [hidx2, hidx])
    have hdw : t.op2.doublewords b =
        [⟨t.op2.ea, (t.op2.request b).byteSel, t.op2.dataOut b⟩,
          ⟨t.op2.secondAddr b, (secondRequest (t.op2.request b)).byteSel, t.op2.dataOut b⟩] := by
      simp only [Op.doublewords, htwo, if_true]
      rfl
    refine ⟨by simp [hd, hdw], fun hld mem hmem => ?_⟩
    rw [hdw, hd] at hmem
    have hboth : dwordAt mem t.op2.ea = d ∧ dwordAt mem (t.op2.secondAddr b) = i.d.data := by
      simpa using hmem
    rw [htrim, hidx, hperm hld, ← hboth.1, ← hboth.2]
    exact (Op.load_correct b hplain mem 0).2 htwo

/-- The unit just after a reset. -/
def bootState : Tracked where
  ls := step true {} { rst := true }
  op1 := ⟨{}, 0⟩
  op2 := ⟨{}, 0⟩
  waiting := false
  answers := []

/-- A memory to read from. -/
def sampleMemory : Memory := fun a => a.extractLsb' 0 8 + 0x80

/-- The answer of the data cache for the doubleword at `addr`. -/
def answerFor (addr : BitVec 64) : Inputs where
  d := { valid := true, data := dwordAt sampleMemory addr }

end LoadStore

end Microwatt
