import Microwatt.LoadStore.Occupancy

/-!
# The port to the data cache

Loadstore1 does not count the requests it has sent. It takes the next answer of the data cache to be
the answer to what is in stage 2, which is right as long as requests go through its stages in step
with the two stages of the data cache: a request is in the first stage of the data cache while it is
in stage 1, and in the second while it is in stage 2. A request that is sent again after a TLB miss
is the exception; it stays in stage 2 and makes it busy for the cycle in which it is in the first
stage of the data cache.

There is one flaw. `hashchk` makes stage 2 busy until its answer has been compared, but it does not
make stage 1 busy once it has been issued. The next request is then sent while stage 2 cannot take
it over, and its answer comes too early.

The data cache is represented here by its port alone: it serves one request, answers it or reports
an error at some time, stalls loadstore1 until then, and drops the request behind one that is in
error. It stalls also on behalf of the MMU, to which loadstore1 then listens.

## Main definitions

* `LoadStore.Request.Shaped` — the kinds of requests
* `LoadStore.Port`, `LoadStore.PortEnv` — the data cache and what it keeps to
* `LoadStore.HashAlone` — nothing is sent behind a `hashchk`

## Main results

* `LoadStore.PortInv.env`, `LoadStore.PortInv.step`
-/

namespace Microwatt

open Bool (and_eq_true false_eq_true not_eq_false not_eq_true not_eq_true' or_eq_true)

namespace LoadStore

variable {b : Bool}

/-! ### Kinds of requests -/

/-- What decode2 gives to loadstore1. The fields of the DEXCR that would disable hash instructions
are constants. -/
@[mk_iff] structure Formed (l : Execute1ToLoadstore1) : Prop where
  mmu : l.op = .mtspr ∨ l.op = .tlbie ∨ l.op = .fetchFailed → l.reserve = false ∧ l.hash = false
  tlbie : l.op = .tlbie → l.length = 0
  hash : l.hash = true → l.op = .load ∨ l.op = .store →
    l.length = 8 ∧ l.is32bit = false ∧ l.update = false
  enabled : l.hashEnable = true

instance (l : Execute1ToLoadstore1) : Decidable (Formed l) :=
  decidable_of_iff _ (formed_iff ..).symm

/-- The request is the last one of its instruction. The load of a single takes one more cycle, for
the conversion. -/
def Request.last (q : Request) : Bool := !q.incomplete && !(q.loadSp && q.dcReq)

/-- How the fields of a request go together. -/
structure Request.Shaped (q : Request) : Prop where
  incomplete : q.incomplete = true → q.dcReq = true
  aligned : q.dcReq = true → q.alignIntr = false
  mmuOp : q.mmuOp = true →
    q.incomplete = false ∧ q.loadSp = false ∧ (q.hashst || q.hashcmp) = false ∧ q.alignIntr = false
  /-- Of the operations of the MMU `tlbie` has a request, a probe of the TLB. -/
  probe : q.mmuOp = true → q.dcReq = true → q.tlbie = true
  tlbie : q.tlbie = true → q.mmuOp = true
  hash : (q.hashst || q.hashcmp) = true →
    q.incomplete = false ∧ q.loadSp = false ∧ (q.dcReq = true ∨ q.alignIntr = true)
  single : q.loadSp = true → q.store = false
  spr : (q.readSpr || q.doUpdate) = true → q.dcReq = false

theorem xferDataSel_aligned (a : BitVec 3) (h : (7 : BitVec 3) &&& a = 0) :
    (xferDataSel 8 a).extractLsb' 8 8 = 0 := by
  revert a
  decide

theorem xferDataSel_zero (a : BitVec 3) : (xferDataSel 0 a).extractLsb' 8 8 = 0 := by
  revert a
  decide

theorem not_misaligned {l : Execute1ToLoadstore1} {addr : BitVec 64} (hlen : l.length = 8)
    (h : misaligned l addr = false) : (7 : BitVec 3) &&& addr.extractLsb' 0 3 = 0 := by
  simp only [misaligned, hlen] at h
  split at h
  · cases h
  · simpa using h

/-- Requests are made in one of these shapes. -/
theorem shaped_loadstore1In {l : Execute1ToLoadstore1} (hl : Formed l) (hv : l.valid = true)
    (a : BitVec 64) : (loadstore1In b l a).Shaped := by
  have hnop : hashNop l = false := by simp [hashNop, hl.enabled]
  constructor
  · intro h
    simp only [loadstore1In, and_eq_true] at h ⊢
    exact h.1
  · intro h
    simp only [loadstore1In, and_eq_true, not_eq_true'] at h ⊢
    exact h.1.2
  · intro h
    have hop : l.op = .mtspr ∨ l.op = .tlbie ∨ l.op = .fetchFailed := by
      simp only [loadstore1In, or_eq_true, beq_iff_eq, and_eq_true] at h
      tauto
    obtain ⟨hres, hhash⟩ := hl.mmu hop
    have hal : alignIntrOf l (effectiveAddr l a) = false := by
      rcases hop with hk | hk | hk <;> simp [alignIntrOf, hres, hhash, hk]
    refine ⟨?_, ?_, ?_, hal⟩
    · rcases hop with hk | hk | hk
      · simp [loadstore1In, hk]
      · simp only [loadstore1In, hl.tlbie hk, xferDataSel_zero]
        simp
      · simp [loadstore1In, hk]
    all_goals rcases hop with hk | hk | hk <;> simp [loadstore1In, hk]
  · intro h hdc
    simp only [loadstore1In, or_eq_true, beq_iff_eq, and_eq_true] at h hdc ⊢
    rcases h with (h | h) | h
    · exact h
    · simp [h] at hdc
    · simp [h.1] at hdc
  · intro h
    simp only [loadstore1In, beq_iff_eq] at h
    simp [loadstore1In, h]
  · intro h
    have hop : (l.op = .load ∨ l.op = .store) ∧ l.hash = true := by
      simp only [loadstore1In, or_eq_true, beq_iff_eq, and_eq_true] at h
      tauto
    obtain ⟨hlen, h32, hupd⟩ := hl.hash hop.2 hop.1
    refine ⟨?_, by simp [loadstore1In, h32], ?_⟩
    · by_contra hinc
      simp only [loadstore1In, and_eq_true, not_eq_true', not_eq_false,
        bne_iff_ne] at hinc
      obtain ⟨⟨⟨-, hal⟩, -⟩, htwo⟩ := hinc
      refine htwo ?_
      rw [hlen]
      refine xferDataSel_aligned _ (not_misaligned hlen ?_)
      by_contra hm
      simp [alignIntrOf, hop.2, hl.enabled, not_eq_false _ ▸ hm] at hal
    · cases hal : alignIntrOf l (effectiveAddr l a) with
      | true => exact .inr hal
      | false =>
        left
        rcases hop.1 with hk | hk <;> simp [loadstore1In, hk, hv, hal, hnop, hupd]
  · intro h
    simp only [loadstore1In, and_eq_true, beq_iff_eq] at h ⊢
    simp [h.1.1.1]
  · intro h
    simp only [loadstore1In, or_eq_true, beq_iff_eq, and_eq_true] at h
    rcases h with h | h
    · simp [loadstore1In, h]
    · obtain ⟨hop, hno⟩ := h
      obtain ⟨hu, hs⟩ : l.update = true ∧ l.second = true := by simpa [hop] using hno
      simp [loadstore1In, hop, hu, hs]

namespace Request.Shaped

variable {q : Request}

theorem exchange (h : q.Shaped) (addr data : BitVec 64) :
    ({ q with addr := addr, storeData := data } : Request).Shaped :=
  ⟨h.incomplete, h.aligned, h.mmuOp, h.probe, h.tlbie, h.hash, h.single, h.spr⟩

theorem setValid (h : q.Shaped) (v : Bool) : ({ q with valid := v } : Request).Shaped :=
  ⟨h.incomplete, h.aligned, h.mmuOp, h.probe, h.tlbie, h.hash, h.single, h.spr⟩

theorem second (h : q.Shaped) : (secondRequest q).Shaped where
  incomplete hi := by cases hi
  aligned := h.aligned
  mmuOp hm := ⟨rfl, (h.mmuOp hm).2⟩
  probe := h.probe
  tlbie := h.tlbie
  hash hh := ⟨rfl, (h.hash hh).2⟩
  single := h.single
  spr := h.spr

/-- The request of the cycle in which a single is converted. -/
theorem dummy (h : q.Shaped) (hs : q.loadSp = true) (hi : q.incomplete = false) (v : Bool) :
    ({ q with valid := v, dcReq := false } : Request).Shaped where
  incomplete hi' := by rw [hi] at hi'; cases hi'
  aligned hd := by cases hd
  mmuOp := h.mmuOp
  probe _ hd := by cases hd
  tlbie := h.tlbie
  hash hh := by
    have := (h.hash hh).2.1
    rw [hs] at this
    cases this
  single := h.single
  spr _ := rfl

theorem taken {s : State} (h : s.r1.req.Shaped) : (takenReq s).Shaped where
  incomplete hi := by
    have hi1 : s.r1.req.incomplete = true := hi
    have hm : s.r1.req.mmuOp = false := Flag.down (fun hm => (h.mmuOp hm).1) hi1
    simp [takenReq, h.incomplete hi1, hm]
  aligned hd := by
    simp only [takenReq, and_eq_true] at hd
    exact h.aligned hd.1
  mmuOp := h.mmuOp
  probe hm hd := by
    have hm' : s.r1.req.mmuOp = true := hm
    simp [takenReq, hm'] at hd
  tlbie := h.tlbie
  hash hh := by
    obtain ⟨hi, hs, hd⟩ := h.hash hh
    refine ⟨hi, hs, hd.imp_left fun hd => ?_⟩
    have hm : s.r1.req.mmuOp = false := by
      by_contra hm
      have hno := (h.mmuOp (by simpa using hm)).2.2.1
      have hh' : (s.r1.req.hashst || s.r1.req.hashcmp) = true := hh
      rw [hno] at hh'
      cases hh'
    simp [takenReq, hd, hm]
  single := h.single
  spr hs := by simp [takenReq, h.spr hs]

end Request.Shaped

theorem Request.Shaped.nextReq1 {s : State} {i : Inputs} (h : (stage1Req b s i).Shaped) :
    (nextReq1 b s i).Shaped := by
  simp only [LoadStore.nextReq1]
  split
  · exact h.exchange _ _
  · exact h

/-! ### The requests in the data cache -/

/-- The two stages of the data cache, as far as loadstore1 has a request in them. -/
structure Port where
  /-- A request has been sent and is in the first stage. -/
  sent : Bool := false
  /-- A request is in the second stage, and its answer is due. -/
  served : Bool := false
  deriving DecidableEq, Repr

/-- One clock edge. A probe of the TLB is not answered. -/
def Port.step (b : Bool) (p : Port) (s : State) (i : Inputs) : Port where
  sent :=
    if i.rst then false
    else if i.dcStall || i.l.e2stall then p.sent
    else (dOut b s i).valid && !(dOut b s i).tlbProbe
  served :=
    if i.rst then false
    else if i.dcStall then p.served
    else p.sent && !i.d.error && !i.l.e2stall

/-- What the data cache and the MMU keep to. -/
@[mk_iff] structure PortEnv (p : Port) (s : State) (i : Inputs) : Prop where
  /-- A request that is served is answered, with an error if need be, -/
  answer : i.d.valid = true → p.served = true ∧ i.d.error = false ∧ i.dcStall = false
  error : i.d.error = true → p.served = true ∧ i.dcStall = false
  /-- and until then the data cache stalls, as it does on behalf of the MMU. -/
  due : p.served = true → i.d.valid = true ∨ i.d.error = true ∨ i.dcStall = true
  stall : i.dcStall = true → p.served = true ∨ s.r3.state = .mmuWait
  /-- The MMU finishes only what it was asked, in one way or the other. -/
  mmu : (i.m.done || i.m.err) = true → s.r2.req.valid = true ∧ s.r3.state = .mmuWait
  done : i.m.done = true → i.m.err = false ∧ i.dcStall = false

instance (p : Port) (s : State) (i : Inputs) : Decidable (PortEnv p s i) :=
  decidable_of_iff _ (portEnv_iff ..).symm

/-- What execute1 keeps to. While the FPU holds up the second execute stage, loadstore1 has nothing
to do. -/
structure SendEnv (s : State) (i : Inputs) : Prop where
  issue : i.l.valid = true → busy s i = false
  formed : i.l.valid = true → Formed i.l
  hold : i.l.e2stall = true →
    i.l.valid = false ∧ s.r1.req.valid = false ∧ s.r2.req.valid = false

/-- An instruction in loadstore1 is not held up by the FPU. -/
theorem SendEnv.not_hold {s : State} {i : Inputs} (h : SendEnv s i)
    (hv : s.r1.req.valid = true ∨ s.r2.req.valid = true) : i.l.e2stall = false := by
  by_contra he
  obtain ⟨-, h1, h2⟩ := h.hold (by simpa using he)
  simp [h1, h2] at hv

theorem PortEnv.no_answer {p : Port} {s : State} {i : Inputs} (h : PortEnv p s i)
    (hs : p.served = false) : i.d.valid = false ∧ i.d.error = false := by
  constructor
  · exact Flag.down (fun hv => (h.answer hv).1) hs
  · exact Flag.down (fun he => (h.error he).1) hs

theorem PortEnv.no_answer_of_stall {p : Port} {s : State} {i : Inputs} (h : PortEnv p s i)
    (hst : i.dcStall = true) : i.d.valid = false ∧ i.d.error = false := by
  constructor
  · exact Flag.down (fun hv => (h.answer hv).2.2) hst
  · exact Flag.down (fun he => (h.error he).2) hst

/-- No request is sent while stage 1 holds a `hashchk` that has been issued. -/
def HashAlone (b : Bool) (s : State) (i : Inputs) : Prop :=
  stage1Dcreq b s i = true → (s.r1.req.hashcmp && s.r1.issued) = false

instance (s : State) (i : Inputs) : Decidable (HashAlone b s i) :=
  inferInstanceAs (Decidable (_ → _))

/-! ### The invariant -/

/-- Stage 2 holds a request that interrupts in this cycle. -/
def Doomed (s : State) : Prop := s.r2.req.valid = true ∧ s.r2.req.alignIntr = true

/-- The stages of loadstore1 and those of the data cache are in step. -/
structure PortInv (p : Port) (t : Tracked) : Prop where
  shape1 : t.ls.r1.req.valid = true →
    t.ls.r1.req.dawrIntr = false ∧ (t.ls.r1.req.Shaped ∨ Doomed t.ls)
  shape2 : t.ls.r2.req.valid = true → t.ls.r2.req.Shaped
  /-- Behind a request that interrupts nothing is sent. -/
  flushing : t.ls.flushing = true →
    (t.ls.r1.req.valid = true ∧ t.ls.r1.req.alignIntr = true) ∨ Doomed t.ls
  marked : t.ls.r1.req.valid = true → t.ls.r1.req.alignIntr = true → t.ls.flushing = true
  busy1 : t.ls.r1.busy = true → t.ls.r1.req.valid = true
  issued1 : t.ls.r1.issued = true → t.ls.r1.req.valid = true ∧ t.ls.r1.req.dcReq = true
  /-- Unless stage 1 is busy, it has nothing more to do for its instruction. -/
  free1 : t.ls.r1.req.valid = true → t.ls.r1.busy = false →
    (t.ls.r1.issued = true ∨ t.ls.r1.req.dcReq = false) ∧ t.ls.r1.req.mmuOp = false ∧
      (t.ls.r1.req.last = true ∨ Doomed t.ls)
  single1 : t.ls.r1.busy = true → t.ls.r1.req.loadSp = true → t.ls.r1.req.dcReq = true
  /-- While stage 2 is busy, nothing has been sent for stage 1. -/
  quiet : t.ls.r2.busy = true → t.ls.r1.issued = false
  waits : t.waiting = true → t.ls.r2.req.valid = true ∧ t.ls.r2.req.dcReq = true
  /-- What is served is in stage 2. -/
  served : p.served = true → t.waiting = true ∧ t.ls.r3.state = .idle ∧
    (t.ls.r2.busy = true → t.ls.r2.req.hashcmp = true)
  /-- What waits in stage 2 is served, or the MMU repairs a miss, or it has been sent again. -/
  owed : t.waiting = true → p.served = false →
    (t.ls.r3.state = .mmuWait ∧ t.ls.r3.stage1En = false ∧ p.sent = false) ∨
      (t.ls.r3.state = .idle ∧ p.sent = true ∧ t.ls.r2.busy = true ∧ t.ls.r2.waitMmu = false)
  sent : p.sent = true → (t.ls.r1.issued = true ∧ t.ls.r1.req.mmuOp = false) ∨
    (t.waiting = true ∧ p.served = false)
  issued : t.ls.r1.issued = true → t.ls.r1.req.mmuOp = false → p.sent = true

section Step

variable {p : Port} {t : Tracked} {i : Inputs}

theorem PortInv.init (h : t.Init b) : PortInv {} t := by
  obtain ⟨⟨s, i, hrst, hls⟩, hw, -⟩ := h
  have h1 : t.ls.r1.req.valid = false := by simp [hls, LoadStore.step, hrst, Stage1.reset]
  have h2 : t.ls.r2.req.valid = false := by simp [hls, LoadStore.step, hrst, Stage2.reset]
  have h3 : t.ls.r1.busy = false ∧ t.ls.r1.issued = false := by
    simp [hls, LoadStore.step, hrst, Stage1.reset]
  have h4 : t.ls.flushing = false := by simp [hls, LoadStore.step, hrst]
  constructor <;> simp [h1, h2, h3, h4, hw]

theorem PortInv.reset (hrst : i.rst = true) : PortInv (p.step b t.ls i) (t.step b i) := by
  constructor <;>
    simp [Port.step, Tracked.step, LoadStore.step, hrst, Stage1.reset, Stage2.reset, Stage3.reset]

theorem not_doomed {s : State} (hflush : flush s i = false) : ¬Doomed s := by
  rintro ⟨hv, ha⟩
  simp [flush, hv, ha] at hflush

variable (h : PortInv p t) (hhash : HashAlone b t.ls i) (hinv : Inv b t) (hslow : Slow t)
  (henv : PortEnv p t.ls i) (hsend : SendEnv t.ls i) (hrst : i.rst = false)
  (hflush : flush t.ls i = false)

include h hflush in
theorem PortInv.shaped (hv : t.ls.r1.req.valid = true) : t.ls.r1.req.Shaped :=
  (h.shape1 hv).2.resolve_right (not_doomed hflush)

/-! ### What the data cache promises loadstore1 -/

theorem PortInv.busy_of_owed (h : PortInv p t) (hslow : Slow t) (hw : t.waiting = true)
    (hs : p.served = false) : t.ls.r2.busy = true := by
  rcases h.owed hw hs with ⟨hm, -⟩ | ⟨-, -, hb, -⟩
  · exact (hslow.mmuWait hm).1
  · exact hb

/-- **Answers are for what is in stage 2.** -/
theorem PortInv.env (h : PortInv p t) (hslow : Slow t) (henv : PortEnv p t.ls i)
    (hsend : SendEnv t.ls i) : Env t i where
  issue := hsend.issue
  hold he := (hsend.hold he).2.1
  answer hv := by
    obtain ⟨hs, he, -⟩ := henv.answer hv
    exact ⟨(h.served hs).1, he, (h.served hs).2.1⟩
  error he := by
    have hs := (henv.error he).1
    exact ⟨(h.served hs).1, (h.served hs).2.1⟩
  stall hw := by
    cases hs : p.served with
    | true =>
      rcases henv.due hs with hv | he | hst
      · exact .inl hv
      · exact .inr (by simp [advance, he])
      · exact .inr (by simp [advance, hst])
    | false => exact .inr (by simp [advance, h.busy_of_owed hslow hw hs])
  mmu := henv.mmu

/-! ### Stage 1 -/

include h hsend hflush in
/-- What stage 1 turns to when it moves. Behind a request that interrupts it may be anything. -/
theorem PortInv.shape_stage1Req (hv : (stage1Req b t.ls i).valid = true) :
    (stage1Req b t.ls i).dawrIntr = false ∧ ((stage1Req b t.ls i).Shaped ∨
      (t.ls.r1.busy = false ∧ t.ls.flushing = true ∧ (stage1Req b t.ls i).dcReq = false ∧
        ((stage1Req b t.ls i).mmuOp = true → (stage1Req b t.ls i).loadSp = false))) := by
  cases hb : t.ls.r1.busy with
  | false =>
    rw [stage1Req_of_free b t.ls i hb] at hv ⊢
    have hlv : i.l.valid = true := hv
    have hs : (reqIn b t.ls i).Shaped := shaped_loadstore1In (hsend.formed hlv) hlv _
    refine ⟨rfl, ?_⟩
    cases hf : t.ls.flushing with
    | true => exact .inr ⟨rfl, rfl, by simp, fun hm => (hs.mmuOp hm).2.1⟩
    | false =>
      left
      simpa using hs.setValid i.l.valid
  | true =>
    obtain ⟨hdawr, hs⟩ := h.shape1 (h.busy1 hb)
    have hs := hs.resolve_right (not_doomed hflush)
    rcases stage1Req_of_busy b t.ls i hb with ⟨-, hr⟩ | ⟨-, -, hr⟩ | ⟨-, hinc, hr⟩ <;>
      rw [hr] at hv ⊢
    · exact ⟨hdawr, .inl hs⟩
    · exact ⟨hdawr, .inl hs.second⟩
    · exact ⟨hdawr, .inl (hs.dummy (Bool.and_eq_true_iff.mp hv).1 hinc _)⟩

include h hflush in
theorem PortInv.dcReq_of_issue (hi : issue b t.ls i = true) :
    (stage1Req b t.ls i).valid = true ∧ (stage1Req b t.ls i).dcReq = true := by
  cases hb : t.ls.r1.busy with
  | false =>
    simp only [issue, hb, Bool.not_false, if_true, and_eq_true] at hi
    exact ⟨by simpa [stage1Req, hb] using hi.1, hi.2⟩
  | true =>
    have hv := h.busy1 hb
    have hs := h.shaped hflush hv
    simp only [issue, hb, Bool.not_true, false_eq_true, if_false, or_eq_true] at hi
    simp only [stage1Req, hb, Bool.not_true, false_eq_true, if_false]
    split
    · next hc => exact ⟨hv, (Bool.and_eq_true_iff.mp hc).1⟩
    · next hc =>
      have hinc := hi.resolve_left hc
      rw [if_pos hinc]
      exact ⟨hv, hs.incomplete hinc⟩

theorem issue_of_issueFinal {s : State} (hi : issueFinal b s i = true) : issue b s i = true := by
  simp only [issueFinal] at hi
  split at hi
  · next hh =>
    simp only [hashIssue, and_eq_true] at hh
    exact hh.1
  · exact hi

include h hflush in
theorem PortInv.step_issued1 (hi : (r1in b t.ls i).issued = true) :
    (r1in b t.ls i).req.valid = true ∧ (r1in b t.ls i).req.dcReq = true := by
  cases hadv : advance t.ls i with
  | false =>
    simp only [r1in, hflush, hadv, false_eq_true, if_false] at hi ⊢
    split at hi
    · cases hi
    · exact h.issued1 hi
  | true =>
    simp only [r1in, hflush, hadv, false_eq_true, if_false, if_true] at hi ⊢
    rw [(nextReq1_decided t.ls).1, nextReq1_dcReq]
    exact h.dcReq_of_issue hflush (issue_of_issueFinal hi)

include h hflush in
theorem PortInv.step_busy1 (hb : (r1in b t.ls i).busy = true) :
    (r1in b t.ls i).req.valid = true := by
  cases hadv : advance t.ls i with
  | false =>
    simp only [r1in, hflush, hadv, false_eq_true, if_false] at hb ⊢
    split at hb
    · next hc => exact (h.issued1 (Bool.and_eq_true_iff.mp hc).1).1
    · exact h.busy1 hb
  | true =>
    simp only [r1in, hflush, hadv, false_eq_true, if_false, if_true] at hb ⊢
    rw [(nextReq1_decided t.ls).1]
    split at hb
    · next hh =>
      simp only [hashIssue, and_eq_true] at hh
      exact (h.dcReq_of_issue hflush hh.1).1
    · simp only [or_eq_true, and_eq_true] at hb
      rcases hb with hb | hb
      · exact (h.dcReq_of_issue hflush hb.1).1
      · exact hb.1

/-- A request that is not sent now has none to send. -/
theorem dcReq_of_not_issue {s : State} (hv : (stage1Req b s i).valid = true)
    (hi : issue b s i = false) : (stage1Req b s i).dcReq = false := by
  cases hb : s.r1.busy with
  | false =>
    have hlv : i.l.valid = true := by simpa [stage1Req, hb] using hv
    simpa [issue, hb, hlv] using hi
  | true =>
    simp only [issue, hb, Bool.not_true, false_eq_true, if_false, Bool.or_eq_false_iff] at hi
    simp [stage1Req, hb, hi.1, hi.2]

section Advance

include h hinv hsend hflush

/-- A request that interrupts goes on to stage 2 when stage 1 moves. -/
theorem PortInv.doomed_step (hadv : advance t.ls i = true) (hf : t.ls.flushing = true) :
    (r2in t.ls i).req.valid = true ∧ (r2in t.ls i).req.alignIntr = true := by
  obtain ⟨hv, ha⟩ := (h.flushing hf).resolve_right (not_doomed hflush)
  have hdc : t.ls.r1.req.dcReq = false := Flag.down hinv.align1 ha
  have ht : takes t.ls i = true := by simp [takes, hadv, hsend.not_hold (.inl hv), hdc]
  rw [r2in_req_of_takes ht (interrupt2_of_not_flush hflush) (hinv.waitMmu_of_advance hadv)]
  exact ⟨hv, ha⟩

theorem PortInv.step_shape1 (hv : (r1in b t.ls i).req.valid = true) :
    (r1in b t.ls i).req.dawrIntr = false ∧ ((r1in b t.ls i).req.Shaped ∨
      ((r2in t.ls i).req.valid = true ∧ (r2in t.ls i).req.alignIntr = true)) := by
  cases hadv : advance t.ls i with
  | false =>
    rw [r1in_req_of_not_advance hflush hadv] at hv ⊢
    exact ⟨(h.shape1 hv).1, .inl (h.shaped hflush hv)⟩
  | true =>
    rw [r1in_req_of_advance hflush hadv] at hv ⊢
    rw [(nextReq1_decided t.ls).1] at hv
    obtain ⟨hdawr, hs⟩ := h.shape_stage1Req hsend hflush hv
    refine ⟨?_, hs.imp Request.Shaped.nextReq1 fun hs => ?_⟩
    · simp only [nextReq1]
      split <;> exact hdawr
    · exact h.doomed_step hinv hsend hflush hadv hs.2.1

theorem PortInv.step_flushing (hf : (t.ls.flushing || ((r1in b t.ls i).req.valid &&
      ((r1in b t.ls i).req.alignIntr || (r1in b t.ls i).req.dawrIntr))) = true) :
    ((r1in b t.ls i).req.valid = true ∧ (r1in b t.ls i).req.alignIntr = true) ∨
      ((r2in t.ls i).req.valid = true ∧ (r2in t.ls i).req.alignIntr = true) := by
  simp only [or_eq_true, and_eq_true] at hf
  rcases hf with hf | ⟨hv, ha⟩
  · cases hadv : advance t.ls i with
    | true => exact .inr (h.doomed_step hinv hsend hflush hadv hf)
    | false =>
      rw [r1in_req_of_not_advance hflush hadv]
      exact .inl ((h.flushing hf).resolve_right (not_doomed hflush))
  · rw [(h.step_shape1 hinv hsend hflush hv).1] at ha
    exact .inl ⟨hv, by simpa using ha⟩

theorem PortInv.step_free1 (hv : (r1in b t.ls i).req.valid = true)
    (hb : (r1in b t.ls i).busy = false) :
    ((r1in b t.ls i).issued = true ∨ (r1in b t.ls i).req.dcReq = false) ∧
      (r1in b t.ls i).req.mmuOp = false ∧ ((r1in b t.ls i).req.last = true ∨
        ((r2in t.ls i).req.valid = true ∧ (r2in t.ls i).req.alignIntr = true)) := by
  cases hadv : advance t.ls i with
  | false =>
    simp only [r1in, hflush, hadv, false_eq_true, if_false] at hv hb ⊢
    split at hb
    · cases hb
    · next hc =>
      rw [if_neg hc]
      obtain ⟨h1, h2, h3⟩ := h.free1 hv hb
      exact ⟨h1, h2, .inl (h3.resolve_right (not_doomed hflush))⟩
  | true =>
    have hreq := r1in_req_of_advance (b := b) hflush hadv
    have hiss : (r1in b t.ls i).issued = issueFinal b t.ls i := by simp [r1in, hflush, hadv]
    have hlast : (nextReq1 b t.ls i).last = (stage1Req b t.ls i).last := by
      simp only [nextReq1]
      split <;> rfl
    rw [hreq, (nextReq1_decided t.ls).1] at hv
    rw [hreq, hiss, nextReq1_dcReq, nextReq1_mmuOp, hlast]
    obtain ⟨-, hs⟩ := h.shape_stage1Req hsend hflush hv
    simp only [r1in, hflush, hadv, false_eq_true, if_false, if_true] at hb
    cases hh : hashIssue b t.ls i with
    | true =>
      have hdone : t.ls.hashR.done = true := by simpa [hh] using hb
      have hh' := hh
      simp only [hashIssue, and_eq_true] at hh'
      have hdc := (h.dcReq_of_issue hflush hh'.1).2
      have hs := hs.resolve_right fun hs => by rw [hs.2.2.1] at hdc; cases hdc
      obtain ⟨hinc, hsp, -⟩ := hs.hash hh'.2
      refine ⟨.inl (by simp [issueFinal, hh, hdone]), ?_, .inl (by simp [Request.last, hinc, hsp])⟩
      by_contra hm
      rw [(hs.mmuOp (by simpa using hm)).2.2.1] at hh'
      cases hh'.2
    | false =>
      simp only [hh, false_eq_true, if_false, Bool.or_eq_false_iff, hv, Bool.true_and] at hb
      cases hi : issue b t.ls i with
      | true =>
        have hsplit : (stage1Req b t.ls i).incomplete = false ∧
            (stage1Req b t.ls i).loadSp = false := by
          simpa [hi] using hb.1
        exact ⟨.inl (by simp [issueFinal, hh, hi]), hb.2,
          .inl (by simp [Request.last, hsplit])⟩
      | false =>
        have hdc := dcReq_of_not_issue hv hi
        refine ⟨.inr hdc, hb.2, ?_⟩
        rcases hs with hs | hs
        · left
          have hinc : (stage1Req b t.ls i).incomplete = false := Flag.down hs.incomplete hdc
          simp [Request.last, hinc, hdc]
        · exact .inr (h.doomed_step hinv hsend hflush hadv hs.2.1)

end Advance

include h hsend hflush in
theorem PortInv.step_single1 (hb : (r1in b t.ls i).busy = true)
    (hs : (r1in b t.ls i).req.loadSp = true) : (r1in b t.ls i).req.dcReq = true := by
  cases hadv : advance t.ls i with
  | false =>
    simp only [r1in, hflush, hadv, false_eq_true, if_false] at hb hs ⊢
    split at hb
    · next hc => exact (h.issued1 (Bool.and_eq_true_iff.mp hc).1).2
    · exact h.single1 hb hs
  | true =>
    have hsp : (nextReq1 b t.ls i).loadSp = (stage1Req b t.ls i).loadSp := by
      simp only [nextReq1]
      split <;> rfl
    simp only [r1in, hflush, hadv, false_eq_true, if_false, if_true, hsp, nextReq1_dcReq]
      at hb hs ⊢
    have hissue : issue b t.ls i = true ∨
        ((stage1Req b t.ls i).valid = true ∧ (stage1Req b t.ls i).mmuOp = true) := by
      split at hb
      · next hh =>
        simp only [hashIssue, and_eq_true] at hh
        exact .inl hh.1
      · simp only [or_eq_true, and_eq_true] at hb
        exact hb.imp_left And.left
    rcases hissue with hi | ⟨hv, hm⟩
    · exact (h.dcReq_of_issue hflush hi).2
    · -- an operation of the MMU does not load anything
      have hno : (stage1Req b t.ls i).loadSp = false := by
        rcases (h.shape_stage1Req hsend hflush hv).2 with hsh | hsh
        · exact (hsh.mmuOp hm).2.1
        · exact hsh.2.2.2 hm
      rw [hno] at hs
      cases hs

/-! ### Stage 2 -/

include h hhash hflush in
/-- Behind a request that makes stage 2 busy, nothing is sent. -/
theorem PortInv.issueFinal_of_slow (ht : takes t.ls i = true)
    (hslow : (slowReq t.ls || (t.ls.r1.req.valid && t.ls.r1.req.mmuOp)) = true) :
    issueFinal b t.ls i = false := by
  have hadv := advance_of_takes ht
  have hready : t.ls.r1.issued = true ∨ t.ls.r1.req.dcReq = false := by
    by_contra hno
    simp only [not_or, not_eq_true, not_eq_false] at hno
    have hv : t.ls.r1.req.valid = true := by
      simp only [slowReq, or_eq_true, and_eq_true] at hslow
      exact hslow.elim And.left And.left
    simp [takes, hno, hv] at ht
  simp only [slowReq, or_eq_true, and_eq_true] at hslow
  have hv : t.ls.r1.req.valid = true := hslow.elim And.left And.left
  have hs := h.shaped hflush hv
  by_contra hi
  rw [not_eq_false] at hi
  have hissue := issue_of_issueFinal hi
  cases hb : t.ls.r1.busy with
  | true =>
    -- the request has been sent, and it has no second part
    have hinc : t.ls.r1.req.incomplete = false := by
      by_contra hinc
      have hinc : t.ls.r1.req.incomplete = true := by simpa using hinc
      rcases hslow with ⟨-, ha | hc⟩ | ⟨-, hm⟩
      · rw [hs.aligned (hs.incomplete hinc)] at ha
        cases ha
      · rw [(hs.hash (by simp [hc])).1] at hinc
        cases hinc
      · rw [(hs.mmuOp hm).1] at hinc
        cases hinc
    rcases hready with hready | hready <;> simp [issue, hb, hinc, hready] at hissue
  | false =>
    obtain ⟨-, hmmu, -⟩ := h.free1 hv hb
    rcases hslow with ⟨-, ha | hc⟩ | ⟨-, hm⟩
    · -- an instruction behind one that interrupts is not sent
      have hf := h.marked hv ha
      simp [issue, stage1Req, hb, hf] at hissue
    · have hsent : t.ls.r1.issued = true := by
        rcases hready with hready | hdc
        · exact hready
        · have ha := (hs.hash (by simp [hc])).2.2.resolve_left (by simp [hdc])
          simp [issue, stage1Req, hb, h.marked hv ha] at hissue
      have := hhash (by simp [stage1Dcreq, hflush, hadv, hi])
      simp [hc, hsent] at this
    · rw [hmmu] at hm
      cases hm

theorem PortInv.step_quiet (h : PortInv p t) (hinv : Inv b t) (hhash : HashAlone b t.ls i)
    (hflush : flush t.ls i = false) (hb : (r2in t.ls i).busy = true) :
    (r1in b t.ls i).issued = false := by
  have hintr := interrupt2_of_not_flush hflush
  cases hadv : advance t.ls i with
  | false =>
    simp only [r1in, hflush, hadv, false_eq_true, if_false]
    split
    · rfl
    · next hc =>
      cases he : i.d.error with
      | true => simpa [he] using hc
      | false =>
        have ht : takes t.ls i = false := by simp [takes, hadv]
        refine h.quiet ?_
        by_contra hb2
        simp [r2in, hintr, he, not_eq_true _ ▸ hb2, ht] at hb
  | true =>
    obtain ⟨-, he, hb2⟩ := advance_iff.mp hadv
    cases ht : takes t.ls i with
    | true =>
      rw [(busy_of_takes hinv ht hintr).1] at hb
      simp [r1in, hflush, hadv, h.issueFinal_of_slow hhash hflush ht hb]
    | false => simp [r2in, hintr, he, hb2, ht] at hb

theorem PortInv.step_waits (h : PortInv p t) (hinv : Inv b t) (henv : Env t i)
    (hrst : i.rst = false) (hflush : flush t.ls i = false) (hw : (t.step b i).waiting = true) :
    (t.step b i).ls.r2.req.valid = true ∧ (t.step b i).ls.r2.req.dcReq = true := by
  rcases waiting_cases henv hinv hrst hflush hw with ⟨-, hv, hdc, hm, -, hreq, -⟩ |
    ⟨-, hw0, -, -, hreq, -⟩
  · rw [hreq]
    exact ⟨hv, by simp [takenReq, hdc, hm]⟩
  · rw [hreq]
    exact h.waits hw0

theorem PortInv.step_shape2 (h : PortInv p t) (hv : (r2in t.ls i).req.valid = true) :
    (r2in t.ls i).req.Shaped := by
  obtain ⟨hintr, -, hcase⟩ := r2in_valid hv
  refine Request.Shaped.setValid ?_ _
  rcases hcase with ⟨ht, hv1, -⟩ | ⟨ht, -, hv2, -⟩
  · rw [nextReq2, if_pos ht]
    refine ((h.shape1 hv1).2.resolve_right fun hd => ?_).taken
    simp [interrupt2, hd.1, hd.2] at hintr
  · rw [nextReq2, if_neg (by simp [ht])]
    exact h.shape2 hv2

/-! ### In step with the data cache -/

/-- Loadstore1 listens to the MMU only while stage 2 waits for it. -/
theorem not_mmu_of_idle (henv : PortEnv p t.ls i) (hst : t.ls.r3.state = .idle) :
    i.m.done = false ∧ i.m.err = false := by
  rw [← Bool.or_eq_false_iff]
  by_contra hm
  rw [(henv.mmu (not_eq_false _ ▸ hm)).2] at hst
  cases hst

/-- While the data cache has the next word, stage 3 stays as it is. -/
theorem PortInv.state_of_idle (hslow : Slow t) (henv : PortEnv p t.ls i)
    (hst : t.ls.r3.state = .idle) (he : i.d.error = false)
    (hm : t.ls.r2.req.mmuOp = false ∨ t.ls.r2.busy = false) :
    (r3in b t.ls i).state = .idle := by
  obtain ⟨hdone, herr⟩ := not_mmu_of_idle henv hst
  have hop : mmuOpStart t.ls = false := by
    by_contra hop
    simp only [mmuOpStart, not_eq_false, and_eq_true] at hop
    have hb := (hslow.mmuOp hop.1.2 hop.2).1
    rcases hm with hm | hm
    · rw [hm] at hop; cases hop.2
    · rw [hm] at hb; cases hb
  simp [r3in, hdone, herr, dcacheMiss, he, hop, hst]

/-- Stage 2 can move when a request has been sent for stage 1. -/
theorem PortInv.not_busy (h : PortInv p t) (hi : t.ls.r1.issued = true) : t.ls.r2.busy = false :=
  Flag.down h.quiet hi

include h hsend in
/-- A request that has been sent for stage 1 moves on with it. -/
theorem PortInv.takes_of_issued (hi : t.ls.r1.issued = true) (hst : i.dcStall = false)
    (he : i.d.error = false) : takes t.ls i = true := by
  simp [takes, advance, hst, he, h.not_busy hi, hsend.not_hold (.inl (h.issued1 hi).1), hi]

/-- A request that is sent again stays in stage 2. -/
theorem PortInv.resent (h : PortInv p t) (henv : PortEnv p t.ls i) (hw : t.waiting = true)
    (hs : p.served = false) (hsent : p.sent = true) :
    t.ls.r3.state = .idle ∧ t.ls.r2.busy = true ∧ t.ls.r2.waitMmu = false ∧ i.d.valid = false ∧
      i.d.error = false ∧ i.dcStall = false := by
  rcases h.owed hw hs with ⟨-, -, hno⟩ | ⟨hst, -, hb, hm⟩
  · rw [hno] at hsent; cases hsent
  · refine ⟨hst, hb, hm, (henv.no_answer hs).1, (henv.no_answer hs).2, ?_⟩
    by_contra hd
    rcases henv.stall (by simpa using hd) with hs' | hs'
    · rw [hs] at hs'; cases hs'
    · rw [hst] at hs'; cases hs'

/-- While stage 2 does not move, stage 1 sends nothing. -/
theorem sent_of_not_advance (hen : t.ls.r3.stage1En = true) (hadv : advance t.ls i = false) :
    (dOut b t.ls i).valid = false := by
  simp [dOut, hen, stage1Dcreq, hadv]

include h hinv hslow hsend hrst hflush in
theorem PortInv.step_issued (hi : (r1in b t.ls i).issued = true)
    (hm : (r1in b t.ls i).req.mmuOp = false) : (p.step b t.ls i).sent = true := by
  cases hadv : advance t.ls i with
  | false =>
    simp only [r1in, hflush, hadv, false_eq_true, if_false] at hi hm
    split at hi
    · cases hi
    · next hc =>
      have he : i.d.error = false := by simpa [hi] using hc
      have hst : i.dcStall = true := by simpa [advance, he, h.not_busy hi] using hadv
      simp [Port.step, hrst, hst, h.issued hi hm]
  | true =>
    obtain ⟨hst, -, hb⟩ := advance_iff.mp hadv
    simp only [r1in, hflush, hadv, false_eq_true, if_false, if_true, nextReq1_mmuOp] at hi hm
    obtain ⟨hv, hdc⟩ := h.dcReq_of_issue hflush (issue_of_issueFinal hi)
    have hen : t.ls.r3.stage1En = true := by
      by_contra hen
      rw [(hslow.mmuWait (hinv.retry (by simpa using hen)).2.2).1] at hb
      cases hb
    have hhold : i.l.e2stall = false := by
      by_contra hh
      obtain ⟨hlv, hv1, -⟩ := hsend.hold (by simpa using hh)
      have hb1 : t.ls.r1.busy = false := Flag.down h.busy1 hv1
      simp [stage1Req, hb1, hlv] at hv
    have hprobe : (stage1Req b t.ls i).tlbie = false := by
      by_contra htl
      rcases (h.shape_stage1Req hsend hflush hv).2 with hsh | hsh
      · rw [hsh.tlbie (by simpa using htl)] at hm
        cases hm
      · rw [hsh.2.2.1] at hdc
        cases hdc
    simp [Port.step, hrst, hst, hhold, dOut, dOutReq, hen, stage1Dcreq, hflush, hadv, hi, hprobe]

include h hinv hslow in
/-- When loadstore1 interrupts, the data cache has no request, or drops it. -/
theorem PortInv.sent_of_flush (henv : PortEnv p t.ls i) (hflush : flush t.ls i = true)
    (he : i.d.error = false) : p.sent = false ∧ (i.dcStall = true → p.served = false) := by
  -- in each case stage 2 is busy, so that nothing has been sent for stage 1
  have hsent : t.ls.r2.busy = true → (t.waiting = true → p.served = false → p.sent = false) →
      p.sent = false := by
    intro hb hw
    by_contra hs
    rw [not_eq_false] at hs
    rcases h.sent hs with ⟨hi, -⟩ | ⟨hwait, hns⟩
    · rw [h.quiet hb] at hi; cases hi
    · rw [hw hwait hns] at hs; cases hs
  simp only [flush, dcacheIntr, he, Bool.false_and, Bool.or_false, or_eq_true] at hflush
  rcases hflush with (htrap | halign) | herr
  · simp only [hashchkTrap, and_eq_true] at htrap
    obtain ⟨hs, -, hst⟩ := henv.answer htrap.1.1
    refine ⟨hsent (hslow.hash (h.served hs).1 htrap.1.2) fun _ hns => ?_, fun hst' => ?_⟩
    · rw [hs] at hns; cases hns
    · rw [hst] at hst'; cases hst'
  · rw [and_eq_true] at halign
    have hw : t.waiting = false := by
      by_contra hw
      rw [(hinv.align2 (by simpa using hw)).1] at halign
      cases halign.2
    refine ⟨hsent (hslow.align halign.1 halign.2) fun hw' => ?_, fun _ => ?_⟩
    · rw [hw] at hw'; cases hw'
    · exact Flag.down (fun hs => (h.served hs).1) hw
  · have hst := (henv.mmu (by simp [herr])).2
    refine ⟨hsent (hslow.mmuWait hst).1 fun hw hns => ?_, fun _ => ?_⟩
    · rcases h.owed hw hns with ⟨-, -, hs⟩ | ⟨hidle, -⟩
      · exact hs
      · rw [hst] at hidle; cases hidle
    · by_contra hs
      rw [(h.served (by simpa using hs)).2.1] at hst
      cases hst

section Run

include h hinv hslow henv hsend

section

variable (hrst : i.rst = false) (hflush : flush t.ls i = false)

include hrst hflush

theorem PortInv.step_served (hs : (p.step b t.ls i).served = true) :
    (t.step b i).waiting = true ∧ (r3in b t.ls i).state = .idle ∧
      ((r2in t.ls i).busy = true → (r2in t.ls i).req.hashcmp = true) := by
  have hintr := interrupt2_of_not_flush hflush
  simp only [Port.step, hrst, false_eq_true, if_false] at hs
  split at hs
  · -- the request that is served goes on waiting
    next hstall =>
    obtain ⟨hw, hst, hb⟩ := h.served hs
    obtain ⟨hv, he⟩ := henv.no_answer_of_stall hstall
    have hm := (hinv.align2 hw).2
    have ht : takes t.ls i = false := by simp [takes, advance, hstall]
    refine ⟨by simp [Tracked.step, hrst, hflush, ht, hw, hv],
      PortInv.state_of_idle hslow henv hst he (.inl hm), fun hb' => ?_⟩
    have hb2 : t.ls.r2.busy = true := by
      by_contra hb2
      simp [r2in, hintr, he, not_eq_true _ ▸ hb2, ht] at hb'
    simpa [r2in, nextReq2, ht] using hb hb2
  · next hstall =>
    have hstall : i.dcStall = false := by simpa using hstall
    simp only [and_eq_true, not_eq_true'] at hs
    obtain ⟨⟨hsent, he⟩, -⟩ := hs
    rcases h.sent hsent with ⟨hi, hm⟩ | ⟨hw, hs⟩
    · -- it has been sent for stage 1
      have ht := h.takes_of_issued hsend hi hstall he
      obtain ⟨hv, hdc⟩ := h.issued1 hi
      have hb2 := (advance_iff.mp (advance_of_takes ht)).2.2
      have hst : t.ls.r3.state = .idle := by
        by_contra hst
        have hwait : t.ls.r3.state = .mmuWait := by
          cases hs : t.ls.r3.state with
          | idle => exact absurd hs hst
          | mmuWait => rfl
        rw [(hslow.mmuWait hwait).1] at hb2
        cases hb2
      refine ⟨by simp [Tracked.step, hrst, hflush, ht, hv, hdc, hm],
        PortInv.state_of_idle hslow henv hst he (.inr hb2), fun hb' => ?_⟩
      rw [(busy_of_takes hinv ht hintr).1] at hb'
      have hc : t.ls.r1.req.hashcmp = true := by
        simpa [slowReq, hv, hm, hinv.align1 hdc] using hb'
      simpa [r2in, nextReq2, ht, takenReq] using hc
    · -- it has been sent again
      obtain ⟨hst, hb, hwm, hv, -, -⟩ := h.resent henv hw hs hsent
      have ht : takes t.ls i = false := by simp [takes, advance, hb]
      have hm := (hinv.align2 hw).2
      refine ⟨by simp [Tracked.step, hrst, hflush, ht, hw, hv],
        PortInv.state_of_idle hslow henv hst he (.inl hm), fun hb' => ?_⟩
      by_contra hc
      have hc2 : t.ls.r2.req.hashcmp = false := by simpa [r2in, nextReq2, ht] using hc
      simp [r2in, hintr, he, hb, hwm, hc2] at hb'

theorem PortInv.step_owed
    (hw : (t.step b i).waiting = true) (hs : (p.step b t.ls i).served = false) :
    ((r3in b t.ls i).state = .mmuWait ∧ (r3in b t.ls i).stage1En = false ∧
        (p.step b t.ls i).sent = false) ∨
      ((r3in b t.ls i).state = .idle ∧ (p.step b t.ls i).sent = true ∧
        (r2in t.ls i).busy = true ∧ (r2in t.ls i).waitMmu = false) := by
  have hintr := interrupt2_of_not_flush hflush
  have hbase := h.env hslow henv hsend
  rcases waiting_cases hbase hinv hrst hflush hw with ⟨ht, hv, hdc, hm, -⟩ | ⟨ht, hw0, hv, -⟩
  · -- what has just been taken over is served
    obtain ⟨hst, he, -⟩ := advance_iff.mp (advance_of_takes ht)
    have hi : t.ls.r1.issued = true := by
      by_contra hi
      simp [takes, hv, hdc, hi] at ht
    have hhold : i.l.e2stall = false := by
      simp only [takes, and_eq_true, not_eq_true'] at ht
      exact ht.1.2
    simp [Port.step, hrst, hst, he, hhold, h.issued hi hm] at hs
  · obtain ⟨hv2, hdc2⟩ := h.waits hw0
    obtain ⟨hal, hm⟩ := hinv.align2 hw0
    have hhold := hsend.not_hold (.inr hv2)
    cases hserved : p.served with
    | true =>
      -- an error, and the MMU is asked
      obtain ⟨-, hst, -⟩ := h.served hserved
      have hnst : i.dcStall = false := by
        by_contra hst
        simp [Port.step, hrst, not_eq_false _ ▸ hst, hserved] at hs
      have he : i.d.error = true := by
        rcases henv.due hserved with hv' | he | hst'
        · rw [hv] at hv'; cases hv'
        · exact he
        · rw [hnst] at hst'; cases hst'
      obtain ⟨hdone, herr⟩ := not_mmu_of_idle henv hst
      have hmiss := dcacheMiss_of_error hflush he
      have hadv : advance t.ls i = false := by simp [advance, he]
      left
      refine ⟨by simp [r3in, hdone, herr, hmiss], by simp [r3in, hdone, herr, hmiss], ?_⟩
      simp [Port.step, hrst, hnst, hhold, sent_of_not_advance (hinv.stage1En_of_idle hst) hadv]
    | false =>
      have he := (henv.no_answer hserved).2
      rcases h.owed hw0 hserved with ⟨hst, hen, hsent⟩ | ⟨hst, hsent, hb, hwm⟩
      · obtain ⟨hb, hwm, -⟩ := hslow.mmuWait hst
        have herr := err_of_not_flush hflush
        have hop : mmuOpStart t.ls = false := by simp [mmuOpStart, hm]
        cases hdone : i.m.done with
        | true =>
          -- the request is sent again
          have hprobe : t.ls.r2.req.tlbie = false := Flag.down ((h.shape2 hv2).tlbie) hm
          right
          refine ⟨by simp [r3in, hdone], ?_, ?_, by simp [r2in, hintr, he, hwm, hdone]⟩
          · simp [Port.step, hrst, (henv.done hdone).2, hhold, dOut, hen, retry, hdone, hdc2,
              dOutReq, hprobe]
          · simp [r2in, hintr, he, hwm, mmuOpDone, hm, ht, hb]
        | false =>
          left
          refine ⟨by simp [r3in, hdone, herr, dcacheMiss, he, hop, hst],
            by simp [r3in, hdone, herr, dcacheMiss, he, hen], ?_⟩
          simp [Port.step, hrst, hsent, dOut, hen, retry, hdone]
      · -- what has been sent again is served now
        obtain ⟨-, -, -, -, -, hnst⟩ := h.resent henv hw0 hserved hsent
        simp [Port.step, hrst, hnst, hsent, he, hhold] at hs

theorem PortInv.step_sent (hs : (p.step b t.ls i).sent = true) :
    ((r1in b t.ls i).issued = true ∧ (r1in b t.ls i).req.mmuOp = false) ∨
      ((t.step b i).waiting = true ∧ (p.step b t.ls i).served = false) := by
  simp only [Port.step, hrst, false_eq_true, if_false] at hs
  split at hs
  · next hc =>
    rcases h.sent hs with ⟨hi, hm⟩ | ⟨hw, hns⟩
    · have hst : i.dcStall = true := by simpa [hsend.not_hold (.inl (h.issued1 hi).1)] using hc
      left
      simp [r1in, hflush, advance, hst, (henv.no_answer_of_stall hst).2, hi, hm]
    · obtain ⟨-, -, -, -, -, hst⟩ := h.resent henv hw hns hs
      simp [hst, hsend.not_hold (.inr (h.waits hw).1)] at hc
  · next hc =>
    simp only [or_eq_true, not_or, not_eq_true] at hc
    simp only [and_eq_true, not_eq_true'] at hs
    cases hen : t.ls.r3.stage1En with
    | true =>
      have hdreq : stage1Dcreq b t.ls i = true := by simpa [dOut, hen] using hs.1
      have hprobe : (stage1Req b t.ls i).tlbie = false := by simpa [dOut, dOutReq, hen] using hs.2
      simp only [stage1Dcreq, and_eq_true, hflush] at hdreq
      obtain ⟨hv, hdc⟩ := h.dcReq_of_issue hflush (issue_of_issueFinal hdreq.2)
      left
      refine ⟨by simp [r1in, hflush, hdreq], ?_⟩
      simp only [r1in, hflush, hdreq, false_eq_true, if_false, if_true, nextReq1_mmuOp]
      by_contra hop
      rcases (h.shape_stage1Req hsend hflush hv).2 with hsh | hsh
      · rw [hsh.probe (by simpa using hop) hdc] at hprobe
        cases hprobe
      · rw [hsh.2.2.1] at hdc
        cases hdc
    | false =>
      -- sent again at the end of a repair
      obtain ⟨hw, -, hst⟩ := hinv.retry hen
      have hns : p.served = false := by
        by_contra hs'
        rw [(h.served (by simpa using hs')).2.1] at hst
        cases hst
      have hsent : p.sent = false := by
        rcases h.owed hw hns with ⟨-, -, hsent⟩ | ⟨hidle, -⟩
        · exact hsent
        · rw [hst] at hidle; cases hidle
      have ht : takes t.ls i = false := by simp [takes, advance, (hslow.mmuWait hst).1]
      have hv := (henv.no_answer hns).1
      right
      exact ⟨by simp [Tracked.step, hrst, hflush, ht, hw, hv], by
        simp [Port.step, hrst, hns, hsent]⟩

end

/-! ### The clock edge -/

/-- After an interrupt of loadstore1 the data cache has no request. -/
theorem PortInv.port_of_flush (hflush : flush t.ls i = true) :
    (p.step b t.ls i).sent = false ∧ (p.step b t.ls i).served = false := by
  have hout : (dOut b t.ls i).valid = false := by
    cases hen : t.ls.r3.stage1En with
    | true => simp [dOut, hen, stage1Dcreq, hflush]
    | false =>
      -- the MMU has found an error
      obtain ⟨hw, -, hst⟩ := hinv.retry hen
      have hdone : i.m.done = false := by
        by_contra hdone
        obtain ⟨herr, -⟩ := henv.done (by simpa using hdone)
        simp only [flush, herr, Bool.or_false, or_eq_true, hashchkTrap, dcacheIntr,
          and_eq_true] at hflush
        rcases hflush with (htrap | halign) | hintr
        · rw [(h.served (henv.answer htrap.1.1).1).2.1] at hst; cases hst
        · rw [(hinv.align2 hw).1] at halign; cases halign.2
        · rw [(h.served (henv.error hintr.1).1).2.1] at hst; cases hst
      simp [dOut, hen, retry, hdone]
  cases he : i.d.error with
  | true =>
    obtain ⟨hs, hst⟩ := henv.error he
    have hhold : i.l.e2stall = false := by
      by_contra hh
      have hv := (h.waits (h.served hs).1).1
      rw [(hsend.hold (by simpa using hh)).2.2] at hv
      cases hv
    exact ⟨by simp [Port.step, hst, hhold, hout], by simp [Port.step, hst, he]⟩
  | false =>
    obtain ⟨hsent, hserved⟩ := h.sent_of_flush hinv hslow henv hflush he
    refine ⟨by simp [Port.step, hsent, hout], ?_⟩
    simp only [Port.step, hsent, Bool.false_and]
    split
    · rfl
    · split
      · next hst => exact hserved hst
      · rfl

theorem PortInv.step_flush (hrst : i.rst = false) (hflush : flush t.ls i = true) :
    PortInv (p.step b t.ls i) (t.step b i) := by
  have hr1 := t.r1_step b hrst
  have hr2 := t.r2_step b hrst
  have hv : (r1in b t.ls i).req.valid = false := by simp [r1in, hflush]
  have hbusy : (r1in b t.ls i).busy = false ∧ (r1in b t.ls i).issued = false := by
    simp [r1in, hflush]
  have hw : (t.step b i).waiting = false := by simp [Tracked.step, hflush]
  have hf : (t.step b i).ls.flushing = false := by simp [Tracked.step, LoadStore.step, hflush]
  obtain ⟨hsent, hserved⟩ := h.port_of_flush hinv hslow henv hsend hflush
  constructor
  case shape2 => rw [hr2]; exact h.step_shape2
  all_goals simp [hr1, hv, hbusy, hw, hf, hsent, hserved]

theorem PortInv.step (hhash : HashAlone b t.ls i) : PortInv (p.step b t.ls i) (t.step b i) := by
  cases hrst : i.rst with
  | true => exact .reset hrst
  | false =>
    cases hflush : flush t.ls i with
    | true => exact h.step_flush hinv hslow henv hsend hrst hflush
    | false =>
      have hr1 := t.r1_step b hrst
      have hr2 := t.r2_step b hrst
      have hr3 := t.r3_step b hrst
      have hf : (t.step b i).ls.flushing = (t.ls.flushing || ((r1in b t.ls i).req.valid &&
          ((r1in b t.ls i).req.alignIntr || (r1in b t.ls i).req.dawrIntr))) := by
        simp [Tracked.step, LoadStore.step, hrst, hflush]
      constructor
      · rw [Doomed, hr1, hr2]; exact h.step_shape1 hinv hsend hflush
      · rw [hr2]; exact h.step_shape2
      · rw [Doomed, hr1, hr2, hf]; exact h.step_flushing hinv hsend hflush
      · rw [hr1, hf]
        intro hv ha
        simp [hv, ha]
      · rw [hr1]; exact h.step_busy1 hflush
      · rw [hr1]; exact h.step_issued1 hflush
      · rw [Doomed, hr1, hr2]; exact h.step_free1 hinv hsend hflush
      · rw [hr1]; exact h.step_single1 hsend hflush
      · rw [hr1, hr2]; exact h.step_quiet hinv hhash hflush
      · exact h.step_waits hinv (h.env hslow henv hsend) hrst hflush
      · rw [hr2, hr3]; exact h.step_served hinv hslow henv hsend hrst hflush
      · rw [hr2, hr3]; exact h.step_owed hinv hslow henv hsend hrst hflush
      · rw [hr1]; exact h.step_sent hinv hslow henv hsend hrst hflush
      · rw [hr1]; exact h.step_issued hinv hslow hsend hrst hflush

end Run

end Step

end LoadStore

end Microwatt
