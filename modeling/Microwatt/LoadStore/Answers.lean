import Microwatt.LoadStore.Pipeline

/-!
# The requests of an access and their answers

`Pipeline` says that a request for an ordinary access is for one of its doublewords. Here the port
to the data cache is written down. For the instruction in each of the first two stages the request
that was sent last is kept, with the data that was on the port one cycle later, and every answer is
put down together with the request that it answers. When an access is done, the requests that have
been answered are its doublewords, each of them once and in order, however often one had to be sent
again.

## Main definitions

* `LoadStore.Recorded` — the unit with the requests that were sent and answered

## Main results

* `LoadStore.RecInv.step` — what is known of them is kept by a step
* `LoadStore.load_store_format` — what the requests of a store write and what a load returns
-/

namespace Microwatt

open Clocked

/-- What a request writes if it is a store. -/
def Loadstore1ToDcache.dword (d : Loadstore1ToDcache) : LoadStore.DwordWrite :=
  ⟨d.addr, d.byteSel, d.data⟩

/-- The request is none of the special ones. -/
def Loadstore1ToDcache.ordinary (d : Loadstore1ToDcache) : Bool :=
  !(d.dcbz || d.flush || d.touch || d.sync || d.tlbProbe)

namespace LoadStore

/-! ### Following the requests -/

/-- The unit together with the requests that were sent for the instructions in it. -/
structure Recorded where
  unit : Tracked
  /-- The last request for the instruction in stage 1, -/
  asked1 : Loadstore1ToDcache := {}
  /-- which was sent in the last cycle, so that its data is on the port now. -/
  fresh1 : Bool := false
  /-- The same for the instruction in stage 2. -/
  asked2 : Loadstore1ToDcache := {}
  fresh2 : Bool := false
  /-- The requests for the instruction in stage 2 that have been answered, with the answers. -/
  answered : List (Loadstore1ToDcache × BitVec 64) := []

namespace Recorded

variable (b : Bool) (r : Recorded) (i : Inputs)

/-- The request with its data. -/
def now1 : Loadstore1ToDcache :=
  if r.fresh1 then { r.asked1 with data := (dOut b r.unit.ls i).data } else r.asked1

def now2 : Loadstore1ToDcache :=
  if r.fresh2 then { r.asked2 with data := (dOut b r.unit.ls i).data } else r.asked2

/-- A request is sent for stage 1, or again for stage 2. -/
def sent1 : Bool := (dOut b r.unit.ls i).valid && r.unit.ls.r3.stage1En

def sent2 : Bool := (dOut b r.unit.ls i).valid && !r.unit.ls.r3.stage1En

/-- The requests that have been answered, with the answer of this cycle. -/
def answeredNow : List (Loadstore1ToDcache × BitVec 64) :=
  r.answered ++ if i.d.valid then [(r.now2 b i, i.d.data)] else []

def step : Recorded where
  unit := r.unit.step b i
  asked1 := if r.sent1 b i then dOut b r.unit.ls i else r.now1 b i
  fresh1 := r.sent1 b i
  asked2 :=
    if takes r.unit.ls i then r.now1 b i
    else if r.sent2 b i then dOut b r.unit.ls i
    else r.now2 b i
  fresh2 := !takes r.unit.ls i && r.sent2 b i
  answered :=
    if takes r.unit.ls i && !r.unit.ls.r1.req.dwordIndex then [] else r.answeredNow b i

/-- What the other units keep to. -/
def Env : Prop := LoadStore.Env r.unit i

instance : Decidable (r.Env i) := inferInstanceAs (Decidable (LoadStore.Env _ _))

/-- After a reset nothing has been sent. -/
structure Init : Prop where
  unit : r.unit.Init b
  fresh1 : r.fresh1 = false
  fresh2 : r.fresh2 = false
  answered : r.answered = []

end Recorded

/-- The request on the port is the one that a stage holds. -/
structure Asks (d : Loadstore1ToDcache) (q : Request) : Prop where
  addr : d.addr = q.addr
  byteSel : d.byteSel = q.byteSel
  load : d.load = q.load
  ordinary : d.ordinary = !(q.dcbz || q.flush || q.touch || q.sync || q.tlbie)

/-- The request is for the first doubleword of the instruction. -/
structure AsksFirst (b : Bool) (o : Op) (d : Loadstore1ToDcache) : Prop where
  asks : Asks d (o.request b)
  data : d.data = o.dataOut b

/-- Just the first doubleword has been answered. -/
def FirstDone (b : Bool) (l : List (Loadstore1ToDcache × BitVec 64)) (o : Op) : Prop :=
  ∃ d x, l = [(d, x)] ∧ AsksFirst b o d

/-- What is known of the requests. -/
structure RecInv (b : Bool) (r : Recorded) : Prop where
  base : Inv b r.unit
  fresh1 : r.fresh1 = true → r.unit.ls.stage1Dreq = true
  fresh2 : r.fresh2 = true → r.unit.ls.stage1Dreq = false
  /-- What stage 1 has issued has been sent, -/
  asked1 : r.unit.ls.r1.issued = true → r.unit.ls.r1.req.dcReq = true → r.unit.op1.Plain →
    Asks r.asked1 r.unit.ls.r1.req ∧ (r.fresh1 = false → r.asked1.data = r.unit.op1.dataOut b)
  /-- and so has what stage 2 waits for, unless the MMU is at work on it. -/
  asked2 : r.unit.waiting = true → r.unit.ls.r3.stage1En = true → r.unit.op2.Plain →
    Asks r.asked2 r.unit.ls.r2.req ∧ (r.fresh2 = false → r.asked2.data = r.unit.op2.dataOut b)
  answers : r.answered.map (·.2) = r.unit.answers
  /-- A second part waits until the first one has been answered. -/
  second : r.unit.waiting = true → r.unit.op2.Plain → r.unit.ls.r2.req.dwordIndex = true →
    FirstDone b r.answered r.unit.op2
  next : r.unit.ls.r1.req.dcReq = true → r.unit.op1.Plain → r.unit.ls.r1.req.dwordIndex = true →
    r.unit.waiting = false → FirstDone b r.answered r.unit.op1

variable {b : Bool} {r : Recorded} {i : Inputs} {d : Loadstore1ToDcache} {q : Request} {o : Op}

/-! ### Requests with their data -/

theorem Asks.data (h : Asks d q) (x : BitVec 64) : Asks { d with data := x } q :=
  ⟨h.1, h.2, h.3, h.4⟩

theorem asks_dOut (s : State) : Asks (dOut b s i) (dOutReq b s i) := ⟨rfl, rfl, rfl, rfl⟩

/-- The parts of an ordinary access are ordinary requests. -/
theorem Op.IsPart.ordinary (h : o.IsPart b q) (hplain : o.Plain) :
    (q.dcbz || q.flush || q.touch || q.sync || q.tlbie) = false := by
  have hlen : ¬o.l.length = 0#4 := by
    rcases hplain.length with hl | hl | hl | hl <;> rw [hl] <;> decide
  rcases h with rfl | ⟨rfl, -⟩ <;>
    rcases hplain.kind with hk | hk <;> simp [Op.request, secondRequest, loadstore1In, hk, hlen]

namespace RecInv

theorem now1 (h : RecInv b r) (hiss : r.unit.ls.r1.issued = true)
    (hdc : r.unit.ls.r1.req.dcReq = true) (hplain : r.unit.op1.Plain) (i : Inputs) :
    Asks (r.now1 b i) r.unit.ls.r1.req ∧ (r.now1 b i).data = r.unit.op1.dataOut b := by
  obtain ⟨hasks, hdata⟩ := h.asked1 hiss hdc hplain
  rw [Recorded.now1]
  cases hf : r.fresh1 with
  | true =>
    obtain ⟨hpart, haddr⟩ := h.base.hold1 hdc hplain
    refine ⟨hasks.data _, ?_⟩
    simp only [if_true, dOut, h.fresh1 hf]
    exact storeData_eq hpart haddr
  | false => exact ⟨hasks, hdata hf⟩

theorem now2 (h : RecInv b r) (hw : r.unit.waiting = true) (hen : r.unit.ls.r3.stage1En = true)
    (hplain : r.unit.op2.Plain) (i : Inputs) :
    Asks (r.now2 b i) r.unit.ls.r2.req ∧ (r.now2 b i).data = r.unit.op2.dataOut b := by
  obtain ⟨hasks, hdata⟩ := h.asked2 hw hen hplain
  rw [Recorded.now2]
  cases hf : r.fresh2 with
  | true =>
    obtain ⟨-, q, -, -, hr2⟩ := h.base.hold2 hw hplain
    refine ⟨hasks.data _, ?_⟩
    simp only [if_true, dOut, h.fresh2 hf, Bool.false_eq_true, if_false]
    rw [hr2]
  | false => exact ⟨hasks, hdata hf⟩

theorem init (h : r.Init b) : RecInv b r := by
  obtain ⟨s, i, hrst, hls⟩ := h.unit.1
  have hiss : r.unit.ls.r1.issued = false := by simp [hls, LoadStore.step, hrst, Stage1.reset]
  have hdc : r.unit.ls.r1.req.dcReq = false := by simp [hls, LoadStore.step, hrst, Stage1.reset]
  exact ⟨Inv.init h.unit, by simp [h.fresh1], by simp [h.fresh2], by simp [hiss],
    by simp [h.unit.2.1], by simp [h.answered, h.unit.2.2], by simp [h.unit.2.1], by simp [hdc]⟩

/-! ### One step -/

section

variable (h : RecInv b r) (henv : Env r.unit i)

include h henv

omit henv in
theorem step_fresh2 (hf : (r.step b i).fresh2 = true) :
    (r.step b i).unit.ls.stage1Dreq = false := by
  have hen : r.unit.ls.r3.stage1En = false := by
    simp only [Recorded.step, Recorded.sent2, Bool.and_eq_true, Bool.not_eq_true'] at hf
    exact hf.2.2
  have hadv : advance r.unit.ls i = false := by
    simp [advance, h.base.waitMmu (h.base.retry hen).2.1]
  simp [Recorded.step, Tracked.step, LoadStore.step, stage1Dcreq, hadv]

omit henv in
/-- While the MMU repairs a miss the pipeline stands still. -/
theorem stage1En_of_advance (hadv : advance r.unit.ls i = true) :
    r.unit.ls.r3.stage1En = true := by
  by_contra hen
  have hw := h.base.waitMmu_of_advance hadv
  rw [(h.base.retry (by simpa using hen)).2.1] at hw
  cases hw

omit henv in
theorem step_answers : (r.step b i).answered.map (·.2) = (r.step b i).unit.answers := by
  simp only [Recorded.step, Tracked.step, Recorded.answeredNow]
  split
  · rfl
  · cases i.d.valid <;> simp [h.answers]

variable (hrst : i.rst = false) (hflush : flush r.unit.ls i = false)

include hrst hflush

theorem step_asked1 (hiss : (r.step b i).unit.ls.r1.issued = true)
    (hdc : (r.step b i).unit.ls.r1.req.dcReq = true) (hplain : (r.step b i).unit.op1.Plain) :
    Asks (r.step b i).asked1 (r.step b i).unit.ls.r1.req ∧
      ((r.step b i).fresh1 = false →
        (r.step b i).asked1.data = (r.step b i).unit.op1.dataOut b) := by
  have hr1 : (r.step b i).unit.ls.r1 = r1in b r.unit.ls i := r.unit.r1_step b hrst
  rw [hr1] at hiss hdc ⊢
  cases hadv : advance r.unit.ls i with
  | true =>
    -- what is issued is on the port
    have hen := h.stage1En_of_advance hadv
    have hfinal : issueFinal b r.unit.ls i = true := by
      simpa [r1in, hflush, hadv] using hiss
    have hvalid : (dOut b r.unit.ls i).valid = true := by
      simp [dOut, hen, stage1Dcreq, hflush, hadv, hfinal]
    have hsent : r.sent1 b i = true := by simp [Recorded.sent1, hvalid, hen]
    have hreq : (r1in b r.unit.ls i).req = nextReq1 b r.unit.ls i :=
      r1in_req_of_advance hflush hadv
    have hpart := ((h.base.step henv).hold1 (hr1 ▸ hdc) hplain).1
    change (r.step b i).unit.op1.IsPart b (r.step b i).unit.ls.r1.req at hpart
    rw [hr1, hreq] at hpart
    have hout : dOutReq b r.unit.ls i = nextReq1 b r.unit.ls i := by
      rw [hpart.nextReq1_eq hplain, dOutReq, hen, if_pos rfl]
    simp only [Recorded.step, hsent, if_true]
    rw [hreq, ← hout]
    exact ⟨asks_dOut _, by simp⟩
  | false =>
    -- nothing moves
    have hv := henv.not_valid hadv
    have hreq : (r1in b r.unit.ls i).req = r.unit.ls.r1.req := r1in_req_of_not_advance hflush hadv
    have hop : (r.step b i).unit.op1 = r.unit.op1 := by simp [Recorded.step, Tracked.step, hv]
    have hiss0 : r.unit.ls.r1.issued = true := by
      simp only [r1in, hflush, hadv, Bool.false_eq_true, if_false] at hiss
      split at hiss
      · cases hiss
      · exact hiss
    have hsent : r.sent1 b i = false := by
      cases hen : r.unit.ls.r3.stage1En <;> simp [Recorded.sent1, dOut, hen, stage1Dcreq, hadv]
    rw [hreq] at hdc ⊢
    rw [hop] at hplain ⊢
    obtain ⟨hasks, hdata⟩ := h.now1 hiss0 hdc hplain i
    simp only [Recorded.step, hsent, Bool.false_eq_true, if_false]
    exact ⟨hasks, fun _ => hdata⟩

theorem step_asked2 (hw : (r.step b i).unit.waiting = true)
    (hen : (r.step b i).unit.ls.r3.stage1En = true) (hplain : (r.step b i).unit.op2.Plain) :
    Asks (r.step b i).asked2 (r.step b i).unit.ls.r2.req ∧
      ((r.step b i).fresh2 = false →
        (r.step b i).asked2.data = (r.step b i).unit.op2.dataOut b) := by
  rcases waiting_cases henv h.base hrst hflush hw with ⟨ht, hv, hdc, hmmu, hop, hreq, -⟩ |
    ⟨ht, hw0, hnv, hop, hreq, -⟩
  · -- the request moves on with its instruction
    have hiss : r.unit.ls.r1.issued = true := by
      simp only [takes, hv, hdc, Bool.not_true, Bool.or_false, Bool.false_or,
        Bool.and_eq_true] at ht
      exact ht.2
    change (r.step b i).unit.op2 = _ at hop
    change (r.step b i).unit.ls.r2.req = _ at hreq
    rw [hop] at hplain ⊢
    rw [hreq]
    obtain ⟨hasks, hdata⟩ := h.now1 hiss hdc hplain i
    simp only [Recorded.step, ht, if_true]
    exact ⟨⟨hasks.1, hasks.2, hasks.3, hasks.4⟩, fun _ => hdata⟩
  · change (r.step b i).unit.op2 = _ at hop
    change (r.step b i).unit.ls.r2.req = _ at hreq
    rw [hop] at hplain ⊢
    rw [hreq]
    cases hen0 : r.unit.ls.r3.stage1En with
    | true =>
      have hsent : r.sent2 b i = false := by simp [Recorded.sent2, hen0]
      obtain ⟨hasks, hdata⟩ := h.now2 hw0 hen0 hplain i
      simp only [Recorded.step, ht, hsent, Bool.false_eq_true, if_false]
      exact ⟨hasks, fun _ => hdata⟩
    | false =>
      -- the MMU is done, and the request is sent again
      obtain ⟨-, q, -, hqdc, hr2⟩ := h.base.hold2 hw0 hplain
      have hst := (h.base.retry hen0).2.2
      have hmiss : dcacheMiss r.unit.ls i = false := by
        simp [dcacheMiss, (henv.no_answer_of_mmuWait hst).2]
      have hdone : i.m.done = true := by
        have hr3 : (r.step b i).unit.ls.r3 = r3in b r.unit.ls i := r.unit.r3_step b hrst
        rw [hr3] at hen
        simpa [r3in, hmiss, hen0, err_of_not_flush hflush] using hen
      have hr2dc : r.unit.ls.r2.req.dcReq = true := by
        rw [hr2]
        exact hqdc
      have hsent : r.sent2 b i = true := by simp [Recorded.sent2, dOut, hen0, retry, hdone, hr2dc]
      have hout : dOutReq b r.unit.ls i = r.unit.ls.r2.req := by simp [dOutReq, hen0]
      simp only [Recorded.step, ht, hsent, Bool.false_eq_true, if_false, if_true]
      rw [← hout]
      exact ⟨asks_dOut _, by simp⟩

omit hrst hflush in
/-- An answer to the first part leaves just that, and before it there was nothing. -/
theorem firstDone_step (hplain : r.unit.op2.Plain)
    (hdone : r.unit.waiting = true → i.d.valid = true ∧ r.unit.ls.r2.req.dwordIndex = false)
    (hkept : r.unit.waiting = false → FirstDone b r.answered r.unit.op2)
    (hkeep : (takes r.unit.ls i && !r.unit.ls.r1.req.dwordIndex) = false) :
    FirstDone b (r.step b i).answered r.unit.op2 := by
  simp only [Recorded.step, hkeep, Bool.false_eq_true, if_false, Recorded.answeredNow]
  cases hw : r.unit.waiting with
  | false => simpa [(henv.no_answer hw).1] using hkept hw
  | true =>
    obtain ⟨hv, hidx⟩ := hdone hw
    have hen := h.base.stage1En_of_idle (henv.answer hv).2.2
    have hnone : r.answered = [] := by
      rw [← List.map_eq_nil_iff, h.answers]
      exact h.base.first hw hidx
    obtain ⟨hasks, hdata⟩ := h.now2 hw hen hplain i
    obtain ⟨-, q, hq, hqdc, hr2⟩ := h.base.hold2 hw hplain
    rcases hq.dwordIndex hqdc with ⟨-, hfirst, -⟩ | ⟨hsec, -⟩
    · refine ⟨r.now2 b i, i.d.data, by simp [hnone, hv], ?_, hdata⟩
      rw [hr2, hfirst] at hasks
      exact ⟨hasks.1, hasks.2, hasks.3, hasks.4⟩
    · rw [hr2] at hidx
      rw [hsec] at hidx
      cases hidx

end

theorem step (h : RecInv b r) (henv : Env r.unit i) : RecInv b (r.step b i) := by
  have hbase : Inv b (r.step b i).unit := h.base.step henv
  have hfresh1 : (r.step b i).fresh1 = true → (r.step b i).unit.ls.stage1Dreq = true := by
    cases hen : r.unit.ls.r3.stage1En <;>
      simp [Recorded.step, Recorded.sent1, Tracked.step, LoadStore.step, dOut, hen]
  cases hgo : i.rst || flush r.unit.ls i with
  | true =>
    -- nothing is left of what was sent
    have hw : (r.step b i).unit.waiting = false := by simp [Recorded.step, Tracked.step, hgo]
    have hr1 : (r.step b i).unit.ls.r1.issued = false ∧
        (r.step b i).unit.ls.r1.req.dcReq = false := by
      cases hrst : i.rst with
      | true => simp [Recorded.step, Tracked.step, LoadStore.step, hrst, Stage1.reset]
      | false =>
        have hflush : flush r.unit.ls i = true := by simpa [hrst] using hgo
        simp [Recorded.step, Tracked.step, LoadStore.step, hrst, r1in, hflush]
    exact ⟨hbase, hfresh1, h.step_fresh2, by simp [hr1], by simp [hw], h.step_answers,
      by simp [hw], by simp [hr1]⟩
  | false =>
    obtain ⟨hrst, hflush⟩ := Bool.or_eq_false_iff.mp hgo
    obtain ⟨hsecond, hnext⟩ := kept_step henv h.base hrst hflush (P := FirstDone b r.answered)
      (Q := FirstDone b (r.step b i).answered) h.second h.next
      (fun _ hnv ht hold => by simpa [Recorded.step, Recorded.answeredNow, ht, hnv] using hold)
      (h.firstDone_step henv)
    exact ⟨hbase, hfresh1, h.step_fresh2, h.step_asked1 henv hrst hflush,
      h.step_asked2 henv hrst hflush, h.step_answers, hsecond, hnext⟩

/-! ### The end of an access -/

/-- With the last answer the doublewords have been answered, each of them once and in order. -/
theorem answered_eq (h : RecInv b r) (henv : Env r.unit i) (hv : i.d.valid = true)
    (hplain : r.unit.op2.Plain) (hlast : r.unit.ls.r2.req.incomplete = false) :
    (r.answeredNow b i).map (·.1.dword) = r.unit.op2.doublewords b ∧
      ∀ p ∈ r.answeredNow b i, p.1.ordinary = true ∧ p.1.load = (r.unit.op2.request b).load := by
  obtain ⟨hw, -, hidle⟩ := henv.answer hv
  obtain ⟨hasks, hdata⟩ := h.now2 hw (h.base.stage1En_of_idle hidle) hplain i
  obtain ⟨-, q, hq, hqdc, hr2⟩ := h.base.hold2 hw hplain
  have hpart : ∀ {d : Loadstore1ToDcache} {q : Request}, Asks d q → r.unit.op2.IsPart b q →
      d.ordinary = true ∧ d.load = (r.unit.op2.request b).load := by
    intro d q hd hq
    exact ⟨by rw [hd.ordinary, hq.ordinary hplain]; rfl, hd.load.trans hq.fields.2.2.1⟩
  have hq2 : Asks (r.now2 b i) q := by
    rw [hr2] at hasks
    exact ⟨hasks.1, hasks.2, hasks.3, hasks.4⟩
  have hdword : (r.now2 b i).dword = ⟨q.addr, q.byteSel, r.unit.op2.dataOut b⟩ := by
    rw [Loadstore1ToDcache.dword, hq2.addr, hq2.byteSel, hdata]
  have hinc : q.incomplete = false := by rw [hr2] at hlast; exact hlast
  have hidx2 : r.unit.ls.r2.req.dwordIndex = q.dwordIndex := by rw [hr2]
  rw [Recorded.answeredNow, hv, if_pos rfl]
  rcases hq.dwordIndex hqdc with ⟨hidx, hqeq, htwo⟩ | ⟨hidx, hqeq, -, htwo⟩
  · -- one doubleword
    have hnone : r.answered = [] := by
      rw [← List.map_eq_nil_iff, h.answers]
      exact h.base.first hw (by rw [hidx2, hidx])
    rw [hinc] at htwo
    simp only [hnone, List.nil_append, List.map_cons, List.map_nil, List.mem_singleton, forall_eq]
    refine ⟨?_, hpart hq2 hq⟩
    rw [hdword, hqeq, Op.doublewords]
    simp [← htwo]
  · -- two doublewords
    obtain ⟨d, x, hone, hfirst⟩ := h.second hw hplain (by rw [hidx2, hidx])
    have hd : d.dword =
        ⟨(r.unit.op2.request b).addr, (r.unit.op2.request b).byteSel, r.unit.op2.dataOut b⟩ := by
      rw [Loadstore1ToDcache.dword, hfirst.asks.addr, hfirst.asks.byteSel, hfirst.data]
    constructor
    · simp only [hone, List.cons_append, List.nil_append, List.map_cons, List.map_nil]
      rw [hd, hdword, hqeq, Op.doublewords]
      simp [htwo]
    · simp only [hone, List.cons_append, List.nil_append, List.mem_cons, List.not_mem_nil,
        or_false, forall_eq_or_imp, forall_eq]
      exact ⟨hpart hfirst.asks (.inl rfl), hpart hq2 hq⟩

end RecInv

/-- The answers are what the memory holds at the addresses that were asked for. -/
def AnsweredFrom (mem : Memory) (l : List (Loadstore1ToDcache × BitVec 64)) : Prop :=
  ∀ p ∈ l, dwordAt mem p.1.addr = p.2

instance (mem : Memory) (l : List (Loadstore1ToDcache × BitVec 64)) :
    Decidable (AnsweredFrom mem l) := inferInstanceAs (Decidable (∀ p ∈ l, _))

/-- The value of a load, from what was asked and answered. -/
theorem RecInv.dataTrimmed_eq (h : RecInv b r) (henv : Env r.unit i) (hv : i.d.valid = true)
    (hplain : r.unit.op2.Plain) (hlast : r.unit.ls.r2.req.incomplete = false)
    (hload : (r.unit.op2.request b).load = true) {mem : Memory}
    (hmem : AnsweredFrom mem (r.answeredNow b i)) :
    dataTrimmed r.unit.ls i = loadValue mem r.unit.op2 := by
  have hzip : (r.unit.op2.doublewords b).zip (r.unit.answers ++ [i.d.data]) =
      (r.answeredNow b i).map fun p => (p.1.dword, p.2) := by
    rw [← (h.answered_eq henv hv hplain hlast).1, ← h.answers]
    simp only [Recorded.answeredNow, hv, if_true]
    rw [show r.answered.map (·.2) ++ [i.d.data] =
      (r.answered ++ [(r.now2 b i, i.d.data)]).map (·.2) by simp, List.zip_map']
  refine (h.base.access_done henv hv hplain hlast).2 hload mem ?_
  rw [hzip]
  intro p hp
  obtain ⟨p', hp', rfl⟩ := List.mem_map.mp hp
  exact hmem p' hp'

/-- The unit just after a reset, with nothing sent. -/
def recordedBoot : Recorded := { unit := bootState }

end LoadStore

end Microwatt
