import Microwatt.Dcache.Tlb

/-!
# Which request completes

The unit has room for one request that waits, in `r1.req`, and looks up no other while it waits. So
there is one request a cycle can be about: the parked one, or the one in `r0`. Runs are followed by
a copy of the parked request as loadstore1 sent it, so that what completes can be told from the
registers that complete it, and by the reservation that loads with reserve have made.

## Main definitions

* `Dcache.RsvTracked`, `Dcache.rsvStep` — the run
* `Dcache.ReqInv` — the registers hold the request of the cycle

## Main results

* `Dcache.ReqInv.completes`, `Dcache.ReqInv.addr_of_completes`
-/

namespace Microwatt

namespace Dcache

variable {g : Geometry}

/-! ### Requests -/

/-- A load with reserve, or the first half of one. -/
def isLarx (r : Loadstore1ToDcache) : Bool := r.load && r.reserve && r.atomicFirst

/-- A store-conditional, or the first half of one. -/
def isStcx (r : Loadstore1ToDcache) : Bool :=
  !r.load && r.reserve && (!r.atomicQw || r.atomicFirst)

/-- Requests with reserve are loads and stores and nothing else, and one that is not part of a
quadword counts as a first half. -/
def Plain (r : Loadstore1ToDcache) : Prop :=
  r.reserve = true →
    r.dcbz = false ∧ r.touch = false ∧ r.flush = false ∧ r.sync = false ∧ r.tlbProbe = false ∧
      (r.atomicQw = false → r.atomicFirst = true)

/-- The request `q` of the state machine is `r`, made to the line `line`. -/
structure IsReq (q : MemReq g) (r : Loadstore1ToDcache) (line : g.Line) : Prop where
  plain : Plain r
  reserve : q.reserve = r.reserve
  firstDw : q.firstDw = (!r.atomicQw || r.atomicFirst)
  touch : q.touch = r.touch
  line : getLine g q.realAddr = line
  mmuReq : r.reserve = true → q.mmuReq = false
  slow : q.op.slow = true → r.reserve = true →
    (q.op = .loadMiss ∧ r.load = true ∧ q.nc = false) ∨ (q.op = .store ∧ r.load = false)

theorem isStcx_of_isLarx {r : Loadstore1ToDcache} (h : isLarx r = true) : isStcx r = false := by
  simp only [isLarx, Bool.and_eq_true] at h
  simp [isStcx, h.1.1]

theorem reserve_of_isLarx {r : Loadstore1ToDcache} (h : isLarx r = true) :
    r.load = true ∧ r.reserve = true := by
  simp only [isLarx, Bool.and_eq_true] at h
  exact h.1

variable {s : State g} {i : Inputs}

/-- The request in `r0` comes from loadstore1 or, without reserve, from the MMU. -/
def PlainR0 (s : State g) : Prop :=
  s.r0Full = true → Plain s.r0.req ∧ (s.r0.req.reserve = true → s.r0.mmuReq = false)

theorem PlainR0.of_go (h : PlainR0 s) (hgo : reqGo s i = true) :
    Plain s.r0.req ∧ (s.r0.req.reserve = true → s.r0.mmuReq = false) :=
  h (r0Full_of_r0Valid (r0Valid_of_reqGo hgo))

theorem isReq_freshReq (h : Plain s.r0.req ∧ (s.r0.req.reserve = true → s.r0.mmuReq = false)) :
    IsReq (freshReq s i) s.r0.req (getLine g (ra s)) where
  plain := h.1
  reserve := rfl
  firstDw := rfl
  touch := rfl
  line := rfl
  mmuReq := h.2
  slow := by
    intro hslow hres
    obtain ⟨-, htouch, hflush, hsync, -, -⟩ := h.1 hres
    change (reqOp s i).slow = true at hslow
    change (reqOp s i = .loadMiss ∧ _ ∧ reqNc s = false) ∨ (reqOp s i = .store ∧ _)
    cases hop : reqOp s i with
    | loadMiss =>
      obtain ⟨hload, -, -, hnc⟩ := (reqSpec_of hop).2.2.2 htouch
      exact .inl ⟨rfl, hload, hnc hres⟩
    | store => exact .inr ⟨rfl, (reqSpec_of hop).2.1⟩
    | flush => exact absurd (reqSpec_of hop) (by simp [ReqSpec, hflush])
    | sync => exact absurd (reqSpec_of hop) (by simp [ReqSpec, hsync])
    | none | bad | nop | loadHit => simp [hop, ReqOp.slow] at hslow

/-! ### Runs -/

/-- The inputs with the write of another master that the bus accepts in the cycle. -/
structure RsvInputs extends Inputs where
  other : Option (BitVec wishboneAddrBits) := none

/-- The unit, the request that is parked in `r1.req`, and the line reserved by the last load with
reserve that completed, unless a store-conditional has completed or another master's write to the
line has been accepted since. -/
structure RsvTracked (g : Geometry) extends TlbTracked g where
  held : Loadstore1ToDcache := {}
  heldLine : g.Line := 0
  reserved : Option g.Line := none

variable (t : RsvTracked g) (j : RsvInputs)

/-- The request of the cycle. -/
def current : Loadstore1ToDcache := if t.cache.r1.full then t.held else t.cache.r0.req

/-- The line of the request of the cycle. -/
def currentLine : g.Line := if t.cache.r1.full then t.heldLine else getLine g (ra t.cache)

/-- The line a write on the bus goes to. -/
def busLine (g : Geometry) (adr : BitVec wishboneAddrBits) : g.Line :=
  getLine g (addrToReal (wbToAddr adr))

/-- The reservation as the completion of the request of the cycle leaves it. -/
def reservedBy : Option g.Line :=
  if lsValidNext t.cache j.toInputs then
    if isStcx (current t) then none
    else if isLarx (current t) then some (currentLine t)
    else t.reserved
  else t.reserved

def rsvStep : RsvTracked g where
  toTlbTracked := tlbStep t.toTlbTracked j.toInputs
  held := if !t.cache.r1.full && reqGo t.cache j.toInputs then t.cache.r0.req else t.held
  heldLine :=
    if !t.cache.r1.full && reqGo t.cache j.toInputs then getLine g (ra t.cache) else t.heldLine
  reserved :=
    match j.other with
    | some adr => if reservedBy t j = some (busLine g adr) then none else reservedBy t j
    | none => reservedBy t j

/-- A run starts after reset, with no reservation. -/
def RsvStart : Prop := TlbStart t.toTlbTracked ∧ t.reserved = none

/-! ### The invariant -/

/-- The registers hold the request of the cycle. -/
structure ReqInv : Prop where
  control : Control t.cache
  r0 : PlainR0 t.cache
  held : t.cache.r1.full = true → IsReq t.cache.r1.req t.held t.heldLine
  /-- A store-conditional that waits for a reload to end is not completed by it. -/
  waits : t.cache.r1.state = .reloadWaitAck → t.cache.r1.full = true →
    t.cache.r1.req.op = .store → t.cache.r1.req.reserve = true →
    t.cache.r1.req.hitReload = false
  /-- The address is that of the load-reserve which waits for its data. -/
  addr : t.cache.r1.full = true → isLarx t.held = true → t.cache.reservation.addr = t.heldLine

variable {t j}

section

variable (h : ReqInv t) {i : Inputs}

include h

theorem ReqInv.isReq (hreq : t.cache.r1.full = true ∨ reqGo t.cache i = true) :
    IsReq (req t.cache i) (current t) (currentLine t) := by
  cases hf : t.cache.r1.full with
  | true =>
    rw [req_of_full hf, current, currentLine, if_pos hf, if_pos hf]
    exact h.held hf
  | false =>
    rw [req_of_not_full hf]
    simp only [current, currentLine, hf, Bool.false_eq_true, if_false]
    exact isReq_freshReq (h.r0.of_go (hreq.resolve_left (by simp [hf])))

/-! ### What completes a request -/

/-- A request with reserve is a load that misses or a store, if the state machine has it. -/
theorem ReqInv.op (hres : (current t).reserve = true) (hslow : (req t.cache i).op.slow = true) :
    ((req t.cache i).op = .loadMiss ∧ (current t).load = true ∧ (req t.cache i).nc = false) ∨
      ((req t.cache i).op = .store ∧ (current t).load = false) :=
  (h.isReq (go_of_slow (h.control.slow_req hslow).1)).slow hslow hres

theorem ReqInv.load_of_loadMiss (hres : (current t).reserve = true)
    (hop : (req t.cache i).op = .loadMiss) :
    (current t).load = true ∧ (req t.cache i).nc = false := by
  rcases h.op (i := i) hres (by simp [hop, ReqOp.slow]) with ⟨-, hload⟩ | ⟨hstore, -⟩
  · exact hload
  · exact absurd (hop.symm.trans hstore) (by simp)

theorem ReqInv.store_of_store (hres : (current t).reserve = true)
    (hop : (req t.cache i).op = .store) : (current t).load = false := by
  rcases h.op (i := i) hres (by simp [hop, ReqOp.slow]) with ⟨hmiss, -⟩ | ⟨-, hload⟩
  · exact absurd (hop.symm.trans hmiss) (by simp)
  · exact hload

end

theorem current_of_not_full (hf : t.cache.r1.full = false) : current t = t.cache.r0.req := by
  simp [current, hf]

/-- In a reload, only a load with reserve can be completed by a row. -/
theorem ReqInv.load_of_reloadDone (h : ReqInv t) {i : Inputs}
    (hst : t.cache.r1.state = .reloadWaitAck) (hdone : reloadDone t.cache i = true)
    (hres : (current t).reserve = true) : (current t).load = true := by
  cases hf : t.cache.r1.full with
  | false =>
    refine (h.load_of_loadMiss (i := i) hres ?_).1
    rw [req_of_not_full hf]
    exact reqOp_of_reloadDone hdone hf
  | true =>
    have hreq := h.isReq (go_of_reloadDone hdone)
    simp only [reloadDone, Bool.and_eq_true] at hdone
    have hhit := hdone.1.2
    rw [req_of_full hf] at hhit hreq
    rcases hreq.slow (h.control.full hf).1 hres with ⟨-, hload, -⟩ | ⟨hop, -⟩
    · exact hload
    · rw [h.waits hst hf hop (hreq.reserve.trans hres)] at hhit
      cases hhit

theorem ReqInv.completes (h : ReqInv t) {i : Inputs} (hv : lsValidNext t.cache i = true)
    (hres : (current t).reserve = true) :
    ((current t).load = true ∧
        ((reqOp t.cache i = .loadHit ∧ t.cache.r1.full = false) ∨
          (t.cache.r1.state = .reloadWaitAck ∧ reloadDone t.cache i = true))) ∨
      ((current t).load = false ∧
        ((t.cache.r1.state = .idle ∧ idleAction t.cache i = .stcxFail) ∨
          (t.cache.r1.state = .storeWaitAck ∧ storeIssue t.cache i = true) ∨
          (t.cache.r1.state = .doStcx ∧
            (stcxRefused t.cache || stcxIssue t.cache i) = true))) := by
  have hreq := h.isReq (h.control.go_of_completes (completes_of_lsValidNext hv))
  obtain ⟨-, htouch, hflush, -, -, -⟩ := hreq.plain hres
  have hok := h.control.state
  unfold StateOk at hok
  cases completes_of_lsValidNext hv with
  | hit hop =>
    have hf : t.cache.r1.full = false := full_of_reqOp (i := i) (by simp [hop])
    rw [current_of_not_full hf] at htouch ⊢
    exact .inl ⟨((reqSpec_of hop).2.2 htouch).1, .inl ⟨hop, hf⟩⟩
  | nop hop =>
    have hf : t.cache.r1.full = false := full_of_reqOp (i := i) (by simp [hop])
    rw [current_of_not_full hf] at htouch hflush
    rcases reqSpec_of hop with hr | hr
    · exact absurd hr (by simp [htouch])
    · exact absurd hr (by simp [hflush])
  | stcxFail hst hact =>
    exact .inr ⟨h.store_of_store hres (idleSpec_of hact).1, .inl ⟨hst, hact⟩⟩
  | store hst hact =>
    have hr := (idleSpec_of hact).2.1
    rw [hreq.reserve, hres] at hr
    cases hr
  | sync hst hact =>
    have hop : (req t.cache i).op = .sync := idleSpec_of hact
    rcases h.op (i := i) hres (by simp [hop, ReqOp.slow]) with ⟨hmiss, -⟩ | ⟨hstore, -⟩
    · exact absurd (hop.symm.trans hmiss) (by simp)
    · exact absurd (hop.symm.trans hstore) (by simp)
  | touch hst hdone =>
    simp only [touchDone, Bool.and_eq_true] at hdone
    rw [← hreq.touch, req_of_full hdone.1.1.1, hdone.1.1.2] at htouch
    cases htouch
  | reload hst hdone => exact .inl ⟨h.load_of_reloadDone hst hdone hres, .inr ⟨hst, hdone⟩⟩
  | merge hst hissue =>
    exact .inr ⟨h.store_of_store hres (storeIssue_op hissue), .inr (.inl ⟨hst, hissue⟩)⟩
  | ncLoad hst =>
    simp only [hst] at hok
    obtain ⟨-, -, -, hf, hop, hnc⟩ := hok
    rw [← req_of_full (i := i) hf] at hop hnc
    rw [(h.load_of_loadMiss hres hop).2] at hnc
    cases hnc
  | stcx hst hdone =>
    simp only [hst] at hok
    obtain ⟨-, -, -, hf, hop, -⟩ := hok
    rw [← req_of_full (i := i) hf] at hop
    exact .inr ⟨h.store_of_store hres hop, .inr (.inr ⟨hst, hdone⟩)⟩
  | flush hst =>
    simp only [hst] at hok
    obtain ⟨-, -, hf, hop⟩ := hok
    rw [← req_of_full (i := i) hf] at hop
    rcases h.op (i := i) hres (by simp [hop, ReqOp.slow]) with ⟨hmiss, -⟩ | ⟨hstore, -⟩
    · exact absurd (hop.symm.trans hmiss) (by simp)
    · exact absurd (hop.symm.trans hstore) (by simp)

/-! ### One edge -/

theorem PlainR0.clock (h : PlainR0 s) (hplain : Plain i.d) : PlainR0 (clock s i) := by
  intro hfull
  change r0FullNext s i = true at hfull
  change Plain (r0Next s i).req ∧ ((r0Next s i).req.reserve = true → (r0Next s i).mmuReq = false)
  unfold r0FullNext at hfull
  unfold r0Next r0New
  split_ifs with hstall
  · exact ⟨fun hres => absurd hres (by simp), fun hres => absurd hres (by simp)⟩
  · exact ⟨hplain, fun _ => rfl⟩
  · rw [if_neg hstall] at hfull
    exact h hfull
  · rw [if_neg hstall] at hfull
    exact h hfull

theorem IsReq.with_hitReload {q : MemReq g} {r : Loadstore1ToDcache} {line : g.Line}
    (h : IsReq q r line) (b : Bool) : IsReq { q with hitReload := b } r line :=
  ⟨h.plain, h.reserve, h.firstDw, h.touch, h.line, h.mmuReq, h.slow⟩

/-- What is parked after the edge is the request of the cycle. -/
theorem held_rsvStep (hreq : t.cache.r1.full = true ∨ reqGo t.cache j.toInputs = true) :
    (rsvStep t j).held = current t ∧ (rsvStep t j).heldLine = currentLine t := by
  simp only [rsvStep, current, currentLine]
  cases hf : t.cache.r1.full with
  | true => simp
  | false =>
    have hgo := hreq.resolve_left (by simp [hf])
    simp [hgo]

theorem go_of_full_clock (hf : (clock s i).r1.full = true) :
    s.r1.full = true ∨ reqGo s i = true := by
  simp only [clock, r1Next, fullNext, Bool.and_eq_true] at hf
  exact go_of_slow hf.1

variable (h : ReqInv t) (hst : (clock t.cache j.toInputs).r1.state = .reloadWaitAck)
  (hf : (clock t.cache j.toInputs).r1.full = true)

include h hf in
theorem ReqInv.held_step :
    IsReq (clock t.cache j.toInputs).r1.req (rsvStep t j).held (rsvStep t j).heldLine := by
  have hreq := go_of_full_clock hf
  obtain ⟨hheld, hline⟩ := held_rsvStep (j := j) hreq
  change IsReq (reqNext t.cache j.toInputs) _ _
  rw [hheld, hline, reqNext_eq hreq]
  split_ifs
  · exact (h.isReq hreq).with_hitReload true
  · exact h.isReq hreq

include h hst hf in
theorem ReqInv.waits_step (hop : (clock t.cache j.toInputs).r1.req.op = .store)
    (hres : (clock t.cache j.toInputs).r1.req.reserve = true) :
    (clock t.cache j.toInputs).r1.req.hitReload = false := by
  have hreq := go_of_full_clock hf
  change (reqNext t.cache j.toInputs).op = _ at hop
  change (reqNext t.cache j.toInputs).reserve = _ at hres
  change (reqNext t.cache j.toInputs).hitReload = _
  change stateNext t.cache j.toInputs = _ at hst
  rw [reqNext_eq hreq] at hop hres ⊢
  rcases stateNext_eq_reload hst with ⟨hreload, -⟩ | ⟨hidle, hact⟩
  · rw [if_neg (by simp [hreload])] at hop hres ⊢
    cases hfull : t.cache.r1.full with
    | true =>
      rw [req_of_full hfull] at hop hres ⊢
      exact h.waits hreload hfull hop hres
    | false =>
      rw [req_of_not_full hfull] at hop ⊢
      simp only [freshReq] at hop ⊢
      simp [hop]
  · -- a reload is started by a load or by dcbz
    rw [if_pos hidle] at hop hres
    rcases hact with hact | hact
    · exact absurd (hop.symm.trans (idleSpec_of hact).1) (by simp)
    · exact absurd (hres.symm.trans (idleSpec_of hact).2.1) (by simp)

/-- A looked up load-reserve that has passed the checks sets the address. -/
theorem reserveLookup_of_larx (hlarx : isLarx s.r0.req = true) (hgo : reqGo s i = true)
    (hok : accessOk s i = true) : reserveLookup s i = true := by
  simp only [isLarx, Bool.and_eq_true] at hlarx
  simp [reserveLookup, hgo, hok, hlarx]

theorem reserveLookup_of_full (hf : s.r1.full = true) : reserveLookup s i = false := by
  simp [reserveLookup, reqGo, r0Valid, hf]

theorem reservation_addr_clock :
    (clock s i).reservation.addr =
      if reserveLookup s i then getLine g (ra s) else s.reservation.addr := rfl

include h hf in
theorem ReqInv.addr_step (hlarx : isLarx (rsvStep t j).held = true) :
    (clock t.cache j.toInputs).reservation.addr = (rsvStep t j).heldLine := by
  have hreq := go_of_full_clock hf
  obtain ⟨hheld, hline⟩ := held_rsvStep (j := j) hreq
  rw [hheld] at hlarx
  rw [hline, reservation_addr_clock]
  cases hfull : t.cache.r1.full with
  | true =>
    simp only [reserveLookup_of_full hfull, currentLine, hfull, Bool.false_eq_true, if_false,
      if_true]
    simp only [current, hfull, if_true] at hlarx
    exact h.addr hfull hlarx
  | false =>
    have hgo := hreq.resolve_left (by simp [hfull])
    have hslow : (req t.cache j.toInputs).op.slow = true := by
      rw [req_of_not_full hfull]
      simp only [clock, r1Next, fullNext, hfull, Bool.false_or, Bool.and_eq_true] at hf
      exact hf.1
    have hflags : (current t).load = true ∧ (current t).reserve = true := by
      simp only [isLarx, Bool.and_eq_true] at hlarx
      exact hlarx.1
    have hmiss : reqOp t.cache j.toInputs = .loadMiss := by
      rcases h.op hflags.2 hslow with ⟨hop, -⟩ | ⟨-, hload⟩
      · rw [req_of_not_full hfull] at hop
        exact hop
      · exact absurd (hflags.1.symm.trans hload) (by simp)
    rw [current_of_not_full hfull] at hlarx
    rw [if_pos (reserveLookup_of_larx hlarx hgo (reqSpec_of hmiss).1)]
    simp [currentLine, hfull]

/-- A load-reserve that completes leaves its own line in the register. -/
theorem ReqInv.addr_of_completes (h : ReqInv t) {i : Inputs} (hlarx : isLarx (current t) = true)
    (hv : lsValidNext t.cache i = true) :
    (clock t.cache i).reservation.addr = currentLine t := by
  have hflags : (current t).load = true ∧ (current t).reserve = true := by
    simp only [isLarx, Bool.and_eq_true] at hlarx
    exact hlarx.1
  rw [reservation_addr_clock]
  cases hf : t.cache.r1.full with
  | true =>
    simp only [reserveLookup_of_full hf, currentLine, hf, Bool.false_eq_true, if_false, if_true]
    simp only [current, hf, if_true] at hlarx
    exact h.addr hf hlarx
  | false =>
    have hok : reqGo t.cache i = true ∧ accessOk t.cache i = true := by
      rcases h.completes hv hflags.2 with ⟨-, ⟨hop, -⟩ | ⟨hst, hdone⟩⟩ | ⟨hload, -⟩
      · exact ⟨reqGo_of_reqOp (by simp [hop]), (reqSpec_of hop).1⟩
      · have hop := reqOp_of_reloadDone hdone hf
        exact ⟨reqGo_of_reqOp (by simp [hop]), (reqSpec_of hop).1⟩
      · exact absurd (hflags.1.symm.trans hload) (by simp)
    rw [current_of_not_full hf] at hlarx
    rw [if_pos (reserveLookup_of_larx hlarx hok.1 hok.2)]
    simp [currentLine, hf]

theorem ReqInv.step (h : ReqInv t) (hrst : j.rst = false) (hplain : Plain j.d) :
    ReqInv (rsvStep t j) := by
  have hclock : (rsvStep t j).cache = clock t.cache j.toInputs := step_eq_clock hrst
  refine ⟨?_, ?_, ?_, ?_, ?_⟩ <;> rw [hclock]
  · exact h.control.clock
  · exact h.r0.clock hplain
  · exact h.held_step
  · exact h.waits_step
  · exact h.addr_step

theorem RsvStart.reqInv (h : RsvStart t) : ReqInv t := by
  obtain ⟨⟨hreset, -⟩, -⟩ := h
  refine ⟨hreset.control, ?_, ?_, ?_, ?_⟩
  · exact fun hf => absurd hf (by simp [hreset.r0Full])
  · exact fun hf => absurd hf (by simp [hreset.full])
  · exact fun hst => absurd hst (by simp [hreset.state])
  · exact fun hf => absurd hf (by simp [hreset.full])

end Dcache

end Microwatt
