import Microwatt.Dcache.Step

/-!
# The data cache: its state machine

What the state of the machine says about the bus and about the parked request, in every run. The
results about single claims of the unit all start from here, so that each of them only has to
follow the data it is about.

## Main definitions

* `Dcache.Control` — how `r1.state` and the other control registers belong together

## Main results

* `Dcache.reqOp_spec`, `Dcache.Control.clock`
-/

namespace Microwatt

open Bool (and_eq_true not_eq_true' or_eq_true)

namespace Dcache

variable {g : Geometry} {s : State g} {i : Inputs}

/-! ### What a lookup has found -/

theorem reqGo_of_reqOp (h : reqOp s i ≠ .none) : reqGo s i = true := by
  by_contra hgo
  exact h (reqOp_of_not_go (by simpa using hgo))

theorem r0Valid_of_reqGo (h : reqGo s i = true) : r0Valid s i = true := by
  simp only [reqGo, and_eq_true] at h
  exact h.1

theorem r0Full_of_r0Valid (h : r0Valid s i = true) : s.r0Full = true := by
  simp only [r0Valid, and_eq_true] at h
  exact h.1.1

theorem full_of_r0Valid (h : r0Valid s i = true) : s.r1.full = false := by
  simp only [r0Valid, and_eq_true, not_eq_true'] at h
  exact h.1.2

theorem full_of_reqOp (h : reqOp s i ≠ .none) : s.r1.full = false :=
  full_of_r0Valid (r0Valid_of_reqGo (reqGo_of_reqOp h))

/-- What a lookup has found when it asks for an operation. -/
def ReqSpec (s : State g) (i : Inputs) : ReqOp → Prop
  | .store =>
    accessOk s i = true ∧ s.r0.req.load = false ∧ s.r0.req.sync = false ∧
      s.r0.req.touch = false ∧ s.r0.req.tlbProbe = false ∧ s.r0.req.flush = false ∧
      (reqNc s && (reqIsHit s i || s.r0.req.reserve)) = false
  | .loadMiss =>
    accessOk s i = true ∧ s.r0.req.sync = false ∧ reqIsHit s i = false ∧
      (s.r0.req.touch = false →
        s.r0.req.load = true ∧ s.r0.req.flush = false ∧ s.r0.req.tlbProbe = false ∧
          (s.r0.req.reserve = true → reqNc s = false))
  | .nop => s.r0.req.touch = true ∨ s.r0.req.flush = true
  | .flush => s.r0.req.flush = true
  | .sync => s.r0.req.sync = true
  | .loadHit =>
    accessOk s i = true ∧ s.r0.req.sync = false ∧
      (s.r0.req.touch = false → s.r0.req.load = true ∧ reqIsHit s i = true)
  | .none | .bad => True

theorem reqOp_spec (s : State g) (i : Inputs) : ReqSpec s i (reqOp s i) := by
  unfold reqOp
  cases reqGo s i with
  | false => trivial
  | true =>
    cases hsync : s.r0.req.sync with
    | true => exact hsync
    | false =>
      cases hok : accessOk s i <;> cases hhit : reqIsHit s i <;> cases hnc : reqNc s
      all_goals
        cases htouch : s.r0.req.touch with
        | true => cases reqHitReload s i <;> simp [ReqSpec, *]
        | false =>
          cases hprobe : s.r0.req.tlbProbe with
          | true => trivial
          | false =>
            cases hflush : s.r0.req.flush <;> cases hload : s.r0.req.load <;>
              cases hres : s.r0.req.reserve <;> simp [ReqSpec, *]

theorem reqSpec_of {op : ReqOp} (h : reqOp s i = op) : ReqSpec s i op := h ▸ reqOp_spec s i

/-! ### What the state says -/

/-- The registers that go with each state. -/
def StateOk (s : State g) : Prop :=
  match s.r1.state with
  | .idle => s.r1.wb.cyc = false ∧ s.r1.reloading = false
  | .reloadWaitAck => s.r1.wb.cyc = true ∧ (s.r1.dcbz = false → s.r1.reloading = true)
  | .storeWaitAck => s.r1.wb.cyc = true ∧ s.r1.wb.we = true ∧ s.r1.reloading = false
  | .ncLoadWaitAck =>
    s.r1.wb.cyc = true ∧ s.r1.wb.we = false ∧ s.r1.reloading = false ∧ s.r1.full = true ∧
      s.r1.req.op = .loadMiss ∧ s.r1.req.nc = true
  | .doStcx =>
    s.r1.wb.cyc = true ∧ s.r1.wb.we = true ∧ s.r1.reloading = false ∧ s.r1.full = true ∧
      s.r1.req.op = .store ∧ s.r1.req.reserve = true
  | .flushCycle =>
    s.r1.wb.cyc = false ∧ s.r1.reloading = false ∧ s.r1.full = true ∧ s.r1.req.op = .flush

/-- The control registers fit together. -/
structure Control (s : State g) : Prop where
  state : StateOk s
  full : s.r1.full = true → s.r1.req.op.slow = true ∧ s.r1.req.valid = true
  writeTag : s.r1.writeTag = true → s.r1.state = .reloadWaitAck ∧ s.r1.full = true
  writeBram : s.r1.writeBram = true → s.r1.state = .storeWaitAck ∧ s.r1.full = false
  lsError : s.r1.lsError = true → s.r1.full = false

theorem AfterReset.control (h : AfterReset s) : Control s where
  state := by simp [StateOk, h.state, h.cyc, h.reloading]
  full := fun hf => absurd hf (by simp [h.full])
  writeTag := fun hf => absurd hf (by simp [h.writeTag])
  writeBram := fun hf => absurd hf (by simp [h.writeBram])
  lsError := fun hf => absurd hf (by simp [h.lsError])

/-! ### The request of a cycle -/

theorem req_of_full (h : s.r1.full = true) : req s i = s.r1.req := by simp [req, h]

theorem req_of_not_full (h : s.r1.full = false) : req s i = freshReq s i := by simp [req, h]

/-- The request has an operation for the state machine only if there is one at all. -/
theorem Control.slow_req (h : Control s) (hslow : (req s i).op.slow = true) :
    (s.r1.full || (reqOp s i).slow) = true ∧ (req s i).valid = true := by
  cases hf : s.r1.full with
  | true =>
    rw [req_of_full hf]
    exact ⟨rfl, (h.full hf).2⟩
  | false =>
    rw [req_of_not_full hf] at hslow ⊢
    refine ⟨by simpa [freshReq] using hslow, reqGo_of_reqOp fun hop => ?_⟩
    simp [freshReq, hop, ReqOp.slow] at hslow

/-- What each choice in IDLE says about the request. -/
def IdleSpec (s : State g) (i : Inputs) : IdleAction → Prop
  | .none => (req s i).op.slow = false
  | .load => (req s i).op = .loadMiss ∧ (req s i).nc = false
  | .ncLoad => (req s i).op = .loadMiss ∧ (req s i).nc = true
  | .stcxFail =>
    (req s i).op = .store ∧ (req s i).reserve = true ∧
      (s.reservation.valid = false ∨ killRsrv s = true)
  | .stcx =>
    (req s i).op = .store ∧ (req s i).reserve = true ∧ s.reservation.valid = true ∧
      killRsrv s = false
  | .store => (req s i).op = .store ∧ (req s i).reserve = false ∧ (req s i).dcbz = false
  | .dcbz => (req s i).op = .store ∧ (req s i).reserve = false ∧ (req s i).dcbz = true
  | .flush => (req s i).op = .flush
  | .sync => (req s i).op = .sync

theorem idleAction_spec (s : State g) (i : Inputs) : IdleSpec s i (idleAction s i) := by
  unfold idleAction
  cases hop : (req s i).op <;> simp only [IdleSpec, hop, ReqOp.slow]
  case loadMiss => split_ifs with hnc <;> simp [hnc]
  case store => split_ifs with hres hvalid hdcbz <;> simp_all

theorem idleSpec_of {a : IdleAction} (h : idleAction s i = a) : IdleSpec s i a :=
  h ▸ idleAction_spec s i

theorem IdleSpec.slow {a : IdleAction} (h : IdleSpec s i a) (hne : a ≠ .none) :
    (req s i).op.slow = true := by
  cases a <;> simp_all [IdleSpec, ReqOp.slow]

theorem reqNext_eq (hreq : s.r1.full = true ∨ reqGo s i = true) :
    reqNext s i =
      if s.r1.state = .idle then { req s i with hitReload := true } else req s i := by
  have hkept : (if !s.r1.full && reqGo s i then freshReq s i else s.r1.req) = req s i := by
    cases hf : s.r1.full with
    | true => simp [req, hf]
    | false => simp [req, hf, hreq.resolve_left (by simp [hf])]
  unfold reqNext
  rw [hkept]
  cases s.r1.state <;> rfl

theorem go_of_slow (h : (s.r1.full || (reqOp s i).slow) = true) :
    s.r1.full = true ∨ reqGo s i = true := by
  rcases or_eq_true _ _ ▸ h with hf | hslow
  · exact .inl hf
  · exact .inr (reqGo_of_reqOp fun hop => by simp [hop, ReqOp.slow] at hslow)

theorem Control.taken (h : Control s) (hst : s.r1.state = .idle) {a : IdleAction}
    (hact : idleAction s i = a) (hne : a ≠ .none) :
    reqNext s i = { req s i with hitReload := true } ∧ (req s i).valid = true ∧
      fullNext s i = !(a == .stcxFail || a == .store || a == .sync) := by
  obtain ⟨hslow, hvalid⟩ := h.slow_req ((idleSpec_of hact).slow hne)
  refine ⟨?_, hvalid, ?_⟩
  · rw [reqNext_eq (go_of_slow hslow), if_pos hst]
  · simp only [fullNext, hslow, finishes, hst, hact, Bool.true_and]

/-- How the state machine comes to be in RELOAD_WAIT_ACK. -/
theorem stateNext_eq_reload (h : stateNext s i = .reloadWaitAck) :
    (s.r1.state = .reloadWaitAck ∧ reloadLast s i = false) ∨
      (s.r1.state = .idle ∧ (idleAction s i = .load ∨ idleAction s i = .dcbz)) := by
  cases hst : s.r1.state with
  | idle => cases hact : idleAction s i <;> simp [stateNext, hst, hact] at h ⊢
  | reloadWaitAck =>
    cases hlast : reloadLast s i
    · simp
    · simp [stateNext, hst, hlast] at h
  | storeWaitAck | ncLoadWaitAck | doStcx =>
    simp only [stateNext, hst] at h
    split_ifs at h
  | flushCycle => simp [stateNext, hst] at h

/-- The ways in which a request of loadstore1 completes. -/
inductive Completes (s : State g) (i : Inputs) : Prop
  | hit (hop : reqOp s i = .loadHit)
  | nop (hop : reqOp s i = .nop)
  | stcxFail (hst : s.r1.state = .idle) (hact : idleAction s i = .stcxFail)
  | store (hst : s.r1.state = .idle) (hact : idleAction s i = .store)
  | sync (hst : s.r1.state = .idle) (hact : idleAction s i = .sync)
  | touch (hst : s.r1.state = .reloadWaitAck) (hdone : touchDone s = true)
  | reload (hst : s.r1.state = .reloadWaitAck) (hdone : reloadDone s i = true)
  | merge (hst : s.r1.state = .storeWaitAck) (hissue : storeIssue s i = true)
  | ncLoad (hst : s.r1.state = .ncLoadWaitAck) (hack : i.wb.ack = true)
  | stcx (hst : s.r1.state = .doStcx) (hdone : (stcxRefused s || stcxIssue s i) = true)
  | flush (hst : s.r1.state = .flushCycle)

theorem completes_of_lsValidNext (h : lsValidNext s i = true) : Completes s i := by
  rcases (or_eq_true _ _).mp h with hfast | hslow
  · simp only [and_eq_true, or_eq_true, beq_iff_eq] at hfast
    rcases hfast.1 with hop | hop
    · exact .hit hop
    · exact .nop hop
  · cases hst : s.r1.state with
    | idle =>
      simp only [hst, or_eq_true, and_eq_true, beq_iff_eq] at hslow
      rcases hslow with (hact | hact) | hact
      · exact .stcxFail hst hact
      · exact .store hst hact.1
      · exact .sync hst hact
    | reloadWaitAck =>
      simp only [hst, or_eq_true, and_eq_true] at hslow
      rcases hslow with hdone | hdone
      · exact .touch hst hdone
      · exact .reload hst hdone.1
    | storeWaitAck =>
      simp only [hst] at hslow
      exact .merge hst hslow
    | ncLoadWaitAck =>
      simp only [hst, and_eq_true] at hslow
      exact .ncLoad hst hslow.1
    | doStcx =>
      simp only [hst] at hslow
      exact .stcx hst hslow
    | flushCycle => exact .flush hst

/-- In a reload, the request that a row completes from `r0` is a load that misses. -/
theorem reqOp_of_reloadDone (hdone : reloadDone s i = true) (hf : s.r1.full = false) :
    reqOp s i = .loadMiss := by
  simp only [reloadDone, and_eq_true, req_of_not_full hf, freshReq, beq_iff_eq] at hdone
  exact hdone.1.2.2

theorem go_of_reloadDone (hdone : reloadDone s i = true) : s.r1.full = true ∨ reqGo s i = true := by
  cases hf : s.r1.full with
  | true => exact .inl rfl
  | false => exact .inr (reqGo_of_reqOp (by simp [reqOp_of_reloadDone hdone hf]))

theorem storeIssue_op (h : storeIssue s i = true) : (req s i).op = .store := by
  simp only [storeIssue, storeMerge, and_eq_true, beq_iff_eq] at h
  exact h.1.2.1.1.1

/-- What completes is the parked request or the one that is looked up. -/
theorem Control.go_of_completes (h : Control s) (hc : Completes s i) :
    s.r1.full = true ∨ reqGo s i = true := by
  have hok := h.state
  unfold StateOk at hok
  have hslow : (req s i).op.slow = true → s.r1.full = true ∨ reqGo s i = true :=
    fun hs => go_of_slow (h.slow_req hs).1
  cases hc with
  | hit hop => exact .inr (reqGo_of_reqOp (by simp [hop]))
  | nop hop => exact .inr (reqGo_of_reqOp (by simp [hop]))
  | stcxFail hst hact => exact hslow ((idleSpec_of hact).slow (by decide))
  | store hst hact => exact hslow ((idleSpec_of hact).slow (by decide))
  | sync hst hact => exact hslow ((idleSpec_of hact).slow (by decide))
  | touch hst hdone =>
    simp only [touchDone, and_eq_true] at hdone
    exact .inl hdone.1.1.1
  | reload hst hdone => exact go_of_reloadDone hdone
  | merge hst hissue => exact hslow (by simp [storeIssue_op hissue, ReqOp.slow])
  | ncLoad hst =>
    simp only [hst] at hok
    exact .inl hok.2.2.2.1
  | stcx hst =>
    simp only [hst] at hok
    exact .inl hok.2.2.2.1
  | flush hst =>
    simp only [hst] at hok
    exact .inl hok.2.2.1

/-! ### One edge -/

theorem Control.stateOk_clock (h : Control s) : StateOk (clock s i) := by
  have hok := h.state
  unfold StateOk at hok
  cases hst : s.r1.state with
  | idle =>
    simp only [hst] at hok
    obtain ⟨hcyc, hrel⟩ := hok
    have hspec := idleAction_spec s i
    cases hact : idleAction s i <;> rw [hact] at hspec <;>
      simp only [StateOk, clock, r1Next, stateNext, wbNext, reloadingNext, hst, hact, hcyc, hrel,
        true_and, and_self]
    case load => exact fun _ => trivial
    case ncLoad =>
      obtain ⟨hreq, -, hfull⟩ := h.taken hst hact (by decide)
      rw [hreq, hfull]
      exact ⟨rfl, hspec⟩
    case stcx =>
      obtain ⟨hreq, -, hfull⟩ := h.taken hst hact (by decide)
      rw [hreq, hfull]
      exact ⟨rfl, hspec.1, hspec.2.1⟩
    case dcbz =>
      obtain ⟨-, hvalid, -⟩ := h.taken hst hact (by decide)
      simp [hspec.2.2, hvalid]
    case flush =>
      obtain ⟨hreq, -, hfull⟩ := h.taken hst hact (by decide)
      rw [hreq, hfull]
      exact ⟨rfl, hspec⟩
  | reloadWaitAck =>
    simp only [hst] at hok
    obtain ⟨hcyc, hrel⟩ := hok
    cases hlast : reloadLast s i
    · simpa [StateOk, clock, r1Next, stateNext, wbNext, reloadingNext, hst, hlast, hcyc] using hrel
    · simp [StateOk, clock, r1Next, stateNext, wbNext, reloadingNext, hst, hlast]
  | storeWaitAck =>
    simp only [hst] at hok
    obtain ⟨hcyc, hwe, hrel⟩ := hok
    cases hexit : storeExit s i <;>
      simp [StateOk, clock, r1Next, stateNext, wbNext, reloadingNext, hst, hexit, hcyc, hwe, hrel]
  | ncLoadWaitAck =>
    simp only [hst] at hok
    obtain ⟨hcyc, hwe, hrel, hfull, hop, hnc⟩ := hok
    cases hack : i.wb.ack
    · simp [StateOk, clock, r1Next, stateNext, wbNext, reloadingNext, hst, hack, hcyc, hwe, hrel,
        fullNext, finishes, hfull, reqNext, hop, hnc]
    · simp [StateOk, clock, r1Next, stateNext, wbNext, reloadingNext, hst, hack, hrel]
  | doStcx =>
    simp only [hst] at hok
    obtain ⟨hcyc, hwe, hrel, hfull, hop, hres⟩ := hok
    cases href : stcxRefused s <;> cases hstall : i.wb.stall <;>
      simp [StateOk, clock, r1Next, stateNext, wbNext, reloadingNext, hst, href, hstall, hcyc, hwe,
        hrel, fullNext, finishes, hfull, reqNext, hop, hres, stcxIssue]
  | flushCycle =>
    simp only [hst] at hok
    obtain ⟨hcyc, hrel, -, -⟩ := hok
    simp [StateOk, clock, r1Next, stateNext, wbNext, reloadingNext, hst, hcyc, hrel]

/-- A parked request is one that the state machine has to carry out. -/
theorem Control.full_clock (h : Control s) (hf : (clock s i).r1.full = true) :
    (clock s i).r1.req.op.slow = true ∧ (clock s i).r1.req.valid = true := by
  have hslow : (s.r1.full || (reqOp s i).slow) = true := by
    simp only [clock, r1Next, fullNext, and_eq_true] at hf
    exact hf.1
  have hreq : (req s i).op.slow = true ∧ (req s i).valid = true := by
    cases hfull : s.r1.full with
    | true => rw [req_of_full hfull]; exact h.full hfull
    | false =>
      rw [req_of_not_full hfull]
      rw [hfull, Bool.false_or] at hslow
      exact ⟨hslow, (go_of_slow (s := s) (by simp [hslow])).resolve_left (by simp [hfull])⟩
  simp only [clock, r1Next, reqNext_eq (go_of_slow hslow)]
  split_ifs <;> exact hreq

/-- **The control registers fit together in every run.** -/
theorem Control.clock (h : Control s) : Control (clock s i) where
  state := h.stateOk_clock
  full := h.full_clock
  writeTag := by
    intro htag
    simp only [Dcache.clock, r1Next, writeTagNext] at htag
    split at htag
    case h_2 => exact absurd htag (by simp)
    case h_1 hst =>
      simp only [Dcache.clock, r1Next]
      split at htag
      case h_1 hact =>
        exact ⟨by simp [stateNext, hst, hact], (h.taken hst hact (by decide)).2.2⟩
      case h_2 hact =>
        exact ⟨by simp [stateNext, hst, hact], (h.taken hst hact (by decide)).2.2⟩
      case h_3 => exact absurd htag (by simp)
  writeBram := by
    intro hbram
    simp only [Dcache.clock, r1Next, writeBramNext] at hbram ⊢
    split at hbram
    case h_1 hst =>
      simp only [and_eq_true, beq_iff_eq] at hbram
      exact ⟨by simp [stateNext, hst, hbram.1], (h.taken hst hbram.1 (by decide)).2.2⟩
    case h_2 hst =>
      simp only [and_eq_true] at hbram
      have hexit : storeExit s i = false := by
        have hissue := hbram.1
        simp only [storeIssue, and_eq_true, not_eq_true'] at hissue
        simp [storeExit, stbsDone, hissue.1.1, hissue.1.2, hbram.1]
      exact ⟨by simp [stateNext, hst, hexit], by simp [fullNext, finishes, hst, hbram.1]⟩
    case h_3 hst =>
      simp only [and_eq_true] at hbram
      have hissue := hbram.1
      simp only [stcxIssue, and_eq_true, not_eq_true'] at hissue
      exact ⟨by simp [stateNext, hst, hissue], by simp [fullNext, finishes, hst, hbram.1]⟩
    case h_4 => exact absurd hbram (by simp)
  lsError := by
    intro herr
    simp only [Dcache.clock, r1Next, and_eq_true, beq_iff_eq] at herr ⊢
    have hf : s.r1.full = false := full_of_reqOp (i := i) (by simp [herr.1])
    simp [fullNext, hf, herr.1, ReqOp.slow]

end Dcache

end Microwatt
