import Microwatt.Dcache.Control
import Microwatt.Lib.Clocked
import Microwatt.Lib.Cyclic

/-!
# The data cache as a bus master

A pipelined wishbone lets the master present new requests before the earlier ones are acknowledged,
so the master has to know how many acknowledgements are still to come before it may end the bus
cycle. The unit knows it in two ways. In RELOAD_WAIT_ACK it compares row numbers: `r1.wb.adr` is the
next row to ask for, `r1.store_row` the next one to arrive and `r1.end_row_ix` the last of both. In
STORE_WAIT_ACK it counts, and the counter lags: a request is counted in the cycle after it was put
on the bus, an acknowledgement in the cycle after it came.

Here the bus itself is followed by the number of accepted requests without an acknowledgement, and
both ways of counting are shown to agree with it.

## Main definitions

* `Dcache.BusTracked`, `Dcache.BusEnv` — the run with the number of outstanding requests
* `Dcache.BusOk` — what each state knows about that number

## Main results

* `Dcache.BusOk.clock`, `Dcache.wishbone_discipline`
-/

namespace Microwatt

open Clocked Bool

namespace Dcache

variable {g : Geometry}

/-- The slave accepts a request in this cycle. -/
def busAccept (s : State g) (i : Inputs) : Bool := s.r1.wb.cyc && s.r1.wb.stb && !i.wb.stall

/-- The number of accepted requests without an acknowledgement after the cycle. -/
def outstandingNext (s : State g) (i : Inputs) (n : ℕ) : ℕ :=
  n + (busAccept s i).toNat - i.wb.ack.toNat

/-- Rows of the line that have arrived. -/
def rowsDone (s : State g) : ℕ := Cyclic.steps s.r1.endRowIx (getRowOfLine s.r1.storeRow)

/-- Rows of the line that the slave has been asked for. -/
def rowsSent (s : State g) : ℕ :=
  if s.r1.wb.stb then Cyclic.steps s.r1.endRowIx (s.r1.wb.adr.setWidth g.rowLinebits)
  else 2 ^ g.rowLinebits

/-- What each state knows about the number of outstanding requests. -/
def BusOk (s : State g) (n : ℕ) : Prop :=
  match s.r1.state with
  | .idle | .flushCycle => s.r1.wb.stb = false ∧ n = 0
  | .reloadWaitAck => rowsDone s + n = rowsSent s
  | .storeWaitAck => (acks s).toNat = n + s.r1.wb.stb.toNat
  | .ncLoadWaitAck => n + s.r1.wb.stb.toNat = 1
  | .doStcx => s.r1.wb.stb = false ∧ n = 0 ∧ acks s = 0

variable {s : State g} {i : Inputs} {n : ℕ}

theorem AfterReset.busOk (h : AfterReset s) : BusOk s 0 := by
  simp [BusOk, h.state, h.stb]

/-! ### Row numbers -/

theorem getRowOfLine_nextRow (row : g.Row) : getRowOfLine (nextRow row) = getRowOfLine row + 1 :=
  setWidth_setLow _ _ (Nat.le_add_left _ _)

theorem rowLinebits_le (g : Geometry) : g.rowLinebits ≤ 29 := by
  have := g.setSize
  omega

theorem setWidth_nextRowWbAddr (adr : BitVec wishboneAddrBits) :
    (nextRowWbAddr g adr).setWidth g.rowLinebits = adr.setWidth g.rowLinebits + 1 :=
  setWidth_setLow _ _ (rowLinebits_le g)

theorem setWidth_addrToWb (a : RealAddr) :
    (addrToWb a).setWidth g.rowLinebits = getRowOfLine (getRow g a) := by
  have hsize := g.setSize
  refine BitVec.eq_of_getLsbD_eq fun j hj => ?_
  simp [addrToWb, getRowOfLine, getRow, hj, show j < 29 by omega,
    show j < g.indexBits + g.rowLinebits by omega]

/-! ### One edge -/

/-- The number of accepted requests in a reload grows with `rowsSent`. -/
theorem rowsSent_clock (hst : s.r1.state = .reloadWaitAck) (hcyc : s.r1.wb.cyc = true) :
    rowsSent (clock s i) = rowsSent s + (busAccept s i).toNat := by
  simp only [rowsSent, clock, r1Next, wbNext, hst, busAccept, rowAccepted, hcyc, Bool.true_and]
  by_cases hstb : s.r1.wb.stb = true
  · by_cases hstall : i.wb.stall = true
    · simp [hstb, hstall]
    · by_cases hlast : s.r1.wb.adr.setWidth g.rowLinebits = s.r1.endRowIx
      · have hend := Cyclic.steps_last.mpr hlast
        simp [hstb, hstall, isLastRowWbAddr, hlast, ← hend]
      · have hnext := Cyclic.steps_succ hlast
        rw [← setWidth_nextRowWbAddr] at hnext
        simp [hstb, hstall, isLastRowWbAddr, hlast, hnext]
  · simp [hstb]

theorem rowsDone_clock (hst : s.r1.state = .reloadWaitAck) (hlast : reloadLast s i = false) :
    rowsDone (clock s i) = rowsDone s + i.wb.ack.toNat := by
  simp only [rowsDone, clock, r1Next, storeRowNext, hst]
  by_cases hack : i.wb.ack = true
  · have hne : getRowOfLine s.r1.storeRow ≠ s.r1.endRowIx := by
      simpa [reloadLast, hack, isLastRow] using hlast
    rw [if_pos hack, getRowOfLine_nextRow, Cyclic.steps_succ hne, hack, toNat_true]
  · simp [hack]

/-- The counter of the next cycle. The lag of `stalled` and `dec_acks` makes up for the lag of the
counter itself. -/
theorem toNat_acks_clock (hcyc : s.r1.wb.cyc = true) (hcyc' : (clock s i).r1.wb.cyc = true)
    (hack : i.wb.ack = true → 0 < (acks s).toNat)
    (hroom : (clock s i).r1.wb.stb = true → i.wb.stall = false → (acks s).toNat < 7) :
    (acks (clock s i)).toNat =
      (acks s).toNat + ((clock s i).r1.wb.stb && !i.wb.stall).toNat - i.wb.ack.toNat := by
  have hpend : (clock s i).r1.acksPending = acks s := rfl
  have hstalled : (clock s i).r1.stalled = i.wb.stall := by simp [clock, r1Next, hcyc]
  have hdec : (clock s i).r1.decAcks = i.wb.ack := by simp [clock, r1Next, hcyc]
  rw [acks.eq_def (clock s i), hpend, hstalled, hdec, hcyc']
  clear hpend hstalled hdec hcyc hcyc'
  revert hack hroom
  generalize acks s = a, (clock s i).r1.wb.stb = b, i.wb.ack = c, i.wb.stall = d
  revert a b c d
  decide

/-- A reload starts with no row sent or arrived. -/
theorem rows_clock_idle (hst : s.r1.state = .idle) (hstb : (clock s i).r1.wb.stb = true) :
    rowsDone (clock s i) = 0 ∧ rowsSent (clock s i) = 0 := by
  have hadr : (clock s i).r1.wb.adr = addrToWb (req s i).realAddr := by
    simp only [clock, r1Next, wbNext, hst]
  have hend : (clock s i).r1.endRowIx = getRowOfLine (getRow g (req s i).realAddr) - 1 := by
    simp only [clock, r1Next, hst]
  have hrow : (clock s i).r1.storeRow = getRow g (req s i).realAddr := by
    simp only [clock, r1Next, storeRowNext, hst]
  rw [rowsDone, rowsSent, if_pos hstb, hadr, hend, hrow, setWidth_addrToWb]
  exact ⟨Cyclic.steps_start, Cyclic.steps_start⟩

/-- The counter is cleared while there is no bus cycle. -/
theorem acks_clock_of_not_cyc (hcyc : s.r1.wb.cyc = false) (hcyc' : (clock s i).r1.wb.cyc = true) :
    acks (clock s i) = if (clock s i).r1.wb.stb then 1 else 0 := by
  have hpend : (clock s i).r1.acksPending = 0 := by
    change acks s = 0
    simp [acks, hcyc]
  have hstalled : (clock s i).r1.stalled = false := by simp [clock, r1Next, hcyc]
  have hdec : (clock s i).r1.decAcks = false := by simp [clock, r1Next, hcyc]
  rw [acks.eq_def (clock s i), hpend, hstalled, hdec, hcyc']
  simp

theorem clock_state (s : State g) (i : Inputs) : (clock s i).r1.state = stateNext s i := rfl

theorem clock_wb (s : State g) (i : Inputs) : (clock s i).r1.wb = wbNext s i := rfl

theorem BusOk.clock_idle (hc : Control s) (hst : s.r1.state = .idle) (h : BusOk s n) :
    BusOk (clock s i) (outstandingNext s i n) := by
  have hok := hc.state
  simp only [StateOk, hst] at hok
  simp only [BusOk, hst] at h
  obtain ⟨hstb, rfl⟩ := h
  obtain ⟨hcyc, -⟩ := hok
  have hn : outstandingNext s i 0 = 0 := by simp [outstandingNext, busAccept, hcyc]
  have hacks := acks_clock_of_not_cyc (i := i) hcyc
  rw [hn]
  unfold BusOk
  rw [clock_state]
  rw [clock_wb] at hacks ⊢
  cases hact : idleAction s i
  case load | dcbz =>
    have hrows := rows_clock_idle (i := i) hst (by simp [clock_wb, wbNext, hst, hact])
    simp [stateNext, hst, hact, hrows]
  case store | stcx =>
    have hnext := hacks (by simp [wbNext, hst, hact])
    simp [stateNext, wbNext, hst, hact, hstb] at hnext ⊢
    simp [hnext]
  all_goals simp [stateNext, wbNext, hst, hact, hstb]

theorem ack_toNat_le (hack : i.wb.ack = true → 0 < n) : i.wb.ack.toNat ≤ n := by
  cases hck : i.wb.ack
  · simp
  · exact hack hck

/-- The bus cycle of stores ends when no store joins it, none is to come that belongs to the last
one, and with this cycle's acknowledgement everything that was presented is acknowledged. -/
theorem storeExit_iff (h : (acks s).toNat = n + s.r1.wb.stb.toNat)
    (hack : i.wb.ack = true → 0 < n) :
    storeExit s i = true ↔
      storeIssue s i = false ∧ s.r1.atomicMore = false ∧
        n + s.r1.wb.stb.toNat = i.wb.ack.toNat := by
  have hzero : acks s = 0 ↔ n + s.r1.wb.stb.toNat = 0 := by
    rw [← h, ← BitVec.toNat_inj]
    rfl
  have hone : acks s = 1 ↔ n + s.r1.wb.stb.toNat = 1 := by
    rw [← h, ← BitVec.toNat_inj]
    rfl
  have hlt : acks s < 7 ↔ n + s.r1.wb.stb.toNat < 7 := by
    rw [← h]
    rfl
  have hle := ack_toNat_le hack
  simp only [storeExit, stbsDone, storeIssue, and_eq_true, or_eq_true, beq_iff_eq, hzero,
    hone, hlt, not_eq_true']
  clear h hzero hone hlt hack
  revert hle
  cases s.r1.atomicMore <;> cases s.r1.wb.stb <;> cases i.wb.stall <;> cases i.wb.ack <;>
    cases storeMerge s i <;> simp <;> omega

section

variable (hc : Control s) (h : BusOk s n) (hack : i.wb.ack = true → 0 < n)

include hc h hack

/-- A reload ends with its last row, when nothing is left to be sent. -/
theorem BusOk.clock_reload (hst : s.r1.state = .reloadWaitAck) :
    BusOk (clock s i) (outstandingNext s i n) := by
  have hok := hc.state
  simp only [StateOk, hst] at hok
  simp only [BusOk, hst] at h
  have hsent := rowsSent_clock (i := i) hst hok.1
  cases hlast : reloadLast s i with
  | false =>
    have hdone := rowsDone_clock hst hlast
    simp only [BusOk, clock_state, stateNext, hst, hlast, false_eq_true, if_false]
    rw [hsent, hdone, ← h, outstandingNext]
    cases hck : i.wb.ack with
    | false => simp [Nat.add_assoc]
    | true =>
      have := hack hck
      simp only [toNat_true]
      omega
  | true =>
    simp only [reloadLast, isLastRow, and_eq_true, beq_iff_eq] at hlast
    have hrow : rowsDone s + 1 = 2 ^ g.rowLinebits := Cyclic.steps_last.mpr hlast.2
    have hn := hack hlast.1
    -- the last row has arrived, so every row was sent
    have hstb : s.r1.wb.stb = false := by
      by_contra hstb
      rw [not_eq_false] at hstb
      have hlt := Cyclic.steps_lt s.r1.endRowIx (s.r1.wb.adr.setWidth g.rowLinebits)
      rw [rowsSent, if_pos hstb] at h
      omega
    have hall : rowsSent s = 2 ^ g.rowLinebits := by simp [rowsSent, hstb]
    have hone : n = 1 := by omega
    simp [BusOk, stateNext, hst, reloadLast, isLastRow, hlast, Dcache.clock, r1Next, wbNext,
      hstb, outstandingNext, busAccept, hone]

/-- In STORE_WAIT_ACK the counter stays right, whether a store joins the cycle or not. -/
theorem BusOk.clock_store (hst : s.r1.state = .storeWaitAck) :
    BusOk (clock s i) (outstandingNext s i n) := by
  have hok := hc.state
  simp only [StateOk, hst] at hok
  simp only [BusOk, hst] at h
  cases hexit : storeExit s i with
  | true =>
    obtain ⟨-, -, hall⟩ := (storeExit_iff h hack).mp hexit
    simp only [BusOk, clock_state, stateNext, hst, hexit, if_true]
    refine ⟨by simp [Dcache.clock, r1Next, wbNext, hst, hexit], ?_⟩
    simp only [outstandingNext, busAccept, hok.1, Bool.true_and]
    cases hstb : s.r1.wb.stb <;> cases hck : i.wb.ack <;> simp_all
  | false =>
    have hcyc' : (Dcache.clock s i).r1.wb.cyc = true := by
      simp [Dcache.clock, r1Next, wbNext, hst, hexit, hok.1]
    have hstb' : (Dcache.clock s i).r1.wb.stb =
        if i.wb.stall then s.r1.wb.stb else storeIssue s i := by
      simp [Dcache.clock, r1Next, wbNext, hst, hexit]
    have hnext := toNat_acks_clock hok.1 hcyc' (fun hck => by have := hack hck; omega) (by
      intro hs hstall
      rw [hstb', hstall] at hs
      simp only [storeIssue, and_eq_true, false_eq_true, if_false,
        decide_eq_true_eq] at hs
      exact hs.2)
    simp only [BusOk, clock_state, stateNext, hst, hexit, false_eq_true, if_false]
    rw [hnext, hstb', h, outstandingNext, busAccept, hok.1]
    cases hstall : i.wb.stall <;> cases hck : i.wb.ack <;> simp [hck] at hack ⊢ <;> omega

theorem BusOk.clock_ncLoad (hst : s.r1.state = .ncLoadWaitAck) :
    BusOk (clock s i) (outstandingNext s i n) := by
  have hok := hc.state
  simp only [StateOk, hst] at hok
  simp only [BusOk, hst] at h
  unfold BusOk
  rw [clock_state, clock_wb]
  cases hck : i.wb.ack with
  | false =>
    simp only [stateNext, wbNext, hst, hck, outstandingNext, busAccept, hok.1]
    cases hstb : s.r1.wb.stb <;> cases i.wb.stall <;> simp_all
  | true =>
    have hn := hack hck
    have hstb : s.r1.wb.stb = false := by
      cases hs : s.r1.wb.stb
      · rfl
      · rw [hs, toNat_true] at h; omega
    have hone : n = 1 := by simpa [hstb] using h
    simp [stateNext, wbNext, hst, hck, outstandingNext, busAccept, hstb, hone]

theorem BusOk.clock_doStcx (hst : s.r1.state = .doStcx) :
    BusOk (clock s i) (outstandingNext s i n) := by
  have hok := hc.state
  simp only [StateOk, hst] at hok
  simp only [BusOk, hst] at h
  obtain ⟨hstb, rfl, hacks⟩ := h
  have hna : i.wb.ack = false := by simpa using hack
  have hn : outstandingNext s i 0 = 0 := by simp [outstandingNext, busAccept, hstb]
  rw [hn]
  cases href : stcxRefused s with
  | true =>
    simp [BusOk, stateNext, hst, href, Dcache.clock, r1Next, wbNext, hstb, stcxIssue]
  | false =>
    have hcyc' : (Dcache.clock s i).r1.wb.cyc = true := by
      simp [Dcache.clock, r1Next, wbNext, hst, href, hok.1]
    have hstb' : (Dcache.clock s i).r1.wb.stb = !i.wb.stall := by
      simp [Dcache.clock, r1Next, wbNext, hst, hstb, stcxIssue, href]
    have hnext := toNat_acks_clock hok.1 hcyc' (fun hck => absurd hck (by simp [hna]))
      (fun _ _ => by simp [hacks])
    rw [hstb', hacks, hna] at hnext
    unfold BusOk
    rw [clock_state, hstb']
    cases hstall : i.wb.stall with
    | true =>
      simp only [stateNext, hst, href, hstall]
      exact ⟨rfl, trivial, BitVec.eq_of_toNat_eq (by simpa [hstall] using hnext)⟩
    | false =>
      simp only [stateNext, hst, href, hstall]
      simpa [hstall] using hnext

theorem BusOk.clock : BusOk (clock s i) (outstandingNext s i n) := by
  cases hst : s.r1.state with
  | idle => exact h.clock_idle hc hst
  | reloadWaitAck => exact BusOk.clock_reload hc h hack hst
  | storeWaitAck => exact BusOk.clock_store hc h hack hst
  | ncLoadWaitAck => exact BusOk.clock_ncLoad hc h hack hst
  | doStcx => exact BusOk.clock_doStcx hc h hack hst
  | flushCycle =>
    have hok := hc.state
    simp only [StateOk, hst] at hok
    simp only [BusOk, hst] at h
    simp [BusOk, Dcache.clock, r1Next, stateNext, wbNext, hst, h, outstandingNext, busAccept]

end

/-- Without a bus cycle nothing is presented or outstanding. -/
theorem BusOk.of_not_cyc (hc : Control s) (h : BusOk s n) (hcyc : s.r1.wb.cyc = false) :
    s.r1.wb.stb = false ∧ n = 0 := by
  have hok := hc.state
  unfold StateOk at hok
  unfold BusOk at h
  cases hst : s.r1.state <;> simp_all

/-! ### The whole run -/

/-- The unit and the number of accepted requests that are not acknowledged. -/
structure BusTracked (g : Geometry) where
  cache : State g
  outstanding : ℕ := 0

def busStep (t : BusTracked g) (i : Inputs) : BusTracked g where
  cache := step t.cache i
  outstanding := outstandingNext t.cache i t.outstanding

/-- The slave acknowledges only what it accepted in an earlier cycle. -/
@[mk_iff]
structure BusEnv (t : BusTracked g) (i : Inputs) : Prop where
  rst : i.rst = false
  ack : i.wb.ack = true → 0 < t.outstanding

instance (t : BusTracked g) (i : Inputs) : Decidable (BusEnv t i) :=
  decidable_of_iff _ (busEnv_iff ..).symm

/-- A run starts after reset with nothing outstanding. -/
def BusStart (t : BusTracked g) : Prop := AfterReset t.cache ∧ t.outstanding = 0

def BusInv (t : BusTracked g) : Prop := Control t.cache ∧ BusOk t.cache t.outstanding

theorem busInv_of_reachable {t : BusTracked g} (h : Reachable busStep BusEnv BusStart t) :
    BusInv t := by
  refine h.induct ?_ ?_
  · rintro t ⟨hreset, hzero⟩
    rw [BusInv, hzero]
    exact ⟨hreset.control, hreset.busOk⟩
  · rintro t i ⟨hc, hb⟩ he
    have hclock : (busStep t i).cache = Dcache.clock t.cache i := step_eq_clock he.rst
    rw [BusInv, hclock]
    exact ⟨hc.clock, hb.clock hc he.ack⟩

/-- **The unit keeps to the protocol of the bus.** It asserts `stb` only with `cyc` and keeps `cyc`
until everything accepted is acknowledged. In STORE_WAIT_ACK the counter that the edge stores is the
number of writes presented and not acknowledged, as an unbounded number, and the bus cycle ends
exactly when no store joins it, no second half is to come and that number has come down to zero. -/
theorem wishbone_discipline {t : BusTracked g} {i : Inputs}
    (h : Reachable busStep BusEnv BusStart t) (he : BusEnv t i) :
    (t.cache.r1.wb.stb = true → t.cache.r1.wb.cyc = true) ∧
      ((busStep t i).cache.r1.wb.cyc = false → (busStep t i).outstanding = 0) ∧
      (t.cache.r1.state = .storeWaitAck →
        (busStep t i).cache.r1.acksPending.toNat =
            t.outstanding + t.cache.r1.wb.stb.toNat ∧
          ((busStep t i).cache.r1.wb.cyc = false ↔
            storeIssue t.cache i = false ∧ t.cache.r1.atomicMore = false ∧
              (busStep t i).outstanding = 0 ∧
              (t.cache.r1.wb.stb && i.wb.stall) = false)) := by
  obtain ⟨hc, hb⟩ := busInv_of_reachable h
  obtain ⟨hc', hb'⟩ := busInv_of_reachable (h.tick he)
  have hclock : (busStep t i).cache = Dcache.clock t.cache i := step_eq_clock he.rst
  refine ⟨?_, ?_, ?_⟩
  · intro hstb
    by_contra hcyc
    rw [(hb.of_not_cyc hc (by simpa using hcyc)).1] at hstb
    cases hstb
  · exact fun hcyc => (hb'.of_not_cyc hc' hcyc).2
  · intro hst
    simp only [BusOk, hst] at hb
    refine ⟨?_, ?_⟩
    · rw [hclock]
      exact hb
    · have hok := hc.state
      simp only [StateOk, hst] at hok
      have hcyc : (busStep t i).cache.r1.wb.cyc = false ↔ storeExit t.cache i = true := by
        rw [hclock]
        simp [Dcache.clock, r1Next, wbNext, hst, hok.1]
      have hle := ack_toNat_le he.ack
      rw [hcyc, storeExit_iff hb he.ack]
      simp only [busStep, outstandingNext, busAccept, hok.1, Bool.true_and]
      refine and_congr_right fun _ => and_congr_right fun _ => ?_
      revert hle
      cases t.cache.r1.wb.stb <;> cases i.wb.stall <;> cases i.wb.ack <;> simp <;> omega

/-- Two stores to one page, the second put on the bus while the first is not acknowledged. -/
def twoStores : List Inputs :=
  [{ d := { valid := true, privMode := true, addr := 0x100, byteSel := 0xff } },
    { d := { valid := true, privMode := true, addr := 0x108, data := 1, byteSel := 0xff } },
    { d := { data := 2 } }]

theorem wishbone_discipline_twoStores :
    let t := run busStep { cache := ({} : State .default) } twoStores
    t.cache.r1.state = .storeWaitAck ∧ t.outstanding = 1 ∧ t.cache.r1.wb.stb = true ∧
      (busStep t {}).cache.r1.acksPending.toNat = 2 := by
  have hrun : Allowed busStep BusEnv { cache := ({} : State .default) } twoStores ∧
      (let t := run busStep { cache := ({} : State .default) } twoStores
       BusEnv t {} ∧ t.cache.r1.state = .storeWaitAck ∧ t.outstanding = 1 ∧
        t.cache.r1.wb.stb = true) := by decide +kernel
  have hstart : BusStart { cache := ({} : State .default) } :=
    ⟨by constructor <;> intros <;> rfl, rfl⟩
  have hreach := reachable_run hstart hrun.1
  obtain ⟨-, he, hst, hn, hstb⟩ := hrun
  revert hreach he hst hn hstb
  generalize run busStep _ twoStores = t
  intro hreach he hst hn hstb
  refine ⟨hst, hn, hstb, ?_⟩
  rw [((wishbone_discipline hreach he).2.2 hst).1, hn, hstb]
  rfl

end Dcache

end Microwatt
