import Microwatt.Icache.Basic
import Microwatt.Lib.Clocked
import Microwatt.Lib.Cyclic

/-!
# Reloads and their abort

A reload sends one request for every row of the line and counts what has been sent and what has
arrived with the row numbers in `wb.adr` and `recv_row`, which go around at the end of the line. An
abort waits until the two agree. They agree when everything that was accepted has been answered, but
also when the whole line has been accepted and nothing of it has been answered; then the bus cycle
is given up with all its answers outstanding, and they arrive in the middle of the next reload.

Runs are followed by the queue of accepted requests that are not answered yet. The bus answers them
in order, at any time, so the head of the queue is what an acknowledgement brings. In this way rows
are told apart by their addresses and not by the counters of the unit.

## Main definitions

* `Icache.ReloadTracked`, `Icache.ReloadEnv` — the run with its queue
* `Icache.Sending`, `Icache.Loading` — how far a reload has come

## Main results

* `Icache.abort_safe`
-/

namespace Microwatt

open Clocked Bool Cyclic

namespace Icache

variable {g : Geometry}

/-! ### Runs and their record -/

/-- The unit with the record of its reload. -/
structure ReloadTracked (g : Geometry) where
  cache : State g
  /-- The addresses of the accepted requests that are not answered yet. -/
  due : List (BitVec wishboneAddrBits) := []
  /-- The address that started the last reload. -/
  missRa : RealAddr := 0
  /-- The addresses whose data has arrived since the reload started or was invalidated. -/
  got : List (BitVec wishboneAddrBits) := []

section

variable (t : ReloadTracked g) (i : Inputs)

def busAccept : Bool := t.cache.r.wb.cyc && t.cache.r.wb.stb && !i.wb.stall

/-- The queue after the cycle: the oldest request is answered, and a new one comes in. -/
def dueNext : List (BitVec wishboneAddrBits) :=
  (if i.wb.ack then t.due.tail else t.due) ++ if busAccept t i then [t.cache.r.wb.adr] else []

def reloadStep : ReloadTracked g where
  cache := step t.cache i
  due := dueNext t i
  missRa := if startReload t.cache i then realAddr i else t.missRa
  got :=
    if i.invalIn || t.cache.r.state == .idle then []
    else t.got ++ if i.wb.ack then t.due.head?.toList else []

/-- The slave answers accepted requests only, in a later cycle. -/
@[mk_iff]
structure ReloadEnv : Prop where
  rst : i.rst = false
  ack : i.wb.ack = true → t.due ≠ []

/-- A reload is not aborted with the requests for its whole line outstanding. -/
def NotWhole : Prop :=
  reloading t.cache = true → i.invalIn = true → (dueNext t i).length < 2 ^ g.rowLinebits

instance : Decidable (ReloadEnv t i) := decidable_of_iff _ (reloadEnv_iff ..).symm

instance : Decidable (NotWhole t i) := by unfold NotWhole; infer_instance

/-- A run starts after reset with nothing outstanding. -/
def ReloadStart : Prop := AfterReset t.cache ∧ t.due = []

/-! ### The invariant -/

/-- The address of the row that is the `k`-th one of the reload. -/
def rowAdr (k : ℕ) : BitVec wishboneAddrBits :=
  setLow (addrToWb t.missRa) (nth t.cache.r.endRowIx k)

/-- Of the rows of the line, `n` have been accepted and `m` have arrived. -/
structure Sending (m n : ℕ) : Prop where
  le : m ≤ n
  bound : n ≤ 2 ^ g.rowLinebits
  due : t.due = (List.range' m (n - m)).map (rowAdr t)
  adr : t.cache.r.wb.adr = rowAdr t n
  recv : getRowOfLine t.cache.r.recvRow = nth t.cache.r.endRowIx m

/-- A reload that has not been aborted. -/
structure Loading (m n : ℕ) : Prop extends Sending t m n where
  stb : t.cache.r.wb.stb = decide (n < 2 ^ g.rowLinebits)
  cyc : t.cache.r.wb.cyc = decide (m < 2 ^ g.rowLinebits)
  got : t.got = (List.range' 0 m).map (rowAdr t)
  /-- The row that arrived last is stored one cycle later. -/
  recvValid : t.cache.r.recvValid = true → 0 < m
  store : getRowOfLine t.cache.r.storeRow =
    nth t.cache.r.endRowIx (m - t.cache.r.recvValid.toNat)
  stored : m - t.cache.r.recvValid.toNat < 2 ^ g.rowLinebits
  index : t.cache.r.storeIndex = getIndex g t.missRa
  tag : ∃ endian, t.cache.r.storeTag = getTag g t.missRa endian

def ReloadInv : Prop :=
  match t.cache.r.state with
  | .idle => t.due = [] ∧ t.cache.r.wb.cyc = false ∧ t.cache.r.wb.stb = false
  | .clrTag => Loading t 0 0 ∧ t.cache.r.recvValid = false
  | .waitAck =>
    (∃ m n, Loading t m n) ∧
      t.cache.icTags t.cache.r.storeWay t.cache.r.storeIndex = t.cache.r.storeTag
  | .stopReload =>
    t.cache.r.wb.stb = false ∧
      ∃ m n, Sending t m n ∧ n - m < 2 ^ g.rowLinebits ∧ (t.cache.r.wb.cyc = false → m = n)

end

variable {t t' : ReloadTracked g} {i : Inputs} {m n : ℕ}

theorem ReloadStart.inv (h : ReloadStart t) : ReloadInv t := by
  unfold ReloadInv
  rw [h.1.state]
  exact ⟨h.2, h.1.cyc, h.1.stb⟩

/-! ### Row numbers -/

theorem getRowOfLine_nextRow (row : g.Row) : getRowOfLine (nextRow row) = getRowOfLine row + 1 :=
  setWidth_setLow _ _ (Nat.le_add_left _ _)

theorem nextRowWbAddr_setLow (adr : BitVec wishboneAddrBits) (row : g.RowInLine) :
    nextRowWbAddr g (setLow adr row) = setLow adr (row + 1) := by
  rw [nextRowWbAddr, setWidth_setLow _ _ g.lineFits, setLow_setLow]

theorem setWidth_rowAdr (t : ReloadTracked g) (k : ℕ) :
    (rowAdr t k).setWidth g.rowLinebits = nth t.cache.r.endRowIx k :=
  setWidth_setLow _ _ g.lineFits

theorem getRowOfLine_wbToAddr (adr : BitVec wishboneAddrBits) :
    getRowOfLine (getRow g (wbToAddr adr)) = adr.setWidth g.rowLinebits := by
  have hfits : g.rowLinebits ≤ 29 := g.lineFits
  refine BitVec.eq_of_getLsbD_eq fun k hk => ?_
  have hbit : (wbToAddr adr).getLsbD (3 + k) = adr.getLsbD k := by
    rw [wbToAddr, BitVec.getLsbD_setWidth, BitVec.getLsbD_append, if_neg (by omega),
      Nat.add_sub_cancel_left]
    simp [show 3 + k < 64 by omega]
  simp [getRowOfLine, getRow, hk, show k < g.indexBits + g.rowLinebits by omega, hbit]

theorem addrToWb_reqRaddr (i : Inputs) : addrToWb (reqRaddr i) = addrToWb (realAddr i) := by
  refine BitVec.eq_of_getLsbD_eq fun k hk => ?_
  change k < 29 at hk
  have hbit : (reqRaddr i).getLsbD (3 + k) = (realAddr i).getLsbD (3 + k) := by
    refine BitVec.getLsbD_append.trans ?_
    rw [if_neg (by omega), Nat.add_sub_cancel_left]
    simp [show k < 53 by omega]
  simp [addrToWb, hk, hbit]

theorem setWidth_addrToWb_reqRaddr (i : Inputs) :
    (addrToWb (realAddr i)).setWidth g.rowLinebits = getRowOfLine (getRow g (reqRaddr i)) := by
  have hfits : g.rowLinebits ≤ 29 := g.lineFits
  rw [← addrToWb_reqRaddr]
  refine BitVec.eq_of_getLsbD_eq fun k hk => ?_
  simp [addrToWb, getRowOfLine, getRow, hk, show k < 29 by omega,
    show k < g.indexBits + g.rowLinebits by omega]

/-! ### Requests and answers -/

theorem Sending.length_due (h : Sending t m n) : t.due.length = n - m := by
  simp [h.due]

theorem Sending.lt_of_due (h : Sending t m n) (hdue : t.due ≠ []) : m < n := by
  have hpos := List.length_pos_iff.mpr hdue
  rw [h.length_due] at hpos
  omega

/-- An answer is for the row that is expected. -/
theorem Sending.head_due (h : Sending t m n) (hdue : t.due ≠ []) :
    t.due.head? = some (rowAdr t m) := by
  have hlt := h.lt_of_due hdue
  rw [h.due, show n - m = n - m - 1 + 1 by omega, List.range'_succ]
  rfl

/-- One cycle: what is answered leaves the queue, and what is accepted enters it. -/
theorem Sending.advance (h : Sending t m n) (hend : t'.cache.r.endRowIx = t.cache.r.endRowIx)
    (hmiss : t'.missRa = t.missRa) {ack acc : Bool}
    (hdue : t'.due = (if ack then t.due.tail else t.due) ++ if acc then [t.cache.r.wb.adr] else [])
    (hadr : t'.cache.r.wb.adr = if acc then nextRowWbAddr g t.cache.r.wb.adr else t.cache.r.wb.adr)
    (hrecv : t'.cache.r.recvRow = if ack then nextRow t.cache.r.recvRow else t.cache.r.recvRow)
    (hack : ack = true → m < n) (hacc : acc = true → n < 2 ^ g.rowLinebits) :
    Sending t' (m + ack.toNat) (n + acc.toNat) := by
  have hrow : rowAdr t' = rowAdr t := by
    funext k
    rw [rowAdr, rowAdr, hend, hmiss]
  have hle := h.le
  have hbound := h.bound
  have htail : (if ack then t.due.tail else t.due) =
      (List.range' (m + ack.toNat) (n - (m + ack.toNat))).map (rowAdr t) := by
    rw [h.due]
    cases ack with
    | false => simp
    | true =>
      have hlt := hack rfl
      rw [show n - m = n - (m + 1) + 1 by omega, List.range'_succ]
      simp
  refine ⟨?_, ?_, ?_, ?_, ?_⟩
  · cases ack with
    | false => simpa using Nat.le_add_right_of_le hle
    | true => have := hack rfl; simp only [toNat_true]; omega
  · cases acc with
    | false => simpa using hbound
    | true => exact hacc rfl
  · have hle' : m + ack.toNat ≤ n := by
      cases ack with
      | false => simpa using hle
      | true => exact hack rfl
    rw [hdue, htail, hrow]
    cases acc with
    | false => simp
    | true =>
      rw [toNat_true, show n + 1 - (m + ack.toNat) = n - (m + ack.toNat) + 1 by omega,
        List.range'_1_concat, List.map_append, if_pos rfl, h.adr]
      simp only [List.map_cons, List.map_nil]
      rw [show m + ack.toNat + (n - (m + ack.toNat)) = n by omega]
  · rw [hadr, hrow]
    cases acc with
    | false => simpa using h.adr
    | true =>
      rw [if_pos rfl, h.adr, rowAdr, nextRowWbAddr_setLow, toNat_true, rowAdr,
        nth_succ]
  · rw [hrecv, hend]
    cases ack with
    | false => simpa using h.recv
    | true => rw [if_pos rfl, getRowOfLine_nextRow, h.recv, toNat_true, nth_succ]

/-! ### One edge -/

theorem step_r (s : State g) (hrst : i.rst = false) : (step s i).r = rNext s i := by
  simp [step, hrst]

theorem ReloadEnv.r (he : ReloadEnv t i) : (reloadStep t i).cache.r = rNext t.cache i :=
  step_r _ he.rst

theorem startReload_of_reloading {s : State g} (hst : reloading s = true) :
    startReload s i = false := by
  simp only [reloading, or_eq_true, beq_iff_eq] at hst
  rcases hst with hst | hst <;> simp [startReload, hst]

theorem ne_idle_of_reloading {s : State g} (hst : reloading s = true) :
    (s.r.state == .idle) = false ∧ drained s = false := by
  simp only [reloading, or_eq_true, beq_iff_eq] at hst
  rcases hst with hst | hst <;> simp [hst, drained]

variable (h : Loading t m n) (hst : reloading t.cache = true) (he : ReloadEnv t i)
  (hinval : i.invalIn = false)

include h hst in
/-- What is accepted counts as a request of the reload. -/
theorem Loading.busAccept_eq : busAccept t i = accepted t.cache i := by
  have hle := h.le
  cases hstb : t.cache.r.wb.stb with
  | false => simp [busAccept, accepted, hstb]
  | true =>
    have hn : n < 2 ^ g.rowLinebits := by simpa [hstb] using h.stb
    have hcyc : t.cache.r.wb.cyc = true := by
      rw [h.cyc, decide_eq_true_eq]
      omega
    simp [busAccept, accepted, hst, hcyc, hstb]

theorem Loading.lt_of_accepted (h : Loading t m n) (hacc : accepted t.cache i = true) :
    n < 2 ^ g.rowLinebits := by
  simp only [accepted, and_eq_true] at hacc
  simpa [hacc.2] using h.stb

include h hst he in
/-- The queue and the counters move together. -/
theorem Loading.sending_step :
    Sending (reloadStep t i) (m + i.wb.ack.toNat) (n + (accepted t.cache i).toNat) := by
  have hstart := startReload_of_reloading (i := i) hst
  have hidle := (ne_idle_of_reloading hst).1
  have hr := he.r
  refine h.toSending.advance ?_ ?_ ?_ ?_ ?_ (fun hack => h.lt_of_due (he.ack hack))
    h.lt_of_accepted
  · rw [hr]
    simp [rNext, hstart]
  · simp [reloadStep, hstart]
  · rw [← h.busAccept_eq hst]
    rfl
  · rw [hr]
    simp [rNext, wbNext, hstart]
  · rw [hr]
    simp [rNext, recvRowNext, hstart, bne, hidle]

include hst in
theorem rowAdr_step (hrst : i.rst = false) : rowAdr (reloadStep t i) = rowAdr t := by
  have hstart := startReload_of_reloading (i := i) hst
  have hr : (reloadStep t i).cache.r = rNext t.cache i := step_r _ hrst
  funext k
  simp only [rowAdr, hr]
  simp [rNext, reloadStep, hstart]

theorem Loading.eq_of_lastStored (h : Loading t m n) (hlast : lastStored t.cache = true) :
    m = 2 ^ g.rowLinebits ∧ n = 2 ^ g.rowLinebits := by
  simp only [lastStored, and_eq_true, isLastRow, beq_iff_eq] at hlast
  obtain ⟨⟨-, hrecv⟩, hrow⟩ := hlast
  have hpos := h.recvValid hrecv
  have hstored := h.stored
  have hle := h.le
  have hbound := h.bound
  rw [h.store, nth_eq_last hstored, hrecv, toNat_true] at hrow
  omega

include h hst in
theorem Loading.lt_of_not_lastStored (hlast : lastStored t.cache = false) :
    m < 2 ^ g.rowLinebits := by
  have hstored := h.stored
  cases hrecv : t.cache.r.recvValid with
  | false => simpa [hrecv] using hstored
  | true =>
    have hpos := h.recvValid hrecv
    simp only [lastStored, hst, hrecv, Bool.and_self, Bool.true_and, isLastRow,
      beq_eq_false_iff_ne] at hlast
    rw [h.store, ne_eq, nth_eq_last hstored, hrecv, toNat_true] at hlast
    rw [hrecv, toNat_true] at hstored
    omega

include h hst hinval in
theorem Loading.stb_step :
    (wbNext t.cache i).stb =
      decide (n + (accepted t.cache i).toNat < 2 ^ g.rowLinebits) := by
  have hstart := startReload_of_reloading (i := i) hst
  cases hacc : accepted t.cache i with
  | false => simpa [wbNext, hstart, hinval, hacc] using h.stb
  | true =>
    have hlt := h.lt_of_accepted hacc
    have hstb := hacc
    simp only [accepted, and_eq_true] at hstb
    have hlast : isLastRowWbAddr t.cache.r.wb.adr t.cache.r.endRowIx =
        decide (n + 1 = 2 ^ g.rowLinebits) := by
      rw [isLastRowWbAddr, h.adr, setWidth_rowAdr, Bool.eq_iff_iff]
      simp only [beq_iff_eq, decide_eq_true_eq]
      exact nth_eq_last hlt
    simp only [wbNext, hstart, hinval, hacc, hlast, hstb.2, Bool.and_false, Bool.true_and,
      false_eq_true, if_false, toNat_true]
    by_cases hend : n + 1 = 2 ^ g.rowLinebits
    · simp [hend]
    · simp only [hend, decide_false, false_eq_true, if_false]
      exact (decide_eq_true (by omega)).symm

include h hst he in
theorem Loading.cyc_step :
    (wbNext t.cache i).cyc = decide (m + i.wb.ack.toNat < 2 ^ g.rowLinebits) := by
  have hstart := startReload_of_reloading (i := i) hst
  have hdrained := (ne_idle_of_reloading hst).2
  cases hack : i.wb.ack with
  | false => simpa [wbNext, hstart, hst, hack, hdrained] using h.cyc
  | true =>
    have hmn := h.lt_of_due (he.ack hack)
    have hbound := h.bound
    have hlast : isLastRow t.cache.r.recvRow t.cache.r.endRowIx =
        decide (m + 1 = 2 ^ g.rowLinebits) := by
      rw [isLastRow, h.recv, Bool.eq_iff_iff]
      simp only [beq_iff_eq, decide_eq_true_eq]
      exact nth_eq_last (by omega)
    simp only [wbNext, hstart, hst, hack, hlast, hdrained, h.cyc, Bool.true_and,
      false_eq_true, if_false, toNat_true]
    by_cases hend : m + 1 = 2 ^ g.rowLinebits
    · simp [hend]
    · simp only [hend, decide_false, false_eq_true, if_false, decide_eq_decide]
      omega

include h hst he hinval in
/-- A reload that is neither finished nor aborted goes on. -/
theorem Loading.step (hlast : lastStored t.cache = false) :
    Loading (reloadStep t i) (m + i.wb.ack.toNat) (n + (accepted t.cache i).toNat) := by
  have hstart := startReload_of_reloading (i := i) hst
  have hidle := (ne_idle_of_reloading hst).1
  have hlt := h.lt_of_not_lastStored hst hlast
  have hr := he.r
  have hrecv : (rNext t.cache i).recvValid = i.wb.ack := by simp [rNext, hst]
  refine ⟨h.sending_step hst he, ?_, ?_, ?_, ?_, ?_, ?_, ?_, ?_⟩
  · rw [hr]
    exact h.stb_step hst hinval
  · rw [hr]
    exact h.cyc_step hst he
  · have hgot : (reloadStep t i).got = t.got ++ if i.wb.ack then t.due.head?.toList else [] := by
      simp [reloadStep, hinval, hidle]
    rw [hgot, rowAdr_step hst he.rst, h.got]
    cases hack : i.wb.ack with
    | false => simp
    | true =>
      rw [if_pos rfl, h.head_due (he.ack hack), toNat_true, List.range'_1_concat]
      simp
  · rw [hr, hrecv]
    intro hack
    simp [hack]
  · rw [hr, hrecv, Nat.add_sub_cancel]
    simp only [rNext, storeRowNext, hstart, hst, Bool.true_and, false_eq_true, if_false]
    cases hrv : t.cache.r.recvValid with
    | true => simpa using h.recv
    | false => simpa [hrv] using h.store
  · rw [hr, hrecv, Nat.add_sub_cancel]
    exact hlt
  · rw [hr]
    simpa [rNext, reloadStep, hstart] using h.index
  · rw [hr]
    simpa [rNext, reloadStep, hstart] using h.tag

/-- When the counters of an aborted reload agree, nothing is outstanding. -/
theorem Sending.eq_of_drained (h : Sending t m n) (hlt : n - m < 2 ^ g.rowLinebits)
    (hd : drained t.cache = true) : m = n := by
  simp only [drained, and_eq_true, beq_iff_eq] at hd
  have hrow := hd.2
  rw [getRowOfLine_wbToAddr, h.recv, h.adr, setWidth_rowAdr, nth_inj] at hrow
  have hle := h.le
  by_contra hne
  have hdvd : 2 ^ g.rowLinebits ∣ n - m := (Nat.modEq_iff_dvd' hle).mp hrow
  have := Nat.le_of_dvd (by omega) hdvd
  omega

/-- Nothing is outstanding and nothing is being sent, so it stays like that. -/
theorem dueNext_eq_nil (he : ReloadEnv t i) (hdue : t.due = []) (hstb : t.cache.r.wb.stb = false) :
    dueNext t i = [] := by
  have hack : i.wb.ack = false := by
    by_contra hack
    exact he.ack (by simpa using hack) hdue
  simp [dueNext, hack, hdue, busAccept, hstb]

theorem Sending.due_eq_nil (h : Sending t m n) (heq : m = n) : t.due = [] := by
  rw [h.due, heq, Nat.sub_self]
  rfl

theorem loading_start (he : ReloadEnv t i) (hst : t.cache.r.state = .idle)
    (hdue : t.due = []) (hstb : t.cache.r.wb.stb = false) (hmiss : reqIsMiss t.cache i = true) :
    Loading (reloadStep t i) 0 0 ∧ (reloadStep t i).cache.r.recvValid = false := by
  have hstart : startReload t.cache i = true := by simp [startReload, hst, hmiss]
  have hr := he.r
  have hpos : 0 < 2 ^ g.rowLinebits := Nat.two_pow_pos _
  have hrecv : (rNext t.cache i).recvValid = false := by simp [rNext, reloading, hst]
  have hend : (rNext t.cache i).endRowIx = getRowOfLine (getRow g (reqRaddr i)) - 1 := by
    simp [rNext, hstart]
  have hrow : rowAdr (reloadStep t i) 0 = addrToWb (realAddr i) := by
    rw [rowAdr, hr, hend, nth_start, ← setWidth_addrToWb_reqRaddr]
    simp only [reloadStep, hstart, if_true]
    exact setLow_self _
  refine ⟨⟨⟨le_rfl, hpos.le, ?_, ?_, ?_⟩, ?_, ?_, ?_, ?_, ?_, ?_, ?_, ?_⟩, by rw [hr, hrecv]⟩
  · exact dueNext_eq_nil he hdue hstb
  · rw [hrow, hr, ← addrToWb_reqRaddr]
    simp [rNext, wbNext, hstart]
  · rw [hr, hend, nth_start]
    simp [rNext, recvRowNext, hstart]
  · rw [hr]
    simp [rNext, wbNext, hstart, hpos]
  · rw [hr]
    simp [rNext, wbNext, hstart, hpos]
  · simp [reloadStep, hst]
  · rw [hr, hrecv]
    simp
  · rw [hr, hrecv, hend, toNat_false, Nat.sub_zero, nth_start]
    simp [rNext, storeRowNext, hstart]
  · rw [hr, hrecv]
    exact hpos
  · rw [hr]
    simp [rNext, reloadStep, hstart, reqIndex]
  · refine ⟨i.i.bigEndian, ?_⟩
    rw [hr]
    simp [rNext, reloadStep, hstart, reqTag]

include h hst he in
/-- An abort leaves what was accepted to be answered. -/
theorem Loading.abort (hn : NotWhole t i) (hinval : i.invalIn = true) :
    (reloadStep t i).cache.r.wb.stb = false ∧
      ∃ m n, Sending (reloadStep t i) m n ∧ n - m < 2 ^ g.rowLinebits ∧
        ((reloadStep t i).cache.r.wb.cyc = false → m = n) := by
  have hstart := startReload_of_reloading (i := i) hst
  have hr := he.r
  have hsend := h.sending_step hst he
  refine ⟨?_, _, _, hsend, ?_, ?_⟩
  · rw [hr]
    simp [rNext, wbNext, hstart, hst, hinval]
  · rw [← hsend.length_due]
    exact hn hst hinval
  · rw [hr]
    intro hcyc
    have hle := hsend.le
    have hbound := hsend.bound
    have hdone := (h.cyc_step hst he).symm.trans hcyc
    rw [decide_eq_false_iff_not] at hdone
    omega

include h hst he hinval in
theorem Loading.finish (hlast : lastStored t.cache = true) :
    (reloadStep t i).due = [] ∧ (reloadStep t i).cache.r.wb.cyc = false ∧
      (reloadStep t i).cache.r.wb.stb = false := by
  obtain ⟨rfl, rfl⟩ := h.eq_of_lastStored hlast
  have hr := he.r
  have hstb : t.cache.r.wb.stb = false := by simpa using h.stb
  refine ⟨dueNext_eq_nil he (h.due_eq_nil rfl) hstb, ?_, ?_⟩
  · rw [hr]
    exact (h.cyc_step hst he).trans (by simp)
  · rw [hr]
    exact (h.stb_step hst hinval).trans (by simp)

/-- An aborted reload goes back to IDLE when it is drained. -/
theorem Sending.stop_step (h : Sending t m n) (he : ReloadEnv t i)
    (hst : t.cache.r.state = .stopReload) (hstb : t.cache.r.wb.stb = false)
    (hlt : n - m < 2 ^ g.rowLinebits) (hcyc : t.cache.r.wb.cyc = false → m = n) :
    ReloadInv (reloadStep t i) := by
  have hr := he.r
  have hstart : startReload t.cache i = false := by simp [startReload, hst]
  have hre : reloading t.cache = false := by simp [reloading, hst]
  have hacc : accepted t.cache i = false := by simp [accepted, hstb]
  have hstb' : (rNext t.cache i).wb.stb = false := by
    simp [rNext, wbNext, hstart, hre, hacc, hstb]
  unfold ReloadInv
  cases hd : drained t.cache with
  | true =>
    have hstate : (rNext t.cache i).state = .idle := by simp [rNext, stateNext, hst, hd]
    rw [hr, hstate]
    refine ⟨dueNext_eq_nil he (h.due_eq_nil (h.eq_of_drained hlt hd)) hstb, ?_, hstb'⟩
    simp [rNext, wbNext, hstart, hre, hd]
  | false =>
    have hstate : (rNext t.cache i).state = .stopReload := by simp [rNext, stateNext, hst, hd]
    have hsend : Sending (reloadStep t i) (m + i.wb.ack.toNat) (n + false.toNat) := by
      refine h.advance ?_ ?_ ?_ ?_ ?_ (fun hack => h.lt_of_due (he.ack hack)) (by simp)
      · rw [hr]
        simp [rNext, hstart]
      · simp [reloadStep, hstart]
      · simp [reloadStep, dueNext, busAccept, hstb]
      · rw [hr]
        simp [rNext, wbNext, hstart, hacc]
      · rw [hr]
        simp [rNext, recvRowNext, hstart, hst]
    rw [hr, hstate]
    refine ⟨hstb', _, _, hsend, by simp only [toNat_false]; omega, fun hcyc' => ?_⟩
    have hsame : (rNext t.cache i).wb.cyc = t.cache.r.wb.cyc := by
      simp [rNext, wbNext, hstart, hre, hd]
    have heq := hcyc (hsame.symm.trans hcyc')
    have hle := hsend.le
    simp only [toNat_false] at hle ⊢
    omega

theorem ReloadInv.step (h : ReloadInv t) (he : ReloadEnv t i) (hn : NotWhole t i) :
    ReloadInv (reloadStep t i) := by
  have hr := he.r
  -- a reload is finished, aborted or goes on; in each case the tag is in place
  have hreload : ∀ m n, Loading t m n → reloading t.cache = true →
      (reloadStep t i).cache.icTags (rNext t.cache i).storeWay (rNext t.cache i).storeIndex =
        (rNext t.cache i).storeTag → ReloadInv (reloadStep t i) := by
    intro m n hload hst htag
    have hstate : (rNext t.cache i).state =
        if i.invalIn then .stopReload else if lastStored t.cache then .idle else .waitAck := by
      have hs := hst
      simp only [reloading, or_eq_true, beq_iff_eq] at hs
      rcases hs with hs | hs <;> simp [rNext, stateNext, hs]
    unfold ReloadInv
    rw [hr, hstate]
    cases hinval : i.invalIn with
    | true =>
      have habort := hload.abort hst he hn hinval
      rw [hr] at habort
      exact habort
    | false =>
      cases hlast : lastStored t.cache with
      | true =>
        have hfinish := hload.finish hst he hinval hlast
        rw [hr] at hfinish
        exact hfinish
      | false => exact ⟨⟨_, _, hload.step hst he hinval hlast⟩, htag⟩
  have h' := h
  unfold ReloadInv at h'
  cases hst : t.cache.r.state with
  | idle =>
    simp only [hst] at h'
    obtain ⟨hdue, hcyc, hstb⟩ := h'
    unfold ReloadInv
    cases hmiss : reqIsMiss t.cache i with
    | true =>
      have hstate : (rNext t.cache i).state = .clrTag := by simp [rNext, stateNext, hst, hmiss]
      have hload := loading_start he hst hdue hstb hmiss
      rw [hr] at hload ⊢
      rw [hstate]
      exact hload
    | false =>
      have hstate : (rNext t.cache i).state = .idle := by simp [rNext, stateNext, hst, hmiss]
      rw [hr, hstate]
      refine ⟨dueNext_eq_nil he hdue hstb, ?_, ?_⟩ <;>
        simp [rNext, wbNext, startReload, reloading, drained, accepted, hst, hmiss, hcyc, hstb]
  | clrTag =>
    simp only [hst] at h'
    refine hreload 0 0 h'.1 (by simp [reloading, hst]) ?_
    simp [reloadStep, Icache.step, rNext, startReload, hst]
  | waitAck =>
    simp only [hst] at h'
    obtain ⟨⟨m, n, hload⟩, htag⟩ := h'
    refine hreload m n hload (by simp [reloading, hst]) ?_
    simpa [reloadStep, Icache.step, rNext, startReload, hst] using htag
  | stopReload =>
    simp only [hst] at h'
    obtain ⟨hstb, m, n, hsend, hlt, hcyc⟩ := h'
    exact hsend.stop_step he hst hstb hlt hcyc

/-! ### Leaving the bus -/

theorem ReloadInv.loading (h : ReloadInv t) (hst : reloading t.cache = true) :
    ∃ m n, Loading t m n := by
  simp only [reloading, or_eq_true, beq_iff_eq] at hst
  unfold ReloadInv at h
  rcases hst with hst | hst <;> simp only [hst] at h
  · exact ⟨0, 0, h.1⟩
  · exact h.1

theorem Loading.got_all (h : Loading t m n) (hlast : lastStored t.cache = true)
    (row : g.RowInLine) : setLow (addrToWb t.missRa) row ∈ t.got := by
  obtain ⟨rfl, -⟩ := h.eq_of_lastStored hlast
  obtain ⟨k, hk, rfl⟩ := exists_nth t.cache.r.endRowIx row
  rw [h.got]
  exact List.mem_map_of_mem (by simpa [List.mem_range'_1] using hk)

/-- Only the last row of a reload makes a line valid. -/
theorem lastStored_of_valid {s : State g} {index : g.Index} {way : g.Way}
    (hold : s.cacheValids index way = false) (hnew : cacheValidsNext s i index way = true) :
    lastStored s = true ∧ index = s.r.storeIndex ∧ way = s.r.storeWay ∧ i.invalIn = false := by
  unfold cacheValidsNext at hnew
  split_ifs at hnew with hstore hclr hinval hsnoop
  · simp only [and_eq_true, beq_iff_eq, not_eq_true'] at hstore hnew
    exact ⟨hstore.1.1, hstore.1.2, hstore.2, hnew.2⟩
  · exact absurd (hold.symm.trans hnew) (by simp)

/-- **Aborts are safe.** In every run of a slave that answers in order, at any time, and in which no
reload is aborted with the requests for its whole line outstanding: the bus cycle is ended, and the
unit goes back to IDLE, only when all accepted requests have been answered; what arrives in a reload
is the row of the line that is expected; and a line becomes valid only when all its rows have
arrived with no invalidation in between. -/
theorem abort_safe
    (h : Reachable reloadStep (fun t i => ReloadEnv t i ∧ NotWhole t i) ReloadStart t)
    (he : ReloadEnv t i) (hn : NotWhole t i) :
    (t.cache.r.wb.cyc = true → (reloadStep t i).cache.r.wb.cyc = false →
        (reloadStep t i).due = []) ∧
      (t.cache.r.state ≠ .idle → (reloadStep t i).cache.r.state = .idle →
        (reloadStep t i).due = []) ∧
      (reloading t.cache = true → i.wb.ack = true →
        t.due.head? = some (setLow (addrToWb t.missRa) (getRowOfLine t.cache.r.recvRow))) ∧
      ∀ index way, t.cache.cacheValids index way = false →
        (reloadStep t i).cache.cacheValids index way = true →
        i.invalIn = false ∧ getIndex g t.missRa = index ∧
          (∃ endian, (reloadStep t i).cache.icTags way index = getTag g t.missRa endian) ∧
          ∀ row : g.RowInLine, setLow (addrToWb t.missRa) row ∈ t.got := by
  have hinv : ReloadInv t := h.induct (fun _ h0 => h0.inv) (fun _ _ hi he => hi.step he.1 he.2)
  have hnext := hinv.step he hn
  have hr := he.r
  refine ⟨fun hcyc hcyc' => ?_, fun _ hidle => ?_, fun hst hack => ?_,
    fun index way hold hnew => ?_⟩
  · unfold ReloadInv at hnext
    cases hst : (reloadStep t i).cache.r.state with
    | idle =>
      simp only [hst] at hnext
      exact hnext.1
    | clrTag =>
      simp only [hst] at hnext
      exact hnext.1.due_eq_nil rfl
    | waitAck =>
      simp only [hst] at hnext
      obtain ⟨⟨m, n, hload⟩, -⟩ := hnext
      have hle := hload.le
      have hbound := hload.bound
      have hdone := hload.cyc.symm.trans hcyc'
      rw [decide_eq_false_iff_not] at hdone
      exact hload.due_eq_nil (by omega)
    | stopReload =>
      simp only [hst] at hnext
      obtain ⟨-, m, n, hsend, -, heq⟩ := hnext
      exact hsend.due_eq_nil (heq hcyc')
  · simp only [ReloadInv, hidle] at hnext
    exact hnext.1
  · obtain ⟨m, n, hload⟩ := hinv.loading hst
    rw [hload.head_due (he.ack hack), hload.recv]
    rfl
  · have hvalid : cacheValidsNext t.cache i index way = true := by
      simpa [reloadStep, step, he.rst] using hnew
    obtain ⟨hlast, rfl, rfl, hinval⟩ := lastStored_of_valid hold hvalid
    have hst : reloading t.cache = true ∧ t.cache.r.recvValid = true := by
      simp only [lastStored, and_eq_true] at hlast
      exact hlast.1
    obtain ⟨m, n, hload⟩ := hinv.loading hst.1
    refine ⟨hinval, hload.index.symm, ?_, hload.got_all hlast⟩
    obtain ⟨endian, htag⟩ := hload.tag
    refine ⟨endian, ?_⟩
    have hs := hst.1
    simp only [reloading, or_eq_true, beq_iff_eq] at hs
    unfold ReloadInv at hinv
    rcases hs with hs | hs <;> simp only [hs] at hinv
    · -- no row is stored in CLR_TAG
      exact absurd (hst.2.symm.trans hinv.2) (by simp)
    · simpa [reloadStep, step, hs, htag] using hinv.2

/-- A fetch from the given page. -/
def fetches (page : BitVec 44) : Inputs :=
  { i := { req := true, nia := page.setWidth 64 <<< 12, rpn := page } }

def answers : Inputs := { wb := { ack := true } }

/-- A miss, an invalidation after two requests, and the answers to all that were accepted. -/
def abortEarly : List Inputs :=
  [fetches 1, {}, {}, { invalIn := true }, answers, answers, answers]

theorem abort_safe_abortEarly :
    let t := run reloadStep { cache := ({} : State .default) } abortEarly
    t.cache.r.state = .stopReload ∧ (reloadStep t {}).cache.r.state = .idle ∧
      (reloadStep t {}).due = [] := by
  have hrun : Allowed reloadStep (fun t i => ReloadEnv t i ∧ NotWhole t i)
        { cache := ({} : State .default) } abortEarly ∧
      (let t := run reloadStep { cache := ({} : State .default) } abortEarly
       ReloadEnv t {} ∧ NotWhole t {} ∧ t.cache.r.state = .stopReload ∧
        (reloadStep t {}).cache.r.state = .idle) := by decide +kernel
  have hstart : ReloadStart { cache := ({} : State .default) } :=
    ⟨by constructor <;> intros <;> rfl, rfl⟩
  have hreach := reachable_run hstart hrun.1
  obtain ⟨-, he, hn, hst, hidle⟩ := hrun
  revert hreach he hn hst hidle
  generalize run reloadStep _ abortEarly = t
  intro hreach he hn hst hidle
  exact ⟨hst, hidle, (abort_safe hreach he hn).2.1 (by simp [hst]) hidle⟩

/-- A miss, eight accepted requests, and then an invalidation. -/
def abortWhole : List Inputs :=
  [fetches 1, {}, {}, {}, {}, {}, {}, {}, {}, { invalIn := true }]

/-- The bus is given up with the whole line outstanding, and the first answer for it is taken for
the first row of the next line. -/
theorem abort_unsafe_abortWhole :
    (let t := run reloadStep { cache := ({} : State .default) } abortWhole
     Allowed reloadStep ReloadEnv { cache := ({} : State .default) } abortWhole ∧
      ReloadEnv t {} ∧ t.cache.r.wb.cyc = true ∧ (reloadStep t {}).cache.r.wb.cyc = false ∧
      (reloadStep t {}).cache.r.state = .idle ∧ (reloadStep t {}).due.length = 8) ∧
    (let t := run reloadStep { cache := ({} : State .default) }
        (abortWhole ++ [{}, fetches 2, {}])
     ReloadEnv t answers ∧ reloading t.cache = true ∧
      setLow (addrToWb t.missRa) (getRowOfLine t.cache.r.recvRow) = 0x400 ∧
      t.due.head? = some 0x200) := by
  decide +kernel

end Icache

end Microwatt
