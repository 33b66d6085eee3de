import Microwatt.Dcache.Bus
import Microwatt.Dcache.Requests

/-!
# Load-reserve and store-conditional

A reservation is a line address with a valid bit. A load with reserve sets the address when it is
looked up; the valid bit follows when the data is there, which is at once for a hit and otherwise
when the row arrives from memory. A write of another master to the line clears the valid bit, a
cycle after it was on the bus. A store-conditional that finds the bit set goes to DO_STCX, where it
waits for the bus and checks the bit and the line again.

The valid bit after a reload is set according to `r1.req`, while the request that the row completes
is `r1.req` only if it is parked there: a request in `r0` that finds its row arriving in the very
cycle of its lookup completes as well, and `r1.req` then is whatever was looked up before it. So a
load-reserve can complete without a reservation, and a load without reserve can bring back a
reservation that another master's write has cleared. Two more ways to a reservation that no load
has made are closed by conditions on the requests: a non-cacheable load with reserve that hits in
the cache is refused but leaves the bit set, and the check in DO_STCX is skipped for a store that
joins a bus cycle held for the second half of a quadword.

## Main definitions

* `Dcache.RsvEnv`, `Dcache.Unambiguous` — the rest of the system, and the conditions

## Main results

* `Dcache.stcx_safe`, `Dcache.larx_reserves`
-/

namespace Microwatt

open Clocked
open Bool (and_eq_true false_eq_true not_eq_true')

namespace Dcache

variable {g : Geometry}

variable {s : State g} {i : Inputs}

section Conditions

variable (t : RsvTracked g) (j : RsvInputs)

/-- Loadstore1 sends plain requests, the bus belongs to the master that sees `stall = '0'` with its
`cyc`, and the unit sees the accepted writes of the others. -/
structure RsvEnv : Prop where
  rst : j.rst = false
  plain : Plain j.d
  owner : t.cache.r1.wb.cyc = true → j.wb.stall = false → j.other = none
  snoop : ∀ adr, j.other = some adr →
    j.snoop.cyc = true ∧ j.snoop.stb = true ∧ j.snoop.we = true ∧ j.snoop.adr = adr

/-- The conditions under which the reservation is made and checked for the right request. -/
@[mk_iff]
structure Unambiguous : Prop where
  /-- A row that completes the request in `r0` does not find a load-reserve in `r1.req` instead. -/
  reload : t.cache.r1.state = .reloadWaitAck → t.cache.r1.full = false →
    reloadDone t.cache j.toInputs = true → t.cache.r1.req.reserve = true →
    t.cache.r1.req.firstDw = true → isLarx t.cache.r0.req = true
  /-- A load with reserve that hits is cacheable. -/
  cacheable : reserveLookup t.cache j.toInputs = true → reqIsHit t.cache j.toInputs = true →
    reqNc t.cache = false
  /-- A bus cycle held for the second half of a quadword is not joined by a first half. -/
  half : t.cache.r1.state = .storeWaitAck → storeIssue t.cache j.toInputs = true →
    (req t.cache j.toInputs).reserve = true → (req t.cache j.toInputs).firstDw = false

instance (r : Loadstore1ToDcache) : Decidable (Plain r) := by unfold Plain; infer_instance

instance : Decidable (RsvEnv t j) :=
  decidable_of_iff
    (j.rst = false ∧ Plain j.d ∧
      (t.cache.r1.wb.cyc = true → j.wb.stall = false → j.other = none) ∧
      (j.other.all fun adr =>
        j.snoop.cyc && j.snoop.stb && j.snoop.we && (j.snoop.adr == adr)) = true) <| by
    refine ⟨fun h => ⟨h.1, h.2.1, h.2.2.1, ?_⟩, fun h => ⟨h.rst, h.plain, h.owner, ?_⟩⟩
    · intro adr hother
      simpa [hother, and_assoc] using h.2.2.2
    · cases hother : j.other with
      | none => rfl
      | some adr => simpa [and_assoc] using h.snoop adr hother

instance : Decidable (Unambiguous t j) := decidable_of_iff _ (unambiguous_iff ..).symm

structure RsvInv : Prop extends ReqInv t where
  /-- The valid bit stands for a reservation, or is about to be cleared. -/
  valid : t.cache.reservation.valid = true → killRsrv t.cache = false →
    t.reserved = some t.cache.reservation.addr

end Conditions

variable {t : RsvTracked g} {j : RsvInputs}

/-! ### The valid bit -/

/-- The valid bit as lookups and snooped writes leave it. -/
def rsvKept (s : State g) (i : Inputs) : Bool :=
  if reserveLookup s i then reqIsHit s i && !reqSnoopHit s i
  else s.reservation.valid && !killRsrv s

theorem reservation_valid_eq (s : State g) (i : Inputs) :
    (clock s i).reservation.valid =
      match s.r1.state with
      | .reloadWaitAck =>
        rsvKept s i || (reloadDone s i && s.r1.req.reserve && s.r1.req.firstDw)
      | .doStcx => rsvKept s i && !(stcxRefused s || stcxIssue s i)
      | _ => rsvKept s i := rfl

/-- A valid bit after the edge comes from the arrival of a row, or it was kept, and then no
store-conditional has used it up. -/
theorem reservation_valid_clock (hv : (clock s i).reservation.valid = true) :
    (s.r1.state = .reloadWaitAck ∧ reloadDone s i = true ∧ s.r1.req.reserve = true ∧
        s.r1.req.firstDw = true) ∨
      (rsvKept s i = true ∧
        (s.r1.state = .doStcx → (stcxRefused s || stcxIssue s i) = false)) := by
  rw [reservation_valid_eq] at hv
  cases hst : s.r1.state with
  | reloadWaitAck =>
    simp only [hst, Bool.or_eq_true, and_eq_true] at hv
    rcases hv with hkept | ⟨⟨hdone, hres⟩, hfirst⟩
    · exact .inr ⟨hkept, fun hne => absurd hne (by simp)⟩
    · exact .inl ⟨rfl, hdone, hres, hfirst⟩
  | doStcx =>
    simp only [hst, and_eq_true, not_eq_true'] at hv
    exact .inr ⟨hv.1, fun _ => hv.2⟩
  | idle | storeWaitAck | ncLoadWaitAck | flushCycle =>
    simp only [hst] at hv
    exact .inr ⟨hv, fun hne => absurd hne (by simp)⟩

theorem reqGo_of_reserveLookup (h : reserveLookup s i = true) : reqGo s i = true := by
  simp only [reserveLookup, and_eq_true] at h
  exact h.1.1.1.1

theorem isLarx_of_reserveLookup (h : reserveLookup s i = true) : isLarx s.r0.req = true := by
  simp only [reserveLookup, and_eq_true] at h
  simp [isLarx, h]

theorem Plain.reqOp_of_hit (h : Plain s.r0.req) (hlook : reserveLookup s i = true)
    (hhit : reqIsHit s i = true) (hnc : reqNc s = false) : reqOp s i = .loadHit := by
  simp only [reserveLookup, and_eq_true] at hlook
  obtain ⟨⟨⟨⟨hgo, hok⟩, hload⟩, hres⟩, -⟩ := hlook
  obtain ⟨-, htouch, hflush, hsync, hprobe, -⟩ := h hres
  simp [reqOp, hgo, hsync, htouch, hprobe, hok, hflush, hnc, hload, hhit]

/-- A load-reserve that completes makes the reservation. -/
theorem RsvInv.reservedBy_of_larx (h : RsvInv t) (hlarx : isLarx (current t) = true)
    (hv : lsValidNext t.cache j.toInputs = true) :
    reservedBy t j = some (clock t.cache j.toInputs).reservation.addr := by
  rw [h.addr_of_completes hlarx hv]
  simp [reservedBy, hv, hlarx, isStcx_of_isLarx hlarx]

/-- A first half without the check in DO_STCX does not complete while there is a reservation. -/
theorem RsvInv.not_stcx (h : RsvInv t) (hu : Unambiguous t j)
    (hvalid : t.cache.reservation.valid = true) (hkill : killRsrv t.cache = false)
    (hdo : t.cache.r1.state = .doStcx →
      (stcxRefused t.cache || stcxIssue t.cache j.toInputs) = false)
    (hv : lsValidNext t.cache j.toInputs = true) : isStcx (current t) = false := by
  by_contra hstcx
  simp only [isStcx, Bool.not_eq_false, and_eq_true, not_eq_true'] at hstcx
  obtain ⟨⟨hload, hres⟩, hfirst⟩ := hstcx
  have hreq := h.isReq (h.control.go_of_completes (completes_of_lsValidNext hv))
  rcases h.completes hv hres with ⟨hl, -⟩ | ⟨-, ⟨hst, hact⟩ | ⟨hst, hissue⟩ | ⟨hst, hdone⟩⟩
  · exact absurd (hl.symm.trans hload) (by simp)
  · rcases (idleSpec_of hact).2.2 with hno | hno
    · exact absurd (hvalid.symm.trans hno) (by simp)
    · exact absurd (hno.symm.trans hkill) (by simp)
  · have hsecond := hu.half hst hissue (hreq.reserve.trans hres)
    rw [hreq.firstDw, hfirst] at hsecond
    cases hsecond
  · rw [hdo hst] at hdone
    cases hdone

theorem RsvInv.reservedBy_of_valid (h : RsvInv t) (hu : Unambiguous t j)
    (hv : (clock t.cache j.toInputs).reservation.valid = true) :
    reservedBy t j = some (clock t.cache j.toInputs).reservation.addr := by
  rcases reservation_valid_clock hv with ⟨hst, hdone, hres, hfirst⟩ | ⟨hkept, hdo⟩
  · -- a row arrives: the request of the cycle is the load-reserve, parked or in `r0`
    have hreq := h.isReq (go_of_reloadDone hdone)
    have hlarx : isLarx (current t) = true := by
      cases hf : t.cache.r1.full with
      | false =>
        rw [current_of_not_full hf]
        exact hu.reload hst hf hdone hres hfirst
      | true =>
        rw [req_of_full hf] at hreq
        have hr := hreq.reserve.symm.trans hres
        have hload := h.load_of_reloadDone hst hdone hr
        obtain ⟨-, -, -, -, -, hqw⟩ := hreq.plain hr
        have hfirst' := hreq.firstDw.symm.trans hfirst
        cases hq : (current t).atomicQw <;> simp_all [isLarx]
    have hr := (reserve_of_isLarx hlarx).2
    refine h.reservedBy_of_larx hlarx ?_
    simp [lsValidNext, hst, hdone, hreq.mmuReq hr]
  · unfold rsvKept at hkept
    cases hlook : reserveLookup t.cache j.toInputs with
    | true =>
      simp only [hlook, if_true, and_eq_true] at hkept
      have hr0 := h.r0.of_go (reqGo_of_reserveLookup hlook)
      have hop := hr0.1.reqOp_of_hit hlook hkept.1 (hu.cacheable hlook hkept.1)
      have hf : t.cache.r1.full = false := full_of_reqOp (i := j.toInputs) (by simp [hop])
      have hlarx := isLarx_of_reserveLookup hlook
      have hmmu := hr0.2 (reserve_of_isLarx hlarx).2
      refine h.reservedBy_of_larx ?_ ?_
      · rw [current_of_not_full hf]
        exact hlarx
      · simp [lsValidNext, hop, hmmu]
    | false =>
      simp only [hlook, false_eq_true, if_false, and_eq_true, not_eq_true'] at hkept
      by_cases hlarx : lsValidNext t.cache j.toInputs = true ∧ isLarx (current t) = true
      · exact h.reservedBy_of_larx hlarx.2 hlarx.1
      · rw [reservation_addr_clock, if_neg (by simp [hlook]), ← h.valid hkept.1 hkept.2]
        unfold reservedBy
        split_ifs with hval hstcx hl
        · exact absurd hstcx (by simp [h.not_stcx hu hkept.1 hkept.2 hdo hval])
        · exact absurd ⟨hval, hl⟩ hlarx
        · rfl
        · rfl

theorem RsvInv.step (h : RsvInv t) (he : RsvEnv t j) (hu : Unambiguous t j) :
    RsvInv (rsvStep t j) := by
  have hclock : (rsvStep t j).cache = clock t.cache j.toInputs := step_eq_clock he.rst
  refine ⟨h.toReqInv.step he.rst he.plain, ?_⟩
  rw [hclock]
  intro hv hkill
  have hbase := h.reservedBy_of_valid hu hv
  rw [← hbase]
  simp only [rsvStep]
  cases hother : j.other with
  | none => rfl
  | some adr =>
    -- a write to the line that was not ours is in the snoop registers after the edge
    refine if_neg fun heq => ?_
    obtain ⟨hcyc, hstb, hwe, hadr⟩ := he.snoop adr hother
    have hnotown : (t.cache.r1.wb.cyc && !j.wb.stall) = false := by
      by_contra hown
      simp only [Bool.not_eq_false, and_eq_true, not_eq_true'] at hown
      rw [he.owner hown.1 hown.2] at hother
      cases hother
    have hactive : (clock t.cache j.toInputs).snoopValid = true := by
      change snoopActive t.cache j.toInputs = true
      simp [snoopActive, hcyc, hstb, hwe, hnotown]
    have hline : getLine g (clock t.cache j.toInputs).snoopPaddr =
        (clock t.cache j.toInputs).reservation.addr := by
      change getLine g (addrToReal (wbToAddr j.snoop.adr)) = _
      rw [hbase, Option.some.injEq] at heq
      rw [hadr, heq, busLine]
    simp [killRsrv, hactive, hv, hline] at hkill

theorem RsvStart.inv (h : RsvStart t) : RsvInv t :=
  ⟨h.reqInv, fun hv => absurd hv (by simp [h.1.1.reservation])⟩

/-! ### Store-conditional -/

/-- **A store-conditional succeeds only under the reservation.** In every run whose steps meet the
conditions, the store goes to the line of the last load-reserve that completed, no store-conditional
has completed since, and no other master's write to the line has been accepted since, up to and
including the cycle in which the store obtains the bus. -/
theorem stcx_safe (h : Reachable rsvStep (fun t j => RsvEnv t j ∧ Unambiguous t j) RsvStart t)
    (he : RsvEnv t j) (hu : Unambiguous t j) (hstcx : isStcx (current t) = true)
    (hdone : (rsvStep t j).cache.r1.lsValid = true)
    (hok : (dOut (rsvStep t j).cache).storeDone = true) :
    t.reserved = some (currentLine t) ∧ j.other = none := by
  have hinv : RsvInv t := h.induct (fun _ h0 => h0.inv) (fun _ _ hi he => hi.step he.1 he.2)
  have hclock : (rsvStep t j).cache = clock t.cache j.toInputs := step_eq_clock he.rst
  rw [hclock] at hdone hok
  have hnofail : stcxFailNext t.cache j.toInputs = false := by simpa [dOut, clock, r1Next] using hok
  have hreq := hinv.isReq (hinv.control.go_of_completes (completes_of_lsValidNext hdone))
  have hflags := hstcx
  simp only [isStcx, and_eq_true, not_eq_true'] at hflags
  obtain ⟨⟨hload, hres⟩, hfirst⟩ := hflags
  rcases hinv.completes hdone hres with ⟨hl, -⟩ | ⟨-, ⟨hst, hact⟩ | ⟨hst, hissue⟩ | ⟨hst, hdo⟩⟩
  · exact absurd (hl.symm.trans hload) (by simp)
  · simp [stcxFailNext, hst, hact] at hnofail
  · have hsecond := hu.half hst hissue (hreq.reserve.trans hres)
    rw [hreq.firstDw, hfirst] at hsecond
    cases hsecond
  · -- in DO_STCX the reservation is checked in the cycle in which the bus is granted
    have href : stcxRefused t.cache = false := by simpa [stcxFailNext, hst] using hnofail
    rw [href, Bool.false_or] at hdo
    have hok' := hinv.control.state
    simp only [StateOk, hst] at hok'
    obtain ⟨hcyc, -, -, hf, -, -⟩ := hok'
    simp only [stcxIssue, and_eq_true, not_eq_true'] at hdo
    simp only [stcxRefused, Bool.or_eq_false_iff, Bool.not_eq_false', bne_eq_false_iff_eq] at href
    obtain ⟨⟨hvalid, hkill⟩, hline⟩ := href
    refine ⟨?_, he.owner hcyc hdo.2⟩
    rw [req_of_full hf] at hreq
    rw [hinv.valid hvalid hkill, ← hreq.line, hline]

/-- A real-mode load of a privileged program. -/
def loadOf (addr : BitVec 64) : Loadstore1ToDcache :=
  { valid := true, load := true, privMode := true, atomicFirst := true, atomicLast := true,
    addr := addr }

/-- A request of loadstore1 in a cycle with the given answer of the bus. -/
def sends (d : Loadstore1ToDcache) (stall ack : Bool) : RsvInputs :=
  { d := d, wb := { stall := stall, ack := ack } }

/-- A cycle without a request. -/
def waits (stall ack : Bool) : RsvInputs := sends {} stall ack

def storeCond (addr : BitVec 64) : Loadstore1ToDcache :=
  { loadOf addr with load := false, reserve := true, byteSel := 0xff }

/-- A load-reserve that misses, the rest of its line, and a store-conditional. -/
def larxStcx : List RsvInputs :=
  [sends { loadOf 0x1000 with reserve := true } false false, waits false false,
    waits false false] ++ List.replicate 8 (waits false true) ++
    [sends (storeCond 0x1000) true false, waits true false]

theorem stcx_safe_larxStcx :
    let t := run rsvStep { cache := ({} : State .default) } larxStcx
    (rsvStep t {}).cache.r1.lsValid = true ∧ t.reserved = some (currentLine t) := by
  have hrun : Allowed rsvStep (fun t j => RsvEnv t j ∧ Unambiguous t j)
        { cache := ({} : State .default) } larxStcx ∧
      (let t := run rsvStep { cache := ({} : State .default) } larxStcx
       RsvEnv t {} ∧ Unambiguous t {} ∧ isStcx (current t) = true ∧
        (rsvStep t {}).cache.r1.lsValid = true ∧
        (dOut (rsvStep t {}).cache).storeDone = true) := by decide +kernel
  have hstart : RsvStart { cache := ({} : State .default) } :=
    ⟨⟨by constructor <;> intros <;> rfl, rfl, rfl⟩, rfl⟩
  have hreach := reachable_run hstart hrun.1
  obtain ⟨-, he, hu, hstcx, hdone, hok⟩ := hrun
  revert hreach he hu hstcx hdone hok
  generalize run rsvStep _ larxStcx = t
  intro hreach he hu hstcx hdone hok
  exact ⟨hdone, (stcx_safe hreach he hu hstcx hdone hok).1⟩

/-- The line at `0x1000` is read, then a reload of the line at `0x2040` is started by dcbt and has
to wait for the bus. A load-reserve of `0x1000` hits, another master writes there, and a load of
`0x2048` is looked up in the cycle in which its row of the reload arrives. At last there is a
store-conditional to `0x1000`. -/
def lostWrite : List RsvInputs :=
  [sends (loadOf 0x1000) false false, waits false false, waits false false] ++
    List.replicate 8 (waits false true) ++
    [sends { loadOf 0x2040 with touch := true } true false, waits true false, waits true false,
      waits true false, sends { loadOf 0x1000 with reserve := true } true false, waits true false,
      { waits true false with
        other := some 0x200, snoop := { cyc := true, stb := true, we := true, adr := 0x200 } },
      waits true false, waits false false, sends (loadOf 0x2048) false true] ++
    List.replicate 7 (waits false true) ++ [sends (storeCond 0x1000) true false, waits true false]

/-- The load of `0x2048` is completed with the load-reserve still in `r1.req`, and brings the
cleared reservation back. -/
theorem stcx_unsafe_lostWrite :
    let t := run rsvStep { cache := ({} : State .default) } lostWrite
    Allowed rsvStep RsvEnv { cache := ({} : State .default) } lostWrite ∧
      Allowed busStep BusEnv { cache := ({} : State .default) }
        (lostWrite.map (·.toInputs)) ∧
      RsvEnv t {} ∧ isStcx (current t) = true ∧ (rsvStep t {}).cache.r1.lsValid = true ∧
      (dOut (rsvStep t {}).cache).storeDone = true ∧ t.reserved = none := by
  decide +kernel

/-! ### Load-reserve -/

theorem line_ext {a b : RealAddr} (hindex : getIndex g a = getIndex g b)
    (htag : getTag g a = getTag g b) : getLine g a = getLine g b := by
  refine BitVec.eq_of_getLsbD_eq fun k hk => ?_
  change k < 56 - (g.rowLinebits + 3) at hk
  by_cases hlow : k < g.indexBits
  · have hbit := congrArg (fun v => v.getLsbD k) hindex
    simpa [getIndex, getLine, hlow, hk] using hbit
  · have hbit := congrArg (fun v => v.getLsbD (k - g.indexBits)) htag
    have hlt : k - g.indexBits < 56 - (g.rowLinebits + 3 + g.indexBits) := by omega
    have hadd : g.rowLinebits + 3 + g.indexBits + (k - g.indexBits) = g.rowLinebits + 3 + k := by
      omega
    simpa [getTag, getLine, hlt, hadd, hk] using hbit

/-- The index is not translated. -/
theorem getIndex_ra (s : State g) : getIndex g (ra s) = reqIndex s := by
  have hsize := g.setSize
  refine BitVec.eq_of_getLsbD_eq fun k hk => ?_
  have hbit : (ra s).getLsbD (g.rowLinebits + 3 + k) =
      s.r0.req.addr.getLsbD (g.rowLinebits + 3 + k) := by
    unfold ra
    split_ifs
    · rw [getLsbD_translate _ _ (by omega) (by omega), if_pos (by omega)]
    · rw [getLsbD_realModeAddr _ (by omega) (by omega)]
  simp [reqIndex, getIndex, hk, hbit]

theorem getTag_realModeAddr (addr : BitVec 64) : getTag g (realModeAddr addr) = getTag g addr := by
  refine BitVec.eq_of_getLsbD_eq fun k hk => ?_
  change k < 56 - (g.rowLinebits + 3 + g.indexBits) at hk
  have hbit := getLsbD_realModeAddr addr (k := g.rowLinebits + 3 + g.indexBits + k) (by omega)
    (by omega)
  simp [getTag, hk, hbit]

theorem getTag_translate (s : State g) (way : g.TlbWay) :
    getTag g (translate (s.tlbPteWay way) s.r0.req.addr) = tlbWayTag s way := by
  refine BitVec.eq_of_getLsbD_eq fun k hk => ?_
  change k < 56 - (g.rowLinebits + 3 + g.indexBits) at hk
  have hbit := getLsbD_translate (s.tlbPteWay way) s.r0.req.addr
    (k := g.rowLinebits + 3 + g.indexBits + k) (by omega) (by omega)
  simp only [tlbWayTag, getTag, BitVec.getLsbD_extractLsb', hk, hbit, BitVec.getLsbD_append]
  by_cases hlow : g.rowLinebits + 3 + g.indexBits + k < 12
  · simp [hlow]
  · have hadd : 12 + (g.rowLinebits + 3 + g.indexBits + k - 12) =
        g.rowLinebits + 3 + g.indexBits + k := by omega
    simp [hlow, hadd, show g.rowLinebits + 3 + g.indexBits + k - 12 < 44 by omega]

/-- Both reads of the tag memory were made in the same cycle. -/
def TagsRead (s : State g) : Prop :=
  ∃ tags : g.Index → g.Way → g.Tag,
    (s.r0Full = true → s.cacheTagSet = tags (reqIndex s)) ∧
      s.snoopTagSet = tags (getIndex g s.snoopPaddr)

theorem tagReadIndex_eq (s : State g) (i : Inputs) : tagReadIndex s i = reqIndex (clock s i) := by
  simp only [tagReadIndex, reqIndex, clock, r0Next]
  cases hstall : r0Stall s i with
  | true => simp only [Bool.not_true, false_eq_true, if_false, if_true]; split_ifs <;> rfl
  | false =>
    simp only [Bool.not_false, if_true, false_eq_true, if_false, r0New]
    split_ifs <;> rfl

theorem tagsRead_clock (s : State g) (i : Inputs) : TagsRead (clock s i) :=
  ⟨s.cacheTags, fun _ => congrArg s.cacheTags (tagReadIndex_eq s i), rfl⟩

/-- The snooped write that is found to hit the same way as a load-reserve went to its line. -/
theorem line_of_snoopHit {s : State g} (htags : TagsRead s)
    (hone : ∀ way, tlbHitExpand s way = true → Ways.Only (tlbHitExpand s) way)
    (hlarx : isLarx s.r0.req = true) (hhit : reqSnoopHit s i = true) :
    s.snoopValid = true ∧ getLine g s.snoopPaddr = getLine g (ra s) := by
  simp only [reqSnoopHit, and_eq_true, beq_iff_eq] at hhit
  obtain ⟨⟨hgo, hindex⟩, hany⟩ := hhit
  obtain ⟨way, hway⟩ := Ways.any_iff.mp hany
  simp only [snoopHits, reqHitWays, and_eq_true, Bool.or_eq_true, beq_iff_eq] at hway
  obtain ⟨⟨hvalid, hsnoop⟩, hmatch⟩ := hway
  have hfirst : s.r0.req.atomicFirst = true := by
    simp only [isLarx, and_eq_true] at hlarx
    exact hlarx.2
  have hmatch : tagMatch s i way = true := by simpa [hfirst] using hmatch
  obtain ⟨tags, hread, hsnoopRead⟩ := htags
  have hsame : s.snoopTagSet way = s.cacheTagSet way := by
    rw [hsnoopRead, hread (r0Full_of_r0Valid (r0Valid_of_reqGo hgo)), hindex]
  have htag : s.cacheTagSet way = getTag g (ra s) := by
    unfold tagMatch at hmatch
    unfold ra
    cases hvirt : s.r0.req.virtMode with
    | true =>
      simp only [hvirt, if_true] at hmatch ⊢
      obtain ⟨w, hw⟩ := Ways.any_iff.mp hmatch
      simp only [and_eq_true, beq_iff_eq] at hw
      rw [pte, (hone w hw.2).orOf_eq, getTag_translate]
      exact hw.1.2
    | false =>
      simp only [hvirt, false_eq_true, if_false, and_eq_true, beq_iff_eq] at hmatch ⊢
      rw [getTag_realModeAddr]
      exact hmatch.2
  refine ⟨hvalid, line_ext ?_ ?_⟩
  · rw [getIndex_ra, hindex]
  · rw [← hsnoop, hsame, htag]

section Larx

variable (t : RsvTracked g) (j : RsvInputs)

/-- Loadstore1 sends plain requests. -/
@[mk_iff]
structure LarxEnv : Prop where
  rst : j.rst = false
  plain : Plain j.d

/-- The conditions under which the load-reserve that completes is the one that is recorded. -/
@[mk_iff]
structure InTime : Prop where
  /-- The row that completes a load-reserve from `r0` finds one in `r1.req` as well. -/
  reload : t.cache.r1.state = .reloadWaitAck → t.cache.r1.full = false →
    reloadDone t.cache j.toInputs = true → isLarx t.cache.r0.req = true →
    t.cache.r1.req.reserve = true ∧ t.cache.r1.req.firstDw = true
  /-- The TLB translates its address in one way only, which `TlbInv.only` gives. -/
  oneWay : ∀ way, tlbHitExpand t.cache way = true → Ways.Only (tlbHitExpand t.cache) way

instance : Decidable (LarxEnv j) := decidable_of_iff _ (larxEnv_iff ..).symm

instance : Decidable (InTime t j) := decidable_of_iff _ (inTime_iff ..).symm

structure LarxInv : Prop extends ReqInv t where
  tags : t.cache.r0Full = true → TagsRead t.cache

end Larx

theorem LarxInv.step (h : LarxInv t) (he : LarxEnv j) : LarxInv (rsvStep t j) where
  toReqInv := h.toReqInv.step he.rst he.plain
  tags := by
    have hclock : (rsvStep t j).cache = clock t.cache j.toInputs := step_eq_clock he.rst
    rw [hclock]
    exact fun _ => tagsRead_clock _ _

/-- **A completed load-reserve has its reservation.** In every run, a load-reserve that completes
leaves the reservation valid for its line, unless another master's write to the line is in the snoop
registers in the cycle in which the data is obtained, or it is completed from `r0` by a row that
finds something else in `r1.req`. -/
theorem larx_reserves (h : Reachable rsvStep (fun _ j => LarxEnv j) RsvStart t)
    (he : LarxEnv j) (hu : InTime t j) (hlarx : isLarx (current t) = true)
    (hdone : (rsvStep t j).cache.r1.lsValid = true) :
    (rsvStep t j).cache.reservation.addr = currentLine t ∧
      ((rsvStep t j).cache.reservation.valid = true ∨
        (t.cache.snoopValid = true ∧ getLine g t.cache.snoopPaddr = currentLine t)) := by
  have hinv : LarxInv t := by
    refine h.induct (fun t h0 => ?_) (fun _ _ hi he => hi.step he)
    exact ⟨h0.reqInv, fun hf => absurd hf (by simp [h0.1.1.r0Full])⟩
  have hclock : (rsvStep t j).cache = clock t.cache j.toInputs := step_eq_clock he.rst
  rw [hclock] at hdone ⊢
  refine ⟨hinv.addr_of_completes hlarx hdone, ?_⟩
  obtain ⟨hload, hres⟩ := reserve_of_isLarx hlarx
  rw [reservation_valid_eq]
  rcases hinv.completes hdone hres with ⟨-, ⟨hop, hf⟩ | ⟨hst, hrow⟩⟩ | ⟨hl, -⟩
  · -- a hit: the reservation is refused only for a snooped write to the line
    rw [current_of_not_full hf] at hlarx hres
    have hgo : reqGo t.cache j.toInputs = true := reqGo_of_reqOp (by simp [hop])
    have hfull := r0Full_of_r0Valid (r0Valid_of_reqGo hgo)
    have hlook := reserveLookup_of_larx hlarx hgo (reqSpec_of hop).1
    obtain ⟨-, htouch, -⟩ := (hinv.r0 hfull).1 hres
    have hhit := ((reqSpec_of hop).2.2 htouch).2
    cases hsnoop : reqSnoopHit t.cache j.toInputs with
    | true =>
      right
      simpa [currentLine, hf] using line_of_snoopHit (hinv.tags hfull) hu.oneWay hlarx hsnoop
    | false =>
      left
      have hkept : rsvKept t.cache j.toInputs = true := by simp [rsvKept, hlook, hhit, hsnoop]
      have hok := hinv.control.state
      unfold StateOk at hok
      cases hs : t.cache.r1.state with
      | doStcx =>
        simp only [hs] at hok
        exact absurd hok.2.2.2.1 (by simp [hf])
      | idle | reloadWaitAck | storeWaitAck | ncLoadWaitAck | flushCycle => simp [hkept]
  · -- the row arrives: `r1.req` is the load-reserve, or another one
    left
    have hreq := hinv.isReq (go_of_reloadDone hrow)
    have hflags : t.cache.r1.req.reserve = true ∧ t.cache.r1.req.firstDw = true := by
      cases hf : t.cache.r1.full with
      | true =>
        rw [req_of_full hf] at hreq
        simp only [isLarx, and_eq_true] at hlarx
        exact ⟨hreq.reserve.trans hres, by rw [hreq.firstDw, hlarx.2, Bool.or_true]⟩
      | false =>
        rw [current_of_not_full hf] at hlarx
        exact hu.reload hst hf hrow hlarx
    simp [hst, hrow, hflags]
  · exact absurd (hload.symm.trans hl) (by simp)

/-- A load-reserve that misses, up to the row it waits for. -/
def larxMiss : List RsvInputs :=
  [sends { loadOf 0x1000 with reserve := true } false false, waits false false, waits false false]

theorem larx_reserves_larxMiss :
    let t := run rsvStep { cache := ({} : State .default) } larxMiss
    (rsvStep t (waits false true)).cache.r1.lsValid = true ∧
      (rsvStep t (waits false true)).cache.reservation.addr = currentLine t := by
  have hrun : Allowed rsvStep (fun _ j => LarxEnv j) { cache := ({} : State .default) }
        larxMiss ∧
      (let t := run rsvStep { cache := ({} : State .default) } larxMiss
       InTime t (waits false true) ∧ isLarx (current t) = true ∧
        (rsvStep t (waits false true)).cache.r1.lsValid = true) := by decide +kernel
  have hstart : RsvStart { cache := ({} : State .default) } :=
    ⟨⟨by constructor <;> intros <;> rfl, rfl, rfl⟩, rfl⟩
  have hreach := reachable_run hstart hrun.1
  obtain ⟨-, hu, hlarx, hdone⟩ := hrun
  have he : LarxEnv (waits false true) := by decide
  revert hreach hu hlarx hdone
  generalize run rsvStep _ larxMiss = t
  intro hreach hu hlarx hdone
  exact ⟨hdone, (larx_reserves hreach he hu hlarx hdone).1⟩

/-- A load that misses, and a load-reserve of the next doubleword which is looked up in the cycle in
which that doubleword arrives. -/
def lateLarx : List RsvInputs :=
  [sends (loadOf 0x2040) false false, waits false false, waits false false, waits false true,
    sends { loadOf 0x2048 with reserve := true } false false]

theorem larx_without_reservation_lateLarx :
    let t := run rsvStep { cache := ({} : State .default) } lateLarx
    let t' := rsvStep t (waits false true)
    Allowed rsvStep (fun _ j => LarxEnv j) { cache := ({} : State .default) } lateLarx ∧
      Allowed busStep BusEnv { cache := ({} : State .default) }
        ((lateLarx ++ [waits false true]).map (·.toInputs)) ∧
      LarxEnv (waits false true) ∧ isLarx (current t) = true ∧ reqNc t.cache = false ∧
      t.cache.snoopValid = false ∧ t'.cache.r1.lsValid = true ∧
      t'.cache.reservation.valid = false := by
  decide +kernel

end Dcache

end Microwatt
