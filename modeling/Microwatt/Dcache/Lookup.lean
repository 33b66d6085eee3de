import Microwatt.Dcache.Basic

/-!
# The data cache: looking up a request

The combinational processes of `dcache.vhdl`: the search of the TLB, the check of permissions, hit
detection and the decision what the request in `r0` needs, the store data forwarded to a load, and
the address, data and select of the data RAM's ports.

`req_nc` is the settled value of the variable `nc`, which the process assigns only after reading it.

## Main definitions

* `Dcache.r0Valid`, `Dcache.reqGo` — the request in `r0` is looked up in this cycle
* `Dcache.pte`, `Dcache.ra`, `Dcache.accessOk` — translation and permission
* `Dcache.reqHitWays`, `Dcache.reqIsHit`, `Dcache.reqHitReload` — hit detection
* `Dcache.reqOp` — what the request needs
* `Dcache.cacheOut` — the row read from a way, with forwarded store data
-/

namespace Microwatt

namespace Dcache

variable {g : Geometry} (s : State g) (i : Inputs)

def r0Stall : Bool := s.r1.full || i.d.hold

def r0Valid : Bool := s.r0Full && !s.r1.full && !i.d.hold

/-! ### Translation -/

def tlbReqIndex : g.TlbIndex := tlbIndex g s.r0.req.addr

def tlbHitExpand (way : g.TlbWay) : Bool :=
  s.tlbValidWay way && s.tlbTagWay way == eaTag g s.r0.req.addr

def tlbHit : Bool := Ways.any (tlbHitExpand s) && s.tlbReadValid && r0Valid s i

def tlbHitWay : g.TlbWay := Ways.last (tlbHitExpand s)

/-- `pte`: all hitting ways combined. -/
def pte : BitVec 64 := Ways.orOf (tlbHitExpand s) s.tlbPteWay

def validRa : Bool := tlbHit s i || !s.r0.req.virtMode

/-- The real address of an effective address under a PTE, with the offset in the row cleared. -/
def translate (pte addr : BitVec 64) : RealAddr :=
  (pte.extractLsb' 12 44 ++ addr.extractLsb' 3 9) ++ 0#3

/-- The real address of an effective address in real mode, with the offset in the row cleared. -/
def realModeAddr (addr : BitVec 64) : RealAddr := addr.extractLsb' 3 53 ++ 0#3

theorem getLsbD_translate (pte addr : BitVec 64) {k : ℕ} (h : 3 ≤ k) (h' : k < 56) :
    (translate pte addr).getLsbD k = if k < 12 then addr.getLsbD k else pte.getLsbD k := by
  have hlow : 3 + (k - 3) = k := by omega
  simp only [translate, BitVec.getLsbD_append, BitVec.getLsbD_extractLsb', hlow,
    show ¬k < 3 by omega]
  by_cases hk : k < 12
  · simp [hk, show k - 3 < 9 by omega]
  · have hhigh : 12 + (k - 3 - 9) = k := by omega
    simp [hk, show ¬k - 3 < 9 by omega, hhigh, show k - 3 - 9 < 44 by omega]

theorem getLsbD_realModeAddr (addr : BitVec 64) {k : ℕ} (h : 3 ≤ k) (h' : k < 56) :
    (realModeAddr addr).getLsbD k = addr.getLsbD k := by
  have hlow : 3 + (k - 3) = k := by omega
  refine BitVec.getLsbD_append.trans ?_
  simp [hlow, show ¬k < 3 by omega, show k - 3 < 53 by omega]

def ra : RealAddr :=
  if s.r0.req.virtMode then translate (pte s) s.r0.req.addr else realModeAddr s.r0.req.addr

def permAttr : PermAttr :=
  if s.r0.req.virtMode then extractPermAttr (pte s) else realModePermAttr

/-- `req_same_page`: the request can join the bus cycle that is open. In virtual mode this is
decided by comparing TLB entries, in real mode by comparing addresses. -/
def reqSamePage : Bool :=
  if s.r0.req.virtMode then
    s.tlbReadValid && s.r1.state == .storeWaitAck && s.r1.lsTlbHit &&
      tlbReqIndex s == s.r1.tlbAccIndex && tlbHitWay s == s.r1.tlbAccWay
  else s.r0.req.addr.extractLsb' 12 44 == (wbToAddr s.r1.wb.adr).extractLsb' 12 44

/-- `dawr_match`, which has the timing of the store data. -/
def dawrMatch : Bool := if s.r0.dValid then s.r0.req.dawrMatch else i.d.dawrMatch

def rcOk : Bool := (permAttr s).reference && (s.r0.req.load || (permAttr s).changed)

def permOk : Bool :=
  (s.r0.req.privMode || !(permAttr s).priv) &&
    ((permAttr s).wrPerm || (s.r0.req.load && (permAttr s).rdPerm))

def accessOk : Bool := validRa s i && permOk s && rcOk s && !dawrMatch s i

def reqNc : Bool := s.r0.req.nc || (permAttr s).nocache

/-! ### Snooping -/

def snoopAddr (snoop : WishboneMasterOut) : RealAddr := addrToReal (wbToAddr snoop.adr)

/-- `snoop_active`: a write of another master. -/
def snoopActive : Bool :=
  i.snoop.cyc && i.snoop.stb && i.snoop.we && !(s.r1.wb.cyc && !i.wb.stall)

def killRsrv : Bool :=
  s.snoopValid && s.reservation.valid && getLine g s.snoopPaddr == s.reservation.addr

def snoopHits (way : g.Way) : Bool :=
  s.snoopValid && s.snoopTagSet way == getTag g s.snoopPaddr

/-! ### Hit detection -/

def reqIndex : g.Index := getIndex g s.r0.req.addr

def reqRow : g.Row := getRow g s.r0.req.addr

def reqGo : Bool := r0Valid s i && !s.r1.lsError

/-- `idx_reload`: the ways in which a load has to wait for its row to arrive. -/
def idxReload (way : g.Way) : Bool :=
  reqGo s i && s.r1.reloading && reqIndex s == s.r1.storeIndex &&
    (s.r0.req.load && !s.r0.req.touch && !s.r1.rowsValid (getRowOfLine (reqRow s))) &&
    s.r1.storeWays way

/-- `use_forward_st`: the row is being stored to in this cycle. -/
def useForwardSt (way : g.Way) : Bool :=
  reqGo s i && reqRow s == s.r1.storeRow && s.r1.writeBram && s.r1.storeWays way

/-- `use_forward2`: the row was stored to in the cycle before. -/
def useForward2 (way : g.Way) : Bool :=
  reqGo s i && s.r1.forwardValid && reqRow s == s.r1.forwardRow && way == s.r1.forwardWay

/-- The tag of the request if its real page were the one in `way` of the TLB. -/
def tlbWayTag (way : g.TlbWay) : g.Tag :=
  getTag g ((s.tlbPteWay way).extractLsb' 12 44 ++ s.r0.req.addr.extractLsb' 0 12)

/-- The comparison of the tags with the request. -/
def tagMatch (way : g.Way) : Bool :=
  if s.r0.req.virtMode then
    Ways.any fun j => s.cacheValids (reqIndex s) way && s.cacheTagSet way == tlbWayTag s j &&
      tlbHitExpand s j
  else
    reqGo s i && s.cacheValids (reqIndex s) way && s.cacheTagSet way == getTag g s.r0.req.addr

/-- `req_hit_ways`. The second half of an atomic quadword load uses the ways of its first half. -/
def reqHitWays (way : g.Way) : Bool :=
  (s.r0.req.load && s.r0.req.atomicQw && !s.r0.req.atomicFirst && s.r1.prevHitWays way) ||
    tagMatch s i way

def reqHitWay : g.Way := Ways.last (reqHitWays s i)

def reqIsHit : Bool :=
  Ways.any (reqHitWays s i) && (reqGo s i && !idxReload s i (reqHitWay s i))

def reqHitReload : Bool :=
  Ways.any (reqHitWays s i) && (reqGo s i && idxReload s i (reqHitWay s i))

/-- `req_snoop_hit`: the line looked up was written by another master two cycles ago. -/
def reqSnoopHit : Bool :=
  reqGo s i && getIndex g s.snoopPaddr == reqIndex s &&
    Ways.any fun way => snoopHits s way && reqHitWays s i way

/-- The flags `req_op_*`. -/
def reqOp : ReqOp :=
  if !reqGo s i then .none
  else if s.r0.req.sync then .sync
  else if s.r0.req.touch then
    if accessOk s i && !(reqIsHit s i || reqHitReload s i) && !reqNc s then .loadMiss
    else if accessOk s i && (reqIsHit s i || reqHitReload s i) && !reqNc s then .loadHit
    else .nop
  -- a probe only has the TLB hit recorded
  else if s.r0.req.tlbProbe then .none
  else if !accessOk s i then .bad
  else if s.r0.req.flush then if !reqIsHit s i then .nop else .flush
  else if reqNc s && (reqIsHit s i || s.r0.req.reserve) then .bad
  else if !s.r0.req.load then .store
  else if reqIsHit s i then .loadHit
  else .loadMiss

/-! ### Replacement -/

def plruVictim : g.Way := Plru.lru (s.plruRam s.r1.hitIndex)

def tlbPlruVictim : g.TlbWay := Plru.lru (s.tlbPlruRam s.r1.tlbHitIndex)

def replaceWay : g.Way :=
  if s.r1.writeTag then if s.r1.chooseVictim then plruVictim s else s.r1.victimWay
  else s.r1.storeWay

/-! ### The data RAM -/

def earlyReqRow : g.Row :=
  if r0Stall s i then reqRow s else if i.m.valid then getRow g i.m.addr else getRow g i.d.addr

def earlyRdValid : Bool := if r0Stall s i then s.r0.req.valid && s.r0.req.load else true

def ramWrData : BitVec 64 := if s.r1.writeBram || s.r1.dcbz then s.r1.req.data else i.wb.dat

def ramWrSelect : BitVec 8 := if s.r1.writeBram then s.r1.req.byteSel else BitVec.allOnes 8

/-- The condition on `wr_sel_m`: a store hit or an arriving row is written. -/
def ramWrite : Bool := s.r1.writeBram || (s.r1.reloading && i.wb.ack)

def cacheOut (way : g.Way) : BitVec 64 :=
  Lanes.merge 8 (if useForwardSt s i way then s.r1.req.byteSel else 0) s.r1.req.data
    (Lanes.merge 8 (if useForward2 s i way then s.r1.forwardSel else 0) s.r1.forwardData
      (s.dout way))

/-! ### Outputs -/

def dOut : DcacheToLoadstore1 where
  valid := s.r1.lsValid
  data := s.r1.dataOut
  storeDone := !s.r1.stcxFail
  error := s.r1.lsError
  cacheParadox := s.r1.cacheParadox
  reserveNc := s.r1.reserveNc

def mOut : DcacheToMmu where
  stall := false
  done := s.r1.mmuDone
  err := s.r1.mmuError
  data := s.r1.dataOut

end Dcache

end Microwatt
