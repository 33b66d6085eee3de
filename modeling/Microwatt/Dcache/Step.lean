import Microwatt.Dcache.Lookup
import Microwatt.Lib.Lanes

/-!
# The data cache: one clock edge

The clocked processes of `dcache.vhdl`. Each register has a function of its own giving the value
it takes at the edge; the state machine's choices, which several registers follow, are named first.

## Main definitions

* `Dcache.freshReq`, `Dcache.req` — the request of this cycle
* `Dcache.idleAction`, `Dcache.storeIssue`, `Dcache.reloadDone`, … — the choices in each state
* `Dcache.clock` — the edge without reset
* `Dcache.step` — the edge
* `Dcache.AfterReset` — the states after reset
-/

namespace Microwatt

namespace Dcache

variable {g : Geometry} (s : State g) (i : Inputs)

/-! ### The request -/

/-- The data of the request in `r0`. Loadstore1 sends store data a cycle after the request. -/
def freshData : BitVec 64 :=
  if s.r0.req.dcbz then 0 else if s.r0.dValid then s.r0.req.data else i.d.data

/-- The byte selects of the request in `r0`: all for dcbz and for cacheable loads. -/
def freshByteSel : BitVec 8 :=
  if s.r0.req.dcbz || (s.r0.req.load && !s.r0.req.nc && !(permAttr s).nocache) then
    BitVec.allOnes 8
  else s.r0.req.byteSel

/-- The request made of `req_op_*`, `ra` and so on. -/
def freshReq : MemReq g where
  op := reqOp s i
  nc := reqNc s
  valid := reqGo s i
  dcbz := s.r0.req.dcbz
  touch := s.r0.req.touch
  reserve := s.r0.req.reserve
  firstDw := !s.r0.req.atomicQw || s.r0.req.atomicFirst
  lastDw := !s.r0.req.atomicQw || s.r0.req.atomicLast
  realAddr := ra s
  data := freshData s i
  byteSel := freshByteSel s
  isHit := reqIsHit s i
  hitWay := reqHitWay s i
  hitWays := reqHitWays s i
  hitReload := reqHitReload s i && reqOp s i == .loadMiss
  samePage := reqSamePage s
  mmuReq := s.r0.mmuReq
  tlbHit := tlbHit s i
  tlbIndex := tlbReqIndex s
  tlbWay := tlbHitWay s

/-- The variable `req`: the parked request if there is one, else the one in `r0`. -/
def req : MemReq g := if s.r1.full then s.r1.req else freshReq s i

/-! ### Choices of the state machine -/

/-- What the state machine does in IDLE. -/
inductive IdleAction
  | none | load | ncLoad | stcxFail | stcx | store | dcbz | flush | sync
  deriving DecidableEq, Repr

/-- The choice in IDLE. A store-conditional fails at once if there is no reservation. -/
def idleAction : IdleAction :=
  match (req s i).op with
  | .loadMiss => if (req s i).nc then .ncLoad else .load
  | .store =>
    if (req s i).reserve then
      if !s.reservation.valid || killRsrv s then .stcxFail else .stcx
    else if (req s i).dcbz then .dcbz
    else .store
  | .flush => .flush
  | .sync => .sync
  | .none | .bad | .nop | .loadHit => .none

/-- The variable `acks`: requests accepted and not yet acknowledged, counted a cycle late. -/
def acks : BitVec 3 :=
  if !s.r1.wb.cyc then 0
  else if s.r1.wb.stb && !s.r1.stalled && !s.r1.decAcks then s.r1.acksPending + 1
  else if (!s.r1.wb.stb || s.r1.stalled) && s.r1.decAcks then s.r1.acksPending - 1
  else s.r1.acksPending

/-- In RELOAD_WAIT_ACK the bus takes the request for a row. -/
def rowAccepted : Bool := !i.wb.stall && s.r1.wb.stb

/-- In RELOAD_WAIT_ACK a touch completes, once the tag of its line is written. -/
def touchDone : Bool :=
  s.r1.full && s.r1.req.touch && s.r1.req.hitReload && !s.r1.writeTag

/-- In RELOAD_WAIT_ACK the row arrives that the request waits for. -/
def reloadDone : Bool :=
  i.wb.ack && (req s i).hitReload &&
    getRowOfLine s.r1.storeRow == getRowOfLine (getRow g (req s i).realAddr)

/-- In RELOAD_WAIT_ACK the last row of the line arrives. -/
def reloadLast : Bool := i.wb.ack && isLastRow s.r1.storeRow s.r1.endRowIx

/-- In STORE_WAIT_ACK there is a store that can join the open bus cycle. -/
def storeMerge : Bool :=
  (req s i).op == .store && (req s i).samePage && !(req s i).dcbz &&
    (!(req s i).reserve || s.r1.atomicMore)

/-- In STORE_WAIT_ACK such a store is put on the bus. -/
def storeIssue : Bool := !i.wb.stall && storeMerge s i && decide (acks s < 7)

/-- The variable `stbs_done`: all requests of the cycle have been taken. -/
def stbsDone : Bool :=
  if i.wb.stall then !s.r1.wb.stb
  else if storeMerge s i then !s.r1.wb.stb && !storeIssue s i
  else true

/-- In STORE_WAIT_ACK the bus cycle ends. -/
def storeExit : Bool :=
  stbsDone s i && !s.r1.atomicMore && (acks s == 0 || (i.wb.ack && acks s == 1))

/-- In DO_STCX the store-conditional fails. -/
def stcxRefused : Bool :=
  !s.reservation.valid || killRsrv s || getLine g s.r1.req.realAddr != s.reservation.addr

/-- In DO_STCX the store-conditional is put on the bus. -/
def stcxIssue : Bool := !stcxRefused s && !i.wb.stall

/-! ### The request registers -/

/-- The request `stage_0` takes. -/
def r0New : R0 :=
  if i.m.valid then
    { req := { valid := true, load := true, privMode := true, addr := i.m.addr,
               byteSel := BitVec.allOnes 8 }
      mmuReq := true
      dValid := true }
  else { req := { i.d with data := 0 }, mmuReq := false, dValid := false }

def r0Next : R0 :=
  if !r0Stall s i then r0New i
  else if !s.r0.dValid then
    { s.r0 with
      req := { s.r0.req with data := i.d.data, dawrMatch := i.d.dawrMatch }
      dValid := s.r0.req.valid }
  else s.r0

def r0FullNext : Bool := if !r0Stall s i then (r0New i).req.valid else s.r0Full

/-- `r1.full` is cleared by the state machine. -/
def finishes : Bool :=
  match s.r1.state with
  | .idle => idleAction s i == .stcxFail || idleAction s i == .store || idleAction s i == .sync
  | .reloadWaitAck => touchDone s || reloadDone s i
  | .storeWaitAck => storeIssue s i
  | .ncLoadWaitAck => i.wb.ack
  | .doStcx => stcxRefused s || stcxIssue s i
  | .flushCycle => true

def fullNext : Bool := (s.r1.full || (reqOp s i).slow) && !finishes s i

def reqNext : MemReq g :=
  let kept := if !s.r1.full && reqGo s i then freshReq s i else s.r1.req
  match s.r1.state with
  | .idle => { kept with hitReload := true }
  | _ => kept

def lsValidNext : Bool :=
  ((reqOp s i == .loadHit || reqOp s i == .nop) && !s.r0.mmuReq) ||
    match s.r1.state with
    | .idle =>
      idleAction s i == .stcxFail || (idleAction s i == .store && !(req s i).mmuReq) ||
        idleAction s i == .sync
    | .reloadWaitAck => touchDone s || (reloadDone s i && !(req s i).mmuReq)
    | .storeWaitAck => storeIssue s i
    | .ncLoadWaitAck => i.wb.ack && !s.r1.mmuReq
    | .doStcx => stcxRefused s || stcxIssue s i
    | .flushCycle => true

def mmuDoneNext : Bool :=
  (reqOp s i == .loadHit && s.r0.mmuReq) ||
    match s.r1.state with
    | .idle => idleAction s i == .store && (req s i).mmuReq
    | .reloadWaitAck => reloadDone s i && (req s i).mmuReq
    | .ncLoadWaitAck => i.wb.ack && s.r1.mmuReq
    | .storeWaitAck | .doStcx | .flushCycle => false

def stcxFailNext : Bool :=
  match s.r1.state with
  | .idle => idleAction s i == .stcxFail
  | .doStcx => stcxRefused s
  | _ => false

def stateNext : CacheState :=
  match s.r1.state with
  | .idle =>
    match idleAction s i with
    | .load | .dcbz => .reloadWaitAck
    | .ncLoad => .ncLoadWaitAck
    | .stcx => .doStcx
    | .store => .storeWaitAck
    | .flush => .flushCycle
    | .none | .stcxFail | .sync => .idle
  | .reloadWaitAck => if reloadLast s i then .idle else .reloadWaitAck
  | .storeWaitAck => if storeExit s i then .idle else .storeWaitAck
  | .ncLoadWaitAck => if i.wb.ack then .idle else .ncLoadWaitAck
  | .doStcx =>
    if stcxRefused s then .idle else if !i.wb.stall then .storeWaitAck else .doStcx
  | .flushCycle => .idle

def atomicMoreNext : Bool :=
  match s.r1.state with
  | .idle => !(req s i).lastDw
  | .storeWaitAck =>
    if storeIssue s i then !(req s i).lastDw
    else if !i.wb.stall && !storeMerge s i && (req s i).valid then false
    else s.r1.atomicMore
  | _ => s.r1.atomicMore

/-! ### The bus -/

def wbNext : WishboneMasterOut where
  adr :=
    match s.r1.state with
    | .idle => addrToWb (req s i).realAddr
    | .reloadWaitAck => if rowAccepted s i then nextRowWbAddr g s.r1.wb.adr else s.r1.wb.adr
    | .storeWaitAck =>
      -- a store that joins the cycle replaces the offset in the page only
      if !i.wb.stall && (req s i).valid then
        setLow s.r1.wb.adr ((req s i).realAddr.extractLsb' 3 9)
      else s.r1.wb.adr
    | _ => s.r1.wb.adr
  dat :=
    match s.r1.state with
    | .idle => (req s i).data
    | .storeWaitAck => if !i.wb.stall && (req s i).valid then (req s i).data else s.r1.wb.dat
    | _ => s.r1.wb.dat
  sel :=
    match s.r1.state with
    | .idle => (req s i).byteSel
    | .storeWaitAck => if !i.wb.stall && (req s i).valid then (req s i).byteSel else s.r1.wb.sel
    | _ => s.r1.wb.sel
  we :=
    match s.r1.state with
    | .idle =>
      match idleAction s i with
      | .load | .ncLoad => false
      | .stcx | .store | .dcbz => true
      | .none | .stcxFail | .flush | .sync => s.r1.wb.we
    | _ => s.r1.wb.we
  cyc :=
    match s.r1.state with
    | .idle =>
      match idleAction s i with
      | .load | .ncLoad | .stcx | .store | .dcbz => true
      | .none | .stcxFail | .flush | .sync => s.r1.wb.cyc
    | .reloadWaitAck => s.r1.wb.cyc && !reloadLast s i
    | .storeWaitAck => s.r1.wb.cyc && !storeExit s i
    | .ncLoadWaitAck => s.r1.wb.cyc && !i.wb.ack
    | .doStcx => s.r1.wb.cyc && !stcxRefused s
    | .flushCycle => s.r1.wb.cyc
  stb :=
    match s.r1.state with
    | .idle =>
      match idleAction s i with
      | .load | .ncLoad | .store | .dcbz => true
      | .none | .stcxFail | .stcx | .flush | .sync => s.r1.wb.stb
    | .reloadWaitAck =>
      s.r1.wb.stb && !(rowAccepted s i && isLastRowWbAddr s.r1.wb.adr s.r1.endRowIx)
    | .storeWaitAck => (if i.wb.stall then s.r1.wb.stb else storeIssue s i) && !storeExit s i
    | .ncLoadWaitAck => s.r1.wb.stb && i.wb.stall && !i.wb.ack
    | .doStcx => s.r1.wb.stb || stcxIssue s i
    | .flushCycle => s.r1.wb.stb

/-! ### The line being stored to or reloaded -/

def storeWayNext : g.Way :=
  let kept := if s.r1.writeTag then replaceWay s else s.r1.storeWay
  match s.r1.state with
  | .idle => if (req s i).isHit then (req s i).hitWay else kept
  | .storeWaitAck => if storeIssue s i then (req s i).hitWay else kept
  | _ => kept

def storeWaysNext : g.Way → Bool :=
  let kept := if s.r1.writeTag then fun way => way == replaceWay s else s.r1.storeWays
  match s.r1.state with
  | .idle => if (req s i).isHit then (req s i).hitWays else kept
  | .storeWaitAck => if storeIssue s i then (req s i).hitWays else kept
  | _ => kept

def storeRowNext : g.Row :=
  match s.r1.state with
  | .idle => getRow g (req s i).realAddr
  | .reloadWaitAck => if i.wb.ack then nextRow s.r1.storeRow else s.r1.storeRow
  | .storeWaitAck => if storeIssue s i then getRow g (req s i).realAddr else s.r1.storeRow
  | _ => s.r1.storeRow

def rowsValidNext (row : g.RowInLine) : Bool :=
  match s.r1.state with
  | .idle => false
  | .reloadWaitAck => s.r1.rowsValid row || (i.wb.ack && row == getRowOfLine s.r1.storeRow)
  | _ => s.r1.rowsValid row

def reloadingNext : Bool :=
  match s.r1.state with
  | .idle =>
    match idleAction s i with
    | .load => true
    | .dcbz => !(req s i).nc
    | _ => s.r1.reloading
  | .reloadWaitAck => s.r1.reloading && !reloadLast s i
  | _ => s.r1.reloading

def writeTagNext : Bool :=
  match s.r1.state with
  | .idle =>
    match idleAction s i with
    | .load => true
    | .dcbz => !(req s i).nc && !(req s i).isHit
    | _ => false
  | _ => false

/-- `r1.write_bram`: a store that hits updates the data RAM at the next edge. -/
def writeBramNext : Bool :=
  match s.r1.state with
  | .idle => idleAction s i == .store && (req s i).isHit
  | .storeWaitAck => storeIssue s i && (req s i).isHit
  | .doStcx => stcxIssue s i && s.r1.req.isHit
  | _ => false

def prevHitWaysNext : g.Way → Bool :=
  let kept :=
    if reqGo s i then reqHitWays s i
    else if s.r1.writeTag then fun way => way == replaceWay s
    else s.r1.prevHitWays
  match s.r1.state with
  | .reloadWaitAck => if reloadLast s i then s.r1.storeWays else kept
  | _ => kept

def r1Next : R1 g where
  full := fullNext s i
  mmuReq := if r0Valid s i then s.r0.mmuReq else s.r1.mmuReq
  req := reqNext s i
  atomicMore := atomicMoreNext s i
  hitWay := reqHitWay s i
  hitIndex := reqIndex s
  cacheHit := reqOp s i == .loadHit || (reqOp s i == .store && reqIsHit s i)
  prevHitWays := prevHitWaysNext s i
  tlbHit := tlbHit s i
  tlbHitWay := if r0Valid s i then tlbHitWay s else s.r1.tlbHitWay
  tlbHitWays := if r0Valid s i then tlbHitExpand s else s.r1.tlbHitWays
  tlbHitIndex := if r0Valid s i then tlbReqIndex s else s.r1.tlbHitIndex
  tlbVictim :=
    if s.r1.lsError then if s.r1.tlbHit then s.r1.tlbHitWay else tlbPlruVictim s
    else s.r1.tlbVictim
  lsTlbHit :=
    match s.r1.state with
    | .idle => (req s i).tlbHit && !(req s i).mmuReq
    | _ => s.r1.lsTlbHit && !(i.m.tlbld || i.m.tlbie)
  tlbAccIndex :=
    match s.r1.state with
    | .idle => (req s i).tlbIndex
    | _ => s.r1.tlbAccIndex
  tlbAccWay :=
    match s.r1.state with
    | .idle => (req s i).tlbWay
    | _ => s.r1.tlbAccWay
  forwardData := ramWrData s i
  forwardSel := ramWrSelect s
  forwardValid := ramWrite s i
  forwardRow := s.r1.storeRow
  forwardWay := replaceWay s
  dataOut :=
    if reqIsHit s i then Ways.orOf (reqHitWays s i) (cacheOut s i) else i.wb.dat
  state := stateNext s i
  dcbz :=
    match s.r1.state with
    | .idle => (req s i).dcbz && (req s i).valid
    | _ => s.r1.dcbz
  writeBram := writeBramNext s i
  writeTag := writeTagNext s i
  wb := wbNext s i
  reloading := reloadingNext s i
  reloadTag :=
    match s.r1.state with
    | .idle => getTag g (req s i).realAddr
    | _ => s.r1.reloadTag
  storeWay := storeWayNext s i
  storeWays := storeWaysNext s i
  storeRow := storeRowNext s i
  storeIndex :=
    match s.r1.state with
    | .idle => getIndex g (req s i).realAddr
    | _ => s.r1.storeIndex
  endRowIx :=
    match s.r1.state with
    | .idle => getRowOfLine (getRow g (req s i).realAddr) - 1
    | _ => s.r1.endRowIx
  rowsValid := rowsValidNext s i
  acksPending := acks s
  stalled := i.wb.stall && s.r1.wb.cyc
  decAcks := i.wb.ack && s.r1.wb.cyc
  chooseVictim := reqOp s i == .loadMiss || (s.r0.req.dcbz && !reqIsHit s i)
  victimWay := if s.r1.chooseVictim then plruVictim s else s.r1.victimWay
  lsValid := lsValidNext s i
  lsError := reqOp s i == .bad && !s.r0.mmuReq
  mmuDone := mmuDoneNext s i
  mmuError := reqOp s i == .bad && s.r0.mmuReq
  cacheParadox := accessOk s i && reqNc s && reqIsHit s i
  reserveNc := accessOk s i && s.r0.req.reserve && reqNc s
  stcxFail := stcxFailNext s i

/-! ### Memories -/

/-- A load with reserve is looked up that may set the reservation. -/
def reserveLookup : Bool :=
  reqGo s i && accessOk s i && s.r0.req.load && s.r0.req.reserve && s.r0.req.atomicFirst

def reservationNext : Reservation g where
  valid :=
    let kept :=
      if reserveLookup s i then reqIsHit s i && !reqSnoopHit s i
      else s.reservation.valid && !killRsrv s
    match s.r1.state with
    | .reloadWaitAck => kept || (reloadDone s i && s.r1.req.reserve && s.r1.req.firstDw)
    | .doStcx => kept && !(stcxRefused s || stcxIssue s i)
    | _ => kept
  addr := if reserveLookup s i then getLine g (ra s) else s.reservation.addr

def cacheTagsNext (index : g.Index) (way : g.Way) : g.Tag :=
  if s.r1.writeTag && index == s.r1.storeIndex && way == replaceWay s then s.r1.reloadTag
  else s.cacheTags index way

/-- The index at the read port of the tag RAM. -/
def tagReadIndex : g.Index :=
  if r0Stall s i then reqIndex s
  else if i.m.valid then getIndex g i.m.addr
  else getIndex g i.d.addr

/-- `cache_valids`. A new tag overrides a snooped write, a flush overrides both. -/
def cacheValidsNext (index : g.Index) (way : g.Way) : Bool :=
  if s.r1.state == .flushCycle && index == s.r1.storeIndex && way == s.r1.storeWay then false
  else if s.r1.writeTag && index == s.r1.storeIndex && way == replaceWay s then true
  else s.cacheValids index way && !(index == getIndex g s.snoopPaddr && snoopHits s way)

def ramNext (way : g.Way) (row : g.Row) : BitVec 64 :=
  if ramWrite s i && way == replaceWay s && row == s.r1.storeRow then
    Lanes.merge 8 (ramWrSelect s) (ramWrData s i) (s.ram way row)
  else s.ram way row

/-- The set at the read port of the TLB. -/
def tlbReadIndex : g.TlbIndex := tlbIndex g (if i.m.valid then i.m.addr else i.d.addr)

def tlbWrIndex : g.TlbIndex := tlbIndex g i.m.addr

/-- An entry of the TLB is written. -/
def tlbWrite (index : g.TlbIndex) (way : g.TlbWay) : Bool :=
  !i.m.tlbie && i.m.tlbld && index == tlbWrIndex i && way == s.r1.tlbVictim

def dtlbValidsNext (index : g.TlbIndex) (way : g.TlbWay) : Bool :=
  if i.m.tlbie && i.m.doall then false
  else if i.m.tlbie then
    s.dtlbValids index way && !(index == tlbWrIndex i && s.r1.tlbHitWays way)
  else s.dtlbValids index way || tlbWrite s i index way

/-- The registers after an edge without reset. -/
def clock : State g where
  r0 := r0Next s i
  r0Full := r0FullNext s i
  r1 := r1Next s i
  reservation := reservationNext s i
  cacheTags := cacheTagsNext s
  cacheTagSet := s.cacheTags (tagReadIndex s i)
  cacheValids := cacheValidsNext s
  ram := ramNext s i
  dout := fun way => if earlyRdValid s i then s.ram way (earlyReqRow s i) else s.dout way
  plruRam := fun index =>
    if (s.r1.cacheHit || s.r1.chooseVictim) && index == s.r1.hitIndex then
      Plru.update s.r1.hitWay (s.plruRam index)
    else s.plruRam index
  dtlbValids := dtlbValidsNext s i
  dtlbTags := fun index way =>
    if tlbWrite s i index way then eaTag g i.m.addr else s.dtlbTags index way
  dtlbPtes := fun index way => if tlbWrite s i index way then i.m.pte else s.dtlbPtes index way
  tlbValidWay := if r0Stall s i then s.tlbValidWay else s.dtlbValids (tlbReadIndex i)
  tlbTagWay := if r0Stall s i then s.tlbTagWay else s.dtlbTags (tlbReadIndex i)
  tlbPteWay := if r0Stall s i then s.tlbPteWay else s.dtlbPtes (tlbReadIndex i)
  tlbReadValid :=
    if r0Stall s i then s.tlbReadValid
    else if i.m.valid then !(i.m.tlbie && i.m.doall)
    else i.d.valid
  tlbPlruRam := fun index =>
    if s.r1.tlbHit && index == s.r1.tlbHitIndex then
      Plru.update s.r1.tlbHitWay (s.tlbPlruRam index)
    else s.tlbPlruRam index
  snoopTagSet := s.cacheTags (getIndex g (snoopAddr i.snoop))
  snoopValid := snoopActive s i
  snoopPaddr := snoopAddr i.snoop

/-- The registers after an edge with reset. The TLB and tag read ports, the data RAM, the PLRU
memories and the registers of `dcache_fast_hit` run on; the state machine keeps the registers that
it does not clear. -/
def reset : State g :=
  { clock s i with
    r0 := s.r0
    r0Full := false
    r1 :=
      { s.r1 with
        full := false
        mmuReq := (r1Next s i).mmuReq
        cacheHit := (r1Next s i).cacheHit
        prevHitWays := fun _ => false
        tlbHit := (r1Next s i).tlbHit
        tlbHitWay := (r1Next s i).tlbHitWay
        tlbHitWays := (r1Next s i).tlbHitWays
        tlbHitIndex := (r1Next s i).tlbHitIndex
        tlbVictim := (r1Next s i).tlbVictim
        forwardData := (r1Next s i).forwardData
        forwardSel := (r1Next s i).forwardSel
        forwardValid := (r1Next s i).forwardValid
        forwardRow := (r1Next s i).forwardRow
        forwardWay := (r1Next s i).forwardWay
        dataOut := (r1Next s i).dataOut
        state := .idle
        wb := { s.r1.wb with adr := 0, cyc := false, stb := false }
        reloading := false
        acksPending := 0
        stalled := false
        decAcks := false
        chooseVictim := false
        lsValid := false
        lsError := (r1Next s i).lsError
        mmuDone := false
        mmuError := (r1Next s i).mmuError
        cacheParadox := (r1Next s i).cacheParadox
        reserveNc := (r1Next s i).reserveNc }
    reservation := { valid := false, addr := 0 }
    cacheTags := s.cacheTags
    cacheValids := fun _ _ => false
    dtlbValids := fun _ _ => false
    dtlbTags := s.dtlbTags
    dtlbPtes := s.dtlbPtes
    tlbReadValid := false }

def step : State g := if i.rst then reset s i else clock s i

variable {s i}

theorem step_eq_clock (h : i.rst = false) : step s i = clock s i := if_neg (by simp [h])

/-! ### The state runs start in -/

/-- The state reset leads to from power-up. Registers that hold no control bit are arbitrary. -/
structure AfterReset (s : State g) : Prop where
  r0Full : s.r0Full = false
  full : s.r1.full = false
  state : s.r1.state = .idle
  lsValid : s.r1.lsValid = false
  lsError : s.r1.lsError = false
  cyc : s.r1.wb.cyc = false
  stb : s.r1.wb.stb = false
  reloading : s.r1.reloading = false
  writeTag : s.r1.writeTag = false
  writeBram : s.r1.writeBram = false
  acksPending : s.r1.acksPending = 0
  stalled : s.r1.stalled = false
  decAcks : s.r1.decAcks = false
  reservation : s.reservation.valid = false
  cacheValids : ∀ index way, s.cacheValids index way = false
  dtlbValids : ∀ index way, s.dtlbValids index way = false

theorem reqGo_of_empty (h : s.r0Full = false) : reqGo s i = false := by simp [reqGo, r0Valid, h]

theorem reqOp_of_not_go (h : reqGo s i = false) : reqOp s i = .none := by simp [reqOp, h]

/-- Reset does not clear `write_tag` and `write_bram`; at power-up they are not set. Its second
cycle finds `r0` empty. -/
theorem afterReset_reset (hr0 : s.r0Full = false) (htag : s.r1.writeTag = false)
    (hbram : s.r1.writeBram = false) : AfterReset (reset s i) where
  r0Full := rfl
  full := rfl
  state := rfl
  lsValid := rfl
  lsError := by
    change (reqOp s i == .bad && !s.r0.mmuReq) = false
    rw [reqOp_of_not_go (reqGo_of_empty hr0)]
    rfl
  cyc := rfl
  stb := rfl
  reloading := rfl
  writeTag := htag
  writeBram := hbram
  acksPending := rfl
  stalled := rfl
  decAcks := rfl
  reservation := rfl
  cacheValids := fun _ _ => rfl
  dtlbValids := fun _ _ => rfl

end Dcache

end Microwatt
