import Microwatt.LoadStore.Basic

/-!
# The load/store unit: the three stages

`loadstore1.vhdl`, second part: the registers of the three stages, the combinational processes
`loadstore1_1`, `loadstore1_2` and `loadstore1_3`, and the clocked process that ties them
together. Registers that nothing reads and the performance monitor events are left out.

Stage 1 sends the request to the data cache and builds the second request of an access that
crosses a doubleword boundary, stage 2 rotates the store data and works out the controls of the
load formatter, stage 3 formats the returned data, completes the instruction or takes it to the
MMU.

## Main definitions

* `LoadStore.State`, `LoadStore.Inputs` — the registers and the input ports
* `LoadStore.stage1Req`, `LoadStore.stage1Dcreq` — what stage 1 offers to the data cache
* `LoadStore.dataTrimmed` — the formatted load data
* `LoadStore.dOut`, `LoadStore.mOut`, `LoadStore.lOut` — the output ports
* `LoadStore.step` — one clock edge
-/

namespace Microwatt

namespace LoadStore

abbrev numDawr : ℕ := 2

scoped instance neZero_numDawr : NeZero numDawr := ⟨by decide⟩

/-- `reg_stage1_t`. -/
structure Stage1 where
  req : Request := {}
  busy : Bool := false
  issued : Bool := false
  addr0 : BitVec 64 := 0
  dawrLl : Fin numDawr → Bool := fun _ => false
  dawrUl : Fin numDawr → Bool := fun _ => false
  dawrUd : Bool := false

/-- `reg_stage2_t`, without the unused `sprsel`. -/
structure Stage2 where
  req : Request := {}
  control : ℕ → LoadControl := fun _ => ⟨0, false⟩
  busy : Bool := false
  waitDc : Bool := false
  waitMmu : Bool := false
  oneCycle : Bool := false
  wrSel : BitVec 2 := 0
  addr0 : BitVec 64 := 0
  dbgSpr : BitVec 64 := 0
  dbgSprAck : Bool := false

/-- `state_t`. -/
inductive MmuState
  | idle | mmuWait
  deriving DecidableEq, Repr

/-- `reg_stage3_t`, without the registers that nothing reads. -/
structure Stage3 where
  state : MmuState := .idle
  complete : Bool := false
  loadData : BitVec 64 := 0
  dar : BitVec 64 := 0
  dsisr : BitVec 32 := 0
  ldSpData : BitVec 32 := 0
  ldSpNz : Bool := false
  ldSpLz : BitVec 6 := 0
  stage1En : Bool := true
  interrupt : Bool := false
  intrVec : BitVec 12 := 0
  srr1 : BitVec 16 := 0
  dawr : Fin numDawr → BitVec 61 := fun _ => 0
  dawrx : Fin numDawr → BitVec 16 := fun _ => 0
  dawrUplim : Fin numDawr → BitVec 61 := fun _ => 0
  dawrUpd : Bool := false

structure State where
  r1 : Stage1 := {}
  r2 : Stage2 := {}
  r3 : Stage3 := {}
  flushing : Bool := false
  stage1Dreq : Bool := false
  hashR : HashReg := {}

structure Inputs where
  rst : Bool := false
  l : Execute1ToLoadstore1 := {}
  d : DcacheToLoadstore1 := {}
  m : MmuToLoadstore1 := {}
  dcStall : Bool := false
  dbgSprReq : Bool := false
  dbgSprAddr : BitVec 2 := 0

variable (hasFpu : Bool) (s : State) (i : Inputs)

/-! ### Stage 3: load formatting -/

def dataPermuted : BitVec 64 := permute s.r2.control i.d.data

def dataTrimmed : BitVec 64 :=
  trimData s.r2.req.length s.r2.req.byteReverse s.r2.req.signExtend s.r2.req.dwordIndex
    s.r2.control s.r3.loadData (dataPermuted s i)

/-! ### Stage 3: completion and exceptions -/

def hashchkTrap : Bool := i.d.valid && s.r2.req.hashcmp && i.d.data != s.r2.req.storeData

/-- An error of the data cache that interrupts straight away, without asking the MMU. -/
def dcacheIntr : Bool :=
  i.d.error && (i.d.cacheParadox || i.d.reserveNc || s.r2.req.dawrIntr)

/-- An error of the data cache that the MMU may repair. -/
def dcacheMiss : Bool :=
  i.d.error && !(i.d.cacheParadox || i.d.reserveNc || s.r2.req.dawrIntr)

/-- `exception`, also the signal `flush`. -/
def flush : Bool :=
  hashchkTrap s i || (s.r2.req.valid && s.r2.req.alignIntr) || dcacheIntr s i || i.m.err

def complete : Bool := s.r2.oneCycle || (s.r2.waitDc && i.d.valid) || s.r3.complete

def busy : Bool := i.dcStall || i.d.error || s.r1.busy || s.r2.busy

/-- The condition under which stages 1 and 2 move. -/
def advance : Bool := !(i.dcStall || i.d.error || s.r2.busy)

/-- A request for the MMU leaves stage 3. -/
def mmuOpStart : Bool := s.r3.state == .idle && s.r2.req.valid && s.r2.req.mmuOp

/-- The data cache request in stage 3 is sent again after the MMU has installed a TLB entry. -/
def retry : Bool := i.m.done && s.r2.req.dcReq

def writeEnable : Bool :=
  if i.d.valid && !s.r2.req.incomplete then
    s.r2.req.load && !s.r2.req.loadSp && !s.r2.req.flush && !s.r2.req.touch && !s.r2.req.hashcmp
  else s.r2.req.valid && (s.r2.req.readSpr || (s.r2.req.loadSp && !s.r2.req.dcReq))

def doUpdate : Bool :=
  if i.d.valid && !s.r2.req.incomplete then s.r2.req.update && s.r2.req.store
  else s.r2.req.valid && s.r2.req.doUpdate

def writeData : BitVec 64 :=
  if s.r2.wrSel = 0b00 then s.r2.addr0
  else if s.r2.wrSel = 0b01 then loadDpData s.r3.ldSpData s.r3.ldSpNz s.r3.ldSpLz
  else dataTrimmed s i

/-- The next `dsisr` when a data storage interrupt is taken. -/
def dsisrOf : BitVec 32 :=
  let d0 : BitVec 32 := 0
  let d1 :=
    if dcacheIntr s i then
      setBit (setBit (setBit d0 (63 - 41) s.r2.req.dawrIntr) (63 - 37) i.d.reserveNc) (63 - 35)
        i.d.cacheParadox
    else d0
  let d2 :=
    if i.m.err then
      setBit (setBit (setBit (setBit d1 (63 - 33) i.m.invalid) (63 - 36) i.m.permError)
        (63 - 44) i.m.badtree) (63 - 45) i.m.rcError
    else d1
  setBit d2 (63 - 38) (!s.r2.req.load)

/-- The next `intr_vec` when an interrupt is taken. -/
def intrVecOf : BitVec 12 :=
  if s.r2.req.alignIntr then 0x600
  else if hashchkTrap s i then 0x700
  else if !s.r2.req.instrFault then if !i.m.segerr then 0x300 else 0x380
  else if !i.m.segerr then 0x400 else 0x480

/-- The next `srr1` when an interrupt is taken. -/
def srr1Of : BitVec 16 :=
  let pfx : BitVec 16 := setBit 0 (47 - 34) s.r2.req.prefixed
  if s.r2.req.alignIntr then pfx
  else if hashchkTrap s i then setBit pfx (47 - 46) true
  else if !s.r2.req.instrFault then pfx
  else if !i.m.segerr then
    setBit (setBit (setBit (setBit 0 (47 - 33) i.m.invalid) (47 - 35) i.m.permError) (47 - 44)
      i.m.badtree) (47 - 45) i.m.rcError
  else 0

/-- The register named by `sprsel` is written by a `mtspr` in stage 3. -/
def writesSpr (sel : BitVec 3) : Bool :=
  s.r2.req.valid && s.r2.req.writeSpr && s.r2.req.sprsel == sel

def r3in : Stage3 where
  state :=
    if i.m.done || i.m.err then .idle
    else if dcacheMiss s i || mmuOpStart s then .mmuWait
    else s.r3.state
  complete := (i.d.valid && s.r2.req.hashcmp && i.d.data == s.r2.req.storeData) ||
    (i.m.done && !s.r2.req.dcReq)
  loadData := if i.d.valid && s.r2.req.load then dataPermuted s i else s.r3.loadData
  dar :=
    if flush s i && (s.r2.req.alignIntr || (!hashchkTrap s i && !s.r2.req.instrFault)) then
      s.r2.req.addr
    else if writesSpr s 0b011 then s.r2.req.storeData
    else s.r3.dar
  dsisr :=
    if flush s i && !s.r2.req.alignIntr && !hashchkTrap s i && !s.r2.req.instrFault &&
        !i.m.segerr then dsisrOf s i
    else if writesSpr s 0b010 then s.r2.req.storeData.extractLsb' 0 32
    else s.r3.dsisr
  ldSpData := if hasFpu then (dataTrimmed s i).extractLsb' 0 32 else s.r3.ldSpData
  ldSpNz := if hasFpu then (dataTrimmed s i).extractLsb' 0 23 != 0 else s.r3.ldSpNz
  ldSpLz := if hasFpu then countLeftZeroes ((dataTrimmed s i).extractLsb' 0 23) else s.r3.ldSpLz
  stage1En :=
    if i.m.done || i.m.err then true
    else if dcacheMiss s i then false
    else s.r3.stage1En
  interrupt := flush s i
  intrVec := if flush s i then intrVecOf s i else s.r3.intrVec
  srr1 := if flush s i then srr1Of s i else 0
  dawr := fun k =>
    if writesSpr s (0b100 + BitVec.ofNat 3 k) then s.r2.req.storeData.extractLsb' 3 61
    else s.r3.dawr k
  dawrx := fun k =>
    if writesSpr s (0b110 + BitVec.ofNat 3 k) then s.r2.req.storeData.extractLsb' 0 16
    else s.r3.dawrx k
  dawrUplim := fun k =>
    if s.r3.dawrUpd then s.r3.dawr k + ((s.r3.dawrx k).extractLsb' 10 6).setWidth 61
    else s.r3.dawrUplim k
  dawrUpd := s.r2.req.valid && s.r2.req.writeSpr && s.r2.req.sprsel.getLsbD 2

/-! ### Stage 1 -/

/-- `req_in`, for the instruction that execute1 presents. -/
def reqIn : Request := loadstore1In hasFpu i.l s.r1.addr0

/-- The variable `req` of `loadstore1_1`, also the signal `stage1_req`. -/
def stage1Req : Request :=
  if !s.r1.busy then
    -- behind a request that interrupts, an instruction becomes a no-op
    { reqIn hasFpu s i with
      valid := i.l.valid
      dcReq := (reqIn hasFpu s i).dcReq && !s.flushing }
  else if s.r1.req.dcReq && !s.r1.issued then s.r1.req
  else if s.r1.req.incomplete then secondRequest s.r1.req
  else
    -- the extra cycle of lfs keeps a dummy request
    { s.r1.req with
      valid := s.r1.req.loadSp && s.r1.req.valid
      dcReq := false }

theorem stage1Req_of_free (hb : s.r1.busy = false) : stage1Req hasFpu s i =
    { reqIn hasFpu s i with
      valid := i.l.valid
      dcReq := (reqIn hasFpu s i).dcReq && !s.flushing } := by
  simp [stage1Req, hb]

/-- A busy stage sends its request again, goes on to the second one, or keeps a dummy. -/
theorem stage1Req_of_busy (hb : s.r1.busy = true) :
    ((s.r1.req.dcReq && !s.r1.issued) = true ∧ stage1Req hasFpu s i = s.r1.req) ∨
      ((s.r1.req.dcReq && !s.r1.issued) = false ∧ s.r1.req.incomplete = true ∧
        stage1Req hasFpu s i = secondRequest s.r1.req) ∨
      ((s.r1.req.dcReq && !s.r1.issued) = false ∧ s.r1.req.incomplete = false ∧
        stage1Req hasFpu s i =
          { s.r1.req with valid := s.r1.req.loadSp && s.r1.req.valid, dcReq := false }) := by
  have hs : stage1Req hasFpu s i = _ := if_neg (by rw [hb]; decide)
  rw [hs]
  cases s.r1.req.dcReq && !s.r1.issued <;> cases s.r1.req.incomplete <;> simp

/-- The variable `issue` of `loadstore1_1` before hash instructions are held back. -/
def issue : Bool :=
  if !s.r1.busy then i.l.valid && (stage1Req hasFpu s i).dcReq
  else (s.r1.req.dcReq && !s.r1.issued) || s.r1.req.incomplete

/-- A hash instruction is about to be issued. -/
def hashIssue : Bool :=
  issue hasFpu s i && ((stage1Req hasFpu s i).hashst || (stage1Req hasFpu s i).hashcmp)

/-- `issue` once a hash instruction has been held back until the hash is there. -/
def issueFinal : Bool :=
  if hashIssue hasFpu s i then s.hashR.done else issue hasFpu s i

def hashStart : Bool :=
  !flush s i && advance s i && hashIssue hasFpu s i && !s.r1.busy

def stage1Dcreq : Bool := !flush s i && advance s i && issueFinal hasFpu s i

theorem issue_of_stage1Dcreq {hasFpu s i} (h : stage1Dcreq hasFpu s i = true) :
    flush s i = false ∧ advance s i = true ∧ issueFinal hasFpu s i = true ∧
      issue hasFpu s i = true := by
  simp only [stage1Dcreq, Bool.and_eq_true, Bool.not_eq_true'] at h
  refine ⟨h.1.1, h.1.2, h.2, ?_⟩
  by_contra hi
  simp [issueFinal, hashIssue, hi] at h

/-- The request that stage 1 keeps when it moves. -/
def nextReq1 : Request :=
  let req := stage1Req hasFpu s i
  if hashIssue hasFpu s i then
    { req with
      addr := if s.r1.busy then s.r1.req.hashAddr else req.addr
      storeData := if s.hashR.done then hashResult s.hashR else req.storeData }
  else req

/-- The address compared with a DAWR; with HRAMMC set its top bit is ignored in privileged
mode. -/
def dawrAddr (req : Request) (dawrx : BitVec 16) : BitVec 61 :=
  let addr := req.addr.extractLsb' 3 61
  if req.privMode && dawrx.getLsbD 7 then setBit addr 60 false else addr

def r1in : Stage1 where
  req :=
    if flush s i then { s.r1.req with valid := false, dcReq := false, incomplete := false }
    else if advance s i then nextReq1 hasFpu s i
    else s.r1.req
  busy :=
    if flush s i then false
    else if advance s i then
      if hashIssue hasFpu s i then !s.hashR.done
      else (issue hasFpu s i && ((stage1Req hasFpu s i).incomplete ||
          (stage1Req hasFpu s i).loadSp)) ||
        ((stage1Req hasFpu s i).valid && (stage1Req hasFpu s i).mmuOp)
    else if s.r1.issued && i.d.error then true
    else s.r1.busy
  issued :=
    if flush s i then false
    else if advance s i then issueFinal hasFpu s i
    else if s.r1.issued && i.d.error then false
    else s.r1.issued
  addr0 := if !s.r1.busy && i.l.valid then (stage1Req hasFpu s i).addr else s.r1.addr0
  dawrLl := fun k =>
    let addr := dawrAddr (stage1Req hasFpu s i) (s.r3.dawrx k)
    (addr.setWidth 62 - (s.r3.dawr k).setWidth 62).getLsbD 61
  dawrUl := fun k =>
    let addr := dawrAddr (stage1Req hasFpu s i) (s.r3.dawrx k)
    ((s.r3.dawrUplim k).setWidth 62 - addr.setWidth 62).getLsbD 61
  dawrUd := s.r3.dawrUpd

/-! ### Stage 2 -/

def storeData : BitVec 64 :=
  formatStore (s.r1.addr0.extractLsb' 0 3) s.r1.req.brevMask s.r1.req.storeData

def dawrxMatchEnable (dawrx : BitVec 16) (virtMode privMode isStore : Bool) : Bool :=
  if (!privMode && !dawrx.getLsbD 0) || (privMode && !dawrx.getLsbD 2) then false
  else if !dawrx.getLsbD 3 && virtMode != dawrx.getLsbD 4 then false
  else !((!isStore && !dawrx.getLsbD 5) || (isStore && !dawrx.getLsbD 6))

def stage1DawrMatch : Bool :=
  let hit := (List.finRange numDawr).any fun k =>
    !s.r1.dawrLl k && !s.r1.dawrUl k && !s.r1.dawrUd &&
      dawrxMatchEnable (s.r3.dawrx k) s.r1.req.virtMode s.r1.req.privMode s.r1.req.store
  hit && s.r1.req.valid && s.r1.req.dcReq && !s.r3.dawrUpd &&
    !(s.r1.req.touch || s.r1.req.sync || s.r1.req.flush || s.r1.req.tlbie)

def dbgSprRd : Bool := i.dbgSprReq && !(s.r1.req.valid && s.r1.req.readSpr)

/-- `sprval` of `loadstore1_2`. -/
def sprval : BitVec 64 :=
  let sel : BitVec 3 := if dbgSprRd s i then 0#1 ++ i.dbgSprAddr else s.r1.req.sprsel
  if sel = 0b100 then s.r3.dawr 0 ++ 0#3
  else if sel = 0b101 then s.r3.dawr 1 ++ 0#3
  else if sel = 0b110 then (s.r3.dawrx 0).setWidth 64
  else if sel = 0b111 then (s.r3.dawrx 1).setWidth 64
  else if sel = 0b010 then s.r3.dsisr.setWidth 64
  else if sel = 0b011 then s.r3.dar
  else i.m.sprval

/-- Stage 2 takes over what is in stage 1. -/
def takes : Bool :=
  advance s i && !i.l.e2stall && (!s.r1.req.valid || s.r1.issued || !s.r1.req.dcReq)

/-- Stage 2 is left empty, because the data cache request in stage 1 has not been issued. -/
def bubble : Bool :=
  advance s i && !i.l.e2stall && !(!s.r1.req.valid || s.r1.issued || !s.r1.req.dcReq)

/-- The request as it enters stage 2. -/
def takenReq : Request :=
  { s.r1.req with
    storeData := storeData s
    dawrIntr := stage1DawrMatch s
    -- tlbie sends a probe to the data cache, but only the MMU answers
    dcReq := s.r1.req.dcReq && !s.r1.req.mmuOp }

/-- The MMU is done with an operation of its own in stage 2. -/
def mmuOpDone : Bool := s.r2.waitMmu && i.m.done && s.r2.req.mmuOp

/-- `interrupt` of `loadstore1_2`. Unlike `flush` it does not cover the hash check. -/
def interrupt2 : Bool := (s.r2.req.valid && s.r2.req.alignIntr) || dcacheIntr s i || i.m.err

/-- A request in stage 1 that takes more than one cycle in stage 2 whatever happens. -/
def slowReq : Bool := s.r1.req.valid && (s.r1.req.alignIntr || s.r1.req.hashcmp)

/-- The request register before it is invalidated. -/
def nextReq2 : Request := if takes s i then takenReq s else s.r2.req

/-- `r2in`. The assignments to each register are in the order of the source, the last one
first. -/
def r2in : Stage2 where
  req :=
    { nextReq2 s i with
      valid := (nextReq2 s i).valid && !bubble s i && !mmuOpDone s i && !interrupt2 s i }
  control :=
    if takes s i then loadControl (s.r1.addr0.extractLsb' 0 3) s.r1.req.brevMask
    else s.r2.control
  busy :=
    if interrupt2 s i then false
    else if i.d.error then true
    else if s.r2.busy && !s.r2.waitMmu && (!s.r2.req.hashcmp || i.d.valid) then false
    else if mmuOpDone s i then false
    else if takes s i then slowReq s || (s.r1.req.valid && s.r1.req.mmuOp)
    else s.r2.busy
  waitDc :=
    if interrupt2 s i then false
    else if takes s i then
      s.r1.req.valid && s.r1.req.dcReq && !s.r1.req.loadSp && !s.r1.req.incomplete &&
        !s.r1.req.hashcmp && !s.r1.req.tlbie
    else s.r2.waitDc && !bubble s i
  waitMmu :=
    if interrupt2 s i then false
    else if i.d.error then true
    else if s.r2.waitMmu && i.m.done then false
    else if takes s i then s.r1.req.valid && s.r1.req.mmuOp
    else s.r2.waitMmu && !bubble s i
  oneCycle :=
    if takes s i then
      !slowReq s && s.r1.req.valid && !(s.r1.req.dcReq || s.r1.req.mmuOp)
    else s.r2.oneCycle && !bubble s i
  wrSel :=
    if takes s i then
      if s.r1.req.doUpdate || s.r1.req.store || s.r1.req.readSpr then 0b00
      else if s.r1.req.loadSp then 0b01
      else 0b10
    else s.r2.wrSel
  addr0 :=
    if takes s i then if s.r1.req.readSpr then sprval s i else s.r1.addr0
    else s.r2.addr0
  dbgSpr := if i.dbgSprReq && dbgSprRd s i && !s.r2.dbgSprAck then sprval s i else s.r2.dbgSpr
  dbgSprAck := i.dbgSprReq && (s.r2.dbgSprAck || dbgSprRd s i)

/-! ### Outputs -/

/-- The request that is sent to the data cache: that of stage 1, or that of stage 2 again while
the MMU repairs a miss. -/
def dOutReq : Request := if s.r3.stage1En then stage1Req hasFpu s i else s.r2.req

def dOut : Loadstore1ToDcache where
  valid := if s.r3.stage1En then stage1Dcreq hasFpu s i else retry s i
  hold := i.l.e2stall
  load := (dOutReq hasFpu s i).load
  dcbz := (dOutReq hasFpu s i).dcbz
  flush := (dOutReq hasFpu s i).flush
  touch := (dOutReq hasFpu s i).touch
  sync := (dOutReq hasFpu s i).sync
  nc := (dOutReq hasFpu s i).nc
  reserve := (dOutReq hasFpu s i).reserve
  atomicQw := (dOutReq hasFpu s i).atomicQw
  atomicFirst := (dOutReq hasFpu s i).atomicFirst
  atomicLast := (dOutReq hasFpu s i).atomicLast
  virtMode := (dOutReq hasFpu s i).virtMode
  privMode := (dOutReq hasFpu s i).privMode
  tlbProbe := (dOutReq hasFpu s i).tlbie
  addr := (dOutReq hasFpu s i).addr
  data := if s.stage1Dreq then storeData s else s.r2.req.storeData
  byteSel := (dOutReq hasFpu s i).byteSel
  dawrMatch := if s.stage1Dreq then stage1DawrMatch s else s.r2.req.dawrIntr

def mOut : Loadstore1ToMmu where
  valid := (mmuOpStart s && !s.r2.req.writeSpr) || dcacheMiss s i
  tlbie := s.r2.req.tlbie
  slbia := s.r2.req.isSlbia
  mtspr := mmuOpStart s && s.r2.req.writeSpr
  iside := s.r2.req.instrFault
  load := s.r2.req.load
  priv := s.r2.req.privMode
  ric := s.r2.req.ric
  sprnf := if s.r1.req.valid && s.r1.req.readSpr then s.r1.req.sprsel.getLsbD 0
    else i.dbgSprAddr.getLsbD 0
  sprnt := s.r2.req.sprsel.getLsbD 0
  addr := s.r2.req.addr
  rs := s.r2.req.storeData

def lOut : Loadstore1ToWriteback where
  valid := complete s i
  instrTag := s.r2.req.instrTag
  writeEnable := writeEnable s i || doUpdate s i
  writeReg := s.r2.req.writeReg
  writeData := writeData s i
  xerc := s.r2.req.xerc
  rc := s.r2.req.rc && complete s i
  storeDone := i.d.storeDone
  interrupt := s.r3.interrupt
  intrVec := s.r3.intrVec
  srr1 := s.r3.srr1

/-! ### The clock edge

`loadstore1_reg`. -/

def Stage1.reset (r : Stage1) : Stage1 where
  req :=
    { r.req with
      valid := false, dcReq := false, incomplete := false, tlbie := false, isSlbia := false
      instrFault := false, load := false, privMode := false, sprsel := 0, ric := 0, xerc := {} }
  busy := false
  issued := false
  addr0 := r.addr0
  dawrLl := fun _ => false
  dawrUl := fun _ => false
  dawrUd := false

def Stage2.reset (r : Stage2) : Stage2 :=
  { r with
    req :=
      { r.req with
        valid := false, tlbie := false, isSlbia := false, instrFault := false, load := false
        privMode := false, sprsel := 0, ric := 0, xerc := {} }
    busy := false, waitDc := false, waitMmu := false, oneCycle := false }

def Stage3.reset (r : Stage3) : Stage3 :=
  { r with
    dar := 0, dsisr := 0, state := .idle, interrupt := false, complete := false, stage1En := true
    dawr := fun _ => 0, dawrx := fun _ => 0, dawrUplim := fun _ => 0, dawrUpd := false }

def step : State where
  r1 := if i.rst then s.r1.reset else r1in hasFpu s i
  r2 := if i.rst then s.r2.reset else r2in s i
  r3 := if i.rst then s.r3.reset else r3in hasFpu s i
  flushing :=
    if i.rst then false
    else
      (s.flushing || ((r1in hasFpu s i).req.valid &&
        ((r1in hasFpu s i).req.alignIntr || (r1in hasFpu s i).req.dawrIntr))) && !flush s i
  stage1Dreq := stage1Dcreq hasFpu s i
  hashR :=
    if i.rst then {}
    else nextHash s.hashR (hashStart hasFpu s i) i.l.addr1 i.l.addr2 i.l.hashkey

end LoadStore

end Microwatt
