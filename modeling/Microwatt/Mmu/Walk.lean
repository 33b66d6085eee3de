import Microwatt.Mmu.Caches

/-!
# The radix MMU: walk state machine

`mmu.vhdl`, third part: the process `mmu_1`, which runs a request from `IDLE` to `RADIX_FINISH`,
and the clock edge of the whole unit. The nested conditions of the states `TLBWAIT` and
`RADIX_READ_WAIT` are named by what they decide (`WaitAction`, `ReadAction`); every register is
then a function of the state and the decision.

## Main definitions

* `Mmu.waitAction`, `Mmu.readAction` — what `TLBWAIT` and `RADIX_READ_WAIT` decide
* `Mmu.rin` — the next registers of the walk
* `Mmu.lOut`, `Mmu.dOut`, `Mmu.iOut` — the outputs
* `Mmu.step` — the clock edge
-/

namespace Microwatt

namespace Mmu

section

variable (s : State)

/-! ### Decisions -/

/-- The cached process table entry for the quadrant of the request. -/
def pgtbl : BitVec 64 := if !s.r.addr.getLsbD 63 then s.r.pgtbl0 else s.r.pgtbl3

def ptValid : Bool := if !s.r.addr.getLsbD 63 then s.r.pt0Valid else s.r.pt3Valid

def tlbdone : Bool := s.tr.hit || s.tr.miss

def pwcdone : Bool := s.pr.hit || s.pr.miss

/-- The permission check on a cached leaf, which must have C set for a store. -/
def cachedPermOk (pte : BitVec 64) : Bool :=
  checkPermC pte s.r.priv s.r.iside s.r.store (pte.getLsbD 7)

/-- The outcomes of the conditions in `TLBWAIT`. -/
inductive WaitAction
  | wait | tlbLoad | tlbReread | pwcLoad | pwcReread | pwcPde | readProcTbl | checkSegment
  deriving DecidableEq, Repr

/-- The conditions in `TLBWAIT`, in their order. -/
def waitAction : WaitAction :=
  if s.tr.hit && !s.r.rereadpte then
    if cachedPermOk s s.tlb.rdreg then .tlbLoad else .tlbReread
  else if s.pr.hit && s.pr.hitSize == 0 && s.pwc.rdreg.getLsbD 62 && !s.r.rereadpte then
    if cachedPermOk s s.pwc.rdreg then .pwcLoad else .pwcReread
  else if s.pr.hit && !s.pwc.rdreg.getLsbD 62 && tlbdone s then .pwcPde
  else if tlbdone s && pwcdone s then
    if !ptValid s then .readProcTbl else .checkSegment
  else .wait

/-- The outcomes of the conditions on a table entry in `RADIX_READ_WAIT`. -/
inductive ReadAction
  | leaf | leafPermErr | leafRcErr | badPde | descend | notPresent
  deriving DecidableEq, Repr

/-- The index size is one that no level can have, or exceeds the address bits left. -/
def badMbits (mbits shift : BitVec 6) : Bool := mbits < 5 || mbits > 16 || mbits > shift

/-- The conditions on a table entry, in their order. -/
def readAction (r : Walk) (data : BitVec 64) : ReadAction :=
  let permOk := checkPermC data r.priv r.iside r.store true
  let rcOk := data.getLsbD 8 && (data.getLsbD 7 || !r.store)
  if data.getLsbD 63 then
    if data.getLsbD 62 then
      if permOk && rcOk then .leaf else if permOk then .leafRcErr else .leafPermErr
    else if badMbits (mbitsOf data) r.shift then .badPde
    else .descend
  else .notPresent

/-- The outcomes of `SEGMENT_CHECK`. -/
inductive SegAction
  | noTree | segErr | badRoot | walk
  deriving DecidableEq, Repr

/-- `nonzero`: address bits above the size of the tree are set. -/
def nonzero : Bool :=
  s.r.addr.extractLsb' 31 31 &&& ~~~((finalMask s.r.shift).extractLsb' 0 31) != 0

/-- The conditions of `SEGMENT_CHECK`, in their order. -/
def segAction : SegAction :=
  if mbitsOf (pgtbl s) == 0 then .noTree
  else if (s.r.addr.getLsbD 63 != s.r.addr.getLsbD 62) || nonzero s then .segErr
  else if badMbits (mbitsOf (pgtbl s)) (s.r.shift + 19) then .badRoot
  else .walk

/-- A directory entry of one of the sizes that the page walk cache holds. -/
def cacheablePde (data : BitVec 64) : Bool :=
  (s.r.shift == 9 || s.r.shift == 18 || s.r.shift == 27) && mbitsOf data == 9 &&
    !s.r.rereadpte

variable (i : Inputs)

/-- `data`: the doubleword read, in the processor's byte order. -/
def data : BitVec 64 := byteSwap i.d.data

/-! ### Next registers -/

/-- `v.state`. -/
def walkState : WalkState :=
  match s.r.state with
  | .idle =>
    if i.l.mtspr then .doTlbie
    else if i.l.valid then
      if i.l.tlbie then .doTlbie
      else if !s.r.ptbValid then .partTblRead
      else .tlbWait
    else .idle
  | .doTlbie =>
    if s.r.isMtspr || (s.tr.tlbieDone && s.pr.tlbieDone) then .radixFinish else .doTlbie
  | .partTblRead => .partTblWait
  | .partTblWait => if i.d.done then .tlbWait else .partTblWait
  | .tlbWait =>
    match waitAction s with
    | .wait | .tlbReread | .pwcReread => .tlbWait
    | .tlbLoad | .pwcLoad => .radixLoadTlb
    | .pwcPde => .radixLookup
    | .readProcTbl => .procTblRead
    | .checkSegment => .segmentCheck
  | .procTblRead => .procTblWait
  | .procTblWait =>
    if i.d.err then .radixFinish else if i.d.done then .segmentCheck else .procTblWait
  | .segmentCheck => if segAction s = .walk then .radixLookup else .radixFinish
  | .radixLookup => .radixReadWait
  | .radixReadWait =>
    if i.d.err then .radixFinish
    else if i.d.done then
      match readAction s.r (data i) with
      | .leaf => .radixLoadTlb
      | .descend => .radixLookup
      | _ => .radixFinish
    else .radixReadWait
  | .radixLoadTlb => .radixFinish
  | .radixFinish => .idle

/-- What a table entry arriving in this cycle decides. -/
def reading (a : ReadAction) : Bool :=
  s.r.state == .radixReadWait && i.d.done && readAction s.r (data i) == a

/-- What `SEGMENT_CHECK` decides in this cycle. -/
def segmenting (a : SegAction) : Bool := s.r.state == .segmentCheck && segAction s == a

/-- What `TLBWAIT` decides in this cycle. -/
def waiting (a : WaitAction) : Bool := s.r.state == .tlbWait && waitAction s == a

def invalid : Bool := segmenting s .noTree || reading s i .notPresent

def badtree : Bool :=
  segmenting s .badRoot || reading s i .badPde ||
    ((s.r.state == .procTblWait || s.r.state == .radixReadWait) && i.d.err)

def segerror : Bool := segmenting s .segErr

def permErr : Bool := reading s i .leafPermErr

def rcError : Bool := reading s i .leafRcErr

/-- Any of the error flags. -/
def anyError : Bool := invalid s i || badtree s i || segerror s || permErr s i || rcError s i

/-- A request is taken in this cycle. -/
def accepts : Bool := s.r.state == .idle && i.l.valid

/-- A move to PID or PTCR is taken in this cycle. -/
def movesSpr : Bool := s.r.state == .idle && i.l.mtspr

/-- A tlbie that also drops the cached table pointers. -/
def dropsTables : Bool := accepts s i && i.l.tlbie && i.l.ric.getLsbD 1

/-- `v.shift`. -/
def walkShift : BitVec 6 :=
  match s.r.state with
  | .tlbWait =>
    match waitAction s with
    | .tlbLoad => 0
    | .pwcLoad => 9
    | .pwcPde => 0#1 ++ s.pr.hitSize ++ 0#1 ++ s.pr.hitSize
    | .readProcTbl => 0#1 ++ s.r.prtbl.extractLsb' 0 5
    | .checkSegment => rtsOf (pgtbl s)
    | _ => s.r.shift
  | .procTblWait => if i.d.done then rtsOf (data i) else s.r.shift
  | .segmentCheck => s.r.shift + 19 - mbitsOf (pgtbl s)
  | .radixReadWait =>
    if reading s i .descend then s.r.shift - mbitsOf (data i) else s.r.shift
  | _ => s.r.shift

def walkMaskSize : BitVec 5 :=
  if waiting s .pwcPde then 9
  else if s.r.state = .segmentCheck then (pgtbl s).extractLsb' 0 5
  else if reading s i .descend then (data i).extractLsb' 0 5
  else s.r.maskSize

def walkPgbase : BitVec 56 :=
  if waiting s .pwcPde then baseOf s.pwc.rdreg
  else if s.r.state = .segmentCheck then baseOf (pgtbl s)
  else if reading s i .descend then baseOf (data i)
  else s.r.pgbase

def walkPde : BitVec 64 :=
  match s.r.state with
  | .tlbWait =>
    match waitAction s with
    | .tlbLoad | .tlbReread => s.tlb.rdreg
    | .pwcLoad | .pwcReread | .pwcPde => s.pwc.rdreg
    | _ => s.r.pde
  | .radixReadWait => if i.d.done then data i else s.r.pde
  | _ => s.r.pde

def rin : Walk where
  iside := if accepts s i then i.l.iside else s.r.iside
  store := if accepts s i then !(i.l.load || i.l.iside) else s.r.store
  priv := if accepts s i then i.l.priv else s.r.priv
  addr := if accepts s i then i.l.addr else s.r.addr
  invalAll :=
    movesSpr s i ||
      (accepts s i && i.l.tlbie && (i.l.slbia || i.l.addr.getLsbD 11 || i.l.addr.getLsbD 10 ||
        i.l.addr.getLsbD 7 || i.l.addr.getLsbD 6 || i.l.addr.getLsbD 5))
  ptcr := if movesSpr s i && i.l.sprnt then i.l.rs else s.r.ptcr
  pid := if movesSpr s i && !i.l.sprnt then i.l.rs.extractLsb' 0 12 else s.r.pid
  state := walkState s i
  done := walkState s i == .radixFinish && !anyError s i
  err := walkState s i == .radixFinish && anyError s i
  prtbl := if s.r.state = .partTblWait ∧ i.d.done then data i else s.r.prtbl
  ptbValid :=
    if (movesSpr s i && i.l.sprnt) || dropsTables s i then false
    else s.r.ptbValid || (s.r.state == .partTblWait && i.d.done)
  pgtbl0 :=
    if s.r.state = .procTblWait ∧ i.d.done ∧ s.r.addr.getLsbD 63 = false then data i
    else s.r.pgtbl0
  pt0Valid :=
    if movesSpr s i || dropsTables s i then false
    else s.r.pt0Valid || (s.r.state == .procTblWait && i.d.done && !s.r.addr.getLsbD 63)
  pgtbl3 :=
    if s.r.state = .procTblWait ∧ i.d.done ∧ s.r.addr.getLsbD 63 = true then data i
    else s.r.pgtbl3
  pt3Valid :=
    if (movesSpr s i && i.l.sprnt) || dropsTables s i then false
    else s.r.pt3Valid || (s.r.state == .procTblWait && i.d.done && s.r.addr.getLsbD 63)
  shift := walkShift s i
  maskSize := walkMaskSize s i
  pgbase := walkPgbase s i
  pde := walkPde s i
  invalid := invalid s i
  badtree := badtree s i
  segerror := segerror s
  permErr := permErr s i
  rcError := rcError s i
  tlbieReq := movesSpr s i || (accepts s i && i.l.tlbie)
  isMtspr := if s.r.state = .idle then i.l.mtspr else s.r.isMtspr
  rereadpte :=
    if s.r.state = .idle then false
    else s.r.rereadpte || waiting s .tlbReread || waiting s .pwcReread
  wrTlbram :=
    if s.r.state = .radixFinish then false
    else s.r.wrTlbram || (reading s i .leaf && s.r.shift == 0)
  wrPwcram :=
    (reading s i .leaf && s.r.shift == 9) || (reading s i .descend && cacheablePde s (data i))
  pwcLevel :=
    if reading s i .leaf && s.r.shift == 9 then 0
    else if reading s i .descend && cacheablePde s (data i) then s.r.shift.extractLsb' 3 2 - 1
    else s.r.pwcLevel

/-! ### Outputs -/

/-- `l_out`, with the PTCR or PID for mfspr. -/
def lOut : MmuToLoadstore1 where
  done := s.r.done
  err := s.r.err
  invalid := s.r.invalid
  badtree := s.r.badtree
  segerr := s.r.segerror
  permError := s.r.permErr
  rcError := s.r.rcError
  sprval := if i.l.sprnf then s.r.ptcr else 0#52 ++ s.r.pid

/-- `dcreq`: a doubleword is to be read. -/
def dcreq : Bool :=
  s.r.state == .partTblRead || s.r.state == .procTblRead || s.r.state == .radixLookup

def tlbLoad : Bool := s.r.state == .radixLoadTlb

/-- The address for the dcache and the ITLB. -/
def outAddr : BitVec 64 :=
  if s.r.tlbieReq then s.r.addr
  else if tlbLoad s then s.r.addr.extractLsb' 12 52 ++ 0#12
  else if s.r.state = .partTblRead then parttableAddr s.r.ptcr
  else if s.r.state = .procTblRead then
    prtableAddr s.r.prtbl s.r.shift (effpid s.r.addr s.r.pid)
  else pgtableAddr s.r.pgbase s.r.maskSize s.r.shift s.r.addr

/-- The PTE for the L1 TLBs. -/
def outPte : BitVec 64 :=
  if !s.r.tlbieReq && tlbLoad s then pteOf s.r.pde s.r.shift s.r.addr else 0

def dOut : MmuToDcache where
  valid := dcreq s
  tlbie := s.r.tlbieReq
  doall := s.r.invalAll
  tlbld := tlbLoad s && !s.r.iside
  addr := outAddr s
  pte := outPte s

def iOut : MmuToITLB where
  tlbld := tlbLoad s && s.r.iside
  tlbie := s.r.tlbieReq
  doall := s.r.invalAll
  addr := outAddr s
  pte := outPte s

/-! ### The clock edge -/

/-- The walk registers under reset. Only some of them are reset. -/
def resetWalk (r : Walk) : Walk :=
  { r with
    state := .idle, ptbValid := false, pt0Valid := false, pt3Valid := false, ptcr := 0, pid := 0
    wrTlbram := false }

def step : State where
  r := if i.rst then resetWalk s.r else rin s i
  tr := if i.rst then {} else trin s i.l
  tlb := tlbNext s i.l
  pr := if i.rst then {} else prin s i.l
  pwc := pwcNext s i.l

end

end Mmu

end Microwatt
