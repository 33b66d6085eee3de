import Microwatt.Interfaces
import Microwatt.Lib.Ways
import Microwatt.Plru

/-!
# The data cache: geometry and registers

`dcache.vhdl`, first part: the sizes the generics set, the functions that cut an address into tag,
index and row, and the registers and memories. The number of ways of the cache and of the TLB is a
power of two, as the tree PLRU requires, so a way is a bit vector and every bit vector is a way; the
page size `TLB_LG_PGSZ` is the 12 of every instance. A vector with a bit per way or per row of a
line (`way_expand_t`, `row_per_line_valid_t`) is a function to `Bool`.

The exclusive flags `req_op_*` are one value of `ReqOp`. Registers that only feed reports, events
or the log are left out (`slow_valid`, `hit_load_valid`, `prev_hit`, `prev_way`,
`prev_hit_reload`), and so are the fields `flush`, `sync` and `dawr_m` of a request, which nothing
reads.

## Main definitions

* `Dcache.Geometry` — the sizes
* `Dcache.getIndex`, `Dcache.getRow`, `Dcache.getTag`, `Dcache.nextRow` — parts of an address
* `Dcache.R0`, `Dcache.MemReq`, `Dcache.R1` — `reg_stage_0_t`, `mem_access_request_t`,
  `reg_stage_1_t`
* `Dcache.State`, `Dcache.Inputs` — all registers and memories, and the input ports
-/

namespace Microwatt

abbrev realAddrBits : ℕ := 56

abbrev RealAddr := BitVec realAddrBits

def addrToWb {w : ℕ} (addr : BitVec w) : BitVec wishboneAddrBits := addr.extractLsb' 3 29

def wbToAddr (wbAddr : BitVec wishboneAddrBits) : BitVec 64 := (wbAddr ++ 0#3).setWidth 64

def addrToReal (addr : BitVec 64) : RealAddr := addr.setWidth 56

/-- A vector with its low bits assigned. -/
def setLow {w n : ℕ} (v : BitVec w) (lo : BitVec n) : BitVec w :=
  ((v >>> n) <<< n) ||| lo.setWidth w

theorem getLsbD_setLow {w n : ℕ} (v : BitVec w) (lo : BitVec n) (k : ℕ) :
    (setLow v lo).getLsbD k =
      (decide (k < w) && if k < n then lo.getLsbD k else v.getLsbD k) := by
  simp only [setLow, BitVec.getLsbD_or, BitVec.getLsbD_shiftLeft, BitVec.getLsbD_ushiftRight,
    BitVec.getLsbD_setWidth]
  by_cases hk : k < n
  · simp [hk]
  · have hlo : lo.getLsbD k = false := BitVec.getLsbD_of_ge lo k (by omega)
    have hadd : n + (k - n) = k := by omega
    simp [hk, hlo, hadd]

theorem setWidth_setLow {w k : ℕ} (v : BitVec w) (lo : BitVec k) (h : k ≤ w) :
    (setLow v lo).setWidth k = lo := by
  refine BitVec.eq_of_getLsbD_eq fun j hj => ?_
  rw [BitVec.getLsbD_setWidth, getLsbD_setLow, if_pos hj]
  simp [hj, show j < w by omega]

theorem setLow_self {w n : ℕ} (v : BitVec w) : setLow v (v.setWidth n) = v := by
  refine BitVec.eq_of_getLsbD_eq fun k hk => ?_
  rw [getLsbD_setLow, BitVec.getLsbD_setWidth]
  by_cases hlow : k < n <;> simp [hk, hlow]

theorem setLow_setLow {w n : ℕ} (v : BitVec w) (a b : BitVec n) :
    setLow (setLow v a) b = setLow v b := by
  refine BitVec.eq_of_getLsbD_eq fun k hk => ?_
  rw [getLsbD_setLow, getLsbD_setLow, getLsbD_setLow]
  by_cases hlow : k < n <;> simp [hk, hlow]

namespace Dcache

/-! ### Geometry -/

/-- The sizes that `LINE_SIZE`, `NUM_LINES`, `NUM_WAYS`, `TLB_SET_SIZE` and `TLB_NUM_WAYS` give,
each as a number of bits, with the constraints asserted on them. -/
structure Geometry where
  rowLinebits : ℕ
  indexBits : ℕ
  wayBits : ℕ
  tlbSetBits : ℕ
  tlbWayBits : ℕ
  /-- A line has more than one row. -/
  rows : 0 < rowLinebits
  /-- The set is not indexed by translated bits. -/
  setSize : rowLinebits + 3 + indexBits ≤ 12
  tlbSize : tlbSetBits ≤ 52

namespace Geometry

variable (g : Geometry)

abbrev lineOffBits : ℕ := g.rowLinebits + 3

abbrev rowBits : ℕ := g.indexBits + g.rowLinebits

abbrev setSizeBits : ℕ := g.lineOffBits + g.indexBits

abbrev tagBits : ℕ := realAddrBits - g.setSizeBits

abbrev tlbEaTagBits : ℕ := 64 - (12 + g.tlbSetBits)

abbrev Row := BitVec g.rowBits

abbrev Index := BitVec g.indexBits

abbrev Way := BitVec g.wayBits

abbrev RowInLine := BitVec g.rowLinebits

abbrev Tag := BitVec g.tagBits

/-- The address of a line: what `reservation_t` keeps. -/
abbrev Line := BitVec (realAddrBits - g.lineOffBits)

abbrev TlbWay := BitVec g.tlbWayBits

abbrev TlbIndex := BitVec g.tlbSetBits

abbrev TlbTag := BitVec g.tlbEaTagBits

/-- The defaults of the generics: 32 lines of 64 bytes in 4 ways, a TLB of 64 sets of 2 ways. -/
def default : Geometry where
  rowLinebits := 3
  indexBits := 5
  wayBits := 2
  tlbSetBits := 6
  tlbWayBits := 1
  rows := by decide
  setSize := by decide
  tlbSize := by decide

end Geometry

section Address

variable (g : Geometry) {w : ℕ}

def getIndex (addr : BitVec w) : g.Index := addr.extractLsb' g.lineOffBits g.indexBits

def getRow (addr : BitVec w) : g.Row := addr.extractLsb' 3 g.rowBits

def getTag (addr : BitVec w) : g.Tag := addr.extractLsb' g.setSizeBits g.tagBits

/-- The slice `REAL_ADDR_BITS - 1 downto LINE_OFF_BITS`. -/
def getLine (addr : BitVec w) : g.Line :=
  addr.extractLsb' g.lineOffBits (realAddrBits - g.lineOffBits)

variable {g}

def getRowOfLine (row : g.Row) : g.RowInLine := row.setWidth g.rowLinebits

def isLastRowWbAddr (addr : BitVec wishboneAddrBits) (last : g.RowInLine) : Bool :=
  addr.setWidth g.rowLinebits == last

def isLastRow (row : g.Row) (last : g.RowInLine) : Bool := getRowOfLine row == last

def nextRow (row : g.Row) : g.Row := setLow row (getRowOfLine row + 1)

variable (g)

def nextRowWbAddr (addr : BitVec wishboneAddrBits) : BitVec wishboneAddrBits :=
  setLow addr (addr.setWidth g.rowLinebits + 1)

/-- The set of the TLB for an effective address. -/
def tlbIndex (addr : BitVec 64) : g.TlbIndex := addr.extractLsb' 12 g.tlbSetBits

/-- The tag of the TLB for an effective address. -/
def eaTag (addr : BitVec 64) : g.TlbTag := addr.extractLsb' (12 + g.tlbSetBits) g.tlbEaTagBits

end Address

/-! ### Registers -/

structure PermAttr where
  reference : Bool
  changed : Bool
  nocache : Bool
  priv : Bool
  rdPerm : Bool
  wrPerm : Bool
  deriving DecidableEq, Repr

def extractPermAttr (pte : BitVec 64) : PermAttr where
  reference := pte.getLsbD 8
  changed := pte.getLsbD 7
  nocache := pte.getLsbD 5
  priv := pte.getLsbD 3
  rdPerm := pte.getLsbD 2
  wrPerm := pte.getLsbD 1

def realModePermAttr : PermAttr where
  reference := true
  changed := true
  nocache := false
  priv := true
  rdPerm := true
  wrPerm := true

/-- `state_t`. -/
inductive CacheState
  | idle | reloadWaitAck | storeWaitAck | ncLoadWaitAck | doStcx | flushCycle
  deriving DecidableEq, Repr

/-- The flags `req_op_*`: what a looked up request needs. `none` stands for no flag. -/
inductive ReqOp
  | none | bad | nop | loadHit | loadMiss | store | flush | sync
  deriving DecidableEq, Repr

/-- The operations the state machine has to carry out. -/
def ReqOp.slow : ReqOp → Bool
  | .loadMiss | .store | .flush | .sync => true
  | .none | .bad | .nop | .loadHit => false

/-- `reg_stage_0_t`. -/
structure R0 where
  req : Loadstore1ToDcache := {}
  mmuReq : Bool := false
  dValid : Bool := false
  deriving DecidableEq, Repr

/-- `mem_access_request_t`. -/
structure MemReq (g : Geometry) where
  op : ReqOp := .none
  nc : Bool := false
  valid : Bool := false
  dcbz : Bool := false
  touch : Bool := false
  reserve : Bool := false
  firstDw : Bool := false
  lastDw : Bool := false
  realAddr : RealAddr := 0
  data : BitVec 64 := 0
  byteSel : BitVec 8 := 0
  isHit : Bool := false
  hitWay : g.Way := 0
  hitWays : g.Way → Bool := fun _ => false
  hitReload : Bool := false
  samePage : Bool := false
  mmuReq : Bool := false
  tlbHit : Bool := false
  tlbIndex : g.TlbIndex := 0
  tlbWay : g.TlbWay := 0

/-- `reg_stage_1_t`. -/
structure R1 (g : Geometry) where
  full : Bool := false
  mmuReq : Bool := false
  req : MemReq g := {}
  atomicMore : Bool := false
  hitWay : g.Way := 0
  hitIndex : g.Index := 0
  cacheHit : Bool := false
  prevHitWays : g.Way → Bool := fun _ => false
  tlbHit : Bool := false
  tlbHitWay : g.TlbWay := 0
  tlbHitWays : g.TlbWay → Bool := fun _ => false
  tlbHitIndex : g.TlbIndex := 0
  tlbVictim : g.TlbWay := 0
  lsTlbHit : Bool := false
  tlbAccIndex : g.TlbIndex := 0
  tlbAccWay : g.TlbWay := 0
  forwardData : BitVec 64 := 0
  forwardSel : BitVec 8 := 0
  forwardValid : Bool := false
  forwardRow : g.Row := 0
  forwardWay : g.Way := 0
  dataOut : BitVec 64 := 0
  state : CacheState := .idle
  dcbz : Bool := false
  writeBram : Bool := false
  writeTag : Bool := false
  wb : WishboneMasterOut := {}
  reloading : Bool := false
  reloadTag : g.Tag := 0
  storeWay : g.Way := 0
  storeWays : g.Way → Bool := fun _ => false
  storeRow : g.Row := 0
  storeIndex : g.Index := 0
  endRowIx : g.RowInLine := 0
  rowsValid : g.RowInLine → Bool := fun _ => false
  acksPending : BitVec 3 := 0
  stalled : Bool := false
  decAcks : Bool := false
  chooseVictim : Bool := false
  victimWay : g.Way := 0
  lsValid : Bool := false
  lsError : Bool := false
  mmuDone : Bool := false
  mmuError : Bool := false
  cacheParadox : Bool := false
  reserveNc : Bool := false
  stcxFail : Bool := false

structure Reservation (g : Geometry) where
  valid : Bool := false
  addr : g.Line := 0

/-- The memories of the unit and the registers at their read ports. -/
structure State (g : Geometry) where
  r0 : R0 := {}
  r0Full : Bool := false
  r1 : R1 g := {}
  reservation : Reservation g := {}
  cacheTags : g.Index → g.Way → g.Tag := fun _ _ => 0
  cacheTagSet : g.Way → g.Tag := fun _ => 0
  cacheValids : g.Index → g.Way → Bool := fun _ _ => false
  /-- The data RAM of each way. -/
  ram : g.Way → g.Row → BitVec 64 := fun _ _ => 0
  /-- The read register of each data RAM. -/
  dout : g.Way → BitVec 64 := fun _ => 0
  plruRam : g.Index → Plru.Tree g.wayBits := fun _ => 0
  dtlbValids : g.TlbIndex → g.TlbWay → Bool := fun _ _ => false
  dtlbTags : g.TlbIndex → g.TlbWay → g.TlbTag := fun _ _ => 0
  dtlbPtes : g.TlbIndex → g.TlbWay → BitVec 64 := fun _ _ => 0
  tlbValidWay : g.TlbWay → Bool := fun _ => false
  tlbTagWay : g.TlbWay → g.TlbTag := fun _ => 0
  tlbPteWay : g.TlbWay → BitVec 64 := fun _ => 0
  tlbReadValid : Bool := false
  tlbPlruRam : g.TlbIndex → Plru.Tree g.tlbWayBits := fun _ => 0
  snoopTagSet : g.Way → g.Tag := fun _ => 0
  snoopValid : Bool := false
  snoopPaddr : RealAddr := 0

structure Inputs where
  rst : Bool := false
  d : Loadstore1ToDcache := {}
  m : MmuToDcache := {}
  wb : WishboneSlaveOut := {}
  snoop : WishboneMasterOut := {}

end Dcache

end Microwatt
