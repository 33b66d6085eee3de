import Microwatt.Decode.Predecode
import Microwatt.Fetch.Basic
import Microwatt.Dcache.Basic
import Microwatt.Lib.Ways
import Microwatt.Plru

/-!
# The instruction cache

`icache` is set associative. A request is compared with the tags that were read at the last clock
edge for it, and its data is read from the cache RAM at the next one. A miss starts a reload of the
line at the row that is needed: the requests for the rows of the line are sent one after the other,
going around at the end of the line, and the rows arrive in that order. They go through the
predecoder, which takes one cycle, so a row is stored (`store_row`) in the cycle after it has
arrived (`recv_row`). While the line is being reloaded, rows that have been stored can be hit.

An invalidation during a reload aborts it: no more requests are sent, and the unit waits in
STOP_RELOAD until those that were accepted have been answered.

Sizes are given by numbers of bits, and a vector with a bit per way or per row of a line is a
function to `Bool`. Registers that only feed reports, events or the log are left out.

## Main definitions

* `Icache.Geometry`, `Icache.State`, `Icache.Inputs` — sizes, registers and input ports
* `Icache.reqIsHit`, `Icache.reqIsMiss`, `Icache.stallOut` — the lookup
* `Icache.step` — one clock edge
* `Icache.iOut` — the instruction for decode1
-/

namespace Microwatt

open Predecode

/-- `IcacheToDecode1Type`. The instruction word has no value if its primary opcode is undefined. -/
structure IcacheToDecode1 where
  valid : Bool := false
  stopMark : Bool := false
  fetchFailed : Bool := false
  nia : BitVec 64 := 0
  insn : Option (BitVec 32) := some 0
  /-- The bits of the word below the primary opcode, which are always defined. -/
  low : BitVec 26 := 0
  icode : InsnCode := .illegal
  bigEndian : Bool := false
  nextPredicted : Bool := false
  nextPredNtaken : Bool := false
  deriving DecidableEq, Repr

namespace Icache

/-! ### Geometry -/

/-- The sizes that `LINE_SIZE`, `NUM_LINES` and `NUM_WAYS` give, each as a number of bits. -/
structure Geometry where
  rowLinebits : ℕ
  indexBits : ℕ
  wayBits : ℕ
  hasFpu : Bool := true
  lineFits : rowLinebits ≤ wishboneAddrBits
  setSize : rowLinebits + 3 + indexBits ≤ realAddrBits

namespace Geometry

variable (g : Geometry)

abbrev lineOffBits : ℕ := g.rowLinebits + 3

abbrev rowBits : ℕ := g.indexBits + g.rowLinebits

abbrev setSizeBits : ℕ := g.lineOffBits + g.indexBits

abbrev Row := BitVec g.rowBits

abbrev Index := BitVec g.indexBits

abbrev Way := BitVec g.wayBits

abbrev RowInLine := BitVec g.rowLinebits

/-- `cache_tag_t`: the endianness is a part of the tag. -/
abbrev Tag := BitVec (1 + (realAddrBits - g.setSizeBits))

/-- The defaults of the generics: 32 lines of 64 bytes in 4 ways. -/
def default : Geometry where
  rowLinebits := 3
  indexBits := 5
  wayBits := 2
  lineFits := by decide
  setSize := by decide

end Geometry

section Address

variable (g : Geometry)

def getIndex (addr : RealAddr) : g.Index := addr.extractLsb' g.lineOffBits g.indexBits

def getRow {w : ℕ} (addr : BitVec w) : g.Row := addr.extractLsb' 3 g.rowBits

def getTag (addr : RealAddr) (endian : Bool) : g.Tag :=
  BitVec.ofBool endian ++ addr.extractLsb' g.setSizeBits (realAddrBits - g.setSizeBits)

variable {g}

def getRowOfLine (row : g.Row) : g.RowInLine := row.setWidth g.rowLinebits

def isLastRowWbAddr (wbAddr : BitVec wishboneAddrBits) (last : g.RowInLine) : Bool :=
  wbAddr.setWidth g.rowLinebits == last

def isLastRow (row : g.Row) (last : g.RowInLine) : Bool := getRowOfLine row == last

def nextRow (row : g.Row) : g.Row := setLow row (getRowOfLine row + 1)

variable (g)

def nextRowWbAddr (wbAddr : BitVec wishboneAddrBits) : BitVec wishboneAddrBits :=
  setLow wbAddr (wbAddr.setWidth g.rowLinebits + 1)

/-- The endianness in a tag, its top bit. -/
def tagEndian (tag : g.Tag) : Bool := tag.msb

/-- A tag with the endianness taken out. -/
def tagAddr (tag : g.Tag) : BitVec (realAddrBits - g.setSizeBits) := tag.setWidth _

end Address

/-! ### Rows of the cache -/

/-- A row of the cache RAM: two instruction images. -/
abbrev CacheRow := BitVec 72

/-- `wb_rd_data`: the words of a doubleword are swapped byte by byte if they are big endian. -/
def swapWords (dat : BitVec 64) : BitVec 64 :=
  dat.extractLsb' 32 8 ++ dat.extractLsb' 40 8 ++ dat.extractLsb' 48 8 ++ dat.extractLsb' 56 8 ++
    dat.extractLsb' 0 8 ++ dat.extractLsb' 8 8 ++ dat.extractLsb' 16 8 ++ dat.extractLsb' 24 8

def readInsnWord (addr : BitVec 64) (data : CacheRow) : BitVec 36 :=
  if addr.getLsbD 2 then data.extractLsb' 36 36 else data.extractLsb' 0 36

/-! ### Registers and ports -/

/-- `state_t`. -/
inductive ReloadState
  | idle | stopReload | clrTag | waitAck
  deriving DecidableEq, Repr

/-- `reg_internal_t`. -/
structure Reg (g : Geometry) where
  hitWay : g.Way := 0
  hitNia : BitVec 64 := 0
  hitRa : RealAddr := 0
  hitSmark : Bool := false
  hitValid : Bool := false
  bigEndian : Bool := false
  predicted : Bool := false
  predNtaken : Bool := false
  state : ReloadState := .idle
  wb : WishboneMasterOut := {}
  storeWay : g.Way := 0
  storeIndex : g.Index := 0
  recvRow : g.Row := 0
  recvValid : Bool := false
  storeRow : g.Row := 0
  storeTag : g.Tag := 0
  storeValid : Bool := false
  endRowIx : g.RowInLine := 0
  rowsValid : g.RowInLine → Bool := fun _ => false
  stalledHit : Bool := false
  stalledWay : g.Way := 0
  fetchFailed : Bool := false

/-- The registers and memories of the unit, with those of the predecoder. -/
structure State (g : Geometry) where
  r : Reg g := {}
  cacheTagsSet : g.Way → g.Tag := fun _ => 0
  snoopTagsSet : g.Way → g.Tag := fun _ => 0
  tagOverwrite : g.Way → Bool := fun _ => false
  cacheValids : g.Index → g.Way → Bool := fun _ _ => false
  icTags : g.Way → g.Index → g.Tag := fun _ _ => 0
  ram : g.Way → g.Row → CacheRow := fun _ _ => 0
  cacheOut : g.Way → CacheRow := fun _ => 0
  plruRam : g.Index → Plru.Tree g.wayBits := fun _ => 0
  snoopValid : Bool := false
  snoopIndex : g.Index := 0
  snoopTag : g.Tag := 0
  snoopIndex2 : g.Index := 0
  snoopHits : g.Way → Bool := fun _ => false
  pred0 : Predec := predecode0 0
  pred1 : Predec := predecode0 0
  predValid : Bool := false

structure Inputs where
  rst : Bool := false
  i : Fetch1ToIcache := {}
  stallIn : Bool := false
  flushIn : Bool := false
  invalIn : Bool := false
  wb : WishboneSlaveOut := {}
  snoop : WishboneMasterOut := {}

section Comb

variable {g : Geometry} (s : State g) (i : Inputs)

/-! ### The lookup -/

def realAddr : RealAddr := i.i.rpn ++ i.i.nia.extractLsb' 0 12

/-- The address whose tags are read for the next cycle. -/
def nextRaddr : RealAddr := i.i.nextRpn ++ i.i.nextNia.extractLsb' 0 12

def reqIndex : g.Index := getIndex g (realAddr i)

def reqRow : g.Row := getRow g (realAddr i)

def reqTag : g.Tag := getTag g (realAddr i) i.i.bigEndian

/-- `req_raddr`: the address of the row. -/
def reqRaddr : RealAddr := (realAddr i).extractLsb' 3 53 ++ 0#3

/-- The tag of a way matches the request. -/
def tagHit (way : g.Way) : Bool :=
  i.i.req && s.cacheValids (reqIndex i) way && !s.tagOverwrite way &&
    s.cacheTagsSet way == reqTag i

/-- The request finds its row in the part of the line that has been reloaded. -/
def reloadHit : Bool :=
  s.r.state == .waitAck && s.r.storeValid && reqIndex i == s.r.storeIndex &&
    reqTag i == s.r.storeTag && s.r.rowsValid (getRowOfLine (reqRow i))

def isHit : Bool := s.r.stalledHit || reloadHit s i || Ways.any (tagHit s i)

def reqHitWay : g.Way :=
  if s.r.stalledHit then s.r.stalledWay
  else if reloadHit s i then s.r.storeWay
  else Ways.last (tagHit s i)

def reqIsHit : Bool := i.i.req && !i.flushIn && !i.rst && isHit s i

def reqIsMiss : Bool := i.i.req && !i.flushIn && !i.rst && !isHit s i

def stallOut : Bool := i.i.req && !isHit s i && !i.flushIn

/-- `plru_victim`, which is the way that is replaced. -/
def plruVictim : g.Way := Plru.lru (s.plruRam (getIndex g s.r.hitRa))

/-- The image of the instruction that was hit. -/
def insnImage : BitVec 36 := readInsnWord s.r.hitNia (s.cacheOut s.r.hitWay)

def iOut : IcacheToDecode1 where
  valid := s.r.hitValid
  stopMark := s.r.hitSmark
  fetchFailed := s.r.fetchFailed
  nia := s.r.hitNia
  insn := insnOut (insnImage s)
  low := (insnImage s).extractLsb' 0 26
  icode := icodeOut (insnImage s)
  bigEndian := s.r.bigEndian
  nextPredicted := s.r.predicted
  nextPredNtaken := s.r.predNtaken

/-! ### The reload -/

/-- The state machine sends requests and takes in rows. -/
def reloading : Bool := s.r.state == .clrTag || s.r.state == .waitAck

/-- A miss starts a reload. -/
def startReload : Bool := s.r.state == .idle && reqIsMiss s i

/-- A row is stored, and it is the last one of the line. -/
def lastStored : Bool :=
  reloading s && s.r.recvValid && isLastRow s.r.storeRow s.r.endRowIx

/-- The bus accepts a request of the reload. -/
def accepted : Bool := reloading s && !i.wb.stall && s.r.wb.stb

/-- The requests that were accepted before an abort have all been answered. -/
def drained : Bool :=
  s.r.state == .stopReload &&
    getRowOfLine s.r.recvRow == getRowOfLine (getRow g (wbToAddr s.r.wb.adr))

def stateNext : ReloadState :=
  match s.r.state with
  | .idle => if reqIsMiss s i then .clrTag else .idle
  | .clrTag | .waitAck =>
    if i.invalIn then .stopReload else if lastStored s then .idle else .waitAck
  | .stopReload => if drained s then .idle else .stopReload

def wbNext : WishboneMasterOut where
  dat := s.r.wb.dat
  sel := s.r.wb.sel
  we := s.r.wb.we
  adr :=
    if startReload s i then addrToWb (reqRaddr i)
    else if accepted s i then nextRowWbAddr g s.r.wb.adr
    else s.r.wb.adr
  stb :=
    if startReload s i then true
    else if reloading s && i.invalIn then false
    else if accepted s i && isLastRowWbAddr s.r.wb.adr s.r.endRowIx then false
    else s.r.wb.stb
  cyc :=
    if startReload s i then true
    else if reloading s && i.wb.ack && isLastRow s.r.recvRow s.r.endRowIx then false
    else if drained s then false
    else s.r.wb.cyc

def recvRowNext : g.Row :=
  if startReload s i then getRow g (reqRaddr i)
  else if s.r.state != .idle && i.wb.ack then nextRow s.r.recvRow
  else s.r.recvRow

def storeRowNext : g.Row :=
  if startReload s i then getRow g (reqRaddr i)
  else if reloading s && s.r.recvValid then s.r.recvRow
  else s.r.storeRow

def storeValidNext : Bool :=
  if startReload s i then true else if i.invalIn then false else s.r.storeValid

def rowsValidNext (row : g.RowInLine) : Bool :=
  if s.r.state == .idle then false
  else if reloading s && s.r.recvValid && row == getRowOfLine s.r.storeRow then !i.invalIn
  else s.r.rowsValid row

/-! ### The hit registers -/

def stalledHitNext : Bool :=
  if i.rst || i.flushIn then false
  else if i.stallIn then
    if s.r.state == .clrTag then false
    -- if we have a hit while stalled, remember it
    else reqIsHit s i || s.r.stalledHit
  else false

def stalledWayNext : g.Way :=
  if i.rst || i.flushIn then 0
  else if i.stallIn && s.r.state != .clrTag && reqIsHit s i then reqHitWay s i
  else s.r.stalledWay

/-- The registers while there is no reset. -/
def rNext : Reg g where
  hitValid :=
    if i.flushIn then false else if i.stallIn then s.r.hitValid else reqIsHit s i
  hitWay :=
    if !i.flushIn && !i.stallIn && reqIsHit s i then reqHitWay s i else s.r.hitWay
  hitNia := if i.stallIn then s.r.hitNia else i.i.nia
  hitRa := if i.stallIn then s.r.hitRa else realAddr i
  hitSmark := if i.stallIn then s.r.hitSmark else i.i.stopMark
  bigEndian := if i.stallIn then s.r.bigEndian else i.i.bigEndian
  predicted := if i.stallIn then s.r.predicted else i.i.predicted
  predNtaken := if i.stallIn then s.r.predNtaken else i.i.predNtaken
  fetchFailed :=
    if i.stallIn then !i.flushIn && s.r.fetchFailed else i.i.fetchFail && !i.flushIn
  stalledHit := stalledHitNext s i
  stalledWay := stalledWayNext s i
  state := stateNext s i
  wb := wbNext s i
  storeWay := if s.r.state == .clrTag then plruVictim s else s.r.storeWay
  storeIndex := if startReload s i then reqIndex i else s.r.storeIndex
  recvRow := recvRowNext s i
  recvValid := reloading s && i.wb.ack
  storeRow := storeRowNext s i
  storeTag := if startReload s i then reqTag i else s.r.storeTag
  storeValid := storeValidNext s i
  endRowIx :=
    if startReload s i then getRowOfLine (getRow g (reqRaddr i)) - 1 else s.r.endRowIx
  rowsValid := rowsValidNext s i

/-- The registers after an edge with reset. -/
def rReset : Reg g :=
  { rNext s i with
    hitValid := false
    stalledHit := false
    stalledWay := 0
    fetchFailed := !i.stallIn && i.i.fetchFail && !i.flushIn
    state := .idle
    wb := { sel := 0xff }
    storeWay := s.r.storeWay
    storeIndex := s.r.storeIndex
    recvRow := s.r.recvRow
    recvValid := false
    storeRow := s.r.storeRow
    storeTag := s.r.storeTag
    storeValid := s.r.storeValid
    endRowIx := s.r.endRowIx
    rowsValid := s.r.rowsValid }

/-! ### Memories -/

/-- The valid bits; of several changes of one bit, the last one in the source counts. -/
def cacheValidsNext (index : g.Index) (way : g.Way) : Bool :=
  if lastStored s && index == s.r.storeIndex && way == s.r.storeWay then
    s.r.storeValid && !i.invalIn
  else if s.r.state == .clrTag && index == s.r.storeIndex && way == plruVictim s then false
  else if i.invalIn then false
  else if s.snoopHits way && index == s.snoopIndex2 then false
  else s.cacheValids index way

def snoopWrite : Bool := i.snoop.cyc && i.snoop.stb && i.snoop.we

def snoopAddr : RealAddr := addrToReal (wbToAddr i.snoop.adr)

/-- The tags are read for the next request. -/
def readTags : Bool := i.flushIn || !i.i.req || (!i.stallIn && !stallOut s i)

def wbRdData : BitVec 64 := if tagEndian g s.r.storeTag then swapWords i.wb.dat else i.wb.dat

def cacheWrData : CacheRow :=
  predecode1 g.hasFpu s.predValid s.pred1 ++
    predecode1 g.hasFpu s.predValid s.pred0

def step : State g where
  r := if i.rst then rReset s i else rNext s i
  cacheTagsSet := fun way =>
    if readTags s i then s.icTags way (getIndex g (nextRaddr i)) else s.cacheTagsSet way
  snoopTagsSet := fun way =>
    if snoopWrite i then s.icTags way (getIndex g (snoopAddr i)) else s.snoopTagsSet way
  tagOverwrite := fun way =>
    if i.rst then false
    else if readTags s i then
      s.r.state == .clrTag && s.r.storeIndex == getIndex g (nextRaddr i) && way == plruVictim s
    else s.tagOverwrite way
  cacheValids := fun index way => if i.rst then false else cacheValidsNext s i index way
  icTags := fun way index =>
    if s.r.state == .clrTag && way == plruVictim s && index == s.r.storeIndex then s.r.storeTag
    else s.icTags way index
  ram := fun way row =>
    if s.r.recvValid && way == s.r.storeWay && row == s.r.storeRow then cacheWrData s
    else s.ram way row
  cacheOut := fun way => if i.stallIn then s.cacheOut way else s.ram way (reqRow i)
  plruRam := fun index =>
    if s.r.hitValid && index == getIndex g s.r.hitRa then Plru.update s.r.hitWay (s.plruRam index)
    else s.plruRam index
  snoopValid := !i.rst && snoopWrite i
  snoopIndex := if i.rst then 0 else getIndex g (snoopAddr i)
  snoopTag := if i.rst then s.snoopTag else getTag g (snoopAddr i) false
  snoopIndex2 := if i.rst then s.snoopIndex2 else s.snoopIndex
  snoopHits := fun way =>
    !i.rst && s.snoopValid && tagAddr g (s.snoopTagsSet way) == tagAddr g s.snoopTag
  pred0 := predecode0 ((wbRdData s i).extractLsb' 0 32)
  pred1 := predecode0 ((wbRdData s i).extractLsb' 32 32)
  predValid := i.wb.ack

end Comb

/-! ### After reset -/

variable {g : Geometry}

/-- What a clock edge with `rst` leaves of any state. -/
structure AfterReset (s : State g) : Prop where
  state : s.r.state = .idle
  cyc : s.r.wb.cyc = false
  stb : s.r.wb.stb = false
  recvValid : s.r.recvValid = false
  valids : ∀ index way, s.cacheValids index way = false

theorem afterReset_step (s : State g) {i : Inputs} (hrst : i.rst = true) :
    AfterReset (step s i) := by
  constructor <;> simp [step, rReset, hrst]

end Icache

end Microwatt
