import Microwatt.Mmu.Basic

/-!
# The MMU's caches: 4k TLB and page walk cache

`mmu.vhdl`, second part: the processes `mmu_tlb_1` and `mmu_pwc_1` with their RAMs. Each register
and each RAM control signal is a function of the state machine's state, collected from the
branches of the source's case statement.

Both RAMs have 64 sets of 8 words. Word 0 of a set holds four 16-bit fields, one for each way,
with the valid bit, the PID and some more; the tags are in words 1 to 3 and the entries
themselves in words 4 to 7.

## Main definitions

* `Mmu.trin`, `Mmu.tlbNext` — the next TLB registers and RAM
* `Mmu.prin`, `Mmu.pwcNext` — the next page walk cache registers and RAM
-/

namespace Microwatt

open Lanes

namespace Mmu

/-! ### RAM access -/

/-- What a state machine does with its RAM in a cycle. -/
structure RamOp where
  doread : Bool
  rdren : Bool
  rdaddr : BitVec 9
  wren : BitVec 4
  wraddr : BitVec 9
  wrdata : BitVec 64

/-- The words of a RAM after a write of the enabled 16-bit fields. -/
def writeWord (words : Words) (op : RamOp) : Words := fun a =>
  if a = op.wraddr then merge 16 op.wren op.wrdata (words a) else words a

/-- The 16-bit field of a word that belongs to a way. -/
def field (word : BitVec 64) (way : ℕ) : BitVec 16 := lane 16 word way

/-- The four copies of a field. -/
def spread (wdat : BitVec 16) : BitVec 64 := wdat ++ wdat ++ wdat ++ wdat

/-- The valid bits of word 0. -/
def validsOf (word : BitVec 64) : BitVec 4 := ofBits 4 fun i => (field word i).getLsbD 15

/-- The way to replace: an invalid one if there is one. -/
def replOf (word : BitVec 64) (victim : BitVec 2) : BitVec 2 :=
  if validsOf word = 0b1111 then victim else findFirstOne (~~~validsOf word)

section

variable (s : State) (l : Loadstore1ToMmu)

/-! ### The 4k TLB: next registers -/

/-- The kind of tlbie: `isf`. -/
def isf : BitVec 2 := l.addr.extractLsb' 10 2

/-- A tlbie without effect on the TLB. -/
def tlbieNoTlb : Bool := l.slbia || l.ric.getLsbD 0

/-- `may_hit`. -/
def tlbMayHit : BitVec 4 :=
  match s.tr.state with
  | .search2 =>
    ofBits 4 fun i =>
      (field s.tlb.rdreg i).getLsbD 15 && (field s.tlb.rdreg i).extractLsb' 0 12 == s.tr.pid &&
        (field s.tlb.rdreg i).extractLsb' 12 2 == s.tr.addr.extractLsb' 6 2
  | .search3 =>
    ofBits 4 fun i =>
      s.tr.mayHit.getLsbD i &&
        (decide (2 ≤ i) || lane 32 s.tlb.rdreg i == s.tr.addr.extractLsb' 8 32)
  | .search4 =>
    ofBits 4 fun i =>
      s.tr.mayHit.getLsbD i &&
        (decide (i < 2) || lane 32 s.tlb.rdreg (i - 2) == s.tr.addr.extractLsb' 8 32)
  | _ => s.tr.mayHit

/-- `is_hit` in `SEARCH3`. -/
def tlbIsHit : Bool := (tlbMayHit s).getLsbD 0 || (tlbMayHit s).getLsbD 1

/-- `hit_way`. -/
def tlbHitWay : BitVec 2 :=
  match s.tr.state with
  | .search3 =>
    if (tlbMayHit s).getLsbD 0 then 0 else if (tlbMayHit s).getLsbD 1 then 1 else s.tr.hitWay
  | .search4 =>
    if s.tr.isTlbie || tlbMayHit s == 0 then s.tr.hitWay
    else if (tlbMayHit s).getLsbD 2 then 2 else 3
  | .waitw => if s.r.wrTlbram then s.tr.replWay else s.tr.hitWay
  | _ => s.tr.hitWay

/-- `tv.state`. -/
def tlbState : TlbState :=
  match s.tr.state with
  | .idle =>
    if !l.valid then .idle
    else if !l.tlbie then .search1
    else if tlbieNoTlb l then .idle
    else if (isf l).getLsbD 1 then .inval2
    else if (isf l).getLsbD 0 then .inval1
    else .search1
  | .search1 => if !s.tr.badEa then .search2 else .idle
  | .search2 => if tlbMayHit s != 0 then .search3 else if !s.tr.isTlbie then .waitw else .idle
  | .search3 =>
    if s.tr.isTlbie then .search4
    else if tlbIsHit s then .rdpte
    else if tlbMayHit s == 0 then .waitw
    else .search4
  | .search4 => if s.tr.isTlbie then .idle else if tlbMayHit s == 0 then .waitw else .rdpte
  | .rdpte => .waitw
  | .waitw => if s.r.wrTlbram then .wrpte1 else if s.r.done || s.r.err then .idle else .waitw
  | .wrpte1 => .wrpte2
  | .wrpte2 => .idle
  | .inval1 => .inval2
  | .inval2 => if s.tr.wrHash == 0x3f then .idle else .inval2

/-- The hash of the request. -/
def tlbHash : BitVec 6 := addrHash4k l.addr (requestPid l s.r.pid)

def trin : TlbReg where
  state := tlbState s l
  addr := if s.tr.state = .idle then l.addr.extractLsb' 12 40 else s.tr.addr
  badEa := if s.tr.state = .idle then badEa l.addr && !l.tlbie else s.tr.badEa
  pid := if s.tr.state = .idle then requestPid l s.r.pid else s.tr.pid
  hash4k :=
    match s.tr.state with
    | .idle =>
      if l.valid && l.tlbie && !tlbieNoTlb l && !(isf l).getLsbD 1 && (isf l).getLsbD 0 then 0
      else tlbHash s l
    | .inval1 => 1
    | .inval2 => s.tr.hash4k + 1
    | _ => s.tr.hash4k
  isTlbie := if s.tr.state = .idle then l.tlbie else s.tr.isTlbie
  mayHit := tlbMayHit s
  hit :=
    match s.tr.state with
    | .idle => s.tr.hit && !l.valid
    | .rdpte => true
    | _ => s.tr.hit
  miss :=
    match s.tr.state with
    | .idle => s.tr.miss && !l.valid
    | .search1 => s.tr.miss || s.tr.badEa
    | .search2 => s.tr.miss || tlbMayHit s == 0
    | .search3 => s.tr.miss || (!s.tr.isTlbie && !tlbIsHit s && tlbMayHit s == 0)
    | .search4 => s.tr.miss || (!s.tr.isTlbie && tlbMayHit s == 0)
    | _ => s.tr.miss
  hitWay := tlbHitWay s
  replWay :=
    match s.tr.state with
    | .search2 => replOf s.tlb.rdreg (Plru.lru (s.tlb.plru s.tr.hash4k))
    | .rdpte => s.tr.hitWay
    | _ => s.tr.replWay
  updatePlru :=
    match s.tr.state with
    | .rdpte => true
    | .waitw => s.r.wrTlbram
    | _ => false
  tlbieDone :=
    match s.tr.state with
    | .idle => if l.valid then l.tlbie && tlbieNoTlb l else s.tr.tlbieDone
    | .search1 => if s.tr.badEa then s.tr.isTlbie else s.tr.tlbieDone
    | .search2 => s.tr.tlbieDone || (s.tr.isTlbie && tlbMayHit s == 0)
    | .search4 => s.tr.tlbieDone || s.tr.isTlbie
    | .inval2 => s.tr.tlbieDone || s.tr.wrHash == 0x3f
    | _ => s.tr.tlbieDone
  invalAll :=
    if s.tr.state = .idle && l.valid then l.tlbie && !tlbieNoTlb l && (isf l).getLsbD 1
    else s.tr.invalAll
  wrHash :=
    match s.tr.state with
    | .idle =>
      if l.valid && l.tlbie && !tlbieNoTlb l && (isf l).getLsbD 1 then 0 else tlbHash s l
    | .inval1 => 0
    | .inval2 => s.tr.wrHash + 1
    | _ => s.tr.wrHash

/-! ### The 4k TLB: RAM -/

def tlbIdx : BitVec 3 :=
  match s.tr.state with
  | .search1 => 1
  | .search2 => 2
  | .search3 => if !s.tr.isTlbie && tlbIsHit s then 1#1 ++ tlbHitWay s else 0
  | .search4 => if !s.tr.isTlbie && tlbMayHit s != 0 then 1#1 ++ tlbHitWay s else 0
  | .wrpte1 => 0#1 ++ s.tr.replWay.extractLsb' 1 1 ++ ~~~(s.tr.replWay.extractLsb' 1 1)
  | .wrpte2 => 1#1 ++ s.tr.replWay
  | _ => 0

/-- The ways whose entry is of the PID to be invalidated. -/
def tlbPidMatch : BitVec 4 :=
  ofBits 4 fun i =>
    (field s.tlb.rdreg i).getLsbD 15 && (field s.tlb.rdreg i).extractLsb' 0 12 == s.tr.pid

def tlbOp : RamOp where
  doread :=
    match s.tr.state with
    | .idle => l.valid && (!l.tlbie || (!tlbieNoTlb l && !(isf l).getLsbD 1))
    | .search1 => true
    | .search2 => tlbMayHit s != 0
    | .search3 => !s.tr.isTlbie && tlbIsHit s
    | .search4 => !s.tr.isTlbie && tlbMayHit s != 0
    | .inval1 => true
    | .inval2 => !s.tr.invalAll
    | _ => false
  rdren :=
    match s.tr.state with
    | .search1 => true
    | .search2 => tlbMayHit s != 0
    | .search3 => s.tr.isTlbie || (!tlbIsHit s && tlbMayHit s != 0)
    | .rdpte => true
    | .inval1 => true
    | .inval2 => !s.tr.invalAll
    | _ => false
  rdaddr := (trin s l).hash4k ++ tlbIdx s
  wren :=
    match s.tr.state with
    | .search4 => if s.tr.isTlbie then tlbMayHit s else 0
    | .waitw => if s.r.wrTlbram then onehot s.tr.replWay else 0
    | .wrpte1 => if s.tr.replWay.getLsbD 0 then 0b1100 else 0b0011
    | .wrpte2 => 0b1111
    | .inval2 => if s.tr.invalAll then 0b1111 else tlbPidMatch s
    | _ => 0
  wraddr := s.tr.wrHash ++ tlbIdx s
  wrdata :=
    match s.tr.state with
    | .waitw => spread (0b10#2 ++ s.tr.addr.extractLsb' 6 2 ++ s.tr.pid)
    | .wrpte1 => s.tr.addr.extractLsb' 8 32 ++ s.tr.addr.extractLsb' 8 32
    | .wrpte2 => s.r.pde
    | _ => 0

/-- The TLB RAM and its PLRU bits after the edge. -/
def tlbNext : Ram where
  words := writeWord s.tlb.words (tlbOp s l)
  rddata := if (tlbOp s l).doread then s.tlb.words (tlbOp s l).rdaddr else s.tlb.rddata
  rdreg := if (tlbOp s l).rdren then s.tlb.rddata else s.tlb.rdreg
  plru :=
    if s.tr.updatePlru then
      Function.update s.tlb.plru s.tr.hash4k
        (Plru.update s.tr.hitWay (s.tlb.plru s.tr.hash4k))
    else s.tlb.plru
  plruCur := s.tlb.plruCur

/-! ### The page walk cache: next registers -/

/-- The ways with a valid entry of the given level for the PID. -/
def pwcMatch (word : BitVec 64) (pid : BitVec 12) (level : BitVec 2) : BitVec 4 :=
  ofBits 4 fun i =>
    (field word i).getLsbD 15 && (field word i).extractLsb' 0 12 == pid &&
      (field word i).extractLsb' 12 2 == level

/-- The ways of one tag word of the 2M group that still may hit. -/
def refine2M (mayHit : BitVec 4) (word : BitVec 64) (first : ℕ) (tag : BitVec 25) : BitVec 4 :=
  ofBits 4 fun i =>
    mayHit.getLsbD i &&
      (decide (i < first ∨ first + 2 ≤ i) || word.extractLsb' ((i - first) * 32 + 7) 25 == tag)

/-- `may_hit_2M`. The last step of a 2M page invalidation compares with the walk's address. -/
def pwcMayHit2M : BitVec 4 :=
  match s.pr.state with
  | .search2M0 => pwcMatch s.pwc.rdreg s.pr.pid 0
  | .search2M1 => refine2M s.pr.mayHit2M s.pwc.rdreg 0 (s.pr.addr.extractLsb' 6 25)
  | .search2M2 => refine2M s.pr.mayHit2M s.pwc.rdreg 2 (s.pr.addr.extractLsb' 6 25)
  | .inval2M0 =>
    ofBits 4 fun i =>
      (field s.pwc.rdreg i).extractLsb' 12 4 == 0b1100 &&
        (field s.pwc.rdreg i).extractLsb' 0 12 == s.pr.pid
  | .inval2M1 => refine2M s.pr.mayHit2M s.pwc.rdreg 0 (s.pr.addr.extractLsb' 6 25)
  | .inval2M2 => refine2M s.pr.mayHit2M s.pwc.rdreg 2 (s.r.addr.extractLsb' 6 25)
  | _ => s.pr.mayHit2M

def pwcMayHit1G : BitVec 4 :=
  match s.pr.state with
  | .search1G0 => pwcMatch s.pwc.rdreg s.pr.pid 1
  | .search1G3 =>
    ofBits 4 fun i =>
      s.pr.mayHit1G.getLsbD i && field s.pwc.rdreg i == s.pr.addr.extractLsb' 15 16
  | _ => s.pr.mayHit1G

def pwcMayHit512G : BitVec 4 :=
  match s.pr.state with
  | .searchHT0 => pwcMatch s.pwc.rdreg s.pr.pid 2
  | .searchHT3 =>
    ofBits 4 fun i =>
      s.pr.mayHit512G.getLsbD i &&
        (field s.pwc.rdreg i).extractLsb' 9 7 == s.pr.addr.extractLsb' 24 7
  | _ => s.pr.mayHit512G

def pwcMissed2M : Bool :=
  match s.pr.state with
  | .idle => false
  | .search2M0 | .search2M1 | .search2M2 => s.pr.missed2M || pwcMayHit2M s == 0
  | _ => s.pr.missed2M

def pwcMissed1G : Bool :=
  match s.pr.state with
  | .idle => false
  | .search1G0 | .search1G3 => s.pr.missed1G || pwcMayHit1G s == 0
  | _ => s.pr.missed1G

def pwcMissed512G : Bool :=
  match s.pr.state with
  | .idle => false
  | .searchHT0 => s.pr.missed512G || pwcMayHit512G s == 0
  | _ => s.pr.missed512G

/-- The search ends with a miss in this cycle. -/
def pwcMissNow : Bool :=
  match s.pr.state with
  | .search1 => s.pr.badEa
  | .search1G3 => pwcMayHit1G s == 0 && s.pr.missed512G
  | .searchHT0 => pwcMissed512G s && s.pr.missed1G
  | .searchHT3 => pwcMayHit512G s == 0
  | _ => false

/-- The search ends with a hit in this cycle, and the entry is read next. -/
def pwcHitNow : Bool :=
  match s.pr.state with
  | .search2M2 => pwcMayHit2M s != 0
  | .search1G3 => pwcMayHit1G s != 0
  | .searchHT3 => pwcMayHit512G s != 0
  | _ => false

/-- The way `rway` to be written in `WAITW`. -/
def pwcReplWay : BitVec 2 :=
  if s.r.rereadpte then s.pr.selWay
  else if s.r.pwcLevel = 0 then s.pr.replWay2M
  else if s.r.pwcLevel = 1 then s.pr.replWay1G
  else s.pr.replWayHT

/-- The set to be written in `WAITW`. -/
def pwcReplHash : BitVec 6 :=
  if s.r.rereadpte then s.pr.hash2M
  else if s.r.pwcLevel = 0 then s.pr.hash2M
  else if s.r.pwcLevel = 1 then s.pr.hash1G
  else s.pr.hash512G

def pwcSelWay : BitVec 2 :=
  match s.pr.state with
  | .search2M2 => if pwcHitNow s then findFirstOne (pwcMayHit2M s) else s.pr.selWay
  | .search1G3 => if pwcHitNow s then findFirstOne (pwcMayHit1G s) else s.pr.selWay
  | .searchHT3 => if pwcHitNow s then findFirstOne (pwcMayHit512G s) else s.pr.selWay
  | .waitw => if s.r.wrPwcram then pwcReplWay s else s.pr.selWay
  | _ => s.pr.selWay

/-- What a tlbie asks of the page walk cache. -/
inductive PwcTlbie
  | none | all | scan | page2M
  deriving DecidableEq, Repr

/-- `inval_pdes` of a request. -/
def tlbiePdes : Bool := l.tlbie && (l.ric.getLsbD 0 || l.ric.getLsbD 1)

/-- The kind of tlbie, as the page walk cache decodes it. -/
def pwcTlbie : PwcTlbie :=
  if l.slbia then .none
  else if (isf l).getLsbD 1 && tlbiePdes l then .all
  else if (isf l).getLsbD 1 || (isf l).getLsbD 0 then .scan
  else if l.addr.extractLsb' 5 3 = 1 then .page2M
  else .none

/-- `pv.state`, before a finished walk forces it to `IDLE`. -/
def pwcState : PwcState :=
  match s.pr.state with
  | .idle =>
    if !l.valid then .idle
    else if !l.tlbie then .search1
    else
      match pwcTlbie l with
      | .none => .idle
      | .all => .inval2
      | .scan => .inval1
      | .page2M => .inval2M
  | .search1 => if !s.pr.badEa then .search2M0 else .idle
  | .search2M0 => .search1G0
  | .search2M1 => s.pr.nextState
  | .search2M2 => if pwcHitNow s then .rdpde else s.pr.nextState
  | .search1G0 => s.pr.nextState
  | .search1G3 =>
    if pwcHitNow s then .rdpde else if pwcMissNow s then .waitw else s.pr.nextState
  | .searchHT0 => if pwcMissNow s then .waitw else s.pr.nextState
  | .searchHT3 => if pwcHitNow s then .rdpde else .waitw
  | .rdpde => .waitw
  | .waitw =>
    if s.r.wrPwcram then if s.r.pwcLevel = 0 then .wrpte12M else .wrpte1W3
    else .waitw
  | .wrpte12M => .wrpte2
  | .wrpte1W3 => .wrpte2
  | .wrpte2 => if s.pr.wrLeaf then .idle else .waitw
  | .inval1 => .inval2
  | .inval2 => if s.pr.regHash == 0x3f then .idle else .inval2
  | .inval2M => .inval2M0
  | .inval2M0 => .inval2M1
  | .inval2M1 => .inval2M2
  | .inval2M2 => .idle

def pwcNextState : PwcState :=
  match s.pr.state with
  | .idle => if l.valid && !l.tlbie then .search2M0 else .idle
  | .search2M0 => if pwcMayHit2M s != 0 then .search2M1 else .searchHT0
  | .search2M1 => if !s.pr.missed1G then .search1G3 else .searchHT0
  | .search2M2 =>
    if pwcHitNow s then s.pr.nextState
    else if !s.pr.missed1G then .searchHT0
    else .searchHT3
  | .search1G0 =>
    if !s.pr.missed2M then .search2M2
    else if !pwcMissed1G s then .search1G3
    else .searchHT0
  | .searchHT0 => if pwcMayHit512G s != 0 then .searchHT3 else s.pr.nextState
  | _ => s.pr.nextState

def pwcRdHash : BitVec 6 :=
  match s.pr.state with
  | .idle =>
    if l.valid && l.tlbie && (pwcTlbie l == .all || pwcTlbie l == .scan) then 0
    else addrHash2M l.addr (requestPid l s.r.pid)
  | .search1 => s.pr.hash1G
  | .search2M0 => if pwcMayHit2M s != 0 then s.pr.hash2M else s.pr.hash512G
  | .search2M1 => if !s.pr.missed1G then s.pr.hash1G else s.pr.hash512G
  | .search2M2 => if pwcHitNow s then s.pr.hash2M else s.pr.hash512G
  | .search1G0 =>
    if !s.pr.missed2M then s.pr.hash2M
    else if !pwcMissed1G s then s.pr.hash1G
    else s.pr.hash512G
  | .search1G3 => if pwcHitNow s then s.pr.hash1G else s.pr.rdHash
  | .searchHT0 => if pwcMayHit512G s != 0 then s.pr.hash512G else s.pr.rdHash
  | .searchHT3 => if pwcHitNow s then s.pr.hash512G else s.pr.rdHash
  | .waitw => if s.r.wrPwcram then pwcReplHash s else s.pr.rdHash
  | .inval1 => 1
  | .inval2 => s.pr.rdHash + 1
  | _ => s.pr.rdHash

def pwcRdren : Bool :=
  match s.pr.state with
  | .search1 | .search2M0 | .search2M1 | .search1G0 | .rdpde => true
  | .search2M2 => !pwcHitNow s
  | .search1G3 => !pwcHitNow s && !pwcMissNow s
  | .searchHT0 => !pwcMissNow s
  | .inval1 | .inval2M | .inval2M0 | .inval2M1 => true
  | .inval2 => !s.pr.invalAll
  | _ => false

def prin : PwcReg where
  state := if s.r.done || s.r.err then .idle else pwcState s l
  nextState := pwcNextState s l
  addr := if s.pr.state = .idle then l.addr.extractLsb' 21 31 else s.pr.addr
  pid := if s.pr.state = .idle then requestPid l s.r.pid else s.pr.pid
  badEa := if s.pr.state = .idle then badEa l.addr && !l.tlbie else s.pr.badEa
  hash2M :=
    if s.pr.state = .idle then addrHash2M l.addr (requestPid l s.r.pid) else s.pr.hash2M
  hash1G :=
    if s.pr.state = .idle then addrHash1G l.addr (requestPid l s.r.pid) else s.pr.hash1G
  hash512G :=
    if s.pr.state = .idle then addrHash512G l.addr (requestPid l s.r.pid) else s.pr.hash512G
  isTlbie := if s.pr.state = .idle then l.tlbie else s.pr.isTlbie
  mayHit2M := pwcMayHit2M s
  mayHit1G := pwcMayHit1G s
  mayHit512G := pwcMayHit512G s
  missed2M := pwcMissed2M s
  missed1G := pwcMissed1G s
  missed512G := pwcMissed512G s
  hit :=
    match s.pr.state with
    | .idle => s.pr.hit && !l.valid
    | .rdpde => true
    | _ => s.pr.hit
  miss :=
    match s.pr.state with
    | .idle => s.pr.miss && !l.valid
    | _ => s.pr.miss || pwcMissNow s
  hitSize :=
    match s.pr.state with
    | .search2M2 => if pwcHitNow s then 0 else s.pr.hitSize
    | .search1G3 => if pwcHitNow s then 1 else s.pr.hitSize
    | .searchHT3 => if pwcHitNow s then 2 else s.pr.hitSize
    | _ => s.pr.hitSize
  selWay := pwcSelWay s
  replWay2M :=
    if s.pr.state = .search2M0 then replOf s.pwc.rdreg (Plru.lru s.pwc.plruCur)
    else s.pr.replWay2M
  replWay1G :=
    if s.pr.state = .search1G0 then replOf s.pwc.rdreg (Plru.lru s.pwc.plruCur)
    else s.pr.replWay1G
  replWayHT :=
    if s.pr.state = .searchHT0 then replOf s.pwc.rdreg (Plru.lru s.pwc.plruCur)
    else s.pr.replWayHT
  wrLeaf := if s.pr.state = .waitw then s.r.pde.getLsbD 62 else s.pr.wrLeaf
  wrLevel := if s.pr.state = .waitw then s.r.pwcLevel else s.pr.wrLevel
  updatePlru :=
    match s.pr.state with
    | .rdpde => true
    | .waitw => s.r.wrPwcram
    | _ => false
  tlbieDone :=
    match s.pr.state with
    | .idle => if l.valid then l.tlbie && pwcTlbie l == .none else s.pr.tlbieDone
    | .inval2 => s.pr.tlbieDone || s.pr.regHash == 0x3f
    | .inval2M2 => true
    | _ => s.pr.tlbieDone
  invalAll :=
    if s.pr.state = .idle && l.valid then l.tlbie && pwcTlbie l == .all else s.pr.invalAll
  invalPdes := if s.pr.state = .idle && l.valid then tlbiePdes l else s.pr.invalPdes
  invalPid :=
    if s.pr.state = .idle && l.valid then
      l.tlbie && pwcTlbie l == .scan && !(isf l).getLsbD 1
    else s.pr.invalPid
  rdHash := pwcRdHash s l
  regHash :=
    if pwcRdren s then s.pr.rdHash
    else
      match s.pr.state with
      | .idle => if l.valid && l.tlbie && pwcTlbie l == .all then 0 else s.pr.regHash
      | .inval2 => if s.pr.invalAll then s.pr.rdHash else s.pr.regHash
      | _ => s.pr.regHash

/-! ### The page walk cache: RAM -/

def pwcIdx : BitVec 3 :=
  match s.pr.state with
  | .search2M0 => if pwcMayHit2M s != 0 then 1 else 0
  | .search2M1 => if !s.pr.missed1G then 3 else 0
  | .search2M2 => if pwcHitNow s then 1#1 ++ pwcSelWay s else if !s.pr.missed1G then 0 else 3
  | .search1G0 => if !s.pr.missed2M then 2 else if !pwcMissed1G s then 3 else 0
  | .search1G3 => if pwcHitNow s then 1#1 ++ pwcSelWay s else 0
  | .searchHT0 => if pwcMayHit512G s != 0 then 3 else 0
  | .searchHT3 => if pwcHitNow s then 1#1 ++ pwcSelWay s else 0
  | .waitw => if s.r.wrPwcram then 1#1 ++ pwcReplWay s else 0
  | .wrpte12M => 0#1 ++ s.pr.selWay.extractLsb' 1 1 ++ ~~~(s.pr.selWay.extractLsb' 1 1)
  | .wrpte1W3 => 3
  | .inval2M => 1
  | .inval2M0 => 2
  | _ => 0

/-- The ways to be invalidated by a scan. -/
def pwcScanMatch : BitVec 4 :=
  ofBits 4 fun i =>
    (field s.pwc.rdreg i).getLsbD 15 &&
      ((field s.pwc.rdreg i).getLsbD 14 || s.pr.invalPdes) &&
      ((field s.pwc.rdreg i).extractLsb' 0 12 == s.pr.pid || !s.pr.invalPid)

def pwcWrHash : BitVec 6 :=
  match s.pr.state with
  | .waitw => pwcReplHash s
  | .wrpte12M | .wrpte1W3 | .wrpte2 => s.pr.rdHash
  | .inval2 => s.pr.regHash
  | .inval2M2 => s.pr.hash2M
  | _ => 0

def pwcOp : RamOp where
  doread :=
    match s.pr.state with
    | .idle => l.valid && (!l.tlbie || pwcTlbie l == .scan || pwcTlbie l == .page2M)
    | .search1 | .search2M0 | .search2M1 | .search2M2 | .search1G0 => true
    | .search1G3 | .searchHT3 => pwcHitNow s
    | .searchHT0 => pwcMayHit512G s != 0
    | .inval1 | .inval2M | .inval2M0 => true
    | .inval2 => !s.pr.invalAll
    | _ => false
  rdren := pwcRdren s
  rdaddr := pwcRdHash s l ++ pwcIdx s
  wren :=
    match s.pr.state with
    | .waitw => if s.r.wrPwcram then 0b1111 else 0
    | .wrpte12M => if s.pr.selWay.getLsbD 0 then 0b1100 else 0b0011
    | .wrpte1W3 | .wrpte2 => onehot s.pr.selWay
    | .inval2 => if s.pr.invalAll then 0b1111 else pwcScanMatch s
    | .inval2M2 => pwcMayHit2M s
    | _ => 0
  wraddr := pwcWrHash s ++ pwcIdx s
  wrdata :=
    match s.pr.state with
    | .waitw => s.r.pde
    | .wrpte12M => s.pr.addr ++ 0#1 ++ s.pr.addr ++ 0#1
    | .wrpte1W3 => spread (s.pr.addr.extractLsb' 15 16)
    | .wrpte2 => spread (1#1 ++ BitVec.ofBool s.pr.wrLeaf ++ s.pr.wrLevel ++ s.pr.pid)
    | _ => 0

/-- The page walk cache RAM and its PLRU bits after the edge. -/
def pwcNext : Ram where
  words := writeWord s.pwc.words (pwcOp s l)
  rddata := if (pwcOp s l).doread then s.pwc.words (pwcOp s l).rdaddr else s.pwc.rddata
  rdreg := if (pwcOp s l).rdren then s.pwc.rddata else s.pwc.rdreg
  plru :=
    if s.pr.updatePlru then
      Function.update s.pwc.plru s.pr.rdHash (Plru.update s.pr.selWay s.pwc.plruCur)
    else s.pwc.plru
  plruCur := s.pwc.plru s.pr.rdHash

end

end Mmu

end Microwatt
