import Microwatt.Interfaces
import Microwatt.Plru

/-!
# The radix MMU: registers and functions

`mmu.vhdl`, first part: the registers of its three state machines (the walk, the 4k TLB and the
page walk cache), the small functions they share and the address arithmetic of the walk.

## Main definitions

* `Mmu.Walk`, `Mmu.TlbReg`, `Mmu.PwcReg` — `reg_stage_t`, `mmu_tlb_reg_t`, `mmu_pwc_reg_t`
* `Mmu.State`, `Mmu.Inputs` — all registers and memories, and the input ports
* `Mmu.checkPermC` — the permission check
* `Mmu.addrShifter`, `Mmu.addrMask`, `Mmu.finalMask` — index extraction
* `Mmu.prtableAddr`, `Mmu.pgtableAddr`, `Mmu.pteOf` — addresses and the PTE for the L1 TLBs
-/

namespace Microwatt

namespace Mmu

/-! ### Registers -/

/-- `state_t`. -/
inductive WalkState
  | idle | doTlbie | partTblRead | partTblWait | procTblRead | procTblWait | segmentCheck
  | tlbWait | radixLookup | radixReadWait | radixLoadTlb | radixFinish
  deriving DecidableEq, Repr

/-- `reg_stage_t`. -/
structure Walk where
  iside : Bool := false
  store : Bool := false
  priv : Bool := false
  addr : BitVec 64 := 0
  invalAll : Bool := false
  ptcr : BitVec 64 := 0
  pid : BitVec 12 := 0
  state : WalkState := .idle
  done : Bool := false
  err : Bool := false
  prtbl : BitVec 64 := 0
  ptbValid : Bool := false
  pgtbl0 : BitVec 64 := 0
  pt0Valid : Bool := false
  pgtbl3 : BitVec 64 := 0
  pt3Valid : Bool := false
  shift : BitVec 6 := 0
  maskSize : BitVec 5 := 0
  pgbase : BitVec 56 := 0
  pde : BitVec 64 := 0
  invalid : Bool := false
  badtree : Bool := false
  segerror : Bool := false
  permErr : Bool := false
  rcError : Bool := false
  tlbieReq : Bool := false
  isMtspr : Bool := false
  rereadpte : Bool := false
  wrTlbram : Bool := false
  wrPwcram : Bool := false
  pwcLevel : BitVec 2 := 0
  deriving DecidableEq, Repr

inductive TlbState
  | idle | search1 | search2 | search3 | search4 | rdpte | waitw | wrpte1 | wrpte2
  | inval1 | inval2
  deriving DecidableEq, Repr

/-- `mmu_tlb_reg_t`, with the values of `mmu_tlb_reg_init`. -/
structure TlbReg where
  state : TlbState := .idle
  addr : BitVec 40 := 0
  badEa : Bool := false
  pid : BitVec 12 := 0
  hash4k : BitVec 6 := 0
  isTlbie : Bool := false
  mayHit : BitVec 4 := 0
  hit : Bool := false
  miss : Bool := false
  hitWay : BitVec 2 := 0
  replWay : BitVec 2 := 0
  updatePlru : Bool := false
  tlbieDone : Bool := false
  invalAll : Bool := false
  wrHash : BitVec 6 := 0
  deriving DecidableEq, Repr

inductive PwcState
  | idle | search1 | search2M0 | search2M1 | search2M2 | search1G0 | search1G3 | searchHT0
  | searchHT3 | rdpde | waitw | wrpte12M | wrpte1W3 | wrpte2 | inval1 | inval2 | inval2M
  | inval2M0 | inval2M1 | inval2M2
  deriving DecidableEq, Repr

/-- `mmu_pwc_reg_t`, with the values of `mmu_pwc_reg_init`. -/
structure PwcReg where
  state : PwcState := .inval2
  nextState : PwcState := .idle
  addr : BitVec 31 := 0
  pid : BitVec 12 := 0
  badEa : Bool := false
  hash2M : BitVec 6 := 0
  hash1G : BitVec 6 := 0
  hash512G : BitVec 6 := 0
  isTlbie : Bool := false
  mayHit2M : BitVec 4 := 0
  mayHit1G : BitVec 4 := 0
  mayHit512G : BitVec 4 := 0
  missed2M : Bool := false
  missed1G : Bool := false
  missed512G : Bool := false
  hit : Bool := false
  miss : Bool := false
  hitSize : BitVec 2 := 0
  selWay : BitVec 2 := 0
  replWay2M : BitVec 2 := 0
  replWay1G : BitVec 2 := 0
  replWayHT : BitVec 2 := 0
  wrLeaf : Bool := false
  wrLevel : BitVec 2 := 0
  updatePlru : Bool := false
  tlbieDone : Bool := false
  invalAll : Bool := true
  invalPdes : Bool := false
  invalPid : Bool := false
  rdHash : BitVec 6 := 0
  regHash : BitVec 6 := 0
  deriving DecidableEq, Repr

/-- The words of a RAM. -/
abbrev Words := BitVec 9 → BitVec 64

/-- A 512 × 64 bit RAM with a two-stage read port, the PLRU bits of its 64 sets, and for the page
walk cache the registered PLRU read. -/
structure Ram where
  words : Words
  rddata : BitVec 64
  rdreg : BitVec 64
  plru : BitVec 6 → Plru.Tree 2
  plruCur : Plru.Tree 2

/-- All registers and memories of the MMU. -/
structure State where
  r : Walk
  tr : TlbReg
  tlb : Ram
  pr : PwcReg
  pwc : Ram

structure Inputs where
  rst : Bool := false
  l : Loadstore1ToMmu := {}
  d : DcacheToMmu := {}

/-! ### Functions -/

section

variable (ea : BitVec 64) (pid : BitVec 12)

def addrHash4k : BitVec 6 :=
  ea.extractLsb' 12 6 ^^^ ea.extractLsb' 18 6 ^^^ ea.extractLsb' 46 6 ^^^ pid.extractLsb' 0 6

def addrHash2M : BitVec 6 :=
  ea.extractLsb' 21 6 ^^^ ea.extractLsb' 27 6 ^^^ ea.extractLsb' 46 6 ^^^ pid.extractLsb' 0 6 ^^^
    pid.extractLsb' 6 6 ^^^ 0x09

def addrHash1G : BitVec 6 :=
  ea.extractLsb' 30 6 ^^^ ea.extractLsb' 36 6 ^^^ ea.extractLsb' 46 6 ^^^ pid.extractLsb' 0 6 ^^^
    pid.extractLsb' 6 6 ^^^ 0x12

def addrHash512G : BitVec 6 :=
  ea.extractLsb' 39 6 ^^^ ea.extractLsb' 46 6 ^^^ pid.extractLsb' 0 6 ^^^ pid.extractLsb' 6 6 ^^^
    0x24

end

def findFirstOne (x : BitVec 4) : BitVec 2 :=
  if x.getLsbD 0 then 0 else if x.getLsbD 1 then 1 else if x.getLsbD 2 then 2 else 3

/-- A vector with one bit set. -/
def onehot (way : BitVec 2) : BitVec 4 := BitVec.twoPow 4 way.toNat

def checkPermC (pte : BitVec 64) (priv iside store cbit : Bool) : Bool :=
  (priv || !pte.getLsbD 3) &&
    if !iside then
      if !store then pte.getLsbD 1 || pte.getLsbD 2 else pte.getLsbD 1 && cbit
    else pte.getLsbD 0 && !pte.getLsbD 5

/-- The tables in memory are big-endian. -/
def byteSwap (data : BitVec 64) : BitVec 64 := Lanes.ofBytes 64 fun i => Lanes.byte data (7 - i)

/-- An effective address outside the 52-bit space that the caches cover. -/
def badEa (addr : BitVec 64) : Bool :=
  addr.extractLsb' 52 10 != 0 || (addr.getLsbD 63 != addr.getLsbD 62)

/-- The PID a request is for: tlbie takes it from RS, and only the quadrants 0 and 3 exist. -/
def requestPid (l : Loadstore1ToMmu) (pid : BitVec 12) : BitVec 12 :=
  if l.tlbie then l.rs.extractLsb' 32 12 else if !l.addr.getLsbD 63 then pid else 0

/-! ### Address arithmetic of the walk -/

/-- `addrsh`: address bits 61 to 12, shifted right, the low 16 bits of the result. -/
def addrShifter (addr : BitVec 64) (shift : BitVec 6) : BitVec 16 :=
  let sh1 : BitVec 31 :=
    if shift.extractLsb' 4 2 = 0 then addr.extractLsb' 12 31
    else if shift.extractLsb' 4 2 = 1 then addr.extractLsb' 28 31
    else 0#13 ++ addr.extractLsb' 44 18
  let sh2 : BitVec 19 := sh1.extractLsb' (4 * (shift.extractLsb' 2 2).toNat) 19
  sh2.extractLsb' (shift.extractLsb' 0 2).toNat 16

/-- `mask`. -/
def addrMask (maskSize : BitVec 5) : BitVec 16 :=
  Lanes.ofBits 16 fun i => decide (i < 5) || decide (i < maskSize.toNat)

def finalMask (shift : BitVec 6) : BitVec 44 := Lanes.ofBits 44 fun i => decide (i < shift.toNat)

def effpid (addr : BitVec 64) (pid : BitVec 12) : BitVec 12 := if addr.getLsbD 63 then 0 else pid

/-- `prtable_addr`: the first doubleword of the process table entry. -/
def prtableAddr (prtbl : BitVec 64) (shift : BitVec 6) (effpid : BitVec 12) : BitVec 64 :=
  let fm := (finalMask shift).extractLsb' 0 4
  0#8 ++ prtbl.extractLsb' 16 40 ++
    ((prtbl.extractLsb' 12 4 &&& ~~~fm) ||| (effpid.extractLsb' 8 4 &&& fm)) ++
    effpid.extractLsb' 0 8 ++ 0#4

/-- `pgtable_addr`: the entry of a page directory or table. -/
def pgtableAddr (pgbase : BitVec 56) (maskSize : BitVec 5) (shift : BitVec 6)
    (addr : BitVec 64) : BitVec 64 :=
  let mask := addrMask maskSize
  0#8 ++ pgbase.extractLsb' 19 37 ++
    ((pgbase.extractLsb' 3 16 &&& ~~~mask) ||| (addrShifter addr shift &&& mask)) ++ 0#3

/-- `pte`: what is loaded into the L1 TLBs, 4k at a time. -/
def pteOf (pde : BitVec 64) (shift : BitVec 6) (addr : BitVec 64) : BitVec 64 :=
  let fm := finalMask shift
  0#8 ++ ((pde.extractLsb' 12 44 &&& ~~~fm) ||| (addr.extractLsb' 12 44 &&& fm)) ++
    pde.extractLsb' 0 12

/-- The address of the partition table doubleword with the process table pointer. -/
def parttableAddr (ptcr : BitVec 64) : BitVec 64 := 0#8 ++ ptcr.extractLsb' 12 44 ++ 8#12

/-- The radix tree size of a process table entry. -/
def rtsOf (pgtbl : BitVec 64) : BitVec 6 := 0#1 ++ pgtbl.extractLsb' 61 2 ++ pgtbl.extractLsb' 5 3

/-- The base of the table a directory entry points to. -/
def baseOf (pde : BitVec 64) : BitVec 56 := pde.extractLsb' 8 48 ++ 0#8

/-- The index size of the table a directory entry points to, as a 6-bit number. -/
def mbitsOf (pde : BitVec 64) : BitVec 6 := 0#1 ++ pde.extractLsb' 0 5

end Mmu

end Microwatt
