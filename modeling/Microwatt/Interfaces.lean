import Microwatt.Common

/-!
# The interfaces of the load/store units

The records that execute1, loadstore1, the data cache, the MMU and writeback exchange, and the
wishbone signals of the data cache, field by field as `common.vhdl` and `wishbone_types.vhdl` have
them. Signals of the performance monitor are left out. The last two are those of the interrupt
controller.

## Main definitions

* `InsnType`, and the records on the wires between units
-/

namespace Microwatt

inductive InsnType
  | illegal | nop | add
  | attn | b | bc | bcreg
  | bperm | bsort | cmp
  | compute
  | countb
  | darn | dcbf | dcbst | dcbz
  | icbi | icbt
  | fpCmp | fpArith | fpMove | fpMisc
  | div | dive | mod
  | isync
  | load | store
  | mcrxrx | mfmsr | mfspr
  | msg
  | mtcrf | mtmsrd | mtspr | mulL64
  | mulH64 | mulH32
  | rfid
  | sc
  | sync | tlbie | trap
  | wait
  | fetchFailed
  deriving DecidableEq, Repr

structure XerCommon where
  ca : Bool := false
  ca32 : Bool := false
  ov : Bool := false
  ov32 : Bool := false
  so : Bool := false
  deriving DecidableEq, Repr

/-- `Execute1ToLoadstore1Type`, with the values of `Execute1ToLoadstore1Init`. The field `msr` is
not read by loadstore1. -/
structure Execute1ToLoadstore1 where
  valid : Bool := false
  op : InsnType := .illegal
  insn : BitVec 32 := 0
  instrTag : InstrTag := instrTagInit
  addr1 : BitVec 64 := 0
  addr2 : BitVec 64 := 0
  data : BitVec 64 := 0
  writeReg : GsprIndex := 0
  length : BitVec 4 := 0
  ci : Bool := false
  byteReverse : Bool := false
  signExtend : Bool := false
  update : Bool := false
  hash : Bool := false
  xerc : XerCommon := {}
  reserve : Bool := false
  rc : Bool := false
  virtMode : Bool := false
  privMode : Bool := false
  mode32bit : Bool := false
  is32bit : Bool := false
  prefixed : Bool := false
  repeat_ : Bool := false
  second : Bool := false
  e2stall : Bool := false
  hashkey : BitVec 64 := 0
  hashEnable : Bool := false

/-- `Loadstore1ToDcacheType`, with the values of `Loadstore1ToDcacheInit`. `data` and `dawrMatch`
belong to the request of the cycle before. -/
structure Loadstore1ToDcache where
  valid : Bool := false
  hold : Bool := false
  load : Bool := false
  dcbz : Bool := false
  flush : Bool := false
  touch : Bool := false
  sync : Bool := false
  nc : Bool := false
  reserve : Bool := false
  atomicQw : Bool := false
  atomicFirst : Bool := false
  atomicLast : Bool := false
  virtMode : Bool := false
  privMode : Bool := false
  tlbProbe : Bool := false
  addr : BitVec 64 := 0
  data : BitVec 64 := 0
  byteSel : BitVec 8 := 0
  dawrMatch : Bool := false
  deriving DecidableEq, Repr

structure DcacheToLoadstore1 where
  valid : Bool := false
  data : BitVec 64 := 0
  storeDone : Bool := false
  error : Bool := false
  cacheParadox : Bool := false
  reserveNc : Bool := false
  deriving DecidableEq, Repr

structure Loadstore1ToMmu where
  valid : Bool := false
  tlbie : Bool := false
  slbia : Bool := false
  mtspr : Bool := false
  iside : Bool := false
  load : Bool := false
  priv : Bool := false
  ric : BitVec 2 := 0
  sprnf : Bool := false
  sprnt : Bool := false
  addr : BitVec 64 := 0
  rs : BitVec 64 := 0
  deriving DecidableEq, Repr

structure MmuToLoadstore1 where
  done : Bool := false
  err : Bool := false
  invalid : Bool := false
  badtree : Bool := false
  segerr : Bool := false
  permError : Bool := false
  rcError : Bool := false
  sprval : BitVec 64 := 0
  deriving DecidableEq, Repr

structure MmuToDcache where
  valid : Bool := false
  tlbie : Bool := false
  doall : Bool := false
  tlbld : Bool := false
  addr : BitVec 64 := 0
  pte : BitVec 64 := 0
  deriving DecidableEq, Repr

structure DcacheToMmu where
  stall : Bool := false
  done : Bool := false
  err : Bool := false
  data : BitVec 64 := 0
  deriving DecidableEq, Repr

structure MmuToITLB where
  tlbld : Bool := false
  tlbie : Bool := false
  doall : Bool := false
  addr : BitVec 64 := 0
  pte : BitVec 64 := 0
  deriving DecidableEq, Repr

structure Loadstore1ToWriteback where
  valid : Bool
  instrTag : InstrTag
  writeEnable : Bool
  writeReg : GsprIndex
  writeData : BitVec 64
  xerc : XerCommon
  rc : Bool
  storeDone : Bool
  interrupt : Bool
  intrVec : BitVec 12
  srr1 : BitVec 16
  deriving DecidableEq, Repr

/-! ### Wishbone

Addresses on the bus count doublewords. -/

abbrev wishboneAddrBits : ℕ := 29

/-- `wishbone_master_out`, with the values of `wishbone_master_out_init`. -/
structure WishboneMasterOut where
  adr : BitVec wishboneAddrBits := 0
  dat : BitVec 64 := 0
  sel : BitVec 8 := 0
  cyc : Bool := false
  stb : Bool := false
  we : Bool := false
  deriving DecidableEq, Repr

/-- `wishbone_slave_out`, with the values of `wishbone_slave_out_init`. -/
structure WishboneSlaveOut where
  dat : BitVec 64 := 0
  ack : Bool := false
  stall : Bool := false
  deriving DecidableEq, Repr

structure WbIoMasterOut where
  adr : BitVec 30 := 0
  dat : BitVec 32 := 0
  sel : BitVec 4 := 0
  cyc : Bool := false
  stb : Bool := false
  we : Bool := false
  deriving DecidableEq, Repr

structure IcsToIcp where
  src : BitVec 16 := 0
  pri : BitVec 32 := 0
  deriving DecidableEq, Repr

end Microwatt
