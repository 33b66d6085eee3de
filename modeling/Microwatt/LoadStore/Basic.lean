import Microwatt.Helpers
import Microwatt.Interfaces
import Mathlib.Data.Fin.VecNotation

/-!
# The load/store unit: requests

`loadstore1.vhdl`, first part: the request record that travels through the three stages, the
functions that build it from an instruction (`loadstore1_in`), and the two side units, the
single/double precision conversions and the hash computation.

The generic `HAS_FPU` is the parameter `hasFpu`.

## Main definitions

* `LoadStore.Request` — `request_t`
* `LoadStore.lengthToSel`, `LoadStore.xferDataSel` — byte enables
* `LoadStore.loadstore1In` — the request an instruction is translated into
* `LoadStore.secondRequest` — the second half of an access that crosses a doubleword boundary
* `LoadStore.formatStore`, `LoadStore.LoadControl` — byte rotation and reversal
* `LoadStore.HashReg` — the HashDigest unit
-/

namespace Microwatt

namespace LoadStore

/-- `request_t`, with the values of `request_init`. -/
structure Request where
  valid : Bool := false
  dcReq : Bool := false
  load : Bool := false
  store : Bool := false
  flush : Bool := false
  touch : Bool := false
  sync : Bool := false
  tlbie : Bool := false
  dcbz : Bool := false
  hashst : Bool := false
  hashcmp : Bool := false
  readSpr : Bool := false
  writeSpr : Bool := false
  mmuOp : Bool := false
  instrFault : Bool := false
  doUpdate : Bool := false
  mode32bit : Bool := false
  prefixed : Bool := false
  addr : BitVec 64 := 0
  byteSel : BitVec 8 := 0
  secondBytes : BitVec 8 := 0
  storeData : BitVec 64 := 0
  instrTag : InstrTag := instrTagInit
  writeReg : GsprIndex := 0
  length : BitVec 4 := 0
  byteReverse : Bool := false
  brevMask : BitVec 3 := 0
  signExtend : Bool := false
  update : Bool := false
  xerc : XerCommon := {}
  reserve : Bool := false
  atomicQw : Bool := false
  atomicFirst : Bool := false
  atomicLast : Bool := false
  rc : Bool := false
  nc : Bool := false
  virtMode : Bool := false
  privMode : Bool := false
  loadSp : Bool := false
  sprsel : BitVec 3 := 0
  ric : BitVec 2 := 0
  isSlbia : Bool := false
  alignIntr : Bool := false
  dawrIntr : Bool := false
  dwordIndex : Bool := false
  twoDwords : Bool := false
  incomplete : Bool := false
  eaValid : Bool := false
  hashAddr : BitVec 64 := 0

/-! ### Byte enables -/

def lengthToSel (length : BitVec 4) : BitVec 8 :=
  if length = 1 then 0b00000001
  else if length = 2 then 0b00000011
  else if length = 4 then 0b00001111
  else if length = 8 then 0b11111111
  else 0

/-- `xfer_data_sel`: the byte enables of two consecutive doublewords. -/
def xferDataSel (size : BitVec 4) (address : BitVec 3) : BitVec 16 :=
  (lengthToSel size).setWidth 16 <<< address.toNat

/-! ### Single and double precision -/

def shifter23r (frac : BitVec 23) (shift : BitVec 5) : BitVec 23 :=
  let fs1 := frac >>> (shift.extractLsb' 0 2).toNat
  fs1 >>> (4 * min (shift.extractLsb' 2 3).toNat 5)

def shifter23l (frac : BitVec 23) (shift : BitVec 5) : BitVec 23 :=
  let fs1 := frac <<< (shift.extractLsb' 0 2).toNat
  fs1 <<< (4 * min (shift.extractLsb' 2 3).toNat 5)

/-- `dp_to_sp`: the single precision format of the register operand of `stfs`. -/
def storeSpData (data : BitVec 64) : BitVec 32 :=
  let exp := data.extractLsb' 52 11
  let sign := data.extractLsb' 63 1
  if exp.toNat > 896 then
    sign ++ data.extractLsb' 62 1 ++ data.extractLsb' 29 30
  else if exp.toNat ≥ 874 then
    -- denormalization required
    let frac : BitVec 23 := 1#1 ++ data.extractLsb' 30 22
    let shift : BitVec 5 := 0 - exp.extractLsb' 0 5
    sign ++ 0#8 ++ shifter23r frac shift
  else sign ++ 0#31

/-- `sp_to_dp`: the register format of a loaded single precision value. `ldSpLz` counts its
leading fraction zeros. -/
def loadDpData (ldSpData : BitVec 32) (ldSpNz : Bool) (ldSpLz : BitVec 6) : BitVec 64 :=
  let frac := ldSpData.extractLsb' 0 23
  let exp := ldSpData.extractLsb' 23 8
  let expDp : BitVec 11 :=
    if exp = BitVec.allOnes 8 then 2047
    else if exp ≠ 0 then 896 + exp.setWidth 11
    else if !ldSpNz then 0
    else 896 - ldSpLz.setWidth 11
  let fracShift : BitVec 5 :=
    if exp ≠ 0 then 0 else if !ldSpNz then 0 else ldSpLz.extractLsb' 0 5 + 1
  ldSpData.extractLsb' 31 1 ++ expDp ++ shifter23l frac fracShift ++ 0#29

/-! ### From an instruction to a request

`loadstore1_in`. The fields of the request that need some computation are named first. -/

def sprn (insn : BitVec 32) : BitVec 10 := insn.extractLsb' 11 5 ++ insn.extractLsb' 16 5

def sprselOf (insn : BitVec 32) : BitVec 3 :=
  let n := sprn insn
  if n.extractLsb' 7 2 = 0b01 then 1#1 ++ n.extractLsb' 3 1 ++ n.extractLsb' 0 1
  else if n.getLsbD 1 then 0b01#2 ++ n.extractLsb' 0 1
  else 0b00#2 ++ n.extractLsb' 8 1

/-- Addresses are 32 bits wide in 32-bit mode. -/
def trimAddr (mode32bit : Bool) (addr : BitVec 64) : BitVec 64 :=
  if mode32bit then 0#32 ++ addr.extractLsb' 0 32 else addr

section

variable (l : Execute1ToLoadstore1)

/-- The effective address. The second part of a two-part instruction takes it from the first
part, whose address is in `r1.addr0`: for an update form the same address, to be written to RA,
for a quadword access the next doubleword. -/
def effectiveAddr (addr0 : BitVec 64) : BitVec 64 :=
  trimAddr l.mode32bit <|
    if l.second then
      (addr0.extractLsb' 3 61 + (if l.update then 0 else 1)) ++ addr0.extractLsb' 0 3
    else l.addr1 + l.addr2

/-- `hash_addr`: hash instructions have a short displacement, a negative multiple of 8. -/
def hashAddrOf : BitVec 64 :=
  let disp : BitVec 64 := 0x7FFFFFFFFFFFFF#55 ++ l.insn.extractLsb' 0 1 ++
    l.insn.extractLsb' 21 5 ++ 0#3
  trimAddr l.mode32bit (l.addr1 + disp)

/-- `misaligned`: not a multiple of the length, or a quadword access whose first doubleword is
not at a multiple of 16. -/
def misaligned (addr : BitVec 64) : Bool :=
  let addrMask : BitVec 3 := l.length.extractLsb' 0 3 - 1
  if l.repeat_ && !l.update && addr.getLsbD 3 != l.second then true
  else addrMask &&& addr.extractLsb' 0 3 != 0

def alignIntrOf (addr : BitVec 64) : Bool :=
  -- non-prefixed lq in little-endian mode has to be aligned too
  if l.repeat_ && !l.update && misaligned l addr && l.op == .load && !l.byteReverse &&
      !l.prefixed then true
  else (l.reserve || (l.hash && l.hashEnable)) && misaligned l addr

def hashNop : Bool :=
  (l.op == .store || l.op == .load) && !l.hashEnable

/-- `brev_mask`: byte reversal is an exclusive-or of the byte number with the length minus
one. -/
def brevMaskOf : BitVec 3 :=
  if l.byteReverse then l.length.extractLsb' 0 3 - 1 else 0

end

def storeValue (hasFpu : Bool) (l : Execute1ToLoadstore1) : BitVec 64 :=
  if hasFpu && l.is32bit then (storeSpData l.data).setWidth 64 else l.data

/-- `req_in`. -/
def loadstore1In (hasFpu : Bool) (l : Execute1ToLoadstore1) (addr0 : BitVec 64) : Request :=
  let addr := effectiveAddr l addr0
  let longSel := xferDataSel l.length (addr.extractLsb' 0 3)
  let misal := misaligned l addr
  let isLoad := l.op == .load && (!l.update || !l.second)
  let load := isLoad || l.op == .dcbf
  let store := l.op == .store
  let dcReq := l.valid && (load || store || l.op == .sync || l.op == .dcbz || l.op == .tlbie) &&
    !alignIntrOf l addr && !hashNop l
  let twoDwords := longSel.extractLsb' 8 8 != 0
  { valid := l.valid
    dcReq := dcReq
    load := load
    store := store
    flush := l.op == .dcbf
    touch := (store || isLoad) && l.length == 0
    sync := l.op == .sync
    tlbie := l.op == .tlbie
    dcbz := l.op == .dcbz
    hashst := store && l.hash
    hashcmp := l.op == .load && l.hash
    readSpr := l.op == .mfspr
    writeSpr := l.op == .mtspr
    mmuOp := l.op == .tlbie || l.op == .fetchFailed ||
      (l.op == .mtspr && !((sprn l.insn).getLsbD 1 || (sprn l.insn).getLsbD 2))
    instrFault := l.op == .fetchFailed
    doUpdate := l.op == .load && !isLoad
    mode32bit := l.mode32bit
    prefixed := l.prefixed
    addr := addr
    byteSel := longSel.extractLsb' 0 8
    secondBytes := longSel.extractLsb' 8 8
    storeData := storeValue hasFpu l
    instrTag := l.instrTag
    writeReg := l.writeReg
    length := l.length
    byteReverse := l.byteReverse
    brevMask := brevMaskOf l
    signExtend := l.signExtend
    update := l.update
    xerc := l.xerc
    reserve := l.reserve
    atomicQw := l.repeat_ && !l.update && !misal
    atomicFirst := !misal && !l.second
    atomicLast := !misal && (l.second || !l.repeat_)
    rc := l.rc
    -- real-mode accesses to 0xc------- are not cached
    nc := l.ci || (addr.extractLsb' 28 4 == 0b1100 && !l.virtMode)
    virtMode := l.virtMode
    privMode := l.privMode
    loadSp := isLoad && hasFpu && l.is32bit
    sprsel := sprselOf l.insn
    ric := l.insn.extractLsb' 18 2
    isSlbia := l.op == .tlbie && l.insn.getLsbD 7
    alignIntr := alignIntrOf l addr
    twoDwords := twoDwords
    incomplete := dcReq && twoDwords
    eaValid := l.valid && !(l.op == .sync || l.op == .mfspr || l.op == .mtspr)
    hashAddr := hashAddrOf l }

/-- The second request of an access that crosses a doubleword boundary (`loadstore1_1`). -/
def secondRequest (r : Request) : Request :=
  let addr : BitVec 64 := (r.addr.extractLsb' 3 61 + 1) ++ 0#3
  { r with
    dwordIndex := true
    incomplete := false
    addr := if r.mode32bit then setBit addr 32 false else addr
    byteSel := r.secondBytes }

/-! ### Byte reversal and rotation -/

/-- `store_data` of `loadstore1_2`: byte `i` of the doubleword sent is byte
`(i - offset) xor brev_mask` of the value. -/
def formatStore (byteOffset brevMask : BitVec 3) (data : BitVec 64) : BitVec 64 :=
  Lanes.ofBytes 64 fun i => Lanes.byte data ((BitVec.ofNat 3 i - byteOffset) ^^^ brevMask).toNat

/-- The load formatter controls `byte_index` and `use_second` for one byte of the result: which
byte of the returned doubleword to take, and whether it is in the second one. -/
structure LoadControl where
  byteIndex : BitVec 3
  useSecond : Bool
  deriving DecidableEq, Repr

/-- The load formatter controls of `loadstore1_2`. -/
def loadControl (byteOffset brevMask : BitVec 3) (i : ℕ) : LoadControl :=
  let idx : BitVec 3 := BitVec.ofNat 3 i ^^^ brevMask
  let kk : BitVec 4 := idx.setWidth 4 + byteOffset.setWidth 4
  ⟨kk.extractLsb' 0 3, kk.getLsbD 3⟩

/-- `data_permuted` of `loadstore1_3`. -/
def permute (control : ℕ → LoadControl) (data : BitVec 64) : BitVec 64 :=
  Lanes.ofBytes 64 fun k => Lanes.byte data (control k).byteIndex.toNat

/-- The sign bit of a value of the given length. -/
def signBit (length : BitVec 4) (data : BitVec 64) : Bool :=
  (length.getLsbD 3 && data.getLsbD 63) || (length.getLsbD 2 && data.getLsbD 31) ||
    (length.getLsbD 1 && data.getLsbD 15) || (length.getLsbD 0 && data.getLsbD 7)

/-- `data_trimmed` of `loadstore1_3`, from the permuted data of the doubleword just returned and,
for the second one of two, the permuted data kept from the first. The sign bit (`negative`) is in
the first doubleword when bytes are reversed, in the second one otherwise. -/
def trimData (length : BitVec 4) (byteReverse signExtend dwordIndex : Bool)
    (control : ℕ → LoadControl) (loadData dataPermuted : BitVec 64) : BitVec 64 :=
  let negative :=
    if dwordIndex && byteReverse then signBit length loadData else signBit length dataPermuted
  Lanes.ofBytes 64 fun k =>
    if k < length.toNat then
      if dwordIndex && !(control k).useSecond then Lanes.byte loadData k
      else Lanes.byte dataPermuted k
    else if negative && signExtend then BitVec.allOnes 8 else 0

/-! ### The hash unit

`loadstore_hash_comb`: the HashDigest computation, four steps of key expansion and four rounds of
cipher on each of four lanes in a cycle. -/

/-- `hash_reg_t`, with the values of `hash_reg_init`. -/
structure HashReg where
  active : Bool := false
  done : Bool := false
  step : BitVec 3 := 0
  z0 : BitVec 31 := 0
  key : Fin 4 → BitVec 16 := fun _ => 0
  xleft : Fin 4 → BitVec 16 := fun _ => 0
  xright : Fin 4 → BitVec 16 := fun _ => 0

/-- The next key word from the four before it. -/
def nextKey (z : Bool) (k0 k1 k3 : BitVec 16) : BitVec 16 :=
  let t := (k3.extractLsb' 0 3 ++ k3.extractLsb' 3 13 : BitVec 16) ^^^ k1
  0xfffc ^^^ (BitVec.ofBool z).setWidth 16 ^^^ k0 ^^^ t ^^^
    (t.extractLsb' 0 1 ++ t.extractLsb' 1 15 : BitVec 16)

/-- The four new key words, each computed from the ones before. -/
def expandKeys (z0 : BitVec 31) (key : Fin 4 → BitVec 16) : Fin 4 → BitVec 16 :=
  let k4 := nextKey (z0.getLsbD 30) (key 0) (key 1) (key 3)
  let k5 := nextKey (z0.getLsbD 29) (key 1) (key 2) k4
  let k6 := nextKey (z0.getLsbD 28) (key 2) (key 3) k5
  let k7 := nextKey (z0.getLsbD 27) (key 3) k4 k6
  ![k4, k5, k6, k7]

/-- One cipher round on `(xl, xr)`. -/
def hashRound (key : BitVec 16) (x : BitVec 16 × BitVec 16) : BitVec 16 × BitVec 16 :=
  let xl := x.1
  let fx := ((xl.extractLsb' 0 15 ++ xl.extractLsb' 15 1 : BitVec 16) &&&
      (xl.extractLsb' 0 8 ++ xl.extractLsb' 8 8 : BitVec 16)) ^^^
    (xl.extractLsb' 0 14 ++ xl.extractLsb' 14 2 : BitVec 16)
  (x.2 ^^^ fx ^^^ key, xl)

/-- The four rounds of one lane in a cycle. -/
def hashRounds (key : Fin 4 → BitVec 16) (lane : Fin 4) (x : BitVec 16 × BitVec 16) :
    BitVec 16 × BitVec 16 :=
  (List.finRange 4).foldl (fun x i => hashRound (key (i + lane)) x) x

/-- `hash_rin`. -/
def nextHash (h : HashReg) (hashStart : Bool) (ra rb key : BitVec 64) : HashReg :=
  if h.active then
    { active := h.step != 7
      done := h.step == 7
      step := h.step + 1
      z0 := h.z0.extractLsb' 0 27 ++ 0#4
      key := expandKeys h.z0 h.key
      xleft := fun lane => (hashRounds h.key lane (h.xleft lane, h.xright lane)).1
      xright := fun lane => (hashRounds h.key lane (h.xleft lane, h.xright lane)).2 }
  else if hashStart then
    { active := true
      done := false
      step := 0
      z0 := 0x7D12B0E6
      key := fun i => key.extractLsb' ((3 - i.val) * 16) 16
      xleft := fun lane =>
        rb.extractLsb' (lane.val * 16 + 8) 8 ++ ra.extractLsb' ((3 - lane.val) * 16) 8
      xright := fun lane =>
        rb.extractLsb' (lane.val * 16) 8 ++ ra.extractLsb' ((3 - lane.val) * 16 + 8) 8 }
  else { h with done := false }

def hashResult (h : HashReg) : BitVec 64 :=
  (h.xright 0 ++ h.xleft 0 ++ h.xright 1 ++ h.xleft 1 : BitVec 64) ^^^
    (h.xright 2 ++ h.xleft 2 ++ h.xright 3 ++ h.xleft 3 : BitVec 64)

end LoadStore

end Microwatt
