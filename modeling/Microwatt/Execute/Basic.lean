import Microwatt.Execute.BitSorter
import Microwatt.Interfaces

/-!
# What execute1 does with an instruction

The records of the execute unit, and `execute1_actions`: what has to be done for the instruction
that decode2 presents, as far as it can be said in the first cycle. The source sets the fields of
`actions` inside one case statement over the operations; here every field has a function of its own,
which names the operations that touch it.

The results of the units that only compute (adder, logical unit, rotator, bit counter, comparison
and the slow SPR read) and of the multipliers, the divider and the performance monitor are inputs.
The bit sorter is part of the unit, because it decides when an instruction is complete.

## Main definitions

* `Execute1.State`, `Execute1.Inputs`
* `Execute1.excKind` — the exception that takes the place of an instruction
* `Execute1.newMsr` — the MSR an instruction asks for
* `Execute1.actionsE`, `Execute1.actionsSe` — results and side effects
-/

namespace Microwatt

/-! ### Records -/

/-- `unit_t`. -/
inductive UnitType
  | alu | ldst | fpu
  deriving DecidableEq, Repr

inductive Facility
  | none | fpu
  deriving DecidableEq, Repr

inductive CarryIn
  | zero | ca | ov | one
  deriving DecidableEq, Repr

inductive ResultSel
  | add | log | rot | un3 | mcyc | spr | un6 | msc
  deriving DecidableEq, Repr

abbrev RamsprIndex := BitVec 3

structure SprId where
  sel : BitVec 4 := 0
  valid : Bool := false
  ispmu : Bool := false
  ronly : Bool := false
  wonly : Bool := false
  noop : Bool := false
  deriving DecidableEq, Repr

/-- `Decode2ToExecute1Type`, without the fields that only the units that compute read. -/
structure Decode2ToExecute1 where
  valid : Bool := false
  unit : UnitType := .alu
  fac : Facility := .none
  insnType : InsnType := .illegal
  nia : BitVec 64 := 0
  instrTag : InstrTag := instrTagInit
  writeReg : GsprIndex := 0
  writeRegEnable : Bool := false
  readData1 : BitVec 64 := 0
  readData2 : BitVec 64 := 0
  readData3 : BitVec 64 := 0
  cr : BitVec 32 := 0
  xerc : XerCommon := {}
  lr : Bool := false
  rc : Bool := false
  oe : Bool := false
  invertA : Bool := false
  inputCarry : CarryIn := .zero
  outputCarry : Bool := false
  outputCr : Bool := false
  outputXer : Bool := false
  is32bit : Bool := false
  isSigned : Bool := false
  insn : BitVec 32 := 0
  dataLen : BitVec 4 := 0
  byteReverse : Bool := false
  signExtend : Bool := false
  update : Bool := false
  reserve : Bool := false
  brPred : Bool := false
  resultSel : ResultSel := .add
  subSelect : BitVec 3 := 0
  repeat_ : Bool := false
  second : Bool := false
  sprSelect : SprId := {}
  sprIsRam : Bool := false
  ramsprEvenRdaddr : RamsprIndex := 0
  ramsprOddRdaddr : RamsprIndex := 0
  ramsprRdOdd : Bool := false
  ramsprWraddr : RamsprIndex := 0
  ramsprWriteEven : Bool := false
  ramsprWriteOdd : Bool := false
  ramspr32bit : Bool := false
  decCtr : Bool := false
  privileged : Bool := false
  prefixed : Bool := false
  pfx : BitVec 26 := 0
  illegalSuffix : Bool := false
  misalignedPrefix : Bool := false
  illegalForm : Bool := false
  usesTar : Bool := false
  usesDscr : Bool := false
  deriving DecidableEq, Repr

/-- `Execute1ToWritebackType`, with the values of `Execute1ToWritebackInit`. -/
structure Execute1ToWriteback where
  valid : Bool := false
  instrTag : InstrTag := instrTagInit
  rc : Bool := false
  mode32bit : Bool := false
  writeEnable : Bool := false
  writeReg : GsprIndex := 0
  writeData : BitVec 64 := 0
  writeCrEnable : Bool := false
  writeCrMask : BitVec 8 := 0
  writeCrData : BitVec 32 := 0
  writeXercEnable : Bool := false
  xerc : XerCommon := {}
  interrupt : Bool := false
  altIntr : Bool := false
  hvIntr : Bool := false
  isScv : Bool := false
  intrVec : BitVec 12 := 0
  redirect : Bool := false
  redirMode : BitVec 4 := 0
  lastNia : BitVec 64 := 0
  brLast : Bool := false
  brTaken : Bool := false
  srr1 : BitVec 16 := 0
  deriving DecidableEq, Repr

structure WritebackToExecute1 where
  intr : Bool := false
  hvIntr : Bool := false
  scvInt : Bool := false
  altInt : Bool := false
  srr1 : BitVec 16 := 0
  deriving DecidableEq, Repr

structure FPUToExecute1 where
  busy : Bool := false
  f2stall : Bool := false
  exception : Bool := false
  deriving DecidableEq, Repr

/-- `Loadstore1ToExecute1Type`, without the signals for the performance monitor. -/
structure Loadstore1ToExecute1 where
  busy : Bool := false
  l2stall : Bool := false
  deriving DecidableEq, Repr

structure CrBypassData where
  tag : InstrTag := instrTagInit
  data : BitVec 32 := 0
  deriving DecidableEq, Repr

/-! ### Bits of the MSR -/

@[simp] abbrev msrSf : ℕ := 63 - 0
@[simp] abbrev msrHv : ℕ := 63 - 3
@[simp] abbrev msrEe : ℕ := 63 - 48
@[simp] abbrev msrPr : ℕ := 63 - 49
@[simp] abbrev msrFp : ℕ := 63 - 50
@[simp] abbrev msrFe0 : ℕ := 63 - 52
@[simp] abbrev msrSe : ℕ := 63 - 53
@[simp] abbrev msrBe : ℕ := 63 - 54
@[simp] abbrev msrFe1 : ℕ := 63 - 55
@[simp] abbrev msrIr : ℕ := 63 - 58
@[simp] abbrev msrDr : ℕ := 63 - 59
@[simp] abbrev msrRi : ℕ := 63 - 62
@[simp] abbrev msrLe : ℕ := 63 - 63

namespace Execute1

/-- `ctrl_t`, with the values of `ctrl_t_init`. -/
structure Ctrl where
  waitState : Bool := false
  run : Bool := true
  dec : BitVec 64 := 0
  msr : BitVec 64 := 0
  cfar : BitVec 64 := 0
  xerLow : BitVec 18 := 0
  fscrIc : BitVec 4 := 0
  fscrPref : Bool := true
  fscrScv : Bool := true
  fscrTar : Bool := true
  fscrDscr : Bool := true
  heir : BitVec 64 := 0
  dscr : BitVec 25 := 0
  ciabr : BitVec 64 := 0
  dexcrPro : BitVec 5 := BitVec.allOnes 5
  hdexcrHyp : BitVec 5 := BitVec.allOnes 5
  hdexcrEnf : BitVec 5 := BitVec.allOnes 5
  lpcrHail : Bool := false
  lpcrEvirt : Bool := false
  lpcrLd : Bool := true
  lpcrHeic : Bool := false
  lpcrLpes : Bool := false
  lpcrHvice : Bool := false
  deriving DecidableEq, Repr

/-- `side_effect_type`, for `n` processors. -/
structure SideEffect (n : ℕ) where
  terminate : Bool := false
  icacheInval : Bool := false
  writeMsr : Bool := false
  writeXerlow : Bool := false
  writeDec : Bool := false
  writeCfar : Bool := false
  setCfar : Bool := false
  writeLoga : Bool := false
  incLoga : Bool := false
  writePmuspr : Bool := false
  ramsprWriteEven : Bool := false
  ramsprWriteOdd : Bool := false
  mult32s : Bool := false
  writeFscr : Bool := false
  writeIc : Bool := false
  writeLpcr : Bool := false
  writeHeir : Bool := false
  setHeir : Bool := false
  writeCtrl : Bool := false
  writeDscr : Bool := false
  writeCiabr : Bool := false
  enterWait : Bool := false
  scvTrap : Bool := false
  writeTbl : Bool := false
  writeTbu : Bool := false
  sendHmsg : BitVec n := 0
  clrHmsg : Bool := false
  deriving DecidableEq, Repr

/-- `reg_stage1_type`, without the registers for the performance monitor. -/
structure Stage1 (n : ℕ) where
  e : Execute1ToWriteback := {}
  se : SideEffect n := {}
  busy : Bool := false
  fpExceptionNext : Bool := false
  traceNext : Bool := false
  traceCiabr : Bool := false
  prevOp : InsnType := .illegal
  prevPrefixed : Bool := false
  oe : Bool := false
  mulSelect : BitVec 3 := 0
  res2Sel : BitVec 2 := 0
  sprSelect : SprId := {}
  redirToNext : Bool := false
  advanceNia : Bool := false
  lrFromNext : Bool := false
  mulInProgress : Bool := false
  mulFinish : Bool := false
  divInProgress : Bool := false
  bsortInProgress : Bool := false
  bpermInProgress : Bool := false
  msr : BitVec 64 := 0
  xerc : XerCommon := {}
  xercValid : Bool := false
  ramsprWraddr : RamsprIndex := 0
  sprWriteData : BitVec 64 := 0
  ic : BitVec 4 := 0
  prefixed : Bool := false
  insn : BitVec 32 := 0
  pfx : BitVec 26 := 0

/-- `reg_stage2_type`, without the registers for the performance monitor. -/
structure Stage2 (n : ℕ) where
  e : Execute1ToWriteback := {}
  se : SideEffect n := {}
  logAddrSpr : BitVec 32 := 0

/-- The generics: whether there is an FPU, and the number of processors. -/
structure Generics where
  hasFpu : Bool := true
  ncpus : ℕ := 1

variable {g : Generics}

structure State (g : Generics) where
  ex1 : Stage1 g.ncpus := {}
  ex2 : Stage2 g.ncpus := {}
  ctrl : Ctrl := {}
  evenSprs : RamsprIndex → BitVec 64 := fun _ => 0
  oddSprs : RamsprIndex → BitVec 64 := fun _ => 0
  dhdPending : Bool := false
  bsort : BitSorter.State := {}

/-- The results of the units that are not modelled. -/
structure DataPath where
  adderResult : BitVec 64 := 0
  carry32 : Bool := false
  carry64 : Bool := false
  overflow32 : Bool := false
  overflow64 : Bool := false
  logicalResult : BitVec 64 := 0
  rotatorResult : BitVec 64 := 0
  rotatorCarry : Bool := false
  miscResult : BitVec 64 := 0
  trapval : BitVec 5 := 0
  writeCrMask : BitVec 8 := 0
  writeCrData : BitVec 32 := 0
  countbitsResult : BitVec 64 := 0
  sprResult : BitVec 64 := 0
  multiplyValid : Bool := false
  multiplyResult : BitVec 128 := 0
  multiplyOverflow : Bool := false
  mult32sResult : BitVec 64 := 0
  mult32sOverflow : Bool := false
  dividerValid : Bool := false
  dividerData : BitVec 64 := 0
  dividerOverflow : Bool := false
  pmuIntr : Bool := false
  pmuSprVal : BitVec 64 := 0
  deriving DecidableEq, Repr

/-- The input ports, and the results of the other units. -/
structure Inputs where
  rst : Bool := false
  flushIn : Bool := false
  e : Decode2ToExecute1 := {}
  l : Loadstore1ToExecute1 := {}
  fp : FPUToExecute1 := {}
  extIrqIn : Bool := false
  interruptIn : WritebackToExecute1 := {}
  msgIn : Bool := false
  dp : DataPath := {}
  deriving DecidableEq, Repr

variable (s : State g) (i : Inputs)

/-! ### Signals outside the processes -/

def decSign : Bool :=
  (s.ctrl.dec.getLsbD 63 && s.ctrl.lpcrLd) || (s.ctrl.dec.getLsbD 31 && !s.ctrl.lpcrLd)

/-- A bit of `ex1.msr`. -/
abbrev msrBit (n : ℕ) : Bool := s.ex1.msr.getLsbD n

def xercIn : XerCommon where
  so := i.e.xerc.so
  ov := i.e.xerc.ov
  ov32 := i.e.xerc.ov32
  ca := if s.ex1.xercValid then s.ex1.xerc.ca else i.e.xerc.ca
  ca32 := if s.ex1.xercValid then s.ex1.xerc.ca32 else i.e.xerc.ca32

def busyOut : Bool := i.l.busy || s.ex1.busy || i.fp.busy || s.ctrl.waitState

def validIn : Bool :=
  i.e.valid && !(busyOut s i || i.flushIn || s.ex1.e.redirect || s.ex1.e.interrupt)

def stage2Stall : Bool := i.l.l2stall || i.fp.f2stall

def nextNia : BitVec 64 := s.ex1.e.lastNia + 4

/-! ### SPRs in RAM

`ramspr_read` and `ramspr_write`. -/

/-- `RAMSPR_SRR0`, `RAMSPR_HSRR0` and `RAMSPR_LR`. -/
abbrev ramsprSrr0 : RamsprIndex := 0
abbrev ramsprHsrr0 : RamsprIndex := 1
abbrev ramsprLr : RamsprIndex := 5

def intrSrr1 (msr : BitVec 64) (flags : BitVec 16) : BitVec 64 :=
  msr.extractLsb' 31 33 ++ flags.extractLsb' 11 4 ++ msr.extractLsb' 22 5 ++
    flags.extractLsb' 0 6 ++ msr.extractLsb' 0 16

/-- `doit`. -/
def ramsprDoit : Bool := s.ex1.e.valid && !stage2Stall i && !i.flushIn

def ramsprEvenData : BitVec 64 := if s.ex1.lrFromNext then nextNia s else s.ex1.sprWriteData

def ramsprWrAddr : RamsprIndex :=
  if i.interruptIn.intr then
    if i.interruptIn.hvIntr then ramsprHsrr0
    else if i.interruptIn.scvInt then ramsprLr
    else ramsprSrr0
  else s.ex1.ramsprWraddr

def ramsprEven : BitVec 64 :=
  if s.ex1.se.ramsprWriteEven && i.e.ramsprEvenRdaddr == s.ex1.ramsprWraddr then ramsprEvenData s
  else s.evenSprs i.e.ramsprEvenRdaddr

def ramsprOdd : BitVec 64 :=
  if s.ex1.se.ramsprWriteOdd && i.e.ramsprOddRdaddr == s.ex1.ramsprWraddr then s.ex1.sprWriteData
  else s.oddSprs i.e.ramsprOddRdaddr

def ramsprResult : BitVec 64 :=
  let r := if i.e.ramsprRdOdd then ramsprOdd s i else ramsprEven s i
  if i.e.ramspr32bit then 0#32 ++ r.extractLsb' 0 32 else r

/-- `even_sprs` after the clock edge. -/
def evenSprsNext : RamsprIndex → BitVec 64 :=
  if (s.ex1.se.ramsprWriteEven && ramsprDoit s i) || i.interruptIn.intr then
    Function.update s.evenSprs (ramsprWrAddr s i)
      (if i.interruptIn.intr then s.ex2.e.lastNia else ramsprEvenData s)
  else s.evenSprs

/-- `odd_sprs` after the clock edge. -/
def oddSprsNext : RamsprIndex → BitVec 64 :=
  if (s.ex1.se.ramsprWriteOdd && ramsprDoit s i) || i.interruptIn.intr then
    Function.update s.oddSprs (ramsprWrAddr s i)
      (if i.interruptIn.intr then intrSrr1 s.ctrl.msr i.interruptIn.srr1 else s.ex1.sprWriteData)
  else s.oddSprs

/-! ### Results of the first stage -/

def multicycResult : BitVec 64 :=
  if !s.ex1.mulSelect.getLsbD 2 then
    let m := i.dp.multiplyResult
    if s.ex1.mulSelect.extractLsb' 0 2 = 0b00 then m.extractLsb' 0 64
    else if s.ex1.mulSelect.extractLsb' 0 2 = 0b01 then m.extractLsb' 32 32 ++ m.extractLsb' 32 32
    else m.extractLsb' 64 64
  else if s.ex1.mulSelect.getLsbD 0 && !g.hasFpu then i.dp.dividerData
  else BitSorter.result s.bsort

def aluResult : BitVec 64 :=
  match if s.ex1.busy then ResultSel.mcyc else i.e.resultSel with
  | .add => i.dp.adderResult
  | .log => i.dp.logicalResult
  | .rot => i.dp.rotatorResult
  | .mcyc => multicycResult s i
  | .spr => ramsprResult s i
  | .msc => i.dp.miscResult
  | _ => 0

/-! ### The instruction -/

def decodeSprNum (insn : BitVec 32) : BitVec 10 := insn.extractLsb' 11 5 ++ insn.extractLsb' 16 5

/-- `insn_bo`, also `insn_to`. -/
def insnBo (insn : BitVec 32) : BitVec 5 := insn.extractLsb' 21 5

def insnBi (insn : BitVec 32) : BitVec 5 := insn.extractLsb' 16 5

/-- `ppc_bc_taken`. CTR is looked at before it is decremented. -/
def ppcBcTaken (bo bi : BitVec 5) (cr : BitVec 32) (ctr : BitVec 64) : Bool :=
  let crbitMatch := cr.getLsbD (31 - bi.toNat) == bo.getLsbD (4 - 1)
  let ctrNotZero := ctr != 1
  let ctrOk := bo.getLsbD (4 - 2) || (ctrNotZero ^^ bo.getLsbD (4 - 3))
  let condOk := bo.getLsbD (4 - 0) || crbitMatch
  ctrOk && condOk

def takeBranch : Bool :=
  match i.e.insnType with
  | .b => true
  | .bc | .bcreg => ppcBcTaken (insnBo i.e.insn) (insnBi i.e.insn) i.e.cr (ramsprOdd s i)
  | _ => false

def directBranch : Bool := i.e.insnType == .b || i.e.insnType == .bc

/-- `scv` rather than `sc`. -/
def scvTrap : Bool := i.e.insnType == .sc && !i.e.insn.getLsbD 1

/-- A SPR that reads as a slow one. -/
def slowSpr : Bool := i.e.sprSelect.valid && !i.e.sprSelect.wonly

/-- An access to a SPR that is not there is illegal for the user, and for some numbers always. -/
def sprMissing : Bool :=
  let n := decodeSprNum i.e.insn
  msrBit s msrPr || s.ctrl.lpcrEvirt || n == 0 || n == 4 || n == 5 || n == 6

/-- What the case statement finds `illegal`. -/
def opIllegal : Bool :=
  match i.e.insnType with
  | .illegal => true
  | .attn => i.e.insn.extractLsb' 1 10 != 0b0100000000
  | .mfspr => !i.e.sprIsRam && !slowSpr i && sprMissing s i
  | .mtspr => !i.e.sprSelect.valid && !i.e.sprIsRam && sprMissing s i
  | _ => false

def illegal : Bool := i.e.illegalSuffix || i.e.illegalForm || opIllegal s i

def privileged : Bool :=
  !(i.e.illegalSuffix || i.e.illegalForm) && msrBit s msrPr && i.e.privileged

/-- The exceptions that prevent an instruction from being executed. -/
inductive ExcKind
  | prefixUnavailable | misalignedPrefix | privileged | illegal | scvUnavailable | tarUnavailable
  | dscrUnavailable | fpUnavailable
  deriving DecidableEq, Repr

/-- The exception, in the order of priority. -/
def excKind : Option ExcKind :=
  if msrBit s msrPr && i.e.prefixed && !s.ctrl.fscrPref then some .prefixUnavailable
  else if i.e.misalignedPrefix then some .misalignedPrefix
  else if privileged s i then some .privileged
  else if illegal s i then some .illegal
  else if msrBit s msrPr && scvTrap i && !s.ctrl.fscrScv then some .scvUnavailable
  else if msrBit s msrPr && i.e.usesTar && !s.ctrl.fscrTar then some .tarUnavailable
  else if msrBit s msrPr && i.e.usesDscr && !s.ctrl.fscrDscr then some .dscrUnavailable
  else if g.hasFpu && !msrBit s msrFp && i.e.fac == .fpu then some .fpUnavailable
  else none

def actException : Bool := (excKind s i).isSome

/-- `actions.trap`: an interrupt after the instruction. -/
def actTrap : Bool :=
  match i.e.insnType with
  | .sc => true
  | .trap => i.dp.trapval &&& insnBo i.e.insn != 0
  | _ => false

def startBsort : Bool := i.e.insnType == .bsort

def startBperm : Bool := i.e.insnType == .bperm

def startMul : Bool :=
  (i.e.insnType == .mulL64 && !i.e.is32bit) || i.e.insnType == .mulH64

def startDiv (g : Generics) (i : Inputs) : Bool :=
  !g.hasFpu && (i.e.insnType == .div || i.e.insnType == .dive || i.e.insnType == .mod)

/-- `owait`: the result comes later. -/
def owait (g : Generics) (i : Inputs) : Bool :=
  startBsort i || startBperm i || startMul i || startDiv g i

def actComplete : Bool :=
  i.e.unit == .alu && i.e.valid && !actException s i && !owait g i

/-- `slow_op`: the result is not there in the first cycle. -/
def slowOp (g : Generics) (i : Inputs) : Bool :=
  match i.e.insnType with
  | .countb | .bsort | .bperm | .mulL64 | .mulH64 | .mulH32 => true
  | .mfspr => !i.e.sprIsRam
  | .div | .dive | .mod => !g.hasFpu
  | _ => false

def actBypassValid (g : Generics) (i : Inputs) : Bool :=
  i.e.unit == .alu && i.e.valid && !slowOp g i

/-- `new_msr` of `rfid`, `hrfid` and `rfscv`. -/
def rfidMsr (msr srr1 : BitVec 64) : BitVec 64 :=
  let m := copyBits msr srr1 63 61
  let m := setBit m msrHv true
  let m := copyBits m srr1 59 31
  let m := copyBits m srr1 26 22
  let m := copyBits m srr1 15 0
  if srr1.getLsbD msrPr then setBit (setBit (setBit m msrEe true) msrIr true) msrDr true else m

/-- `new_msr` of `mtmsr` and `mtmsrd`. -/
def mtmsrMsr (msr c : BitVec 64) (l is32bit : Bool) : BitVec 64 :=
  if l then setBit (setBit msr msrEe (c.getLsbD msrEe)) msrRi (c.getLsbD msrRi)
  else
    let m := if is32bit then msr else copyBits (copyBits msr c 63 61) c 59 32
    let m := copyBits m c 31 13
    let m := copyBits m c 11 1
    if c.getLsbD msrPr then setBit (setBit (setBit m msrEe true) msrIr true) msrDr true else m

def newMsr : BitVec 64 :=
  match i.e.insnType with
  | .rfid => rfidMsr s.ex1.msr (ramsprOdd s i)
  | .mtmsrd => mtmsrMsr s.ex1.msr i.e.readData3 (i.e.insn.getLsbD 16) i.e.is32bit
  | _ => s.ex1.msr

/-- `actions.fp_intr`: an FP exception that becomes enabled. -/
def fpIntr : Bool :=
  let enabled (m : BitVec 64) := m.getLsbD msrFe0 || m.getLsbD msrFe1
  match i.e.insnType with
  | .rfid => g.hasFpu && i.fp.exception && enabled (ramsprOdd s i)
  | .mtmsrd => !i.e.insn.getLsbD 16 && g.hasFpu && i.fp.exception && enabled i.e.readData3
  | _ => false

def doTrace : Bool :=
  match i.e.insnType with
  | .b | .bc | .bcreg => msrBit s msrSe || msrBit s msrBe
  | .rfid | .fetchFailed => false
  | _ => msrBit s msrSe

def ciabrTrace : Bool :=
  s.ctrl.ciabr.getLsbD 0 && s.ctrl.ciabr.getLsbD 1 == !msrBit s msrPr &&
    s.ctrl.ciabr.extractLsb' 2 62 == i.e.nia.extractLsb' 2 62

def actRedirToNext : Bool :=
  match i.e.insnType with
  | .bc => !takeBranch s i
  | .isync => true
  | _ => false

def actRes2Sel : BitVec 2 :=
  match i.e.insnType with
  | .countb | .mulH32 => 0b01
  | .mfspr =>
    if !i.e.sprIsRam && slowSpr i then if i.e.sprSelect.ispmu then 0b11 else 0b10 else 0b00
  | _ => 0b00

def actSprWriteData : BitVec 64 := if i.e.decCtr then ramsprOdd s i - 1 else i.e.readData3

/-- `FSCR_PREFIX`, `FSCR_SCV`, `FSCR_TAR` and `FSCR_DSCR`. -/
abbrev fscrPrefix : ℕ := 63 - 50
abbrev fscrScv : ℕ := 63 - 51
abbrev fscrTar : ℕ := 63 - 55
abbrev fscrDscr : ℕ := 63 - 61

def actIc : BitVec 4 :=
  match excKind s i with
  | some .prefixUnavailable => BitVec.ofNat 4 fscrPrefix
  | some .scvUnavailable => BitVec.ofNat 4 fscrScv
  | some .tarUnavailable => BitVec.ofNat 4 fscrTar
  | some .dscrUnavailable => BitVec.ofNat 4 fscrDscr
  | _ => 0

/-- `xerc` of the result. -/
def actXerc : XerCommon :=
  let x := xercIn s i
  let c32 := match i.e.resultSel with
    | .add => i.dp.carry32
    | .rot => i.dp.rotatorCarry
    | _ => false
  let c64 := match i.e.resultSel with
    | .add => i.dp.carry64
    | .rot => i.dp.rotatorCarry
    | _ => false
  let x :=
    if !i.e.outputCarry then x
    else if i.e.inputCarry != .ov then { x with ca32 := c32, ca := c64 }
    else { x with ov := i.dp.carry64, ov32 := i.dp.carry32 }
  match i.e.insnType with
  | .add =>
    if i.e.oe then
      { x with ov32 := i.dp.overflow32, ov := i.dp.overflow64, so := i.dp.overflow64 || x.so }
    else x
  | .mtspr =>
    if i.e.sprSelect.valid && !i.e.sprSelect.ispmu && i.e.sprSelect.sel == 0xf then
      { so := i.e.readData3.getLsbD (63 - 32)
        ov := i.e.readData3.getLsbD (63 - 33)
        ca := i.e.readData3.getLsbD (63 - 34)
        ov32 := i.e.readData3.getLsbD (63 - 44)
        ca32 := i.e.readData3.getLsbD (63 - 45) }
    else x
  | _ => x

/-- `intr_vec` of the result. -/
def actIntrVec : BitVec 12 :=
  let vec : BitVec 12 :=
    if i.e.insnType == .sc then
      if i.e.insn.getLsbD 1 then 0xC00 else i.e.insn.extractLsb' 5 7 ++ 0#5
    else 0x700
  match excKind s i with
  | some .misalignedPrefix => 0x600
  | some .privileged | none => vec
  | some .illegal => 0xe40
  | some .fpUnavailable => 0x800
  | _ => 0xf60

/-- `srr1` of the result. -/
def actSrr1 : BitVec 16 :=
  let r : BitVec 16 := if i.e.insnType == .trap then setBit 0 (47 - 46) true else 0
  match excKind s i with
  | some .misalignedPrefix => setBit (setBit r (47 - 35) true) (47 - 34) true
  | some .privileged => setBit (setBit r (47 - 34) i.e.prefixed) (47 - 45) true
  | some .illegal | some .fpUnavailable => setBit r (47 - 34) i.e.prefixed
  | _ => r

/-- `redir_mode` of the result: IR, not PR, not LE, not SF. -/
def actRedirMode : BitVec 4 :=
  let mode (ir pr le sf : Bool) : BitVec 4 :=
    BitVec.ofBool ir ++ BitVec.ofBool (!pr) ++ BitVec.ofBool (!le) ++ BitVec.ofBool (!sf)
  if i.e.insnType == .rfid then
    let srr1 := ramsprOdd s i
    mode (srr1.getLsbD msrIr || srr1.getLsbD msrPr) (srr1.getLsbD msrPr) (srr1.getLsbD msrLe)
      (srr1.getLsbD msrSf)
  else mode (msrBit s msrIr) (msrBit s msrPr) (msrBit s msrLe) (msrBit s msrSf)

/-- `redirect` of the result. -/
def actRedirect : Bool :=
  match i.e.insnType with
  | .b => !i.e.brPred
  | .bc => takeBranch s i != i.e.brPred
  | .bcreg => takeBranch s i
  | .rfid | .isync => true
  | _ => false

def actionsE : Execute1ToWriteback where
  instrTag := i.e.instrTag
  rc := i.e.rc
  mode32bit := !msrBit s msrSf
  writeEnable := i.e.writeRegEnable &&
    !(i.e.insnType == .mfspr && !i.e.sprIsRam && (!slowSpr i || i.e.sprSelect.noop))
  writeReg := i.e.writeReg
  writeData := aluResult s i
  writeCrEnable := i.e.outputCr || i.e.rc
  writeCrMask := i.dp.writeCrMask
  writeCrData := i.dp.writeCrData
  writeXercEnable := i.e.outputXer
  xerc := actXerc s i
  altIntr := s.ctrl.lpcrHail && msrBit s msrIr && msrBit s msrDr
  hvIntr := excKind s i == some .illegal
  intrVec := actIntrVec s i
  redirect := actRedirect s i
  redirMode := actRedirMode s i
  lastNia := i.e.nia
  brLast := directBranch i
  brTaken := takeBranch s i
  srr1 := actSrr1 s i

/-- A `mtspr` to the slow SPR with the given selector. -/
def mtsprTo (i : Inputs) (sel : BitVec 4) : Bool :=
  i.e.insnType == .mtspr && i.e.sprSelect.valid && !i.e.sprSelect.ispmu && i.e.sprSelect.sel == sel

def actionsSe : SideEffect g.ncpus where
  terminate := i.e.insnType == .attn && i.e.insn.extractLsb' 1 10 == 0b0100000000
  icacheInval := i.e.insnType == .icbi
  writeMsr := i.e.insnType == .rfid || i.e.insnType == .mtmsrd
  writeXerlow := mtsprTo i 0xf
  writeDec := mtsprTo i 0x3
  writeCfar := mtsprTo i 0x6
  setCfar := takeBranch s i || i.e.insnType == .rfid
  writeLoga := mtsprTo i 0x5
  incLoga := i.e.insnType == .mfspr && !i.e.sprIsRam && slowSpr i && !i.e.sprSelect.ispmu &&
    i.e.sprSelect.sel == 0x5 && i.e.insn.getLsbD 16
  writePmuspr := i.e.insnType == .mtspr && i.e.sprSelect.ispmu
  ramsprWriteEven := i.e.ramsprWriteEven
  ramsprWriteOdd := i.e.ramsprWriteOdd
  mult32s := (i.e.insnType == .mulL64 && i.e.is32bit) || i.e.insnType == .mulH32
  writeFscr := mtsprTo i 0x7
  writeIc := excKind s i == some .prefixUnavailable || excKind s i == some .scvUnavailable ||
    excKind s i == some .tarUnavailable || excKind s i == some .dscrUnavailable
  writeLpcr := mtsprTo i 0x8
  writeHeir := mtsprTo i 0x9
  setHeir := excKind s i == some .illegal
  writeCtrl := mtsprTo i 0xa
  writeDscr := mtsprTo i 0xb
  writeCiabr := mtsprTo i 0xd
  enterWait := i.e.insnType == .wait && i.e.insn.extractLsb' 21 2 == 0b00
  scvTrap := scvTrap i
  writeTbl := mtsprTo i 0x1
  writeTbu := mtsprTo i 0x2
  sendHmsg :=
    if i.e.insnType == .msg && i.e.readData2.extractLsb' 27 5 == 5 && !i.e.insn.getLsbD 6 then
      Lanes.ofBits g.ncpus fun cpuid => i.e.readData2.extractLsb' 0 20 == BitVec.ofNat 20 cpuid
    else 0
  clrHmsg := i.e.insnType == .msg && i.e.readData2.extractLsb' 27 5 == 5 && i.e.insn.getLsbD 6

end Execute1

end Microwatt
