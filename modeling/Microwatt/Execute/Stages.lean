import Microwatt.Execute.Basic

/-!
# The two stages of execute1

`execute1_1` decides whether the instruction that decode2 presents is executed, replaced by an
interrupt or has to wait, and follows the operations that take more than one cycle. `execute2_1`
carries out the side effects and sends the result to writeback one cycle later.

There are two copies of the MSR: `ex1.msr`, in which an instruction is executed, and `ctrl.msr`, one
stage behind, from which `ex1.msr` is restored after a flush. Each register is given by one
expression in which the last assignment of the source is tested first.

## Main definitions

* `Execute1.go` — an instruction is executed
* `Execute1.ex1in`, `Execute1.ctrlTmp`, `Execute1.ex2in` — the registers after the clock edge
* `Execute1.lOut` — the instruction for loadstore1
* `Execute1.step` — one clock edge
-/

namespace Microwatt

namespace Execute1

variable {g : Generics} (s : State g) (i : Inputs)

/-! ### First stage: interrupts -/

def irqValid : Bool :=
  msrBit s msrEe &&
    (i.dp.pmuIntr || decSign s || s.dhdPending ||
      (i.extIrqIn && (!s.ctrl.lpcrHeic || msrBit s msrPr)))

/-- What is taken before the next instruction, whatever that is. -/
inductive Pending
  | fpException | trace | irq
  deriving DecidableEq, Repr

/-- The interrupt that is taken instead of executing the instruction. -/
def pending : Option Pending :=
  if validIn s i && !i.e.second then
    if g.hasFpu && s.ex1.fpExceptionNext then some .fpException
    else if s.ex1.traceNext then some .trace
    else if irqValid s i then some .irq
    else none
  else none

/-- `exception` before the instruction is started. -/
def exceptionFirst : Bool := (validIn s i && actException s i) || (pending s i).isSome

def go : Bool := validIn s i && !exceptionFirst s i

/-- `exception` as it goes into the register. -/
def exception : Bool := if go s i then actTrap i else exceptionFirst s i

/-- `intr_vec` of an interrupt from outside. -/
def irqVec (vec : BitVec 12) : BitVec 12 :=
  if i.dp.pmuIntr then 0xf00
  else if s.dhdPending then 0xe80
  else if decSign s then 0x900
  else if i.extIrqIn then 0x500
  else vec

/-- `srr1` of a trace interrupt. -/
def traceSrr1 : BitVec 16 :=
  let r := setBit (setBit 0 (47 - 33) true) (47 - 34) s.ex1.prevPrefixed
  let loads := s.ex1.prevOp == .load || s.ex1.prevOp == .icbi || s.ex1.prevOp == .icbt ||
    s.ex1.prevOp == .dcbf
  let stores := s.ex1.prevOp == .store || s.ex1.prevOp == .dcbz
  let r :=
    if loads && !s.ex1.traceCiabr then setBit r (47 - 35) true
    else if stores && !s.ex1.traceCiabr then setBit r (47 - 36) true
    else r
  setBit r (47 - 43) s.ex1.traceCiabr

/-! ### First stage: the result -/

/-- `v.e` after the interrupts have been looked at. -/
def presentedE : Execute1ToWriteback :=
  let e := { actionsE s i with valid := false }
  match pending s i with
  | some .fpException =>
    { e with intrVec := 0x700, srr1 := setBit (setBit 0 (47 - 43) true) (47 - 47) true }
  | some .trace => { e with intrVec := 0xd00, srr1 := traceSrr1 s }
  | some .irq =>
    { e with
      intrVec := irqVec s i e.intrVec
      -- a doorbell is always for the hypervisor, an external interrupt if the LPCR says so
      hvIntr :=
        if i.dp.pmuIntr then e.hvIntr
        else if s.dhdPending then true
        else if decSign s then e.hvIntr
        else if i.extIrqIn then !s.ctrl.lpcrLpes
        else e.hvIntr
      srr1 := 0 }
  | none => e

/-- An operation that takes several cycles is under way. -/
def inProgress : Bool :=
  (!g.hasFpu && s.ex1.divInProgress) || s.ex1.mulInProgress || s.ex1.bsortInProgress ||
    s.ex1.bpermInProgress

/-- `v.e.valid` before a flush. -/
def validNext : Bool :=
  if s.ex1.bpermInProgress then s.bsort.bpDone
  else if s.ex1.bsortInProgress then s.bsort.sd
  else if s.ex1.mulFinish then true
  else if s.ex1.mulInProgress then i.dp.multiplyValid && !s.ex1.oe
  else if !g.hasFpu && s.ex1.divInProgress then i.dp.dividerValid
  else if go s i then actComplete s i
  else if busyOut s i then s.ex1.e.valid
  else false

/-- `v.busy` before a flush. -/
def busyNext : Bool :=
  if s.ex1.bpermInProgress then !s.bsort.bpDone
  else if s.ex1.bsortInProgress then !s.bsort.sd
  else if s.ex1.mulInProgress then !(i.dp.multiplyValid && !s.ex1.oe)
  else if !g.hasFpu && s.ex1.divInProgress then !i.dp.dividerValid
  else go s i && (startDiv g i || startMul i || startBsort i || startBperm i)

def xercNext : XerCommon :=
  let x := if busyOut s i then s.ex1.e.xerc else (presentedE s i).xerc
  let x :=
    if !g.hasFpu && s.ex1.divInProgress && i.dp.dividerValid && s.ex1.oe then
      { x with
        ov := i.dp.dividerOverflow, ov32 := i.dp.dividerOverflow
        so := i.dp.dividerOverflow || x.so }
    else x
  if s.ex1.mulFinish then
    { x with
      ov := i.dp.multiplyOverflow, ov32 := i.dp.multiplyOverflow
      so := i.dp.multiplyOverflow || x.so }
  else x

/-- `v.e` at the end of `execute1_1`. -/
def e1Next : Execute1ToWriteback :=
  let e := if busyOut s i then s.ex1.e else presentedE s i
  { e with
    valid := validNext s i && !i.flushIn
    writeData := if inProgress s then aluResult s i else e.writeData
    xerc := xercNext s i
    interrupt :=
      if i.flushIn then false
      else if !(s.ex1.busy || i.l.busy || i.fp.busy) then exception s i
      else e.interrupt
    isScv := if !(s.ex1.busy || i.l.busy || i.fp.busy) then go s i && scvTrap i else e.isScv
    redirect := validNext s i && !i.flushIn && e.redirect
    brLast := validNext s i && !i.flushIn && e.brLast }

def se1Next : SideEffect g.ncpus :=
  let se : SideEffect g.ncpus := if busyOut s i then s.ex1.se else {}
  if go s i then actionsSe s i
  else
    { se with
      setHeir := if validIn s i then (actionsSe s i).setHeir else se.setHeir
      writeIc := if validIn s i then (actionsSe s i).writeIc else se.writeIc
      clrHmsg :=
        if pending s i = some .irq && !i.dp.pmuIntr && s.dhdPending then true else se.clrHmsg }

/-! ### Second stage: control registers -/

/-- `ctrl_tmp.msr` before an interrupt. -/
def msrWritten : BitVec 64 :=
  if !stage2Stall i && s.ex1.se.writeMsr then s.ex1.msr else s.ctrl.msr

/-- The MSR in which an interrupt is taken. -/
def intrMsr (msr : BitVec 64) (w : WritebackToExecute1) : BitVec 64 :=
  let m := setBit msr msrSf true
  let m := setBit m msrPr false
  let m := setBit m msrSe false
  let m := setBit m msrBe false
  let m := setBit m msrFp false
  let m := setBit m msrFe0 false
  let m := setBit m msrFe1 false
  let m := setBit m msrIr w.altInt
  let m := setBit m msrDr w.altInt
  let m := setBit m msrLe true
  let m := if !w.scvInt then setBit m msrEe false else m
  if !w.scvInt && !w.hvIntr then setBit m msrRi false else m

def irqExc : Bool := i.dp.pmuIntr || decSign s || i.extIrqIn || s.dhdPending

/-- A side effect of the instruction in the first stage is carried out. -/
def does (se : Bool) : Bool := !stage2Stall i && se

def ctrlTmp : Ctrl where
  waitState :=
    if s.ex1.traceNext || irqExc s i || i.interruptIn.intr then false
    else does i s.ex1.se.enterWait || s.ctrl.waitState
  run := if does i s.ex1.se.writeCtrl then s.ex1.sprWriteData.getLsbD 0 else s.ctrl.run
  dec := if does i s.ex1.se.writeDec then s.ex1.sprWriteData else s.ctrl.dec - 1
  msr := if i.interruptIn.intr then intrMsr (msrWritten s i) i.interruptIn else msrWritten s i
  cfar :=
    if does i s.ex1.se.writeCfar then s.ex1.sprWriteData
    else if does i s.ex1.se.setCfar then s.ex1.e.lastNia
    else s.ctrl.cfar
  xerLow :=
    if does i s.ex1.se.writeXerlow then s.ex1.sprWriteData.extractLsb' 0 18 else s.ctrl.xerLow
  fscrIc :=
    if does i s.ex1.se.writeFscr then s.ex1.sprWriteData.extractLsb' 56 4
    else if does i s.ex1.se.writeIc then s.ex1.ic
    else s.ctrl.fscrIc
  fscrPref :=
    if does i s.ex1.se.writeFscr then s.ex1.sprWriteData.getLsbD fscrPrefix else s.ctrl.fscrPref
  fscrScv :=
    if does i s.ex1.se.writeFscr then s.ex1.sprWriteData.getLsbD Execute1.fscrScv
    else s.ctrl.fscrScv
  fscrTar :=
    if does i s.ex1.se.writeFscr then s.ex1.sprWriteData.getLsbD Execute1.fscrTar
    else s.ctrl.fscrTar
  fscrDscr :=
    if does i s.ex1.se.writeFscr then s.ex1.sprWriteData.getLsbD Execute1.fscrDscr
    else s.ctrl.fscrDscr
  heir :=
    if does i s.ex1.se.writeHeir then s.ex1.sprWriteData
    else if does i s.ex1.se.setHeir then
      (if s.ex1.prefixed then 1#6 ++ s.ex1.pfx else 0#32) ++ s.ex1.insn
    else s.ctrl.heir
  dscr := if does i s.ex1.se.writeDscr then s.ex1.sprWriteData.extractLsb' 0 25 else s.ctrl.dscr
  ciabr := if does i s.ex1.se.writeCiabr then s.ex1.sprWriteData else s.ctrl.ciabr
  dexcrPro := s.ctrl.dexcrPro
  hdexcrHyp := s.ctrl.hdexcrHyp
  hdexcrEnf := s.ctrl.hdexcrEnf
  lpcrHail :=
    if does i s.ex1.se.writeLpcr then s.ex1.sprWriteData.getLsbD (63 - 37) else s.ctrl.lpcrHail
  lpcrEvirt :=
    if does i s.ex1.se.writeLpcr then s.ex1.sprWriteData.getLsbD (63 - 42) else s.ctrl.lpcrEvirt
  lpcrLd :=
    if does i s.ex1.se.writeLpcr then s.ex1.sprWriteData.getLsbD (63 - 46) else s.ctrl.lpcrLd
  lpcrHeic :=
    if does i s.ex1.se.writeLpcr then s.ex1.sprWriteData.getLsbD (63 - 59) else s.ctrl.lpcrHeic
  lpcrLpes :=
    if does i s.ex1.se.writeLpcr then s.ex1.sprWriteData.getLsbD (63 - 60) else s.ctrl.lpcrLpes
  lpcrHvice :=
    if does i s.ex1.se.writeLpcr then s.ex1.sprWriteData.getLsbD (63 - 62) else s.ctrl.lpcrHvice

/-! ### First stage: registers -/

def ex1in : Stage1 g.ncpus where
  e := e1Next s i
  se := se1Next s i
  busy := busyNext s i && !i.flushIn
  fpExceptionNext :=
    if i.interruptIn.intr then false
    else if go s i then fpIntr s i
    else s.ex1.fpExceptionNext
  traceNext :=
    if i.interruptIn.intr then false
    else if go s i then doTrace s i || ciabrTrace s i
    else s.ex1.traceNext
  traceCiabr := if go s i then ciabrTrace s i else s.ex1.traceCiabr
  prevOp := if validIn s i then i.e.insnType else s.ex1.prevOp
  prevPrefixed := if validIn s i then i.e.prefixed else s.ex1.prevPrefixed
  oe := if busyOut s i then s.ex1.oe else i.e.oe
  mulSelect := if busyOut s i then s.ex1.mulSelect else i.e.subSelect
  res2Sel := if go s i then actRes2Sel i else s.ex1.res2Sel
  sprSelect := if busyOut s i then s.ex1.sprSelect else i.e.sprSelect
  redirToNext := if go s i then actRedirToNext s i else s.ex1.redirToNext
  advanceNia :=
    if go s i then i.e.insnType == .sc
    else if busyOut s i then s.ex1.advanceNia
    else false
  lrFromNext := if busyOut s i then s.ex1.lrFromNext else i.e.lr
  mulInProgress :=
    if i.flushIn then false
    else if s.ex1.mulInProgress then !i.dp.multiplyValid
    else go s i && startMul i
  mulFinish :=
    if i.flushIn then false
    else if s.ex1.mulFinish then false
    else s.ex1.mulInProgress && i.dp.multiplyValid && s.ex1.oe
  divInProgress :=
    if i.flushIn then false
    else if !g.hasFpu && s.ex1.divInProgress then !i.dp.dividerValid
    else if go s i then startDiv g i
    else s.ex1.divInProgress
  -- a flush does not stop the bit sorter, nor is it forgotten that it runs
  bsortInProgress :=
    if s.ex1.bsortInProgress then !s.bsort.sd else go s i && startBsort i
  bpermInProgress :=
    if s.ex1.bpermInProgress then !s.bsort.bpDone else go s i && startBperm i
  msr :=
    if i.flushIn || i.interruptIn.intr then (ctrlTmp s i).msr
    else if go s i then newMsr s i
    else s.ex1.msr
  xerc :=
    let e := if busyOut s i then s.ex1.e else presentedE s i
    if e.writeXercEnable && validNext s i then xercNext s i else s.ex1.xerc
  xercValid :=
    let e := if busyOut s i then s.ex1.e else presentedE s i
    !i.flushIn && ((e.writeXercEnable && validNext s i) || s.ex1.xercValid)
  ramsprWraddr := if busyOut s i then s.ex1.ramsprWraddr else i.e.ramsprWraddr
  sprWriteData := if busyOut s i then s.ex1.sprWriteData else actSprWriteData s i
  ic := if busyOut s i then s.ex1.ic else actIc s i
  prefixed := if busyOut s i then s.ex1.prefixed else i.e.prefixed
  insn := if busyOut s i then s.ex1.insn else i.e.insn
  pfx := if busyOut s i then s.ex1.pfx else i.e.pfx

/-! ### Second stage: the result -/

def rcresult : BitVec 64 :=
  if s.ex1.se.mult32s then
    if !s.ex1.res2Sel.getLsbD 0 then i.dp.mult32sResult
    else i.dp.mult32sResult.extractLsb' 32 32 ++ i.dp.mult32sResult.extractLsb' 32 32
  else if !s.ex1.res2Sel.getLsbD 0 then s.ex1.e.writeData
  else i.dp.countbitsResult

def exResult : BitVec 64 :=
  if s.ex1.res2Sel.getLsbD 1 then
    if !s.ex1.res2Sel.getLsbD 0 then i.dp.sprResult else i.dp.pmuSprVal
  else if s.ex1.redirToNext then nextNia s
  else rcresult s i

/-- `v.e.xerc` of the second stage. -/
def xerc2 : XerCommon :=
  if s.ex1.se.mult32s && s.ex1.oe then
    { s.ex1.e.xerc with
      ov := i.dp.mult32sOverflow, ov32 := i.dp.mult32sOverflow
      so := i.dp.mult32sOverflow || s.ex1.e.xerc.so }
  else s.ex1.e.xerc

/-- The field CR0 of an instruction with Rc = 1. -/
def cr0 : BitVec 4 :=
  let r := rcresult s i
  let zero :=
    r.extractLsb' 0 32 == 0 && (s.ex1.e.mode32bit || r.extractLsb' 32 32 == 0)
  let sign := (exResult s i).getLsbD (if s.ex1.e.mode32bit then 31 else 63)
  BitVec.ofBool sign ++ BitVec.ofBool (!(sign || zero)) ++ BitVec.ofBool zero ++
    BitVec.ofBool (xerc2 s i).so

/-- The instruction in the first stage sets CR0. -/
def setsCr0 : Bool := s.ex1.e.rc && s.ex1.e.writeEnable

/-- `v.e` of the second stage. -/
def e2Next : Execute1ToWriteback :=
  -- nothing is written for an instruction that is held back or flushed
  let writes := s.ex1.e.valid && !stage2Stall i && !i.flushIn
  { s.ex1.e with
    valid := writes
    interrupt := s.ex1.e.interrupt && !stage2Stall i && !i.flushIn
    lastNia :=
      if stage2Stall i then s.ex2.e.lastNia
      else if s.ex1.advanceNia then nextNia s
      else s.ex1.e.lastNia
    writeEnable := writes && s.ex1.e.writeEnable
    writeCrEnable := writes && s.ex1.e.writeCrEnable
    writeXercEnable := writes && s.ex1.e.writeXercEnable
    redirect := writes && s.ex1.e.redirect
    brLast := writes && s.ex1.e.brLast
    xerc := xerc2 s i
    writeData := exResult s i
    writeCrData :=
      if setsCr0 s then cr0 s i ++ s.ex1.e.writeCrData.extractLsb' 0 28
      else s.ex1.e.writeCrData
    writeCrMask := if setsCr0 s then setBit s.ex1.e.writeCrMask 7 true else s.ex1.e.writeCrMask }

def ex2in : Stage2 g.ncpus where
  e := e2Next s i
  se := if stage2Stall i || i.flushIn then {} else s.ex1.se
  logAddrSpr :=
    if does i s.ex1.se.writeLoga then s.ex1.sprWriteData.extractLsb' 0 32
    else if does i s.ex1.se.incLoga then s.ex2.logAddrSpr + 1
    else s.ex2.logAddrSpr

/-! ### Outputs -/

def dex : BitVec 5 :=
  if !msrBit s msrPr then s.ctrl.hdexcrHyp else s.ctrl.dexcrPro ||| s.ctrl.hdexcrEnf

def lOut : Execute1ToLoadstore1 where
  valid := go s i && i.e.unit == .ldst
  op := i.e.insnType
  insn := i.e.insn
  instrTag := i.e.instrTag
  addr1 := i.e.readData1
  addr2 := i.e.readData2
  data := i.e.readData3
  writeReg := i.e.writeReg
  length := i.e.dataLen
  ci := i.e.invertA
  byteReverse := !(i.e.byteReverse ^^ msrBit s msrLe)
  signExtend := i.e.signExtend
  update := i.e.update
  hash := i.e.isSigned
  xerc := xercIn s i
  reserve := i.e.reserve
  rc := i.e.rc
  virtMode := msrBit s msrDr
  privMode := !msrBit s msrPr
  mode32bit := !msrBit s msrSf
  is32bit := i.e.is32bit
  prefixed := i.e.prefixed
  repeat_ := i.e.repeat_
  second := i.e.second
  e2stall := i.fp.f2stall
  hashkey := ramsprOdd s i
  hashEnable := if i.e.insn.getLsbD 7 then (dex s).getLsbD 1 else (dex s).getLsbD 0

/-- `bypass_valid` of the first stage. -/
def bypassValid : Bool :=
  if s.ex1.bpermInProgress then s.bsort.bpDone
  else if s.ex1.bsortInProgress then s.bsort.sd
  else if s.ex1.mulInProgress then i.dp.multiplyValid && !s.ex1.oe
  else if !g.hasFpu && s.ex1.divInProgress then i.dp.dividerValid
  else actBypassValid g i

def bypassData : BypassData where
  tag := ⟨(e1Next s i).instrTag.tag, (e1Next s i).writeEnable && bypassValid s i⟩
  reg := (e1Next s i).writeReg
  data := aluResult s i

/-- `bypass_cr_data`. It speaks of the instruction that decode2 presents, even while the first stage
holds another one. -/
def bypassCrData : CrBypassData where
  tag := ⟨i.e.instrTag.tag, i.e.outputCr && bypassValid s i⟩
  data := i.dp.writeCrData

/-- `bypass_valid` of the second stage. -/
def bypass2Valid : Bool := s.ex1.e.valid && !s.ex1.res2Sel.getLsbD 1

def bypass2Data : BypassData where
  tag := ⟨s.ex1.e.instrTag.tag, s.ex1.e.writeEnable && bypass2Valid s⟩
  reg := s.ex1.e.writeReg
  data := exResult s i

def bypass2CrData : CrBypassData where
  tag := ⟨s.ex1.e.instrTag.tag, (s.ex1.e.writeCrEnable || setsCr0 s) && bypass2Valid s⟩
  data := (e2Next s i).writeCrData

/-! ### The clock edge -/

def resetMsr : BitVec 64 := setBit (setBit (setBit 0 msrSf true) msrHv true) msrLe true

def bsortInputs : BitSorter.Inputs where
  rst := i.rst
  rs := i.e.readData3
  rb := i.e.readData2
  go := go s i && startBsort i
  opc := i.e.insn.extractLsb' 6 2
  doBperm := go s i && startBperm i

/-- One clock edge: `execute1_0`, `ramspr_write`, `doorbell_sync` and the bit sorter. -/
def step : State g where
  ex1 := if i.rst then { msr := resetMsr } else ex1in s i
  ex2 := if i.rst then {} else ex2in s i
  ctrl := if i.rst then { msr := resetMsr } else ctrlTmp s i
  evenSprs := evenSprsNext s i
  oddSprs := oddSprsNext s i
  dhdPending :=
    if i.rst || s.ex2.se.clrHmsg then false
    else if i.msgIn then true
    else s.dhdPending
  bsort := BitSorter.step s.bsort (bsortInputs s i)

def eOut : Execute1ToWriteback := s.ex2.e

end Execute1

end Microwatt
