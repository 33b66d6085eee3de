import Microwatt.Control.Basic
import Microwatt.Decode.Decode1

/-!
# The second decode stage

`decode2` collects the operands of an instruction and, with the issue control inside it, decides
when it goes to execute1. The register `dc2` has two uses. While `e.valid` is set it holds an
instruction that has been issued and that execute1 may not have taken yet; if execute1 is busy, the
stage is deferred and nothing moves. While `busy` is set it holds an instruction that waits for its
operands, and picks up the values of registers as they appear on the bypass paths.

The fields of `e` that the model of execute1 does not have stand beside it in the register: the
operands' register numbers, which the issue control reads. The control signals of the rotator and of
the logical unit are left out.

## Main definitions

* `Decode2.Reg`, `Decode2.State`, `Decode2.Inputs` — the registers and the input ports
* `Decode2.fresh`, `Decode2.pending` — the instruction that is in the stage
* `Decode2.ctl` — the inputs of the issue control
* `Decode2.step` — one clock edge
-/

namespace Microwatt

structure RegisterFileToDecode2 where
  read1Data : BitVec 64 := 0
  read2Data : BitVec 64 := 0
  read3Data : BitVec 64 := 0
  deriving DecidableEq, Repr

structure CrFileToDecode2 where
  readCrData : BitVec 32 := 0
  readXercData : XerCommon := {}
  deriving DecidableEq, Repr

def bypassDataInit : BypassData := ⟨instrTagInit, 0, 0⟩

namespace Decode2

/-- `reg_type`, and the fields of `Decode2ToExecute1Type` that name the operands. -/
structure Reg where
  e : Decode2ToExecute1 := {}
  readReg1 : GsprIndex := 0
  readReg2 : GsprIndex := 0
  readReg3 : GsprIndex := 0
  regValid1 : Bool := false
  regValid2 : Bool := false
  regValid3 : Bool := false
  inputCr : Bool := false
  busy : Bool := false
  sglPipe : Bool := false
  prevSgl : Bool := false
  inputOv : Bool := false
  outputOv : Bool := false
  readRspr : Bool := false
  deriving DecidableEq, Repr

/-- The registers, with those of the issue control. -/
structure State where
  dc2 : Reg := {}
  control : Control.State

structure Generics where
  ex1Bypass : Bool := true
  hasFpu : Bool := true

structure Inputs where
  rst : Bool := false
  completeIn : InstrTag := instrTagInit
  busyIn : Bool := false
  flushIn : Bool := false
  d : Decode1ToDecode2 := {}
  r : RegisterFileToDecode2 := {}
  c : CrFileToDecode2 := {}
  executeBypass : BypassData := bypassDataInit
  executeCrBypass : CrBypassData := {}
  execute2Bypass : BypassData := bypassDataInit
  execute2CrBypass : CrBypassData := {}
  writebackBypass : BypassData := bypassDataInit
  dbgSprReq : Bool := false
  dbgSprAddr : BitVec 8 := 0
  tbRdProt : Bool := false
  deriving DecidableEq, Repr

/-! ### Operands -/

section Operands

variable (d : Decode1ToDecode2)

def insnPfxR (pfx : BitVec 26) : Bool := pfx.getLsbD 20

def decodeInputRegA (t : InputRegA) (insn : BitVec 32) : Bool :=
  match t with
  | .ra | .fra => true
  | .raOrZero | .ra0OrCia => insnRa insn != 0
  | .cia | .none => false

def decodeAConst (t : InputRegA) (pfx : BitVec 26) (ia : BitVec 64) : BitVec 64 :=
  if t = .cia ∨ (t = .ra0OrCia ∧ insnPfxR pfx = true) then ia else 0

def decodeBConst (t : ConstSel) (insn : BitVec 32) (pfx : BitVec 26) : BitVec 64 :=
  match t with
  | .ui => (insn.extractLsb' 0 16).setWidth 64
  | .si => (insn.extractLsb' 0 16).signExtend 64
  | .psi => (pfx.extractLsb' 0 18 ++ insn.extractLsb' 0 16).signExtend 64
  | .siHi => (insn.extractLsb' 0 16 ++ 0#16).signExtend 64
  | .uiHi => (insn.extractLsb' 0 16 ++ 0#16).setWidth 64
  | .li => (insn.extractLsb' 2 24 ++ 0#2).signExtend 64
  | .bd => (insn.extractLsb' 2 14 ++ 0#2).signExtend 64
  | .ds => (insn.extractLsb' 2 14 ++ 0#2).signExtend 64
  | .dq => (insn.extractLsb' 4 12 ++ 0#4).signExtend 64
  | .dxhi4 =>
    (insn.extractLsb' 6 10 ++ insn.extractLsb' 16 5 ++ insn.extractLsb' 0 1 ++ 4#16).signExtend 64
  | .m1 => BitVec.allOnes 64
  | .sh => (insn.extractLsb' 1 1 ++ insn.extractLsb' 11 5).setWidth 64
  | .sh32 => (insn.extractLsb' 11 5).setWidth 64
  | .none => 0

def decodeInputRegB (t : InputRegB) : Bool := t != .imm

def decodeInputRegC (t : InputRegC) : Bool := t != .none

def decodeOutputReg (hasFpu : Bool) (t : OutputRegA) (insn : BitVec 32) : Bool × GsprIndex :=
  match t with
  | .rt => (true, gprToGspr (insnRs insn))
  | .ra => (true, gprToGspr (insnRa insn))
  | .frt => if hasFpu then (true, fprToGspr (insnRs insn)) else (false, 0)
  | .none => (false, 0)

/-- An instruction that is not there, or whose suffix is illegal, has no operands. -/
def hasOperands : Bool := d.valid && !d.illegalSuffix

/-- `decoded_reg_a.reg_valid`. The operands RA and RB of a second part are ignored, in order to
avoid false dependencies on the output of the first. -/
def regAValid : Bool := decodeInputRegA d.decode.inputRegA d.insn && !d.second && hasOperands d

def regBValid : Bool := decodeInputRegB d.decode.inputRegB && !d.second && hasOperands d

/-- `decoded_reg_c.reg_valid`. -/
def regCValid : Bool := decodeInputRegC d.decode.inputRegC && hasOperands d

/-- This part of an instruction with a pair of registers has the odd one. -/
def oddPart : Bool := d.second == (d.bigEndian || d.prefixed)

def regO (hasFpu : Bool) : GsprIndex :=
  let reg := (decodeOutputReg hasFpu d.decode.outputRegA d.insn).2
  match d.decode.repeat_ with
  | .dupd => if d.second then d.regA else reg
  | .drtp => if oddPart d then reg ||| 1 else reg
  | _ => reg

def regOValid (hasFpu : Bool) : Bool :=
  (decodeOutputReg hasFpu d.decode.outputRegA d.insn).1 && hasOperands d

def decodeRc (t : RcType) (insn : BitVec 32) : Bool :=
  match t with
  | .rc | .rcoe => insn.getLsbD 0
  | .one => true
  | .none => false

end Operands

/-! ### The instruction -/

section Instruction

variable (d : Decode1ToDecode2)

/-- The SPR is one that loadstore1 holds: DAR, DSISR, PID, PTCR and the watchpoint registers. -/
def sprInLdst (sprn : BitVec 10) : Bool :=
  match sprn.toNat with
  | 19 | 18 | 48 | 464 | 180 | 181 | 188 | 189 => true
  | _ => false

/-- `decode_spr_num` of the instruction. -/
def sprn : BitVec 10 := Execute1.decodeSprNum d.insn

def op : InsnType := d.decode.insnType

def movesSpr : Bool := op d == .mfspr || op d == .mtspr

def unit : UnitType := if movesSpr d && sprInLdst (sprn d) then .ldst else d.decode.unit

def setsOv : Bool :=
  (op d == .add || op d == .mulL64 || op d == .div || op d == .dive) &&
    d.decode.rc == .rcoe && d.insn.getLsbD 10

def rc : Bool := decodeRc d.decode.rc d.insn

def outputXer : Bool := d.decode.outputCarry || setsOv d || (op d == .mtspr && sprn d == 1)

def inputOv : Bool :=
  d.decode.outputCarry || d.decode.inputCarry == .ov || (rc d && d.decode.facility != .fpu) ||
    setsOv d || (op d == .mfspr && sprn d == 1) || op d == .cmp || op d == .mcrxrx

def outputOv : Bool :=
  d.decode.inputCarry == .ov || setsOv d || (op d == .mtspr && sprn d == 1)

/-- `v.sgl_pipe` of a valid instruction. -/
def sglPipe : Bool :=
  d.decode.sglPipe ||
    (op d == .mtspr && (sprInLdst (sprn d) || (!d.sprInfo.ronly && d.sprInfo.valid)))

def sprSelect : SprId :=
  { d.sprInfo with
    valid := d.sprInfo.valid && !(op d == .mfspr && d.sprInfo.wonly) &&
      !(op d == .mtspr && d.sprInfo.ronly) }

/-- `decctr`: `bc`, `bclr` and `bctar` with BO(2) = 0 decrement CTR, but not `bcctr`. -/
def decctr : Bool :=
  !d.insn.getLsbD 23 &&
    (op d == .bc || (op d == .bcreg && !(d.insn.getLsbD 10 && !d.insn.getLsbD 6)))

def lr : Bool := d.decode.lr && d.insn.getLsbD 0

/-- A load or store that hashes. -/
def hashes : Bool := (op d == .load || op d == .store) && d.decode.isSigned

def sprsBusy : Bool :=
  match op d with
  | .bcreg | .rfid => true
  | .mfspr => d.ramSpr.valid
  | _ => decctr d || hashes d

/-- `RAMSPR_CTR`, `RAMSPR_TAR`, `RAMSPR_HASHKY`, `RAMSPR_HASHPK`. -/
abbrev ramsprCtr : RamsprIndex := 5
abbrev ramsprTar : RamsprIndex := 6
abbrev ramsprHashky : RamsprIndex := 6
abbrev ramsprHashpk : RamsprIndex := 7

def ramsprEvenRdaddr : RamsprIndex :=
  match op d with
  | .bcreg =>
    if !d.insn.getLsbD 10 then Execute1.ramsprLr
    else if !d.insn.getLsbD 6 then 0
    else ramsprTar
  | .mfspr => d.ramSpr.index
  | .rfid =>
    if d.insn.getLsbD 7 then Execute1.ramsprLr
    else if !d.insn.getLsbD 9 then Execute1.ramsprSrr0
    else Execute1.ramsprHsrr0
  | _ => 0

def ramsprOddRdaddr : RamsprIndex :=
  match op d with
  | .bc => if decctr d then ramsprCtr else 0
  | .bcreg =>
    if decctr d || (d.insn.getLsbD 10 && !d.insn.getLsbD 6) then ramsprCtr else 0
  | .mfspr => d.ramSpr.index
  | .rfid =>
    if d.insn.getLsbD 7 then ramsprCtr
    else if !d.insn.getLsbD 9 then Execute1.ramsprSrr0
    else Execute1.ramsprHsrr0
  | .load | .store =>
    if d.decode.isSigned then if d.insn.getLsbD 7 then ramsprHashky else ramsprHashpk else 0
  | _ => 0

def ramsprRdOdd : Bool :=
  match op d with
  | .bcreg => d.insn.getLsbD 10 && !d.insn.getLsbD 6
  | .mfspr => d.ramSpr.isodd
  | _ => hashes d

def ramsprWraddr : RamsprIndex :=
  match op d with
  | .mtspr => d.ramSpr.index
  | _ => if lr d then Execute1.ramsprLr else if decctr d then ramsprCtr else 0

/-- `length`. -/
def dataLen : BitVec 4 :=
  match d.decode.length with
  | .is1b => 0b0001
  | .is2b => 0b0010
  | .is4b => 0b0100
  | .is8b => 0b1000
  | .none => 0b0000

/-- `v.e.illegal_form`: a load quadword whose target is also its base, or a quadword access with an
odd register. -/
def illegalForm : Bool :=
  (d.decode.repeat_ == .drtp &&
    (insnRa d.insn == insnRs d.insn || (d.decode.reserve && insnRb d.insn == insnRs d.insn))) ||
  ((d.decode.repeat_ == .drsp || d.decode.repeat_ == .drtp) && d.insn.getLsbD 21)

/-- `v.e.privileged`. Reading the time base is privileged if `tb_ctrl` says so. -/
def privileged (tbRdProt : Bool) : Bool :=
  d.decode.privileged || (movesSpr d && d.insn.getLsbD 20) ||
    (tbRdProt && op d == .mfspr && d.sprInfo.valid && (d.sprInfo.sel == 1 || d.sprInfo.sel == 2))

end Instruction

variable (g : Generics) (s : State) (i : Inputs)

/-- `v.e` of a new instruction, before the operands are filled in. -/
def freshE (g : Generics) (i : Inputs) : Decode2ToExecute1 where
  unit := unit i.d
  fac := i.d.decode.facility
  insnType := op i.d
  nia := i.d.nia
  writeReg := regO i.d g.hasFpu
  writeRegEnable := regOValid i.d g.hasFpu
  lr := lr i.d
  rc := rc i.d
  oe := setsOv i.d
  invertA := i.d.decode.invertA
  inputCarry := i.d.decode.inputCarry
  outputCarry := i.d.decode.outputCarry
  outputCr := i.d.decode.outputCr
  outputXer := outputXer i.d
  is32bit := i.d.decode.is32bit
  isSigned := i.d.decode.isSigned
  insn := i.d.insn
  dataLen := dataLen i.d
  byteReverse := i.d.decode.byteReverse
  signExtend := i.d.decode.signExtend
  update := i.d.decode.update
  reserve := i.d.decode.reserve
  brPred := i.d.brPred
  resultSel := i.d.decode.result
  subSelect := i.d.decode.subresult
  repeat_ := i.d.decode.repeat_ != .none
  second := i.d.second
  sprSelect := sprSelect i.d
  sprIsRam := movesSpr i.d && i.d.ramSpr.valid
  ramsprEvenRdaddr := ramsprEvenRdaddr i.d
  ramsprOddRdaddr := ramsprOddRdaddr i.d
  ramsprRdOdd := ramsprRdOdd i.d
  ramsprWraddr := ramsprWraddr i.d
  ramsprWriteEven := if op i.d == .mtspr then i.d.ramSpr.valid && !i.d.ramSpr.isodd else lr i.d
  ramsprWriteOdd := if op i.d == .mtspr then i.d.ramSpr.valid && i.d.ramSpr.isodd else decctr i.d
  ramspr32bit := op i.d == .mfspr && i.d.ramSpr.is32b
  decCtr := decctr i.d
  privileged := privileged i.d i.tbRdProt
  prefixed := i.d.prefixed
  pfx := i.d.pfx
  illegalSuffix := i.d.illegalSuffix
  misalignedPrefix := i.d.misalignedPrefix
  illegalForm := illegalForm i.d
  usesTar := (movesSpr i.d && sprn i.d == 815) ||
    (op i.d == .bcreg && i.d.insn.getLsbD 10 && i.d.insn.getLsbD 6)
  usesDscr := movesSpr i.d && sprn i.d == 3

/-- `v` of a new instruction. -/
def fresh : Reg where
  e := freshE g i
  readReg1 := i.d.regA
  readReg2 := i.d.regB
  readReg3 := i.d.regC
  regValid1 := regAValid i.d
  regValid2 := regBValid i.d
  regValid3 := regCValid i.d
  inputCr := i.d.decode.inputCr
  sglPipe := if i.d.valid then sglPipe i.d else s.dc2.sglPipe
  prevSgl := if i.d.valid then s.dc2.sglPipe else s.dc2.prevSgl
  inputOv := inputOv i.d
  outputOv := outputOv i.d
  readRspr := sprsBusy i.d && i.d.valid

/-- The instruction in the stage, before the operands are filled in. -/
def pending : Reg := if s.dc2.busy then s.dc2 else fresh g s i

/-! ### Issue -/

def deferred : Bool := s.dc2.e.valid && i.busyIn

def validIn : Bool := i.d.valid || s.dc2.busy

def ctl : Control.Inputs where
  rst := i.rst
  completeIn := i.completeIn
  validIn := validIn s i
  flushIn := i.flushIn
  deferred := deferred s i
  serialize := (pending g s i).sglPipe || (pending g s i).prevSgl
  stopMarkIn := i.d.stopMark
  gprWriteValidIn := (pending g s i).e.writeRegEnable
  gprWriteIn := (pending g s i).e.writeReg
  gprAReadValidIn := (pending g s i).regValid1
  gprAReadIn := (pending g s i).readReg1
  gprBReadValidIn := (pending g s i).regValid2
  gprBReadIn := (pending g s i).readReg2
  gprCReadValidIn := (pending g s i).regValid3
  gprCReadIn := (pending g s i).readReg3
  executeNextBypass := i.executeBypass
  execute2NextBypass := i.execute2Bypass
  writebackBypass := i.writebackBypass
  executeNextCrTag := i.executeCrBypass.tag
  execute2NextCrTag := i.execute2CrBypass.tag
  crReadIn := (pending g s i).e.outputCr || (pending g s i).e.rc || (pending g s i).inputCr
  crWriteIn := (pending g s i).e.outputCr || (pending g s i).e.rc
  ovReadIn := (pending g s i).inputOv
  ovWriteIn := (pending g s i).outputOv

def validOut : Bool := Control.validOut g.ex1Bypass s.control (ctl g s i)

def instrTag : InstrTag := Control.instrTag g.ex1Bypass s.control (ctl g s i)

def stoppedOut : Bool := Control.stoppedOut s.control (ctl g s i)

def stallOut : Bool := s.dc2.busy || deferred s i

/-! ### Bypasses -/

/-- `andor`: the value on the bypass path that was chosen. -/
def bypassed (sel : BitVec 4) (i : Inputs) : BitVec 64 :=
  (if sel.getLsbD 1 then i.executeBypass.data else 0) |||
    (if sel.getLsbD 2 then i.execute2Bypass.data else 0) |||
    (if sel.getLsbD 3 then i.writebackBypass.data else 0)

/-- One operand: from a bypass path, or as it is in the register, or from the register file or the
instruction. -/
def operand (sel : BitVec 4) (busy regValid : Bool) (held read const : BitVec 64) (i : Inputs) :
    BitVec 64 :=
  if sel.getLsbD 0 then bypassed sel i
  else if busy then held
  else if regValid then read
  else const

def readData1 : BitVec 64 :=
  operand (Control.gprBypassA g.ex1Bypass (ctl g s i)) s.dc2.busy (regAValid i.d)
    s.dc2.e.readData1 i.r.read1Data (decodeAConst i.d.decode.inputRegA i.d.pfx i.d.nia) i

def readData2 : BitVec 64 :=
  operand (Control.gprBypassB g.ex1Bypass (ctl g s i)) s.dc2.busy (regBValid i.d)
    s.dc2.e.readData2 i.r.read2Data (decodeBConst i.d.decode.constSel i.d.insn i.d.pfx) i

def readData3 : BitVec 64 :=
  operand (Control.gprBypassC g.ex1Bypass (ctl g s i)) s.dc2.busy (regCValid i.d)
    s.dc2.e.readData3 i.r.read3Data 0 i

def crData : BitVec 32 :=
  if Control.crBypass g.ex1Bypass s.control (ctl g s i) = 0b10 then i.executeCrBypass.data
  else if Control.crBypass g.ex1Bypass s.control (ctl g s i) = 0b11 then i.execute2CrBypass.data
  else i.c.readCrData

/-- `v.e.dbg_spr_access`: the SPRs are read for the debug unit. -/
def dbgSprAccess : Bool := i.dbgSprReq && !(pending g s i).readRspr

/-! ### The registers after the edge -/

def eNext : Decode2ToExecute1 :=
  { (pending g s i).e with
    valid := validOut g s i
    instrTag := instrTag g s i
    readData1 := readData1 g s i
    readData2 := readData2 g s i
    readData3 := readData3 g s i
    cr := crData g s i
    xerc := i.c.readXercData
    ramsprEvenRdaddr :=
      if dbgSprAccess g s i then i.dbgSprAddr.extractLsb' 1 3
      else (pending g s i).e.ramsprEvenRdaddr
    ramsprOddRdaddr :=
      if dbgSprAccess g s i then i.dbgSprAddr.extractLsb' 1 3
      else (pending g s i).e.ramsprOddRdaddr
    ramsprRdOdd :=
      if dbgSprAccess g s i then i.dbgSprAddr.getLsbD 0 else (pending g s i).e.ramsprRdOdd }

def dc2in : Reg :=
  { pending g s i with
    e := eNext g s i
    busy := validIn s i && !validOut g s i }

/-- `dc2` while the stage is deferred: the debug unit may use the SPR read port. -/
def dc2Held : Reg :=
  { s.dc2 with
    e := { s.dc2.e with
      ramsprEvenRdaddr :=
        if s.dc2.readRspr then s.dc2.e.ramsprEvenRdaddr else (eNext g s i).ramsprEvenRdaddr
      ramsprOddRdaddr :=
        if s.dc2.readRspr then s.dc2.e.ramsprOddRdaddr else (eNext g s i).ramsprOddRdaddr
      ramsprRdOdd := if s.dc2.readRspr then s.dc2.e.ramsprRdOdd else (eNext g s i).ramsprRdOdd } }

def dc2Next : Reg :=
  if i.rst || i.flushIn then {} else if deferred s i then dc2Held g s i else dc2in g s i

def step : State where
  dc2 := dc2Next g s i
  control := Control.step g.ex1Bypass s.control (ctl g s i)

def eOut : Decode2ToExecute1 := s.dc2.e

theorem validIn_of_validOut {g s i} (h : validOut g s i = true) : validIn s i = true := by
  simp only [validOut, Control.validOut] at h
  split at h
  · cases h
  · split at h
    · cases h
    · exact (Bool.and_eq_true_iff.mp h).1

end Decode2

end Microwatt
