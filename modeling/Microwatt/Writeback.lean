import Microwatt.Execute.Basic
import Microwatt.Fetch.Basic

/-!
# Writeback

`writeback.vhdl`, which has no registers: it merges what execute1, loadstore1 and the FPU present
into one write of the register file, one write of CR and XER, one completion and one redirect. It
relies on at most one of the units presenting each of these, and only asserts it.

The assignments in the source are made one after the other, so that of several writes the last one
counts; here the last is tested first.

## Main definitions

* `Writeback.Consistent` — the assertions
* `Writeback.completeOut`, `Writeback.wOut`, `Writeback.interruptOut`
-/

namespace Microwatt

/-- `FPUToWritebackType`, with the values of `FPUToWritebackInit`. -/
structure FPUToWriteback where
  valid : Bool := false
  interrupt : Bool := false
  instrTag : InstrTag := instrTagInit
  writeEnable : Bool := false
  writeReg : GsprIndex := 0
  writeData : BitVec 64 := 0
  writeCrEnable : Bool := false
  writeCrMask : BitVec 8 := 0
  writeCrData : BitVec 32 := 0
  writeXerc : Bool := false
  xerc : XerCommon := {}
  intrVec : BitVec 12 := 0
  srr1 : BitVec 16 := 0
  deriving DecidableEq, Repr

def loadstore1ToWritebackInit : Loadstore1ToWriteback where
  valid := false
  instrTag := instrTagInit
  writeEnable := false
  writeReg := 0
  writeData := 0
  xerc := {}
  rc := false
  storeDone := false
  interrupt := false
  intrVec := 0
  srr1 := 0

structure WritebackToRegisterFile where
  writeReg : GsprIndex := 0
  writeData : BitVec 64 := 0
  writeEnable : Bool := false
  deriving DecidableEq, Repr

structure WritebackToCrFile where
  writeCrEnable : Bool := false
  writeCrMask : BitVec 8 := 0
  writeCrData : BitVec 32 := 0
  writeXercEnable : Bool := false
  writeXercData : XerCommon := {}
  deriving DecidableEq, Repr

namespace Writeback

structure Inputs where
  e : Execute1ToWriteback := {}
  l : Loadstore1ToWriteback := loadstore1ToWritebackInit
  fp : FPUToWriteback := {}
  deriving DecidableEq, Repr

variable (i : Inputs)

/-- What the assertions of `writeback_0` say. -/
structure Consistent : Prop where
  valid : i.e.valid.toNat + i.l.valid.toNat + i.fp.valid.toNat ≤ 1
  writeEnable : i.e.writeEnable.toNat + i.l.writeEnable.toNat + i.fp.writeEnable.toNat ≤ 1
  writeCr : i.e.writeCrEnable.toNat + i.l.rc.toNat + i.fp.writeCrEnable.toNat ≤ 1
  writeXer : (i.e.writeXercEnable && i.fp.writeXerc) = false
  tagE : i.e.valid = true → i.e.instrTag.valid = true
  tagL : i.l.valid = true → i.l.instrTag.valid = true
  tagFp : i.fp.valid = true → i.fp.instrTag.valid = true

def completeOut : InstrTag :=
  if i.e.valid then i.e.instrTag
  else if i.l.valid then i.l.instrTag
  else if i.fp.valid then i.fp.instrTag
  else instrTagInit

def intr : Bool := i.e.interrupt || i.l.interrupt || i.fp.interrupt

def vec : BitVec 12 :=
  if i.e.interrupt then i.e.intrVec
  else if i.l.interrupt then i.l.intrVec
  else if i.fp.interrupt then i.fp.intrVec
  else 0

def interruptOut : WritebackToExecute1 where
  intr := intr i
  hvIntr := i.e.interrupt && i.e.hvIntr
  scvInt := i.e.interrupt && i.e.isScv
  altInt := i.e.altIntr
  srr1 :=
    if i.e.interrupt then i.e.srr1
    else if i.l.interrupt then i.l.srr1
    else if i.fp.interrupt then i.fp.srr1
    else 0

/-! ### Results -/

def wOut : WritebackToRegisterFile :=
  if intr i then {}
  else if i.l.writeEnable then ⟨i.l.writeReg, i.l.writeData, true⟩
  else if i.fp.writeEnable then ⟨i.fp.writeReg, i.fp.writeData, true⟩
  else if i.e.writeEnable then ⟨i.e.writeReg, i.e.writeData, true⟩
  else {}

/-- CR data of execute1 and the FPU. -/
def crData : BitVec 32 :=
  if i.fp.writeCrEnable then i.fp.writeCrData
  else if i.e.writeCrEnable then i.e.writeCrData
  else 0

/-- `scf`: CR0 of a store conditional. -/
def scf : BitVec 4 := 0#2 ++ BitVec.ofBool i.l.storeDone ++ BitVec.ofBool i.l.xerc.so

def cOut : WritebackToCrFile where
  writeCrEnable := !intr i && (i.l.rc || i.fp.writeCrEnable || i.e.writeCrEnable)
  writeCrMask :=
    if intr i then 0
    else if i.l.rc then 0b10000000
    else if i.fp.writeCrEnable then i.fp.writeCrMask
    else if i.e.writeCrEnable then i.e.writeCrMask
    else 0
  writeCrData :=
    if intr i then 0
    else if i.l.rc then scf i ++ (crData i).extractLsb' 0 28
    else crData i
  writeXercEnable := !intr i && (i.fp.writeXerc || i.e.writeXercEnable)
  writeXercData :=
    if intr i then {}
    else if i.fp.writeXerc then i.fp.xerc
    else if i.e.writeXercEnable then i.e.xerc
    else {}

def wbBypass : BypassData where
  tag := ⟨(completeOut i).tag, (completeOut i).valid && (wOut i).writeEnable⟩
  reg := (wOut i).writeReg
  data := (wOut i).writeData

/-! ### Redirection -/

def intrPage : BitVec 5 :=
  if i.e.interrupt && i.e.isScv then if i.e.altIntr then 0x3 else 0x17
  else if i.e.altIntr then 0x4
  else 0

def fOut : WritebackToFetch1 where
  interrupt := intr i
  altIntr := i.e.altIntr
  intrVec :=
    BitVec.ofBool i.e.altIntr ++ BitVec.ofBool i.e.altIntr ++ 0#45 ++ intrPage i ++ vec i
  redirect := i.e.redirect
  redirectNia := i.e.writeData
  brNia := i.e.lastNia
  brLast := i.e.brLast && !intr i
  brTaken := i.e.brTaken
  virtMode := i.e.redirMode.getLsbD 3
  privMode := i.e.redirMode.getLsbD 2
  bigEndian := i.e.redirMode.getLsbD 1
  mode32bit := i.e.redirMode.getLsbD 0

def flushOut : Bool := i.e.redirect || intr i

end Writeback

end Microwatt
