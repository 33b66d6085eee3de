import Microwatt.Common

/-!
# The issue control unit

`control.vhdl`, translated. Control hands out one of `TAG_COUNT` tags to every instruction that
issues, remembers in `tag_regs` which register the holder of each tag will write, and holds back
an instruction whose operands are still on their way.

The three operand ports `a`, `b` and `c` are treated alike by the source, which repeats one block
of code three times; here the block is `hazardTag` and `bypassSel`, and each port applies it to
its own inputs.

## Main definitions

* `Control.State`, `Control.Inputs` — the registers and the input ports
* `Control.tagA`, `tagB`, `tagC` — the operand hazards
* `Control.validOut`, `Control.instrTag` — the decision to issue and the tag handed out
* `Control.step` — one clock edge
-/

namespace Microwatt

namespace Control

structure TagRegister where
  wrGpr : Bool
  reg : GsprIndex
  recent : Bool
  wrCr : Bool
  wrOv : Bool
  valid : Bool
  deriving DecidableEq, Repr

structure State where
  tagRegs : TagNumber → TagRegister
  currTag : TagNumber
  currCrTag : TagNumber
  currOvTag : TagNumber
  prevTag : TagNumber

structure Inputs where
  rst : Bool
  completeIn : InstrTag
  validIn : Bool
  flushIn : Bool
  deferred : Bool
  serialize : Bool
  stopMarkIn : Bool
  gprWriteValidIn : Bool
  gprWriteIn : GsprIndex
  gprAReadValidIn : Bool
  gprAReadIn : GsprIndex
  gprBReadValidIn : Bool
  gprBReadIn : GsprIndex
  gprCReadValidIn : Bool
  gprCReadIn : GsprIndex
  executeNextBypass : BypassData
  execute2NextBypass : BypassData
  writebackBypass : BypassData
  executeNextCrTag : InstrTag
  execute2NextCrTag : InstrTag
  crReadIn : Bool
  crWriteIn : Bool
  ovReadIn : Bool
  ovWriteIn : Bool

/-- The generic `EX1_BYPASS`: whether results are taken from the execute stages. -/
abbrev Ex1Bypass := Bool

/-! ### Operand hazards

`control_hazards`, for one operand port. -/

/-- Is the pending tag served in this cycle, by one of the two execute bypasses or by the
completion port? -/
def served (ex1Bypass : Ex1Bypass) (i : Inputs) (tag : InstrTag) : Bool :=
  (ex1Bypass && tagMatch i.executeNextBypass.tag tag) ||
    (ex1Bypass && tagMatch i.execute2NextBypass.tag tag) || tagMatch i.completeIn tag

/-- Tag `t` is the one to wait for when register `reg` is read. -/
def pendingWrite (s : State) (t : TagNumber) (reg : GsprIndex) : Bool :=
  (s.tagRegs t).valid && (s.tagRegs t).recent && (s.tagRegs t).reg == reg

section

variable (ex1Bypass : Ex1Bypass)

section

variable (s : State) (i : Inputs) (readValid : Bool) (readReg : GsprIndex)

/-- One turn of the loop over the tags. -/
def hazardStep (acc : InstrTag) (t : TagNumber) : InstrTag :=
  if pendingWrite s t readReg && readValid then
    if served ex1Bypass i ⟨t, true⟩ then ⟨t, false⟩ else ⟨t, true⟩
  else acc

/-- The loop over the tags: the tag, if any, that the operand has to wait for. -/
def hazardTag : InstrTag :=
  (List.finRange tagCount).foldl (hazardStep ex1Bypass s i readValid readReg) instrTagInit

end

/-- The one-hot choice of a bypass source for an operand, with bit 0 saying that it is used. -/
def bypassSel (i : Inputs) (readValid : Bool) (readReg : GsprIndex) :
    BitVec 4 :=
  let byp : BitVec 4 :=
    if ex1Bypass && i.executeNextBypass.tag.valid && i.executeNextBypass.reg == readReg then 2
    else if ex1Bypass && i.execute2NextBypass.tag.valid &&
        i.execute2NextBypass.reg == readReg then 4
    else if i.writebackBypass.tag.valid && i.writebackBypass.reg == readReg then 8
    else 0
  if readValid && byp != 0 then byp ||| 1 else byp

def tagA (s : State) (i : Inputs) : InstrTag :=
  hazardTag ex1Bypass s i i.gprAReadValidIn i.gprAReadIn

def tagB (s : State) (i : Inputs) : InstrTag :=
  hazardTag ex1Bypass s i i.gprBReadValidIn i.gprBReadIn

def tagC (s : State) (i : Inputs) : InstrTag :=
  hazardTag ex1Bypass s i i.gprCReadValidIn i.gprCReadIn

def gprBypassA (i : Inputs) : BitVec 4 :=
  bypassSel ex1Bypass i i.gprAReadValidIn i.gprAReadIn

def gprBypassB (i : Inputs) : BitVec 4 :=
  bypassSel ex1Bypass i i.gprBReadValidIn i.gprBReadIn

def gprBypassC (i : Inputs) : BitVec 4 :=
  bypassSel ex1Bypass i i.gprCReadValidIn i.gprCReadIn

def gprTagStall (s : State) (i : Inputs) : Bool :=
  (tagA ex1Bypass s i).valid || (tagB ex1Bypass s i).valid || (tagC ex1Bypass s i).valid

end

/-! ### Condition register, overflow and serialization hazards -/

def tagCr (s : State) (i : Inputs) : InstrTag :=
  let tag : InstrTag := ⟨s.currCrTag, i.crReadIn && (s.tagRegs s.currCrTag).wrCr⟩
  if tagMatch tag i.completeIn then { tag with valid := false } else tag

def crBypass (ex1Bypass : Ex1Bypass) (s : State) (i : Inputs) : BitVec 2 :=
  if ex1Bypass && tagMatch i.executeNextCrTag (tagCr s i) then 2
  else if ex1Bypass && tagMatch i.execute2NextCrTag (tagCr s i) then 3
  else 0

def crTagStall (ex1Bypass : Ex1Bypass) (s : State) (i : Inputs) : Bool :=
  (tagCr s i).valid && !(crBypass ex1Bypass s i).getLsbD 1

section

variable (s : State) (i : Inputs)

def tagOv : InstrTag :=
  let tag : InstrTag := ⟨s.currOvTag, i.ovReadIn && (s.tagRegs s.currOvTag).wrOv⟩
  if tagMatch tag i.completeIn then { tag with valid := false } else tag

def ovTagStall : Bool := (tagOv s i).valid

def tagPrev : InstrTag :=
  let tag : InstrTag := ⟨s.prevTag, (s.tagRegs s.prevTag).valid⟩
  if tagMatch tag i.completeIn then { tag with valid := false } else tag

def serialStall : Bool := (tagPrev s i).valid

end

/-! ### The decision to issue

`control1`, and the part of `control_hazards` that picks the tag. -/

def validOut (ex1Bypass : Ex1Bypass) (s : State) (i : Inputs) : Bool :=
  let validTmp := if i.rst then false else i.validIn && !i.flushIn
  if gprTagStall ex1Bypass s i || crTagStall ex1Bypass s i || ovTagStall s i ||
      (i.serialize && serialStall s i) then false
  else validTmp

def stoppedOut (s : State) (i : Inputs) : Bool := i.stopMarkIn && !serialStall s i

section

variable (ex1Bypass : Ex1Bypass) (s : State) (i : Inputs)

def gprWriteValid : Bool :=
  i.gprWriteValidIn && validOut ex1Bypass s i

def crWriteValid : Bool :=
  i.crWriteIn && validOut ex1Bypass s i

def ovWriteValid : Bool :=
  i.ovWriteIn && validOut ex1Bypass s i

/-- `instr_tag`, also the output `instr_tag_out`. -/
def instrTag : InstrTag :=
  ⟨s.currTag, validOut ex1Bypass s i && !i.deferred⟩

@[simp] theorem instrTag_tag :
    (instrTag ex1Bypass s i).tag = s.currTag := rfl

def nextTag : TagNumber :=
  if (instrTag ex1Bypass s i).valid then s.currTag + 1 else s.currTag

end

/-! ### The registers

`control0`. The assignments of one tag register are composed in the order of the source, so that
an allocation in the cycle of a completion wins. -/

/-- A completion releases the tag. -/
def TagRegister.complete (r : TagRegister) : TagRegister :=
  { r with wrGpr := false, wrCr := false, wrOv := false, valid := false }

/-- The next contents of the tag register `t` outside reset and flush. -/
def nextTagReg (ex1Bypass : Ex1Bypass) (s : State) (i : Inputs) (t : TagNumber) : TagRegister :=
  let r := s.tagRegs t
  let tag := instrTag ex1Bypass s i
  let r1 := if i.completeIn.valid && t == i.completeIn.tag then r.complete else r
  let r2 :=
    if tag.valid && gprWriteValid ex1Bypass s i && r.reg == i.gprWriteIn then
      { r1 with recent := false }
    else r1
  if tag.valid && t == tag.tag then
    { wrGpr := gprWriteValid ex1Bypass s i
      reg := i.gprWriteIn
      recent := gprWriteValid ex1Bypass s i
      wrCr := crWriteValid ex1Bypass s i
      wrOv := ovWriteValid ex1Bypass s i
      valid := true }
  else r2

def step (ex1Bypass : Ex1Bypass) (s : State) (i : Inputs) : State where
  tagRegs t :=
    if i.rst || i.flushIn then (s.tagRegs t).complete else nextTagReg ex1Bypass s i t
  currTag := if i.rst then 0 else nextTag ex1Bypass s i
  currCrTag :=
    if i.rst then 0
    else if (instrTag ex1Bypass s i).valid && crWriteValid ex1Bypass s i then
      (instrTag ex1Bypass s i).tag
    else s.currCrTag
  currOvTag :=
    if i.rst then 0
    else if (instrTag ex1Bypass s i).valid && ovWriteValid ex1Bypass s i then
      (instrTag ex1Bypass s i).tag
    else s.currOvTag
  prevTag :=
    if i.rst then 0
    else if validOut ex1Bypass s i then (instrTag ex1Bypass s i).tag
    else s.prevTag

/-- The registers after a reset: no tag is held. The other fields of the tag registers are not
reset and may hold anything. -/
def IsReset (s : State) : Prop :=
  (∀ t, (s.tagRegs t).wrGpr = false ∧ (s.tagRegs t).wrCr = false ∧
      (s.tagRegs t).wrOv = false ∧ (s.tagRegs t).valid = false) ∧
    s.currTag = 0 ∧ s.currCrTag = 0 ∧ s.currOvTag = 0 ∧ s.prevTag = 0

/-- A clock edge with `rst` asserted leaves every state reset. -/
theorem isReset_step (ex1Bypass : Ex1Bypass) (s : State) (i : Inputs) (h : i.rst = true) :
    IsReset (step ex1Bypass s i) := by
  simp [IsReset, step, h, TagRegister.complete]

end Control

end Microwatt
