import Microwatt.Decode.Decode2
import Microwatt.Writeback

/-!
# The register file

`register_file.vhdl`: 64 registers with three read ports, read at the clock edge with the addresses
that decode1 sends. While decode2 stalls the ports are read again with the same addresses. A write
at the same edge is forwarded to the ports, so that what is read is the content after the edge.

The debug unit reads through the second port when no instruction uses it. Its acknowledgement is
left out, and so is the dump at the end of a simulation.

## Main definitions

* `RegisterFile.step`, `RegisterFile.dOut`

## Main results

* `RegisterFile.readInv_step` — the ports show the registers as they are
-/

namespace Microwatt

namespace RegisterFile

/-- The registers and the latches of the read ports. -/
structure State where
  registers : GsprIndex → BitVec 64 := fun _ => 0
  addr1Reg : GsprIndex := 0
  addr2Reg : GsprIndex := 0
  addr3Reg : GsprIndex := 0
  rd2 : Bool := false
  fwd1 : Bool := false
  fwd2 : Bool := false
  fwd3 : Bool := false
  data1 : BitVec 64 := 0
  data2 : BitVec 64 := 0
  data3 : BitVec 64 := 0
  prevWriteData : BitVec 64 := 0

structure Inputs where
  stall : Bool := false
  d1 : Decode1ToRegisterFile := {}
  w : WritebackToRegisterFile := {}
  dbgGprReq : Bool := false
  dbgGprAddr : GsprIndex := 0
  deriving DecidableEq, Repr

variable (hasFpu : Bool) (s : State) (i : Inputs)

/-- A number without the bit that tells FPRs from GPRs. -/
def clearFpr (reg : GsprIndex) : GsprIndex := 0#1 ++ reg.extractLsb' 0 5

/-- The register that a number stands for; without an FPU there are only 32. -/
def select (reg : GsprIndex) : GsprIndex := if hasFpu then reg else clearFpr reg

def wAddr : GsprIndex :=
  if hasFpu && i.w.writeReg.getLsbD 5 then i.w.writeReg else clearFpr i.w.writeReg

def aAddr : GsprIndex := if i.stall then s.addr1Reg else i.d1.reg1Addr

/-- `b_addr` before the debug unit takes the port. -/
def bAddr : GsprIndex := if i.stall then s.addr2Reg else i.d1.reg2Addr

def cAddr : GsprIndex := if i.stall then s.addr3Reg else i.d1.reg3Addr

def bEnable : Bool := if i.stall then s.rd2 else i.d1.read2Enable

def bAddrRead : GsprIndex :=
  if i.dbgGprReq && !bEnable s i then i.dbgGprAddr else bAddr s i

def step : State where
  registers := fun reg =>
    if i.w.writeEnable && reg == wAddr hasFpu i then i.w.writeData else s.registers reg
  addr1Reg := aAddr s i
  addr2Reg := bAddr s i
  addr3Reg := cAddr s i
  rd2 := bEnable s i
  fwd1 := i.w.writeEnable && wAddr hasFpu i == aAddr s i
  fwd2 := i.w.writeEnable && wAddr hasFpu i == bAddr s i
  fwd3 := i.w.writeEnable && wAddr hasFpu i == cAddr s i
  data1 := s.registers (select hasFpu (aAddr s i))
  data2 := s.registers (select hasFpu (bAddrRead s i))
  data3 := s.registers (select hasFpu (cAddr s i))
  prevWriteData := i.w.writeData

def dOut : RegisterFileToDecode2 where
  read1Data := if s.fwd1 then s.prevWriteData else s.data1
  read2Data := if s.fwd2 then s.prevWriteData else s.data2
  read3Data := if s.fwd3 then s.prevWriteData else s.data3

/-! ### What the ports show -/

variable {hasFpu s i}

/-- A register that exists: any one with an FPU, a GPR without. -/
def Exists (hasFpu : Bool) (reg : GsprIndex) : Prop := hasFpu = true ∨ reg.getLsbD 5 = false

theorem clearFpr_eq {reg : GsprIndex} (h : reg.getLsbD 5 = false) : clearFpr reg = reg := by
  simp only [clearFpr]
  revert reg
  decide

theorem select_eq {reg : GsprIndex} (h : Exists hasFpu reg) : select hasFpu reg = reg := by
  rcases h with rfl | h
  · rfl
  · cases hasFpu with
    | true => rfl
    | false => exact clearFpr_eq h

theorem wAddr_eq (h : Exists hasFpu i.w.writeReg) : wAddr hasFpu i = i.w.writeReg := by
  cases h5 : i.w.writeReg.getLsbD 5 with
  | false =>
    simp only [wAddr, h5, Bool.and_false, Bool.false_eq_true, if_false]
    exact clearFpr_eq h5
  | true =>
    have hfpu : hasFpu = true := by
      rcases h with h | h
      · exact h
      · rw [h5] at h; cases h
    rw [wAddr, hfpu, h5]
    rfl

/-- Each port shows the register it was asked for. The second port may have been used by the debug
unit, but not if an instruction reads through it. -/
structure ReadInv (hasFpu : Bool) (s : State) : Prop where
  port1 : Exists hasFpu s.addr1Reg → (dOut s).read1Data = s.registers s.addr1Reg
  port2 : Exists hasFpu s.addr2Reg → s.rd2 = true →
    (dOut s).read2Data = s.registers s.addr2Reg
  port3 : Exists hasFpu s.addr3Reg → (dOut s).read3Data = s.registers s.addr3Reg

/-- A read with forwarding gives the content after the edge. -/
theorem read_forwarded {reg w : GsprIndex} {we : Bool} {data : BitVec 64}
    {regs : GsprIndex → BitVec 64} :
    (if we && w == reg then data else regs reg) =
      if we && reg == w then data else regs reg := by
  rw [BEq.comm (a := w)]

theorem readInv_step : ReadInv hasFpu (step hasFpu s i) := by
  refine ⟨fun hex => ?_, fun hex hrd => ?_, fun hex => ?_⟩
  · simp only [dOut, step] at hex ⊢
    rw [select_eq hex]
    exact read_forwarded
  · have hen : bEnable s i = true := hrd
    have hport : bAddrRead s i = bAddr s i := by simp [bAddrRead, hen]
    simp only [dOut, step, hport] at hex ⊢
    rw [select_eq hex]
    exact read_forwarded
  · simp only [dOut, step] at hex ⊢
    rw [select_eq hex]
    exact read_forwarded

end RegisterFile

end Microwatt
