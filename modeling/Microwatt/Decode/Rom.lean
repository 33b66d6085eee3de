import Microwatt.Decode.InsnCode
import Microwatt.Execute.Basic

/-!
# The decode table

`decode_rom` of `decode1.vhdl`: one row of control signals for every instruction code. A row has the
first eight columns of the source, but for those that all rows of its kind share, and names the
others in which it differs from `decode_rom_init`. Equal rows are written once, and a code without a
row is illegal. Integer division goes to the FPU if there is one.

## Main definitions

* `DecodeRom`, `decodeRom` — a row, and the table

## Main results

* `inputRegB_imm` — the place of a code in the list tells whether RB may be read
-/

namespace Microwatt

inductive InputRegA
  | none | ra | raOrZero | ra0OrCia | cia | fra
  deriving DecidableEq, Repr

inductive InputRegB
  | imm | rb | frb
  deriving DecidableEq, Repr

inductive ConstSel
  | none | ui | si | siHi | uiHi | li | bd | dxhi4 | ds | dq | m1 | sh | sh32 | psi
  deriving DecidableEq, Repr

inductive InputRegC
  | none | rs | rcr | frc | frs
  deriving DecidableEq, Repr

inductive OutputRegA
  | none | rt | ra | frt
  deriving DecidableEq, Repr

/-- `rc_t`. -/
inductive RcType
  | none | one | rc | rcoe
  deriving DecidableEq, Repr

/-- `length_t`. -/
inductive LengthType
  | none | is1b | is2b | is4b | is8b
  deriving DecidableEq, Repr

/-- `repeat_t`: how an instruction is split in two. -/
inductive RepeatType
  /-- The instruction is not repeated. -/
  | none
  /-- A load that also updates RA. -/
  | dupd
  /-- A store of RS and RS+1. -/
  | drsp
  /-- A load of RT and RT+1. -/
  | drtp
  deriving DecidableEq, Repr

/-- `decode_rom_t`, with the values of `decode_rom_init`. -/
structure DecodeRom where
  unit : UnitType := .alu
  facility : Facility := .none
  insnType : InsnType := .illegal
  inputRegA : InputRegA := .none
  inputRegB : InputRegB := .imm
  constSel : ConstSel := .none
  inputRegC : InputRegC := .none
  outputRegA : OutputRegA := .none
  result : ResultSel := .add
  subresult : BitVec 3 := 0
  inputCr : Bool := false
  outputCr : Bool := false
  invertA : Bool := false
  invertOut : Bool := false
  inputCarry : CarryIn := .zero
  outputCarry : Bool := false
  length : LengthType := .none
  byteReverse : Bool := false
  signExtend : Bool := false
  update : Bool := false
  reserve : Bool := false
  is32bit : Bool := false
  isSigned : Bool := false
  rc : RcType := .none
  lr : Bool := false
  privileged : Bool := false
  sglPipe : Bool := false
  repeat_ : RepeatType := .none
  deriving DecidableEq, Repr

/-- `divider_unit`. -/
def dvu (hasFpu : Bool) : UnitType := if hasFpu then .fpu else .alu

/-- A row by its first columns, with the others as in `decode_rom_init`. -/
@[reducible] def rowOf (unit : UnitType) (facility : Facility) (insnType : InsnType)
    (inputRegA : InputRegA) (inputRegB : InputRegB) (constSel : ConstSel) (inputRegC : InputRegC)
    (outputRegA : OutputRegA) : DecodeRom :=
  { unit, facility, insnType, inputRegA, inputRegB, constSel, inputRegC, outputRegA }

/-- The rows of the ALU. -/
@[reducible] def aluRow (insnType : InsnType) := rowOf .alu .none insnType

/-- An operation of the ALU on RS, with its result in RA. -/
@[reducible] def computeRow (inputRegB : InputRegB) (constSel : ConstSel) (result : ResultSel)
    (subresult : BitVec 3) : DecodeRom :=
  { aluRow .compute .none inputRegB constSel .rs .ra with result, subresult }

/-- Integer division. -/
@[reducible] def divRow (hasFpu : Bool) (insnType : InsnType) : DecodeRom :=
  { rowOf (dvu hasFpu) .none insnType .ra .rb .none .none .rt with subresult := 0b101 }

@[reducible] def fpuRow (insnType : InsnType) (inputRegA : InputRegA) (inputRegB : InputRegB) :=
  rowOf .fpu .fpu insnType inputRegA inputRegB .none

@[reducible] def loadRow (facility : Facility) (inputRegA : InputRegA) (inputRegB : InputRegB)
    (constSel : ConstSel) (outputRegA : OutputRegA) (length : LengthType) : DecodeRom :=
  { rowOf .ldst facility .load inputRegA inputRegB constSel .none outputRegA with length }

@[reducible] def storeRow (facility : Facility) (inputRegA : InputRegA) (inputRegB : InputRegB)
    (constSel : ConstSel) (inputRegC : InputRegC) (outputRegA : OutputRegA)
    (length : LengthType) : DecodeRom :=
  { rowOf .ldst facility .store inputRegA inputRegB constSel inputRegC outputRegA with length }

def decodeRom (hasFpu : Bool) : InsnCode → DecodeRom
  | .fetchFail => rowOf .ldst .none .fetchFailed .cia .imm .none .none .none
  | .add => { aluRow .add .ra .rb .none .none .rt with rc := .rcoe }
  | .addc => { aluRow .add .ra .rb .none .none .rt with outputCarry := true, rc := .rcoe }
  | .adde =>
    { aluRow .add .ra .rb .none .none .rt with inputCarry := .ca, outputCarry := true, rc := .rcoe }
  | .addex =>
    { aluRow .add .ra .rb .none .none .rt with inputCarry := .ov, outputCarry := true, rc := .rc }
  | .addg6s => { aluRow .compute .ra .rb .none .none .rt with result := .msc, subresult := 0b001 }
  | .addi => aluRow .add .raOrZero .imm .si .none .rt
  | .addic => { aluRow .add .ra .imm .si .none .rt with outputCarry := true }
  | .addicDot => { aluRow .add .ra .imm .si .none .rt with outputCarry := true, rc := .one }
  | .addis => aluRow .add .raOrZero .imm .siHi .none .rt
  | .addme =>
    { aluRow .add .ra .imm .m1 .none .rt with inputCarry := .ca, outputCarry := true, rc := .rcoe }
  | .addpcis => aluRow .add .cia .imm .dxhi4 .none .rt
  | .addze => { aluRow .add .ra .imm .none .none .rt with
      inputCarry := .ca, outputCarry := true, rc := .rcoe }
  | .and => { computeRow .rb .none .log 0 with rc := .rc }
  | .andc => { computeRow .rb .none .log 0 with invertA := true, rc := .rc }
  | .andiDot => { computeRow .imm .ui .log 0 with rc := .one }
  | .andisDot => { computeRow .imm .uiHi .log 0 with rc := .one }
  | .attn => { aluRow .attn .none .imm .none .none .none with privileged := true, sglPipe := true }
  | .brel => { aluRow .b .cia .imm .li .none .none with lr := true }
  | .babs => { aluRow .b .none .imm .li .none .none with lr := true }
  | .bcrel => { aluRow .bc .cia .imm .bd .none .none with inputCr := true, lr := true }
  | .bcabs => { aluRow .bc .none .imm .bd .none .none with inputCr := true, lr := true }
  | .bcctr | .bclr | .bctar =>
    { aluRow .bcreg .none .imm .none .none .none with result := .spr, inputCr := true, lr := true }
  | .bperm => { aluRow .bperm .none .rb .none .rs .ra with subresult := 0b100 }
  | .brh => { computeRow .imm .none .log 0b010 with length := .is2b }
  | .brw => { computeRow .imm .none .log 0b010 with length := .is4b }
  | .brd => { computeRow .imm .none .log 0b010 with length := .is8b }
  | .cbcdtd => computeRow .imm .none .log 0b101
  | .cdtbcd => { computeRow .imm .none .log 0b110 with invertA := true }
  | .cfuged => aluRow .bsort .none .rb .none .rs .ra
  | .cmp => { aluRow .cmp .ra .rb .none .none .none with
      outputCr := true, invertA := true, inputCarry := .one, isSigned := true }
  | .cmpb => computeRow .rb .none .log 0b100
  | .cmpeqb =>
    { aluRow .compute .ra .rb .none .none .none with subresult := 0b010, outputCr := true }
  | .cmpi => { aluRow .cmp .ra .imm .si .none .none with
      outputCr := true, invertA := true, inputCarry := .one, isSigned := true }
  | .cmpl => { aluRow .cmp .ra .rb .none .none .none with
      outputCr := true, invertA := true, inputCarry := .one }
  | .cmpli => { aluRow .cmp .ra .imm .ui .none .none with
      outputCr := true, invertA := true, inputCarry := .one }
  | .cmprb =>
    { aluRow .compute .ra .rb .none .none .none with subresult := 0b001, outputCr := true }
  | .cntlzd | .cnttzd => { aluRow .countb .none .imm .none .rs .ra with rc := .rc }
  | .cntlzw | .cnttzw => { aluRow .countb .none .imm .none .rs .ra with is32bit := true, rc := .rc }
  | .crand | .crandc | .creqv | .crnand | .crnor | .cror | .crorc | .crxor =>
    { aluRow .compute .none .imm .none .none .none with
      subresult := 0b011, inputCr := true, outputCr := true }
  | .darn => { aluRow .darn .none .imm .none .none .rt with result := .msc, subresult := 0b011 }
  | .dcbf => rowOf .ldst .none .dcbf .raOrZero .rb .none .none .none
  | .dcbst => aluRow .dcbst .none .imm .none .none .none
  | .dcbt => loadRow .none .raOrZero .rb .none .none .none
  | .dcbtst => storeRow .none .raOrZero .rb .none .none .none .none
  | .dcbz => rowOf .ldst .none .dcbz .raOrZero .rb .none .none .none
  | .divd => { divRow hasFpu .div with isSigned := true, rc := .rcoe }
  | .divde => { divRow hasFpu .dive with isSigned := true, rc := .rcoe }
  | .divdeu => { divRow hasFpu .dive with rc := .rcoe }
  | .divdu => { divRow hasFpu .div with rc := .rcoe }
  | .divw => { divRow hasFpu .div with is32bit := true, isSigned := true, rc := .rcoe }
  | .divwe => { divRow hasFpu .dive with is32bit := true, isSigned := true, rc := .rcoe }
  | .divweu => { divRow hasFpu .dive with is32bit := true, rc := .rcoe }
  | .divwu => { divRow hasFpu .div with is32bit := true, rc := .rcoe }
  | .eieio | .nop | .pnop | .rnop => aluRow .nop .none .imm .none .none .none
  | .eqv => { computeRow .rb .none .log 0b001 with invertOut := true, rc := .rc }
  | .extsb => { computeRow .imm .none .log 0b111 with length := .is1b, rc := .rc }
  | .extsh => { computeRow .imm .none .log 0b111 with length := .is2b, rc := .rc }
  | .extsw => { computeRow .imm .none .log 0b111 with length := .is4b, rc := .rc }
  | .extswsli => { computeRow .imm .sh .rot 0b010 with rc := .rc }
  | .fabs | .fmr | .fnabs | .fneg => { fpuRow .fpMove .none .frb .none .frt with rc := .rc }
  | .fadd | .fdiv | .fsub => { fpuRow .fpArith .fra .frb .none .frt with rc := .rc }
  | .fadds | .fdivs | .fsubs =>
    { fpuRow .fpArith .fra .frb .none .frt with is32bit := true, rc := .rc }
  | .fcfid => { fpuRow .fpMisc .none .frb .none .frt with isSigned := true, rc := .rc }
  | .fcfids =>
    { fpuRow .fpMisc .none .frb .none .frt with is32bit := true, isSigned := true, rc := .rc }
  | .fcfidu | .mffs => { fpuRow .fpMisc .none .frb .none .frt with rc := .rc }
  | .fcfidus => { fpuRow .fpMisc .none .frb .none .frt with is32bit := true, rc := .rc }
  | .fcmpo | .fcmpu | .ftdiv => { fpuRow .fpCmp .fra .frb .none .none with outputCr := true }
  | .fcpsgn => { fpuRow .fpMove .fra .frb .none .frt with rc := .rc }
  | .fctid | .fctidu | .fctiduz | .fctidz | .fctiw | .fctiwu | .fctiwuz | .fctiwz | .fre | .frim |
    .frin | .frip | .friz | .frsqrte | .fsqrt =>
    { fpuRow .fpArith .none .frb .none .frt with rc := .rc }
  | .fmadd | .fmsub | .fnmadd | .fnmsub => { fpuRow .fpArith .fra .frb .frc .frt with rc := .rc }
  | .fmadds | .fmsubs | .fnmadds | .fnmsubs =>
    { fpuRow .fpArith .fra .frb .frc .frt with is32bit := true, rc := .rc }
  | .fmrgew | .fmrgow => fpuRow .fpMisc .fra .frb .none .frt
  | .fmul => { fpuRow .fpArith .fra .imm .frc .frt with rc := .rc }
  | .fmuls => { fpuRow .fpArith .fra .imm .frc .frt with is32bit := true, rc := .rc }
  | .fres | .frsp | .frsqrtes | .fsqrts =>
    { fpuRow .fpArith .none .frb .none .frt with is32bit := true, rc := .rc }
  | .fsel => { fpuRow .fpMove .fra .frb .frc .frt with rc := .rc }
  | .ftsqrt => { fpuRow .fpCmp .none .frb .none .none with outputCr := true }
  | .hashchk => { loadRow .none .ra .rb .none .none .is8b with isSigned := true }
  | .hashchkp =>
    { loadRow .none .ra .rb .none .none .is8b with isSigned := true, privileged := true }
  | .hashst => { storeRow .none .ra .rb .none .none .none .is8b with isSigned := true }
  | .hashstp =>
    { storeRow .none .ra .rb .none .none .none .is8b with isSigned := true, privileged := true }
  | .icbi => { aluRow .icbi .none .imm .none .none .none with sglPipe := true }
  | .icbt => aluRow .icbt .none .imm .none .none .none
  | .isel => { aluRow .compute .raOrZero .rb .none .none .rt with
      result := .msc, subresult := 0b010, inputCr := true }
  | .isync => aluRow .isync .none .imm .none .none .none
  | .lbarx => { loadRow .none .raOrZero .rb .none .rt .is1b with reserve := true }
  | .lbz => loadRow .none .raOrZero .imm .si .rt .is1b
  | .lbzcix =>
    { loadRow .none .raOrZero .rb .none .rt .is1b with invertA := true, privileged := true }
  | .lbzu => { loadRow .none .raOrZero .imm .si .rt .is1b with update := true, repeat_ := .dupd }
  | .lbzux => { loadRow .none .raOrZero .rb .none .rt .is1b with update := true, repeat_ := .dupd }
  | .lbzx => loadRow .none .raOrZero .rb .none .rt .is1b
  | .ld => loadRow .none .raOrZero .imm .ds .rt .is8b
  | .ldarx => { loadRow .none .raOrZero .rb .none .rt .is8b with reserve := true }
  | .ldbrx => { loadRow .none .raOrZero .rb .none .rt .is8b with byteReverse := true }
  | .ldcix =>
    { loadRow .none .raOrZero .rb .none .rt .is8b with invertA := true, privileged := true }
  | .ldu => { loadRow .none .raOrZero .imm .ds .rt .is8b with update := true, repeat_ := .dupd }
  | .ldux => { loadRow .none .raOrZero .rb .none .rt .is8b with update := true, repeat_ := .dupd }
  | .ldx => loadRow .none .raOrZero .rb .none .rt .is8b
  | .lfd => loadRow .fpu .raOrZero .imm .si .frt .is8b
  | .lfdu => { loadRow .fpu .raOrZero .imm .si .frt .is8b with update := true, repeat_ := .dupd }
  | .lfdux => { loadRow .fpu .raOrZero .rb .none .frt .is8b with update := true, repeat_ := .dupd }
  | .lfdx => loadRow .fpu .raOrZero .rb .none .frt .is8b
  | .lfiwax => { loadRow .fpu .raOrZero .rb .none .frt .is4b with signExtend := true }
  | .lfiwzx => loadRow .fpu .raOrZero .rb .none .frt .is4b
  | .lfs => { loadRow .fpu .raOrZero .imm .si .frt .is4b with is32bit := true }
  | .lfsu => { loadRow .fpu .raOrZero .imm .si .frt .is4b with
      update := true, is32bit := true, repeat_ := .dupd }
  | .lfsux => { loadRow .fpu .raOrZero .rb .none .frt .is4b with
      update := true, is32bit := true, repeat_ := .dupd }
  | .lfsx => { loadRow .fpu .raOrZero .rb .none .frt .is4b with is32bit := true }
  | .lha => { loadRow .none .raOrZero .imm .si .rt .is2b with signExtend := true }
  | .lharx => { loadRow .none .raOrZero .rb .none .rt .is2b with reserve := true }
  | .lhau => { loadRow .none .raOrZero .imm .si .rt .is2b with
      signExtend := true, update := true, repeat_ := .dupd }
  | .lhaux => { loadRow .none .raOrZero .rb .none .rt .is2b with
      signExtend := true, update := true, repeat_ := .dupd }
  | .lhax => { loadRow .none .raOrZero .rb .none .rt .is2b with signExtend := true }
  | .lhbrx => { loadRow .none .raOrZero .rb .none .rt .is2b with byteReverse := true }
  | .lhz => loadRow .none .raOrZero .imm .si .rt .is2b
  | .lhzcix =>
    { loadRow .none .raOrZero .rb .none .rt .is2b with invertA := true, privileged := true }
  | .lhzu => { loadRow .none .raOrZero .imm .si .rt .is2b with update := true, repeat_ := .dupd }
  | .lhzux => { loadRow .none .raOrZero .rb .none .rt .is2b with update := true, repeat_ := .dupd }
  | .lhzx => loadRow .none .raOrZero .rb .none .rt .is2b
  | .lq => { loadRow .none .raOrZero .imm .dq .rt .is8b with repeat_ := .drtp }
  | .lqarx => { loadRow .none .raOrZero .rb .none .rt .is8b with reserve := true, repeat_ := .drtp }
  | .lwa => { loadRow .none .raOrZero .imm .ds .rt .is4b with signExtend := true }
  | .lwarx => { loadRow .none .raOrZero .rb .none .rt .is4b with reserve := true }
  | .lwaux => { loadRow .none .raOrZero .rb .none .rt .is4b with
      signExtend := true, update := true, repeat_ := .dupd }
  | .lwax => { loadRow .none .raOrZero .rb .none .rt .is4b with signExtend := true }
  | .lwbrx => { loadRow .none .raOrZero .rb .none .rt .is4b with byteReverse := true }
  | .lwz => loadRow .none .raOrZero .imm .si .rt .is4b
  | .lwzcix =>
    { loadRow .none .raOrZero .rb .none .rt .is4b with invertA := true, privileged := true }
  | .lwzu => { loadRow .none .raOrZero .imm .si .rt .is4b with update := true, repeat_ := .dupd }
  | .lwzux => { loadRow .none .raOrZero .rb .none .rt .is4b with update := true, repeat_ := .dupd }
  | .lwzx => loadRow .none .raOrZero .rb .none .rt .is4b
  | .maddhd => { aluRow .mulH64 .ra .rb .none .rcr .rt with subresult := 0b010, isSigned := true }
  | .maddhdu => { aluRow .mulH64 .ra .rb .none .rcr .rt with subresult := 0b010 }
  | .maddld => { aluRow .mulL64 .ra .rb .none .rcr .rt with isSigned := true }
  | .mcrf => { aluRow .compute .none .imm .none .none .none with
      subresult := 0b100, inputCr := true, outputCr := true }
  | .mcrfs => { fpuRow .fpCmp .none .imm .none .none with outputCr := true }
  | .mcrxrx =>
    { aluRow .mcrxrx .none .imm .none .none .none with subresult := 0b101, outputCr := true }
  | .mfcr => { aluRow .compute .none .imm .none .none .rt with
      result := .msc, subresult := 0b101, inputCr := true }
  | .mfmsr => { aluRow .mfmsr .none .imm .none .none .rt with
      result := .msc, subresult := 0b100, privileged := true, sglPipe := true }
  | .mfspr => { aluRow .mfspr .none .imm .none .rs .rt with result := .spr }
  | .modsd => { divRow hasFpu .mod with isSigned := true }
  | .modsw => { divRow hasFpu .mod with is32bit := true, isSigned := true }
  | .modud => divRow hasFpu .mod
  | .moduw => { divRow hasFpu .mod with is32bit := true }
  | .msgclr =>
    { aluRow .msg .none .rb .none .none .none with subresult := 0b011, privileged := true }
  | .msgsnd =>
    { aluRow .msg .none .rb .none .none .none with subresult := 0b001, privileged := true }
  | .msgsync | .tlbsync => { aluRow .nop .none .imm .none .none .none with privileged := true }
  | .mtcrf => { aluRow .mtcrf .none .imm .none .rs .none with subresult := 0b101, outputCr := true }
  | .mtfsb | .mtfsfi => { fpuRow .fpMisc .none .imm .none .none with rc := .rc }
  | .mtfsf => { fpuRow .fpMisc .none .frb .none .none with rc := .rc }
  | .mtmsr => { aluRow .mtmsrd .none .imm .none .rs .none with is32bit := true, privileged := true }
  | .mtmsrd => { aluRow .mtmsrd .none .imm .none .rs .none with privileged := true }
  | .mtspr => aluRow .mtspr .none .imm .none .rs .none
  | .mulhd =>
    { aluRow .mulH64 .ra .rb .none .none .rt with subresult := 0b010, isSigned := true, rc := .rc }
  | .mulhdu => { aluRow .mulH64 .ra .rb .none .none .rt with subresult := 0b010, rc := .rc }
  | .mulhw => { aluRow .mulH32 .ra .rb .none .none .rt with
      subresult := 0b001, is32bit := true, isSigned := true, rc := .rc }
  | .mulhwu =>
    { aluRow .mulH32 .ra .rb .none .none .rt with subresult := 0b001, is32bit := true, rc := .rc }
  | .mulld => { aluRow .mulL64 .ra .rb .none .none .rt with isSigned := true, rc := .rcoe }
  | .mulli => { aluRow .mulL64 .ra .imm .si .none .rt with isSigned := true }
  | .mullw =>
    { aluRow .mulL64 .ra .rb .none .none .rt with is32bit := true, isSigned := true, rc := .rcoe }
  | .nand => { computeRow .rb .none .log 0 with invertOut := true, rc := .rc }
  | .neg =>
    { aluRow .add .ra .imm .none .none .rt with invertA := true, inputCarry := .one, rc := .rcoe }
  | .nor => { computeRow .rb .none .log 0 with invertA := true, isSigned := true, rc := .rc }
  | .or => { computeRow .rb .none .log 0 with
      invertA := true, invertOut := true, isSigned := true, rc := .rc }
  | .orc => { computeRow .rb .none .log 0 with invertOut := true, isSigned := true, rc := .rc }
  | .ori => { computeRow .imm .ui .log 0 with invertA := true, invertOut := true, isSigned := true }
  | .oris =>
    { computeRow .imm .uiHi .log 0 with invertA := true, invertOut := true, isSigned := true }
  | .paddi => aluRow .add .ra0OrCia .imm .psi .none .rt
  | .pdepd | .pextd => { aluRow .bsort .none .rb .none .rs .ra with subresult := 0b100 }
  | .plbz => loadRow .none .ra0OrCia .imm .psi .rt .is1b
  | .pld => loadRow .none .ra0OrCia .imm .psi .rt .is8b
  | .plfd => loadRow .fpu .ra0OrCia .imm .psi .frt .is8b
  | .plfs => { loadRow .fpu .ra0OrCia .imm .psi .frt .is4b with is32bit := true }
  | .plha => { loadRow .none .ra0OrCia .imm .psi .rt .is2b with signExtend := true }
  | .plhz => loadRow .none .ra0OrCia .imm .psi .rt .is2b
  | .plq => { loadRow .none .ra0OrCia .imm .psi .rt .is8b with repeat_ := .drtp }
  | .plwa => { loadRow .none .ra0OrCia .imm .psi .rt .is4b with signExtend := true }
  | .plwz => loadRow .none .ra0OrCia .imm .psi .rt .is4b
  | .pstb => storeRow .none .ra0OrCia .imm .psi .rs .none .is1b
  | .pstd => storeRow .none .ra0OrCia .imm .psi .rs .none .is8b
  | .pstfd => storeRow .fpu .ra0OrCia .imm .psi .frs .none .is8b
  | .pstfs => { storeRow .fpu .ra0OrCia .imm .psi .frs .none .is4b with is32bit := true }
  | .psth => storeRow .none .ra0OrCia .imm .psi .rs .none .is2b
  | .pstq => { storeRow .none .ra0OrCia .imm .psi .rs .none .is8b with repeat_ := .drsp }
  | .pstw => storeRow .none .ra0OrCia .imm .psi .rs .none .is4b
  | .popcntb => { aluRow .countb .none .imm .none .rs .ra with length := .is1b }
  | .popcntd => { aluRow .countb .none .imm .none .rs .ra with length := .is8b }
  | .popcntw => { aluRow .countb .none .imm .none .rs .ra with length := .is4b }
  | .prtyd => { computeRow .imm .none .log 0b011 with length := .is8b }
  | .prtyw => { computeRow .imm .none .log 0b011 with length := .is4b }
  | .rfid | .rfscv =>
    { aluRow .rfid .none .imm .none .none .none with result := .spr, privileged := true }
  | .rldcl => { computeRow .rb .none .rot 0b100 with rc := .rc }
  | .rldcr => { computeRow .rb .none .rot 0b001 with rc := .rc }
  | .rldic => { computeRow .imm .sh .rot 0b101 with rc := .rc }
  | .rldicl => { computeRow .imm .sh .rot 0b100 with rc := .rc }
  | .rldicr => { computeRow .imm .sh .rot 0b001 with rc := .rc }
  | .rldimi =>
    { aluRow .compute .ra .imm .sh .rs .ra with result := .rot, subresult := 0b101, rc := .rc }
  | .rlwimi => { aluRow .compute .ra .imm .sh32 .rs .ra with
      result := .rot, subresult := 0b101, is32bit := true, rc := .rc }
  | .rlwinm => { computeRow .imm .sh32 .rot 0b101 with is32bit := true, rc := .rc }
  | .rlwnm => { computeRow .rb .none .rot 0b101 with is32bit := true, rc := .rc }
  | .sc => aluRow .sc .none .imm .none .none .none
  | .setb => { aluRow .compute .none .imm .none .none .rt with
      result := .msc, subresult := 0b110, inputCr := true }
  | .slbia => { rowOf .ldst .none .tlbie .none .imm .none .none .none with privileged := true }
  | .sld => { computeRow .rb .none .rot 0 with rc := .rc }
  | .slw => { computeRow .rb .none .rot 0 with is32bit := true, rc := .rc }
  | .srad => { computeRow .rb .none .rot 0 with
      invertA := true, outputCarry := true, isSigned := true, rc := .rc }
  | .sradi => { computeRow .imm .sh .rot 0 with
      invertA := true, outputCarry := true, isSigned := true, rc := .rc }
  | .sraw => { computeRow .rb .none .rot 0 with
      invertA := true, outputCarry := true, is32bit := true, isSigned := true, rc := .rc }
  | .srawi => { computeRow .imm .sh32 .rot 0 with
      invertA := true, outputCarry := true, is32bit := true, isSigned := true, rc := .rc }
  | .srd => { computeRow .rb .none .rot 0 with invertA := true, rc := .rc }
  | .srw => { computeRow .rb .none .rot 0 with invertA := true, is32bit := true, rc := .rc }
  | .stb => storeRow .none .raOrZero .imm .si .rs .none .is1b
  | .stbcix =>
    { storeRow .none .raOrZero .rb .none .rs .none .is1b with invertA := true, privileged := true }
  | .stbcx =>
    { storeRow .none .raOrZero .rb .none .rs .none .is1b with reserve := true, rc := .one }
  | .stbu => { storeRow .none .raOrZero .imm .si .rs .ra .is1b with update := true }
  | .stbux => { storeRow .none .raOrZero .rb .none .rs .ra .is1b with update := true }
  | .stbx => storeRow .none .raOrZero .rb .none .rs .none .is1b
  | .std => storeRow .none .raOrZero .imm .ds .rs .none .is8b
  | .stdbrx => { storeRow .none .raOrZero .rb .none .rs .none .is8b with byteReverse := true }
  | .stdcix =>
    { storeRow .none .raOrZero .rb .none .rs .none .is8b with invertA := true, privileged := true }
  | .stdcx =>
    { storeRow .none .raOrZero .rb .none .rs .none .is8b with reserve := true, rc := .one }
  | .stdu => { storeRow .none .raOrZero .imm .ds .rs .ra .is8b with update := true }
  | .stdux => { storeRow .none .raOrZero .rb .none .rs .ra .is8b with update := true }
  | .stdx => storeRow .none .raOrZero .rb .none .rs .none .is8b
  | .stfd => storeRow .fpu .raOrZero .imm .si .frs .none .is8b
  | .stfdu => { storeRow .fpu .raOrZero .imm .si .frs .ra .is8b with update := true }
  | .stfdux => { storeRow .fpu .raOrZero .rb .none .frs .ra .is8b with update := true }
  | .stfdx => storeRow .fpu .raOrZero .rb .none .frs .none .is8b
  | .stfiwx => storeRow .fpu .raOrZero .rb .none .frs .none .is4b
  | .stfs => { storeRow .fpu .raOrZero .imm .si .frs .none .is4b with is32bit := true }
  | .stfsu =>
    { storeRow .fpu .raOrZero .imm .si .frs .ra .is4b with update := true, is32bit := true }
  | .stfsux =>
    { storeRow .fpu .raOrZero .rb .none .frs .ra .is4b with update := true, is32bit := true }
  | .stfsx => { storeRow .fpu .raOrZero .rb .none .frs .none .is4b with is32bit := true }
  | .sth => storeRow .none .raOrZero .imm .si .rs .none .is2b
  | .sthbrx => { storeRow .none .raOrZero .rb .none .rs .none .is2b with byteReverse := true }
  | .sthcix =>
    { storeRow .none .raOrZero .rb .none .rs .none .is2b with invertA := true, privileged := true }
  | .sthcx =>
    { storeRow .none .raOrZero .rb .none .rs .none .is2b with reserve := true, rc := .one }
  | .sthu => { storeRow .none .raOrZero .imm .si .rs .ra .is2b with update := true }
  | .sthux => { storeRow .none .raOrZero .rb .none .rs .ra .is2b with update := true }
  | .sthx => storeRow .none .raOrZero .rb .none .rs .none .is2b
  | .stq => { storeRow .none .raOrZero .imm .ds .rs .none .is8b with repeat_ := .drsp }
  | .stqcx => { storeRow .none .raOrZero .rb .none .rs .none .is8b with
      reserve := true, rc := .one, repeat_ := .drsp }
  | .stw => storeRow .none .raOrZero .imm .si .rs .none .is4b
  | .stwbrx => { storeRow .none .raOrZero .rb .none .rs .none .is4b with byteReverse := true }
  | .stwcix =>
    { storeRow .none .raOrZero .rb .none .rs .none .is4b with invertA := true, privileged := true }
  | .stwcx =>
    { storeRow .none .raOrZero .rb .none .rs .none .is4b with reserve := true, rc := .one }
  | .stwu => { storeRow .none .raOrZero .imm .si .rs .ra .is4b with update := true }
  | .stwux => { storeRow .none .raOrZero .rb .none .rs .ra .is4b with update := true }
  | .stwx => storeRow .none .raOrZero .rb .none .rs .none .is4b
  | .subf =>
    { aluRow .add .ra .rb .none .none .rt with invertA := true, inputCarry := .one, rc := .rcoe }
  | .subfc => { aluRow .add .ra .rb .none .none .rt with
      invertA := true, inputCarry := .one, outputCarry := true, rc := .rcoe }
  | .subfe => { aluRow .add .ra .rb .none .none .rt with
      invertA := true, inputCarry := .ca, outputCarry := true, rc := .rcoe }
  | .subfic => { aluRow .add .ra .imm .si .none .rt with
      invertA := true, inputCarry := .one, outputCarry := true }
  | .subfme => { aluRow .add .ra .imm .m1 .none .rt with
      invertA := true, inputCarry := .ca, outputCarry := true, rc := .rcoe }
  | .subfze => { aluRow .add .ra .imm .none .none .rt with
      invertA := true, inputCarry := .ca, outputCarry := true, rc := .rcoe }
  | .sync => { rowOf .ldst .none .sync .none .imm .none .none .none with sglPipe := true }
  | .td => aluRow .trap .ra .rb .none .none .none
  | .tdi => aluRow .trap .ra .imm .si .none .none
  | .tlbie | .tlbiel =>
    { rowOf .ldst .none .tlbie .none .rb .none .rs .none with privileged := true }
  | .tw => { aluRow .trap .ra .rb .none .none .none with is32bit := true }
  | .twi => { aluRow .trap .ra .imm .si .none .none with is32bit := true }
  | .wait => { aluRow .wait .none .imm .none .none .none with sglPipe := true }
  | .xor => { computeRow .rb .none .log 0b001 with rc := .rc }
  | .xori => computeRow .imm .ui .log 0b001
  | .xoris => computeRow .imm .uiHi .log 0b001
  | _ => {}

/-! ### Facts about the table -/

/-- A property of all codes is checked along the list. -/
theorem InsnCode.forall_code {p : InsnCode → Prop} (h : ∀ n : Fin 347, p (.val n))
    (code : InsnCode) : p code := by
  have hcode := h ⟨code.pos, code.pos_lt⟩
  rwa [InsnCode.val_pos] at hcode

/-- And of all rows, with an FPU and without. -/
@[elab_as_elim]
theorem forall_rows {p : Bool → InsnCode → Prop} (h : ∀ b, ∀ n : Fin 347, p b (.val n))
    (hasFpu : Bool) (code : InsnCode) : p hasFpu code :=
  InsnCode.forall_code (h hasFpu) code

/-- An instruction with a register as its second operand is in the part of the list for them. -/
theorem inputRegB_imm (hasFpu : Bool) (code : InsnCode) :
    (decodeRom hasFpu code).inputRegB = .imm ∨ InsnCode.add.pos ≤ code.pos := by
  exact forall_rows (by decide +kernel) hasFpu code

end Microwatt
