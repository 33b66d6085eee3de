import Microwatt.Helpers
import Microwatt.Interfaces

/-!
# Operands of the FPU

What the FPU makes of an instruction when it takes it over from execute1: the operands split into
sign, exponent and mantissa with their classes, the flags that say what kind of operation it is, and
the state in which it starts. `fpu_specialcases` then looks at the classes alone, in the second
cycle of an arithmetic instruction.

## Main definitions

* `Fpu.decodeDp` — an operand
* `Fpu.Operands`, `Fpu.capture` — an instruction as it is taken over
* `Fpu.specialCases` — `fpu_specialcases`
-/

namespace Microwatt

/-- `Execute1ToFPUType`, without the fields that only the result depends on. -/
structure Execute1ToFpu where
  valid : Bool := false
  op : InsnType := .illegal
  itag : InstrTag := instrTagInit
  insn : BitVec 32 := 0
  single : Bool := false
  isSigned : Bool := false
  feMode : BitVec 2 := 0
  fra : BitVec 64 := 0
  frb : BitVec 64 := 0
  frc : BitVec 64 := 0
  validA : Bool := false
  validB : Bool := false
  validC : Bool := false
  stall : Bool := false
  deriving DecidableEq, Repr

/-! ### Bits of the FPSCR -/

@[simp] abbrev fpscrFx : ℕ := 63 - 32
@[simp] abbrev fpscrFex : ℕ := 63 - 33
@[simp] abbrev fpscrVx : ℕ := 63 - 34
@[simp] abbrev fpscrZx : ℕ := 63 - 37
@[simp] abbrev fpscrXx : ℕ := 63 - 38
@[simp] abbrev fpscrVxsnan : ℕ := 63 - 39
@[simp] abbrev fpscrVxisi : ℕ := 63 - 40
@[simp] abbrev fpscrVxidi : ℕ := 63 - 41
@[simp] abbrev fpscrVxzdz : ℕ := 63 - 42
@[simp] abbrev fpscrVximz : ℕ := 63 - 43
@[simp] abbrev fpscrVxvc : ℕ := 63 - 44
@[simp] abbrev fpscrFr : ℕ := 63 - 45
@[simp] abbrev fpscrFi : ℕ := 63 - 46
@[simp] abbrev fpscrC : ℕ := 63 - 47
@[simp] abbrev fpscrFu : ℕ := 63 - 51
@[simp] abbrev fpscrVxsqrt : ℕ := 63 - 54
@[simp] abbrev fpscrVxcvi : ℕ := 63 - 55
@[simp] abbrev fpscrVe : ℕ := 63 - 56
@[simp] abbrev fpscrUe : ℕ := 63 - 58
@[simp] abbrev fpscrZe : ℕ := 63 - 59
@[simp] abbrev fpscrXe : ℕ := 63 - 60
@[simp] abbrev fpscrRn : ℕ := 63 - 63

namespace Fpu

/-! ### Operands -/

inductive NumberClass
  | zero | finite | infinity | nan
  deriving DecidableEq, Repr

abbrev expBits : ℕ := 13
abbrev unitBit : ℕ := 56
abbrev qnanBit : ℕ := unitBit - 1

/-- `fpu_reg_type`. The exponent is unbiased, the mantissa in 8.56 format. -/
structure FpuReg where
  cls : NumberClass := .zero
  negative : Bool := false
  denorm : Bool := false
  naninf : Bool := false
  zeroexp : Bool := false
  exponent : BitVec expBits := 0
  mantissa : BitVec 64 := 0
  deriving DecidableEq, Repr

def decodeDp (fpr : BitVec 64) (isFp is32bint isSigned : Bool) : FpuReg :=
  let expNz := fpr.extractLsb' 52 11 != 0
  let expAo := fpr.extractLsb' 52 11 == BitVec.allOnes 11
  let fracNz := fpr.extractLsb' 0 52 != 0
  if isFp then
    { cls :=
        if expAo then if fracNz then .nan else .infinity
        else if expNz || fracNz then .finite
        else .zero
      negative := fpr.getLsbD 63
      denorm := fracNz && !expNz
      naninf := expAo
      zeroexp := !expNz
      exponent := if expNz then (fpr.extractLsb' 52 11).setWidth expBits - 1023 else -1022
      mantissa := (BitVec.ofBool expNz ++ fpr.extractLsb' 0 52).setWidth 64 <<< (unitBit - 52) }
  else if is32bint then
    { cls := if fpr.extractLsb' 0 32 != 0 then .finite else .zero
      negative := fpr.getLsbD 31
      mantissa :=
        (if isSigned && fpr.getLsbD 31 then BitVec.allOnes 32 else 0#32) ++ fpr.extractLsb' 0 32 }
  else
    { cls := if fpr.getLsbD 63 || expNz || fracNz then .finite else .zero
      negative := fpr.getLsbD 63
      mantissa := fpr }

/-! ### Taking over an instruction -/

/-- The states of the FPU, as far as they matter for the FPSCR: the instructions that access it have
a state each, and `compute` stands for all the states in which something is computed, `DO_SPECIAL`
included. -/
inductive Phase
  | idle | illegal | mcrfs | mtfsb | mtfsfi | mffs | mtfsf | compute
  deriving DecidableEq, Repr

/-- The registers that are loaded from `e_in`, with the operands as they are then. -/
structure Operands where
  insn : BitVec 32 := 0
  instrTag : InstrTag := instrTagInit
  feMode : Bool := false
  singlePrec : Bool := false
  isSqrt : Bool := false
  isMultiply : Bool := false
  isAddition : Bool := false
  isSubtract : Bool := false
  isInverse : Bool := false
  intResult : Bool := false
  useA : Bool := false
  useB : Bool := false
  useC : Bool := false
  a : FpuReg := {}
  b : FpuReg := {}
  c : FpuReg := {}
  isNanInf : Bool := false
  deriving DecidableEq, Repr

/-- Bits 5 to 1 of an arithmetic instruction. -/
def arithOp (e : Execute1ToFpu) : BitVec 5 := e.insn.extractLsb' 1 5

/-- Bits 10, 8, 4, 2 and 1, which tell the miscellaneous instructions apart. -/
def opcbits (e : Execute1ToFpu) : BitVec 5 :=
  BitVec.ofBool (e.insn.getLsbD 10) ++ BitVec.ofBool (e.insn.getLsbD 8) ++
    BitVec.ofBool (e.insn.getLsbD 4) ++ BitVec.ofBool (e.insn.getLsbD 2) ++
    BitVec.ofBool (e.insn.getLsbD 1)

def arithDecode (n : BitVec 5) : Phase :=
  if n == 0b01000 || n == 0b01100 || n == 0b01110 || n == 0b01111 || n == 0b10010 ||
      n == 0b10100 || n == 0b10101 || n == 0b10110 || n == 0b11000 || n == 0b11001 ||
      n == 0b11010 || n == 0b11100 || n == 0b11101 || n == 0b11110 || n == 0b11111 then
    .compute
  else .illegal

def cmpDecode (n : BitVec 3) : Phase :=
  if n == 0b000 || n == 0b001 || n == 0b100 || n == 0b101 then .compute
  else if n == 0b010 then .mcrfs
  else .illegal

def miscDecode (n : BitVec 5) : Phase :=
  if n == 0b00010 then .mtfsb
  else if n == 0b01010 then .mtfsfi
  else if n == 0b10011 then .mffs
  else if n == 0b11011 then .mtfsf
  else if n == 0b10010 || n == 0b11010 || n == 0b10110 || n == 0b11110 then .compute
  else .illegal

section

variable (e : Execute1ToFpu)

def execState : Phase :=
  match e.op with
  | .fpArith => arithDecode (arithOp e)
  | .fpCmp => cmpDecode (e.insn.extractLsb' 6 3)
  | .fpMisc => miscDecode (opcbits e)
  | .fpMove | .div | .dive | .mod => .compute
  | _ => .illegal

/-- An operand that is read as a floating-point number. -/
def fpIn (valid : Bool) : Bool :=
  (e.op == .fpArith || e.op == .fpMove) && valid

/-- The operand in FRA; a comparison reads it as a number too. -/
def operandA : FpuReg :=
  decodeDp e.fra (fpIn e e.validA || e.op == .fpCmp && e.validA)
    ((e.op == .div || e.op == .dive || e.op == .mod) && e.single) e.isSigned

def operandB : FpuReg :=
  decodeDp e.frb (fpIn e e.validB || e.op == .fpCmp && e.validB)
    ((e.op == .div || e.op == .dive || e.op == .mod) && e.single) e.isSigned

def operandC : FpuReg := decodeDp e.frc (fpIn e e.validC) false false

end

/-- The `fmadd` family. -/
def isFmadd (n : BitVec 5) : Bool := n.extractLsb' 2 3 == 0b111

/-- What is loaded when `e_in.valid = '1'`. -/
def capture (e : Execute1ToFpu) : Operands :=
  let arith := e.op == .fpArith
  let n := arithOp e
  let fadd := arith && (n == 0b10100 || n == 0b10101)
  let fmadd := arith && isFmadd n
  { insn := e.insn
    instrTag := e.itag
    feMode := e.feMode != 0
    singlePrec := e.single
    isSqrt := arith && (n == 0b10110 || n == 0b11010)
    isMultiply := (arith && n == 0b11001) || fmadd
    isAddition := fadd || fmadd
    isSubtract :=
      if fadd then !(e.fra.getLsbD 63 ^^ e.frb.getLsbD 63 ^^ e.insn.getLsbD 1)
      else if fmadd then
        !(e.fra.getLsbD 63 ^^ e.frb.getLsbD 63 ^^ e.frc.getLsbD 63 ^^ e.insn.getLsbD 1)
      else false
    isInverse := arith && (n == 0b10010 || n == 0b11000 || n == 0b11010)
    intResult :=
      (arith && (n == 0b01110 || n == 0b01111)) ||
        (e.op == .fpMisc && (opcbits e == 0b10010 || opcbits e == 0b11010 || opcbits e == 0b10011))
    useA := e.validA
    useB := e.validB
    useC := e.validC
    a := operandA e
    b := operandB e
    c := operandC e
    isNanInf := arith && ((operandA e).naninf || (operandB e).naninf || (operandC e).naninf) }

/-- The state after `IDLE`: a special operand of an arithmetic instruction leads to `DO_SPECIAL`. -/
def startState (e : Execute1ToFpu) : Phase :=
  if e.op == .fpArith &&
      ((operandA e).naninf || (operandB e).naninf || (operandC e).naninf ||
        (operandA e).zeroexp || (operandB e).zeroexp || (operandC e).zeroexp) then
    .compute
  else execState e

/-! ### Special cases -/

/-- `specialcase_t`, without what only the result depends on. -/
structure SpecialCase where
  invalid : Bool := false
  zeroDivide : Bool := false
  newFpscr : BitVec 32 := 0
  immedResult : Bool := false
  needFinish : Bool := false
  qnanResult : Bool := false
  deriving DecidableEq, Repr

namespace Operands

variable (o : Operands)

def snan (r : FpuReg) : Bool := r.cls == .nan && !r.mantissa.getLsbD qnanBit

/-- Some operand is a signalling NaN. -/
def vxsnan : Bool := snan o.a || snan o.b || snan o.c

def invalidMul : Bool :=
  o.isMultiply &&
    ((o.a.cls == .infinity && o.c.cls == .zero) || (o.a.cls == .zero && o.c.cls == .infinity))

def someNan : Bool := o.a.cls == .nan || o.b.cls == .nan || o.c.cls == .nan

/-- The result is one of the operands and still has to be rounded. -/
def finishes (r : FpuReg) (ue : Bool) : Bool :=
  r.cls == .finite && !o.intResult && (o.singlePrec || (ue && r.denorm))

/-- The case that applies, before square roots are looked at. -/
def case (ue : Bool) : SpecialCase :=
  if o.isNanInf then
    if o.intResult then
      { immedResult := true, qnanResult := true, newFpscr := setBit 0 fpscrVxcvi true }
    else if o.someNan then { immedResult := true }
    else
      -- some operand is an infinity
      let isi := !o.invalidMul && (o.a.cls == .infinity || o.c.cls == .infinity) &&
        o.isSubtract && o.b.cls == .infinity
      let idi := o.isInverse && o.a.cls == .infinity && o.b.cls == .infinity
      let sqrt := o.b.cls == .infinity && o.isSqrt && o.b.negative
      { immedResult := true
        qnanResult := o.invalidMul || isi || idi || sqrt
        newFpscr :=
          setBit (setBit (setBit 0 fpscrVxisi isi) fpscrVxidi idi) fpscrVxsqrt sqrt }
  else if o.useA && o.a.cls == .zero then
    let zdz := o.isInverse && o.b.cls == .zero
    { immedResult := true
      needFinish := o.isAddition && o.finishes o.b ue
      qnanResult := zdz
      newFpscr := setBit 0 fpscrVxzdz zdz }
  else if o.useC && o.c.cls == .zero then
    { immedResult := true, needFinish := o.finishes o.b ue }
  else if o.useB && o.b.cls == .zero && !o.isMultiply then
    if o.isInverse then
      { immedResult := true, zeroDivide := true, newFpscr := setBit 0 fpscrZx true }
    else { immedResult := true, needFinish := o.isAddition && o.finishes o.a ue }
  else {}

/-- The root of a negative number. -/
def negativeRoot : Bool := o.isSqrt && o.b.cls == .finite && o.b.negative

end Operands

/-- `fpu_specialcases`, which reads the underflow enable bit of the FPSCR. -/
def specialCases (o : Operands) (fpscr : BitVec 32) : SpecialCase :=
  let k := o.case (fpscr.getLsbD fpscrUe)
  let qnan := k.qnanResult || o.negativeRoot
  { invalid := o.vxsnan || o.invalidMul || qnan
    zeroDivide := k.zeroDivide
    newFpscr :=
      k.newFpscr ||| setBit (setBit (setBit 0 fpscrVxsnan o.vxsnan) fpscrVximz o.invalidMul)
        fpscrVxsqrt o.negativeRoot
    immedResult := k.immedResult || o.negativeRoot
    needFinish := k.needFinish
    qnanResult := qnan }

/-- The division 1.0 / 0.0 has an infinite result at once and sets ZX. -/
example :
    specialCases
        (capture
          { op := .fpArith, insn := 0b10010 <<< 1, validA := true, validB := true
            fra := 0x3ff0000000000000, frb := 0 })
        0 =
      { immedResult := true, zeroDivide := true, newFpscr := setBit 0 fpscrZx true } := by
  decide +kernel

end Fpu

end Microwatt
