import Microwatt.Fpu.Basic

/-!
# Control of the FPU

When an instruction starts, is done, completes or takes its interrupt, and what becomes of the FPSCR
meanwhile. There are two copies of it: `fpscr` is changed while an instruction is executed, and
`comm_fpscr` is loaded from it when an instruction completes, to go back to after a flush.

What is computed in the states that compute is an input, `Datapath`. This covers their changes to
the FPSCR, the moment they are done and the result flags; the changes made by the instructions that
access the FPSCR and by the special cases are given in full.

## Main definitions

* `Fpu.Control`, `Fpu.Inputs`
* `Fpu.fpscrNext` — the FPSCR after a cycle
* `Fpu.step` — one clock edge
-/

namespace Microwatt

namespace Fpu

/-! ### Registers -/

/-- The registers, as far as they take part. -/
structure Control where
  state : Phase := .idle
  busy : Bool := false
  f2stall : Bool := false
  instrDone : Bool := false
  complete : Bool := false
  doIntr : Bool := false
  illegal : Bool := false
  fpscr : BitVec 32 := 0
  commFpscr : BitVec 32 := 0
  op : Operands := {}
  completeTag : InstrTag := instrTagInit
  oldExc : BitVec 13 := 0
  updateFprf : Bool := false
  invalid : Bool := false
  cycle1Ar : Bool := false
  deriving DecidableEq, Repr

/-- What happens in a state that computes. `early` and `late` are the changes to the FPSCR before
and after the special cases are looked at, `fprf` are the result flags of the cycle. -/
structure Datapath where
  early : BitVec 32 → BitVec 32 := id
  late : BitVec 32 → BitVec 32 := id
  fprf : BitVec 5 := 0
  invalid : Bool := false
  arithDone : Bool := false
  done : Bool := false
  updateFx : Bool := false
  toIllegal : Bool := false

/-- The input ports, and the computation. -/
structure Inputs where
  rst : Bool := false
  flushIn : Bool := false
  e : Execute1ToFpu := {}
  dp : Datapath := {}

variable (r : Control) (i : Inputs)

/-! ### What a cycle does -/

def computes : Bool := r.state == .compute

/-- The special case, if it is the second cycle of an arithmetic instruction. -/
def scinfo : SpecialCase := specialCases r.op r.fpscr

/-- A special case gives the result at once. -/
def immediate : Bool :=
  r.cycle1Ar && (scinfo r).immedResult && ((scinfo r).qnanResult || !(scinfo r).needFinish)

def arithDone : Bool := (computes r && i.dp.arithDone) || immediate r

/-- The state says that the instruction is done. -/
def stateDone : Bool :=
  match r.state with
  | .idle => false
  | .compute => i.dp.done
  | _ => true

def instrDoneNext : Bool :=
  (r.instrDone && !(r.complete || r.doIntr)) || stateDone r i || arithDone r i

def invalidNext : Bool :=
  (r.state != .idle && r.invalid) || (computes r && i.dp.invalid && !r.cycle1Ar) ||
    (r.cycle1Ar && (scinfo r).invalid)

def zeroDivide : Bool := r.cycle1Ar && (scinfo r).zeroDivide

/-- `v.update_fprf`: an enabled invalid operation or division by zero has no result. -/
def updateFprfNext : Bool :=
  arithDone r i && !(invalidNext r i && r.fpscr.getLsbD fpscrVe) &&
    !(zeroDivide r && r.fpscr.getLsbD fpscrZe)

def updateFx : Bool :=
  r.state == .mtfsb || (computes r && i.dp.updateFx) || arithDone r i

/-! ### The FPSCR

The functions take the value of the FPSCR at the beginning of the cycle as an argument of its own,
so that one can speak of what a cycle does to any value. -/

/-- A field of four bits, counted from the left, is assigned. -/
def setField (f : BitVec 32) (j : ℕ) (u : BitVec 4) : BitVec 32 :=
  copyBits f (u.setWidth 32 <<< ((7 - j) * 4)) ((7 - j) * 4 + 3) ((7 - j) * 4)

section

variable (o : Operands) (f : BitVec 32)

/-- `DO_MCRFS`: the exception bits of the field are cleared. -/
def doMcrfs : BitVec 32 :=
  f &&& (setField (BitVec.allOnes 32) (o.insn.extractLsb' 18 3).toNat 0 ||| 0x6007F0FF)

def doMtfsb : BitVec 32 :=
  setBit f (31 - (o.insn.extractLsb' 21 5).toNat) (o.insn.getLsbD 6)

def doMtfsfi : BitVec 32 :=
  if !o.insn.getLsbD 16 then
    setField f (o.insn.extractLsb' 23 3).toNat (o.insn.extractLsb' 12 4)
  else f

def doMffs : BitVec 32 :=
  let n := o.insn.extractLsb' 16 5
  if n = 0b00001 then copyBits f 0 fpscrVe fpscrXe
  else if n = 0b10110 then copyBits f (o.b.mantissa.setWidth 32) (fpscrRn + 1) fpscrRn
  else if n = 0b10111 then
    copyBits f ((o.insn.extractLsb' 11 2).setWidth 32) (fpscrRn + 1) fpscrRn
  else f

end

def flm (o : Operands) : BitVec 8 :=
  if o.insn.getLsbD 25 then 0xFF
  else if o.insn.getLsbD 16 then 0x00
  else o.insn.extractLsb' 17 8

def doMtfsf (o : Operands) (f : BitVec 32) : BitVec 32 :=
  (List.range 8).foldl
    (fun f i =>
      if (flm o).getLsbD i then copyBits f (o.b.mantissa.setWidth 32) (i * 4 + 3) (i * 4) else f)
    f

section

variable (f : BitVec 32)

/-- What the case statement does to the FPSCR. -/
def stateFpscr : BitVec 32 :=
  match r.state with
  | .idle | .illegal => f
  | .mcrfs => doMcrfs r.op f
  | .mtfsb => doMtfsb r.op f
  | .mtfsfi => doMtfsfi r.op f
  | .mffs => doMffs r.op f
  | .mtfsf => doMtfsf r.op f
  | .compute => i.dp.early f

/-- What the special cases do to it. They start again from the value in the register. -/
def specialFpscr : BitVec 32 :=
  if r.cycle1Ar then
    setBit (setBit (f ||| (specialCases r.op f).newFpscr) fpscrFr false) fpscrFi false
  else stateFpscr r i f

/-- The result flags go to bits C to FU. -/
def setFprf (flags : BitVec 5) : BitVec 32 :=
  copyBits f (flags.setWidth 32 <<< fpscrFu) fpscrC fpscrFu

def workFpscr : BitVec 32 :=
  let f := if computes r then i.dp.late (specialFpscr r i f) else specialFpscr r i f
  if r.updateFprf then setFprf f i.dp.fprf else f

/-- The thirteen exception bits. -/
def excBits : BitVec 13 :=
  f.extractLsb' fpscrVxvc 10 ++ f.extractLsb' fpscrVxcvi 3

def setVx : BitVec 32 :=
  setBit f fpscrVx (f.extractLsb' fpscrVxvc 6 != 0 || f.extractLsb' fpscrVxcvi 3 != 0)

def setFex : BitVec 32 :=
  setBit f fpscrFex (f.extractLsb' fpscrXx 5 &&& f.extractLsb' fpscrXe 5 != 0)

end

/-- FX, if an exception bit is new. -/
def setFx (update : Bool) (oldExc : BitVec 13) (f : BitVec 32) : BitVec 32 :=
  if update && excBits f &&& ~~~oldExc != 0 then setBit f fpscrFx true else f

/-- `v.fpscr` where `comm_fpscr` is loaded from it. -/
def fpscrCommit (oldExc : BitVec 13) (f : BitVec 32) : BitVec 32 :=
  setFx (updateFx r i) oldExc (setFex (setVx (workFpscr r i f)))

/-- `v.fpscr` at the end: the reserved bit is cleared. -/
def fpscrUpdate (oldExc : BitVec 13) (f : BitVec 32) : BitVec 32 :=
  setBit (fpscrCommit r i oldExc f) 11 false

def fpscrNext : BitVec 32 := fpscrUpdate r i r.oldExc r.fpscr

/-! ### The clock edge -/

/-- `v.state` before it is known that the instruction is done. -/
def stateNext : Phase :=
  if r.cycle1Ar && (scinfo r).immedResult && !(scinfo r).qnanResult && (scinfo r).needFinish then
    .compute
  else match r.state with
    | .idle => if i.e.valid then startState i.e else .idle
    | .compute => if i.dp.toIllegal then .illegal else .compute
    | st => st

/-- An instruction leaves the states that do something. -/
def finishes : Bool := instrDoneNext r i && r.state != .idle

def illegalNext : Bool :=
  if finishes r i then r.state == .illegal
  else if r.complete || r.doIntr then false
  else r.illegal

def rin : Control where
  state := if finishes r i then .idle else stateNext r i
  busy := if finishes r i then false else r.busy || (r.state == .idle && i.e.valid)
  f2stall :=
    if finishes r i then false
    else if !instrDoneNext r i && r.state != .idle && !i.e.stall then true
    else r.f2stall
  instrDone := instrDoneNext r i
  complete := instrDoneNext r i && !i.e.stall && !illegalNext r i
  doIntr :=
    instrDoneNext r i && !i.e.stall &&
      (((fpscrCommit r i r.oldExc r.fpscr).getLsbD fpscrFex && r.op.feMode) || illegalNext r i)
  illegal := illegalNext r i
  fpscr := fpscrNext r i
  commFpscr :=
    if r.complete || r.doIntr then fpscrCommit r i r.oldExc r.fpscr else r.commFpscr
  op := if i.e.valid then capture i.e else r.op
  completeTag := if finishes r i then r.op.instrTag else r.completeTag
  oldExc := if r.state == .idle then excBits r.fpscr else r.oldExc
  updateFprf := updateFprfNext r i
  invalid := invalidNext r i
  cycle1Ar := i.e.valid && i.e.op == .fpArith

/-- `fpu_0`. A reset or a flush leaves alone the registers that are not named. -/
def step : Control :=
  if i.rst || i.flushIn then
    { r with
      state := .idle
      busy := false
      f2stall := false
      instrDone := false
      complete := false
      illegal := false
      doIntr := false
      completeTag := { r.completeTag with valid := false }
      op := { r.op with instrTag := { r.op.instrTag with valid := false } }
      fpscr :=
        if i.rst then 0
        else if !r.doIntr then r.commFpscr
        else 0
      commFpscr := if i.rst then 0 else r.commFpscr }
  else rin r i

/-! ### States that do something -/

theorem startState_ne_idle (e : Execute1ToFpu) : startState e ≠ .idle := by
  have hexec : execState e ≠ .idle := by
    simp only [execState, arithDecode, cmpDecode, miscDecode]
    repeat' split
    all_goals simp
  simp only [startState]
  split
  · simp
  · exact hexec

theorem stateNext_ne_idle {r : Control} {i : Inputs} (h : r.state ≠ .idle ∨ i.e.valid = true) :
    stateNext r i ≠ .idle := by
  simp only [stateNext]
  split
  · simp
  · split
    · next hidle =>
      rw [if_pos (h.resolve_left (absurd hidle))]
      exact startState_ne_idle _
    · split <;> simp
    · assumption

end Fpu

end Microwatt
