import Microwatt.Helpers

/-!
# The bit sorter

`bit_sorter` does `cfuged`, `pextd` and `pdepd` one bit of the mask in a cycle, from both ends, and
`bpermd` one byte of RS in a cycle. The two halves have their own registers and never stop before
they are done: there is no input to abort them.

## Main definitions

* `BitSorter.State`, `BitSorter.Inputs`, `BitSorter.step`
* `BitSorter.result`
-/

namespace Microwatt

namespace BitSorter

/-- The registers. `bpermRes` is `bperm_res(6 downto 0)`; bit 7 is combinational. -/
structure State where
  val : BitVec 64 := 0
  st : Bool := false
  sd : Bool := false
  opr : BitVec 2 := 0
  bc : BitVec 6 := 0
  jl : BitVec 6 := 0
  jr : BitVec 6 := 0
  srMl : BitVec 64 := 0
  srMr : BitVec 64 := 0
  srVl : BitVec 64 := 0
  srVr : BitVec 64 := 0
  isBperm : Bool := false
  bpc : BitVec 3 := 0
  bpDone : Bool := false
  bpermRes : BitVec 7 := 0
  rsSr : BitVec 64 := 0
  rbBp : BitVec 64 := 0
  deriving DecidableEq, Repr

structure Inputs where
  rst : Bool := false
  rs : BitVec 64 := 0
  rb : BitVec 64 := 0
  go : Bool := false
  opc : BitVec 2 := 0
  doBperm : Bool := false
  deriving DecidableEq, Repr

variable (s : State) (i : Inputs)

/-- A zero in the mask at the left end, for `cfuged`. -/
def takesLeft : Bool := !s.srMl.getLsbD 63 && s.opr.getLsbD 1

/-- A one in the mask at the right end. -/
def takesRight : Bool := s.srMr.getLsbD 0

/-- `val` after a bit of the mask. -/
def nextVal : BitVec 64 :=
  let v := if takesLeft s then setBit s.val s.jl.toNat (s.srVl.getLsbD 63) else s.val
  if takesRight s then
    if s.opr = 0b00 then setBit v s.bc.toNat (s.srVr.getLsbD 0)
    else setBit v s.jr.toNat (s.srVr.getLsbD 0)
  else v

def bsortR : State :=
  if i.rst then { s with sd := false, st := false, opr := 0, val := 0 }
  else if i.go then
    { s with
      sd := false
      st := true
      srMl := i.rb
      srMr := i.rb
      srVl := i.rs
      srVr := i.rs
      opr := i.opc
      val := 0
      bc := 0
      jl := 63
      jr := 0 }
  else if s.st then
    { s with
      sd := s.bc == 0x3f
      st := s.bc != 0x3f
      bc := s.bc + 1
      val := nextVal s
      jl := if takesLeft s then s.jl - 1 else s.jl
      jr := if takesRight s then s.jr + 1 else s.jr
      srVl := s.srVl <<< 1
      srVr := if s.opr != 0b00 || takesRight s then s.srVr >>> 1 else s.srVr
      srMl := s.srMl <<< 1
      srMr := s.srMr >>> 1 }
  else { s with sd := false }

/-- `bperm_res(7)`. -/
def bpermBit : Bool :=
  s.rbBp.getLsbD (~~~(s.rsSr.extractLsb' 0 6)).toNat && !(s.rsSr.getLsbD 6 || s.rsSr.getLsbD 7)

/-- `bperm_r`, on the registers of the other half as they are. -/
def bpermR (r : State) : State :=
  if i.rst then { r with isBperm := false, bpDone := false, bpermRes := 0, bpc := 0 }
  else if i.doBperm then
    { r with isBperm := true, bpDone := false, bpermRes := 0, bpc := 0, rsSr := i.rs, rbBp := i.rb }
  else if s.bpDone then { r with isBperm := false, bpDone := false }
  else if s.isBperm then
    { r with
      bpermRes := (BitVec.ofBool (bpermBit s) ++ s.bpermRes).extractLsb' 1 7
      rsSr := s.rsSr >>> 8
      bpDone := s.bpc == 0b110
      bpc := s.bpc + 1 }
  else r

def step : State := bpermR s i (bsortR s i)

def result : BitVec 64 :=
  if s.isBperm then (BitVec.ofBool (bpermBit s) ++ s.bpermRes).setWidth 64 else s.val

end BitSorter

end Microwatt
