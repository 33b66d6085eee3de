import Microwatt.Backend.Slots
import Microwatt.CrFile
import Microwatt.Decode.Serialize

/-!
# Decode2 and the back end

The back end with the stage that feeds it: decode2 and the issue control, execute1, loadstore1, the
FPU, writeback and the CR file, wired together as in `core.vhdl`. From outside come the output of
decode1, the contents of the register file, and the answers of the data cache and of the MMU.

## Main definitions

* `Core`, `Core.step` — the registers and one clock edge
* `Core.Env` — what the rest of the core keeps to
* `Core.Ordered` — what the decode table says of an instruction

## Main results

* `Core.ordered_freshE`
-/

namespace Microwatt

open Decode2

/-- Decode2 with the instructions in flight, the three units, the requests in the data cache, and
the CR file. -/
structure Core (g : Execute1.Generics) where
  dec : SerialTracked
  b : Backend.State g
  port : LoadStore.Port := {}
  cr : CrFile.State := {}

namespace Core

variable {g : Execute1.Generics}

/-- What comes from outside in one cycle. The instruction of `ext` and the operands that go with it
are not looked at, since they come from decode2. -/
structure Cycle where
  next : Decode1ToDecode2 := {}
  r : RegisterFileToDecode2 := {}
  dbgSprReq : Bool := false
  dbgSprAddr : BitVec 8 := 0
  tbRdProt : Bool := false
  ext : Backend.Cycle := {}

section Wires

variable (x : Bool) (t : Core g) (c : Cycle)

def decGenerics (x : Bool) (g : Execute1.Generics) : Generics := ⟨x, g.hasFpu⟩

/-- What the units get. -/
def units : Backend.Cycle :=
  { c.ext with
    e := eOut t.dec.dec2
    regValid1 := t.dec.dec2.dc2.regValid1
    regValid2 := t.dec.dec2.dc2.regValid2
    regValid3 := t.dec.dec2.dc2.regValid3 }

def wb : Writeback.Inputs := Backend.wbIn t.b (units t c)

def exIn : Execute1.Inputs := Backend.exIn t.b (units t c)

/-- What decode2 gets, apart from the output of decode1. -/
def decIn : Inputs where
  rst := c.ext.rst
  completeIn := Writeback.completeOut (wb t c)
  busyIn := Execute1.busyOut t.b.ex (exIn t c)
  flushIn := Writeback.flushOut (wb t c)
  r := c.r
  c := CrFile.dOut t.cr (Writeback.cOut (wb t c))
  executeBypass := Execute1.bypassData t.b.ex (exIn t c)
  executeCrBypass := Execute1.bypassCrData t.b.ex (exIn t c)
  execute2Bypass := Execute1.bypass2Data t.b.ex (exIn t c)
  execute2CrBypass := Execute1.bypass2CrData t.b.ex (exIn t c)
  writebackBypass := Writeback.wbBypass (wb t c)
  dbgSprReq := c.dbgSprReq
  dbgSprAddr := c.dbgSprAddr
  tbRdProt := c.tbRdProt

def decCycle : SerialCycle := ⟨decIn t c, c.next⟩

def step : Core g where
  dec := serialStep (decGenerics x g) t.dec (decCycle t c)
  b := Backend.step t.b (units t c)
  port := t.port.step g.hasFpu t.b.ls.ls (Backend.lsIn t.b (units t c))
  cr := CrFile.step t.cr (Writeback.cOut (wb t c))

end Wires

/-! ### What comes from outside -/

/-- The instruction is a row of the decode table, and only an instruction in two parts has a second
one. -/
structure Tabled (hasFpu : Bool) (d : Decode1ToDecode2) : Prop where
  row : ∃ code, d.decode = decodeRom hasFpu code
  second : d.second = true → d.decode.repeat_ ≠ .none

instance (hasFpu : Bool) (d : Decode1ToDecode2) : Decidable (Tabled hasFpu d) :=
  decidable_of_iff
    ((∃ n : Fin 347, d.decode = decodeRom hasFpu (.val n)) ∧
      (d.second = true → d.decode.repeat_ ≠ .none))
    ⟨fun ⟨⟨n, hn⟩, h⟩ => ⟨⟨_, hn⟩, h⟩, fun ⟨⟨code, hc⟩, h⟩ =>
      ⟨⟨⟨code.pos, code.pos_lt⟩, by rw [InsnCode.val_pos]; exact hc⟩, h⟩⟩

/-- Decode1 presents rows of the table, and the data cache and the MMU keep to their protocol. -/
@[mk_iff] structure Env (t : Core g) (c : Cycle) : Prop where
  port : LoadStore.PortEnv t.port t.b.ls.ls (units t c).lsPorts
  tabled : c.next.valid = true → Tabled g.hasFpu c.next

instance (t : Core g) (c : Cycle) : Decidable (Env t c) :=
  decidable_of_iff _ (env_iff ..).symm

structure Start (t : Core g) : Prop where
  dec : SerialStart t.dec
  units : Backend.Start t.b
  cycle1 : t.b.fp.cycle1Ar = false
  port : t.port = {}

/-! ### What the decode table says -/

/-- What the decode table says of an instruction, as far as the order of completions depends on it:
what takes more than one cycle in execute1 is for the ALU, and so is `wait`; `tlbie` has no length,
and hash instructions access an aligned doubleword. -/
structure Ordered (hasFpu : Bool) (e : Decode2ToExecute1) : Prop extends Backend.Decoded e where
  slow : e.insnType = .bsort ∨ e.insnType = .bperm ∨ e.insnType = .mulL64 ∨ e.insnType = .mulH64 →
    e.unit = .alu
  div : hasFpu = false → e.insnType = .div ∨ e.insnType = .dive ∨ e.insnType = .mod → e.unit = .alu
  wait : e.insnType = .wait → e.unit = .alu
  tlbie : e.insnType = .tlbie → e.dataLen = 0
  hash : e.isSigned = true → e.insnType = .load ∨ e.insnType = .store →
    e.dataLen = 8 ∧ e.is32bit = false ∧ e.update = false

theorem row_slow (hasFpu : Bool) (code : InsnCode) : let row := decodeRom hasFpu code
    row.insnType = .bsort ∨ row.insnType = .bperm ∨ row.insnType = .mulL64 ∨
      row.insnType = .mulH64 → row.unit = .alu := by
  exact forall_rows (by decide +kernel) hasFpu code

theorem row_div (code : InsnCode) : let row := decodeRom false code
    row.insnType = .div ∨ row.insnType = .dive ∨ row.insnType = .mod → row.unit = .alu := by
  revert code
  refine InsnCode.forall_code ?_
  decide +kernel

theorem row_wait (hasFpu : Bool) (code : InsnCode) : let row := decodeRom hasFpu code
    row.insnType = .wait → row.unit = .alu ∧ row.sglPipe = true := by
  exact forall_rows (by decide +kernel) hasFpu code

theorem row_tlbie (hasFpu : Bool) (code : InsnCode) : (decodeRom hasFpu code).insnType = .tlbie →
    (decodeRom hasFpu code).length = .none := by
  exact forall_rows (by decide +kernel) hasFpu code

theorem row_hash (hasFpu : Bool) (code : InsnCode) : let row := decodeRom hasFpu code
    row.isSigned = true → row.insnType = .load ∨ row.insnType = .store →
      row.length = .is8b ∧ row.is32bit = false ∧ row.update = false := by
  exact forall_rows (by decide +kernel) hasFpu code

theorem ordered_freshE {d : Generics} {i : Inputs} {hasFpu : Bool}
    (h : Tabled hasFpu i.d) : Ordered hasFpu (freshE d i) := by
  obtain ⟨⟨code, hrow⟩, hsecond⟩ := h
  -- an instruction that does not move a SPR goes where its row says
  have hunit : (decodeRom hasFpu code).insnType ≠ .mfspr →
      (decodeRom hasFpu code).insnType ≠ .mtspr →
      (freshE d i).unit = (decodeRom hasFpu code).unit := by
    intro h1 h2
    have hm : movesSpr i.d = false := by simp [movesSpr, op, hrow, h1, h2]
    simp [freshE, unit, hm, hrow]
  have hop : (freshE d i).insnType = (decodeRom hasFpu code).insnType := by
    simp [freshE, op, hrow]
  refine ⟨Backend.decoded_freshE hrow hsecond, ?_, ?_, ?_, ?_, ?_⟩ <;> rw [hop]
  · intro hk
    rw [hunit (by rcases hk with h | h | h | h <;> simp [h])
      (by rcases hk with h | h | h | h <;> simp [h])]
    exact row_slow hasFpu code hk
  · intro hf hk
    rw [hunit (by rcases hk with h | h | h <;> simp [h]) (by rcases hk with h | h | h <;> simp [h])]
    subst hf
    exact row_div code hk
  · intro hk
    rw [hunit (by simp [hk]) (by simp [hk])]
    exact (row_wait hasFpu code hk).1
  · intro hk
    simp [freshE, dataLen, hrow, row_tlbie hasFpu code hk]
  · intro hs hk
    have hs' : (decodeRom hasFpu code).isSigned = true := by rw [← hs, freshE, hrow]
    obtain ⟨hlen, h32, hupd⟩ := row_hash hasFpu code hs' hk
    simp [freshE, dataLen, hrow, hlen, h32, hupd]

theorem sglPipe_of_wait {d : Decode1ToDecode2} {hasFpu : Bool} (h : Tabled hasFpu d)
    (hw : op d = .wait) : sglPipe d = true := by
  obtain ⟨⟨code, hrow⟩, -⟩ := h
  simp only [op, hrow] at hw
  simp [sglPipe, hrow, (row_wait hasFpu code hw).2]

end Core

end Microwatt
