import Microwatt.Decode.Sprs
import Microwatt.Execute.Flush
import Microwatt.LoadStore.Stages
import Microwatt.Mmu.Walk

/-!
# SPRs in loadstore1 and the MMU

DAR, DSISR and the watchpoint registers are registers of loadstore1, PID and PTCR of the MMU. A
`mtspr` to one of them goes through loadstore1 like a store without an address: its value passes the
byte reversal and rotation for stores, and is then written by the third stage or sent to the MMU. A
`mfspr` picks up the value in the second stage.

The value of a `mtspr` is not meant to be reversed, but it is. Execute1 asks for reversal in
big-endian mode, whatever the instruction, and the number of bytes to be reversed comes from the
length, of which there is none. The length minus one is then seven, that is, all bytes are reversed.

A `mtspr` to one of these SPRs issues alone, so both moves find the units resting.

## Main definitions

* `LsSpr`, `LsSpr.restrict` — the SPRs, and the bits that exist
* `SprUnits`, `SprUnits.step` — loadstore1 and the MMU

## Main results

* `Execute1.isMove_lOut` — the request that execute1 sends
* `SprUnits.spr_round_trip`, `SprUnits.spr_round_trip_fails`
-/

namespace Microwatt

open Clocked LoadStore Mmu Execute1

/-! ### The registers -/

/-- The SPRs that loadstore1 and the MMU hold. -/
inductive LsSpr
  | dar | dsisr | dawr0 | dawr1 | dawrx0 | dawrx1 | pid | ptcr
  deriving DecidableEq, Repr

namespace LsSpr

def num : LsSpr → BitVec 10
  | dar => 19
  | dsisr => 18
  | dawr0 => 180
  | dawr1 => 181
  | dawrx0 => 188
  | dawrx1 => 189
  | pid => 48
  | ptcr => 464

def inMmu : LsSpr → Bool
  | pid | ptcr => true
  | _ => false

/-- The bits of a value that exist. -/
def restrict (r : LsSpr) (x : BitVec 64) : BitVec 64 :=
  match r with
  | dar | ptcr => x
  | dsisr => (x.extractLsb' 0 32).setWidth 64
  | dawr0 | dawr1 => x.extractLsb' 3 61 ++ 0#3
  | dawrx0 | dawrx1 => (x.extractLsb' 0 16).setWidth 64
  | pid => 0#52 ++ x.extractLsb' 0 12

/-- `sprsel`. -/
def sel : LsSpr → BitVec 3
  | pid => 0b000
  | ptcr => 0b001
  | dsisr => 0b010
  | dar => 0b011
  | dawr0 => 0b100
  | dawr1 => 0b101
  | dawrx0 => 0b110
  | dawrx1 => 0b111

/-- Loadstore1 finds the register by a few bits of its number. -/
theorem sprselOf_num {insn : BitVec 32} {r : LsSpr} (h : sprn insn = r.num) :
    sprselOf insn = r.sel := by
  rw [sprselOf, h]
  cases r <;> rfl

/-- Bits 1 and 2 tell whether the MMU has it. -/
theorem mmuOp_num {insn : BitVec 32} {r : LsSpr} (h : sprn insn = r.num) :
    (!((sprn insn).getLsbD 1 || (sprn insn).getLsbD 2)) = r.inMmu := by
  rw [h]
  cases r <;> rfl

end LsSpr

namespace LoadStore

/-- The request of a move from or to a SPR, in little-endian mode or not. It has no address and no
length. -/
structure IsMove (l : Execute1ToLoadstore1) (op : InsnType) (r : LsSpr) (x : BitVec 64)
    (le : Bool) : Prop where
  valid : l.valid = true
  op : l.op = op
  num : sprn l.insn = r.num
  data : l.data = x
  addr1 : l.addr1 = 0
  addr2 : l.addr2 = 0
  length : l.length = 0
  is32bit : l.is32bit = false
  byteReverse : l.byteReverse = !le
  second : l.second = false
  repeat_ : l.repeat_ = false
  reserve : l.reserve = false
  hash : l.hash = false

/-- The request that loadstore1 makes of it. -/
structure Moving (q : Request) (op : InsnType) (r : LsSpr) (x : BitVec 64) (le : Bool) :
    Prop where
  valid : q.valid = true
  dcReq : q.dcReq = false
  load : q.load = false
  store : q.store = false
  loadSp : q.loadSp = false
  hashcmp : q.hashcmp = false
  alignIntr : q.alignIntr = false
  doUpdate : q.doUpdate = false
  incomplete : q.incomplete = false
  readSpr : q.readSpr = (op == .mfspr)
  writeSpr : q.writeSpr = (op == .mtspr)
  mmuOp : q.mmuOp = (op == .mtspr && r.inMmu)
  sprsel : q.sprsel = r.sel
  brevMask : q.brevMask = if le then 0 else 7
  storeData : q.storeData = x

/-- The two kinds of moves. -/
def IsSprOp (op : InsnType) : Prop := op = .mtspr ∨ op = .mfspr

theorem IsMove.moving {l : Execute1ToLoadstore1} {op : InsnType} {r : LsSpr} {x : BitVec 64}
    {le : Bool} (h : IsMove l op r x le) (hop : IsSprOp op) (hasFpu : Bool) (addr0 : BitVec 64) :
    Moving (loadstore1In hasFpu l addr0) op r x le := by
  constructor
  case valid => exact h.valid
  case readSpr | writeSpr => rw [loadstore1In, h.op]
  case sprsel => exact LsSpr.sprselOf_num h.num
  case mmuOp =>
    simp only [loadstore1In, LsSpr.mmuOp_num h.num, h.op]
    rcases hop with rfl | rfl <;> rfl
  case brevMask =>
    simp only [loadstore1In, brevMaskOf, h.byteReverse, h.length]
    cases le <;> rfl
  case storeData => simp [loadstore1In, storeValue, h.is32bit, h.data]
  all_goals
    simp only [loadstore1In, alignIntrOf, h.valid, h.op, h.repeat_, h.reserve, h.hash]
    rcases hop with rfl | rfl <;> rfl

/-- The value of a move as it leaves the byte reversal for stores. -/
def moved (le : Bool) (x : BitVec 64) : BitVec 64 := formatStore 0 (if le then 0 else 7) x

theorem moved_le (x : BitVec 64) : moved true x = x := by
  refine Lanes.ext_lanes (by decide : 0 < 8) (by decide) fun i hi => ?_
  have hlt : i < 2 ^ 3 := by omega
  change Lanes.byte (formatStore 0#3 0#3 x) i = Lanes.byte x i
  rw [formatStore, Lanes.byte_ofBytes _ hi, BitVec.sub_zero, BitVec.xor_zero, BitVec.toNat_ofNat,
    Nat.mod_eq_of_lt hlt]

end LoadStore

/-! ### Where the request comes from -/

/-- What the decode table says about a move: it has only one operand, the value. -/
@[mk_iff] structure MoveRow (row : DecodeRom) : Prop where
  inputRegA : row.inputRegA = .none
  inputRegB : row.inputRegB = .imm
  constSel : row.constSel = .none
  length : row.length = .none
  byteReverse : row.byteReverse = false
  reserve : row.reserve = false
  is32bit : row.is32bit = false
  isSigned : row.isSigned = false
  repeat_ : row.repeat_ = .none

instance (row : DecodeRom) : Decidable (MoveRow row) :=
  decidable_of_iff _ (moveRow_iff ..).symm

theorem moveRow_decodeRom (hasFpu : Bool) (code : InsnCode) :
    IsSprOp (decodeRom hasFpu code).insnType → MoveRow (decodeRom hasFpu code) := by
  revert code
  refine InsnCode.forall_code ?_
  unfold IsSprOp
  cases hasFpu <;> decide +kernel

namespace Decode2

/-- Decode1 presents an instruction twice only if its row says so. -/
structure MoveLooked (s : Decode1.State) : Prop where
  row : LoadStore.IsSprOp s.decode.insnType → MoveRow s.decode
  second : s.r.valid = true → s.r.second = true → s.decode.repeat_ ≠ .none

theorem MoveLooked.step {hasFpu : Bool} {s : Decode1.State} (h : MoveLooked s)
    (i : Decode1.Inputs) : MoveLooked (Decode1.step hasFpu s i) := by
  constructor
  · change LoadStore.IsSprOp (if _ then _ else _ : DecodeRom).insnType →
      MoveRow (if _ then _ else _)
    split_ifs
    · exact h.row
    · exact moveRow_decodeRom hasFpu _
  · change (Decode1.rNext s i).valid = true → (Decode1.rNext s i).second = true →
      (if Decode1.busyOut s i then s.decode else _ : DecodeRom).repeat_ ≠ .none
    have hbusy : i.stallIn = true ∨ Decode1.double s = true → Decode1.busyOut s i = true := by
      rw [Decode1.busyOut, Bool.or_eq_true]
      exact id
    rw [Decode1.rNext]
    split_ifs
    · rintro ⟨⟩
    · rintro ⟨⟩
    · rintro ⟨⟩
    · rintro ⟨⟩
    · exact h.second
    · exact absurd (hbusy (.inl ‹_›)) ‹_›
    · intro _ _ hnone
      have hdouble : Decode1.double s = true := ‹_›
      simp [Decode1.double, hnone] at hdouble
    · exact absurd (hbusy (.inr ‹_›)) ‹_›
    · rintro _ ⟨⟩
    · rintro _ ⟨⟩

/-- What the register of decode2 says about a move: it has no operands but the value. -/
structure MoveHeld (r : Reg) : Prop where
  regValid1 : r.regValid1 = false
  regValid2 : r.regValid2 = false
  readData1 : r.e.readData1 = 0
  readData2 : r.e.readData2 = 0
  dataLen : r.e.dataLen = 0
  byteReverse : r.e.byteReverse = false
  is32bit : r.e.is32bit = false
  repeat_ : r.e.repeat_ = false
  reserve : r.e.reserve = false
  isSigned : r.e.isSigned = false
  second : r.e.valid = true ∨ r.busy = true → r.e.second = false

theorem operand_const (ex1Bypass : Control.Ex1Bypass) {c : Control.Inputs} {sel : BitVec 4}
    {reg : GsprIndex} (hsel : sel = Control.bypassSel ex1Bypass c false reg)
    (busy valid : Bool) (held read const : BitVec 64) (i : Inputs) :
    operand sel busy valid held read const i =
      if busy then held else if valid then read else const := by
  have hbit : sel.getLsbD 0 = false := by
    rw [hsel, Control.bypassSel, Bool.false_and, if_neg Bool.false_ne_true]
    split_ifs <;> rfl
  rw [operand, hbit, if_neg Bool.false_ne_true]

section Pending

variable {g : Generics} {s : State} {i : Inputs} {s1 : Decode1.State}

theorem readData1_eq (h : (pending g s i).regValid1 = false) :
    readData1 g s i = if s.dc2.busy then s.dc2.e.readData1 else if regAValid i.d then i.r.read1Data
      else decodeAConst i.d.decode.inputRegA i.d.pfx i.d.nia :=
  operand_const g.ex1Bypass (by rw [← h]; rfl) _ _ _ _ _ _

theorem readData2_eq (h : (pending g s i).regValid2 = false) :
    readData2 g s i = if s.dc2.busy then s.dc2.e.readData2 else if regBValid i.d then i.r.read2Data
      else decodeBConst i.d.decode.constSel i.d.insn i.d.pfx :=
  operand_const g.ex1Bypass (by rw [← h]; rfl) _ _ _ _ _ _

theorem moveHeld_pending (h : LoadStore.IsSprOp s.dc2.e.insnType → MoveHeld s.dc2)
    (h1 : MoveLooked s1) (hd : i.d = Decode1.dOut s1)
    (hop : LoadStore.IsSprOp (pending g s i).e.insnType) : MoveHeld (dc2in g s i) := by
  cases hb : s.dc2.busy with
  | true =>
    have hp : pending g s i = s.dc2 := by rw [pending, hb]; rfl
    rw [hp] at hop
    have hold := h hop
    have hvalid1 : (pending g s i).regValid1 = false := by rw [hp]; exact hold.regValid1
    have hvalid2 : (pending g s i).regValid2 = false := by rw [hp]; exact hold.regValid2
    constructor
    case regValid1 => exact hvalid1
    case regValid2 => exact hvalid2
    case readData1 =>
      change readData1 g s i = 0
      rw [readData1_eq hvalid1, hb]
      exact hold.readData1
    case readData2 =>
      change readData2 g s i = 0
      rw [readData2_eq hvalid2, hb]
      exact hold.readData2
    case second =>
      intro _
      change (pending g s i).e.second = false
      rw [hp]
      exact hold.second (.inr hb)
    all_goals
      simp [dc2in, eNext, hp, hold.dataLen, hold.byteReverse, hold.is32bit, hold.repeat_,
        hold.reserve, hold.isSigned]
  | false =>
    have hp : pending g s i = fresh g s i := by rw [pending, hb]; rfl
    rw [hp] at hop
    have hrow : MoveRow i.d.decode := by
      rw [hd]
      refine h1.row ?_
      change LoadStore.IsSprOp i.d.decode.insnType at hop
      rwa [hd] at hop
    have hregA : regAValid i.d = false := by simp [regAValid, hrow.inputRegA, decodeInputRegA]
    have hregB : regBValid i.d = false := by simp [regBValid, hrow.inputRegB, decodeInputRegB]
    have hvalid1 : (pending g s i).regValid1 = false := by rw [hp]; exact hregA
    have hvalid2 : (pending g s i).regValid2 = false := by rw [hp]; exact hregB
    constructor
    case regValid1 => exact hvalid1
    case regValid2 => exact hvalid2
    case readData1 =>
      change readData1 g s i = 0
      rw [readData1_eq hvalid1, hb, hregA, hrow.inputRegA]
      rfl
    case readData2 =>
      change readData2 g s i = 0
      rw [readData2_eq hvalid2, hb, hregB, hrow.constSel]
      rfl
    case second =>
      -- a second part belongs to a row that has one
      intro hv
      have hin : validIn s i = true := by
        rcases hv with hv | hv
        · exact validIn_of_validOut hv
        · exact (Bool.and_eq_true_iff.mp hv).1
      have hvalid : i.d.valid = true := by simpa [validIn, hb] using hin
      change (pending g s i).e.second = false
      rw [hp]
      change i.d.second = false
      have hrep := hrow.repeat_
      rw [hd] at hvalid hrep ⊢
      cases hs : (Decode1.dOut s1).second with
      | false => rfl
      | true => exact absurd hrep (h1.second hvalid hs)
    all_goals
      simp [dc2in, eNext, hp, fresh, freshE, dataLen, hrow.length, hrow.byteReverse, hrow.is32bit,
        hrow.repeat_, hrow.reserve, hrow.isSigned]

theorem moveHeld_step (h : IsSprOp s.dc2.e.insnType → MoveHeld s.dc2)
    (h1 : MoveLooked s1) (hd : i.d = Decode1.dOut s1)
    (hop : IsSprOp (step g s i).dc2.e.insnType) : MoveHeld (step g s i).dc2 := by
  change IsSprOp (dc2Next g s i).e.insnType at hop
  change MoveHeld (dc2Next g s i)
  rw [dc2Next] at hop ⊢
  split_ifs at hop ⊢
  · rcases hop with hop | hop <;> cases hop
  · exact { h hop with }
  · exact moveHeld_pending h h1 hd hop

end Pending

/-- What holds of the two decode stages. -/
structure MoveInv (s : Front) : Prop where
  looked : MoveLooked s.d1
  held : LoadStore.IsSprOp s.d2.dc2.e.insnType → MoveHeld s.d2.dc2

theorem moveInv_start {s : Front} (h : FrontStart s) : MoveInv s := by
  constructor
  · rw [h.1]
    refine ⟨fun hop => ?_, fun hv => nomatch hv⟩
    rcases hop with hop | hop <;> cases hop
  · rw [h.2]
    rintro (hop | hop) <;> cases hop

theorem moveInv {g : Generics} {s : Front}
    (h : Reachable (frontStep g) (fun _ _ => True) FrontStart s) : MoveInv s := by
  refine h.induct (fun s hs => moveInv_start hs) fun s i hs _ => ?_
  exact ⟨hs.looked.step i.i1, fun hop => moveHeld_step hs.held hs.looked rfl hop⟩

end Decode2

/-- **Execute1 asks for byte reversal in big-endian mode**, though the table does not: the request
for a move that has come through the decode stages. -/
theorem Execute1.isMove_lOut {g : Generics} {s : State g} {i : Inputs}
    {gd : Decode2.Generics} {f : Decode2.Front} {r : LsSpr}
    (hf : Reachable (Decode2.frontStep gd) (fun _ _ => True) Decode2.FrontStart f)
    (he : i.e = Decode2.eOut f.d2) (hgo : go s i = true)
    (hop : LoadStore.IsSprOp i.e.insnType) (hnum : decodeSprNum i.e.insn = r.num) :
    LoadStore.IsMove (lOut s i) i.e.insnType r i.e.readData3
      (msrBit s msrLe) := by
  have hvalid : i.e.valid = true := (valid_of_go hgo).1
  have hunit : i.e.unit = .ldst := by
    have hdec := (Decode2.frontInv hf).decoded
    rw [show f.d2.dc2.e = i.e from he.symm] at hdec
    rw [hdec.unit hop.symm, hnum]
    cases r <;> rfl
  have hheld : Decode2.MoveHeld f.d2.dc2 := by
    refine (Decode2.moveInv hf).held ?_
    rw [he] at hop
    exact hop
  have hsecond : i.e.second = false := by
    rw [he] at hvalid ⊢
    exact hheld.second (.inl hvalid)
  have hbrev : i.e.byteReverse = false := by rw [he]; exact hheld.byteReverse
  constructor
  case valid => simp [lOut, hgo, hunit]
  case num => exact hnum
  case byteReverse => simp [lOut, hbrev]
  case second => exact hsecond
  case op | data => rfl
  all_goals
    rw [lOut, he]
  · exact hheld.readData1
  · exact hheld.readData2
  · exact hheld.dataLen
  · exact hheld.is32bit
  · exact hheld.repeat_
  · exact hheld.reserve
  · exact hheld.isSigned

theorem Execute1.isMove_lOut_mtdar :
    let s : State {} := Execute1.step {} { rst := true }
    let i : Inputs := { e := Decode2.eOut (Decode2.afterMtspr 0x7C7303A6).d2 }
    go s i = true ∧ LoadStore.IsMove (lOut s i) .mtspr .dar i.e.readData3 (msrBit s msrLe) := by
  intro s i
  have hgo : go s i = true := by decide +kernel
  have hop : i.e.insnType = .mtspr := by decide +kernel
  exact ⟨hgo, hop ▸ isMove_lOut (Decode2.reachable_afterMtspr _) rfl hgo (.inl hop)
    (by decide +kernel)⟩

/-! ### The two units -/

structure SprUnits where
  ls : LoadStore.State
  mmu : Mmu.State

/-- What comes in from the other units. The port of loadstore1 from the MMU is not looked at. -/
structure SprCycle where
  ls : LoadStore.Inputs := {}
  d : DcacheToMmu := {}

namespace SprUnits

/-- The inputs of loadstore1. What the MMU answers depends on the SPR that loadstore1 names. -/
def lsIn (u : SprUnits) (c : SprCycle) : LoadStore.Inputs :=
  { c.ls with m := Mmu.lOut u.mmu { l := mOut u.ls c.ls } }

def mmuIn (u : SprUnits) (c : SprCycle) : Mmu.Inputs where
  rst := c.ls.rst
  l := mOut u.ls (u.lsIn c)
  d := c.d

def step (hasFpu : Bool) (u : SprUnits) (c : SprCycle) : SprUnits where
  ls := LoadStore.step hasFpu u.ls (u.lsIn c)
  mmu := Mmu.step u.mmu (u.mmuIn c)

/-- The values of the SPRs, as they are read. -/
def read (u : SprUnits) : LsSpr → BitVec 64
  | .dar => u.ls.r3.dar
  | .dsisr => u.ls.r3.dsisr.setWidth 64
  | .dawr0 => u.ls.r3.dawr 0 ++ 0#3
  | .dawr1 => u.ls.r3.dawr 1 ++ 0#3
  | .dawrx0 => (u.ls.r3.dawrx 0).setWidth 64
  | .dawrx1 => (u.ls.r3.dawrx 1).setWidth 64
  | .pid => 0#52 ++ u.mmu.r.pid
  | .ptcr => u.mmu.r.ptcr

/-- Nothing but an instruction comes in: no reset, no stall and nothing from the data cache, which
has not been asked. -/
structure Calm (c : SprCycle) : Prop where
  rst : c.ls.rst = false
  e2stall : c.ls.l.e2stall = false
  dValid : c.ls.d.valid = false
  dError : c.ls.d.error = false
  dcStall : c.ls.dcStall = false

/-- Whatever is in stage 2 leaves it with this edge, and does not need the MMU. -/
structure Ready (u : SprUnits) : Prop where
  asks : mmuOpStart u.ls = false
  align : u.ls.r2.req.valid = true → u.ls.r2.req.alignIntr = false
  busy2 : u.ls.r2.busy = false
  state : u.ls.r3.state = .idle
  mmu : u.mmu.r.state = .idle
  done : u.mmu.r.done = false
  err : u.mmu.r.err = false

/-- Nothing is in the later stages, nor in the MMU. -/
structure Free (u : SprUnits) : Prop extends Ready u where
  valid2 : u.ls.r2.req.valid = false

structure Empty1 (u : SprUnits) : Prop where
  valid1 : u.ls.r1.req.valid = false
  busy1 : u.ls.r1.busy = false

/-- Nothing is in the two units. -/
structure Resting (u : SprUnits) : Prop extends Free u, Empty1 u

variable {u : SprUnits} {c : SprCycle} {r : LsSpr} {x : BitVec 64} {le hasFpu : Bool}

/-! ### What a clock edge does -/

theorem flush_eq (hc : Calm c) (herr : u.mmu.r.err = false) :
    flush u.ls (u.lsIn c) = (u.ls.r2.req.valid && u.ls.r2.req.alignIntr) := by
  simp [flush, hashchkTrap, dcacheIntr, lsIn, Mmu.lOut, hc.dValid,
    hc.dError, herr]

theorem Calm.error (hc : Calm c) (u : SprUnits) : (u.lsIn c).d.error = false := hc.dError

theorem advance_eq (hc : Calm c) : LoadStore.advance u.ls (u.lsIn c) = !u.ls.r2.busy := by
  simp [LoadStore.advance, lsIn, hc.dcStall, hc.dError]

theorem step_r1 (hc : Calm c) :
    (u.step hasFpu c).ls.r1 = r1in hasFpu u.ls (u.lsIn c) := by
  simp [step, LoadStore.step, lsIn, hc.rst]

theorem step_r2 (hc : Calm c) : (u.step hasFpu c).ls.r2 = r2in u.ls (u.lsIn c) := by
  simp [step, LoadStore.step, lsIn, hc.rst]

theorem step_r3 (hc : Calm c) :
    (u.step hasFpu c).ls.r3 = r3in hasFpu u.ls (u.lsIn c) := by
  simp [step, LoadStore.step, lsIn, hc.rst]

theorem step_walk (hc : Calm c) : (u.step hasFpu c).mmu.r = Mmu.rin u.mmu (u.mmuIn c) := by
  simp [step, Mmu.step, mmuIn, hc.rst]

/-- The move in stage 2 writes the register in this cycle. -/
def writes (u : SprUnits) (r : LsSpr) : Bool :=
  u.ls.r2.req.valid && u.ls.r2.req.writeSpr && u.ls.r2.req.sprsel == r.sel &&
    (!r.inMmu || (u.ls.r3.state == .idle && u.mmu.r.state == .idle))

/-- Requests of moves go to the MMU for its registers and for no others. -/
def SelFits (q : Request) : Prop :=
  q.valid = true → q.writeSpr = true → ∃ r : LsSpr, q.sprsel = r.sel ∧ q.mmuOp = r.inMmu

/-- A register of loadstore1 changes only if a move to it is in stage 2. -/
theorem read_step_own (hc : Calm c) (hflush : flush u.ls (u.lsIn c) = false)
    (hr : r.inMmu = false) :
    (u.step hasFpu c).read r =
      if u.writes r then r.restrict u.ls.r2.req.storeData else u.read r := by
  have hw : u.writes r = LoadStore.writesSpr u.ls r.sel := by
    simp [writes, LoadStore.writesSpr, hr]
  rw [hw]
  cases r with
  | pid | ptcr => cases hr
  | dar | dsisr | dawr0 | dawr1 | dawrx0 | dawrx1 =>
    simp only [read, step_r3 hc, r3in, hflush, Bool.false_and, Bool.false_eq_true,
      if_false]
    split_ifs with h h' h'
    · rfl
    · exact absurd h h'
    · exact absurd h' h
    · rfl

/-- The MMU is told by one bit which of its registers is moved to. -/
theorem movesSpr_eq (hsel : SelFits u.ls.r2.req) (hr : r.inMmu = true) :
    (movesSpr u.mmu (u.mmuIn c) && (u.ls.r2.req.sprsel.getLsbD 0 == r.sel.getLsbD 0)) =
      u.writes r := by
  have hm : Mmu.movesSpr u.mmu (u.mmuIn c) = (u.mmu.r.state == .idle && (u.ls.r3.state == .idle &&
      u.ls.r2.req.valid && u.ls.r2.req.mmuOp && u.ls.r2.req.writeSpr)) := rfl
  rw [hm, writes, hr]
  cases hv : u.ls.r2.req.valid with
  | false => simp
  | true =>
    cases hw : u.ls.r2.req.writeSpr with
    | false => simp
    | true =>
      obtain ⟨r', hs, hop⟩ := hsel hv hw
      rw [hs, hop]
      cases u.ls.r3.state <;> cases u.mmu.r.state <;> revert hr <;> cases r <;> cases r' <;> decide

/-- The same for a register of the MMU, which has to be asked. -/
theorem read_step_mmu (hc : Calm c) (hsel : SelFits u.ls.r2.req) (hr : r.inMmu = true) :
    (u.step hasFpu c).read r =
      if u.writes r then r.restrict u.ls.r2.req.storeData else u.read r := by
  rw [← movesSpr_eq (c := c) hsel hr]
  cases r with
  | dar | dsisr | dawr0 | dawr1 | dawrx0 | dawrx1 => cases hr
  | pid =>
    have h : (u.step hasFpu c).mmu.r.pid =
        if Mmu.movesSpr u.mmu (u.mmuIn c) && !u.ls.r2.req.sprsel.getLsbD 0 then
          u.ls.r2.req.storeData.extractLsb' 0 12 else u.mmu.r.pid := by
      rw [step_walk hc]; rfl
    rw [read, h]
    cases Mmu.movesSpr u.mmu (u.mmuIn c) <;> cases u.ls.r2.req.sprsel.getLsbD 0 <;> rfl
  | ptcr =>
    have h : (u.step hasFpu c).mmu.r.ptcr =
        if Mmu.movesSpr u.mmu (u.mmuIn c) && u.ls.r2.req.sprsel.getLsbD 0 then
          u.ls.r2.req.storeData else u.mmu.r.ptcr := by
      rw [step_walk hc]; rfl
    rw [read, h]
    cases Mmu.movesSpr u.mmu (u.mmuIn c) <;> cases u.ls.r2.req.sprsel.getLsbD 0 <;> rfl

/-- **A register changes only if a move to it is in stage 2.** -/
theorem read_step (hc : Calm c) (hflush : flush u.ls (u.lsIn c) = false)
    (hsel : SelFits u.ls.r2.req) (r : LsSpr) :
    (u.step hasFpu c).read r =
      if u.writes r then r.restrict u.ls.r2.req.storeData else u.read r := by
  cases hr : r.inMmu with
  | false => exact read_step_own hc hflush hr
  | true => exact read_step_mmu hc hsel hr

/-! ### Phases -/

section

variable (hc : Calm c) (herr : u.mmu.r.err = false)
  (h2 : u.ls.r2.req.valid = true → u.ls.r2.req.alignIntr = false)

include hc herr h2

theorem flush_false : flush u.ls (u.lsIn c) = false := by
  rw [flush_eq hc herr]
  cases h : u.ls.r2.req.valid with
  | true => simp [h2 h]
  | false => rfl

theorem interrupt2_false : interrupt2 u.ls (u.lsIn c) = false := by
  have hmerr : (u.lsIn c).m.err = false := herr
  rw [interrupt2, dcacheIntr, hmerr, hc.error]
  cases h : u.ls.r2.req.valid with
  | true => simp [h2 h]
  | false => rfl

end

namespace Ready

theorem takes (h : Ready u) (hc : Calm c)
    (h1 : u.ls.r1.req.valid = true → u.ls.r1.req.dcReq = false) :
    LoadStore.takes u.ls (u.lsIn c) = true := by
  have he2 : (u.lsIn c).l.e2stall = false := hc.e2stall
  rw [LoadStore.takes, advance_eq hc, h.busy2, he2]
  cases hv : u.ls.r1.req.valid with
  | true => simp [h1 hv]
  | false => rfl

theorem mmu_step (hasFpu : Bool) (h : Ready u) (hc : Calm c) :
    (u.step hasFpu c).mmu.r.state = .idle ∧ (u.step hasFpu c).mmu.r.done = false ∧
      (u.step hasFpu c).mmu.r.err = false := by
  have hmt : (u.mmuIn c).l.mtspr = false := by simp [mmuIn, mOut, h.asks]
  have hva : (u.mmuIn c).l.valid = false := by
    simp [mmuIn, mOut, dcacheMiss, h.asks, hc.error]
  have hw : Mmu.walkState u.mmu (u.mmuIn c) = .idle := by
    simp [Mmu.walkState, h.mmu, hmt, hva]
  rw [step_walk hc]
  simp [Mmu.rin, hw]

section

variable (h : Ready u) (hc : Calm c)

include h hc

/-- Stage 3 waits for the MMU only if it has been asked. -/
theorem state_step : (u.step hasFpu c).ls.r3.state = .idle := by
  rw [step_r3 hc]
  simp [r3in, dcacheMiss, hc.error, h.asks, h.state]

theorem flush : flush u.ls (u.lsIn c) = false :=
  flush_false hc h.err h.align

theorem interrupt2 : interrupt2 u.ls (u.lsIn c) = false :=
  interrupt2_false hc h.err h.align

theorem step_empty (hv : u.ls.r1.req.valid = false) : Free (u.step hasFpu c) := by
  have htakes := h.takes hc fun hv' => absurd hv' (by simp [hv])
  have hvalid : (u.step hasFpu c).ls.r2.req.valid = false := by
    rw [step_r2 hc]
    simp [r2in, nextReq2, htakes, takenReq, hv]
  have hbusy : (u.step hasFpu c).ls.r2.busy = false := by
    rw [step_r2 hc]
    simp [r2in, slowReq, mmuOpDone, htakes, hv, h.busy2,
      h.interrupt2 hc, hc.error]
  obtain ⟨hmmu, hdone, herr⟩ := h.mmu_step hasFpu hc
  exact
    { asks := by simp [mmuOpStart, hvalid]
      align := fun hv' => absurd hv' (by simp [hvalid])
      busy2 := hbusy
      state := h.state_step hc
      mmu := hmmu
      done := hdone
      err := herr
      valid2 := hvalid }

/-- A request that is not for the data cache leaves stage 1 after one cycle. -/
theorem stage1_empties (hl : c.ls.l.valid = false)
    (h1 : u.ls.r1.busy = true → u.ls.r1.req.dcReq = false ∧ u.ls.r1.req.loadSp = false ∧
      u.ls.r1.req.incomplete = false) : Empty1 (u.step hasFpu c) := by
  have hlv : (u.lsIn c).l.valid = false := hl
  have hreq : (stage1Req hasFpu u.ls (u.lsIn c)).valid = false ∧
      issue hasFpu u.ls (u.lsIn c) = false := by
    rw [issue, stage1Req]
    cases hb : u.ls.r1.busy with
    | true =>
      obtain ⟨hdc, hsp, hinc⟩ := h1 hb
      simp [hdc, hinc, hsp]
    | false => simp [hlv]
  obtain ⟨hreq, hissue⟩ := hreq
  have hhash : hashIssue hasFpu u.ls (u.lsIn c) = false := by
    rw [hashIssue, hissue, Bool.false_and]
  constructor <;> rw [step_r1 hc] <;>
    simp [r1in, h.flush hc, advance_eq hc, h.busy2, nextReq1, hhash, hissue,
      hreq]

end

/-- With nothing in stage 1 and no instruction the units come to rest. -/
theorem rest (h : Ready u) (h1 : Empty1 u) (hc : Calm c) (hl : c.ls.l.valid = false) :
    Resting (u.step hasFpu c) :=
  ⟨h.step_empty hc h1.valid1,
    h.stage1_empties hc hl fun hb => absurd hb (by simp [h1.busy1])⟩

end Ready

theorem Free.read_step (h : Free u) (hc : Calm c) : (u.step hasFpu c).read = u.read := by
  funext r
  have hsel : SelFits u.ls.r2.req := fun hv => absurd hv (by simp [h.valid2])
  have hw : u.writes r = false := by simp [writes, h.valid2]
  rw [SprUnits.read_step hc (h.flush hc) hsel, hw, if_neg Bool.false_ne_true]

structure InStage1 (u : SprUnits) (op : InsnType) (r : LsSpr) (x : BitVec 64) (le : Bool) : Prop
    extends Free u where
  req : LoadStore.Moving u.ls.r1.req op r x le
  addr0 : u.ls.r1.addr0 = 0

/-- The move is in stage 2, for the first cycle. -/
structure InStage2 (u : SprUnits) (op : InsnType) (r : LsSpr) (x : BitVec 64) (le : Bool) :
    Prop where
  req : LoadStore.Moving u.ls.r2.req op r (moved le x) le
  busy : u.ls.r2.busy = (op == .mtspr && r.inMmu)
  waitMmu : u.ls.r2.waitMmu = (op == .mtspr && r.inMmu)
  oneCycle : u.ls.r2.oneCycle = !(op == .mtspr && r.inMmu)
  wrSel : op = .mfspr → u.ls.r2.wrSel = 0
  state : u.ls.r3.state = .idle
  mmu : u.mmu.r.state = .idle
  done : u.mmu.r.done = false
  err : u.mmu.r.err = false

variable {op : InsnType}

theorem Resting.offered (h : Resting u) (hc : Calm c) (hop : IsSprOp op)
    (hl : IsMove c.ls.l op r x le) : InStage1 (u.step hasFpu c) op r x le := by
  have hm := hl.moving hop hasFpu u.ls.r1.addr0
  have hreq : stage1Req hasFpu u.ls (u.lsIn c) =
      { reqIn hasFpu u.ls (u.lsIn c) with valid := true, dcReq := false } := by
    have hlv : (u.lsIn c).l.valid = true := hl.valid
    have hdc : (reqIn hasFpu u.ls (u.lsIn c)).dcReq = false := hm.dcReq
    simp [stage1Req, h.busy1, hlv, hdc]
  have hhash : hashIssue hasFpu u.ls (u.lsIn c) = false := by
    simp [hashIssue, issue, h.busy1, hreq]
  have hr1 : (u.step hasFpu c).ls.r1.req =
      { reqIn hasFpu u.ls (u.lsIn c) with valid := true, dcReq := false } := by
    rw [step_r1 hc]
    simp [r1in, h.flush hc, advance_eq hc, h.busy2, nextReq1, hhash, hreq]
  refine ⟨h.step_empty hc h.valid1, ?_, ?_⟩
  · rw [hr1]
    exact { hm with valid := rfl, dcReq := rfl }
  · have hlv : (u.lsIn c).l.valid = true := hl.valid
    have haddr : (reqIn hasFpu u.ls (u.lsIn c)).addr = 0 := by
      change effectiveAddr c.ls.l u.ls.r1.addr0 = 0
      simp [effectiveAddr, trimAddr, hl.second, hl.addr1, hl.addr2]
    rw [step_r1 hc]
    simp [r1in, h.busy1, hreq, haddr, hlv]

theorem InStage1.taken (h : InStage1 u op r x le) (hc : Calm c) :
    InStage2 (u.step hasFpu c) op r x le := by
  have htakes := h.takes hc fun _ => h.req.dcReq
  have hdone : (u.lsIn c).m.done = false := h.done
  have hbubble : bubble u.ls (u.lsIn c) = false := by
    simp [bubble, h.req.dcReq]
  have hmmuOp : mmuOpDone u.ls (u.lsIn c) = false := by
    simp [mmuOpDone, hdone]
  have hslow : slowReq u.ls = false := by
    simp [slowReq, h.req.alignIntr, h.req.hashcmp]
  have hreq : (u.step hasFpu c).ls.r2.req = takenReq u.ls := by
    rw [step_r2 hc]
    simp [r2in, nextReq2, htakes, hbubble, hmmuOp, h.interrupt2 hc]
  obtain ⟨hmmu, hdone', herr⟩ := h.mmu_step hasFpu hc
  constructor
  case req =>
    rw [hreq]
    refine { h.req with dcReq := ?_, storeData := ?_ }
    · simp [takenReq, h.req.dcReq]
    · simp [takenReq, storeData, moved, h.addr0, h.req.brevMask,
        h.req.storeData]
  case state => exact h.state_step hc
  case mmu => exact hmmu
  case done => exact hdone'
  case err => exact herr
  case wrSel =>
    rintro rfl
    rw [step_r2 hc]
    simp [r2in, htakes, h.req.readSpr]
  all_goals
    rw [step_r2 hc]
    simp [r2in, htakes, hmmuOp, hslow, h.interrupt2 hc, hc.error, hdone, h.busy2,
      h.req.valid, h.req.dcReq, h.req.mmuOp]

/-- A `mfspr` has read the register on its way. -/
theorem InStage1.picked (h : InStage1 u .mfspr r x le) (hc : Calm c) :
    (u.step hasFpu c).ls.r2.addr0 = u.read r := by
  have htakes := h.takes hc fun _ => h.req.dcReq
  have hdbg : dbgSprRd u.ls (u.lsIn c) = false := by
    simp [dbgSprRd, h.req.valid, h.req.readSpr]
  have hval : sprval u.ls (u.lsIn c) = u.read r := by
    rw [sprval, hdbg, h.req.sprsel]
    -- the MMU is told by bit 0 which of the two registers to show
    have hsel : (mOut u.ls c.ls).sprnf = r.sel.getLsbD 0 := by
      simp [mOut, h.req.valid, h.req.readSpr, h.req.sprsel]
    have hm : (u.lsIn c).m.sprval =
        if r.sel.getLsbD 0 then u.mmu.r.ptcr else 0#52 ++ u.mmu.r.pid := by
      rw [← hsel]
      rfl
    rw [hm]
    cases r <;> rfl
  rw [step_r2 hc, ← hval]
  simp [r2in, htakes, h.req.readSpr]

/-! ### The end of a move -/

/-- What loadstore1 hands to writeback. -/
def out (u : SprUnits) (c : SprCycle) : Loadstore1ToWriteback := LoadStore.lOut u.ls (u.lsIn c)

/-- A `mfspr` completes with what it has read. -/
theorem InStage2.result (h : InStage2 u .mfspr r x le) (hc : Calm c) :
    (u.out c).valid = true ∧ (u.out c).writeEnable = true ∧
      (u.out c).writeData = u.ls.r2.addr0 := by
  have hdv : (u.lsIn c).d.valid = false := hc.dValid
  have hone : u.ls.r2.oneCycle = true := h.oneCycle
  have hread : u.ls.r2.req.readSpr = true := h.req.readSpr
  refine ⟨?_, ?_, ?_⟩
  · simp [out, LoadStore.lOut, complete, hone]
  · simp [out, LoadStore.lOut, writeEnable, hdv, h.req.valid, hread]
  · simp [out, LoadStore.lOut, writeData, h.wrSel rfl]

theorem InStage2.flush (h : InStage2 u op r x le) (hc : Calm c) :
    flush u.ls (u.lsIn c) = false :=
  flush_false hc h.err fun _ => h.req.alignIntr

theorem InStage2.selFits (h : InStage2 u .mtspr r x le) : SelFits u.ls.r2.req :=
  fun _ _ => ⟨r, h.req.sprsel, h.req.mmuOp⟩

/-- **The register is written, and no other one.** -/
theorem InStage2.read_step (h : InStage2 u .mtspr r x le) (hc : Calm c) (r' : LsSpr) :
    (u.step hasFpu c).read r' =
      if r' = r then r.restrict (moved le x) else u.read r' := by
  have hw : u.writes r' = decide (r' = r) := by
    have hw1 : u.ls.r2.req.writeSpr = true := h.req.writeSpr
    rw [writes, h.req.valid, hw1, h.req.sprsel, h.state, h.mmu]
    cases r <;> cases r' <;> rfl
  rw [SprUnits.read_step hc (h.flush hc) h.selFits, hw, h.req.storeData]
  by_cases hr : r' = r
  · subst hr
    simp
  · simp [hr]

structure InMmu (u : SprUnits) (r : LsSpr) (x : BitVec 64) (le : Bool) : Prop extends
    Empty1 u where
  req : Moving u.ls.r2.req .mtspr r x le
  inMmu : r.inMmu = true
  busy : u.ls.r2.busy = true
  waitMmu : u.ls.r2.waitMmu = true
  err : u.mmu.r.err = false

namespace InMmu

section

variable (h : InMmu u r x le) (hc : Calm c)

include h hc

theorem flush : flush u.ls (u.lsIn c) = false :=
  flush_false hc h.err fun _ => h.req.alignIntr

theorem interrupt2 : interrupt2 u.ls (u.lsIn c) = false :=
  interrupt2_false hc h.err fun _ => h.req.alignIntr

theorem takes : LoadStore.takes u.ls (u.lsIn c) = false := by
  rw [LoadStore.takes, advance_eq hc, h.busy]
  rfl

theorem bubble : LoadStore.bubble u.ls (u.lsIn c) = false := by
  rw [LoadStore.bubble, advance_eq hc, h.busy]
  rfl

theorem empty1 : Empty1 (u.step hasFpu c) := by
  constructor <;> rw [step_r1 hc] <;>
    simp [r1in, h.flush hc, advance_eq hc, h.busy, h.valid1, h.busy1, hc.error]

theorem held (hdone : u.mmu.r.done = false)
    (herr : (u.step hasFpu c).mmu.r.err = false) : InMmu (u.step hasFpu c) r x le := by
  have hd : (u.lsIn c).m.done = false := hdone
  have hop : mmuOpDone u.ls (u.lsIn c) = false := by
    rw [mmuOpDone, hd, Bool.and_false, Bool.false_and]
  have hreq : (u.step hasFpu c).ls.r2.req = u.ls.r2.req := by
    rw [step_r2 hc]
    simp [r2in, nextReq2, h.takes hc, h.bubble hc, hop, h.interrupt2 hc]
  refine ⟨h.empty1 hc, hreq ▸ h.req, h.inMmu, ?_, ?_, herr⟩
  · rw [step_r2 hc]
    simp [r2in, h.takes hc, hop, h.interrupt2 hc, hc.error, h.busy, h.waitMmu]
  · rw [step_r2 hc]
    simp [r2in, h.takes hc, h.bubble hc, h.interrupt2 hc, hc.error, hd, h.waitMmu]

/-- It has written the register, and does not write it again. -/
theorem read_step (hs : u.ls.r3.state = .mmuWait) : (u.step hasFpu c).read = u.read := by
  funext r'
  have hsel : SelFits u.ls.r2.req := fun _ _ => ⟨r, h.req.sprsel, h.req.mmuOp⟩
  have hw : u.writes r' = false := by
    rw [writes, h.req.valid, h.req.sprsel, hs]
    have hr := h.inMmu
    revert hr
    cases r <;> cases r' <;> simp [LsSpr.inMmu, LsSpr.sel]
  rw [SprUnits.read_step hc (h.flush hc) hsel, hw, if_neg Bool.false_ne_true]

end

end InMmu

/-- The MMU has the move. -/
structure Started (u : SprUnits) (r : LsSpr) (x : BitVec 64) (le : Bool) : Prop extends
    InMmu u r x le where
  state : u.ls.r3.state = .mmuWait
  mmu : u.mmu.r.state = .doTlbie
  isMtspr : u.mmu.r.isMtspr = true
  done : u.mmu.r.done = false

structure Answered (u : SprUnits) (r : LsSpr) (x : BitVec 64) (le : Bool) : Prop extends
    InMmu u r x le where
  state : u.ls.r3.state = .mmuWait
  mmu : u.mmu.r.state = .radixFinish
  done : u.mmu.r.done = true

/-- A move to a register of loadstore1 completes at once. -/
theorem InStage2.finish (hasFpu : Bool) (h : InStage2 u .mtspr r x le) (h1 : Empty1 u)
    (hr : r.inMmu = false) (hc : Calm c) (hl : c.ls.l.valid = false) :
    (u.out c).valid = true ∧ Resting (u.step hasFpu c) := by
  have hone : u.ls.r2.oneCycle = true := by rw [h.oneCycle, hr]; rfl
  have hmop : u.ls.r2.req.mmuOp = false := by rw [h.req.mmuOp, hr]; rfl
  have hready : Ready u :=
    { asks := by simp [mmuOpStart, hmop]
      align := fun _ => h.req.alignIntr
      busy2 := by rw [h.busy, hr]; rfl
      state := h.state
      mmu := h.mmu
      done := h.done
      err := h.err }
  exact ⟨by simp [out, LoadStore.lOut, complete, hone], hready.rest h1 hc hl⟩

/-- A move to a register of the MMU is sent there. -/
theorem InStage2.start (h : InStage2 u .mtspr r x le) (h1 : Empty1 u) (hr : r.inMmu = true)
    (hc : Calm c) : Started (u.step hasFpu c) r (moved le x) le := by
  have hin : InMmu u r (moved le x) le :=
    ⟨h1, h.req, hr, by rw [h.busy, hr]; rfl, by rw [h.waitMmu, hr]; rfl, h.err⟩
  have hop : u.ls.r2.req.mmuOp = true := by rw [h.req.mmuOp, hr]; rfl
  have hwr : u.ls.r2.req.writeSpr = true := h.req.writeSpr
  have hgo : mmuOpStart u.ls = true := by
    simp [mmuOpStart, h.state, h.req.valid, hop]
  have hmt : (u.mmuIn c).l.mtspr = true := by
    simp [mmuIn, mOut, hgo, hwr]
  have hw : walkState u.mmu (u.mmuIn c) = .doTlbie := by
    simp [walkState, h.mmu, hmt]
  refine ⟨hin.held hc h.done ?_, ?_, ?_, ?_, ?_⟩
  · rw [step_walk hc]
    simp [rin, hw]
  · have hd : (u.lsIn c).m.done = false := h.done
    have he : (u.lsIn c).m.err = false := h.err
    rw [step_r3 hc]
    simp [r3in, hd, he, hgo]
  · rw [step_walk hc]
    exact hw
  · rw [step_walk hc]
    simp [rin, h.mmu, hmt]
  · rw [step_walk hc]
    simp [rin, hw]

/-- The MMU finds that it has nothing else to do. -/
theorem Started.answer (h : Started u r x le) (hc : Calm c) :
    Answered (u.step hasFpu c) r x le := by
  have hw : walkState u.mmu (u.mmuIn c) = .radixFinish := by
    simp [walkState, h.mmu, h.isMtspr]
  have hok : anyError u.mmu (u.mmuIn c) = false := by
    simp [anyError, invalid, badtree, segerror, permErr, rcError,
      segmenting, reading, h.mmu]
  have hd : (u.lsIn c).m.done = false := h.done
  have he : (u.lsIn c).m.err = false := h.err
  refine ⟨h.toInMmu.held hc h.done ?_, ?_, ?_, ?_⟩
  · rw [step_walk hc]
    simp [rin, hok]
  · rw [step_r3 hc]
    simp [r3in, mmuOpStart, dcacheMiss, hd, he, hc.error, h.state]
  · rw [step_walk hc]
    exact hw
  · rw [step_walk hc]
    simp [rin, hw, hok]

theorem Answered.finish (hasFpu : Bool) (h : Answered u r x le) (hc : Calm c) :
    (u.step hasFpu c).ls.r3.complete = true ∧ Resting (u.step hasFpu c) := by
  have hw : walkState u.mmu (u.mmuIn c) = .idle := by
    simp [walkState, h.mmu]
  have hd : (u.lsIn c).m.done = true := h.done
  have hmop : u.ls.r2.req.mmuOp = true := by rw [h.req.mmuOp, h.inMmu]; rfl
  have hop : mmuOpDone u.ls (u.lsIn c) = true := by
    simp [mmuOpDone, h.waitMmu, hd, hmop]
  have hvalid : (u.step hasFpu c).ls.r2.req.valid = false := by
    rw [step_r2 hc]
    simp [r2in, hop]
  refine ⟨?_, ⟨⟨?_, fun hv => absurd hv (by simp [hvalid]), ?_, ?_, ?_, ?_, ?_⟩, hvalid⟩,
    h.toInMmu.empty1 hc⟩
  · rw [step_r3 hc]
    simp [r3in, hd, h.req.dcReq]
  · simp [mmuOpStart, hvalid]
  · rw [step_r2 hc]
    simp [r2in, hop, hc.error]
  · rw [step_r3 hc]
    simp [r3in, hd]
  · rw [step_walk hc]
    exact hw
  · rw [step_walk hc]
    simp [rin, hw]
  · rw [step_walk hc]
    simp [rin, hw]

/-! ### Whole runs -/

section Runs

variable {is : ℕ → SprCycle}

/-- The units after some clock edges. -/
def after (hasFpu : Bool) (u : SprUnits) (is : ℕ → SprCycle) : ℕ → SprUnits :=
  trace (step hasFpu) u is

theorem after_add (hasFpu : Bool) (u : SprUnits) (is : ℕ → SprCycle) (t n : ℕ) :
    after hasFpu (after hasFpu u is t) (fun v => is (v + t)) n = after hasFpu u is (n + t) :=
  Clocked.trace_add (step hasFpu) u is t n

/-- Without instructions the registers keep their values. -/
theorem Resting.lasts (h : Resting u) (hcalm : ∀ t, Calm (is t)) :
    ∀ n, (∀ t < n, (is t).ls.l.valid = false) →
      Resting (after hasFpu u is n) ∧ (after hasFpu u is n).read = u.read := by
  intro n
  induction n with
  | zero => exact fun _ => ⟨h, rfl⟩
  | succ n ih =>
    intro hquiet
    obtain ⟨hrest, hread⟩ := ih fun t ht => hquiet t (by omega)
    have hl := hquiet n (by omega)
    exact ⟨hrest.rest hrest.toEmpty1 (hcalm n) hl, (hrest.read_step (hcalm n)).trans hread⟩

/-- The cycle in which a `mtspr` offered in cycle 0 completes. -/
def moveTime (r : LsSpr) : ℕ := if r.inMmu then 5 else 2

/-- What a `mtspr` has done when it completes. -/
structure Moved (hasFpu : Bool) (u : SprUnits) (is : ℕ → SprCycle) (r : LsSpr) (x : BitVec 64)
    (le : Bool) : Prop where
  valid : ((after hasFpu u is (moveTime r)).out (is (moveTime r))).valid = true
  rest : Resting (after hasFpu u is (moveTime r + 1))
  read : ∀ r', (after hasFpu u is (moveTime r + 1)).read r' =
    if r' = r then r.restrict (moved le x) else u.read r'

theorem Resting.mtspr (h : Resting u) (hcalm : ∀ t, Calm (is t))
    (hmt : LoadStore.IsMove (is 0).ls.l .mtspr r x le)
    (hquiet : ∀ t, 0 < t → t ≤ moveTime r → (is t).ls.l.valid = false) :
    Moved hasFpu u is r x le := by
  have h1 : InStage1 (after hasFpu u is 1) .mtspr r x le := h.offered (hcalm 0) (.inl rfl) hmt
  have hq1 : (is 1).ls.l.valid = false :=
    hquiet 1 (by decide) (by unfold moveTime; split_ifs <;> decide)
  have h2 : InStage2 (after hasFpu u is 2) .mtspr r x le := h1.taken (hcalm 1)
  have he2 : Empty1 (after hasFpu u is 2) :=
    h1.stage1_empties (hcalm 1) hq1 fun _ => ⟨h1.req.dcReq, h1.req.loadSp, h1.req.incomplete⟩
  have hread2 : (after hasFpu u is 2).read = u.read :=
    (h1.read_step (hcalm 1)).trans (h.read_step (hcalm 0))
  have hread3 : ∀ r', (after hasFpu u is 3).read r' =
      if r' = r then r.restrict (moved le x) else u.read r' := by
    intro r'
    rw [← hread2]
    exact h2.read_step (hcalm 2) r'
  cases hr : r.inMmu with
  | false =>
    have hT : moveTime r = 2 := by rw [moveTime, hr]; rfl
    obtain ⟨hvalid, hrest⟩ := h2.finish hasFpu he2 hr (hcalm 2)
      (hquiet 2 (by decide) (by omega))
    constructor <;> rw [hT]
    · exact hvalid
    · exact hrest
    · exact hread3
  | true =>
    have hT : moveTime r = 5 := by rw [moveTime, hr]; rfl
    have h3 : Started (after hasFpu u is 3) r _ le := h2.start he2 hr (hcalm 2)
    have h4 : Answered (after hasFpu u is 4) r _ le := h3.answer (hcalm 3)
    obtain ⟨hcompl, h5⟩ := h4.finish hasFpu (hcalm 4)
    have hread5 : (after hasFpu u is 5).read = (after hasFpu u is 3).read :=
      (h4.toInMmu.read_step (hcalm 4) h4.state).trans (h3.toInMmu.read_step (hcalm 3) h3.state)
    have hread6 : (after hasFpu u is 6).read = (after hasFpu u is 3).read :=
      (h5.read_step (hcalm 5)).trans hread5
    constructor <;> rw [hT]
    · have hc5 : (after hasFpu u is 5).ls.r3.complete = true := hcompl
      simp [out, LoadStore.lOut, complete, hc5]
    · exact h5.rest h5.toEmpty1 (hcalm 5) (hquiet 5 (by decide) (by omega))
    · intro r'
      rw [hread6]
      exact hread3 r'

/-- A `mfspr` returns what the register holds when it is offered. -/
theorem Resting.mfspr (hasFpu : Bool) (h : Resting u) (hcalm : ∀ t, Calm (is t))
    (hmf : LoadStore.IsMove (is 0).ls.l .mfspr r x le) :
    ((after hasFpu u is 2).out (is 2)).valid = true ∧
      ((after hasFpu u is 2).out (is 2)).writeEnable = true ∧
      ((after hasFpu u is 2).out (is 2)).writeData = u.read r := by
  have h1 : InStage1 (after hasFpu u is 1) .mfspr r x le := h.offered (hcalm 0) (.inr rfl) hmf
  have h2 : InStage2 (after hasFpu u is 2) .mfspr r x le := h1.taken (hcalm 1)
  obtain ⟨hvalid, hwrite, hdata⟩ := h2.result (hcalm 2)
  refine ⟨hvalid, hwrite, hdata.trans ?_⟩
  calc (after hasFpu u is 2).ls.r2.addr0 = (after hasFpu u is 1).read r := h1.picked (hcalm 1)
    _ = u.read r := congrFun (h.read_step (hcalm 0)) r

/-- A `mtspr` of `x` to `r` is offered in cycle 0 and a `mfspr` of `r'` in cycle `k`, after the
first has completed. In between nothing is offered. -/
structure Trip (is : ℕ → SprCycle) (r r' : LsSpr) (x : BitVec 64) (le : Bool) (k : ℕ) : Prop where
  calm : ∀ t, Calm (is t)
  mtspr : IsMove (is 0).ls.l .mtspr r x le
  late : moveTime r < k
  quiet : ∀ t, 0 < t → t < k → (is t).ls.l.valid = false
  mfspr : ∃ y le', IsMove (is k).ls.l .mfspr r' y le'

/-- The `mfspr` returns what the byte reversal for stores has left of the value, or what another
register held before. -/
theorem Resting.trip {k : ℕ} {r' : LsSpr} (hasFpu : Bool) (h : Resting u)
    (ht : Trip is r r' x le k) :
    ((after hasFpu u is (moveTime r)).out (is (moveTime r))).valid = true ∧
      ((after hasFpu u is (k + 2)).out (is (k + 2))).valid = true ∧
      ((after hasFpu u is (k + 2)).out (is (k + 2))).writeEnable = true ∧
      ((after hasFpu u is (k + 2)).out (is (k + 2))).writeData =
        if r' = r then r.restrict (moved le x) else u.read r' := by
  have hcalm := ht.calm
  have hm : Moved hasFpu u is r x le :=
    h.mtspr hcalm ht.mtspr fun t h0 hle => ht.quiet t h0 (Nat.lt_of_le_of_lt hle ht.late)
  -- the units rest from the end of the first move to the beginning of the second
  obtain ⟨n, rfl⟩ := Nat.exists_eq_add_of_le' ht.late
  have hlasts : Resting (after hasFpu u is (n + (moveTime r + 1))) ∧
      (after hasFpu u is (n + (moveTime r + 1))).read =
        (after hasFpu u is (moveTime r + 1)).read := by
    rw [← after_add hasFpu u is (moveTime r + 1) n]
    exact hm.rest.lasts (fun t => hcalm _) n fun t hlt => ht.quiet _ (by omega) (by omega)
  obtain ⟨hrest, hread⟩ := hlasts
  obtain ⟨y, le', hmf⟩ := ht.mfspr
  have hmf0 : IsMove (is (0 + (n + (moveTime r + 1)))).ls.l .mfspr r' y le' := by
    rw [Nat.zero_add]
    exact hmf
  have hres := hrest.mfspr hasFpu (fun t => hcalm (t + (n + (moveTime r + 1)))) hmf0
  rw [after_add, hread, hm.read, Nat.add_comm 2] at hres
  exact ⟨hm.valid, hres⟩

/-! ### The round trip -/

/-- An instruction word with the number of the SPR. -/
def sprInsn (r : LsSpr) : BitVec 32 :=
  0#11 ++ r.num.extractLsb' 0 5 ++ r.num.extractLsb' 5 5 ++ 0#11

/-- A move of a SPR. -/
def moveInsn (op : InsnType) (r : LsSpr) (x : BitVec 64) (le : Bool) : Execute1ToLoadstore1 :=
  { valid := true, op := op, insn := sprInsn r, data := x, byteReverse := !le }

theorem isMove_moveInsn (op : InsnType) (r : LsSpr) (x : BitVec 64) (le : Bool) :
    IsMove (moveInsn op r x le) op r x le := by
  have hnum : sprn (sprInsn r) = r.num := by cases r <;> decide
  exact ⟨rfl, rfl, hnum, rfl, rfl, rfl, rfl, rfl, rfl, rfl, rfl, rfl, rfl⟩

/-- A `mtspr`, and in cycle `k` a `mfspr` of the same register in the same mode. -/
def trip (r : LsSpr) (x : BitVec 64) (le : Bool) (k t : ℕ) : SprCycle :=
  if t = 0 then { ls := { l := moveInsn .mtspr r x le } }
  else if t = k then { ls := { l := moveInsn .mfspr r 0 le } }
  else {}

theorem trip_trip {k : ℕ} (r : LsSpr) (x : BitVec 64) (le : Bool) (hk : moveTime r < k) :
    Trip (trip r x le k) r r x le k where
  calm t := by
    rw [trip]
    split_ifs <;> exact ⟨rfl, rfl, rfl, rfl, rfl⟩
  mtspr := isMove_moveInsn .mtspr r x le
  late := hk
  quiet t h0 hlt := by simp [trip, h0.ne', hlt.ne]
  mfspr := by
    have hne : k ≠ 0 := by omega
    refine ⟨0, le, ?_⟩
    rw [trip, if_neg hne, if_pos rfl]
    exact isMove_moveInsn .mfspr r 0 le

/-- Reversing the bytes of 1 is seen in every register. -/
theorem restrict_moved_ne (r : LsSpr) : r.restrict (moved false 1) ≠ r.restrict 1 := by
  cases r <;> decide +kernel

/-- **A move to a SPR of loadstore1 or the MMU sets its implemented bits, for every value, exactly
if it is made in little-endian mode.** In either mode both moves complete, and the `mfspr` returns
the value as the byte reversal for stores leaves it, or what another one of these SPRs held before.
-/
theorem spr_round_trip {k : ℕ} (h : Resting u) (hk : moveTime r < k) :
    (∀ is r' x, Trip is r r' x le k →
      ((after hasFpu u is (moveTime r)).out (is (moveTime r))).valid = true ∧
        ((after hasFpu u is (k + 2)).out (is (k + 2))).valid = true ∧
        ((after hasFpu u is (k + 2)).out (is (k + 2))).writeEnable = true ∧
        ((after hasFpu u is (k + 2)).out (is (k + 2))).writeData =
          if r' = r then r.restrict (moved le x) else u.read r') ∧
      ((∀ is x, Trip is r r x le k →
          ((after hasFpu u is (k + 2)).out (is (k + 2))).writeData = r.restrict x) ↔
        le = true) := by
  refine ⟨fun is r' x ht => h.trip hasFpu ht, fun hall => ?_, ?_⟩
  · cases le with
    | true => rfl
    | false =>
      have ht := trip_trip r 1 false hk
      have hdata := (h.trip hasFpu ht).2.2.2
      rw [hall _ _ ht, if_pos rfl] at hdata
      exact absurd hdata.symm (restrict_moved_ne r)
  · rintro rfl is x ht
    rw [(h.trip hasFpu ht).2.2.2, if_pos rfl, moved_le]

/-- A memory of the MMU with nothing in it. -/
def blankRam : Ram := ⟨fun _ => 0, 0, 0, fun _ => 0, 0⟩

/-- The units after reset. -/
def blank : SprUnits := ⟨{}, ⟨{}, {}, blankRam, {}, blankRam⟩⟩

theorem resting_blank : Resting blank where
  asks := rfl
  align := nofun
  busy2 := rfl
  state := rfl
  mmu := rfl
  done := rfl
  err := rfl
  valid2 := rfl
  valid1 := rfl
  busy1 := rfl

/-- PID has twelve bits. -/
theorem spr_round_trip_pid :
    ((after true blank (trip .pid 0x12345 true 6) 8).out (trip .pid 0x12345 true 6 8)).writeData =
      0x345 := by
  have hk : moveTime .pid < 6 := by decide
  exact ((spr_round_trip resting_blank hk).2.mpr rfl _ _ (trip_trip .pid 0x12345 true hk)).trans
    (by decide)

/-- **In big-endian mode the value comes back with its bytes reversed**: a `mtspr` of 1 to DAR,
followed by a `mfspr`. -/
theorem spr_round_trip_fails :
    Trip (trip .dar 1 false 3) .dar .dar 1 false 3 ∧
      ((after true blank (trip .dar 1 false 3) 5).out (trip .dar 1 false 3 5)).valid = true ∧
      ((after true blank (trip .dar 1 false 3) 5).out (trip .dar 1 false 3 5)).writeData =
        0x0100000000000000 := by
  refine ⟨trip_trip .dar 1 false (by decide), ?_, ?_⟩ <;> decide +kernel

end Runs

end SprUnits

end Microwatt
