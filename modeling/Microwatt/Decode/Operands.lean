import Microwatt.Lib.Latest
import Microwatt.Control.Hazards
import Microwatt.RegisterFile

/-!
# Operand delivery

Decode1, decode2 with its issue control, the register file and writeback, connected as in
`core.vhdl`. The question is whether an instruction that is sent to execute1 has the right values of
its registers: a value may come from the register file, read one cycle before, or from one of three
bypass paths, while the instruction waits in decode2 and its producers complete one by one.

Beside the units stand the instructions that have been issued, each with its final result: those in
flight and those that are done, the youngest in front. What a register should hold is then the
result of the youngest instruction that writes it, `Tracked.value`.

The units that compute are the environment. They complete instructions in order, and what they show
on a port is the final result of the instruction that the port names. On the bypass paths this is
asked only in cycles in which decode2 is not deferred; what is written to the register file is the
result by definition. The first stage of execute1 holds no older instruction than the second.

## Main results

* `Operands.selected_served` — the bypass network selects the result of the youngest writer
* `Operands.Inv.step`
* `Operands.operand_delivery`, `Operands.registers_committed`
-/

namespace Microwatt

open Clocked Decode2 List
open Writeback (completeOut intr wOut wbBypass)
open Decode1 (busyOut dOut decodeRomAddr double fInsn rNext rOut reg1 reg2 reg3 reg3Second rin)
open Control (bypassSel retire served tagA tagB tagC youngestWriter)
open Bool (and_eq_true_iff not_eq_false not_eq_true)

namespace Operands

open Decode2 (Generics)

/-! ### The units together -/

/-- An issued instruction, with its final result. -/
structure Op extends Control.Instr where
  result : BitVec 64
  deriving DecidableEq, Repr

def Op.writes (R : GsprIndex) (o : Op) : Bool := o.toInstr.writes R

/-- The units, the instructions in flight and done, the registers as they were at reset, and the
registers as the instructions older than the one in `dc2.e` leave them. -/
structure Tracked where
  d1 : Decode1.State := {}
  d2 : State
  rf : RegisterFile.State := {}
  inFlight : List Op := []
  done : List Op := []
  initial : GsprIndex → BitVec 64 := fun _ => 0
  older : GsprIndex → BitVec 64 := fun _ => 0

open Tracked

/-- What the rest of the core presents in a cycle, and the final result of the instruction that is
issued in it. -/
structure Cycle where
  f : IcacheToDecode1 := {}
  busyIn : Bool := false
  w : Writeback.Inputs := {}
  c : CrFileToDecode2 := {}
  executeBypass : BypassData := bypassDataInit
  executeCrBypass : CrBypassData := {}
  execute2Bypass : BypassData := bypassDataInit
  execute2CrBypass : CrBypassData := {}
  dbgSprReq : Bool := false
  dbgSprAddr : BitVec 8 := 0
  tbRdProt : Bool := false
  dbgGprReq : Bool := false
  dbgGprAddr : GsprIndex := 0
  result : BitVec 64 := 0

variable {g : Generics} {t : Tracked} {c : Cycle}

section

variable (t : Tracked) (c : Cycle)

def Tracked.ports2 : Inputs where
  completeIn := completeOut c.w
  busyIn := c.busyIn
  flushIn := Writeback.flushOut c.w
  d := dOut t.d1
  r := RegisterFile.dOut t.rf
  c := c.c
  executeBypass := c.executeBypass
  executeCrBypass := c.executeCrBypass
  execute2Bypass := c.execute2Bypass
  execute2CrBypass := c.execute2CrBypass
  writebackBypass := wbBypass c.w
  dbgSprReq := c.dbgSprReq
  dbgSprAddr := c.dbgSprAddr
  tbRdProt := c.tbRdProt

/-- The stage stalls, for decode1 and for the register file. -/
def Tracked.stall : Bool := stallOut t.d2 (t.ports2 c)

def Tracked.ports1 : Decode1.Inputs where
  stallIn := t.stall c
  flushIn := Writeback.flushOut c.w
  f := c.f

def Tracked.portsR : RegisterFile.Inputs where
  stall := t.stall c
  d1 := rOut t.d1 (t.ports1 c)
  w := wOut c.w
  dbgGprReq := c.dbgGprReq
  dbgGprAddr := c.dbgGprAddr

end

def Tracked.ctlPorts (g : Generics) (t : Tracked) (c : Cycle) : Control.Inputs :=
  Decode2.ctl g t.d2 (t.ports2 c)

/-- The issue control with its instructions. -/
def Tracked.ctl (t : Tracked) : Control.Tracked := ⟨t.d2.control, t.inFlight.map Op.toInstr⟩

def Tracked.issues (g : Generics) (t : Tracked) (c : Cycle) : Bool :=
  (instrTag g t.d2 (t.ports2 c)).valid

def Tracked.issued (g : Generics) (t : Tracked) (c : Cycle) : List Op :=
  (Control.issued g.ex1Bypass t.d2.control (t.ctlPorts g c)).map (⟨·, c.result⟩)

/-- The instructions that do not complete in this cycle. -/
def Tracked.remaining (t : Tracked) (c : Cycle) : List Op :=
  if (completeOut c.w).valid then t.inFlight.dropLast else t.inFlight

def Tracked.completed (t : Tracked) (c : Cycle) : List Op :=
  if (completeOut c.w).valid then t.inFlight.getLast?.toList else []

/-- What a register should hold after the instructions of a list. -/
def valueOf (q : List Op) (initial : GsprIndex → BitVec 64) (R : GsprIndex) : BitVec 64 :=
  Latest.value (Op.writes R) Op.result q (initial R)

/-- What a register should hold after all the instructions that have been issued and not flushed. -/
def Tracked.value (t : Tracked) (R : GsprIndex) : BitVec 64 :=
  valueOf (t.inFlight ++ t.done) t.initial R

def step (g : Generics) (t : Tracked) (c : Cycle) : Tracked where
  d1 := Decode1.step g.hasFpu t.d1 (t.ports1 c)
  d2 := Decode2.step g t.d2 (t.ports2 c)
  rf := RegisterFile.step g.hasFpu t.rf (t.portsR c)
  inFlight := if Writeback.flushOut c.w then [] else t.issued g c ++ t.remaining c
  done := t.completed c ++ t.done
  initial := t.initial
  older := if t.issues g c then t.value else t.older

/-! ### The environment -/

/-- A bypass path shows the result of an instruction. -/
def Shows (p : BypassData) (o : Op) : Prop :=
  o.tag = p.tag.tag ∧ o.wrGpr = true ∧ o.reg = p.reg ∧ o.result = p.data

instance (p : BypassData) (o : Op) : Decidable (Shows p o) :=
  inferInstanceAs (Decidable (_ ∧ _ ∧ _ ∧ _))

/-- What a unit presents to writeback is the result of the instruction that is due to complete. -/
@[mk_iff]
structure UnitOk (q : List Op) (valid : Bool) (tag : InstrTag) (writeEnable : Bool)
    (writeReg : GsprIndex) (writeData : BitVec 64) : Prop where
  tag : valid = true → tag.valid = true
  result : valid = true → ∀ o ∈ q.getLast?, writeEnable = o.wrGpr ∧
    (writeEnable = true → writeReg = o.reg ∧ writeData = o.result)
  idle : valid = false → writeEnable = false

/-- What the computing units promise. -/
@[mk_iff]
structure Env (g : Generics) (t : Tracked) (c : Cycle) : Prop where
  /-- Completions arrive in order, and at most `TAG_COUNT` instructions are outstanding. -/
  order : Control.Env g.ex1Bypass t.ctl (t.ctlPorts g c)
  bypass : deferred t.d2 (t.ports2 c) = false → c.executeBypass.tag.valid = true →
    ∃ o ∈ t.inFlight, Shows c.executeBypass o
  bypass2 : deferred t.d2 (t.ports2 c) = false → c.execute2Bypass.tag.valid = true →
    ∃ o ∈ t.inFlight, Shows c.execute2Bypass o
  /-- Nothing that is younger than the instruction in the first stage of execute1 is in the second.
  -/
  younger : deferred t.d2 (t.ports2 c) = false → c.executeBypass.tag.valid = true →
    c.execute2Bypass.tag.valid = true →
      ∀ o ∈ t.inFlight.takeWhile (·.tag != c.executeBypass.tag.tag),
        o.tag ≠ c.execute2Bypass.tag.tag
  execute : UnitOk t.inFlight c.w.e.valid c.w.e.instrTag c.w.e.writeEnable c.w.e.writeReg
    c.w.e.writeData
  loadstore : UnitOk t.inFlight c.w.l.valid c.w.l.instrTag c.w.l.writeEnable c.w.l.writeReg
    c.w.l.writeData
  fpu : UnitOk t.inFlight c.w.fp.valid c.w.fp.instrTag c.w.fp.writeEnable c.w.fp.writeReg
    c.w.fp.writeData
  /-- One unit completes an instruction at a time. -/
  one : (c.w.e.valid && c.w.l.valid) = false ∧ (c.w.e.valid && c.w.fp.valid) = false ∧
    (c.w.l.valid && c.w.fp.valid) = false
  /-- An instruction that is interrupted writes nothing. -/
  interrupt : intr c.w = true →
    c.w.e.writeEnable = false ∧ c.w.l.writeEnable = false ∧ c.w.fp.writeEnable = false
  /-- Without an FPU the predecoder marks floating-point instructions as illegal. -/
  noFpu : g.hasFpu = false → c.f.icode.pos < InsnCode.stfd.pos

structure Start (t : Tracked) : Prop where
  d1 : t.d1.r.valid = false
  dc2 : t.d2.dc2 = {}
  control : Control.IsReset t.d2.control
  inFlight : t.inFlight = []
  done : t.done = []
  initial : t.rf.registers = t.initial

/-! ### The three operands -/

def opValid (r : Decode2.Reg) : Fin 3 → Bool
  | 0 => r.regValid1
  | 1 => r.regValid2
  | 2 => r.regValid3

def opReg (r : Decode2.Reg) : Fin 3 → GsprIndex
  | 0 => r.readReg1
  | 1 => r.readReg2
  | 2 => r.readReg3

def opData (e : Decode2ToExecute1) : Fin 3 → BitVec 64
  | 0 => e.readData1
  | 1 => e.readData2
  | 2 => e.readData3

/-- What the register file shows. -/
def opRead (r : RegisterFileToDecode2) : Fin 3 → BitVec 64
  | 0 => r.read1Data
  | 1 => r.read2Data
  | 2 => r.read3Data

def Tracked.pending (g : Generics) (t : Tracked) (c : Cycle) : Decode2.Reg :=
  Decode2.pending g t.d2 (t.ports2 c)

/-- The value of an operand without the bypass paths. -/
def Tracked.source (t : Tracked) (c : Cycle) (k : Fin 3) : BitVec 64 :=
  if t.d2.dc2.busy then opData t.d2.dc2.e k else opRead (t.ports2 c).r k

/-- A bypass path is taken for register `R`. -/
def takes (used : Bool) (p : BypassData) (R : GsprIndex) : Bool := used && p.tag.valid && p.reg == R

variable {R : GsprIndex} {o : Op} {hasFpu : Bool}

/-- One operand of the instruction in decode2, as the bypass network selects it. -/
theorem operand_bypassSel {i : Control.Inputs} {d : Inputs} {b : Bool} {busy : Bool}
    {held read const : BitVec 64} (h1 : i.executeNextBypass = d.executeBypass)
    (h2 : i.execute2NextBypass = d.execute2Bypass) (h3 : i.writebackBypass = d.writebackBypass) :
    Decode2.operand (bypassSel b i true R) busy true held read const d =
      if takes b d.executeBypass R then d.executeBypass.data
      else if takes b d.execute2Bypass R then d.execute2Bypass.data
      else if takes true d.writebackBypass R then d.writebackBypass.data
      else if busy then held else read := by
  cases e1 : takes b d.executeBypass R with
  | true =>
    simp only [takes] at e1
    simp [Decode2.operand, bypassSel, bypassed, h1, e1]
  | false =>
    cases e2 : takes b d.execute2Bypass R with
    | true =>
      simp only [takes] at e1 e2
      simp [Decode2.operand, bypassSel, bypassed, h1, h2, e1, e2]
    | false =>
      cases e3 : takes true d.writebackBypass R with
      | true =>
        simp only [takes, Bool.true_and] at e1 e2 e3
        simp [Decode2.operand, bypassSel, bypassed, h1, h2, h3, e1, e2, e3]
      | false =>
        simp only [takes, Bool.true_and] at e1 e2 e3
        simp [Decode2.operand, bypassSel, h1, h2, h3, e1, e2, e3]

theorem opData_eNext (k : Fin 3) (hv : opValid (t.pending g c) k = true) :
    opData (eNext g t.d2 (t.ports2 c)) k =
      if takes g.ex1Bypass c.executeBypass (opReg (t.pending g c) k) then c.executeBypass.data
      else if takes g.ex1Bypass c.execute2Bypass (opReg (t.pending g c) k) then
        c.execute2Bypass.data
      else if takes true (wbBypass c.w) (opReg (t.pending g c) k) then
        (wbBypass c.w).data
      else t.source c k := by
  have hfresh : ∀ j, t.d2.dc2.busy = false → opValid (t.pending g c) j = true →
      opValid (fresh g t.d2 (t.ports2 c)) j = true := by
    intro j hb hj
    simpa [Tracked.pending, Decode2.pending, hb] using hj
  have key : ∀ {valid rv : Bool} (R : GsprIndex) (held read const : BitVec 64), valid = true →
      (t.d2.dc2.busy = false → rv = true) →
      Decode2.operand (bypassSel g.ex1Bypass (t.ctlPorts g c) valid R) t.d2.dc2.busy rv
          held read const (t.ports2 c) =
        if takes g.ex1Bypass c.executeBypass R then c.executeBypass.data
        else if takes g.ex1Bypass c.execute2Bypass R then c.execute2Bypass.data
        else if takes true (wbBypass c.w) R then (wbBypass c.w).data
        else if t.d2.dc2.busy then held else read := by
    rintro valid rv R held read const rfl hrv
    have hsame : Decode2.operand (bypassSel g.ex1Bypass (t.ctlPorts g c) true R)
          t.d2.dc2.busy rv held read const (t.ports2 c) =
        Decode2.operand (bypassSel g.ex1Bypass (t.ctlPorts g c) true R)
          t.d2.dc2.busy true held read const (t.ports2 c) := by
      cases hb : t.d2.dc2.busy with
      | true => simp [Decode2.operand]
      | false => rw [hrv hb]
    rw [hsame]
    exact operand_bypassSel rfl rfl rfl
  match k with
  | 0 => exact key _ _ _ _ hv fun hb => hfresh 0 hb hv
  | 1 => exact key _ _ _ _ hv fun hb => hfresh 1 hb hv
  | 2 => exact key _ _ _ _ hv fun hb => hfresh 2 hb hv

/-! ### What the ports show -/

theorem writes_iff : o.writes R = true ↔ o.wrGpr = true ∧ o.reg = R := by
  simp [Op.writes, Control.Instr.writes]

theorem writes_of_shows {p : BypassData} (h : Shows p o) : o.writes p.reg = true :=
  writes_iff.mpr ⟨h.2.1, h.2.2.1⟩

/-- Different instructions in flight have different tags. -/
theorem nodup_tags (h : Control.Inv t.ctl) : (t.inFlight.map fun o => o.tag).Nodup := by
  have hctl := h.order.nodup_tags h.bounded
  simpa [Tracked.ctl, Function.comp_def] using hctl

theorem eq_of_tag_eq (h : Control.Inv t.ctl) {o o' : Op} (ho : o ∈ t.inFlight)
    (ho' : o' ∈ t.inFlight) (htag : o.tag = o'.tag) : o = o' :=
  inj_on_of_nodup_map (nodup_tags h) ho ho' htag

/-- The instruction that completes is the oldest one, and writeback writes its result. -/
theorem wOut_of_complete (henv : Env g t c) (hv : (completeOut c.w).valid = true) :
    ∃ o, t.inFlight.getLast? = some o ∧ o.tag = (completeOut c.w).tag ∧
      (o.wrGpr = true → wOut c.w = ⟨o.reg, o.result, true⟩) ∧
      (o.wrGpr = false → (wOut c.w).writeEnable = false) := by
  obtain ⟨o, ho, htag⟩ : ∃ o, t.inFlight.getLast? = some o ∧
      o.tag = (completeOut c.w).tag := by
    have hlast := henv.order.inOrder hv
    rw [show t.ctl.inFlight = t.inFlight.map Op.toInstr from rfl, getLast?_map,
      Option.map_map] at hlast
    obtain ⟨o, ho, htag⟩ := Option.map_eq_some_iff.mp hlast
    exact ⟨o, ho, htag⟩
  refine ⟨o, ho, htag, ?_⟩
  obtain ⟨h1, h2, h3⟩ := henv.one
  cases hint : intr c.w with
  | true =>
    -- nothing is written, so the instruction has no result
    obtain ⟨he, hl, hf⟩ := henv.interrupt hint
    have hno : o.wrGpr = false := by
      simp only [completeOut] at hv
      split at hv
      · next hval => rw [← (henv.execute.result hval o ho).1, he]
      · split at hv
        · next hval => rw [← (henv.loadstore.result hval o ho).1, hl]
        · split at hv
          · next hval => rw [← (henv.fpu.result hval o ho).1, hf]
          · cases hv
    simp [hno, wOut, hint]
  | false =>
    cases he : c.w.e.valid with
    | true =>
      have hl : c.w.l.writeEnable = false := henv.loadstore.idle (by simpa [he] using h1)
      have hf : c.w.fp.writeEnable = false := henv.fpu.idle (by simpa [he] using h2)
      obtain ⟨hw, hres⟩ := henv.execute.result he o ho
      cases hwr : o.wrGpr with
      | true =>
        rw [hwr] at hw
        obtain ⟨hreg, hdata⟩ := hres hw
        simp [wOut, hint, hl, hf, hw, hreg, hdata]
      | false => simp [wOut, hint, hl, hf, hw, hwr]
    | false =>
      have hew : c.w.e.writeEnable = false := henv.execute.idle he
      cases hl : c.w.l.valid with
      | true =>
        have hf : c.w.fp.writeEnable = false := henv.fpu.idle (by simpa [hl] using h3)
        obtain ⟨hw, hres⟩ := henv.loadstore.result hl o ho
        cases hwr : o.wrGpr with
        | true =>
          rw [hwr] at hw
          obtain ⟨hreg, hdata⟩ := hres hw
          simp [wOut, hint, hw, hreg, hdata]
        | false => simp [wOut, hint, hew, hf, hw, hwr]
      | false =>
        have hlw : c.w.l.writeEnable = false := henv.loadstore.idle hl
        have hf : c.w.fp.valid = true := by
          by_contra hne
          simp [completeOut, he, hl, hne, instrTagInit] at hv
        obtain ⟨hw, hres⟩ := henv.fpu.result hf o ho
        cases hwr : o.wrGpr with
        | true =>
          rw [hwr] at hw
          obtain ⟨hreg, hdata⟩ := hres hw
          simp [wOut, hint, hlw, hw, hreg, hdata]
        | false => simp [wOut, hint, hew, hlw, hw, hwr]

theorem wOut_idle (henv : Env g t c) (hv : (completeOut c.w).valid = false) :
    (wOut c.w).writeEnable = false := by
  have he : c.w.e.valid = false := by
    by_contra hne
    rw [not_eq_false] at hne
    simp [completeOut, hne, henv.execute.tag hne] at hv
  have hl : c.w.l.valid = false := by
    by_contra hne
    rw [not_eq_false] at hne
    simp [completeOut, he, hne, henv.loadstore.tag hne] at hv
  have hf : c.w.fp.valid = false := by
    by_contra hne
    rw [not_eq_false] at hne
    simp [completeOut, he, hl, hne, henv.fpu.tag hne] at hv
  simp [wOut, henv.execute.idle he, henv.loadstore.idle hl, henv.fpu.idle hf]

/-- Writeback's own bypass shows the instruction that completes, if it writes a register. -/
theorem wbBypass_shows (henv : Env g t c) (hv : (wbBypass c.w).tag.valid = true) :
    ∃ o, t.inFlight.getLast? = some o ∧ Shows (wbBypass c.w) o := by
  obtain ⟨hc, hw⟩ := and_eq_true_iff.mp hv
  obtain ⟨o, ho, htag, hres, hno⟩ := wOut_of_complete henv hc
  cases hwr : o.wrGpr with
  | false => rw [hno hwr] at hw; cases hw
  | true =>
    refine ⟨o, ho, htag, hwr, ?_⟩
    simp [wbBypass, hres hwr]

/-! ### The value that is selected -/

/-- The bypass network, for register `R`. -/
def selected (g : Generics) (c : Cycle) (R : GsprIndex) (src : BitVec 64) : BitVec 64 :=
  if takes g.ex1Bypass c.executeBypass R then c.executeBypass.data
  else if takes g.ex1Bypass c.execute2Bypass R then c.execute2Bypass.data
  else if takes true (wbBypass c.w) R then (wbBypass c.w).data
  else src

theorem takes_iff {used : Bool} {p : BypassData} :
    takes used p R = true ↔ used = true ∧ p.tag.valid = true ∧ p.reg = R := by
  simp [takes, and_assoc]

/-- Nothing is selected for a register that no instruction in flight writes. -/
theorem selected_none (henv : Env g t c) (hdef : deferred t.d2 (t.ports2 c) = false)
    (hnone : ∀ o ∈ t.inFlight, o.writes R = false) (src : BitVec 64) :
    selected g c R src = src := by
  have h1 : takes g.ex1Bypass c.executeBypass R = false := by
    rw [← not_eq_true, takes_iff]
    rintro ⟨-, hv, rfl⟩
    obtain ⟨o, ho, hshow⟩ := henv.bypass hdef hv
    exact absurd (hnone o ho) (by simp [writes_of_shows hshow])
  have h2 : takes g.ex1Bypass c.execute2Bypass R = false := by
    rw [← not_eq_true, takes_iff]
    rintro ⟨-, hv, rfl⟩
    obtain ⟨o, ho, hshow⟩ := henv.bypass2 hdef hv
    exact absurd (hnone o ho) (by simp [writes_of_shows hshow])
  have h3 : takes true (wbBypass c.w) R = false := by
    rw [← not_eq_true, takes_iff]
    rintro ⟨-, hv, rfl⟩
    obtain ⟨o, ho, hshow⟩ := wbBypass_shows henv hv
    exact absurd (hnone o (mem_of_getLast? ho)) (by simp [writes_of_shows hshow])
  simp [selected, h1, h2, h3]

/-- The value of the youngest writer is selected in a cycle in which it is served. -/
theorem selected_served (h : Control.Inv t.ctl) (henv : Env g t c)
    (hdef : deferred t.d2 (t.ports2 c) = false) (hyoung : t.inFlight.find? (Op.writes R) = some o)
    (hserved : served g.ex1Bypass (t.ctlPorts g c) ⟨o.tag, true⟩ = true) (src : BitVec 64) :
    selected g c R src = o.result := by
  have hmem : o ∈ t.inFlight := mem_of_find?_eq_some hyoung
  obtain ⟨-, hreg⟩ := writes_iff.mp (find?_some hyoung)
  -- a path that names its tag shows its result
  have hshown : ∀ {p : BypassData}, (∃ x ∈ t.inFlight, Shows p x) → p.tag.tag = o.tag →
      p.reg = R ∧ p.data = o.result := by
    rintro p ⟨x, hx, hshow⟩ htag
    obtain rfl := eq_of_tag_eq h hx hmem (hshow.1.trans htag)
    exact ⟨hshow.2.2.1.symm.trans hreg, hshow.2.2.2.symm⟩
  have hcases : (g.ex1Bypass = true ∧ tagMatch c.executeBypass.tag ⟨o.tag, true⟩ = true) ∨
      (g.ex1Bypass = true ∧ tagMatch c.execute2Bypass.tag ⟨o.tag, true⟩ = true) ∨
      tagMatch (completeOut c.w) ⟨o.tag, true⟩ = true := by
    have : (g.ex1Bypass && tagMatch c.executeBypass.tag ⟨o.tag, true⟩ ||
        g.ex1Bypass && tagMatch c.execute2Bypass.tag ⟨o.tag, true⟩ ||
        tagMatch (completeOut c.w) ⟨o.tag, true⟩) = true := hserved
    simpa [or_assoc] using this
  rcases hcases with ⟨hb, hm⟩ | ⟨hb, hm⟩ | hm
  · obtain ⟨hv, -, htag⟩ := tagMatch_iff.mp hm
    obtain ⟨hr, hd⟩ := hshown (henv.bypass hdef hv) htag
    simp [selected, takes_iff.mpr ⟨hb, hv, hr⟩, hd]
  · obtain ⟨hv, -, htag⟩ := tagMatch_iff.mp hm
    obtain ⟨hr, hd⟩ := hshown (henv.bypass2 hdef hv) htag
    cases h1 : takes g.ex1Bypass c.executeBypass R with
    | false => simp [selected, h1, takes_iff.mpr ⟨hb, hv, hr⟩, hd]
    | true =>
      -- the first stage writes the register too; being no older, it holds the same instruction
      obtain ⟨-, hv1, hr1⟩ := takes_iff.mp h1
      obtain ⟨x, hx, hshow⟩ := henv.bypass hdef hv1
      have hxo : x = o := by
        set p := fun y : Op => y.tag != c.executeBypass.tag.tag with hp
        have hsplit := t.inFlight.takeWhile_append_dropWhile (p := p)
        rw [← hsplit, find?_append] at hyoung
        have hnone : (t.inFlight.takeWhile p).find? (Op.writes R) = none := by
          by_contra hne
          obtain ⟨y, hy⟩ := Option.ne_none_iff_exists'.mp hne
          rw [hy] at hyoung
          obtain rfl : y = o := by simpa using hyoung
          exact henv.younger hdef hv1 hv y (mem_of_find?_eq_some hy) htag.symm
        rw [hnone, Option.none_or] at hyoung
        cases hrest : t.inFlight.dropWhile p with
        | nil => rw [hrest] at hyoung; cases hyoung
        | cons y q =>
          have hy : y ∈ t.inFlight := by
            rw [← hsplit, hrest]; simp
          have hytag : y.tag = c.executeBypass.tag.tag := by
            have := head?_dropWhile_not p t.inFlight
            rw [hrest] at this
            simpa [hp] using this
          obtain rfl := eq_of_tag_eq h hy hx (hytag.trans hshow.1.symm)
          have hwy : y.writes R = true := hr1 ▸ writes_of_shows hshow
          rw [hrest, find?_cons_of_pos hwy] at hyoung
          exact Option.some.inj hyoung
      subst hxo
      simp [selected, h1, hshow.2.2.2.symm]
  · obtain ⟨hv, -, htag⟩ := tagMatch_iff.mp hm
    obtain ⟨z, hz, hztag, hres, -⟩ := wOut_of_complete henv hv
    obtain rfl := eq_of_tag_eq h (mem_of_getLast? hz) hmem (hztag.trans htag)
    obtain ⟨l, hl⟩ := getLast?_eq_some_iff.mp hz
    -- it is the only instruction in flight that writes the register
    have hlast : ∀ y ∈ l, y ≠ z := by
      have hnodup : (l ++ [z]).Nodup := by
        rw [← hl]
        exact (nodup_tags h).of_map _
      intro y hy
      exact (nodup_append.mp hnodup).2.2 y hy z (by simp)
    have honly : ∀ x ∈ t.inFlight, x.writes R = true → x = z := by
      intro x hx hw
      rw [hl] at hx hyoung
      exact Latest.eq_of_find_append_singleton hyoung hx hw hlast
    have hwr := (writes_iff.mp (find?_some hyoung)).1
    cases h1 : takes g.ex1Bypass c.executeBypass R with
    | true =>
      obtain ⟨-, hv1, hr1⟩ := takes_iff.mp h1
      obtain ⟨x, hx, hshow⟩ := henv.bypass hdef hv1
      obtain rfl := honly x hx (hr1 ▸ writes_of_shows hshow)
      simp [selected, h1, hshow.2.2.2.symm]
    | false =>
      cases h2 : takes g.ex1Bypass c.execute2Bypass R with
      | true =>
        obtain ⟨-, hv2, hr2⟩ := takes_iff.mp h2
        obtain ⟨x, hx, hshow⟩ := henv.bypass2 hdef hv2
        obtain rfl := honly x hx (hr2 ▸ writes_of_shows hshow)
        simp [selected, h1, h2, hshow.2.2.2.symm]
      | false =>
        have h3 : takes true (wbBypass c.w) R = true := by
          simp [takes, wbBypass, hres hwr, hv, hreg]
        have hdata : (wbBypass c.w).data = z.result := by
          simp [wbBypass, hres hwr]
        simp [selected, h1, h2, h3, hdata]

/-! ### The register file -/

open RegisterFile (Exists)

/-- While decode1 presents an instruction, the register file shows its registers. -/
structure ReadOk (g : Generics) (t : Tracked) : Prop where
  addr1 : t.rf.addr1Reg = t.d1.r.regA
  addr2 : t.rf.addr2Reg = t.d1.r.regB
  addr3 : t.rf.addr3Reg = t.d1.r.regC
  rd2 : regBValid (dOut t.d1) = true → t.rf.rd2 = true
  ports : RegisterFile.ReadInv g.hasFpu t.rf
  exists1 : Exists g.hasFpu t.d1.r.regA
  exists2 : Exists g.hasFpu t.d1.r.regB
  exists3 : Exists g.hasFpu t.d1.r.regC

theorem exists_gpr (n : BitVec 5) : Exists hasFpu (gprToGspr n) :=
  .inr (by revert n; decide)

theorem exists_or_one {reg : GsprIndex} (h : Exists hasFpu reg) : Exists hasFpu (reg ||| 1) := by
  rcases h with h | h
  · exact .inl h
  · exact .inr (by revert reg; decide)

theorem exists_new {i : Decode1.Inputs} (h : hasFpu = false → i.f.icode.pos < InsnCode.stfd.pos) :
    Exists hasFpu (reg1 i) ∧ Exists hasFpu (reg2 i) ∧
      Exists hasFpu (reg3 i) := by
  cases hasFpu with
  | true => exact ⟨.inl rfl, .inl rfl, .inl rfl⟩
  | false =>
    have hlt := h rfl
    have hfabs : ¬InsnCode.fabs.pos ≤ i.f.icode.pos := fun hle =>
      absurd (hle.trans_lt hlt) (by decide)
    have hfmul : ¬InsnCode.fmul.pos ≤ i.f.icode.pos := fun hle =>
      absurd (hle.trans_lt hlt) (by decide)
    have hstfd : ¬InsnCode.stfd.pos ≤ i.f.icode.pos := hlt.not_ge
    have h1 : reg1 i = gprToGspr (insnRa (fInsn i)) := by
      simp [reg1, hfabs, gprToGspr]
    have h2 : reg2 i = gprToGspr (insnRb (fInsn i)) := by
      simp [reg2, hfabs, gprToGspr]
    refine ⟨h1 ▸ exists_gpr _, h2 ▸ exists_gpr _, ?_⟩
    simp only [reg3, if_neg hfmul, if_neg hstfd]
    split <;> split
    · exact exists_or_one (exists_gpr _)
    · exact exists_or_one (exists_gpr _)
    · exact exists_gpr _
    · exact exists_gpr _

theorem exists_second {s : Decode1.State} {i : Decode1.Inputs} (h : Exists hasFpu s.r.regC) :
    Exists hasFpu (reg3Second s i) := by
  rcases h with h | h
  · exact .inl h
  · refine .inr ?_
    have hpair : ∀ (reg : GsprIndex) (odd : Bool), reg.getLsbD 5 = false →
        (reg.extractLsb' 1 5 ++ BitVec.ofBool odd).getLsbD 5 = false := by decide
    simp only [reg3Second]
    split
    · exact hpair _ _ h
    · exact h

theorem readOk_step (h : t.d1.r.valid = true → ReadOk g t) (henv : Env g t c)
    (hflush : Writeback.flushOut c.w = false) (hvalid : (step g t c).d1.r.valid = true) :
    ReadOk g (step g t c) := by
  have hports : RegisterFile.ReadInv g.hasFpu (step g t c).rf := RegisterFile.readInv_step
  have hr : (step g t c).d1.r = rNext t.d1 (t.ports1 c) := rfl
  have hf : (t.ports1 c).flushIn = false := hflush
  have hrst : (t.ports1 c).rst = false := rfl
  cases hstall : t.stall c with
  | true =>
    -- the instruction is kept and its registers are read again
    have hs : (t.ports1 c).stallIn = true := hstall
    have hbusy : busyOut t.d1 (t.ports1 c) = true := by simp [busyOut, hs]
    have hr' : (step g t c).d1.r = t.d1.r := by simp [hr, rNext, hrst, hf, hs]
    have hdec : (step g t c).d1.decode = t.d1.decode := by
      simp [step, Decode1.step, hbusy]
    have hold := h (hr' ▸ hvalid)
    have hsR : (t.portsR c).stall = true := hstall
    have hd : dOut (step g t c).d1 = dOut t.d1 := by
      simp [dOut, hr', hdec]
    refine ⟨?_, ?_, ?_, ?_, hports, hr' ▸ hold.exists1, hr' ▸ hold.exists2, hr' ▸ hold.exists3⟩
    · rw [hr']; simpa [step, RegisterFile.step, RegisterFile.aAddr, hsR] using hold.addr1
    · rw [hr']; simpa [step, RegisterFile.step, RegisterFile.bAddr, hsR] using hold.addr2
    · rw [hr']; simpa [step, RegisterFile.step, RegisterFile.cAddr, hsR] using hold.addr3
    · rw [hd]
      intro hB
      simpa [step, RegisterFile.step, RegisterFile.bEnable, hsR] using hold.rd2 hB
  | false =>
    have hs : (t.ports1 c).stallIn = false := hstall
    have ha : (step g t c).rf.addr1Reg = (rOut t.d1 (t.ports1 c)).reg1Addr := by
      simp [step, RegisterFile.step, RegisterFile.aAddr, hstall, portsR]
    have hb : (step g t c).rf.addr2Reg = (rOut t.d1 (t.ports1 c)).reg2Addr := by
      simp [step, RegisterFile.step, RegisterFile.bAddr, hstall, portsR]
    have hc : (step g t c).rf.addr3Reg = (rOut t.d1 (t.ports1 c)).reg3Addr := by
      simp [step, RegisterFile.step, RegisterFile.cAddr, hstall, portsR]
    cases hdbl : double t.d1 with
    | true =>
      -- the same instruction a second time
      have hr' : (step g t c).d1.r =
          { t.d1.r with second := true, regC := (rin t.d1 (t.ports1 c)).regC } := by
        simp [hr, rNext, hrst, hf, hs, hdbl]
      have hold := h (by rw [hr'] at hvalid; exact hvalid)
      refine ⟨?_, ?_, ?_, ?_, hports, ?_, ?_, ?_⟩
      · rw [ha, hr']; simp [rOut, hdbl]
      · rw [hb, hr']; simp [rOut, hdbl]
      · rw [hc, hr']; simp [rin]
      · intro hB
        simp [regBValid, dOut, hr'] at hB
      · rw [hr']; exact hold.exists1
      · rw [hr']; exact hold.exists2
      · rw [hr']
        simp only [rin, rOut, hdbl, if_true]
        exact exists_second hold.exists3
    | false =>
      have hr' : (step g t c).d1.r = rin t.d1 (t.ports1 c) := by
        simp [hr, rNext, hrst, hf, hs, hdbl]
      have hbusy : busyOut t.d1 (t.ports1 c) = false := by
        simp [busyOut, hs, hdbl]
      have hnew := exists_new (i := t.ports1 c) henv.noFpu
      refine ⟨?_, ?_, ?_, ?_, hports, ?_, ?_, ?_⟩
      · rw [ha, hr']; rfl
      · rw [hb, hr']; rfl
      · rw [hc, hr']; rfl
      · intro hB
        have hdec : (step g t c).d1.decode =
            decodeRom g.hasFpu (decodeRomAddr t.d1 (t.ports1 c)) := by
          simp [step, Decode1.step, hbusy]
        have hill : (rin t.d1 (t.ports1 c)).illegalSuffix = false := by
          rw [← hr']
          simp only [regBValid, hasOperands, Bool.and_eq_true,
            Bool.not_eq_true'] at hB
          exact hB.2.2
        have hrow : (decodeRom g.hasFpu (decodeRomAddr t.d1 (t.ports1 c))).inputRegB ≠
            .imm := by
          rw [← hdec]
          simp only [regBValid, decodeInputRegB, dOut,
            Bool.and_eq_true, bne_iff_ne] at hB
          exact hB.1.1
        obtain ⟨hfv, hcode⟩ := Decode1.read2_of_inputRegB hrow (hr' ▸ hvalid) hill
        simp [step, RegisterFile.step, RegisterFile.bEnable, hstall, portsR, rOut,
          hdbl, hfv, hcode]
      · rw [hr']; simpa [rin, rOut, hdbl] using hnew.1
      · rw [hr']; simpa [rin, rOut, hdbl] using hnew.2.1
      · rw [hr']; simpa [rin, rOut, hdbl] using hnew.2.2

/-! ### The invariant -/

structure Inv (g : Generics) (t : Tracked) : Prop where
  base : Control.Inv t.ctl
  /-- The register file holds what the instructions that are done have left. -/
  regs : ∀ R, Exists g.hasFpu R → t.rf.registers R = valueOf t.done t.initial R
  /-- Results go to registers that exist. -/
  targets : ∀ o ∈ t.inFlight, o.wrGpr = true → Exists g.hasFpu o.reg
  target : t.d2.dc2.busy = true → t.d2.dc2.e.writeRegEnable = true →
    Exists g.hasFpu t.d2.dc2.e.writeReg
  read : t.d1.r.valid = true → ReadOk g t
  /-- An instruction has been issued or waits, not both. -/
  excl : t.d2.dc2.e.valid = true → t.d2.dc2.busy = false
  /-- An operand of an instruction that waits is there, unless it is still on its way. -/
  held : t.d2.dc2.busy = true → ∀ k, opValid t.d2.dc2 k = true →
    (∀ o ∈ t.inFlight, o.writes (opReg t.d2.dc2 k) = false) →
      opData t.d2.dc2.e k = valueOf t.done t.initial (opReg t.d2.dc2 k)
  /-- An instruction that was issued has its operands. -/
  issued : t.d2.dc2.e.valid = true → ∀ k, opValid t.d2.dc2 k = true →
    opData t.d2.dc2.e k = t.older (opReg t.d2.dc2 k)

theorem Inv.init (h : Start t) : Inv g t where
  base := Control.Inv.init ⟨h.control, by simp [Tracked.ctl, h.inFlight]⟩
  regs R _ := by rw [h.initial, h.done]; rfl
  targets o ho := by rw [h.inFlight] at ho; cases ho
  target hb := by rw [h.dc2] at hb; cases hb
  read hv := by rw [h.d1] at hv; cases hv
  excl hv := by rw [h.dc2] at hv; cases hv
  held hb := by rw [h.dc2] at hb; cases hb
  issued hv := by rw [h.dc2] at hv; cases hv

/-! ### The value of an operand -/

/-- A new instruction with a register operand is one that decode1 presents. -/
theorem valid_of_opValid (k : Fin 3)
    (hv : opValid (fresh g t.d2 (t.ports2 c)) k = true) : t.d1.r.valid = true := by
  have hops : hasOperands (dOut t.d1) = true := by
    match k with
    | 0 => exact (and_eq_true_iff.mp hv).2
    | 1 => exact (and_eq_true_iff.mp hv).2
    | 2 => exact (and_eq_true_iff.mp hv).2
  exact (and_eq_true_iff.mp hops).1

theorem opRead_fresh (h : ReadOk g t) (k : Fin 3)
    (hv : opValid (fresh g t.d2 (t.ports2 c)) k = true) :
    opRead (t.ports2 c).r k =
        t.rf.registers (opReg (fresh g t.d2 (t.ports2 c)) k) ∧
      Exists g.hasFpu (opReg (fresh g t.d2 (t.ports2 c)) k) := by
  match k with
  | 0 =>
    refine ⟨?_, h.exists1⟩
    have := h.ports.port1 (by rw [h.addr1]; exact h.exists1)
    rw [h.addr1] at this
    exact this
  | 1 =>
    refine ⟨?_, h.exists2⟩
    have := h.ports.port2 (by rw [h.addr2]; exact h.exists2) (h.rd2 hv)
    rw [h.addr2] at this
    exact this
  | 2 =>
    refine ⟨?_, h.exists3⟩
    have := h.ports.port3 (by rw [h.addr3]; exact h.exists3)
    rw [h.addr3] at this
    exact this

/-- Without the bypass paths an operand has the value that the instructions that are done have left,
if no other writes it. -/
theorem source_value (h : Inv g t) (k : Fin 3) (hv : opValid (t.pending g c) k = true)
    (hnone : ∀ o ∈ t.inFlight, o.writes (opReg (t.pending g c) k) = false) :
    t.source c k = valueOf t.done t.initial (opReg (t.pending g c) k) := by
  cases hb : t.d2.dc2.busy with
  | true =>
    have hpend : t.pending g c = t.d2.dc2 := by simp [Tracked.pending, Decode2.pending, hb]
    rw [hpend] at hv hnone ⊢
    simpa [source, hb] using h.held hb k hv hnone
  | false =>
    have hpend : t.pending g c = fresh g t.d2 (t.ports2 c) := by
      simp [Tracked.pending, Decode2.pending, hb]
    rw [hpend] at hv ⊢
    obtain ⟨hread, hex⟩ := opRead_fresh (h.read (valid_of_opValid k hv)) k hv
    rw [← h.regs _ hex, ← hread]
    simp [source, hb]

/-- Nothing holds back an operand of an instruction that is let out. -/
theorem hazardTag_clear (hout : Decode2.validOut g t.d2 (t.ports2 c) = true) (k : Fin 3)
    (hv : opValid (t.pending g c) k = true) :
    (Control.hazardTag g.ex1Bypass t.d2.control (t.ctlPorts g c) true
      (opReg (t.pending g c) k)).valid = false := by
  obtain ⟨ha, hb, hc⟩ := Control.hazardTags_of_validOut hout
  match k with
  | 0 =>
    have hv' : (Decode2.ctl g t.d2 (t.ports2 c)).gprAReadValidIn = true := hv
    rw [tagA, hv'] at ha
    exact ha
  | 1 =>
    have hv' : (Decode2.ctl g t.d2 (t.ports2 c)).gprBReadValidIn = true := hv
    rw [tagB, hv'] at hb
    exact hb
  | 2 =>
    have hv' : (Decode2.ctl g t.d2 (t.ports2 c)).gprCReadValidIn = true := hv
    rw [tagC, hv'] at hc
    exact hc

variable (h : Inv g t) (henv : Env g t c)

include h henv in
theorem opData_validOut (hdef : deferred t.d2 (t.ports2 c) = false)
    (hout : Decode2.validOut g t.d2 (t.ports2 c) = true) (k : Fin 3)
    (hv : opValid (t.pending g c) k = true) :
    opData (eNext g t.d2 (t.ports2 c)) k = t.value (opReg (t.pending g c) k) := by
  have hclear := hazardTag_clear hout k hv
  set R := opReg (t.pending g c) k with hR
  have hyoung : youngestWriter t.ctl.inFlight R =
      (t.inFlight.find? (Op.writes R)).map fun o => o.tag := by
    simp [youngestWriter, Tracked.ctl, find?_map, Function.comp_def]
    rfl
  rw [opData_eNext k hv, ← hR]
  change selected g c R (t.source c k) = _
  rw [Tracked.value, valueOf, Latest.value_append]
  cases hfind : t.inFlight.find? (Op.writes R) with
  | none =>
    have hnone : ∀ o ∈ t.inFlight, o.writes R = false := by
      intro o ho
      simpa using find?_eq_none.mp hfind o ho
    rw [Latest.value_of_forall hnone, selected_none henv hdef hnone]
    exact source_value h k hv hnone
  | some o =>
    rw [Latest.value_of_find hfind]
    refine selected_served h.base henv hdef hfind ?_ _
    rcases Control.served_of_hazardTag h.base hclear with hnone | ⟨u, hu, hserved⟩
    · rw [hyoung, hfind] at hnone; cases hnone
    · rw [hyoung, hfind] at hu
      obtain rfl : o.tag = u := by simpa using hu
      exact hserved

theorem inFlight_split (henv : Env g t c) : t.inFlight = t.remaining c ++ t.completed c := by
  cases hv : (completeOut c.w).valid with
  | false => simp [Tracked.remaining, completed, hv]
  | true =>
    obtain ⟨o, ho, -⟩ := wOut_of_complete henv hv
    obtain ⟨l, hl⟩ := getLast?_eq_some_iff.mp ho
    simp [Tracked.remaining, completed, hv, hl]

include h henv in
/-- An operand of an instruction that waits is picked up when its last producer completes. -/
theorem opData_waits (hdef : deferred t.d2 (t.ports2 c) = false) (k : Fin 3)
    (hv : opValid (t.pending g c) k = true)
    (hnone : ∀ o ∈ t.remaining c, o.writes (opReg (t.pending g c) k) = false) :
    opData (eNext g t.d2 (t.ports2 c)) k =
      valueOf (t.completed c ++ t.done) t.initial (opReg (t.pending g c) k) := by
  set R := opReg (t.pending g c) k with hR
  have hsplit := inFlight_split henv
  rw [opData_eNext k hv, ← hR]
  change selected g c R (t.source c k) = _
  rw [valueOf, Latest.value_append]
  cases hfind : (t.completed c).find? (Op.writes R) with
  | none =>
    have hdone : ∀ o ∈ t.completed c, o.writes R = false := by
      intro o ho
      simpa using find?_eq_none.mp hfind o ho
    have hall : ∀ o ∈ t.inFlight, o.writes R = false := by
      intro o ho
      rw [hsplit] at ho
      exact (mem_append.mp ho).elim (hnone o) (hdone o)
    rw [Latest.value_of_forall hdone, selected_none henv hdef hall]
    exact source_value h k hv hall
  | some o =>
    rw [Latest.value_of_find hfind]
    have hyoung : t.inFlight.find? (Op.writes R) = some o := by
      have hrem : (t.remaining c).find? (Op.writes R) = none := by
        rw [find?_eq_none]
        intro x hx
        simp [hnone x hx]
      rw [hsplit, find?_append, hrem, hfind]
      rfl
    refine selected_served h.base henv hdef hyoung ?_ _
    have ho : o ∈ t.completed c := mem_of_find?_eq_some hfind
    cases hc : (completeOut c.w).valid with
    | false => simp [completed, hc] at ho
    | true =>
      obtain ⟨z, hz, htag, -⟩ := wOut_of_complete henv hc
      obtain rfl : z = o := by simpa [completed, hc, hz, eq_comm] using ho
      have hmatch : tagMatch (t.ctlPorts g c).completeIn ⟨z.tag, true⟩ = true :=
        tagMatch_iff.mpr ⟨hc, rfl, htag.symm⟩
      simp [served, hmatch]

/-! ### One clock edge -/

/-- The target of the instruction in decode2 exists. -/
theorem pending_target (h : Inv g t) (hw : (t.pending g c).e.writeRegEnable = true) :
    Exists g.hasFpu (t.pending g c).e.writeReg := by
  cases hb : t.d2.dc2.busy with
  | true =>
    have hpend : t.pending g c = t.d2.dc2 := by simp [Tracked.pending, Decode2.pending, hb]
    rw [hpend] at hw ⊢
    exact h.target hb hw
  | false =>
    have hpend : t.pending g c = fresh g t.d2 (t.ports2 c) := by
      simp [Tracked.pending, Decode2.pending, hb]
    rw [hpend] at hw ⊢
    have hw' : regOValid (dOut t.d1) g.hasFpu = true := hw
    change Exists g.hasFpu (regO (dOut t.d1) g.hasFpu)
    obtain ⟨hout, hops⟩ := and_eq_true_iff.mp hw'
    have hread := h.read (and_eq_true_iff.mp hops).1
    have hreg : Exists g.hasFpu (decodeOutputReg g.hasFpu
        (dOut t.d1).decode.outputRegA (dOut t.d1).insn).2 := by
      revert hout
      cases hfpu : g.hasFpu with
      | true => exact fun _ => .inl rfl
      | false =>
        cases (dOut t.d1).decode.outputRegA with
        | none => intro h; cases h
        | rt => exact fun _ => exists_gpr _
        | ra => exact fun _ => exists_gpr _
        | frt => intro h; cases h
    simp only [regO]
    split
    · split
      · exact hread.exists1
      · exact hreg
    · split
      · exact exists_or_one hreg
      · exact hreg
    · exact hreg

theorem ctl_step : (step g t c).ctl = t.ctl.step g.ex1Bypass (t.ctlPorts g c) := by
  have hrst : (t.ctlPorts g c).rst = false := rfl
  have hflush : (t.ctlPorts g c).flushIn = Writeback.flushOut c.w := rfl
  have hcomp : (t.ctlPorts g c).completeIn = completeOut c.w := rfl
  have hlist : (step g t c).inFlight.map Op.toInstr =
      (t.ctl.step g.ex1Bypass (t.ctlPorts g c)).inFlight := by
    simp only [step, Control.Tracked.step, hrst, hflush, Bool.false_or]
    cases hf : Writeback.flushOut c.w with
    | true => rfl
    | false =>
      simp only [Bool.false_eq_true, if_false, map_append, Tracked.issued, map_map,
        Tracked.remaining, retire, hcomp, Tracked.ctl]
      congr 1
      · exact map_id _
      · split
        · rw [map_dropLast]
        · rfl
  rw [Tracked.ctl, hlist]
  rfl

theorem issues_iff :
    t.issues g c = true ↔ Decode2.validOut g t.d2 (t.ports2 c) = true ∧
      deferred t.d2 (t.ports2 c) = false := by
  have hdef : (Decode2.ctl g t.d2 (t.ports2 c)).deferred =
      deferred t.d2 (t.ports2 c) := rfl
  simp [issues, instrTag, Control.instrTag, Decode2.validOut, hdef]

section

include h henv

/-- The register file takes in the results of the instructions that complete. -/
theorem regs_step (R : GsprIndex) (hR : Exists g.hasFpu R) :
    (step g t c).rf.registers R = valueOf (t.completed c ++ t.done) t.initial R := by
  have hold : t.rf.registers R = Latest.value (Op.writes R) Op.result t.done (t.initial R) :=
    h.regs R hR
  have hnext : (step g t c).rf.registers R =
      if (wOut c.w).writeEnable && R == RegisterFile.wAddr g.hasFpu (t.portsR c) then
        (wOut c.w).writeData
      else t.rf.registers R := rfl
  rw [hnext, valueOf, Latest.value_append]
  cases hv : (completeOut c.w).valid with
  | false => simpa [wOut_idle henv hv, completed, hv] using hold
  | true =>
    obtain ⟨o, ho, -, hres, hno⟩ := wOut_of_complete henv hv
    have hcomp : t.completed c = [o] := by simp [completed, hv, ho]
    rw [hcomp, Latest.value_cons, Latest.value_nil]
    cases hwr : o.wrGpr with
    | false => simpa [hno hwr, Op.writes, Control.Instr.writes, hwr] using hold
    | true =>
      have hw := hres hwr
      have hex : Exists g.hasFpu (t.portsR c).w.writeReg := by
        change Exists g.hasFpu (wOut c.w).writeReg
        rw [hw]
        exact h.targets o (mem_of_getLast? ho) hwr
      have haddr : RegisterFile.wAddr g.hasFpu (t.portsR c) = o.reg := by
        rw [RegisterFile.wAddr_eq hex]
        change (wOut c.w).writeReg = o.reg
        rw [hw]
      rw [haddr, hw]
      by_cases hRo : o.reg = R
      · subst hRo
        simp [Op.writes, Control.Instr.writes, hwr]
      · have hne : (R == o.reg) = false := beq_eq_false_iff_ne.mpr (Ne.symm hRo)
        simpa [Op.writes, Control.Instr.writes, hwr, hRo, hne] using hold

theorem targets_step : ∀ o ∈ (step g t c).inFlight, o.wrGpr = true → Exists g.hasFpu o.reg := by
  intro o ho hw
  simp only [step] at ho
  split at ho
  · cases ho
  · rcases mem_append.mp ho with hnew | hold
    · simp only [Tracked.issued, Control.issued] at hnew
      split at hnew
      · obtain rfl : o = _ := by simpa using hnew
        exact pending_target h (and_eq_true_iff.mp hw).1
      · cases hnew
    · refine h.targets o ?_ hw
      rw [inFlight_split henv]
      exact mem_append_left _ hold

omit h henv in
theorem dc2_step : (step g t c).d2.dc2 = if Writeback.flushOut c.w then {}
    else if deferred t.d2 (t.ports2 c) then dc2Held g t.d2 (t.ports2 c)
    else dc2in g t.d2 (t.ports2 c) := rfl

theorem base_step : Control.Inv (step g t c).ctl := by
  rw [ctl_step]
  exact h.base.step henv.order

/-- A flush leaves nothing in either stage. -/
theorem step_flushed (hflush : Writeback.flushOut c.w = true) : Inv g (step g t c) := by
  have hdc : (step g t c).d2.dc2 = {} := by simp [dc2_step, hflush]
  have hd1 : (step g t c).d1.r.valid = false := by
    have hf1 : (t.ports1 c).flushIn = true := hflush
    have hr1 : (t.ports1 c).rst = false := rfl
    simp [step, Decode1.step, rNext, hf1, hr1]
  refine ⟨base_step h henv, regs_step h henv, targets_step h henv, ?_, ?_, ?_, ?_, ?_⟩
  · intro hb; rw [hdc] at hb; cases hb
  · intro hv; rw [hd1] at hv; cases hv
  · intro hv; rw [hdc] at hv; cases hv
  · intro hb; rw [hdc] at hb; cases hb
  · intro hv; rw [hdc] at hv; cases hv

/-- The instruction in `dc2.e` stays. -/
theorem step_held (hflush : Writeback.flushOut c.w = false)
    (hdef : deferred t.d2 (t.ports2 c) = true) : Inv g (step g t c) := by
  have hvalid : t.d2.dc2.e.valid = true := (and_eq_true_iff.mp hdef).1
  have hdc : (step g t c).d2.dc2 = dc2Held g t.d2 (t.ports2 c) := by
    simp [dc2_step, hflush, hdef]
  have hb' : (step g t c).d2.dc2.busy = false := by rw [hdc]; exact h.excl hvalid
  have hissue : t.issues g c = false := by
    rw [← not_eq_true, issues_iff]
    rintro ⟨-, hd⟩
    rw [hdef] at hd; cases hd
  refine ⟨base_step h henv, regs_step h henv, targets_step h henv, ?_,
    readOk_step h.read henv hflush, ?_, ?_, ?_⟩
  · intro hb; rw [hb'] at hb; cases hb
  · exact fun _ => hb'
  · intro hb; rw [hb'] at hb; cases hb
  · intro _ k hk
    have hold : (step g t c).older = t.older := by simp [step, hissue]
    rw [hold, hdc] at *
    match k with
    | 0 => exact h.issued hvalid 0 hk
    | 1 => exact h.issued hvalid 1 hk
    | 2 => exact h.issued hvalid 2 hk

/-- Another instruction may come to `dc2`. -/
theorem step_moved (hflush : Writeback.flushOut c.w = false)
    (hdef : deferred t.d2 (t.ports2 c) = false) : Inv g (step g t c) := by
  have hdc : (step g t c).d2.dc2 = dc2in g t.d2 (t.ports2 c) := by
    simp [dc2_step, hflush, hdef]
  -- the operands' registers are those of the instruction in the stage
  have hops : ∀ k, opValid (step g t c).d2.dc2 k = opValid (t.pending g c) k ∧
      opReg (step g t c).d2.dc2 k = opReg (t.pending g c) k ∧
      opData (step g t c).d2.dc2.e k = opData (eNext g t.d2 (t.ports2 c)) k := by
    intro k
    rw [hdc]
    match k with
    | 0 => exact ⟨rfl, rfl, rfl⟩
    | 1 => exact ⟨rfl, rfl, rfl⟩
    | 2 => exact ⟨rfl, rfl, rfl⟩
  refine ⟨base_step h henv, regs_step h henv, targets_step h henv, ?_,
    readOk_step h.read henv hflush, ?_, ?_, ?_⟩
  · intro _ hw
    rw [hdc] at hw ⊢
    exact pending_target h hw
  · intro hv
    rw [hdc] at hv ⊢
    have hv' : Decode2.validOut g t.d2 (t.ports2 c) = true := hv
    simp [dc2in, hv']
  · intro hb k hk hnone
    rw [hdc] at hb
    have hout : Decode2.validOut g t.d2 (t.ports2 c) = false := by
      simpa using (and_eq_true_iff.mp hb).2
    have hissue : t.issues g c = false := by
      rw [← not_eq_true, issues_iff]
      rintro ⟨ho, -⟩
      rw [hout] at ho; cases ho
    obtain ⟨hvk, hrk, hdk⟩ := hops k
    rw [hvk] at hk
    rw [hrk] at hnone ⊢
    rw [hdk]
    refine opData_waits h henv hdef k hk fun o ho => hnone o ?_
    have hnew : t.issued g c = [] := by
      have hnone : Control.issued g.ex1Bypass t.d2.control (t.ctlPorts g c) = [] :=
        Control.issued_of_not_valid hissue
      rw [Tracked.issued, hnone]
      rfl
    have hq : (step g t c).inFlight = t.remaining c := by simp [step, hflush, hnew]
    rw [hq]
    exact ho
  · intro hv k hk
    rw [hdc] at hv
    have hout : Decode2.validOut g t.d2 (t.ports2 c) = true := hv
    have hissue : t.issues g c = true := issues_iff.mpr ⟨hout, hdef⟩
    obtain ⟨hvk, hrk, hdk⟩ := hops k
    have hold : (step g t c).older = t.value := by simp [step, hissue]
    rw [hvk] at hk
    rw [hold, hrk, hdk]
    exact opData_validOut h henv hdef hout k hk

theorem Inv.step : Inv g (step g t c) := by
  cases hflush : Writeback.flushOut c.w with
  | true => exact step_flushed h henv hflush
  | false =>
    cases hdef : deferred t.d2 (t.ports2 c) with
    | true => exact step_held h henv hflush hdef
    | false => exact step_moved h henv hflush hdef

end

/-- **Operand delivery.** In every run from reset, whatever stalls, deferrals and flushes there are:
an instruction that execute1 takes from decode2 has as the value of each of its registers the result
of the youngest older instruction that writes it, or the content of the register at reset. -/
theorem operand_delivery (h : Reachable (step g) (Env g) Start t)
    (hvalid : (eOut t.d2).valid = true) (k : Fin 3) (hreg : opValid t.d2.dc2 k = true) :
    opData (eOut t.d2) k = t.older (opReg t.d2.dc2 k) := by
  have hinv : Inv g t := h.induct (fun _ => Inv.init) fun _ _ hi he => hi.step he
  exact hinv.issued hvalid k hreg

/-- **The registers are those of the completed instructions.** In every such run the register file
holds what the instructions that have completed wrote, in program order, and nothing of those that
were flushed. -/
theorem registers_committed (h : Reachable (step g) (Env g) Start t) (R : GsprIndex)
    (hR : Exists g.hasFpu R) : t.rf.registers R = valueOf t.done t.initial R := by
  have hinv : Inv g t := h.induct (fun _ => Inv.init) fun _ _ hi he => hi.step he
  exact hinv.regs R hR

/-! ### A run -/

instance (q : List Op) (valid : Bool) (tag : InstrTag) (writeEnable : Bool) (writeReg : GsprIndex)
    (writeData : BitVec 64) : Decidable (UnitOk q valid tag writeEnable writeReg writeData) :=
  decidable_of_iff _ (unitOk_iff ..).symm

instance (g : Generics) (t : Tracked) (c : Cycle) : Decidable (Env g t c) :=
  decidable_of_iff _ (env_iff ..).symm

/-- After reset, with the fields of the tag registers that are not reset cleared. -/
def reset : Tracked where
  d2 := { control := Control.resetState.ctl }

theorem start_reset : Start reset :=
  ⟨rfl, rfl, ⟨fun _ => ⟨rfl, rfl, rfl, rfl⟩, rfl, rfl, rfl, rfl⟩, rfl, rfl, rfl⟩

/-- `addi 3,0,7` and then `add 4,3,3`. When the second one is in decode2, the first has been taken
by execute1, which shows its result on the bypass path. -/
def addRun : List Cycle :=
  [{ f := { valid := true, insn := some 0x38600007, icode := .addi } },
    { f := { valid := true, insn := some 0x7c831a14, icode := .add }, result := 7 },
    { executeBypass := { tag := ⟨0, true⟩, reg := 3, data := 7 }, result := 14 }]

/-- Both operands of `add` are the sum that `addi` computes. -/
theorem operand_delivery_add :
    let t := run (step {}) reset addRun
    (eOut t.d2).readData1 = t.older 3 ∧ (eOut t.d2).readData2 = t.older 3 ∧
      t.older 3 = 7 := by
  intro t
  have hreach : Reachable (step {}) (Env {}) Start t :=
    reachable_run start_reset (by decide +kernel)
  have hvalid : (eOut t.d2).valid = true := by decide +kernel
  refine ⟨?_, ?_, by decide +kernel⟩
  · have h := operand_delivery hreach hvalid 0 (by decide +kernel)
    rwa [show opReg t.d2.dc2 0 = 3 by decide +kernel] at h
  · have h := operand_delivery hreach hvalid 1 (by decide +kernel)
    rwa [show opReg t.d2.dc2 1 = 3 by decide +kernel] at h

theorem registers_committed_add :
    let e : Execute1ToWriteback :=
      { valid := true, instrTag := ⟨0, true⟩, writeEnable := true, writeReg := 3, writeData := 7 }
    let done : Cycle := { w := { e := e } }
    let t := run (step {}) reset (addRun ++ [done])
    t.inFlight.length = 1 ∧ t.done.length = 1 ∧
      t.rf.registers 3 = valueOf t.done t.initial 3 := by
  intro e done t
  have hreach : Reachable (step {}) (Env {}) Start t :=
    reachable_run start_reset (by decide +kernel)
  obtain ⟨hin, hdone⟩ : t.inFlight.length = 1 ∧ t.done.length = 1 := by decide +kernel
  exact ⟨hin, hdone, registers_committed hreach 3 (.inl rfl)⟩

end Operands

end Microwatt
