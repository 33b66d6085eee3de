import Microwatt.Decode.Operands
import Microwatt.Execute.Flush
import Microwatt.Fetch.Basic
import Microwatt.Icache.Basic
import Microwatt.LoadStore.Answers
import Microwatt.LoadStore.Quadword

/-!
# Instructions in two parts

Quadword accesses and loads with update go down the pipeline twice. Three units have to agree on
what the parts are. Decode1 names the register that is read before it knows the row of the table,
and for a second part it goes by the byte order of the instruction behind it; decode2 names the
register that is written; loadstore1 derives the second address from the first one, which it keeps.

The byte order of the instruction behind is the same, because it only changes with a redirection,
and that flushes decode1. To say so, fetch1 and the instruction cache are part of the system.

## Main results

* `Pairs.FrontInv.step`, `Pairs.Inv.step`
* `Pairs.Consecutive.restores` — what is stored in two parts is loaded in two parts
* `Pairs.register_pairs`
* `Pairs.second_follows_first`, `Pairs.byte_order_kept`
-/

namespace Microwatt

open Clocked BitVec LoadStore Decode2 Writeback Bool Decode1 Icache InsnCode

namespace Pairs

open LoadStore (Op Memory)
open LoadStore.Quadword (Issued IsFirst)

variable {g : Generics} {gf : Fetch1.Geometry} {gi : Icache.Geometry}

/-! ### The front end -/

/-- The units up to decode2. -/
structure FrontEnd (gf : Fetch1.Geometry) (gi : Icache.Geometry) where
  fetch : Fetch1.State gf := {}
  icache : Icache.State gi := {}
  ops : Operands.Tracked
  src : Decode1ToDecode2 := {}
  /-- The instruction that execute1 took last. -/
  prev : Decode1ToDecode2 := {}

open FrontEnd

/-- What the rest of the core presents to them. -/
structure FrontCycle where
  fetch : Fetch1.Inputs := {}
  icache : Icache.Inputs := {}
  ops : Operands.Cycle := {}

namespace FrontEnd

variable (g) (u : FrontEnd gf gi) (c : FrontCycle)

/-- What decode1 and the units behind it see. -/
def portsO : Operands.Cycle := { c.ops with f := iOut u.icache }

abbrev in1 : Decode1.Inputs := u.ops.ports1 (u.portsO c)

abbrev in2 : Decode2.Inputs := u.ops.ports2 (u.portsO c)

/-- `decode1_busy`. -/
def busy1 : Bool := busyOut u.ops.d1 (u.in1 c)

/-- `fetch1_flush`. -/
def flush1 : Bool :=
  flushOut c.ops.w || Decode1.flushOut u.ops.d1 (u.in1 c)

/-- The redirections that fetch1 sees. -/
def redirects : Fetch1.Inputs :=
  { c.fetch with rst := false, w := fOut c.ops.w, d := Decode1.fOut u.ops.d1 }

def portsI : Icache.Inputs :=
  { c.icache with
    rst := false, i := Fetch1.iOut u.fetch (u.redirects c), stallIn := u.busy1 c
    flushIn := u.flush1 c }

def portsF : Fetch1.Inputs :=
  { u.redirects c with stallIn := Icache.stallOut u.icache (u.portsI c) || u.busy1 c }

/-- Decode2 keeps what it has. -/
def stall : Bool := u.ops.stall (u.portsO c)

/-- Decode2 has an instruction, waiting or issued. -/
def holds : Bool := u.ops.d2.dc2.busy || u.ops.d2.dc2.e.valid

/-- Execute1 takes the instruction from decode2. -/
def taken : Bool :=
  u.ops.d2.dc2.e.valid && !deferred u.ops.d2 (u.in2 c)

def step : FrontEnd gf gi where
  fetch := Fetch1.step u.fetch (u.portsF c)
  icache := Icache.step u.icache (u.portsI c)
  ops := Operands.step g u.ops (u.portsO c)
  src := if u.stall c then u.src else Decode1.dOut u.ops.d1
  prev := if u.taken c then u.src else u.prev

/-- What the rest of the core keeps to. -/
@[mk_iff] structure Env : Prop where
  ops : Operands.Env g u.ops (u.portsO c)
  /-- Only a prefix makes an instruction `pstq`; the predecoder has no such code. -/
  code : (iOut u.icache).icode ≠ .pstq

structure Start : Prop where
  ops : Operands.Start u.ops
  hitValid : u.icache.r.hitValid = false
  fetchFailed : u.icache.r.fetchFailed = false

end FrontEnd

/-! ### Registers -/

/-- The register that belongs to a part. Of the two, the odd one is for the doubleword at EA exactly
if the instruction has no prefix and is little-endian. -/
def pairReg (d : Decode1ToDecode2) : GsprIndex :=
  gprToGspr ((insnRs d.insn).extractLsb' 1 4 ++ BitVec.ofBool (oddPart d))

/-- The instruction is executed: its suffix is legal, and so is its form. -/
def Legal (d : Decode1ToDecode2) : Prop :=
  d.illegalSuffix = false ∧ illegalForm d = false

/-- The registers that decode1 has named are the ones that belong to the part. -/
structure RegsOk (g : Generics) (d : Decode1ToDecode2) : Prop where
  row : ∃ code, d.decode = decodeRom g.hasFpu code
  base : d.decode.repeat_ = .dupd → d.regA = gprToGspr (insnRa d.insn)
  pair : d.decode.repeat_ = .drsp → Legal d → d.regC = pairReg d

section

variable (hasFpu : Bool) (code : InsnCode)

include hasFpu

/-- What the table says about instructions in two parts. -/
theorem row_of_drsp : let row := decodeRom hasFpu code
    row.repeat_ = .drsp → row.insnType = .store ∧ row.update = false ∧ row.is32bit = false ∧
      row.isSigned = false ∧ row.inputRegC ≠ .none := by
  exact forall_rows (by decide +kernel) hasFpu code

theorem row_of_dupd : let row := decodeRom hasFpu code
    row.repeat_ = .dupd → row.insnType = .load ∧ row.update = true ∧ row.isSigned = false ∧
      row.length ≠ .none := by
  exact forall_rows (by decide +kernel) hasFpu code

theorem length_of_pair : let row := decodeRom hasFpu code
    (row.repeat_ = .drsp ∨ row.repeat_ = .drtp) → row.length = .is8b := by
  exact forall_rows (by decide +kernel) hasFpu code

/-- Without a prefix, decode1 recognises the instructions that store a pair. -/
theorem code_of_drsp :
    (decodeRom hasFpu code).repeat_ = .drsp → code ≠ .pstq →
      (code == .stq || code == .stqcx) = true ∧ code.pos < maddld.pos := by
  exact forall_rows (by decide +kernel) hasFpu code

/-- With a prefix there is nothing to recognise. -/
theorem code_of_prefixed :
    (decodeRom hasFpu (.val (code.pos ||| 1))).repeat_ = .drsp →
      (code == .stq || code == .stqcx) = false ∧ code.pos < maddld.pos := by
  exact forall_rows (by decide +kernel) hasFpu code

/-- The base register of a load with update is a GPR. -/
theorem code_of_dupd :
    ((decodeRom hasFpu code).repeat_ = .dupd → code.pos < fabs.pos) ∧
      ((decodeRom hasFpu (.val (code.pos ||| 1))).repeat_ = .dupd →
        code.pos < fabs.pos) := by
  exact forall_rows (by decide +kernel) hasFpu code

end

variable {s : Decode1.State} {i : Decode1.Inputs} {d : Decode1ToDecode2}

/-- The row of an instruction that is in two parts was found by its own code, or by the one that a
prefix makes of it. -/
theorem romAddr_cases {hasFpu : Bool} (h : (decodeRom hasFpu (decodeRomAddr s i)).repeat_ ≠ .none) :
    (s.pr.prefixed = false ∧ decodeRomAddr s i = i.f.icode) ∨
      (s.pr.prefixed = true ∧ decodeRomAddr s i = .val (i.f.icode.pos ||| 1)) := by
  have hfail : (decodeRom hasFpu .fetchFail).repeat_ = .none := by cases hasFpu <;> decide
  have hnop : (decodeRom hasFpu .pnop).repeat_ = .none := by cases hasFpu <;> decide
  rw [decodeRomAddr] at h ⊢
  cases hff : i.f.fetchFailed with
  | true => exact absurd hfail (by simpa [hff] using h)
  | false =>
    cases hpr : s.pr.prefixed with
    | false => exact .inl ⟨rfl, by simp⟩
    | true =>
      cases h24 : s.pr.pfx.getLsbD 24 with
      | true => exact absurd hnop (by simpa [hff, hpr, h24] using h)
      | false => exact .inr ⟨rfl, by simp⟩

theorem even_of_legal (h : Legal d) (hp : d.decode.repeat_ = .drsp ∨ d.decode.repeat_ = .drtp) :
    d.insn.getLsbD 21 = false := by
  have hf := h.2
  rcases hp with hp | hp <;> simp [illegalForm, hp] at hf
  · exact hf
  · exact hf.2

/-- An even register number and its neighbour. -/
theorem pair_of_even : ∀ n : BitVec 5, n.getLsbD 0 = false →
    gprToGspr (n.extractLsb' 1 4 ++ BitVec.ofBool false) = gprToGspr n ∧
      gprToGspr (n.extractLsb' 1 4 ++ BitVec.ofBool true) = gprToGspr n ||| 1 := by
  decide

theorem pairReg_eq (h : d.insn.getLsbD 21 = false) :
    pairReg d =
      if oddPart d then gprToGspr (insnRs d.insn) ||| 1 else gprToGspr (insnRs d.insn) := by
  have heven : (insnRs d.insn).getLsbD 0 = false := by
    rw [insnRs, BitVec.getLsbD_extractLsb']
    simpa using h
  obtain ⟨h0, h1⟩ := pair_of_even _ heven
  rw [pairReg]
  cases oddPart d with
  | false => exact h0
  | true => exact h1

/-- Decode2 names the register that a part of a quadword load writes. -/
theorem regO_pair (hrow : ∃ code, d.decode = decodeRom g.hasFpu code)
    (hq : d.decode.repeat_ = .drtp) (hl : Legal d) : regO d g.hasFpu = pairReg d := by
  obtain ⟨code, hcode⟩ := hrow
  have hout : d.decode.outputRegA = .rt := by
    rw [hcode] at hq ⊢
    exact (LoadStore.Quadword.row_of_drtp _ _ hq).2.1
  rw [pairReg_eq (even_of_legal hl (.inr hq))]
  simp [regO, hq, hout, decodeOutputReg]

theorem regsOk_rin (hdbl : double s = false) (hcode : i.f.icode ≠ .pstq)
    (hd : d = { rin s i with decode := decodeRom g.hasFpu (decodeRomAddr s i) }) :
    RegsOk g d := by
  have hregA : d.regA = reg1 i := by simp [hd, rin, rOut, hdbl]
  have hregC : d.regC = reg3 i := by simp [hd, rin, rOut, hdbl]
  have hinsn : d.insn = fInsn i := by simp [hd, rin]
  have hdec : d.decode = decodeRom g.hasFpu (decodeRomAddr s i) := by simp [hd]
  refine ⟨⟨_, hdec⟩, fun hu => ?_, fun hq hl => ?_⟩
  · have hlow : i.f.icode.pos < fabs.pos := by
      rw [hdec] at hu
      rcases romAddr_cases (by rw [hu]; decide) with ⟨-, ha⟩ | ⟨-, ha⟩
      · exact (code_of_dupd g.hasFpu _).1 (ha ▸ hu)
      · exact (code_of_dupd g.hasFpu _).2 (ha ▸ hu)
    rw [hregA, hinsn, reg1, decide_eq_false (not_le.mpr hlow)]
    rfl
  · have heven := even_of_legal hl (.inl hq)
    rw [hdec] at hq
    have hodd : oddFirst i = oddPart d ∧
        i.f.icode.pos < maddld.pos := by
      rcases romAddr_cases (by rw [hq]; decide) with ⟨hpr, ha⟩ | ⟨hpr, ha⟩
      · obtain ⟨hst, hlow⟩ := code_of_drsp g.hasFpu _ (ha ▸ hq) hcode
        exact ⟨by simp [oddFirst, hst, oddPart, hd, rin, hpr], hlow⟩
      · obtain ⟨hst, hlow⟩ := code_of_prefixed g.hasFpu _ (ha ▸ hq)
        exact ⟨by simp [oddFirst, hst, oddPart, hd, rin, hpr], hlow⟩
    have h1 : ¬fmul.pos ≤ i.f.icode.pos := fun h =>
      absurd (h.trans_lt hodd.2) (by decide)
    have h2 : ¬stfd.pos ≤ i.f.icode.pos := fun h =>
      absurd (h.trans_lt hodd.2) (by decide)
    have h3 : ¬maddld.pos ≤ i.f.icode.pos := not_le.mpr hodd.2
    rw [hregC, pairReg_eq heven, hinsn, reg3, if_neg h1, if_neg h2, if_neg h3, hodd.1]

/-- The second part of an instruction, when the instruction behind it has the same byte order. -/
theorem regsOk_second (h : RegsOk g (Decode1.dOut s)) (hdbl : double s = true)
    (hbe : i.f.bigEndian = s.r.bigEndian)
    (hd : d = { Decode1.dOut s with second := true, regC := (rin s i).regC }) :
    RegsOk g d := by
  have hregC : d.regC = reg3Second s i := by simp [hd, rin, rOut, hdbl]
  have hpair : ∀ (n : BitVec 4) (a b : Bool),
      (gprToGspr (n ++ BitVec.ofBool a)).extractLsb' 1 5 ++ BitVec.ofBool b =
        gprToGspr (n ++ BitVec.ofBool b) := by decide
  refine ⟨?_, fun hu => ?_, fun hq hl => ?_⟩
  · simpa [hd] using h.row
  · simpa [hd] using h.base (by simpa [hd] using hu)
  · have hq' : s.decode.repeat_ = .drsp := by simpa [hd, Decode1.dOut] using hq
    have hl' : Legal (Decode1.dOut s) := by
      simpa [hd, Legal, illegalForm, Decode1.dOut] using hl
    have hfirst : s.r.regC = pairReg (Decode1.dOut s) := h.pair hq' hl'
    have hodd : oddPart d = (s.r.prefixed || i.f.bigEndian) := by
      rw [hbe, Bool.or_comm]
      simp [hd, oddPart, Decode1.dOut]
    have hinsn : d.insn = s.r.insn := by simp [hd, Decode1.dOut]
    rw [hregC, reg3Second, hq', if_pos (beq_self_eq_true _), hfirst, pairReg, pairReg, hpair,
      hodd, hinsn]
    rfl

/-! ### The invariant of the front end -/

/-- Decode2 holds the instruction `d`, whatever it has found for its operands. -/
structure Held (g : Generics) (r : Reg) (d : Decode1ToDecode2) : Prop where
  issued : ∃ i : Decode2.Inputs, i.d = d ∧ Issued g i r.e
  readReg3 : r.readReg3 = d.regC
  regValid3 : r.regValid3 = regCValid d
  valid : d.valid = true

structure FrontInv (g : Generics) (u : FrontEnd gf gi) : Prop where
  ops : Operands.Inv g u.ops
  /-- Instructions of another byte order than the one that is being fetched are gone. -/
  fetch : u.icache.r.bigEndian = u.fetch.r.bigEndian ∨
    (u.icache.r.hitValid = false ∧ u.icache.r.fetchFailed = false ∧ u.ops.d1.r.valid = false)
  endian : u.ops.d1.r.valid = true → u.ops.d1.r.bigEndian = u.icache.r.bigEndian
  regs1 : u.ops.d1.r.valid = true → RegsOk g (Decode1.dOut u.ops.d1)
  regs2 : u.holds = true → RegsOk g u.src
  held : u.holds = true → Held g u.ops.d2.dc2 u.src
  /-- A second part follows its first part. -/
  pair1 : u.ops.d1.r.valid = true → u.ops.d1.r.second = true →
    u.holds = true ∧ IsFirst u.src (Decode1.dOut u.ops.d1)
  pair2 : u.holds = true → u.src.second = true → IsFirst u.prev u.src

section Front

variable {u : FrontEnd gf gi} {c : FrontCycle}

theorem FrontInv.init (h : u.Start) : FrontInv g u := by
  have hd1 := h.ops.d1
  have hh : u.holds = false := by simp [holds, h.ops.dc2]
  refine ⟨Operands.Inv.init h.ops, .inr ⟨h.hitValid, h.fetchFailed, hd1⟩, ?_, ?_, ?_, ?_, ?_, ?_⟩
  all_goals simp [hd1, hh]

theorem redirect_of_flush (h : flushOut c.ops.w = false) :
    (u.portsF c).w.redirect = false ∧ (u.portsF c).w.interrupt = false :=
  or_eq_false_iff.mp h

theorem d1_flush (hf : flushOut c.ops.w = true) : (u.step g c).ops.d1.r.valid = false := by
  have : (u.in1 c).flushIn = true := hf
  change (Decode1.rNext u.ops.d1 (u.in1 c)).valid = false
  rw [Decode1.rNext, this]
  rfl

theorem holds_flush (hf : flushOut c.ops.w = true) : (u.step g c).holds = false := by
  have : (u.in2 c).flushIn = true := hf
  change ((dc2Next g u.ops.d2 (u.in2 c)).busy ||
    (dc2Next g u.ops.d2 (u.in2 c)).e.valid) = false
  rw [dc2Next, this]
  rfl

theorem d1_cases (hf : flushOut c.ops.w = false) :
    -- the same instruction
    (u.stall c = true ∧ u.busy1 c = true ∧
        Decode1.dOut (u.step g c).ops.d1 = Decode1.dOut u.ops.d1) ∨
      -- the same instruction a second time
      (u.stall c = false ∧ u.busy1 c = true ∧ double u.ops.d1 = true ∧
        Decode1.dOut (u.step g c).ops.d1 = { Decode1.dOut u.ops.d1 with
          second := true, regC := (rin u.ops.d1 (u.in1 c)).regC }) ∨
      -- a new one
      (u.stall c = false ∧ u.busy1 c = false ∧ double u.ops.d1 = false ∧
        Decode1.dOut (u.step g c).ops.d1 =
          { rin u.ops.d1 (u.in1 c) with
            decode := decodeRom g.hasFpu
              (decodeRomAddr u.ops.d1 (u.in1 c)) }) := by
  have hrst : (u.in1 c).rst = false := rfl
  have hfl : (u.in1 c).flushIn = false := hf
  have hst : (u.in1 c).stallIn = u.stall c := rfl
  have hstep : (u.step g c).ops.d1 =
      Decode1.step g.hasFpu u.ops.d1 (u.in1 c) := rfl
  rw [busy1, hstep]
  cases hs : u.stall c with
  | true =>
    rw [hs] at hst
    have hb : busyOut u.ops.d1 (u.in1 c) = true := by
      simp [busyOut, hst]
    exact .inl ⟨rfl, hb, by simp [Decode1.dOut, Decode1.step, Decode1.rNext, hrst, hfl, hst, hb]⟩
  | false =>
    rw [hs] at hst
    have hb : busyOut u.ops.d1 (u.in1 c) =
        double u.ops.d1 := by simp [busyOut, hst]
    cases hd : double u.ops.d1 with
    | true =>
      exact .inr (.inl ⟨rfl, hb.trans hd, rfl, by
        simp [Decode1.dOut, Decode1.step, Decode1.rNext, hrst, hfl, hst, hb, hd]⟩)
    | false =>
      exact .inr (.inr ⟨rfl, hb.trans hd, rfl, by
        simp [Decode1.dOut, Decode1.step, Decode1.rNext, hrst, hfl, hst, hb, hd]⟩)

/-- The byte order that is fetched changes only with a flush. -/
theorem fetch_endian (hf : flushOut c.ops.w = false) :
    (u.step g c).fetch.r.bigEndian = u.fetch.r.bigEndian := by
  obtain ⟨hr, hi⟩ := redirect_of_flush (u := u) hf
  have hrst : (u.portsF c).rst = false := rfl
  change (Fetch1.rNext u.fetch (u.portsF c)).bigEndian = _
  simp [Fetch1.rNext, Fetch1.diverted, hr, hi, hrst]

theorem icache_next : (u.step g c).icache.r = Icache.rNext u.icache (u.portsI c) := by
  have hrst : (u.portsI c).rst = false := rfl
  simp [FrontEnd.step, Icache.step, hrst]

theorem icache_endian :
    (u.step g c).icache.r.bigEndian =
      if u.busy1 c then u.icache.r.bigEndian else u.fetch.r.bigEndian := by
  rw [icache_next]
  rfl

/-- A flush of the fetch units leaves nothing to be decoded. -/
theorem icache_flush (h : u.flush1 c = true) :
    (u.step g c).icache.r.hitValid = false ∧ (u.step g c).icache.r.fetchFailed = false := by
  have hfl : (u.portsI c).flushIn = true := h
  rw [icache_next]
  simp [Icache.rNext, hfl]

/-- An instruction comes from what the cache presents. -/
theorem valid_of_rin (h : (rin u.ops.d1 (u.in1 c)).valid = true) :
    u.icache.r.hitValid = true ∨ u.icache.r.fetchFailed = true := by
  change validNext _ _ = true at h
  have hv : (u.in1 c).f.valid = u.icache.r.hitValid := rfl
  have hff : (u.in1 c).f.fetchFailed = u.icache.r.fetchFailed := rfl
  rw [validNext, hff, hv] at h
  split at h
  · exact .inr ‹_›
  · split at h
    · exact .inl (and_eq_true_iff.mp h).1
    · exact .inl h

/-- The byte order of what is fetched and of what is decoded, after an edge. -/
theorem FrontInv.step_endian (h : FrontInv g u) :
    ((u.step g c).icache.r.bigEndian = (u.step g c).fetch.r.bigEndian ∨
        ((u.step g c).icache.r.hitValid = false ∧ (u.step g c).icache.r.fetchFailed = false ∧
          (u.step g c).ops.d1.r.valid = false)) ∧
      ((u.step g c).ops.d1.r.valid = true →
        (u.step g c).ops.d1.r.bigEndian = (u.step g c).icache.r.bigEndian) := by
  cases hf : flushOut c.ops.w with
  | true =>
    have hv := d1_flush (g := g) (u := u) hf
    obtain ⟨h1, h2⟩ := icache_flush (g := g) (u := u) (c := c) (by simp [flush1, hf])
    exact ⟨.inr ⟨h1, h2, hv⟩, by simp [hv]⟩
  | false =>
    rw [fetch_endian hf, icache_endian]
    rcases d1_cases (g := g) (u := u) hf with ⟨-, hb, hd⟩ | ⟨-, hb, hdbl, hd⟩ | ⟨-, hb, -, hd⟩
    · have hv : (u.step g c).ops.d1.r.valid = u.ops.d1.r.valid := congrArg (·.valid) hd
      have he : (u.step g c).ops.d1.r.bigEndian = u.ops.d1.r.bigEndian :=
        congrArg (·.bigEndian) hd
      rw [hb, if_pos rfl, hv, he]
      refine ⟨h.fetch.imp_right fun ⟨h1, h2, h3⟩ => ⟨?_, ?_, h3⟩, h.endian⟩
      · rw [icache_next]
        have hst : (u.portsI c).stallIn = true := hb
        simp [Icache.rNext, hst, h1]
      · rw [icache_next]
        have hst : (u.portsI c).stallIn = true := hb
        simp [Icache.rNext, hst, h2]
    · have hv : u.ops.d1.r.valid = true := by
        rw [double, Bool.and_assoc, and_eq_true] at hdbl
        exact hdbl.1
      have he : (u.step g c).ops.d1.r.bigEndian = u.ops.d1.r.bigEndian :=
        congrArg (·.bigEndian) hd
      rw [hb, if_pos rfl, he]
      refine ⟨.inl (h.fetch.resolve_right fun h' => ?_), fun _ => h.endian hv⟩
      rw [h'.2.2] at hv
      cases hv
    · rw [hb, if_neg Bool.false_ne_true]
      refine ⟨.inl rfl, fun hv => ?_⟩
      have hv' : (rin u.ops.d1 (u.in1 c)).valid = true :=
        (congrArg (·.valid) hd).symm.trans hv
      have he : (u.step g c).ops.d1.r.bigEndian = u.icache.r.bigEndian := congrArg (·.bigEndian) hd
      rw [he]
      refine h.fetch.resolve_right fun ⟨h1, h2, _⟩ => ?_
      rcases valid_of_rin hv' with h3 | h3
      · rw [h1] at h3
        cases h3
      · rw [h2] at h3
        cases h3

/-! ### Decode2 -/

theorem dc2_next (hf : flushOut c.ops.w = false) :
    (u.step g c).ops.d2.dc2 =
      if deferred u.ops.d2 (u.in2 c) then
        dc2Held g u.ops.d2 (u.in2 c)
      else dc2in g u.ops.d2 (u.in2 c) := by
  have hrst : (u.in2 c).rst = false := rfl
  have hfl : (u.in2 c).flushIn = false := hf
  change dc2Next g u.ops.d2 (u.in2 c) = _
  rw [dc2Next, hrst, hfl]
  rfl

/-- What decode2 has after an edge without a flush: what it had, or what decode1 presented. -/
theorem dc2_cases (h : FrontInv g u) (hf : flushOut c.ops.w = false) :
    (u.stall c = true ∧ u.holds = true ∧ (u.step g c).holds = true ∧ u.taken c = false ∧
        ∀ d, Held g u.ops.d2.dc2 d → Held g (u.step g c).ops.d2.dc2 d) ∨
      (u.stall c = false ∧ (u.step g c).holds = u.ops.d1.r.valid ∧ u.taken c = u.holds ∧
        (u.ops.d1.r.valid = true →
          Held g (u.step g c).ops.d2.dc2 (Decode1.dOut u.ops.d1))) := by
  have hstall : u.stall c =
      (u.ops.d2.dc2.busy || deferred u.ops.d2 (u.in2 c)) := rfl
  have hnext := dc2_next (g := g) (u := u) hf
  have hvin : validIn u.ops.d2 (u.in2 c) =
      (u.ops.d1.r.valid || u.ops.d2.dc2.busy) := rfl
  cases hdef : deferred u.ops.d2 (u.in2 c) with
  | true =>
    have hv : u.ops.d2.dc2.e.valid = true := (and_eq_true_iff.mp hdef).1
    rw [hdef, if_pos rfl] at hnext
    refine .inl ⟨by rw [hstall, hdef, Bool.or_true], by simp [holds, hv],
      by simp [holds, hnext, dc2Held, hv], by simp [taken, hdef],
      fun d hd => ?_⟩
    obtain ⟨i, hi, he⟩ := hd.issued
    rw [hnext]
    refine ⟨⟨i, hi, ?_⟩, hd.readReg3, hd.regValid3, hd.valid⟩
    unfold LoadStore.Quadword.Issued at he ⊢
    simp only [dc2Held]
    rw [he]
  | false =>
    rw [hdef, if_neg Bool.false_ne_true] at hnext
    have hholds : (u.step g c).holds = validIn u.ops.d2 (u.in2 c) := by
      simp only [holds, hnext, dc2in, eNext]
      cases hv : validOut g u.ops.d2 (u.in2 c) with
      | true => simp [validIn_of_validOut hv]
      | false => simp
    cases hb : u.ops.d2.dc2.busy with
    | true =>
      have hv : u.ops.d2.dc2.e.valid = false := Flag.down h.ops.excl hb
      refine .inl ⟨by rw [hstall, hb]; rfl, by simp [holds, hb],
        by rw [hholds, hvin, hb, Bool.or_true], by simp [taken, hv], fun d hd => ?_⟩
      obtain ⟨i, hi, he⟩ := hd.issued
      rw [hnext]
      refine ⟨⟨i, hi, ?_⟩, ?_, ?_, hd.valid⟩
      · unfold LoadStore.Quadword.Issued at he ⊢
        simp only [dc2in, eNext, pending, hb, if_true]
        rw [he]
      · simpa [dc2in, pending, hb] using hd.readReg3
      · simpa [dc2in, pending, hb] using hd.regValid3
    | false =>
      refine .inr ⟨by rw [hstall, hb, hdef]; rfl, by rw [hholds, hvin, hb, Bool.or_false],
        by simp [taken, holds, hdef, hb], fun hv => ?_⟩
      rw [hnext]
      refine ⟨⟨u.in2 c, rfl, ?_⟩, ?_, ?_, hv⟩
      · unfold LoadStore.Quadword.Issued
        simp [dc2in, eNext, pending, hb, fresh]
      · simp [dc2in, pending, hb, fresh, Operands.Tracked.ports2]
      · simp [dc2in, pending, hb, fresh, Operands.Tracked.ports2]

theorem FrontInv.step (h : FrontInv g u) (henv : u.Env g c) : FrontInv g (u.step g c) := by
  obtain ⟨hfetch, hend⟩ := h.step_endian (c := c)
  have hops : Operands.Inv g (u.step g c).ops := h.ops.step henv.ops
  cases hf : flushOut c.ops.w with
  | true =>
    have hv := d1_flush (g := g) (u := u) hf
    have hh := holds_flush (g := g) (u := u) hf
    refine ⟨hops, hfetch, hend, ?_, ?_, ?_, ?_, ?_⟩
    all_goals simp [hv, hh]
  | false =>
    have hsrc : (u.step g c).src = if u.stall c then u.src else Decode1.dOut u.ops.d1 := rfl
    have hprev : (u.step g c).prev = if u.taken c then u.src else u.prev := rfl
    have hvalid : ∀ {d : Decode1ToDecode2}, Decode1.dOut (u.step g c).ops.d1 = d →
        (u.step g c).ops.d1.r.valid = d.valid ∧ (u.step g c).ops.d1.r.second = d.second :=
      fun hd => ⟨congrArg (·.valid) hd, congrArg (·.second) hd⟩
    rcases dc2_cases (g := g) h hf with ⟨hs, hh, hh', ht, hheld⟩ | ⟨hs, hh', ht, hheld⟩
    · -- decode2 keeps its instruction, and so does decode1
      rw [hs, if_pos rfl] at hsrc
      rw [ht, if_neg Bool.false_ne_true] at hprev
      have hd : Decode1.dOut (u.step g c).ops.d1 = Decode1.dOut u.ops.d1 := by
        rcases d1_cases (g := g) (u := u) hf with ⟨-, -, hd⟩ | ⟨hs', -⟩ | ⟨hs', -⟩
        · exact hd
        · rw [hs] at hs'
          cases hs'
        · rw [hs] at hs'
          cases hs'
      obtain ⟨hv, h2⟩ := hvalid hd
      refine ⟨hops, hfetch, hend, ?_, ?_, ?_, ?_, ?_⟩
      · rw [hv, hd]
        exact h.regs1
      · rw [hsrc]
        exact fun _ => h.regs2 hh
      · rw [hsrc]
        exact fun _ => hheld _ (h.held hh)
      · rw [hv, h2, hd, hsrc]
        exact fun hv' hs' => ⟨hh', (h.pair1 hv' hs').2⟩
      · rw [hsrc, hprev]
        exact fun _ => h.pair2 hh
    · -- decode2 takes what decode1 presents
      rw [hs, if_neg Bool.false_ne_true] at hsrc
      have hpair2 : (u.step g c).holds = true → (u.step g c).src.second = true →
          IsFirst (u.step g c).prev (u.step g c).src := by
        rw [hh', hsrc]
        intro hv hs'
        obtain ⟨hold, hfirst⟩ := h.pair1 hv hs'
        rw [hprev, ht, hold, if_pos rfl]
        exact hfirst
      have hregs2 : (u.step g c).holds = true → RegsOk g (u.step g c).src := by
        rw [hh', hsrc]
        exact h.regs1
      have hheld2 : (u.step g c).holds = true →
          Held g (u.step g c).ops.d2.dc2 (u.step g c).src := by
        rw [hh', hsrc]
        exact hheld
      rcases d1_cases (g := g) (u := u) hf with ⟨hs', -⟩ | ⟨-, -, hdbl, hd⟩ | ⟨-, -, hdbl, hd⟩
      · rw [hs] at hs'
        cases hs'
      · have hdbl' := hdbl
        simp only [double, and_eq_true, not_eq_true'] at hdbl'
        have hv := hdbl'.1.1
        refine ⟨hops, hfetch, hend, fun _ => ?_, hregs2, hheld2, fun _ _ => ?_, hpair2⟩
        · exact regsOk_second (h.regs1 hv) hdbl (h.endian hv).symm hd
        · refine ⟨by rw [hh', hv], ?_⟩
          rw [hsrc, hd]
          exact ⟨hdbl'.2, rfl⟩
      · refine ⟨hops, hfetch, hend, fun _ => ?_, hregs2, hheld2, fun _ hs' => ?_, hpair2⟩
        · exact regsOk_rin hdbl henv.code hd
        · rw [(hvalid hd).2] at hs'
          cases hs'

end Front

/-! ### Memory -/

/-- Two accesses of a doubleword each, the second one behind the first. -/
structure Consecutive (o₁ o₂ : Op) : Prop where
  mode : o₂.l.mode32bit = o₁.l.mode32bit
  ea : o₂.ea = trimAddr o₂.l.mode32bit (o₁.ea + 8)
  size₁ : o₁.l.length = 8
  size₂ : o₂.l.length = 8

def store (hasFpu : Bool) (o : Op) (mem : Memory) : Memory :=
  (o.doublewords hasFpu).foldl (fun m w => w.apply m) mem

/-- A load of the doubleword at the same address and in the same way. -/
@[mk_iff] structure Matches (o o' : Op) : Prop where
  ea : o'.ea = o.ea
  mode : o'.l.mode32bit = o.l.mode32bit
  byteReverse : o'.l.byteReverse = o.l.byteReverse
  size : o'.l.length = o.l.length

instance (o o' : Op) : Decidable (Matches o o') := decidable_of_iff _ (matches_iff ..).symm

theorem Matches.byteAddr {o o' : Op} (h : Matches o o') (k : ℕ) : o'.byteAddr k = o.byteAddr k := by
  rw [Op.byteAddr, Op.byteAddr, h.ea, h.mode]

/-- The part of an instruction that an access is for, as execute1 presents it. -/
structure Part where
  src : Decode1ToDecode2
  /-- What execute1 took before it. -/
  prev : Decode1ToDecode2
  /-- The value of the register that belongs to it. -/
  value : BitVec 64
  /-- The access before it. -/
  first : Op

structure Units (gf : Fetch1.Geometry) (gi : Icache.Geometry) where
  front : FrontEnd gf gi
  port : Recorded
  /-- Loadstore1 has begun the instruction that execute1 took last, and nothing has been flushed
  since. -/
  started : Bool := false
  /-- What the accesses in the first two stages are for. -/
  part1 : Option Part := none
  part2 : Option Part := none

/-- What the rest of the core presents, and the state that execute1 is in. -/
structure Cycle (x : Execute1.Generics) where
  front : FrontCycle := {}
  ex : Execute1.State x := {}
  exIn : Execute1.Inputs := {}
  ls : LoadStore.Inputs := {}

section Units

variable {x : Execute1.Generics}

namespace Units

variable (g) (t : Units gf gi) (c : Cycle x)

abbrev ls : Tracked := t.port.unit

def portsE : Execute1.Inputs := { c.exIn with e := eOut t.front.ops.d2 }

/-- What the front end sees. -/
def portsD : FrontCycle :=
  { c.front with
    ops := { c.front.ops with busyIn := Execute1.busyOut c.ex (t.portsE c) } }

def portsL : LoadStore.Inputs :=
  { c.ls with rst := false, l := Execute1.lOut c.ex (t.portsE c) }

/-- The access that execute1 presents. -/
def presented : Op := t.ls.ls.presented (t.portsL c)

/-- What it is for. -/
def part : Part :=
  ⟨t.front.src, t.front.prev, t.front.ops.older (pairReg t.front.src), t.ls.op1⟩

def step : Units gf gi where
  front := t.front.step g (t.portsD c)
  port := t.port.step g.hasFpu (t.portsL c)
  started :=
    if flushOut c.front.ops.w then false
    else if (t.portsL c).l.valid then true
    else !t.front.taken (t.portsD c) && t.started
  part1 := if !t.ls.ls.r1.busy && (t.portsL c).l.valid then some t.part else t.part1
  part2 := if takes t.ls.ls (t.portsL c) then t.part1 else t.part2

/-- What the rest of the core keeps to. -/
@[mk_iff] structure Env : Prop where
  front : t.front.Env g (t.portsD c)
  ls : LoadStore.Env t.ls (t.portsL c)
  /-- Execute1 begins a second part only if it has begun the first one, and in the same mode. -/
  pair : (t.portsL c).l.valid = true → (t.portsL c).l.second = true →
    t.started = true ∧ (t.portsL c).l.mode32bit = t.ls.op1.l.mode32bit

structure Start : Prop where
  front : t.front.Start
  port : t.port.Init g.hasFpu
  started : t.started = false
  part1 : t.part1 = none
  part2 : t.part2 = none

/-- The requests for the access in stage 2 that have been answered, with their answers. -/
def answered : List (Loadstore1ToDcache × BitVec 64) := t.port.answeredNow g.hasFpu (t.portsL c)

/-- Loadstore1 has the value `v` written to the register `r`. -/
def Writes (r : GsprIndex) (v : BitVec 64) : Prop :=
  (lOut t.ls.ls (t.portsL c)).writeEnable = true ∧
    (lOut t.ls.ls (t.portsL c)).writeReg = r ∧
    (lOut t.ls.ls (t.portsL c)).writeData = v

end Units

/-- What is presented for an instruction that stores or loads a pair. -/
structure PairPart (g : Generics) (p : Part) (o : Op) : Prop where
  plain : o.Plain
  length : o.l.length = 8
  /-- A part of a store has the value of its register, -/
  store : p.src.decode.repeat_ = .drsp →
    o.l.op = .store ∧ storeValue g.hasFpu o.l = p.value
  /-- and a part of a load writes it. -/
  load : p.src.decode.repeat_ = .drtp →
    o.l.op = .load ∧ o.l.update = false ∧ o.l.is32bit = false ∧ o.l.writeReg = pairReg p.src
  /-- A second part follows its first part, and is for the next doubleword. -/
  next : p.src.second = true → IsFirst p.prev p.src ∧ Consecutive p.first o

/-- What is presented for the second part of a load with update. -/
structure UpdatePart (p : Part) (o : Op) : Prop where
  plain : o.Plain
  update : o.l.op = .load ∧ o.l.update = true ∧ o.l.second = true
  first : IsFirst p.prev p.src
  target : o.l.writeReg = gprToGspr (insnRa p.src.insn)
  ea : o.ea = p.first.ea

/-- The part is one of a pair. -/
def Part.IsPair (p : Part) : Prop :=
  Legal p.src ∧ (p.src.decode.repeat_ = .drsp ∨ p.src.decode.repeat_ = .drtp)

/-- The access is the one for the part. -/
structure PartOk (g : Generics) (p : Part) (o : Op) : Prop where
  pair : p.IsPair → PairPart g p o
  update : p.src.decode.repeat_ = .dupd → p.src.second = true → UpdatePart p o

/-- The request has what a write to a register depends on from the access. -/
structure IsOf (b : Bool) (q : Request) (o : Op) : Prop where
  doUpdate : q.doUpdate = (o.request b).doUpdate
  store : q.store = (o.request b).store
  readSpr : q.readSpr = (o.request b).readSpr
  loadSp : q.loadSp = (o.request b).loadSp
  writeReg : q.writeReg = o.l.writeReg

/-- The source of the data that is written for a request. -/
def wrSelOf (q : Request) : BitVec 2 :=
  if q.doUpdate || q.store || q.readSpr then 0b00 else if q.loadSp then 0b01 else 0b10

structure Inv (g : Generics) (t : Units gf gi) : Prop where
  front : FrontInv g t.front
  base : RecInv g.hasFpu t.port
  /-- The address of the access that was begun last is kept. -/
  addr0 : t.started = true → t.ls.ls.r1.addr0 = t.ls.op1.ea
  /-- It belongs to the instruction that execute1 took last. -/
  first : t.started = true →
    t.ls.op1.l.second = t.front.prev.second ∧
      t.ls.op1.l.length = dataLen t.front.prev
  /-- The stages know what to write, and where. -/
  held1 : t.ls.ls.r1.req.valid = true →
    IsOf g.hasFpu t.ls.ls.r1.req t.ls.op1 ∧ t.ls.ls.r1.addr0 = t.ls.op1.ea
  held2 : t.ls.ls.r2.req.valid = true →
    IsOf g.hasFpu t.ls.ls.r2.req t.ls.op2 ∧ t.ls.ls.r2.wrSel = wrSelOf t.ls.ls.r2.req ∧
      (t.ls.ls.r2.req.readSpr = false → t.ls.ls.r2.addr0 = t.ls.op2.ea)
  part1 : ∀ p, t.part1 = some p → PartOk g p t.ls.op1
  part2 : ∀ p, t.part2 = some p → PartOk g p t.ls.op2

variable {t : Units gf gi} {c : Cycle x}

theorem Inv.init (h : t.Start g) : Inv g t := by
  obtain ⟨s, i, hrst, hls⟩ := h.port.unit.1
  have hv1 : t.ls.ls.r1.req.valid = false := by
    simp [hls, LoadStore.step, hrst, LoadStore.Stage1.reset]
  have hv2 : t.ls.ls.r2.req.valid = false := by
    simp [hls, LoadStore.step, hrst, LoadStore.Stage2.reset]
  refine ⟨FrontInv.init h.front, RecInv.init h.port, ?_, ?_, ?_, ?_, ?_, ?_⟩
  all_goals simp [h.started, hv1, hv2, h.part1, h.part2]

/-- An access comes from the instruction that execute1 takes from decode2. -/
theorem taken_of_valid (hv : (t.portsL c).l.valid = true) :
    t.front.taken (t.portsD c) = true ∧ t.front.holds = true := by
  have hgo : Execute1.go c.ex (t.portsE c) = true := (and_eq_true_iff.mp hv).1
  have hbusy : Execute1.busyOut c.ex (t.portsE c) = false := Execute1.busyOut_of_go hgo
  have he : t.front.ops.d2.dc2.e.valid = true := by
    have hin := (and_eq_true_iff.mp hgo).1
    exact (and_eq_true_iff.mp hin).1
  have hdef : deferred t.front.ops.d2
      (t.front.ops.ports2 (t.front.portsO (t.portsD c))) =
        (t.front.ops.d2.dc2.e.valid && Execute1.busyOut c.ex (t.portsE c)) := rfl
  rw [hbusy, Bool.and_false] at hdef
  exact ⟨by simp [taken, he, hdef], by simp [holds, he]⟩

/-- The fields of an access are those of the instruction. -/
theorem Held.fields (h : Held g t.front.ops.d2.dc2 t.front.src) :
    (t.portsL c).l.second = t.front.src.second ∧
      (t.portsL c).l.length = dataLen t.front.src ∧
      (t.portsL c).l.writeReg = regO t.front.src g.hasFpu ∧
      (t.portsL c).l.update = t.front.src.decode.update ∧
      (t.portsL c).l.op = t.front.src.decode.insnType ∧
      (t.portsL c).l.is32bit = t.front.src.decode.is32bit ∧
      (t.portsL c).l.hash = t.front.src.decode.isSigned := by
  obtain ⟨i, hi, he⟩ := h.issued
  have hl : ∀ {α : Type} (p : Decode2ToExecute1 → α), p (eOut t.front.ops.d2) = p _ :=
    fun p => congrArg p he
  rw [← hi]
  exact ⟨hl (·.second), hl (·.dataLen), hl (·.writeReg), hl (·.update), hl (·.insnType),
    hl (·.is32bit), hl (·.isSigned)⟩

/-! ### The stages -/

theorem IsOf.nextReq1 {b : Bool} {s : LoadStore.State} {i : LoadStore.Inputs} {o : Op}
    (h : IsOf b (LoadStore.stage1Req b s i) o) : IsOf b (LoadStore.nextReq1 b s i) o := by
  simp only [LoadStore.nextReq1]
  split
  · exact ⟨h.1, h.2, h.3, h.4, h.5⟩
  · exact h

/-- A request that is sent again, a second request and the dummy behind lfs are of the same
access. -/
theorem IsOf.stage1Req {b : Bool} {s : LoadStore.State} {i : LoadStore.Inputs} {o : Op}
    (hb : s.r1.busy = true) (hv : (LoadStore.stage1Req b s i).valid = true) :
    s.r1.req.valid = true ∧ (IsOf b s.r1.req o → IsOf b (LoadStore.stage1Req b s i) o) := by
  rcases LoadStore.stage1Req_of_busy b s i hb with ⟨-, hs⟩ | ⟨-, -, hs⟩ | ⟨-, -, hs⟩ <;>
    rw [hs] at hv ⊢
  · exact ⟨hv, id⟩
  · exact ⟨hv, fun h => ⟨h.1, h.2, h.3, h.4, h.5⟩⟩
  · exact ⟨(and_eq_true_iff.mp hv).2, fun h => ⟨h.1, h.2, h.3, h.4, h.5⟩⟩

theorem Inv.step_held1 (h : Inv g t) (henv : t.Env g c)
    (hv : (t.step g c).ls.ls.r1.req.valid = true) :
    IsOf g.hasFpu (t.step g c).ls.ls.r1.req (t.step g c).ls.op1 ∧
      (t.step g c).ls.ls.r1.addr0 = (t.step g c).ls.op1.ea := by
  have hr1 : (t.step g c).ls.ls.r1 = r1in g.hasFpu t.ls.ls (t.portsL c) := rfl
  have hop : (t.step g c).ls.op1 =
      if !t.ls.ls.r1.busy && (t.portsL c).l.valid then t.presented c else t.ls.op1 := rfl
  have haddr : (r1in g.hasFpu t.ls.ls (t.portsL c)).addr0 =
      if !t.ls.ls.r1.busy && (t.portsL c).l.valid then
        (LoadStore.stage1Req g.hasFpu t.ls.ls (t.portsL c)).addr else t.ls.ls.r1.addr0 := rfl
  rw [hr1] at hv
  rw [hr1, hop, haddr]
  cases hf : flush t.ls.ls (t.portsL c) with
  | true => simp [r1in, hf] at hv
  | false =>
    cases ha : advance t.ls.ls (t.portsL c) with
    | false =>
      have hreq := r1in_req_of_not_advance (b := g.hasFpu) hf ha
      rw [hreq] at hv
      rw [hreq, henv.ls.not_valid ha, Bool.and_false, if_neg Bool.false_ne_true,
        if_neg Bool.false_ne_true]
      exact h.held1 hv
    | true =>
      have hreq := r1in_req_of_advance (b := g.hasFpu) hf ha
      rw [hreq, LoadStore.Quadword.nextReq1_valid] at hv
      rw [hreq]
      cases hb : t.ls.ls.r1.busy with
      | true =>
        obtain ⟨hv', hkeep⟩ := IsOf.stage1Req (o := t.ls.op1) hb hv
        obtain ⟨hof, hea⟩ := h.held1 hv'
        rw [Bool.not_true, Bool.false_and, if_neg Bool.false_ne_true, if_neg Bool.false_ne_true]
        exact ⟨(hkeep hof).nextReq1, hea⟩
      | false =>
        have hs := LoadStore.stage1Req_of_free g.hasFpu t.ls.ls (t.portsL c) hb
        have hv' : (t.portsL c).l.valid = true := by
          rw [hs] at hv
          exact hv
        rw [Bool.not_false, Bool.true_and, hv', if_pos rfl, if_pos rfl]
        refine ⟨IsOf.nextReq1 ?_, ?_⟩ <;> rw [hs]
        · exact ⟨rfl, rfl, rfl, rfl, rfl⟩
        · rfl

theorem Inv.step_held2 (h : Inv g t) (hv : (t.step g c).ls.ls.r2.req.valid = true) :
    IsOf g.hasFpu (t.step g c).ls.ls.r2.req (t.step g c).ls.op2 ∧
      (t.step g c).ls.ls.r2.wrSel = wrSelOf (t.step g c).ls.ls.r2.req ∧
      ((t.step g c).ls.ls.r2.req.readSpr = false →
        (t.step g c).ls.ls.r2.addr0 = (t.step g c).ls.op2.ea) := by
  have hr2 : (t.step g c).ls.ls.r2 = r2in t.ls.ls (t.portsL c) := rfl
  have hop : (t.step g c).ls.op2 =
      if takes t.ls.ls (t.portsL c) then t.ls.op1 else t.ls.op2 := rfl
  rw [hr2] at hv ⊢
  rw [hop]
  have hvalid : (nextReq2 t.ls.ls (t.portsL c)).valid = true := by
    simp only [r2in, and_eq_true] at hv
    exact hv.1.1.1
  cases ht : takes t.ls.ls (t.portsL c) with
  | true =>
    rw [nextReq2, ht] at hvalid
    obtain ⟨hof, hea⟩ := h.held1 hvalid
    refine ⟨?_, ?_, fun hread => ?_⟩
    · simpa [r2in, nextReq2, ht, takenReq] using ⟨hof.1, hof.2, hof.3, hof.4, hof.5⟩
    · simp [r2in, nextReq2, ht, takenReq, wrSelOf]
    · have hread1 : t.ls.ls.r1.req.readSpr = false := by
        simpa [r2in, nextReq2, ht, takenReq] using hread
      simp [r2in, ht, hread1, hea]
  | false =>
    rw [nextReq2, ht] at hvalid
    obtain ⟨hof, hsel, hea⟩ := h.held2 hvalid
    refine ⟨?_, ?_, fun hread => ?_⟩
    · simpa [r2in, nextReq2, ht] using ⟨hof.1, hof.2, hof.3, hof.4, hof.5⟩
    · simpa [r2in, nextReq2, ht, wrSelOf] using hsel
    · simpa [r2in, ht] using hea (by simpa [r2in, nextReq2, ht] using hread)

/-! ### The parts of an instruction -/

theorem next_dword (a : BitVec 64) : (a.extractLsb' 3 61 + 1) ++ a.extractLsb' 0 3 = a + 8 := by
  refine eq_of_toNat_eq ?_
  have ha := a.isLt
  rw [toNat_append_lane, toNat_lane, toNat_add, toNat_dword,
    toNat_add, show (1 : BitVec 61).toNat = 1 from rfl,
    show (8 : BitVec 64).toNat = 8 from rfl]
  omega

theorem same_dword (a : BitVec 64) : (a.extractLsb' 3 61 + 0) ++ a.extractLsb' 0 3 = a := by
  rw [show (0 : BitVec 61) = 0#61 from rfl, BitVec.add_zero]
  refine eq_of_toNat_eq ?_
  rw [toNat_append_lane, toNat_lane, toNat_dword]
  omega

theorem trimAddr_trimAddr (m : Bool) (a : BitVec 64) :
    trimAddr m (trimAddr m a) = trimAddr m a := by
  refine eq_of_toNat_eq ?_
  rw [toNat_trimAddr, toNat_trimAddr]
  cases m with
  | false => rfl
  | true => exact Nat.mod_mod _ _

theorem dataLen_cases {d : Decode1ToDecode2} (h : d.decode.length ≠ .none) :
    dataLen d = 1 ∨ dataLen d = 2 ∨ dataLen d = 4 ∨ dataLen d = 8 := by
  rw [dataLen]
  revert h
  cases d.decode.length <;> decide

theorem Inv.pairPart (h : Inv g t) (henv : t.Env g c) (hv : (t.portsL c).l.valid = true)
    (hpair : t.part.IsPair) : PairPart g t.part (t.presented c) := by
  obtain ⟨hl, hq⟩ := hpair
  change Legal t.front.src at hl
  change t.front.src.decode.repeat_ = .drsp ∨ t.front.src.decode.repeat_ = .drtp at hq
  obtain ⟨htaken, hholds⟩ := taken_of_valid hv
  have hheld := h.front.held hholds
  have hregs := h.front.regs2 hholds
  obtain ⟨code, hcode⟩ := hregs.row
  obtain ⟨hsec, hlen, hreg, hupd, hop, h32, hhash⟩ := hheld.fields (c := c)
  have hkind : (t.portsL c).l.update = false ∧ (t.portsL c).l.is32bit = false ∧
      (t.portsL c).l.hash = false ∧
      ((t.portsL c).l.op = .load ∧ t.front.src.decode.repeat_ = .drtp ∨
        (t.portsL c).l.op = .store ∧ t.front.src.decode.repeat_ = .drsp) := by
    rw [hupd, h32, hhash, hop]
    rcases hq with hq | hq <;> rw [hcode] at hq ⊢
    · obtain ⟨h1, h2, h3, h4, -⟩ := row_of_drsp _ _ hq
      exact ⟨h2, h3, h4, .inr ⟨h1, hq⟩⟩
    · obtain ⟨h1, -, h2, h3, h4⟩ := LoadStore.Quadword.row_of_drtp _ _ hq
      exact ⟨h2, h3, h4, .inl ⟨h1, hq⟩⟩
  have hlen8 : ∀ d : Decode1ToDecode2, d.decode = t.front.src.decode → dataLen d = 8 := by
    intro d hd
    rw [hcode] at hq
    rw [dataLen, hd, hcode, length_of_pair _ _ hq]
  have hlength : (t.presented c).l.length = 8 := hlen.trans (hlen8 _ rfl)
  refine ⟨⟨hkind.2.2.2.imp And.left And.left, .inr (.inr (.inr hlength)), hkind.2.2.1⟩, hlength,
    fun hs => ?_, fun hs => ?_, fun hs => ?_⟩
  · change t.front.src.decode.repeat_ = .drsp at hs
    have hvalid : t.front.ops.d2.dc2.e.valid = true := (and_eq_true_iff.mp htaken).1
    have hreads : Operands.opValid t.front.ops.d2.dc2 2 = true := by
      change t.front.ops.d2.dc2.regValid3 = true
      rw [hheld.regValid3, regCValid, hasOperands, hheld.valid, hl.1]
      rw [hcode] at hs ⊢
      simpa [decodeInputRegC] using (row_of_drsp _ _ hs).2.2.2.2
    have hval : t.front.ops.d2.dc2.e.readData3 =
        t.front.ops.older t.front.ops.d2.dc2.readReg3 := h.front.ops.issued hvalid 2 hreads
    have hdata : storeValue g.hasFpu (t.presented c).l = (t.portsL c).l.data := by
      have h3 : (t.presented c).l.is32bit = false := hkind.2.1
      simp only [storeValue, h3, Bool.and_false, false_eq_true, if_false]
      rfl
    refine ⟨hkind.2.2.2.elim (fun hk => absurd (hs.symm.trans hk.2) (by decide)) And.left, ?_⟩
    change _ = t.front.ops.older (pairReg t.front.src)
    rw [hdata, ← hregs.pair hs hl, ← hheld.readReg3]
    exact hval
  · exact ⟨hkind.2.2.2.elim And.left fun hk => absurd (hs.symm.trans hk.2) (by decide), hkind.1,
      hkind.2.1, hreg.trans (regO_pair hregs.row hs hl)⟩
  · have hfirst := h.front.pair2 hholds hs
    have hs' : (t.portsL c).l.second = true := hsec.trans hs
    obtain ⟨hstarted, hmode⟩ := henv.pair hv hs'
    refine ⟨hfirst, hmode, ?_, ?_, hlength⟩
    · change effectiveAddr (t.portsL c).l t.ls.ls.r1.addr0 = _
      rw [effectiveAddr, hs', if_pos rfl, hkind.1, if_neg Bool.false_ne_true, next_dword,
        h.addr0 hstarted]
      rfl
    · change t.ls.op1.l.length = 8
      rw [(h.first hstarted).2]
      exact hlen8 _ (by rw [hfirst.2])

theorem Inv.updatePart (h : Inv g t) (henv : t.Env g c) (hv : (t.portsL c).l.valid = true)
    (hq : t.front.src.decode.repeat_ = .dupd) (hs : t.front.src.second = true) :
    UpdatePart t.part (t.presented c) := by
  obtain ⟨-, hholds⟩ := taken_of_valid hv
  have hregs := h.front.regs2 hholds
  obtain ⟨code, hcode⟩ := hregs.row
  obtain ⟨hsec, hlen, hreg, hupd, hop, -, hhash⟩ := (h.front.held hholds).fields (c := c)
  have hs' : (t.portsL c).l.second = true := hsec.trans hs
  obtain ⟨hrow1, hrow2, hrow3, hrow4⟩ := row_of_dupd g.hasFpu code (hcode ▸ hq)
  rw [← hcode] at hrow1 hrow2 hrow3 hrow4
  have hu : (t.portsL c).l.update = true := hupd.trans hrow2
  have hlength : (t.portsL c).l.length = 1 ∨ (t.portsL c).l.length = 2 ∨
      (t.portsL c).l.length = 4 ∨ (t.portsL c).l.length = 8 := by
    rw [hlen]
    exact dataLen_cases hrow4
  obtain ⟨hstarted, hmode⟩ := henv.pair hv hs'
  refine ⟨⟨.inl (hop.trans hrow1), hlength, hhash.trans hrow3⟩, ⟨hop.trans hrow1, hu, hs'⟩,
    h.front.pair2 hholds hs, hreg.trans ?_, ?_⟩
  · change _ = gprToGspr (insnRa t.front.src.insn)
    rw [← hregs.base hq]
    simp [regO, hq, hs]
  · change effectiveAddr (t.portsL c).l t.ls.ls.r1.addr0 = _
    rw [effectiveAddr, hs', if_pos rfl, hu, if_pos rfl, same_dword, h.addr0 hstarted,
      hmode]
    exact trimAddr_trimAddr _ _

theorem Inv.step (h : Inv g t) (henv : t.Env g c) : Inv g (t.step g c) := by
  have hfront : FrontInv g (t.step g c).front := h.front.step henv.front
  have hbase : RecInv g.hasFpu (t.step g c).port := h.base.step henv.ls
  have hstarted : (t.step g c).started =
      if flushOut c.front.ops.w then false
      else if (t.portsL c).l.valid then true
      else !t.front.taken (t.portsD c) && t.started := rfl
  have hprev : (t.step g c).front.prev =
      if t.front.taken (t.portsD c) then t.front.src else t.front.prev := rfl
  have hop : (t.step g c).ls.op1 =
      if !t.ls.ls.r1.busy && (t.portsL c).l.valid then t.presented c else t.ls.op1 := rfl
  have haddr : (t.step g c).ls.ls.r1.addr0 =
      if !t.ls.ls.r1.busy && (t.portsL c).l.valid then
        (LoadStore.stage1Req g.hasFpu t.ls.ls (t.portsL c)).addr else t.ls.ls.r1.addr0 := rfl
  have hmain : (t.step g c).started = true →
      (t.step g c).ls.ls.r1.addr0 = (t.step g c).ls.op1.ea ∧
        (t.step g c).ls.op1.l.second = (t.step g c).front.prev.second ∧
        (t.step g c).ls.op1.l.length = dataLen (t.step g c).front.prev := by
    intro hs
    rw [hstarted] at hs
    split at hs
    · cases hs
    · cases hv : (t.portsL c).l.valid with
      | true =>
        -- the access is begun at this edge
        obtain ⟨htaken, hholds⟩ := taken_of_valid hv
        have hb : t.ls.ls.r1.busy = false := (henv.ls.advance_of_valid hv).2
        obtain ⟨hsec, hlen, -⟩ := (h.front.held hholds).fields (c := c)
        rw [haddr, hop, hprev, hb, hv, htaken]
        refine ⟨?_, hsec, hlen⟩
        simp [LoadStore.stage1Req, hb]
        rfl
      | false =>
        rw [hv, if_neg Bool.false_ne_true, and_eq_true, not_eq_true'] at hs
        rw [haddr, hop, hprev, hv, hs.1, Bool.and_false, if_neg Bool.false_ne_true,
          if_neg Bool.false_ne_true, if_neg Bool.false_ne_true]
        exact ⟨h.addr0 hs.2, h.first hs.2⟩
  have hpart1 : ∀ p, (t.step g c).part1 = some p → PartOk g p (t.step g c).ls.op1 := by
    intro p hp
    rw [hop]
    simp only [Units.step] at hp
    split at hp
    · rename_i hnew
      rw [if_pos hnew]
      cases hp
      have hv := (and_eq_true_iff.mp hnew).2
      exact ⟨h.pairPart henv hv, h.updatePart henv hv⟩
    · rename_i hold
      rw [if_neg hold]
      exact h.part1 p hp
  have hpart2 : ∀ p, (t.step g c).part2 = some p → PartOk g p (t.step g c).ls.op2 := by
    intro p hp
    have hop2 : (t.step g c).ls.op2 =
        if takes t.ls.ls (t.portsL c) then t.ls.op1 else t.ls.op2 := rfl
    rw [hop2]
    simp only [Units.step] at hp
    split at hp
    · rename_i ht
      rw [if_pos ht]
      exact h.part1 p hp
    · rename_i ht
      rw [if_neg ht]
      exact h.part2 p hp
  exact ⟨hfront, hbase, fun hs => (hmain hs).1, fun hs => (hmain hs).2, h.step_held1 henv,
    h.step_held2, hpart1, hpart2⟩

/-! ### The end of a part -/

/-- The last answer for the access of the part comes. -/
structure Completes (g : Generics) (t : Units gf gi) (c : Cycle x) (p : Part) : Prop where
  reach : Reachable (Units.step (x := x) g) (Units.Env g) (Units.Start g) t
  env : t.Env g c
  part : t.part2 = some p
  pair : p.IsPair
  answer : (t.portsL c).d.valid = true
  last : t.ls.ls.r2.req.incomplete = false

theorem Inv.of_reachable
    (h : Reachable (Units.step (x := x) g) (Units.Env g) (Units.Start g) t) : Inv g t :=
  h.induct (fun _ => Inv.init) fun _ _ hi he => hi.step he

namespace Completes

variable {p : Part}

theorem pairPart (h : Completes g t c p) : PairPart g p t.ls.op2 :=
  ((Inv.of_reachable h.reach).part2 p h.part).pair h.pair

/-- The requests that were answered are those of the access. -/
theorem requests (h : Completes g t c p) :
    (t.answered g c).map (·.1.dword) = t.ls.op2.doublewords g.hasFpu ∧
      ∀ q ∈ t.answered g c, q.1.ordinary = true ∧ q.1.load = (t.ls.op2.request g.hasFpu).load :=
  (Inv.of_reachable h.reach).base.answered_eq h.env.ls h.answer h.pairPart.plain h.last

/-- A part of a load writes its register with what the data cache has answered. -/
theorem writes (h : Completes g t c p) (hq : p.src.decode.repeat_ = .drtp) {mem : Memory}
    (hmem : AnsweredFrom mem (t.answered g c)) :
    t.Writes c (pairReg p.src) (loadValue mem t.ls.op2) := by
  have hinv := Inv.of_reachable h.reach
  have hplain := h.pairPart.plain
  obtain ⟨hop, hupd, h32, hreg⟩ := h.pairPart.load hq
  have hw := (h.env.ls.answer h.answer).1
  obtain ⟨-, q, hpart, hqdc, hr2⟩ := hinv.base.base.hold2 hw hplain
  have hf := hpart.fields
  have hkind : (t.ls.op2.request g.hasFpu).load = true ∧
      (t.ls.op2.request g.hasFpu).loadSp = false ∧
      (t.ls.op2.request g.hasFpu).doUpdate = false ∧
      (t.ls.op2.request g.hasFpu).store = false ∧
      (t.ls.op2.request g.hasFpu).readSpr = false := by
    simp [Op.request, loadstore1In, hop, hupd, h32]
  have hvalid : t.ls.ls.r2.req.valid = true := by
    rw [hr2]
    exact hf.1.trans (Op.request_dcReq (hf.2.1 ▸ hqdc)).1
  obtain ⟨hof, hsel, -⟩ := hinv.held2 hvalid
  have hord := hpart.ordinary hplain
  simp only [or_eq_false_iff] at hord
  have hflags : t.ls.ls.r2.req.load = true ∧ t.ls.ls.r2.req.flush = false ∧
      t.ls.ls.r2.req.touch = false ∧ t.ls.ls.r2.req.hashcmp = false := by
    rw [hr2]
    exact ⟨hf.2.2.1.trans hkind.1, hord.1.1.1.2, hord.1.1.2,
      hf.2.2.2.2.2.1.trans hplain.request.2.2⟩
  refine ⟨?_, hof.writeReg.trans hreg, ?_⟩
  · simp [lOut, writeEnable, h.answer, h.last, hflags, hof.loadSp, hkind]
  · have hsel2 : t.ls.ls.r2.wrSel = 0b10 := by
      rw [hsel, wrSelOf, hof.doUpdate, hof.store, hof.readSpr, hof.loadSp]
      simp [hkind]
    change writeData t.ls.ls (t.portsL c) = _
    rw [writeData, hsel2]
    exact hinv.base.dataTrimmed_eq h.env.ls h.answer hplain h.last hkind.1 hmem

end Completes

instance (u : FrontEnd gf gi) (c : FrontCycle) : Decidable (u.Env g c) :=
  decidable_of_iff _ (FrontEnd.env_iff ..).symm

instance (t : Units gf gi) (c : Cycle x) : Decidable (t.Env g c) :=
  decidable_of_iff _ (Units.env_iff ..).symm

end Units

/-- A cache that is full of `lq 4,0(3)`. -/
def lqEverywhere : Units .default .default where
  front :=
    { fetch := { r := { req := true } }
      icache :=
        { cacheValids := fun _ _ => true
          ram := fun _ _ => BitVec.ofNat 72 ((2 ^ 36 + 1) * (lq.pos * 2 ^ 26 + 0x830000)) }
      ops := Operands.reset }
  port := recordedBoot

/-- Nothing happens outside, in little-endian 64-bit mode. -/
def quiet : Cycle {} where
  ex := { ex1 := { msr := 0x8000000000000001 } }

section

variable {u : FrontEnd gf gi}
  (h : Reachable (FrontEnd.step g) (FrontEnd.Env g) FrontEnd.Start u)

include h

theorem frontInv_of_reachable : FrontInv g u :=
  h.induct (fun _ => FrontInv.init) fun _ _ hi he => hi.step he

/-- **A second part follows its first part.** In every run of fetch1, the instruction cache and the
decode stages, with any stalls, flushes and predictions, the second part of an instruction is in
decode2 only when what execute1 took last is the first part of the same instruction. -/
theorem second_follows_first (hh : u.holds = true) (hs : u.src.second = true) :
    IsFirst u.prev u.src :=
  (frontInv_of_reachable h).pair2 hh hs

/-- **No instruction of another byte order is decoded**: what is in decode1 was fetched in the byte
order that fetch1 uses now. -/
theorem byte_order_kept (hv : u.ops.d1.r.valid = true) :
    u.ops.d1.r.bigEndian = u.fetch.r.bigEndian := by
  have hinv := frontInv_of_reachable h
  rcases hinv.fetch with heq | ⟨-, -, hno⟩
  · rw [hinv.endian hv, heq]
  · rw [hno] at hv
    cases hv

end

/-- The front end with the first part of `lq 4,0(3)` taken and the second in decode2. -/
def lqFront : FrontEnd .default .default :=
  run (FrontEnd.step {}) lqEverywhere.front (List.replicate 4 {})

theorem reachable_lqFront :
    Reachable (FrontEnd.step {}) (FrontEnd.Env {}) FrontEnd.Start lqFront :=
  reachable_run ⟨Operands.start_reset, rfl, rfl⟩ (by decide +kernel)

theorem lqFront_facts : lqFront.holds = true ∧ lqFront.src.second = true ∧
    lqFront.ops.d1.r.valid = true := by decide +kernel

theorem second_follows_first_lq : lqFront.src.second = true ∧ IsFirst lqFront.prev lqFront.src := by
  obtain ⟨hh, hs, -⟩ := lqFront_facts
  exact ⟨hs, second_follows_first reachable_lqFront hh hs⟩

theorem byte_order_kept_lq : lqFront.ops.d1.r.valid = true ∧
    lqFront.ops.d1.r.bigEndian = lqFront.fetch.r.bigEndian := by
  obtain ⟨-, -, hv⟩ := lqFront_facts
  exact ⟨hv, byte_order_kept reachable_lqFront hv⟩

end Pairs

end Microwatt
