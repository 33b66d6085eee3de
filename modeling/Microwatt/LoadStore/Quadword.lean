import Microwatt.Decode.Decode2
import Microwatt.Execute.Stages
import Microwatt.LoadStore.Pipeline

/-!
# Quadword loads

`lq`, `plq` and `lqarx` go through the pipeline as two instructions of one doubleword each, and each
of them writes its register when its doubleword arrives. If the second one is interrupted, the first
has already written its own. The instruction can be executed again only if that register is none of
its operands.

Decode2 takes care of it in two ways: it refuses forms in which RA or RB is RT, and it lets the part
for RT come first. In little-endian mode, however, the first doubleword belongs to RT+1, so without
a prefix the parts come in the other order, and RA may be RT+1. Loadstore1 then insists on
alignment, so that both doublewords are in one page. A watchpoint can still be set on the second one
alone.

Instructions are followed here from decode2 through execute1 into the first two stages of
loadstore1, with the list of registers that the one in stage 2 has written, its first part included.

## Main results

* `LoadStore.Quadword.restartable` — what a quadword load has written when it is interrupted
* `LoadStore.Quadword.watchpoint_overwrites` — a base register that is lost
-/

namespace Microwatt

open Clocked Bool
open Decode2 (freshE illegalForm oddPart op regO)

namespace LoadStore

namespace Quadword

/-! ### The units together -/

/-- Loadstore1 with the decoded instructions in its first two stages. -/
structure Tracked where
  ls : LoadStore.Tracked
  /-- The last instruction that was taken. -/
  d1 : Decode1ToDecode2 := {}
  /-- The instruction in stage 2. -/
  d2 : Decode1ToDecode2 := {}
  /-- The last instruction that was taken is the first of two parts, and nothing has been flushed
  since. -/
  half : Bool := false
  /-- The instruction in stage 2 has written its register. -/
  wrote : Bool := false
  /-- The registers that it has written, its first part included. -/
  written : List GsprIndex := []

/-- A cycle: what decode2 and execute1 have, and what the data cache and the MMU present. -/
structure Cycle (x : Execute1.Generics) where
  code : InsnCode := .illegal
  dec : Decode2.Inputs := {}
  ex : Execute1.State x := {}
  exIn : Execute1.Inputs := {}
  ls : LoadStore.Inputs := {}

variable {g : Decode2.Generics} {x : Execute1.Generics} {t : Tracked} {c : Cycle x}

def Cycle.ports (c : Cycle x) : LoadStore.Inputs :=
  { c.ls with rst := false, l := Execute1.lOut c.ex c.exIn }

/-- Stage 2 takes over a new instruction. -/
def Tracked.enters (t : Tracked) (c : Cycle x) : Bool :=
  takes t.ls.ls c.ports && t.ls.ls.r1.req.valid && !t.ls.ls.r1.req.dwordIndex &&
    !flush t.ls.ls c.ports

/-- A register is written. -/
def Tracked.writes (t : Tracked) (c : Cycle x) : Bool := (lOut t.ls.ls c.ports).writeEnable

def step (g : Decode2.Generics) (t : Tracked) (c : Cycle x) : Tracked where
  ls := t.ls.step g.hasFpu c.ports
  d1 := if !t.ls.ls.r1.busy && c.ports.l.valid then c.dec.d else t.d1
  d2 := if t.enters c then t.d1 else t.d2
  half :=
    if flush t.ls.ls c.ports then false
    else if c.ports.l.valid then !c.dec.d.second && c.dec.d.decode.repeat_ != .none
    else t.half
  wrote := !t.enters c && (t.wrote || t.writes c)
  written :=
    if t.enters c && !t.d1.second then []
    else t.written ++ if t.writes c then [(lOut t.ls.ls c.ports).writeReg] else []

/-- What decode2 sends for an instruction, apart from the values of its operands. -/
def Issued (g : Decode2.Generics) (i : Decode2.Inputs) (e : Decode2ToExecute1) : Prop :=
  e = { freshE g i with
    valid := e.valid, instrTag := e.instrTag, readData1 := e.readData1, readData2 := e.readData2
    readData3 := e.readData3, cr := e.cr, xerc := e.xerc
    ramsprEvenRdaddr := e.ramsprEvenRdaddr, ramsprOddRdaddr := e.ramsprOddRdaddr
    ramsprRdOdd := e.ramsprRdOdd }

instance (i : Decode2.Inputs) (e : Decode2ToExecute1) : Decidable (Issued g i e) :=
  inferInstanceAs (Decidable (e = _))

/-- What the other units keep to. -/
@[mk_iff] structure Env (g : Decode2.Generics) (t : Tracked) (c : Cycle x) : Prop where
  base : LoadStore.Env t.ls c.ports
  issued : c.ports.l.valid = true → Issued g c.dec c.exIn.e
  rom : c.ports.l.valid = true → c.dec.d.decode = decodeRom g.hasFpu c.code
  /-- A second part follows its first part. -/
  pair : c.ports.l.valid = true → c.dec.d.second = true →
    t.half = true ∧ c.dec.d = { t.d1 with second := true, regC := c.dec.d.regC }

structure Start (g : Decode2.Generics) (t : Tracked) : Prop where
  base : t.ls.Init g.hasFpu
  half : t.half = false
  wrote : t.wrote = false
  written : t.written = []

/-! ### Rows of the table -/

/-- Quadword loads are loads of doublewords into RT. -/
theorem row_of_drtp (hasFpu : Bool) (code : InsnCode) : let row := decodeRom hasFpu code
    row.repeat_ = .drtp → row.insnType = .load ∧ row.outputRegA = .rt ∧ row.update = false ∧
      row.is32bit = false ∧ row.isSigned = false := by
  exact forall_rows (by decide +kernel) hasFpu code

/-- A request made for a part of a quadword load. -/
structure IsQuad (g : Decode2.Generics) (d : Decode1ToDecode2) (q : Request) : Prop where
  writeReg : q.writeReg = regO d g.hasFpu
  readSpr : q.readSpr = false
  loadSp : q.loadSp = false
  doUpdate : q.doUpdate = false
  store : q.store = false
  hashcmp : q.hashcmp = false
  mmuOp : q.mmuOp = false

theorem isQuad_reqIn (henv : Env g t c) (hv : c.ports.l.valid = true)
    (hq : c.dec.d.decode.repeat_ = .drtp) {a : BitVec 64} :
    IsQuad g c.dec.d (loadstore1In g.hasFpu c.ports.l a) := by
  rw [henv.rom hv] at hq
  obtain ⟨hload, -, hupd, h32, hsig⟩ := row_of_drtp _ _ hq
  have he : c.exIn.e = _ := henv.issued hv
  have hop : c.ports.l.op = .load := by
    change c.exIn.e.insnType = _
    rw [he]
    simp [freshE, op, henv.rom hv, hload]
  have hu : c.ports.l.update = false := by
    change c.exIn.e.update = _
    rw [he]
    simp [freshE, henv.rom hv, hupd]
  have h3 : c.ports.l.is32bit = false := by
    change c.exIn.e.is32bit = _
    rw [he]
    simp [freshE, henv.rom hv, h32]
  have hh : c.ports.l.hash = false := by
    change c.exIn.e.isSigned = _
    rw [he]
    simp [freshE, henv.rom hv, hsig]
  have hw : c.ports.l.writeReg = regO c.dec.d g.hasFpu := by
    change c.exIn.e.writeReg = _
    rw [he]
    rfl
  constructor <;> simp [loadstore1In, hop, hu, h3, hh, hw]

def first (d : Decode1ToDecode2) : Decode1ToDecode2 := { d with second := false }

/-- The parts of a quadword load. -/
def IsFirst (d d' : Decode1ToDecode2) : Prop :=
  d.second = false ∧ d' = { d with second := true, regC := d'.regC }

theorem IsFirst.repeat_eq {d d' : Decode1ToDecode2} (h : IsFirst d d') :
    d'.decode.repeat_ = d.decode.repeat_ := by rw [h.2]

theorem IsFirst.regO_eq {d d' : Decode1ToDecode2} (h : IsFirst d d')
    (hq : d.decode.repeat_ = .drtp) (hasFpu : Bool) :
    regO (first d') hasFpu = regO d hasFpu := by
  obtain ⟨hd, hd'⟩ := h
  rw [hd']
  simp [regO, first, oddPart, hq, hd]

variable {d : Decode1ToDecode2} {s : State} {i : Inputs}

theorem first_of_not_second (h : d.second = false) : first d = d := by
  cases d
  simp_all [first]

/-! ### The invariant -/

structure Inv (g : Decode2.Generics) (t : Tracked) : Prop where
  base : LoadStore.Inv g.hasFpu t.ls
  /-- A request of stage 1 has been sent, or stage 1 is busy. -/
  sent : t.ls.ls.r1.req.dcReq = true →
    t.ls.ls.r1.req.valid = true ∧ (t.ls.ls.r1.issued || t.ls.ls.r1.busy) = true
  /-- The stages hold the requests of their instructions. -/
  req1 : t.ls.ls.r1.req.valid = true → t.d1.decode.repeat_ = .drtp → IsQuad g t.d1 t.ls.ls.r1.req
  req2 : (t.ls.waiting || t.ls.ls.r2.req.valid) = true → t.d2.decode.repeat_ = .drtp →
    IsQuad g t.d2 t.ls.ls.r2.req
  hash : t.ls.waiting = true → t.ls.ls.r2.req.hashcmp = true → t.ls.ls.r2.busy = true
  /-- A first part is in stage 1, or it has gone on to stage 2. -/
  half : t.half = true → t.d1.second = false ∧ (t.ls.ls.r1.req.valid = true ∨ t.d2 = t.d1)
  /-- A second part follows its first part. -/
  pair : t.ls.ls.r1.req.valid = true → t.d1.decode.repeat_ = .drtp → t.d1.second = true →
    t.ls.ls.r1.req.dwordIndex = false → IsFirst t.d2 t.d1
  /-- The second request of an instruction follows its first request. -/
  index : t.ls.ls.r1.req.dwordIndex = true → t.ls.ls.r1.req.incomplete = false
  same : t.ls.ls.r1.req.valid = true → t.ls.ls.r1.req.dwordIndex = true → t.d2 = t.d1
  dword : t.ls.ls.r1.req.valid = true → t.ls.ls.r1.req.dwordIndex = true →
    t.d1.decode.repeat_ = .drtp →
      t.wrote = false ∧ (t.ls.waiting = true → t.ls.ls.r2.req.incomplete = true)
  /-- The registers that have been written. -/
  written : t.d2.decode.repeat_ = .drtp → ∀ R ∈ t.written,
    R = regO (first t.d2) g.hasFpu ∨ (t.d2.second = true ∧ t.wrote = true)
  unwritten : t.d2.decode.repeat_ = .drtp → t.d2.second = false → t.wrote = false → t.written = []
  /-- After an instruction has written its register nothing more is asked for it. -/
  calm : t.wrote = true → t.d2.decode.repeat_ = .drtp →
    t.ls.waiting = false ∧ t.ls.ls.r3.state = .idle ∧
      (t.ls.ls.r2.req.valid = true → t.ls.ls.r2.req.alignIntr = false)
  intr : t.ls.ls.r3.interrupt = true → t.d2.decode.repeat_ = .drtp → t.wrote = false

theorem Inv.init (h : Start g t) : Inv g t := by
  obtain ⟨⟨s, i, hrst, hls⟩, hw, -⟩ := h.base
  have hdc : t.ls.ls.r1.req.dcReq = false := by simp [hls, LoadStore.step, hrst, Stage1.reset]
  have hv1 : t.ls.ls.r1.req.valid = false := by simp [hls, LoadStore.step, hrst, Stage1.reset]
  have hinc : t.ls.ls.r1.req.incomplete = false := by
    simp [hls, LoadStore.step, hrst, Stage1.reset]
  have hv2 : t.ls.ls.r2.req.valid = false := by simp [hls, LoadStore.step, hrst, Stage2.reset]
  have hint : t.ls.ls.r3.interrupt = false := by simp [hls, LoadStore.step, hrst, Stage3.reset]
  refine ⟨LoadStore.Inv.init h.base, ?_, ?_, ?_, ?_, ?_, ?_, fun _ => hinc, ?_, ?_, ?_,
    fun _ _ _ => h.written, ?_, ?_⟩
  all_goals simp [hdc, hv1, hv2, hw, hint, h.half, h.wrote, h.written]

/-! ### Stage 1 -/

/-- What stage 2 takes over is never held back. -/
theorem takes_of_advance (henv : Env g t c) (hadv : advance t.ls.ls c.ports = true)
    (hv : t.ls.ls.r1.req.valid = true)
    (hsent : (t.ls.ls.r1.req.dcReq && !t.ls.ls.r1.issued) = false) :
    takes t.ls.ls c.ports = true := by
  have hhold : c.ports.l.e2stall = false := Flag.down henv.base.hold hv
  have : (t.ls.ls.r1.issued || !t.ls.ls.r1.req.dcReq) = true := by
    cases hd : t.ls.ls.r1.req.dcReq <;> cases hi : t.ls.ls.r1.issued <;> simp [hd, hi] at hsent ⊢
  simp [takes, hadv, hhold, hv, this]

/-- A request that is kept for a hash is the same otherwise. -/
theorem IsQuad.nextReq1 (h : IsQuad g d (stage1Req g.hasFpu s i)) :
    IsQuad g d (nextReq1 g.hasFpu s i) := by
  simp only [LoadStore.nextReq1]
  split
  · exact ⟨h.1, h.2, h.3, h.4, h.5, h.6, h.7⟩
  · exact h

@[simp] theorem nextReq1_valid {b : Bool} : (nextReq1 b s i).valid = (stage1Req b s i).valid := by
  simp only [nextReq1]; split <;> rfl

@[simp] theorem nextReq1_dwordIndex {b : Bool} :
    (nextReq1 b s i).dwordIndex = (stage1Req b s i).dwordIndex := by
  simp only [nextReq1]; split <;> rfl

theorem stage1_next (hinv : Inv g t) (henv : Env g t c) (hflush : flush t.ls.ls c.ports = false) :
    -- the same request
    (c.ports.l.valid = false ∧ takes t.ls.ls c.ports = false ∧ (step g t c).d1 = t.d1 ∧
        (step g t c).ls.ls.r1.req.valid = t.ls.ls.r1.req.valid ∧
        (step g t c).ls.ls.r1.req.dwordIndex = t.ls.ls.r1.req.dwordIndex ∧
        (step g t c).ls.ls.r1.req.incomplete = t.ls.ls.r1.req.incomplete ∧
        ∀ d, IsQuad g d t.ls.ls.r1.req → IsQuad g d (step g t c).ls.ls.r1.req) ∨
      -- a new instruction
      (c.ports.l.valid = true ∧ (t.ls.ls.r1.req.valid = true → takes t.ls.ls c.ports = true) ∧
        (step g t c).d1 = c.dec.d ∧ (step g t c).ls.ls.r1.req.valid = true ∧
        (step g t c).ls.ls.r1.req.dwordIndex = false ∧
        (c.dec.d.decode.repeat_ = .drtp → IsQuad g c.dec.d (step g t c).ls.ls.r1.req)) ∨
      -- the second request of the same instruction
      (c.ports.l.valid = false ∧
        (t.ls.ls.r1.req.valid = true → takes t.ls.ls c.ports = true) ∧ (step g t c).d1 = t.d1 ∧
        t.ls.ls.r1.req.incomplete = true ∧
        (step g t c).ls.ls.r1.req.valid = t.ls.ls.r1.req.valid ∧
        (step g t c).ls.ls.r1.req.dwordIndex = true ∧
        (step g t c).ls.ls.r1.req.incomplete = false ∧
        ∀ d, IsQuad g d t.ls.ls.r1.req → IsQuad g d (step g t c).ls.ls.r1.req) ∨
      -- nothing, or the dummy request of a single precision load
      (c.ports.l.valid = false ∧
        (t.ls.ls.r1.req.valid = true → takes t.ls.ls c.ports = true) ∧ (step g t c).d1 = t.d1 ∧
        (step g t c).ls.ls.r1.req.incomplete = false ∧
        ((step g t c).ls.ls.r1.req.valid = true → t.ls.ls.r1.req.valid = true ∧
          t.ls.ls.r1.req.loadSp = true ∧
          (step g t c).ls.ls.r1.req.dwordIndex = t.ls.ls.r1.req.dwordIndex)) := by
  have hr1 : (step g t c).ls.ls.r1 = r1in g.hasFpu t.ls.ls c.ports := rfl
  have hd1 : (step g t c).d1 =
      if !t.ls.ls.r1.busy && c.ports.l.valid then c.dec.d else t.d1 := rfl
  rw [hr1, hd1]
  cases hadv : advance t.ls.ls c.ports with
  | false =>
    have hv : c.ports.l.valid = false :=
      Flag.down (fun hv => (henv.base.advance_of_valid hv).1) hadv
    have hreq : (r1in g.hasFpu t.ls.ls c.ports).req = t.ls.ls.r1.req := by
      simp [r1in, hflush, hadv]
    exact .inl ⟨hv, by simp [takes, hadv], by simp [hv], by rw [hreq], by rw [hreq],
      by rw [hreq], fun d h => hreq ▸ h⟩
  | true =>
    have hreq : (r1in g.hasFpu t.ls.ls c.ports).req = nextReq1 g.hasFpu t.ls.ls c.ports := by
      simp [r1in, hflush, hadv]
    rw [hreq, nextReq1_valid, nextReq1_dwordIndex, nextReq1_incomplete]
    cases hbusy : t.ls.ls.r1.busy with
    | false =>
      have hs1 := stage1Req_of_free g.hasFpu t.ls.ls c.ports hbusy
      have hsent : (t.ls.ls.r1.req.dcReq && !t.ls.ls.r1.issued) = false := by
        have := hinv.sent
        cases hd : t.ls.ls.r1.req.dcReq with
        | false => rfl
        | true => simpa [hbusy] using (this hd).2
      have htakes := fun hv => takes_of_advance henv hadv hv hsent
      cases hv : c.ports.l.valid with
      | true =>
        refine .inr (.inl ⟨rfl, htakes, by simp, by simp [hs1, hv], ?_, fun hq => ?_⟩)
        · rw [hs1]; rfl
        · refine IsQuad.nextReq1 ?_
          have h := isQuad_reqIn henv hv hq (a := t.ls.ls.r1.addr0)
          rw [hs1]
          exact ⟨h.1, h.2, h.3, h.4, h.5, h.6, h.7⟩
      | false =>
        refine .inr (.inr (.inr ⟨rfl, htakes, by simp, ?_, fun h => ?_⟩))
        · rw [hs1]
          simp [reqIn, loadstore1In, hv]
        · rw [hs1] at h
          rw [show c.ports.l.valid = true from h] at hv
          cases hv
    | true =>
      have hv : c.ports.l.valid = false :=
        Flag.down (fun hv => (henv.base.advance_of_valid hv).2) hbusy
      rcases stage1Req_of_busy g.hasFpu t.ls.ls c.ports hbusy with
        ⟨hre, hs1⟩ | ⟨hre, hinc, hs1⟩ | ⟨hre, hinc, hs1⟩
      · have hvalid := (hinv.sent (and_eq_true_iff.mp hre).1).1
        have hno : takes t.ls.ls c.ports = false := by
          simp only [and_eq_true, not_eq_true'] at hre
          simp [takes, hvalid, hre]
        refine .inl ⟨hv, hno, by simp, by rw [hs1], by rw [hs1], by rw [hs1],
          fun d h => IsQuad.nextReq1 ?_⟩
        rw [hs1]
        exact h
      · have htakes := fun hv => takes_of_advance henv hadv hv hre
        refine .inr (.inr (.inl ⟨hv, htakes, by simp, hinc, by rw [hs1]; rfl,
          by rw [hs1]; rfl, by rw [hs1]; rfl, fun d h => IsQuad.nextReq1 ?_⟩))
        rw [hs1]
        exact ⟨h.1, h.2, h.3, h.4, h.5, h.6, h.7⟩
      · have htakes := fun hv => takes_of_advance henv hadv hv hre
        refine .inr (.inr (.inr ⟨hv, htakes, by simp, by rw [hs1]; exact hinc, fun h => ?_⟩))
        rw [hs1] at h ⊢
        simp only [and_eq_true] at h
        exact ⟨h.2, h.1, rfl⟩

theorem sent_step (hinv : Inv g t) (hdc : (step g t c).ls.ls.r1.req.dcReq = true) :
    (step g t c).ls.ls.r1.req.valid = true ∧
      ((step g t c).ls.ls.r1.issued || (step g t c).ls.ls.r1.busy) = true := by
  have hr1 : (step g t c).ls.ls.r1 = r1in g.hasFpu t.ls.ls c.ports := rfl
  rw [hr1] at hdc ⊢
  cases hflush : flush t.ls.ls c.ports with
  | true => simp [r1in, hflush] at hdc
  | false =>
    cases hadv : advance t.ls.ls c.ports with
    | false =>
      have hold : t.ls.ls.r1.req.dcReq = true := by simpa [r1in, hflush, hadv] using hdc
      obtain ⟨hv, hs⟩ := hinv.sent hold
      refine ⟨by simpa [r1in, hflush, hadv] using hv, ?_⟩
      simp only [r1in, hflush, hadv, false_eq_true, if_false]
      split
      · simp
      · exact hs
    | true =>
      have hdc1 : (stage1Req g.hasFpu t.ls.ls c.ports).dcReq = true := by
        simpa [r1in, hflush, hadv] using hdc
      have hreq : (stage1Req g.hasFpu t.ls.ls c.ports).valid = true ∧
          issue g.hasFpu t.ls.ls c.ports = true := by
        cases hbusy : t.ls.ls.r1.busy with
        | false =>
          have hlv : c.ports.l.valid = true := by
            simp only [stage1Req, hbusy, Bool.not_false, if_true, and_eq_true] at hdc1
            exact (Op.request_dcReq (o := t.ls.ls.presented c.ports) hdc1.1).1
          refine ⟨by simpa [stage1Req, hbusy] using hlv, ?_⟩
          simp [issue, hbusy, hlv, hdc1]
        | true =>
          rcases stage1Req_of_busy g.hasFpu t.ls.ls c.ports hbusy with
            ⟨hre, hs⟩ | ⟨hre, hinc, hs⟩ | ⟨-, -, hs⟩ <;> rw [hs] at hdc1 ⊢
          · exact ⟨(hinv.sent hdc1).1, by simp [issue, hbusy, hre]⟩
          · exact ⟨(hinv.sent hdc1).1, by simp [issue, hbusy, hinc]⟩
          · cases hdc1
      refine ⟨by simpa [r1in, hflush, hadv] using hreq.1, ?_⟩
      simp only [r1in, hflush, hadv, issueFinal, false_eq_true, if_false, if_true]
      cases hh : hashIssue g.hasFpu t.ls.ls c.ports with
      | true => simp
      | false => simp [hreq.2]

/-! ### Stage 2 -/

variable (hinv : Inv g t) (hflush : flush t.ls.ls c.ports = false) (henv : Env g t c)
  (hq : t.d2.decode.repeat_ = .drtp) (henter : t.enters c = false)

include hinv henv hq in
/-- A part of a quadword load writes its register when its last doubleword arrives. -/
theorem writes_of_drtp (hw : t.writes c = true) :
    c.ports.d.valid = true ∧ t.ls.waiting = true ∧ t.ls.ls.r2.req.incomplete = false ∧
      (lOut t.ls.ls c.ports).writeReg = regO t.d2 g.hasFpu := by
  have hw' : (writeEnable t.ls.ls c.ports || doUpdate t.ls.ls c.ports) = true := hw
  have hlast : (c.ports.d.valid && !t.ls.ls.r2.req.incomplete) = true := by
    by_contra hne
    rw [not_eq_true] at hne
    simp only [writeEnable, doUpdate, hne, false_eq_true, if_false] at hw'
    have hv : t.ls.ls.r2.req.valid = true := by
      rcases or_eq_true_iff.mp hw' with h | h
      · exact (and_eq_true_iff.mp h).1
      · exact (and_eq_true_iff.mp h).1
    have hr := hinv.req2 (by simp [hv]) hq
    simp [hr.readSpr, hr.loadSp, hr.doUpdate] at hw'
  simp only [and_eq_true, not_eq_true'] at hlast
  have hwait := (henv.base.answer hlast.1).1
  exact ⟨hlast.1, hwait, hlast.2, (hinv.req2 (by simp [hwait]) hq).writeReg⟩

/-- Stage 2 does not move while a hash is checked. -/
theorem not_takes_of_hashchkTrap (hinv : Inv g t) (henv : Env g t c)
    (h : hashchkTrap t.ls.ls c.ports = true) : takes t.ls.ls c.ports = false := by
  simp only [hashchkTrap, and_eq_true] at h
  have hbusy := hinv.hash (henv.base.answer h.1.1).1 h.1.2
  simp [takes, advance, hbusy]

theorem r2_step : (step g t c).ls.ls.r2 = r2in t.ls.ls c.ports := rfl

theorem waiting_step : (step g t c).ls.waiting =
    if flush t.ls.ls c.ports then false
    else if takes t.ls.ls c.ports then
      t.ls.ls.r1.req.valid && t.ls.ls.r1.req.dcReq && !t.ls.ls.r1.req.mmuOp
    else t.ls.waiting && !c.ports.d.valid := rfl

theorem req2_step (hinv : Inv g t) (henv : Env g t c)
    (hv : ((step g t c).ls.waiting || (step g t c).ls.ls.r2.req.valid) = true)
    (hq : (step g t c).d2.decode.repeat_ = .drtp) :
    IsQuad g (step g t c).d2 (step g t c).ls.ls.r2.req := by
  have hd2 : (step g t c).d2 = if t.enters c then t.d1 else t.d2 := rfl
  rw [waiting_step, r2_step] at hv
  rw [r2_step]
  cases htk : takes t.ls.ls c.ports with
  | true =>
    have hv1 : t.ls.ls.r1.req.valid = true := by
      by_contra hne
      rw [not_eq_true] at hne
      simp [htk, hne, r2in, nextReq2, takenReq] at hv
    have hnf : flush t.ls.ls c.ports = false := by
      by_contra hne
      rw [not_eq_false] at hne
      -- only a failed hash check leaves the stage valid, and then it does not move
      have hint : interrupt2 t.ls.ls c.ports = false := by
        by_contra hi
        rw [not_eq_false] at hi
        simp [hne, r2in, hi] at hv
      have htrap : hashchkTrap t.ls.ls c.ports = true := by
        simp only [interrupt2, or_eq_false_iff] at hint
        simpa [flush, hint] using hne
      rw [not_takes_of_hashchkTrap hinv henv htrap] at htk
      cases htk
    have hd : (step g t c).d2 = t.d1 := by
      rw [hd2]
      cases hidx : t.ls.ls.r1.req.dwordIndex with
      | false => simp [Tracked.enters, htk, hv1, hidx, hnf]
      | true => simp [Tracked.enters, hidx, hinv.same hv1 hidx]
    rw [hd] at hq ⊢
    have h := hinv.req1 hv1 hq
    simp only [r2in, nextReq2, htk, if_true]
    exact ⟨h.1, h.2, h.3, h.4, h.5, h.6, h.7⟩
  | false =>
    have hd : (step g t c).d2 = t.d2 := by simp [hd2, Tracked.enters, htk]
    rw [hd] at hq ⊢
    have hold : (t.ls.waiting || t.ls.ls.r2.req.valid) = true := by
      rcases or_eq_true_iff.mp hv with h | h
      · split at h
        · cases h
        · simp [htk] at h
          simp [h.1]
      · simp [r2in, nextReq2, htk] at h
        simp [h.1]
    have h := hinv.req2 hold hq
    simp only [r2in, nextReq2, htk, false_eq_true, if_false]
    exact ⟨h.1, h.2, h.3, h.4, h.5, h.6, h.7⟩

theorem hash_step (hinv : Inv g t) (hw : (step g t c).ls.waiting = true)
    (hh : (step g t c).ls.ls.r2.req.hashcmp = true) : (step g t c).ls.ls.r2.busy = true := by
  rw [waiting_step] at hw
  rw [r2_step] at hh ⊢
  split at hw
  · cases hw
  · next hflush =>
    have hint := interrupt2_of_not_flush (by simpa using hflush)
    cases htk : takes t.ls.ls c.ports with
    | true =>
      obtain ⟨-, herr, hbusy⟩ := advance_iff.mp (advance_of_takes htk)
      have hmmu : t.ls.ls.r2.waitMmu = false := Flag.down hinv.base.waitMmu hbusy
      have hv1 : t.ls.ls.r1.req.valid = true := by
        simp only [htk, if_true, and_eq_true] at hw
        exact hw.1.1
      have hh1 : t.ls.ls.r1.req.hashcmp = true := by
        simpa [r2in, nextReq2, htk, takenReq] using hh
      simp [r2in, hint, herr, hbusy, mmuOpDone, hmmu, htk, slowReq, hv1, hh1]
    | false =>
      simp only [htk, false_eq_true, if_false, and_eq_true, not_eq_true'] at hw
      have hh2 : t.ls.ls.r2.req.hashcmp = true := by simpa [r2in, nextReq2, htk] using hh
      have hbusy := hinv.hash hw.1 hh2
      simp [r2in, hint, hh2, hw.2, mmuOpDone, (hinv.base.align2 hw.1).2, htk, hbusy]

include hinv henv hq in
/-- Once the register is written, nothing is asked any more, or the answer has just come. -/
theorem quiet_of_wrote (hw : (t.wrote || t.writes c) = true) :
    (t.ls.waiting = false ∨ c.ports.d.valid = true) ∧ t.ls.ls.r3.state = .idle ∧
      c.ports.d.error = false ∧
      (t.ls.ls.r2.req.valid = true → t.ls.ls.r2.req.alignIntr = false) := by
  rcases or_eq_true_iff.mp hw with h | h
  · obtain ⟨hwait, hidle, halign⟩ := hinv.calm h hq
    refine ⟨.inl hwait, hidle, ?_, halign⟩
    exact Flag.down (fun he => (henv.base.error he).1) hwait
  · obtain ⟨hv, hwait, -, -⟩ := writes_of_drtp hinv henv hq h
    obtain ⟨-, herr, hidle⟩ := henv.base.answer hv
    exact ⟨.inr hv, hidle, herr, fun _ => (hinv.base.align2 hwait).1⟩

include hinv henv hq in
/-- An instruction that has written its register is not interrupted. -/
theorem not_flush_of_wrote (hw : (t.wrote || t.writes c) = true) :
    flush t.ls.ls c.ports = false := by
  obtain ⟨-, hidle, herr, halign⟩ := quiet_of_wrote hinv henv hq hw
  have hmmu : c.ports.m.err = false := by
    by_contra he
    rw [not_eq_false] at he
    rw [(henv.base.mmu (by simp [he])).2] at hidle
    cases hidle
  have hhash : hashchkTrap t.ls.ls c.ports = false := by
    by_contra he
    rw [not_eq_false] at he
    simp only [hashchkTrap, and_eq_true] at he
    have hwait := (henv.base.answer he.1.1).1
    rw [(hinv.req2 (by simp [hwait]) hq).hashcmp] at he
    cases he.1.2
  have halign' : (t.ls.ls.r2.req.valid && t.ls.ls.r2.req.alignIntr) = false := by
    cases hv : t.ls.ls.r2.req.valid with
    | false => rfl
    | true => simp [halign hv]
  simp [flush, hhash, halign', dcacheIntr, herr, hmmu]

include hinv henv hq henter in
/-- When the register is written, the second request of the instruction is not in stage 1. -/
theorem stage1_empty_of_wrote (hw : (t.wrote || t.writes c) = true)
    (htk : takes t.ls.ls c.ports = true) : t.ls.ls.r1.req.valid = false := by
  by_contra hv1
  rw [not_eq_false] at hv1
  have hflush := not_flush_of_wrote hinv henv hq hw
  have hidx : t.ls.ls.r1.req.dwordIndex = true := by
    simpa [Tracked.enters, htk, hv1, hflush] using henter
  obtain ⟨hno, hinc⟩ := hinv.dword hv1 hidx (hinv.same hv1 hidx ▸ hq)
  rw [hno, Bool.false_or] at hw
  obtain ⟨-, hwait, hlast, -⟩ := writes_of_drtp hinv henv hq hw
  rw [hinc hwait] at hlast
  cases hlast

include hinv henv hq henter in
/-- Nothing more is asked for an instruction that has written its register. -/
theorem calm_step (hw : (t.wrote || t.writes c) = true) :
    (step g t c).ls.waiting = false ∧ (step g t c).ls.ls.r3.state = .idle ∧
      ((step g t c).ls.ls.r2.req.valid = true →
        (step g t c).ls.ls.r2.req.alignIntr = false) := by
  have hflush := not_flush_of_wrote hinv henv hq hw
  have hempty := stage1_empty_of_wrote hinv henv hq henter hw
  obtain ⟨hcalm, hidle, herr, halign⟩ := quiet_of_wrote hinv henv hq hw
  refine ⟨?_, ?_, ?_⟩
  · rw [waiting_step, hflush]
    cases htk : takes t.ls.ls c.ports with
    | true => simp [hempty htk]
    | false =>
      rcases hcalm with h | h
      · simp [h]
      · simp [h]
  · have hst : (step g t c).ls.ls.r3.state =
        if c.ports.m.done || c.ports.m.err then .idle
        else if dcacheMiss t.ls.ls c.ports || mmuOpStart t.ls.ls then .mmuWait
        else t.ls.ls.r3.state := rfl
    have hstart : mmuOpStart t.ls.ls = false := by
      have hop : (t.ls.ls.r2.req.valid && t.ls.ls.r2.req.mmuOp) = false := by
        cases hv : t.ls.ls.r2.req.valid with
        | false => rfl
        | true => simp [(hinv.req2 (by simp [hv]) hq).mmuOp]
      rw [mmuOpStart, Bool.and_assoc, hop, Bool.and_false]
    rw [hst, hstart]
    simp [dcacheMiss, herr, hidle]
  · rw [r2_step]
    intro hv
    cases htk : takes t.ls.ls c.ports with
    | false =>
      have hv2 : t.ls.ls.r2.req.valid = true := by
        simp only [r2in, nextReq2, htk, false_eq_true, if_false, and_eq_true] at hv
        exact hv.1.1.1
      simpa [r2in, nextReq2, htk] using halign hv2
    | true => simp [r2in, nextReq2, htk, takenReq, hempty htk] at hv

/-! ### One clock edge -/

include hinv hflush in
theorem d2_step_of_takes (htk : takes t.ls.ls c.ports = true) (hv : t.ls.ls.r1.req.valid = true) :
    (step g t c).d2 = t.d1 := by
  have hd2 : (step g t c).d2 = if t.enters c then t.d1 else t.d2 := rfl
  rw [hd2]
  cases hidx : t.ls.ls.r1.req.dwordIndex with
  | false => simp [Tracked.enters, htk, hv, hidx, hflush]
  | true => simp [Tracked.enters, hidx, hinv.same hv hidx]

theorem d2_step_of_not_takes (h : takes t.ls.ls c.ports = false) : (step g t c).d2 = t.d2 := by
  simp [step, Tracked.enters, h]

include hinv hflush in
theorem d2_step_of_half (hh : t.half = true)
    (htk : t.ls.ls.r1.req.valid = true → takes t.ls.ls c.ports = true) :
    (step g t c).d2 = t.d1 := by
  rcases (hinv.half hh).2 with hv | hd
  · exact d2_step_of_takes hinv hflush (htk hv) hv
  · have hd2 : (step g t c).d2 = if t.enters c then t.d1 else t.d2 := rfl
    rw [hd2, hd, ite_self]

theorem half_step (hinv : Inv g t) (henv : Env g t c)
    (hflush : flush t.ls.ls c.ports = false) (hh : (step g t c).half = true) :
    (step g t c).d1.second = false ∧
      ((step g t c).ls.ls.r1.req.valid = true ∨ (step g t c).d2 = (step g t c).d1) := by
  have hhalf : (step g t c).half =
      if c.ports.l.valid then !c.dec.d.second && c.dec.d.decode.repeat_ != .none else t.half := by
    simp [step, hflush]
  rw [hhalf] at hh
  rcases stage1_next hinv henv hflush with ⟨hlv, htk, hd1, hv, -⟩ | ⟨hlv, -, hd1, hv, -⟩ |
    ⟨hlv, htk, hd1, -, hv, -⟩ | ⟨hlv, htk, hd1, -, -⟩
  · rw [hlv] at hh
    obtain ⟨hs, hor⟩ := hinv.half hh
    rw [hd1, hv, d2_step_of_not_takes htk]
    exact ⟨hs, hor⟩
  · rw [hlv] at hh
    simp only [if_true, and_eq_true, not_eq_true'] at hh
    exact ⟨hd1 ▸ hh.1, .inl hv⟩
  · rw [hlv] at hh
    rw [hd1]
    exact ⟨(hinv.half hh).1, .inr (d2_step_of_half hinv hflush hh htk)⟩
  · rw [hlv] at hh
    rw [hd1]
    exact ⟨(hinv.half hh).1, .inr (d2_step_of_half hinv hflush hh htk)⟩

theorem pair_step (hinv : Inv g t) (henv : Env g t c) (hflush : flush t.ls.ls c.ports = false)
    (hv' : (step g t c).ls.ls.r1.req.valid = true) (hq : (step g t c).d1.decode.repeat_ = .drtp)
    (hs : (step g t c).d1.second = true) (hidx : (step g t c).ls.ls.r1.req.dwordIndex = false) :
    IsFirst (step g t c).d2 (step g t c).d1 := by
  rcases stage1_next hinv henv hflush with ⟨-, htk, hd1, hv, hi, -⟩ |
    ⟨hlv, htk, hd1, -, -⟩ | ⟨-, -, -, -, -, hi, -⟩ | ⟨-, -, hd1, -, hdummy⟩
  · rw [hd1] at hq hs ⊢
    rw [hv] at hv'
    rw [hi] at hidx
    rw [d2_step_of_not_takes htk]
    exact hinv.pair hv' hq hs hidx
  · rw [hd1] at hs ⊢
    obtain ⟨hh, hd⟩ := henv.pair hlv hs
    rw [d2_step_of_half hinv hflush hh htk]
    exact ⟨(hinv.half hh).1, hd⟩
  · rw [hi] at hidx; cases hidx
  · rw [hd1] at hq
    obtain ⟨hv, hsp, -⟩ := hdummy hv'
    rw [(hinv.req1 hv hq).loadSp] at hsp
    cases hsp

theorem dword_step (hinv : Inv g t) (henv : Env g t c)
    (hflush : flush t.ls.ls c.ports = false) (hv' : (step g t c).ls.ls.r1.req.valid = true)
    (hidx : (step g t c).ls.ls.r1.req.dwordIndex = true) :
    (step g t c).d2 = (step g t c).d1 ∧ ((step g t c).d1.decode.repeat_ = .drtp →
      (step g t c).wrote = false ∧
        ((step g t c).ls.waiting = true → (step g t c).ls.ls.r2.req.incomplete = true)) := by
  have hwr : (step g t c).wrote = (!t.enters c && (t.wrote || t.writes c)) := rfl
  rcases stage1_next hinv henv hflush with ⟨-, htk, hd1, hv, hi, -⟩ |
    ⟨-, -, -, -, hi, -⟩ | ⟨-, htk, hd1, hinc, hv, -⟩ | ⟨-, htk, hd1, -, hdummy⟩
  · rw [hv] at hv'
    rw [hi] at hidx
    have hd := hinv.same hv' hidx
    rw [d2_step_of_not_takes htk, hd1]
    refine ⟨hd, fun hq => ?_⟩
    obtain ⟨hno, hwait⟩ := hinv.dword hv' hidx hq
    have hnw : t.writes c = false := by
      by_contra hw
      obtain ⟨-, hw1, hlast, -⟩ := writes_of_drtp hinv henv (hd ▸ hq) (by simpa using hw)
      rw [hwait hw1] at hlast
      cases hlast
    refine ⟨by simp [hwr, hno, hnw], fun hw => ?_⟩
    rw [waiting_step, hflush, htk] at hw
    simp only [false_eq_true, if_false, and_eq_true] at hw
    rw [r2_step]
    simpa [r2in, nextReq2, htk] using hwait hw.1
  · rw [hi] at hidx; cases hidx
  · rw [hv] at hv'
    have htk' := htk hv'
    rw [d2_step_of_takes hinv hflush htk' hv', hd1]
    refine ⟨rfl, fun _ => ⟨?_, fun _ => ?_⟩⟩
    · have hi1 : t.ls.ls.r1.req.dwordIndex = false := Flag.down hinv.index hinc
      simp [hwr, Tracked.enters, htk', hv', hi1, hflush]
    · rw [r2_step]
      simpa [r2in, nextReq2, htk', takenReq] using hinc
  · obtain ⟨hv, hsp, hi⟩ := hdummy hv'
    rw [d2_step_of_takes hinv hflush (htk hv) hv, hd1]
    refine ⟨rfl, fun hq => ?_⟩
    rw [(hinv.req1 hv hq).loadSp] at hsp
    cases hsp

theorem written_step (hinv : Inv g t) (henv : Env g t c)
    (hq : (step g t c).d2.decode.repeat_ = .drtp) :
    (∀ R ∈ (step g t c).written, R = regO (first (step g t c).d2) g.hasFpu ∨
        ((step g t c).d2.second = true ∧ (step g t c).wrote = true)) ∧
      ((step g t c).d2.second = false → (step g t c).wrote = false →
        (step g t c).written = []) := by
  have hwr : (step g t c).wrote = (!t.enters c && (t.wrote || t.writes c)) := rfl
  have hd2 : (step g t c).d2 = if t.enters c then t.d1 else t.d2 := rfl
  have hlist : (step g t c).written =
      if t.enters c && !t.d1.second then []
      else t.written ++ if t.writes c then [(lOut t.ls.ls c.ports).writeReg] else [] := rfl
  rw [hlist, hwr]
  cases hent : t.enters c with
  | true =>
    rw [hd2, hent] at hq ⊢
    simp only [if_true] at hq ⊢
    cases hs : t.d1.second with
    | false => simp
    | true =>
      -- the second part comes in; what has been written is the register of the first part
      simp only [Tracked.enters, and_eq_true, not_eq_true'] at hent
      have hpair := hinv.pair hent.1.1.2 hq hs hent.1.2
      have hq2 : t.d2.decode.repeat_ = .drtp := hpair.repeat_eq ▸ hq
      have hfirst := hpair.regO_eq hq2 g.hasFpu
      refine ⟨fun R hR => .inl ?_, fun h => by cases h⟩
      rw [hfirst]
      simp only [Bool.not_true, Bool.and_false, false_eq_true, if_false,
        List.mem_append] at hR
      rcases hR with hR | hR
      · rcases hinv.written hq2 R hR with h | h
        · rw [h, first_of_not_second hpair.1]
        · rw [hpair.1] at h; cases h.1
      · cases hw : t.writes c with
        | false => simp [hw] at hR
        | true =>
          simp only [hw, if_true, List.mem_singleton] at hR
          rw [hR, (writes_of_drtp hinv henv hq2 hw).2.2.2]
  | false =>
    rw [hd2, hent] at hq ⊢
    simp only [false_eq_true, if_false] at hq ⊢
    cases hw : t.writes c with
    | false =>
      simp only [Bool.false_and, Bool.or_false, Bool.not_false, Bool.true_and, false_eq_true,
        if_false, List.append_nil]
      exact ⟨hinv.written hq, hinv.unwritten hq⟩
    | true =>
      refine ⟨fun R hR => ?_, fun _ h => by simp at h⟩
      have hreg := (writes_of_drtp hinv henv hq hw).2.2.2
      cases hs : t.d2.second with
      | true => exact .inr ⟨rfl, by simp⟩
      | false =>
        left
        simp only [Bool.false_and, false_eq_true, if_false, if_true, List.mem_append,
          List.mem_singleton] at hR
        rcases hR with hR | hR
        · rcases hinv.written hq R hR with h | h
          · exact h
          · rw [hs] at h; cases h.1
        · rw [hR, hreg, first_of_not_second hs]

theorem Inv.step (hinv : Inv g t) (henv : Env g t c) : Inv g (step g t c) := by
  have hbase : LoadStore.Inv g.hasFpu (Quadword.step g t c).ls := hinv.base.step henv.base
  have hwr : (Quadword.step g t c).wrote = (!t.enters c && (t.wrote || t.writes c)) := rfl
  have hd2 : (Quadword.step g t c).d2 = if t.enters c then t.d1 else t.d2 := rfl
  -- an instruction that has written its register is still in stage 2
  have hstay : (Quadword.step g t c).wrote = true →
      t.enters c = false ∧ (t.wrote || t.writes c) = true ∧
        (Quadword.step g t c).d2 = t.d2 := by
    intro h
    rw [hwr, and_eq_true, not_eq_true'] at h
    exact ⟨h.1, h.2, by rw [hd2, h.1]; rfl⟩
  have hcalm : (Quadword.step g t c).wrote = true →
      (Quadword.step g t c).d2.decode.repeat_ = .drtp → _ := fun h hq => by
    obtain ⟨he, hw, hd⟩ := hstay h
    exact calm_step hinv henv (hd ▸ hq) he hw
  have hintr : (Quadword.step g t c).ls.ls.r3.interrupt = true →
      (Quadword.step g t c).d2.decode.repeat_ = .drtp →
        (Quadword.step g t c).wrote = false := by
    intro hi hq
    by_contra h
    obtain ⟨-, hw, hd⟩ := hstay (by simpa using h)
    have hi' : flush t.ls.ls c.ports = true := hi
    rw [not_flush_of_wrote hinv henv (hd ▸ hq) hw] at hi'
    cases hi'
  cases hflush : flush t.ls.ls c.ports with
  | true =>
    -- stage 1 is emptied
    have hr1 : (Quadword.step g t c).ls.ls.r1.req =
        { t.ls.ls.r1.req with valid := false, dcReq := false, incomplete := false } := by
      change (r1in g.hasFpu t.ls.ls c.ports).req = _
      simp [r1in, hflush]
    have hv1 : (Quadword.step g t c).ls.ls.r1.req.valid = false := by rw [hr1]
    have hhalf : (Quadword.step g t c).half = false := by simp [Quadword.step, hflush]
    refine ⟨hbase, sent_step hinv, ?_, req2_step hinv henv, hash_step hinv, ?_, ?_, ?_, ?_, ?_,
      fun hq => (written_step hinv henv hq).1, fun hq => (written_step hinv henv hq).2, hcalm,
      hintr⟩
    · intro hv; rw [hv1] at hv; cases hv
    · intro hh; rw [hhalf] at hh; cases hh
    · intro hv; rw [hv1] at hv; cases hv
    · intro _; rw [hr1]
    · intro hv; rw [hv1] at hv; cases hv
    · intro hv; rw [hv1] at hv; cases hv
  | false =>
    refine ⟨hbase, sent_step hinv, ?_, req2_step hinv henv, hash_step hinv,
      half_step hinv henv hflush, pair_step hinv henv hflush, ?_,
      fun hv hi => (dword_step hinv henv hflush hv hi).1,
      fun hv hi => (dword_step hinv henv hflush hv hi).2,
      fun hq => (written_step hinv henv hq).1, fun hq => (written_step hinv henv hq).2, hcalm,
      hintr⟩
    · intro hv hq
      rcases stage1_next hinv henv hflush with ⟨-, -, hd1, hv1, -, -, hkeep⟩ |
        ⟨-, -, hd1, -, -, hnew⟩ | ⟨-, -, hd1, -, hv1, -, -, hkeep⟩ | ⟨-, -, hd1, -, hdummy⟩
      · rw [hd1] at hq ⊢
        exact hkeep _ (hinv.req1 (hv1 ▸ hv) hq)
      · rw [hd1] at hq ⊢
        exact hnew hq
      · rw [hd1] at hq ⊢
        exact hkeep _ (hinv.req1 (hv1 ▸ hv) hq)
      · rw [hd1] at hq
        obtain ⟨hv1, hsp, -⟩ := hdummy hv
        rw [(hinv.req1 hv1 hq).loadSp] at hsp
        cases hsp
    · intro hidx
      rcases stage1_next hinv henv hflush with ⟨-, -, -, -, hi, hinc, -⟩ |
        ⟨-, -, -, -, hi, -⟩ | ⟨-, -, -, -, -, -, hinc, -⟩ | ⟨-, -, -, hinc, -⟩
      · rw [hinc]
        exact hinv.index (hi ▸ hidx)
      · rw [hi] at hidx; cases hidx
      · exact hinc
      · exact hinc

/-! ### Restarting -/

theorem gprToGspr_ne {m n : BitVec 5} (h : m ≠ n) : gprToGspr m ≠ gprToGspr n := by
  revert m n
  decide +kernel

theorem gprToGspr_odd {n : BitVec 5} (h : n.getLsbD 0 = false) :
    gprToGspr n ||| 1 = gprToGspr (n + 1) := by
  revert n
  decide

/-- The register that the first part of a quadword load writes: RT+1 in little-endian mode without a
prefix, RT otherwise. -/
theorem regO_first (hq : d.decode.repeat_ = .drtp) (hout : d.decode.outputRegA = .rt)
    (heven : d.insn.getLsbD 21 = false) {hasFpu : Bool} :
    regO (first d) hasFpu =
      gprToGspr (if d.bigEndian || d.prefixed then insnRs d.insn else insnRs d.insn + 1) := by
  have h0 : (insnRs d.insn).getLsbD 0 = false := by
    simpa [insnRs, BitVec.getLsbD_extractLsb'] using heven
  cases hbe : d.bigEndian || d.prefixed with
  | true =>
    simp [regO, first, hq, hout, oddPart, hbe, Decode2.decodeOutputReg]
  | false =>
    simp only [regO, first, hq, hout, oddPart, hbe, Decode2.decodeOutputReg]
    exact gprToGspr_odd h0

theorem row_of_quadword (hasFpu : Bool) {code : InsnCode}
    (h : code = .lq ∨ code = .plq ∨ code = .lqarx) :
    (decodeRom hasFpu code).repeat_ = .drtp ∧ (decodeRom hasFpu code).outputRegA = .rt ∧
      (code = .lqarx → (decodeRom hasFpu code).reserve = true) := by
  rcases h with rfl | rfl | rfl
  · exact ⟨rfl, rfl, fun h => by cases h⟩
  · exact ⟨rfl, rfl, fun h => by cases h⟩
  · exact ⟨rfl, rfl, fun _ => rfl⟩

/-- **Quadword loads are restartable.** In every run, when a legal `lq`, `plq` or `lqarx` is
interrupted in loadstore1, it has written neither RA nor, for `lqarx`, RB; provided that, if it is
the second doubleword that is interrupted, the instruction is big-endian or prefixed, or none of its
operands is RT+1. -/
theorem restartable (h : Reachable (step (x := x) g) (Env g) (Start g) t)
    (hintr : t.ls.ls.r3.interrupt = true) {code : InsnCode}
    (hcode : code = .lq ∨ code = .plq ∨ code = .lqarx)
    (hrow : t.d2.decode = decodeRom g.hasFpu code)
    (hlegal : illegalForm t.d2 = false)
    (hwhen : t.d2.second = true → (t.d2.bigEndian || t.d2.prefixed) = true ∨
      (insnRa t.d2.insn ≠ insnRs t.d2.insn + 1 ∧
        (code = .lqarx → insnRb t.d2.insn ≠ insnRs t.d2.insn + 1))) :
    ∀ R ∈ t.written, R ≠ gprToGspr (insnRa t.d2.insn) ∧
      (code = .lqarx → R ≠ gprToGspr (insnRb t.d2.insn)) := by
  have hinv : Inv g t := h.induct (fun _ => Inv.init) fun _ _ hi he => hi.step he
  obtain ⟨hq, hout, hres⟩ := row_of_quadword g.hasFpu hcode
  rw [← hrow] at hq hout hres
  have hno := hinv.intr hintr hq
  intro R hR
  have hsecond : t.d2.second = true := by
    by_contra hs
    rw [hinv.unwritten hq (by simpa using hs) hno] at hR
    cases hR
  have hfirst : R = regO (first t.d2) g.hasFpu := by
    rcases hinv.written hq R hR with h | h
    · exact h
    · rw [hno] at h; cases h.2
  -- the legal forms
  have hill : insnRa t.d2.insn ≠ insnRs t.d2.insn ∧
      (code = .lqarx → insnRb t.d2.insn ≠ insnRs t.d2.insn) ∧ t.d2.insn.getLsbD 21 = false := by
    simp only [illegalForm, hq, or_eq_false_iff, beq_self_eq_true, Bool.true_and,
      Bool.or_true] at hlegal
    obtain ⟨⟨ha, hb⟩, hodd⟩ := hlegal
    refine ⟨by simpa using ha, fun hc => ?_, hodd⟩
    rw [hres hc, Bool.true_and] at hb
    simpa using hb
  obtain ⟨ha, hb, hodd⟩ := hill
  rw [hfirst, regO_first hq hout hodd]
  rcases hwhen hsecond with hbe | ⟨ha', hb'⟩
  · rw [hbe, if_pos rfl]
    exact ⟨gprToGspr_ne (Ne.symm ha), fun hc => gprToGspr_ne (Ne.symm (hb hc))⟩
  · split
    · exact ⟨gprToGspr_ne (Ne.symm ha), fun hc => gprToGspr_ne (Ne.symm (hb hc))⟩
    · exact ⟨gprToGspr_ne (Ne.symm ha'), fun hc => gprToGspr_ne (Ne.symm (hb' hc))⟩

/-! ### Runs -/

instance (t : Tracked) (c : Cycle x) : Decidable (Env g t c) :=
  decidable_of_iff _ (env_iff ..).symm

def boot : Tracked where
  ls := bootState

theorem start_boot : Start {} boot :=
  ⟨⟨⟨{}, { rst := true }, rfl, rfl⟩, rfl, rfl⟩, rfl, rfl, rfl⟩

/-- Execute1 in privileged mode, with the hash instructions enabled. -/
def exReady : Execute1.State {} where
  ex1 := { msr := Execute1.resetMsr }
  ctrl := { hdexcrHyp := BitVec.allOnes 5 }

/-- An instruction is sent to loadstore1. -/
def send (code : InsnCode) (d : Decode1ToDecode2) (ra rs : BitVec 64)
    (answer : DcacheToLoadstore1) : Cycle {} where
  code := code
  dec := { d := { d with valid := true, decode := decodeRom true code } }
  ex := exReady
  exIn :=
    { e := { freshE {} { d := { d with valid := true, decode := decodeRom true code } } with
        valid := true, readData1 := ra, readData3 := rs } }
  ls := { d := answer }

def reply (answer : DcacheToLoadstore1) : Cycle {} where
  ls := { d := answer }

/-- DAWR0 is set to the doubleword at `0x1008`, for all loads in privileged mode. -/
def setWatchpoint : List (Cycle {}) :=
  [send .mtspr { insn := 0x7cd42ba6 } 0 0x1008 {}, send .mtspr { insn := 0x7cdc2ba6 } 0 0x2c {},
    reply {}, reply {}, reply {}]

/-- A `lq` with `0x1000` in the base register: the first doubleword arrives, the second one is
reported as an error. -/
def lqRun (insn : BitVec 32) : List (Cycle {}) :=
  setWatchpoint ++
    [send .lq { insn := insn } 0x1000 0 {}, send .lq { insn := insn, second := true } 0 0 {},
      reply { valid := true, data := 0x77 }, reply { error := true }]

/-- The base register of `lq 4,0(5)`, which is legal, has been overwritten when the instruction is
interrupted. -/
theorem watchpoint_overwrites :
    ∃ t, Reachable (step (x := {}) {}) (Env {}) (Start {}) t ∧
      t.ls.ls.r3.interrupt = true ∧ t.ls.ls.r3.intrVec = 0x300 ∧
      t.d2.decode = decodeRom true .lq ∧ illegalForm t.d2 = false ∧
      gprToGspr (insnRa t.d2.insn) ∈ t.written := by
  refine ⟨run (step {}) boot (lqRun 0xe0850000),
    reachable_run start_boot (by decide +kernel), ?_, ?_, ?_, ?_, ?_⟩
  all_goals decide +kernel

/-- That of `lq 4,0(6)` has not. -/
theorem restartable_lq :
    let t := run (step {}) boot (lqRun 0xe0860000)
    t.ls.ls.r3.interrupt = true ∧ t.written = [5] ∧ (5 : GsprIndex) ≠ gprToGspr 6 := by
  intro t
  have hreach : Reachable (step (x := {}) {}) (Env {}) (Start {}) t :=
    reachable_run start_boot (by decide +kernel)
  have hintr : t.ls.ls.r3.interrupt = true := by decide +kernel
  have hw : t.written = [5] := by decide +kernel
  have hra : insnRa t.d2.insn = 6 := by decide +kernel
  have h := restartable hreach hintr (.inl rfl) (by decide +kernel) (by decide +kernel)
    (fun _ => .inr ⟨by decide +kernel, fun hc => by cases hc⟩) 5 (by simp [hw])
  rw [hra] at h
  exact ⟨hintr, hw, h.1⟩

end Quadword

end LoadStore

end Microwatt
