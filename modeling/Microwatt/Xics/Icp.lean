import Mathlib.Data.List.FinRange
import Microwatt.Interfaces
import Microwatt.Lib.Clocked

/-!
# The interrupt presentation controller

`xics_icp` of `xics.vhdl`. For each CPU it keeps the current processor priority CPPR, the priority
MFRR of the interprocessor interrupt, and the source number XISR of the interrupt that it presents.
A four-byte read of XIRR accepts that interrupt: it returns CPPR and XISR, and CPPR becomes the
priority of what is pending.

The priority is not kept with the source number. It is worked out again in the cycle of the read,
from the inputs of that cycle, so that it is that of the interrupt which is presented *next*. Nor is
the source number held back when it is not more favoured than CPPR, and with nothing pending CPPR
becomes 0xff. So an accept is what it should be only if the priority has not changed since the
source number was presented, and if there is an interrupt for the CPU, or CPPR is 0xff already.

`ics_to_icp_t` has room for four CPUs; the number of CPUs is a parameter here.

## Main definitions

* `Icp`, `Icp.step` — the registers and one clock edge
* `Icp.Accepts`, `Icp.Settled` — an accepting read, and when it does what it should

## Main results

* `Icp.presentInv_of_reachable`, `Icp.accept_xirr`
-/

namespace Microwatt

open Clocked

/-- `xics_presentation_t`, with the values of `xics_presentation_t_init`. -/
structure XicsPresentation where
  xisr : BitVec 24 := 0
  cppr : BitVec 8 := 0
  mfrr : BitVec 8 := 0xff
  irq : Bool := false
  deriving DecidableEq, Repr

/-- `reg_internal_t` for `n` CPUs, and the register of `core_irq_out`. -/
structure Icp (n : ℕ) where
  icp : Fin n → XicsPresentation := fun _ => {}
  wbRdData : BitVec 32 := 0
  wbAck : Bool := false
  coreIrqOut : Fin n → Bool := fun _ => false

namespace Icp

variable {n : ℕ}

structure Inputs where
  rst : Bool := false
  wb : WbIoMasterOut := {}
  ics : IcsToIcp := {}
  deriving DecidableEq, Repr

def xirrPoll : BitVec 4 := 0x0

def xirr : BitVec 4 := 0x4

def mfrr : BitVec 4 := 0xc

def bswap (v : BitVec 32) : BitVec 32 :=
  v.extractLsb' 0 8 ++ v.extractLsb' 8 8 ++ v.extractLsb' 16 8 ++ v.extractLsb' 24 8

section Step

variable (r : Icp n) (c : Inputs) (i : Fin n)

/-- The register that the bus addresses. -/
def offset : BitVec 4 := c.wb.adr.extractLsb' 0 2 ++ (0 : BitVec 2)

/-- The bus addresses a register of CPU `i`. -/
def selects (i : Fin n) : Bool :=
  c.wb.cyc && c.wb.stb && (c.wb.adr.extractLsb' 2 4).toNat == i

/-- `be_in(31 downto 24)`. -/
def byteIn : BitVec 8 := (bswap c.wb.dat).extractLsb' 24 8

/-- The CPPR after a write. -/
def writtenCppr : BitVec 8 :=
  if selects c i && c.wb.we && (offset c == xirrPoll || offset c == xirr) then byteIn c
  else (r.icp i).cppr

def writtenMfrr : BitVec 8 :=
  if selects c i && c.wb.we && offset c == mfrr then byteIn c else (r.icp i).mfrr

/-- What CPU `i` makes of `be_out`. -/
def readOut (be : BitVec 32) (i : Fin n) : BitVec 32 :=
  if selects c i && !c.wb.we then
    if offset c == xirrPoll || offset c == xirr then (r.icp i).cppr ++ (r.icp i).xisr
    else if offset c == mfrr then (r.icp i).mfrr ++ be.extractLsb' 0 24
    else be
  else be

/-- `be_out` after the loop. -/
def beOut : BitVec 32 := (List.finRange n).foldl (readOut r c) 0

def xirrAcceptRd (i : Fin n) : Bool :=
  selects c i && !c.wb.we && offset c == xirr && c.wb.sel == 0xf

/-- The priority that the ICS gives for CPU `i`. -/
def icsPri (i : Fin n) : BitVec 8 := c.ics.pri.extractLsb' (8 * i) 8

def pendingPriority : BitVec 8 :=
  if (r.icp i).mfrr < icsPri c i then (r.icp i).mfrr else icsPri c i

/-- The source number of what is pending. -/
def pendingSource : BitVec 24 :=
  if (r.icp i).mfrr < icsPri c i then 0x000002
  else if icsPri c i ≠ 0xff then 0x00001#20 ++ c.ics.src.extractLsb' (4 * i) 4
  else 0

/-- The CPPR after an accepting read or a write. -/
def cpprNext : BitVec 8 :=
  if xirrAcceptRd c i then pendingPriority r c i else writtenCppr r c i

/-- The registers of CPU `i`. -/
def presentationNext : XicsPresentation where
  xisr := pendingSource r c i
  cppr := cpprNext r c i
  mfrr := writtenMfrr r c i
  irq := decide (pendingPriority r c i < cpprNext r c i)

/-- One clock edge. `core_irq_out` is not reset, and without a CPU no data are read. -/
def step : Icp n where
  icp := if c.rst then fun _ => {} else presentationNext r c
  wbRdData := if c.rst then 0 else if n = 0 then r.wbRdData else bswap (beOut r c)
  wbAck := !c.rst && c.wb.cyc && c.wb.stb
  coreIrqOut := fun i => (r.icp i).irq

end Step

/-! ### What is presented -/

/-- The controller with the priority of the interrupt that it presents, 0xff if there is none. -/
structure Tracked (n : ℕ) where
  reg : Icp n := {}
  shown : Fin n → BitVec 8 := fun _ => 0xff

/-- The priority is that of the cycle in which the source number is loaded. -/
def trackedStep (t : Tracked n) (c : Inputs) : Tracked n where
  reg := step t.reg c
  shown := if c.rst then fun _ => 0xff else pendingPriority t.reg c

structure Start (t : Tracked n) : Prop where
  icp : t.reg.icp = fun _ => {}
  shown : t.shown = fun _ => 0xff

/-- What is presented to a CPU: there is a source number unless the priority is 0xff, and an
interrupt if the priority is more favoured than CPPR. -/
structure PresentInv (t : Tracked n) (i : Fin n) : Prop where
  source : (t.reg.icp i).xisr = 0 ↔ t.shown i = 0xff
  irq : (t.reg.icp i).irq = true ↔ t.shown i < (t.reg.icp i).cppr

/-- Nothing is less favoured than 0xff. -/
theorem not_lt_of_ff {p : BitVec 8} : ¬ (0xff#8 < p) := by
  bv_omega

theorem pendingSource_eq_zero (r : Icp n) (c : Inputs) (i : Fin n) :
    pendingSource r c i = 0 ↔ pendingPriority r c i = 0xff := by
  unfold pendingSource pendingPriority
  split
  · next h =>
    refine iff_of_false (by decide) fun heq => ?_
    rw [heq] at h
    exact not_lt_of_ff h
  · split
    · next h =>
      refine iff_of_false (fun heq => ?_) h
      have : ∀ s : BitVec 4, 0x00001#20 ++ s ≠ 0 := by decide
      exact this _ heq
    · next h => simpa using h

theorem presentInv_init {t : Tracked n} (h : Start t) (i : Fin n) : PresentInv t i := by
  constructor
  · simp [h.icp, h.shown]
  · simp [h.icp, h.shown]

theorem presentInv_step (t : Tracked n) (c : Inputs) (i : Fin n) :
    PresentInv (trackedStep t c) i := by
  cases hrst : c.rst with
  | true => constructor <;> simp [trackedStep, step, hrst]
  | false =>
    constructor
    · simpa [trackedStep, step, hrst, presentationNext] using pendingSource_eq_zero t.reg c i
    · simp [trackedStep, step, hrst, presentationNext]

theorem presentInv_of_reachable {env : Tracked n → Inputs → Prop} {t : Tracked n}
    (h : Reachable trackedStep env Start t) (i : Fin n) : PresentInv t i :=
  h.induct (fun _ h => presentInv_init h i)
    fun t c _ _ => presentInv_step t c i

/-! ### The accepting read -/

/-- An accepting read of XIRR of CPU `i`. -/
@[mk_iff]
structure Accepts (c : Inputs) (i : Fin n) : Prop where
  running : c.rst = false
  read : xirrAcceptRd c i = true

instance (c : Inputs) (i : Fin n) : Decidable (Accepts c i) :=
  decidable_of_iff _ (accepts_iff ..).symm

/-- The priority of what is pending has not changed since the source number was presented, and
there is an interrupt, or CPPR lets everything through. -/
@[mk_iff]
structure Settled (t : Tracked n) (c : Inputs) (i : Fin n) : Prop where
  same : pendingPriority t.reg c i = t.shown i
  open_ : (t.reg.icp i).irq = true ∨ (t.reg.icp i).cppr = 0xff

instance (t : Tracked n) (c : Inputs) (i : Fin n) : Decidable (Settled t c i) :=
  decidable_of_iff _ (settled_iff ..).symm

/-- A CPU that is not addressed does not contribute to what is read. -/
theorem foldl_readOut_of_not_selects {r : Icp n} {c : Inputs} {l : List (Fin n)}
    (h : ∀ j ∈ l, selects c j = false) (be : BitVec 32) : l.foldl (readOut r c) be = be := by
  induction l with
  | nil => rfl
  | cons j l ih =>
    have hj : readOut r c be j = be := by simp [readOut, h j (by simp)]
    rw [List.foldl_cons, hj]
    exact ih fun k hk => h k (by simp [hk])

theorem selects_unique {c : Inputs} {i j : Fin n} (hi : selects c i = true)
    (hj : selects c j = true) : i = j := by
  simp only [selects, Bool.and_eq_true, beq_iff_eq] at hi hj
  exact Fin.ext (hi.2.symm.trans hj.2)

/-- What an accepting read returns. -/
theorem beOut_of_accepts {r : Icp n} {c : Inputs} {i : Fin n} (h : xirrAcceptRd c i = true) :
    beOut r c = (r.icp i).cppr ++ (r.icp i).xisr := by
  simp only [xirrAcceptRd, Bool.and_eq_true, Bool.not_eq_true', beq_iff_eq] at h
  obtain ⟨⟨⟨hsel, hwe⟩, hoff⟩, -⟩ := h
  have hread : ∀ be, readOut r c be i = (r.icp i).cppr ++ (r.icp i).xisr := by
    simp [readOut, hsel, hwe, hoff]
  -- the loop passes CPU `i` once, and the others leave `be_out` alone
  obtain ⟨l₁, l₂, hl⟩ := List.append_of_mem (List.mem_finRange i)
  have hnodup := List.nodup_finRange n
  rw [hl] at hnodup
  have hother : ∀ j ∈ l₂, selects c j = false := by
    intro j hj
    by_contra hs
    have heq := selects_unique hsel (Bool.not_eq_false _ ▸ hs)
    rw [List.nodup_append] at hnodup
    exact (List.nodup_cons.mp hnodup.2.1).1 (heq ▸ hj)
  rw [beOut, hl, List.foldl_append, List.foldl_cons, hread, foldl_readOut_of_not_selects hother]

/-- **Accepting an interrupt.** In every reachable state, `core_irq` is raised only if the interrupt
that is presented is more favoured than CPPR. An accepting read that finds the priorities settled
returns CPPR and XISR; if there is a source number, its priority is more favoured than CPPR, and
becomes the CPPR; without one, CPPR is as it was; and it never gets less favoured. -/
theorem accept_xirr {t : Tracked n} {c : Inputs} {i : Fin n}
    (h : Reachable trackedStep (fun _ _ => True) Start t) :
    ((trackedStep t c).reg.coreIrqOut i = true →
        (t.reg.icp i).xisr ≠ 0 ∧ t.shown i < (t.reg.icp i).cppr) ∧
      (Accepts c i → Settled t c i →
        (trackedStep t c).reg.wbAck = true ∧
        (trackedStep t c).reg.wbRdData = bswap ((t.reg.icp i).cppr ++ (t.reg.icp i).xisr) ∧
        ((t.reg.icp i).xisr ≠ 0 → t.shown i < (t.reg.icp i).cppr ∧
          ((trackedStep t c).reg.icp i).cppr = t.shown i) ∧
        ((t.reg.icp i).xisr = 0 → ((trackedStep t c).reg.icp i).cppr = (t.reg.icp i).cppr) ∧
        ((trackedStep t c).reg.icp i).cppr ≤ (t.reg.icp i).cppr) := by
  have hinv := presentInv_of_reachable h i
  -- nothing less favoured than 0xff is presented
  have hff : t.shown i < (t.reg.icp i).cppr → t.shown i ≠ 0xff := fun hlt heq =>
    not_lt_of_ff (heq ▸ hlt)
  refine ⟨fun hirq => ?_, fun hacc hset => ?_⟩
  · have hlt := hinv.irq.mp hirq
    exact ⟨fun hz => hff hlt (hinv.source.mp hz), hlt⟩
  · have hrst := hacc.running
    have hread := hacc.read
    have hnext : ((trackedStep t c).reg.icp i).cppr = t.shown i := by
      simp [trackedStep, step, hrst, presentationNext, cpprNext, hread, hset.same]
    have hbus : c.wb.cyc = true ∧ c.wb.stb = true := by
      simp only [xirrAcceptRd, selects, Bool.and_eq_true] at hread
      exact hread.1.1.1.1
    have hn : n ≠ 0 := fun h0 => (h0 ▸ i).elim0
    rw [hnext]
    refine ⟨by simp [trackedStep, step, hrst, hbus.1, hbus.2],
      by simp [trackedStep, step, hrst, hn, beOut_of_accepts hread], fun hs => ⟨?_, rfl⟩,
      fun hz => ?_, ?_⟩
    · rcases hset.open_ with hirq | hopen
      · exact hinv.irq.mp hirq
      · rw [hopen]
        have hne : t.shown i ≠ 0xff := fun heq => hs (hinv.source.mpr heq)
        bv_omega
    · rcases hset.open_ with hirq | hopen
      · exact absurd (hinv.source.mp hz) (hff (hinv.irq.mp hirq))
      · rw [hopen, hinv.source.mp hz]
    · rcases hset.open_ with hirq | hopen
      · exact BitVec.le_of_lt (hinv.irq.mp hirq)
      · rw [hopen]
        exact BitVec.not_lt.mp not_lt_of_ff

/-! ### Runs -/

/-- One CPU after reset. -/
def icpReset : Tracked 1 := {}

theorem start_icpReset : Start icpReset := ⟨rfl, rfl⟩

/-- The source 3 of the ICS with priority `p`. -/
def icsGives (p : BitVec 8) : IcsToIcp := ⟨3, p.zeroExtend 32⟩

def writeCppr (v p : BitVec 8) : Inputs where
  wb := { adr := 1, dat := v.zeroExtend 32, sel := 0x1, cyc := true, stb := true, we := true }
  ics := icsGives p

/-- An accepting read. -/
def readXirr (p : BitVec 8) : Inputs where
  wb := { adr := 1, sel := 0xf, cyc := true, stb := true }
  ics := icsGives p

/-- With CPPR 0xff, the source 3 with priority 5 is accepted. -/
theorem accept_xirr_source :
    let t := run trackedStep icpReset [writeCppr 0xff 0x05]
    (t.reg.icp 0).xisr = 0x13 ∧ (t.reg.icp 0).cppr = 0xff ∧
      ((trackedStep t (readXirr 0x05)).reg.icp 0).cppr = 0x05 := by
  intro t
  have hreach : Reachable trackedStep (fun _ _ => True) Start t :=
    reachable_run start_icpReset (by decide)
  have hs : (t.reg.icp 0).xisr = 0x13 := by decide
  obtain ⟨-, hacc⟩ := accept_xirr (c := readXirr 0x05) (i := 0) hreach
  obtain ⟨-, -, hmain, -⟩ := hacc (by decide) (by decide)
  exact ⟨hs, by decide, (hmain (by rw [hs]; decide)).2⟩

/-- Three accepting reads that go wrong. With nothing pending, CPPR goes from 5 to 0xff. With CPPR 0
the source 3 of priority 5 is returned, and CPPR becomes 5. And if a source of priority 5 is
replaced by one of priority 7 in the cycle of the read, CPPR becomes 7. -/
theorem accept_xirr_fails :
    let idle := run trackedStep icpReset [writeCppr 0x05 0xff]
    let masked := run trackedStep icpReset [writeCppr 0x00 0x05]
    let replaced := run trackedStep icpReset [writeCppr 0x06 0x05]
    (∀ p, Accepts (readXirr p) (0 : Fin 1)) ∧
      ((idle.reg.icp 0).xisr = 0 ∧ (idle.reg.icp 0).cppr = 0x05 ∧
        ((trackedStep idle (readXirr 0xff)).reg.icp 0).cppr = 0xff) ∧
      ((masked.reg.icp 0).xisr = 0x13 ∧ (masked.reg.icp 0).cppr = 0x00 ∧
        ((trackedStep masked (readXirr 0x05)).reg.icp 0).cppr = 0x05) ∧
      ((replaced.reg.icp 0).xisr = 0x13 ∧ replaced.shown 0 = 0x05 ∧
        (replaced.reg.icp 0).cppr = 0x06 ∧
        ((trackedStep replaced (readXirr 0x07)).reg.icp 0).cppr = 0x07) := by
  refine ⟨fun p => ⟨rfl, ?_⟩, by decide⟩
  simp [xirrAcceptRd, selects, offset, readXirr, xirr]

end Icp

end Microwatt
