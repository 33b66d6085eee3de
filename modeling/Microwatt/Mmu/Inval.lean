import Microwatt.Mmu.PwcLookup

/-!
# tlbie by PID and for all PIDs

A tlbie goes to both caches at once, and the walk waits in `DO_TLBIE` until both say that they are
done. Where it is not for a single page, both caches go through their 64 sets.

A sweep is a pipeline of three sets: the one being read, the one in the output register and the
one being written. They are one set apart each, so a set is read before it is written, and what is
in the output register is what the set holds (`TlbSweep`, `PwcSweep`). A sweep that clears
everything does not read. That of the page walk cache writes set 0 twice.

## Main results

* `Mmu.TlbSweep.step`, `Mmu.PwcSweep.step` — the next set, or the end
* `Mmu.TlbieRun.finish` — the end of a tlbie
* `Mmu.tlbie_sweep` — tlbie by PID and for all PIDs
-/

namespace Microwatt

open Clocked

namespace Mmu

/-! ### Cleared entries -/

/-- The entry with a head of zero. -/
def Entry.clear (e : Entry) : Entry := { e with head := 0 }

/-- The entry is a leaf, in the page walk cache. -/
def Entry.leaf (e : Entry) : Bool := e.head.getLsbD 14

theorem Entry.valid_clear (e : Entry) : e.clear.valid = false := by simp [Entry.clear, Entry.valid]

/-- The heads of the entries that `p` holds for have been cleared, and nothing else has changed. -/
def HeadsCleared (words words' : Words) (p : BitVec 6 → BitVec 2 → Bool) : Prop :=
  ∀ set way, entryAt words' set way =
    if p set way then (entryAt words set way).clear else entryAt words set way

/-- The sets below `n` have been cleared of the entries that `p` holds for. -/
def Swept (p : Entry → Bool) (n : ℕ) (words words' : Words) : Prop :=
  HeadsCleared words words' fun set way => decide (set.toNat < n) && p (entryAt words set way)

theorem Swept.zero (p : Entry → Bool) (words : Words) : Swept p 0 words words := by
  intro set way
  simp

variable {words words' : Words} {s : State}

theorem Swept.all {p : Entry → Bool} (h : Swept p 64 words words') :
    HeadsCleared words words' fun set way => p (entryAt words set way) := by
  intro set way
  have hlt : set.toNat < 64 := set.isLt
  rw [h set way]
  simp [hlt]

theorem Swept.write {p : Entry → Bool} {n : ℕ} {op : RamOp} {set0 : BitVec 6}
    (h : Swept p n words words') (hn : set0.toNat = n) (hop : op.wraddr = set0 ++ 0#3)
    (hdat : op.wrdata = 0)
    (hen : ∀ way : BitVec 2, op.wren.getLsbD way.toNat = p (entryAt words' set0 way)) :
    Swept p (n + 1) words (writeWord words' op) := by
  intro set way
  rw [entryAt_writeHead _ _ _ hop, hdat, field_zero]
  by_cases hset : set = set0
  · -- this set has not been written before
    subst hset
    have hold := h set way
    simp only [hn, Nat.lt_irrefl, decide_false, Bool.false_and, Bool.false_eq_true,
      if_false] at hold
    simp only [hen, hold, hn, Nat.lt_succ_self, decide_true, Bool.true_and, true_and]
    rfl
  · have hne : set.toNat ≠ n := fun hc => hset (BitVec.eq_of_toNat_eq (hc.trans hn.symm))
    have hlt : set.toNat < n + 1 ↔ set.toNat < n := by omega
    rw [if_neg fun hc => hset hc.1, h set way]
    simp only [hlt]

/-! ### Waiting for the caches -/

/-- The walk waits for the end of a tlbie. -/
structure Waiting (s : State) : Prop where
  state : s.r.state = .doTlbie
  own : s.r.isMtspr = false
  quiet : walkEnds s = false

theorem Waiting.step {i : Inputs} (h : Waiting s) (hr : i.rst = false)
    (hp : s.pr.tlbieDone = false) : Waiting (Mmu.step s i) ∧ (Mmu.step s i).r.addr = s.r.addr := by
  have hs : walkState s i = .doTlbie := by simp [walkState, h.state, h.own, hp]
  have hacc : accepts s i = false := by simp [accepts, h.state]
  refine ⟨⟨?_, ?_, ?_⟩, ?_⟩
  · simp [Mmu.step, hr, rin, hs]
  · simp [Mmu.step, hr, rin, h.state, h.own]
  · simp [walkEnds, Mmu.step, hr, rin, hs]
  · simp [Mmu.step, hr, rin, hacc]

theorem Waiting.finish {i : Inputs} (h : Waiting s) (hr : i.rst = false)
    (ht : s.tr.tlbieDone = true) (hp : s.pr.tlbieDone = true) :
    (Mmu.step s i).r.done = true ∧ (Mmu.step s i).r.err = false := by
  have hs : walkState s i = .radixFinish := by simp [walkState, h.state, ht, hp]
  have herr : anyError s i = false := by
    simp [anyError, invalid, badtree, segerror, permErr, rcError, segmenting, reading, h.state]
  simp [Mmu.step, hr, rin, hs, herr]

/-! ### The sweep of the TLB -/

/-- The entries of the TLB that a tlbie by PID, or for all PIDs, is meant for. -/
def sweepsTlb (all : Bool) (pid : BitVec 12) (e : Entry) : Bool :=
  all || (e.valid && e.pid == pid)

/-- The TLB goes through its sets. The sets before `wrHash` have been swept; where the heads matter
the next one is in the output register and the one after it is being read. -/
structure TlbSweep (all : Bool) (pid : BitVec 12) (words : Words) (s : State) :
    Prop where
  state : s.tr.state = .inval2
  busy : s.tr.tlbieDone = false
  all_eq : s.tr.invalAll = all
  pid_eq : s.tr.pid = pid
  ahead : all = false → s.tr.hash4k = s.tr.wrHash + 1 ∧
    s.tlb.rdreg = s.tlb.words (s.tr.wrHash ++ 0#3) ∧
    s.tlb.rddata = s.tlb.words (s.tr.hash4k ++ 0#3)
  swept : Swept (sweepsTlb all pid) s.tr.wrHash.toNat words s.tlb.words

section

variable {s : State} {l : Loadstore1ToMmu} {all : Bool} {pid : BitVec 12}
  {words : Words}

/-- Another set is read than the one that is written. -/
theorem writeWord_ne {words : Words} {op : RamOp} {set0 set : BitVec 6}
    {idx0 idx : BitVec 3} (hop : op.wraddr = set0 ++ idx0) (hne : set ≠ set0) :
    writeWord words op (set ++ idx) = words (set ++ idx) := by
  rw [writeWord_apply words hop, if_neg fun hc => hne hc.1]

theorem add_one_ne (x : BitVec 6) : x + 1 ≠ x := by revert x; decide

theorem add_two_ne (x : BitVec 6) : x + 1 + 1 ≠ x := by revert x; decide

/-- What one step of the sweep does to the RAM. -/
theorem TlbSweep.write (h : TlbSweep all pid words s) :
    (tlbOp s l).wraddr = s.tr.wrHash ++ 0#3 ∧
      Swept (sweepsTlb all pid) (s.tr.wrHash.toNat + 1) words (tlbNext s l).words := by
  have hop : (tlbOp s l).wraddr = s.tr.wrHash ++ 0#3 := by simp [tlbOp, tlbIdx, h.state]
  refine ⟨hop, h.swept.write rfl hop (by simp [tlbOp, h.state]) fun way => ?_⟩
  cases all with
  | true =>
    have hen : (tlbOp s l).wren = 0b1111 := by simp [tlbOp, h.state, h.all_eq]
    rw [hen, sweepsTlb, Bool.true_or]
    revert way
    decide
  | false =>
    have hen : (tlbOp s l).wren = tlbPidMatch s := by simp [tlbOp, h.state, h.all_eq]
    rw [hen, tlbPidMatch, getLsbD_ofBits4, (h.ahead rfl).2.1, h.pid_eq]
    rfl

theorem TlbSweep.step (h : TlbSweep all pid words s) {s' : State} (htr : s'.tr = trin s l)
    (htlb : s'.tlb = tlbNext s l) :
    (s.tr.wrHash.toNat < 63 → TlbSweep all pid words s' ∧
        s'.tr.wrHash.toNat = s.tr.wrHash.toNat + 1) ∧
      (s.tr.wrHash.toNat = 63 → s'.tr.state = .idle ∧ s'.tr.tlbieDone = true ∧
        Swept (sweepsTlb all pid) 64 words s'.tlb.words) := by
  obtain ⟨hop, hswept⟩ := h.write (l := l)
  constructor
  · intro hlt
    have hne : s.tr.wrHash ≠ 63#6 := by
      intro hc
      rw [hc] at hlt
      exact absurd hlt (by decide)
    have hwr : s'.tr.wrHash = s.tr.wrHash + 1 := by rw [htr]; simp [trin, h.state]
    have hnat : s'.tr.wrHash.toNat = s.tr.wrHash.toNat + 1 := by
      rw [hwr]
      bv_omega
    refine ⟨⟨?_, ?_, ?_, ?_, fun hall => ?_, ?_⟩, hnat⟩
    · rw [htr]; simp [trin, tlbState, h.state, hne]
    · rw [htr]; simp [trin, h.state, h.busy, hne]
    · rw [htr]; simp [trin, h.state, h.all_eq]
    · rw [htr]; simp [trin, h.state, h.pid_eq]
    · obtain ⟨hhash, hreg, hdat⟩ := h.ahead hall
      have hinv : s.tr.invalAll = false := h.all_eq.trans hall
      have hhash' : s'.tr.hash4k = s.tr.wrHash + 1 + 1 := by
        rw [htr, ← hhash]
        simp [trin, h.state]
      have hwords : s'.tlb.words = writeWord s.tlb.words (tlbOp s l) := by rw [htlb]; rfl
      refine ⟨by rw [hhash', hwr], ?_, ?_⟩
      · rw [hwr, hwords, writeWord_ne hop (add_one_ne _), htlb, ← hhash, ← hdat]
        simp [tlbNext, tlbOp, h.state, hinv]
      · rw [hhash', hwords, writeWord_ne hop (add_two_ne _), htlb, ← hhash]
        simp [tlbNext, tlbOp, tlbIdx, trin, h.state, hinv]
    · rw [hnat, htlb]
      exact hswept
  · intro hlast
    have heq : s.tr.wrHash = 63#6 := BitVec.eq_of_toNat_eq hlast
    rw [hlast] at hswept
    rw [htr, htlb]
    exact ⟨by simp [trin, tlbState, h.state, heq], by simp [trin, h.state, heq], hswept⟩

/-! ### The sweep of the page walk cache -/

/-- The entries of the page walk cache that a tlbie by PID, or for all PIDs, is meant for: leaves
and, with `pdes`, directory entries too. -/
def sweepsPwc (all pdes : Bool) (pid : BitVec 12) (e : Entry) : Bool :=
  (all && pdes) || (e.valid && (e.leaf || pdes) && (all || e.pid == pid))

/-- The page walk cache goes through its sets, as the TLB does; here `regHash` is the set that is
written. The sweep that clears everything is the one that is both for all PIDs and for directory
entries. -/
structure PwcSweep (all pdes : Bool) (pid : BitVec 12) (words : Words) (s : State) :
    Prop where
  waiting : Waiting s
  state : s.pr.state = .inval2
  busy : s.pr.tlbieDone = false
  all_eq : s.pr.invalAll = (all && pdes)
  pdes_eq : s.pr.invalPdes = pdes
  single_eq : (all && pdes) = false → s.pr.invalPid = !all
  pid_eq : s.pr.pid = pid
  next : s.pr.rdHash = s.pr.regHash + 1
  ahead : (all && pdes) = false →
    s.pwc.rdreg = s.pwc.words (s.pr.regHash ++ 0#3) ∧
      s.pwc.rddata = s.pwc.words (s.pr.rdHash ++ 0#3)
  swept : Swept (sweepsPwc all pdes pid) s.pr.regHash.toNat words s.pwc.words

variable {pdes : Bool}

theorem PwcSweep.write (h : PwcSweep all pdes pid words s) :
    (pwcOp s l).wraddr = s.pr.regHash ++ 0#3 ∧
      Swept (sweepsPwc all pdes pid) (s.pr.regHash.toNat + 1) words (pwcNext s l).words := by
  have hop : (pwcOp s l).wraddr = s.pr.regHash ++ 0#3 := by
    simp [pwcOp, pwcIdx, pwcWrHash, h.state]
  refine ⟨hop, h.swept.write rfl hop (by simp [pwcOp, h.state]) fun way => ?_⟩
  cases hall : all && pdes with
  | true =>
    have hen : (pwcOp s l).wren = 0b1111 := by simp [pwcOp, h.state, h.all_eq, hall]
    rw [hen, sweepsPwc, hall, Bool.true_or]
    revert way
    decide
  | false =>
    have hen : (pwcOp s l).wren = pwcScanMatch s := by simp [pwcOp, h.state, h.all_eq, hall]
    rw [hen, pwcScanMatch, getLsbD_ofBits4, (h.ahead hall).1, h.pdes_eq, h.single_eq hall, h.pid_eq,
      sweepsPwc, hall, Bool.false_or, Bool.not_not, Bool.or_comm all]
    rfl

/-- One step of the sweep: the next set, or the end. -/
theorem PwcSweep.step {i : Inputs} (h : PwcSweep all pdes pid words s) (hr : i.rst = false) :
    (s.pr.regHash.toNat < 63 → PwcSweep all pdes pid words (Mmu.step s i) ∧
        (Mmu.step s i).pr.regHash.toNat = s.pr.regHash.toNat + 1) ∧
      (s.pr.regHash.toNat = 63 → Waiting (Mmu.step s i) ∧ (Mmu.step s i).pr.state = .idle ∧
        (Mmu.step s i).pr.tlbieDone = true ∧
        Swept (sweepsPwc all pdes pid) 64 words (Mmu.step s i).pwc.words) := by
  obtain ⟨hop, hswept⟩ := h.write (l := i.l)
  have hpr : (Mmu.step s i).pr = prin s i.l := by simp [Mmu.step, hr]
  have hpwc : (Mmu.step s i).pwc = pwcNext s i.l := rfl
  have hq : (s.r.done || s.r.err) = false := h.waiting.quiet
  have hw := (h.waiting.step hr h.busy).1
  constructor
  · intro hlt
    have hne : s.pr.regHash ≠ 63#6 := by
      intro hc
      rw [hc] at hlt
      exact absurd hlt (by decide)
    have hreg : (Mmu.step s i).pr.regHash = s.pr.regHash + 1 := by
      rw [hpr, ← h.next]
      cases hall : s.pr.invalAll <;> simp [prin, pwcRdren, h.state, hall]
    have hrd : (Mmu.step s i).pr.rdHash = s.pr.regHash + 1 + 1 := by
      rw [hpr, ← h.next]
      simp [prin, pwcRdHash, h.state]
    have hnat : (Mmu.step s i).pr.regHash.toNat = s.pr.regHash.toNat + 1 := by
      rw [hreg]
      bv_omega
    refine ⟨⟨hw, ?_, ?_, ?_, ?_, fun hall => ?_, ?_, by rw [hrd, hreg], fun hall => ?_, ?_⟩, hnat⟩
    · rw [hpr, prin_state hq]; simp [pwcState, h.state, hne]
    · rw [hpr]; simp [prin, h.state, h.busy, hne]
    · rw [hpr]; simp [prin, h.state, h.all_eq]
    · rw [hpr]; simp [prin, h.state, h.pdes_eq]
    · rw [hpr]; simp [prin, h.state, h.single_eq hall]
    · rw [hpr]; simp [prin, h.state, h.pid_eq]
    · obtain ⟨-, hdat⟩ := h.ahead hall
      have hinv : s.pr.invalAll = false := h.all_eq.trans hall
      have hwords : (Mmu.step s i).pwc.words = writeWord s.pwc.words (pwcOp s i.l) := rfl
      refine ⟨?_, ?_⟩
      · rw [hreg, hwords, writeWord_ne hop (add_one_ne _), hpwc, ← h.next, ← hdat]
        simp [pwcNext, pwcOp, pwcRdren, h.state, hinv]
      · rw [hrd, hwords, writeWord_ne hop (add_two_ne _), hpwc, ← h.next]
        simp [pwcNext, pwcOp, pwcIdx, pwcRdHash, h.state, hinv]
    · rw [hnat]
      exact hswept
  · intro hlast
    have heq : s.pr.regHash = 63#6 := BitVec.eq_of_toNat_eq hlast
    rw [hlast] at hswept
    refine ⟨hw, ?_, ?_, hswept⟩
    · rw [hpr, prin_state hq]; simp [pwcState, h.state, heq]
    · rw [hpr]; simp [prin, h.state, heq]

end

/-! ### Runs -/

/-- A run of the MMU in which a tlbie meets an idle MMU at time 0, and nothing else is asked for
until the walk is done with it. -/
structure TlbieRun (s : ℕ → State) (i : ℕ → Inputs) : Prop where
  step : ∀ t, s (t + 1) = Mmu.step (s t) (i t)
  rst : ∀ t, (i t).rst = false
  walk : (s 0).r.state = .idle
  ended : walkEnds (s 0) = false
  tlb : (s 0).tr.state = .idle
  pwc : (s 0).pr.state = .idle
  valid : (i 0).l.valid = true
  tlbie : (i 0).l.tlbie = true
  slbia : (i 0).l.slbia = false
  mtspr : (i 0).l.mtspr = false
  quiet : ∀ t, 0 < t → (∀ u, u ≤ t → walkEnds (s u) = false) → (i t).l.valid = false

def tlbiePid (l : Loadstore1ToMmu) : BitVec 12 := l.rs.extractLsb' 32 12

section

variable {s : ℕ → State} {i : ℕ → Inputs} (h : TlbieRun s i)

include h

theorem TlbieRun.step_tr (t : ℕ) : (s (t + 1)).tr = trin (s t) (i t).l := by
  simp [h.step, Mmu.step, h.rst]

theorem TlbieRun.step_tlb (t : ℕ) : (s (t + 1)).tlb = tlbNext (s t) (i t).l := by
  simp [h.step, Mmu.step]

theorem TlbieRun.step_pr (t : ℕ) : (s (t + 1)).pr = prin (s t) (i t).l := by
  simp [h.step, Mmu.step, h.rst]

theorem TlbieRun.step_pwc (t : ℕ) : (s (t + 1)).pwc = pwcNext (s t) (i t).l := by
  simp [h.step, Mmu.step]

theorem TlbieRun.tlbRun : TlbRun s fun t => (i t).l := fun t => ⟨h.step_tr t, h.step_tlb t⟩

theorem TlbieRun.requestPid_eq (pid : BitVec 12) : requestPid (i 0).l pid = tlbiePid (i 0).l := by
  rw [requestPid, h.tlbie, if_pos rfl, tlbiePid]

theorem TlbieRun.waiting : Waiting (s 1) ∧ (s 1).r.addr = (i 0).l.addr := by
  have hs : walkState (s 0) (i 0) = .doTlbie := by
    simp [walkState, h.walk, h.mtspr, h.valid, h.tlbie]
  rw [h.step 0]
  refine ⟨⟨?_, ?_, ?_⟩, ?_⟩
  · simp [Mmu.step, h.rst, rin, hs]
  · simp [Mmu.step, h.rst, rin, h.walk, h.mtspr]
  · simp [walkEnds, Mmu.step, h.rst, rin, hs]
  · simp [Mmu.step, h.rst, rin, accepts, h.walk, h.valid]

theorem TlbieRun.tlb_stays {u n : ℕ} (hu : 0 < u) (hle : u ≤ n)
    (hend : ∀ k, k < n → walkEnds (s k) = false) (hst : (s u).tr.state = .idle)
    (hdone : (s u).tr.tlbieDone = true) :
    (s n).tr.state = .idle ∧ (s n).tr.tlbieDone = true ∧ (s n).tlb.words = (s u).tlb.words := by
  induction n, hle using Nat.le_induction with
  | base => exact ⟨hst, hdone, rfl⟩
  | succ n hn ih =>
    obtain ⟨hs, hd, hw⟩ := ih fun k hk => hend k (by omega)
    have hv := h.quiet n (by omega) fun k hk => hend k (by omega)
    rw [h.step_tr, h.step_tlb]
    refine ⟨by simp [trin, tlbState, hs, hv], by simp [trin, hs, hv, hd], ?_⟩
    exact (writeWord_none _ (by simp [tlbOp, hs])).trans hw

/-- **The end of a tlbie.** The page walk cache is never done before the TLB, so the walk is done
one cycle after the page walk cache. -/
theorem TlbieRun.finish {u n : ℕ} (hu : 0 < u) (hle : u ≤ n)
    (hwait : ∀ k, 0 < k → k ≤ n → Waiting (s k)) (htlb : (s u).tr.state = .idle)
    (htdone : (s u).tr.tlbieDone = true) (hpwc : (s n).pr.state = .idle)
    (hpdone : (s n).pr.tlbieDone = true) :
    (s (n + 1)).r.done = true ∧ (s (n + 1)).r.err = false ∧ (∀ k, k ≤ n → walkEnds (s k) = false) ∧
      (s (n + 1)).tlb.words = (s u).tlb.words ∧ (s (n + 1)).pwc.words = (s n).pwc.words := by
  have hend : ∀ k, k ≤ n → walkEnds (s k) = false := by
    intro k hk
    rcases Nat.eq_zero_or_pos k with rfl | hpos
    · exact h.ended
    · exact (hwait k hpos hk).quiet
  obtain ⟨hs, hd, hw⟩ := h.tlb_stays hu hle (fun k hk => hend k (by omega)) htlb htdone
  obtain ⟨hdone, herr⟩ := (hwait n (by omega) le_rfl).finish (h.rst n) hd hpdone
  rw [h.step n]
  refine ⟨hdone, herr, hend, ?_, ?_⟩
  · exact (writeWord_none _ (by simp [tlbOp, hs])).trans hw
  · exact writeWord_none _ (by simp [pwcOp, hpwc])

/-! ### The sweeps along a run -/

theorem TlbieRun.tlbSweep {all : Bool} {pid : BitVec 12} {words : Words} {t : ℕ}
    (h0 : TlbSweep all pid words (s t)) (hw : (s t).tr.wrHash = 0) :
    (s (t + 64)).tr.state = .idle ∧ (s (t + 64)).tr.tlbieDone = true ∧
      Swept (sweepsTlb all pid) 64 words (s (t + 64)).tlb.words := by
  have hrun : ∀ n, n ≤ 63 → TlbSweep all pid words (s (t + n)) ∧
      (s (t + n)).tr.wrHash.toNat = n := by
    intro n
    induction n with
    | zero => exact fun _ => ⟨h0, by rw [Nat.add_zero, hw]; rfl⟩
    | succ n ih =>
      intro hn
      obtain ⟨hs, hnat⟩ := ih (by omega)
      obtain ⟨hs', hnat'⟩ := (hs.step (h.step_tr _) (h.step_tlb _)).1 (by omega)
      exact ⟨hs', by rw [← Nat.add_assoc, hnat', hnat]⟩
  obtain ⟨hs, hnat⟩ := hrun 63 le_rfl
  exact (hs.step (h.step_tr _) (h.step_tlb _)).2 hnat

theorem TlbieRun.pwcSweep {all pdes : Bool} {pid : BitVec 12} {words : Words}
    {t : ℕ} (h0 : PwcSweep all pdes pid words (s t)) (hw : (s t).pr.regHash = 0) :
    (∀ k, t ≤ k → k ≤ t + 64 → Waiting (s k)) ∧ (s (t + 64)).pr.state = .idle ∧
      (s (t + 64)).pr.tlbieDone = true ∧
      Swept (sweepsPwc all pdes pid) 64 words (s (t + 64)).pwc.words := by
  have hrun : ∀ n, n ≤ 63 → PwcSweep all pdes pid words (s (t + n)) ∧
      (s (t + n)).pr.regHash.toNat = n := by
    intro n
    induction n with
    | zero => exact fun _ => ⟨h0, by rw [Nat.add_zero, hw]; rfl⟩
    | succ n ih =>
      intro hn
      obtain ⟨hs, hnat⟩ := ih (by omega)
      obtain ⟨hs', hnat'⟩ := (hs.step (h.rst (t + n))).1 (by omega)
      rw [← Nat.add_assoc, h.step]
      exact ⟨hs', by rw [hnat', hnat]⟩
  obtain ⟨hs, hnat⟩ := hrun 63 le_rfl
  obtain ⟨hwait, hst, hdone, hswept⟩ := (hs.step (h.rst (t + 63))).2 hnat
  rw [← h.step] at hwait hst hdone hswept
  refine ⟨fun k hk hk' => ?_, hst, hdone, hswept⟩
  rcases Nat.eq_or_lt_of_le hk' with rfl | hlt
  · exact hwait
  · have hk2 := (hrun (k - t) (by omega)).1.waiting
    rwa [Nat.add_sub_cancel' hk] at hk2

variable (hno : (i 0).l.ric.getLsbD 0 = false)

include hno

omit hno in
theorem TlbieRun.tlbieNoTlb_eq (hno : (i 0).l.ric.getLsbD 0 = false) :
    tlbieNoTlb (i 0).l = false := by
  rw [tlbieNoTlb, h.slbia, hno, Bool.or_self]

theorem TlbieRun.tlb_all (his : (isf (i 0).l).getLsbD 1 = true) :
    (s 65).tr.state = .idle ∧ (s 65).tr.tlbieDone = true ∧
      Swept (sweepsTlb true (tlbiePid (i 0).l)) 64 (s 0).tlb.words (s 65).tlb.words := by
  have hn := h.tlbieNoTlb_eq hno
  have hw : (s 1).tr.wrHash = 0 := by
    simp only [h.step_tr, trin, h.tlb, h.valid, h.tlbie, hn, his]
    rfl
  have hwords : (s 1).tlb.words = (s 0).tlb.words := by
    rw [h.step_tlb]
    exact writeWord_none _ (by simp [tlbOp, h.tlb])
  refine h.tlbSweep ⟨?_, ?_, ?_, ?_, by simp, ?_⟩ hw
  · simp only [h.step_tr, trin, tlbState, h.tlb, h.valid, h.tlbie, hn, his]
    rfl
  · simp [h.step_tr, trin, h.tlb, h.valid, h.tlbie, hn]
  · simp only [h.step_tr, trin, h.tlb, h.valid, h.tlbie, hn, his]
    rfl
  · simp [h.step_tr, trin, h.tlb, h.requestPid_eq]
  · rw [hw, hwords]
    exact Swept.zero _ _

theorem TlbieRun.tlb_pid (his : (isf (i 0).l).getLsbD 1 = false)
    (his0 : (isf (i 0).l).getLsbD 0 = true) :
    (s 66).tr.state = .idle ∧ (s 66).tr.tlbieDone = true ∧
      Swept (sweepsTlb false (tlbiePid (i 0).l)) 64 (s 0).tlb.words (s 66).tlb.words := by
  have hn := h.tlbieNoTlb_eq hno
  -- the cycle after the request
  have hst : (s 1).tr.state = .inval1 := by
    simp only [h.step_tr, trin, tlbState, h.tlb, h.valid, h.tlbie, hn, his, his0]
    rfl
  have hhash : (trin (s 0) (i 0).l).hash4k = 0 := by
    simp only [trin, h.tlb, h.valid, h.tlbie, hn, his, his0]
    rfl
  have hread : (tlbOp (s 0) (i 0).l).doread = true := by
    simp only [tlbOp, h.tlb, h.valid, h.tlbie, hn, his]
    rfl
  have hdat : (s 1).tlb.rddata = (s 0).tlb.words (0#6 ++ 0#3) := by
    rw [h.step_tlb, tlbNext]
    simp only [hread, if_true]
    rw [tlbOp, hhash, tlbIdx, h.tlb]
    rfl
  have hwords : (s 1).tlb.words = (s 0).tlb.words := by
    rw [h.step_tlb]
    exact writeWord_none _ (by simp [tlbOp, h.tlb])
  have hdone : (s 1).tr.tlbieDone = false := by
    simp [h.step_tr, trin, h.tlb, h.valid, h.tlbie, hn]
  have hall : (s 1).tr.invalAll = false := by
    simp only [h.step_tr, trin, h.tlb, h.valid, h.tlbie, hn, his]
    rfl
  have hpid : (s 1).tr.pid = tlbiePid (i 0).l := by
    simp [h.step_tr, trin, h.tlb, h.requestPid_eq]
  -- the first set is in the output register after one more
  have hw : (s 2).tr.wrHash = 0 := by simp [h.step_tr 1, trin, hst]
  have hh : (s 2).tr.hash4k = 1 := by simp [h.step_tr 1, trin, hst]
  have hwords2 : (s 2).tlb.words = (s 0).tlb.words := by
    rw [h.step_tlb 1, ← hwords]
    exact writeWord_none _ (by simp [tlbOp, hst])
  refine h.tlbSweep ⟨?_, ?_, ?_, ?_, fun _ => ⟨by rw [hw, hh]; rfl, ?_, ?_⟩, ?_⟩ hw
  · simp [h.step_tr 1, trin, tlbState, hst]
  · simp [h.step_tr 1, trin, hst, hdone]
  · simp [h.step_tr 1, trin, hst, hall]
  · simp [h.step_tr 1, trin, hst, hpid]
  · rw [hw, hwords2, h.step_tlb 1]
    refine Eq.trans ?_ hdat
    simp [tlbNext, tlbOp, hst]
  · rw [hh, hwords2, h.step_tlb 1, ← hwords]
    simp [tlbNext, tlbOp, tlbIdx, trin, hst]
  · rw [hw, hwords2]
    exact Swept.zero _ _

omit hno in
theorem TlbieRun.tlbiePdes_eq (hno : (i 0).l.ric.getLsbD 0 = false) :
    tlbiePdes (i 0).l = (i 0).l.ric.getLsbD 1 := by
  rw [tlbiePdes, h.tlbie, hno, Bool.true_and, Bool.false_or]

/-- The page walk cache scans its sets: it is done at time 66. -/
theorem TlbieRun.pwc_scan (hall : ((isf (i 0).l).getLsbD 1 && (i 0).l.ric.getLsbD 1) = false)
    (his : ((isf (i 0).l).getLsbD 1 || (isf (i 0).l).getLsbD 0) = true) :
    (∀ k, 0 < k → k ≤ 66 → Waiting (s k)) ∧ (s 66).pr.state = .idle ∧
      (s 66).pr.tlbieDone = true ∧
      Swept (sweepsPwc ((isf (i 0).l).getLsbD 1) ((i 0).l.ric.getLsbD 1) (tlbiePid (i 0).l)) 64
        (s 0).pwc.words (s 66).pwc.words := by
  have hkind : pwcTlbie (i 0).l = .scan := by
    simp only [pwcTlbie, h.slbia, h.tlbiePdes_eq hno, hall, his]
    rfl
  have hq : ((s 0).r.done || (s 0).r.err) = false := h.ended
  obtain ⟨hwait, -⟩ := h.waiting
  -- the cycle after the request
  have hst : (s 1).pr.state = .inval1 := by
    rw [h.step_pr, prin_state hq]
    simp [pwcState, h.pwc, h.valid, h.tlbie, hkind]
  have hrd : (s 1).pr.rdHash = 0 := by
    simp [h.step_pr, prin, pwcRdHash, h.pwc, h.valid, h.tlbie, hkind]
  have hdat : (s 1).pwc.rddata = (s 0).pwc.words (0#6 ++ 0#3) := by
    rw [h.step_pwc, pwcNext]
    simp [pwcOp, pwcRdHash, pwcIdx, h.pwc, h.valid, h.tlbie, hkind]
  have hwords : (s 1).pwc.words = (s 0).pwc.words := by
    rw [h.step_pwc]
    exact writeWord_none _ (by simp [pwcOp, h.pwc])
  have hregs : (s 1).pr.tlbieDone = false ∧ (s 1).pr.invalAll = false ∧
      (s 1).pr.invalPdes = (i 0).l.ric.getLsbD 1 ∧
      (s 1).pr.invalPid = !(isf (i 0).l).getLsbD 1 ∧ (s 1).pr.pid = tlbiePid (i 0).l := by
    simp only [h.step_pr, prin, h.pwc, h.valid, h.tlbie, hkind, h.tlbiePdes_eq hno,
      h.requestPid_eq]
    simp
  obtain ⟨hdone, hinv, hpdes, hsingle, hpid⟩ := hregs
  have hq1 : ((s 1).r.done || (s 1).r.err) = false := hwait.quiet
  have hwait2 : Waiting (s 2) := by
    rw [h.step 1]
    exact (hwait.step (h.rst 1) hdone).1
  -- the first set is in the output register after one more
  have hreg2 : (s 2).pr.regHash = 0 := by simp [h.step_pr 1, prin, pwcRdren, hst, hrd]
  have hrd2 : (s 2).pr.rdHash = 1 := by simp [h.step_pr 1, prin, pwcRdHash, hst]
  have hwords2 : (s 2).pwc.words = (s 0).pwc.words := by
    rw [h.step_pwc 1, ← hwords]
    exact writeWord_none _ (by simp [pwcOp, hst])
  have hsweep : PwcSweep ((isf (i 0).l).getLsbD 1) ((i 0).l.ric.getLsbD 1) (tlbiePid (i 0).l)
      (s 0).pwc.words (s 2) := by
    refine ⟨hwait2, ?_, ?_, ?_, ?_, fun _ => ?_, ?_, by rw [hreg2, hrd2]; rfl,
      fun _ => ⟨?_, ?_⟩, ?_⟩
    · rw [h.step_pr 1, prin_state hq1]
      simp [pwcState, hst]
    · simp [h.step_pr 1, prin, hst, hdone]
    · rw [hall]
      simp [h.step_pr 1, prin, hst, hinv]
    · rw [← hpdes]
      simp [h.step_pr 1, prin, hst]
    · rw [← hsingle]
      simp [h.step_pr 1, prin, hst]
    · simp [h.step_pr 1, prin, hst, hpid]
    · rw [hreg2, hwords2, h.step_pwc 1]
      refine Eq.trans ?_ hdat
      simp [pwcNext, pwcOp, pwcRdren, hst]
    · rw [hrd2, hwords2, h.step_pwc 1, ← hwords]
      simp [pwcNext, pwcOp, pwcRdHash, pwcIdx, hst]
    · rw [hreg2, hwords2]
      exact Swept.zero _ _
  obtain ⟨hwaits, hend⟩ := h.pwcSweep hsweep hreg2
  refine ⟨fun k hk hk66 => ?_, hend⟩
  rcases Nat.eq_or_lt_of_le hk with rfl | hlt
  · exact hwait
  · exact hwaits k hlt hk66

/-- The page walk cache clears everything: it is done at time 66, after writing set 0 twice. -/
theorem TlbieRun.pwc_all (his : (isf (i 0).l).getLsbD 1 = true)
    (hric : (i 0).l.ric.getLsbD 1 = true) :
    (∀ k, 0 < k → k ≤ 66 → Waiting (s k)) ∧ (s 66).pr.state = .idle ∧
      (s 66).pr.tlbieDone = true ∧
      HeadsCleared (s 0).pwc.words (s 66).pwc.words fun _ _ => true := by
  have hkind : pwcTlbie (i 0).l = .all := by
    simp only [pwcTlbie, h.slbia, h.tlbiePdes_eq hno, his, hric]
    rfl
  have hq : ((s 0).r.done || (s 0).r.err) = false := h.ended
  obtain ⟨hwait, -⟩ := h.waiting
  have hst : (s 1).pr.state = .inval2 := by
    rw [h.step_pr, prin_state hq]
    simp [pwcState, h.pwc, h.valid, h.tlbie, hkind]
  have hrd : (s 1).pr.rdHash = 0 := by
    simp [h.step_pr, prin, pwcRdHash, h.pwc, h.valid, h.tlbie, hkind]
  have hreg : (s 1).pr.regHash = 0 := by
    simp [h.step_pr, prin, pwcRdren, h.pwc, h.valid, h.tlbie, hkind]
  have hwords : (s 1).pwc.words = (s 0).pwc.words := by
    rw [h.step_pwc]
    exact writeWord_none _ (by simp [pwcOp, h.pwc])
  have hregs : (s 1).pr.tlbieDone = false ∧ (s 1).pr.invalAll = true ∧
      (s 1).pr.invalPdes = true ∧ (s 1).pr.pid = tlbiePid (i 0).l := by
    simp only [h.step_pr, prin, h.pwc, h.valid, h.tlbie, hkind, h.tlbiePdes_eq hno, hric,
      h.requestPid_eq]
    simp
  obtain ⟨hdone, hinv, hpdes, hpid⟩ := hregs
  have hq1 : ((s 1).r.done || (s 1).r.err) = false := hwait.quiet
  have hwait2 : Waiting (s 2) := by
    rw [h.step 1]
    exact (hwait.step (h.rst 1) hdone).1
  -- set 0 is written for the first time
  have hentry : ∀ set way, (entryAt (s 2).pwc.words set way).clear =
      (entryAt (s 0).pwc.words set way).clear := by
    intro set way
    have hop : (pwcOp (s 1) (i 1).l).wraddr = 0#6 ++ 0#3 := by
      simp [pwcOp, pwcIdx, pwcWrHash, hst, hreg]
    have hdat : (pwcOp (s 1) (i 1).l).wrdata = 0 := by simp [pwcOp, hst]
    rw [h.step_pwc 1, pwcNext, ← hwords, entryAt_writeHead _ _ _ hop, hdat, field_zero]
    split <;> rfl
  have hreg2 : (s 2).pr.regHash = 0 := by simp [h.step_pr 1, prin, pwcRdren, hst, hinv, hrd]
  have hrd2 : (s 2).pr.rdHash = 1 := by simp [h.step_pr 1, prin, pwcRdHash, hst, hrd]
  have hsweep : PwcSweep true true (tlbiePid (i 0).l) (s 2).pwc.words (s 2) := by
    refine ⟨hwait2, ?_, ?_, ?_, ?_, by simp, ?_, by rw [hreg2, hrd2]; rfl, by simp, ?_⟩
    · rw [h.step_pr 1, prin_state hq1]
      simp [pwcState, hst, hreg]
    · simp [h.step_pr 1, prin, hst, hdone, hreg]
    · simp [h.step_pr 1, prin, hst, hinv]
    · simp [h.step_pr 1, prin, hst, hpdes]
    · simp [h.step_pr 1, prin, hst, hpid]
    · rw [hreg2]
      exact Swept.zero _ _
  obtain ⟨hwaits, hidle, hend, hswept⟩ := h.pwcSweep hsweep hreg2
  refine ⟨fun k hk hk66 => ?_, hidle, hend, fun set way => ?_⟩
  · rcases Nat.eq_or_lt_of_le hk with rfl | hlt
    · exact hwait
    · exact hwaits k hlt hk66
  · rw [if_pos rfl, ← hentry set way]
    exact hswept.all set way

end

/-- What is left of a sweep for which all entries are meant. -/
theorem HeadsCleared.invalid {p : BitVec 6 → BitVec 2 → Bool} (h : HeadsCleared words words' p)
    {set : BitVec 6} {way : BitVec 2} (hp : p set way = true) :
    (entryAt words' set way).valid = false := by
  rw [h set way, if_pos hp]
  exact Entry.valid_clear _

/-- **tlbie by PID and for all PIDs**, with RIC 0 or 2. The walk is done with it after 67 cycles.
Then the entries of both caches that are meant have been cleared, in all sets and ways, and no
other entry has changed: with IS = 1 those of the PID and with IS = 2 or 3 those of all PIDs,
where with RIC = 0 only the leaves of the page walk cache are meant. -/
theorem tlbie_sweep {s : ℕ → State} {i : ℕ → Inputs} (h : TlbieRun s i) (his : isf (i 0).l ≠ 0)
    (hric : (i 0).l.ric = 0 ∨ (i 0).l.ric = 2) :
    ∃ T, (s T).r.done = true ∧ (s T).r.err = false ∧ (∀ k, k < T → walkEnds (s k) = false) ∧
      HeadsCleared (s 0).tlb.words (s T).tlb.words (fun set way =>
        sweepsTlb (decide (2 ≤ isf (i 0).l)) (tlbiePid (i 0).l)
          (entryAt (s 0).tlb.words set way)) ∧
      HeadsCleared (s 0).pwc.words (s T).pwc.words (fun set way =>
        sweepsPwc (decide (2 ≤ isf (i 0).l)) (decide ((i 0).l.ric = 2)) (tlbiePid (i 0).l)
          (entryAt (s 0).pwc.words set way)) ∧
      (2 ≤ isf (i 0).l → ∀ set way, (entryAt (s T).tlb.words set way).valid = false) ∧
      (2 ≤ isf (i 0).l → (i 0).l.ric = 2 →
        ∀ set way, (entryAt (s T).pwc.words set way).valid = false) := by
  have hno : (i 0).l.ric.getLsbD 0 = false := by
    rcases hric with hr | hr <;> rw [hr] <;> rfl
  have hpdes : decide ((i 0).l.ric = 2) = (i 0).l.ric.getLsbD 1 := by
    rcases hric with hr | hr <;> rw [hr] <;> rfl
  have hall : decide (2 ≤ isf (i 0).l) = (isf (i 0).l).getLsbD 1 := by
    generalize isf (i 0).l = x
    revert x
    decide
  have hsome : ((isf (i 0).l).getLsbD 1 || (isf (i 0).l).getLsbD 0) = true := by
    generalize isf (i 0).l = x at his
    revert x
    decide
  -- the two caches
  have htlb : ∃ u, 0 < u ∧ u ≤ 66 ∧ (s u).tr.state = .idle ∧ (s u).tr.tlbieDone = true ∧
      Swept (sweepsTlb ((isf (i 0).l).getLsbD 1) (tlbiePid (i 0).l)) 64 (s 0).tlb.words
        (s u).tlb.words := by
    cases hb : (isf (i 0).l).getLsbD 1 with
    | true => exact ⟨65, by omega, by omega, h.tlb_all hno hb⟩
    | false =>
      rw [hb, Bool.false_or] at hsome
      exact ⟨66, by omega, by omega, h.tlb_pid hno hb hsome⟩
  have hpwc : (∀ k, 0 < k → k ≤ 66 → Waiting (s k)) ∧ (s 66).pr.state = .idle ∧
      (s 66).pr.tlbieDone = true ∧ HeadsCleared (s 0).pwc.words (s 66).pwc.words (fun set way =>
        sweepsPwc ((isf (i 0).l).getLsbD 1) ((i 0).l.ric.getLsbD 1) (tlbiePid (i 0).l)
          (entryAt (s 0).pwc.words set way)) := by
    cases hb : (isf (i 0).l).getLsbD 1 && (i 0).l.ric.getLsbD 1 with
    | false =>
      obtain ⟨hw, hst, hd, hswept⟩ := h.pwc_scan hno hb hsome
      exact ⟨hw, hst, hd, hswept.all⟩
    | true =>
      obtain ⟨h1, h2⟩ := Bool.and_eq_true_iff.mp hb
      obtain ⟨hw, hst, hd, hcl⟩ := h.pwc_all hno h1 h2
      refine ⟨hw, hst, hd, fun set way => ?_⟩
      have hmeant : ∀ e, sweepsPwc ((isf (i 0).l).getLsbD 1) ((i 0).l.ric.getLsbD 1)
          (tlbiePid (i 0).l) e = true := fun e => by rw [sweepsPwc, hb, Bool.true_or]
      rw [hcl set way, if_pos rfl, if_pos (hmeant _)]
  obtain ⟨u, hu, hle, hst, hdone, hswept⟩ := htlb
  obtain ⟨hwait, hpst, hpdone, hcl⟩ := hpwc
  obtain ⟨hd, he, hend, hwt, hwp⟩ := h.finish hu hle hwait hst hdone hpst hpdone
  have htlbT := hswept.all
  rw [← hwt, ← hall] at htlbT
  rw [← hwp, ← hall, ← hpdes] at hcl
  refine ⟨67, hd, he, fun k hk => hend k (by omega), htlbT, hcl, fun h2 set way => ?_,
    fun h2 hr set way => ?_⟩
  · exact htlbT.invalid (by rw [decide_eq_true h2, sweepsTlb, Bool.true_or])
  · exact hcl.invalid (by rw [decide_eq_true h2, decide_eq_true hr, sweepsPwc]; rfl)

/-! ### A run -/

/-- Inputs with one tlbie, in the first cycle. -/
def oneTlbie (l : Loadstore1ToMmu) (t : ℕ) : Inputs := if t = 0 then { l := l } else {}

/-- An MMU that gets one tlbie. -/
theorem tlbieRun_trace {l : Loadstore1ToMmu} (hw : s.r.state = .idle) (he : walkEnds s = false)
    (ht : s.tr.state = .idle) (hp : s.pr.state = .idle) (hv : l.valid = true) (hl : l.tlbie = true)
    (hs : l.slbia = false) (hm : l.mtspr = false) :
    TlbieRun (trace step s (oneTlbie l)) (oneTlbie l) where
  step _ := rfl
  rst t := by
    unfold oneTlbie
    split <;> rfl
  walk := hw
  ended := he
  tlb := ht
  pwc := hp
  valid := hv
  tlbie := hl
  slbia := hs
  mtspr := hm
  quiet t h0 _ := by
    rw [oneTlbie, if_neg (by omega)]

/-- A tlbie of all entries of PID 1, directory entries included. -/
def tlbieOfPid : Loadstore1ToMmu :=
  { valid := true, tlbie := true, ric := 2, addr := 0x400, rs := 0x100000000 }

/-- The caches hold an entry of PID 1 in every place. -/
def fullCaches : State :=
  { emptyCaches with
    tlb := { emptyCaches.tlb with words := fun _ => 0x8001800180018001 }
    pwc := { emptyCaches.pwc with words := fun _ => 0x8001800180018001 } }

/-- A tlbie by PID that concerns all entries. -/
theorem tlbie_sweep_pid :
    ∃ T, (trace step fullCaches (oneTlbie tlbieOfPid) T).r.done = true ∧
      ∀ set way, (entryAt (trace step fullCaches (oneTlbie tlbieOfPid) T).pwc.words
        set way).valid = false := by
  obtain ⟨T, hd, -, -, -, hp, -⟩ :=
    tlbie_sweep (tlbieRun_trace (s := fullCaches) (l := tlbieOfPid) rfl rfl rfl rfl rfl rfl rfl rfl)
      (by decide) (.inr rfl)
  refine ⟨T, hd, fun set way => hp.invalid ?_⟩
  have hhead : ∀ way : BitVec 2,
      sweepsPwc false true 1 (entryAt (fun _ => 0x8001800180018001) 0 way) = true := by
    decide
  exact hhead way

end Mmu

end Microwatt
