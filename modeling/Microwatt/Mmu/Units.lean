import Microwatt.Lib.Clocked
import Microwatt.Mmu.PwcWrite

/-!
# The MMU and its environment: what the three state machines do together

A request goes through phases (`Phase`): the caches are searched, the walk reads tables, the
result is loaded into an L1 TLB, the request finishes. For each phase this file says what the TLB
and the page walk cache may be doing in it and shows that a clock edge keeps this.

The TLB may still be writing its last entry when the next request comes. It then misses the
request, and the miss of the previous search stands for a miss of this one.

## Main definitions

* `Mmu.Tracked`, `Mmu.Env` — the MMU with its open read, and its neighbours
* `Mmu.TlbUnit`, `Mmu.PwcUnit` — the caches, by phase
* `Mmu.Sync` — the TLB is done searching before the page walk cache can hit

## Main results

* `Mmu.tlbUnit_step`, `Mmu.pwcUnit_step`, `Mmu.sync_step`
-/

namespace Microwatt

open Bool

namespace Mmu

/-- The MMU, the address of its last read, and whether the operation in progress is a
translation. -/
structure Tracked where
  mmu : State
  asked : BitVec 64
  translating : Bool

def Tracked.step (s : Tracked) (i : Inputs) : Tracked where
  mmu := Mmu.step s.mmu i
  asked := if dcreq s.mmu then outAddr s.mmu else s.asked
  translating :=
    if accepts s.mmu i || movesSpr s.mmu i then accepts s.mmu i && !i.l.tlbie && !i.l.mtspr
    else s.translating

/-- What the dcache and `loadstore1` may do. Reads are answered with what memory holds, requests
come one at a time and only when the MMU is idle, and PTCR stays as it is. -/
@[mk_iff]
structure Env (mem : Memory) (s : Tracked) (i : Inputs) : Prop where
  rst : i.rst = false
  answer : i.d.done = true → i.d.data = mem s.asked
  noErr : i.d.err = false
  idle : (i.l.valid || i.l.mtspr) = true → s.mmu.r.state = .idle
  single : (i.l.valid && i.l.mtspr) = false
  ptcr : i.l.mtspr = true → i.l.sprnt = false

instance (mem : Memory) (s : Tracked) (i : Inputs) : Decidable (Env mem s i) :=
  decidable_of_iff _ (env_iff ..).symm

/-! ### Phases -/

/-- The phases of an operation. -/
inductive Phase
  | idle | tlbie | search | walk | load | finish
  deriving DecidableEq, Repr

/-- The phase of a state. -/
def WalkState.phase : WalkState → Phase
  | .idle => .idle
  | .doTlbie => .tlbie
  | .partTblRead | .partTblWait | .tlbWait => .search
  | .procTblRead | .procTblWait | .segmentCheck | .radixLookup | .radixReadWait => .walk
  | .radixLoadTlb => .load
  | .radixFinish => .finish

open WalkState (phase)

section

variable {mem : Memory} {ptcr : BitVec 64} {s : Tracked} {i : Inputs}

section

variable (he : Env mem s i)

include he

/-- Nothing is asked of a walk that is underway. -/
theorem Env.quiet (h : s.mmu.r.state ≠ .idle) : i.l.valid = false ∧ i.l.mtspr = false := by
  have hno : ¬(i.l.valid || i.l.mtspr) = true := fun hv => h (he.idle hv)
  simpa using hno

theorem Env.accepts_eq : accepts s.mmu i = i.l.valid := by
  unfold accepts
  cases hv : i.l.valid
  · simp
  · have := he.idle (by simp [hv])
    simp [this]

theorem Env.movesSpr_eq : movesSpr s.mmu i = i.l.mtspr := by
  unfold movesSpr
  cases hv : i.l.mtspr
  · simp
  · have := he.idle (by simp [hv])
    simp [this]

theorem step_r : (s.step i).mmu.r = rin s.mmu i := by
  simp [Tracked.step, step, he.rst]

theorem step_tr : (s.step i).mmu.tr = trin s.mmu i.l := by
  simp [Tracked.step, step, he.rst]

theorem step_pr : (s.step i).mmu.pr = prin s.mmu i.l := by
  simp [Tracked.step, step, he.rst]

end

theorem step_tlb : (s.step i).mmu.tlb = tlbNext s.mmu i.l := rfl

theorem step_pwc : (s.step i).mmu.pwc = pwcNext s.mmu i.l := rfl

theorem step_state (he : Env mem s i) : (s.step i).mmu.r.state = walkState s.mmu i := by
  rw [step_r he]; rfl

/-- A request leads to a tlbie, to the partition table or to the search. -/
theorem next_idle (h : s.mmu.r.state = .idle) :
    i.l.valid = false ∧ i.l.mtspr = false ∧ walkState s.mmu i = .idle ∨
      (i.l.mtspr = true ∨ i.l.valid = true ∧ i.l.tlbie = true) ∧
        walkState s.mmu i = .doTlbie ∨
      i.l.valid = true ∧ i.l.tlbie = false ∧ i.l.mtspr = false ∧
        (walkState s.mmu i = .partTblRead ∧ s.mmu.r.ptbValid = false ∨
          walkState s.mmu i = .tlbWait ∧ s.mmu.r.ptbValid = true) := by
  unfold walkState
  rw [h]
  cases hm : i.l.mtspr <;> cases hv : i.l.valid <;> cases ht : i.l.tlbie <;>
    cases hp : s.mmu.r.ptbValid <;> simp

/-- A tlbie is over when both caches are done, a move at once. -/
theorem next_tlbie (h : s.mmu.r.state = .doTlbie) :
    walkState s.mmu i = .doTlbie ∨
      walkState s.mmu i = .radixFinish ∧
        (s.mmu.r.isMtspr || (s.mmu.tr.tlbieDone && s.mmu.pr.tlbieDone)) = true := by
  unfold walkState
  rw [h]
  cases s.mmu.r.isMtspr || (s.mmu.tr.tlbieDone && s.mmu.pr.tlbieDone) <;> simp

/-- What `TLBWAIT` decides, with what it has looked at. -/
theorem waitAction_cases (m : State) :
    waitAction m = .wait ∧ (tlbdone m && pwcdone m) = false ∨
    (waitAction m = .tlbLoad ∧ cachedPermOk m m.tlb.rdreg = true ∨
        waitAction m = .tlbReread ∧ cachedPermOk m m.tlb.rdreg = false) ∧
      m.tr.hit = true ∧ m.r.rereadpte = false ∨
    (waitAction m = .pwcLoad ∧ cachedPermOk m m.pwc.rdreg = true ∨
        waitAction m = .pwcReread ∧ cachedPermOk m m.pwc.rdreg = false) ∧
      m.pr.hit = true ∧ m.pr.hitSize = 0 ∧ m.pwc.rdreg.getLsbD 62 = true ∧
      m.r.rereadpte = false ∨
    waitAction m = .pwcPde ∧ m.pr.hit = true ∧ m.pwc.rdreg.getLsbD 62 = false ∧
      tlbdone m = true ∧ (m.tr.hit = true → m.r.rereadpte = true) ∨
    (waitAction m = .readProcTbl ∧ ptValid m = false ∨
        waitAction m = .checkSegment ∧ ptValid m = true) ∧
      tlbdone m = true ∧ pwcdone m = true ∧ (m.tr.hit = true → m.r.rereadpte = true) := by
  unfold waitAction
  by_cases h1 : (m.tr.hit && !m.r.rereadpte) = true
  · rw [if_pos h1]
    simp only [and_eq_true, not_eq_true'] at h1
    cases hc : cachedPermOk m m.tlb.rdreg <;> simp [h1.1, h1.2]
  rw [if_neg h1]
  have hre : m.tr.hit = true → m.r.rereadpte = true := by
    intro hh
    simpa [hh] using h1
  by_cases h2 : (m.pr.hit && m.pr.hitSize == 0 && m.pwc.rdreg.getLsbD 62 && !m.r.rereadpte) = true
  · rw [if_pos h2]
    simp only [and_eq_true, not_eq_true', beq_iff_eq] at h2
    cases hc : cachedPermOk m m.pwc.rdreg
    · exact .inr (.inr (.inl ⟨.inr ⟨by simp, rfl⟩, h2.1.1.1, h2.1.1.2, h2.1.2, h2.2⟩))
    · exact .inr (.inr (.inl ⟨.inl ⟨by simp, rfl⟩, h2.1.1.1, h2.1.1.2, h2.1.2, h2.2⟩))
  rw [if_neg h2]
  by_cases h3 : (m.pr.hit && !m.pwc.rdreg.getLsbD 62 && tlbdone m) = true
  · rw [if_pos h3]
    simp only [and_eq_true, not_eq_true'] at h3
    exact .inr (.inr (.inr (.inl ⟨rfl, h3.1.1, h3.1.2, h3.2, hre⟩)))
  rw [if_neg h3]
  by_cases h4 : (tlbdone m && pwcdone m) = true
  · rw [if_pos h4]
    simp only [and_eq_true] at h4
    cases hc : ptValid m
    · exact .inr (.inr (.inr (.inr ⟨.inl ⟨by simp, rfl⟩, h4.1, h4.2, hre⟩)))
    · exact .inr (.inr (.inr (.inr ⟨.inr ⟨by simp, rfl⟩, h4.1, h4.2, hre⟩)))
  · rw [if_neg h4]
    exact .inl ⟨rfl, by simpa using h4⟩

/-- From the search phase: stay, go on to the walk when both searches are over, or load. -/
theorem next_search (h : s.mmu.r.state.phase = .search) :
    (walkState s.mmu i).phase = .search ∨
      (walkState s.mmu i).phase = .walk ∧ tlbdone s.mmu = true ∧ pwcdone s.mmu = true ∧
        (s.mmu.tr.hit = true → s.mmu.r.rereadpte = true) ∨
      walkState s.mmu i = .radixLoadTlb ∧ (s.mmu.tr.hit || s.mmu.pr.hit) = true := by
  unfold walkState
  cases hst : s.mmu.r.state <;> simp only [hst, phase] at h <;> try cases h
  · simp [phase]
  · cases i.d.done <;> simp [phase]
  · have hpd : s.mmu.pr.hit = true → pwcdone s.mmu = true := fun hh => by simp [pwcdone, hh]
    rcases waitAction_cases s.mmu with ⟨ha, -⟩ | ⟨⟨ha, -⟩ | ⟨ha, -⟩, hh, -⟩ |
      ⟨⟨ha, -⟩ | ⟨ha, -⟩, hh, -⟩ | ⟨ha, hh, -, ht, hr⟩ | ⟨⟨ha, -⟩ | ⟨ha, -⟩, ht, hp, hr⟩ <;>
      simp only [ha, phase]
    · simp
    · simp [hh]
    · simp
    · simp [hh]
    · simp
    · exact .inr (.inl ⟨trivial, ht, hpd hh, hr⟩)
    · exact .inr (.inl ⟨trivial, ht, hp, hr⟩)
    · exact .inr (.inl ⟨trivial, ht, hp, hr⟩)

/-- A walk descends, or ends in a leaf or with an error. -/
theorem next_walk (h : s.mmu.r.state.phase = .walk) :
    (walkState s.mmu i).phase = .walk ∨ walkState s.mmu i = .radixLoadTlb ∨
      walkState s.mmu i = .radixFinish := by
  unfold walkState
  cases hst : s.mmu.r.state <;> simp only [hst, phase] at h <;> try cases h
  · simp [phase]
  · cases i.d.err <;> cases i.d.done <;> simp [phase]
  · cases segAction s.mmu <;> simp [phase]
  · simp [phase]
  · cases i.d.err <;> cases i.d.done <;> cases readAction s.mmu.r (data i) <;>
      simp [phase]

theorem next_load (h : s.mmu.r.state = .radixLoadTlb) : walkState s.mmu i = .radixFinish := by
  unfold walkState
  rw [h]

theorem next_finish (h : s.mmu.r.state = .radixFinish) : walkState s.mmu i = .idle := by
  unfold walkState
  rw [h]

theorem next_lookup (h : s.mmu.r.state = .radixLookup) : walkState s.mmu i = .radixReadWait := by
  unfold walkState
  rw [h]

/-- The registers of a request stay until it is finished. -/
theorem request_keeps (he : Env mem s i) (h : s.mmu.r.state ≠ .idle) :
    (s.step i).mmu.r.addr = s.mmu.r.addr ∧ (s.step i).mmu.r.pid = s.mmu.r.pid ∧
      (s.step i).mmu.r.iside = s.mmu.r.iside ∧ (s.step i).mmu.r.store = s.mmu.r.store ∧
      (s.step i).mmu.r.priv = s.mmu.r.priv ∧ (s.step i).translating = s.translating := by
  have ha : accepts s.mmu i = false := he.accepts_eq.trans (he.quiet h).1
  have hm : movesSpr s.mmu i = false := he.movesSpr_eq.trans (he.quiet h).2
  rw [step_r he]
  simp [rin, Tracked.step, ha, hm]

/-! ### Flags -/

/-- When the walk's flags can be set. -/
structure Flags (m : State) : Prop where
  quiet : m.r.state ≠ .radixFinish → (m.r.done || m.r.err) = false
  finish : m.r.state = .radixFinish → (m.r.done || m.r.err) = true
  wrTlb : m.r.wrTlbram = true → m.r.state = .radixLoadTlb ∨ m.r.state = .radixFinish
  wrPwc : m.r.wrPwcram = true → m.r.state = .radixLookup ∨ m.r.state = .radixLoadTlb
  tlbie : m.r.tlbieReq = true → m.r.state = .doTlbie

/-- The flags that end a translation are clear between its first and its last state. -/
theorem Flags.underway {m : State} {ph : Phase} (hf : Flags m) (hph : m.r.state.phase = ph)
    (h0 : ph ≠ .idle) (h1 : ph ≠ .finish) :
    m.r.state ≠ .idle ∧ (m.r.done || m.r.err) = false := by
  subst hph
  refine ⟨fun h => h0 ?_, hf.quiet fun h => h1 ?_⟩ <;> rw [h] <;> rfl

/-- What the walk makes of a table entry decides where it goes. -/
theorem reading_state (he : Env mem s i) {a : ReadAction} (h : reading s.mmu i a = true) :
    s.mmu.r.state = .radixReadWait ∧ i.d.done = true ∧ readAction s.mmu.r (data i) = a ∧
      walkState s.mmu i =
        match a with
        | .leaf => .radixLoadTlb
        | .descend => .radixLookup
        | _ => .radixFinish := by
  simp only [reading, and_eq_true, beq_iff_eq] at h
  obtain ⟨⟨hst, hd⟩, ha⟩ := h
  refine ⟨hst, hd, ha, ?_⟩
  simp only [walkState, hst, he.noErr, hd, ha, if_true]
  cases a <;> simp

/-- One case for each state of the walk. -/
theorem Flags.step (h : Flags s.mmu) (he : Env mem s i) : Flags (s.step i).mmu := by
  refine ⟨?_, ?_, ?_, ?_, ?_⟩ <;> rw [step_r he]
  · intro hst
    have hne : (walkState s.mmu i == .radixFinish) = false := by simpa [rin] using hst
    simp [rin, hne]
  · intro hst
    have heq : (walkState s.mmu i == .radixFinish) = true := by simpa [rin] using hst
    simp only [rin, heq, Bool.true_and]
    cases anyError s.mmu i <;> rfl
  · intro hw
    by_cases hst : s.mmu.r.state = .radixFinish
    · simp [rin, hst] at hw
    · simp only [rin, hst, if_false, or_eq_true, and_eq_true] at hw
      rcases hw with hw | ⟨hr, -⟩
      · have := (h.wrTlb hw).resolve_right hst
        exact .inr (next_load this)
      · exact .inl (reading_state he hr).2.2.2
  · intro hw
    simp only [rin, or_eq_true, and_eq_true] at hw
    rcases hw with ⟨hr, -⟩ | ⟨hr, -⟩
    · exact .inr (reading_state he hr).2.2.2
    · exact .inl (reading_state he hr).2.2.2
  · intro hw
    have hcase : (i.l.mtspr = true ∨ i.l.valid = true ∧ i.l.tlbie = true) := by
      simpa [rin, he.accepts_eq, he.movesSpr_eq] using hw
    have hidle : s.mmu.r.state = .idle := he.idle (by rcases hcase with hm | ⟨hv, -⟩ <;> simp [*])
    change walkState s.mmu i = _
    rcases next_idle (i := i) hidle with ⟨hv, hm, -⟩ | ⟨-, hn⟩ | ⟨-, ht, hm, -⟩
    · rcases hcase with h' | ⟨h', -⟩
      · rw [hm] at h'; cases h'
      · rw [hv] at h'; cases h'
    · exact hn
    · rcases hcase with h' | ⟨-, h'⟩
      · rw [hm] at h'; cases h'
      · rw [ht] at h'; cases h'

/-! ### The TLB -/

/-- The TLB's copy of the request. -/
def TlbLink (m : State) : Prop :=
  m.tr.addr = m.r.addr.extractLsb' 12 40 ∧ m.tr.pid = effpid m.r.addr m.r.pid ∧
    m.tr.badEa = badEa m.r.addr

/-- The states in which the TLB works on a tlbie. -/
def TlbReg.inTlbie (tr : TlbReg) : Bool :=
  match tr.state with
  | .search1 | .search2 | .search3 | .search4 => tr.isTlbie
  | .inval1 | .inval2 => true
  | _ => false

/-- The TLB has its result and waits for the walk, or it has given up. -/
def TlbWaits (m : State) : Prop :=
  TlbLink m ∧ TlbBusy m.tr m.tlb ∧ m.tr.state = .waitw ∨ TlbAway m.tr

/-- What the TLB does in each phase. -/
def TlbUnit (mem : Memory) (ptcr : BitVec 64) (m : State) : Prop :=
  match m.r.state.phase with
  | .idle => m.tr.state = .idle ∨ m.tr.state = .wrpte2 ∧ TlbWriting mem ptcr m.tr m.tlb m.r.pde
  | .tlbie =>
    m.tr.state = .idle ∨ m.tr.inTlbie = true ∧ m.tr.tlbieDone = false ∧ m.r.isMtspr = false
  | .search => TlbLink m ∧ TlbBusy m.tr m.tlb ∨ TlbAway m.tr
  | .walk | .load => TlbWaits m
  | .finish =>
    m.tr.state = .idle ∨ m.tr.state = .waitw ∧ m.r.wrTlbram = false ∨
      m.tr.state = .wrpte1 ∧ TlbWriting mem ptcr m.tr m.tlb m.r.pde

variable {l : Loadstore1ToMmu} {m : State} {ram : Ram}

theorem requestPid_eq (h : l.tlbie = false) (pid : BitVec 12) :
    requestPid l pid = effpid l.addr pid := by
  unfold requestPid effpid
  cases l.addr.getLsbD 63 <;> simp [h]

theorem tlbLink_start (he : Env mem s i) (hst : s.mmu.tr.state = .idle) (hv : i.l.valid = true)
    (ht : i.l.tlbie = false) : TlbLink (s.step i).mmu := by
  have hm : i.l.mtspr = false := by simpa [hv] using he.single
  rw [TlbLink, step_r he, step_tr he]
  simp [trin, rin, hst, he.accepts_eq, he.movesSpr_eq, hv, hm, ht, requestPid_eq]

/-- Neither copy changes while the search is on. -/
theorem tlbLink_step (he : Env mem s i) (hr : s.mmu.r.state ≠ .idle)
    (hst : s.mmu.tr.state ≠ .idle) (h : TlbLink s.mmu) : TlbLink (s.step i).mmu := by
  obtain ⟨haddr, hpid, -⟩ := request_keeps he hr
  obtain ⟨ha, hp, hb, -⟩ := trin_keeps (l := i.l) hst
  rw [TlbLink, haddr, hpid, step_tr he, ha, hp, hb]
  exact h

/-- The TLB is busy with a tlbie until it goes idle. -/
theorem inTlbie_step (h : m.tr.inTlbie = true) (hd : m.tr.tlbieDone = false) :
    (trin m l).state = .idle ∨ (trin m l).inTlbie = true ∧ (trin m l).tlbieDone = false := by
  unfold TlbReg.inTlbie at h
  cases hst : m.tr.state <;> simp only [hst] at h <;> try cases h
  · cases hb : m.tr.badEa <;> simp [TlbReg.inTlbie, trin, tlbState, hst, hb, h, hd]
  · by_cases hm : tlbMayHit m = 0#4 <;> simp [TlbReg.inTlbie, trin, tlbState, hst, hm, h, hd]
  · simp [TlbReg.inTlbie, trin, tlbState, hst, h, hd]
  · simp [trin, tlbState, hst, h]
  · simp [TlbReg.inTlbie, trin, tlbState, hst, hd]
  · by_cases hm : m.tr.wrHash = 0x3f#6 <;> simp [TlbReg.inTlbie, trin, tlbState, hst, hm, hd]

theorem TlbBusy.waitw_of_done {tr : TlbReg} (h : TlbBusy tr ram) (hd : (tr.hit || tr.miss) = true) :
    tr.state = .waitw := by
  by_contra hne
  have := h.open_ hne
  simp [this.1, this.2] at hd

theorem trin_waitw (hst : m.tr.state = .waitw) (hw : m.r.wrTlbram = false)
    (hq : (m.r.done || m.r.err) = false) : (trin m l).state = .waitw := by
  simp only [or_eq_false_iff] at hq
  simp [trin, tlbState, hst, hw, hq.1, hq.2]

/-- The result stays as long as the walk does not write it. -/
theorem TlbWaits.step (h : TlbWaits s.mmu) (he : Env mem s i) (hne : s.mmu.r.state ≠ .idle)
    (hw : s.mmu.r.wrTlbram = false) (hq : (s.mmu.r.done || s.mmu.r.err) = false) :
    TlbWaits (s.step i).mmu := by
  obtain ⟨hd, herr⟩ := or_eq_false_iff.mp hq
  rw [TlbWaits, step_tr he, step_tlb]
  rcases h with ⟨hlink, hb, hst⟩ | ha
  · exact .inl ⟨tlbLink_step he hne hb.ne_idle hlink, hb.waitw hst hw hd herr, trin_waitw hst hw hq⟩
  · exact .inr (ha.step (he.quiet hne).1)

theorem TlbAway.keep (h : TlbAway m.tr) (hv : l.valid = false) :
    (trin m l).state = .idle := (h.step hv).state

/-- The entry that the TLB is told to write, after a miss. -/
def TlbOrder (mem : Memory) (ptcr : BitVec 64) (m : State) : Prop :=
  m.r.state = .radixLoadTlb → m.r.wrTlbram = true → m.tr.state = .waitw →
    m.tr.hit = false ∧ TlbFact mem ptcr m.tr.pid m.tr.addr m.r.pde

/-- Only at the end of a walk is the TLB written. -/
theorem Flags.not_wrTlb {ph : Phase} (hf : Flags s.mmu) (h : s.mmu.r.state.phase = ph)
    (h0 : ph ≠ .load) (h1 : ph ≠ .finish) : s.mmu.r.wrTlbram = false := by
  by_contra hw
  rcases hf.wrTlb (by simpa using hw) with hs | hs <;> rw [hs] at h
  · exact h0 h.symm
  · exact h1 h.symm

theorem walkPde_keeps (h : s.mmu.r.state = .radixLoadTlb ∨ s.mmu.r.state = .radixFinish) :
    (rin s.mmu i).pde = s.mmu.r.pde := by
  rcases h with h | h <;> simp [rin, walkPde, h]

theorem WalkState.phase_cases (st : WalkState) :
    st = .idle ∨ st = .doTlbie ∨ st.phase = .search ∨ st.phase = .walk ∨ st = .radixLoadTlb ∨
      st = .radixFinish := by
  cases st <;> simp [phase]

section

variable (he : Env mem s i) (hu : TlbUnit mem ptcr s.mmu)

include he hu

theorem tlbUnit_idle (hst : s.mmu.r.state = .idle) : TlbUnit mem ptcr (s.step i).mmu := by
  have hnext := step_state he
  simp only [TlbUnit, hst, phase] at hu
  rcases next_idle (i := i) hst with ⟨hv, hm, hn⟩ | ⟨hreq, hn⟩ | ⟨hv, ht, hm, hn⟩
  · rw [hn] at hnext
    simp only [TlbUnit, hnext, phase]
    simp only [step_tr he]
    refine .inl ?_
    rcases hu with hu | ⟨hu, -⟩ <;> simp [trin, tlbState, hu, hv]
  · rw [hn] at hnext
    simp only [TlbUnit, hnext, phase]
    simp only [step_tr he, step_r he]
    rcases hu with hu | ⟨hu, -⟩
    · rcases hreq with hm | ⟨hv, ht⟩
      · have hv : i.l.valid = false := by simpa [hm] using he.single
        exact .inl (by simp [trin, tlbState, hu, hv])
      · have hm : i.l.mtspr = false := by simpa [hv] using he.single
        have hmt : (rin s.mmu i).isMtspr = false := by simp [rin, hst, hm]
        cases hno : tlbieNoTlb i.l with
        | true => exact .inl (by simp [trin, tlbState, hu, hv, ht, hno])
        | false =>
          refine .inr ⟨?_, by simp [trin, hu, hv, ht, hno], hmt⟩
          have hown : (trin s.mmu i.l).isTlbie = true := by simp [trin, hu, ht]
          have hsn : (trin s.mmu i.l).state =
              if (isf i.l).getLsbD 1 then .inval2
              else if (isf i.l).getLsbD 0 then .inval1 else .search1 := by
            simp [trin, tlbState, hu, hv, ht, hno]
          unfold TlbReg.inTlbie
          rw [hsn]
          split_ifs <;> simp [hown]
    · exact .inl (by simp [trin, tlbState, hu])
  · have hph' : (s.step i).mmu.r.state.phase = .search := by
      rcases hn with ⟨hn, -⟩ | ⟨hn, -⟩ <;> rw [hnext, hn] <;> rfl
    simp only [TlbUnit, hph']
    rcases hu with hu | ⟨hu, hw⟩
    · rw [step_tr he, step_tlb]
      exact .inl ⟨tlbLink_start he hu hv ht, TlbBusy.start hu hv ht⟩
    · rw [step_tr he]
      exact .inr ⟨by simp [trin, tlbState, hu], by simp [trin, hu, hw.hit],
        by simp [trin, hu, hw.miss]⟩

theorem tlbUnit_tlbie (hst : s.mmu.r.state = .doTlbie) : TlbUnit mem ptcr (s.step i).mmu := by
  have hnext := step_state he
  obtain ⟨hv, -⟩ := he.quiet (by rw [hst]; decide)
  have hidle : s.mmu.tr.state = .idle → (trin s.mmu i.l).state = .idle := fun h => by
    simp [trin, tlbState, h, hv]
  simp only [TlbUnit, hst, phase] at hu
  rcases next_tlbie (i := i) hst with hn | ⟨hn, hd⟩ <;> rw [hn] at hnext
  · simp only [TlbUnit, hnext, phase]
    simp only [step_tr he, step_r he]
    rcases hu with hu | ⟨hu, hd, hm⟩
    · exact .inl (hidle hu)
    · have hmt : (rin s.mmu i).isMtspr = false := by simp [rin, hst, hm]
      exact (inTlbie_step hu hd).imp_right fun h => ⟨h.1, h.2, hmt⟩
  · simp only [TlbUnit, hnext, phase]
    simp only [step_tr he]
    rcases hu with hu | ⟨-, hd', hm⟩
    · exact .inl (hidle hu)
    · simp [hd', hm] at hd

section

variable (hf : Flags s.mmu)

include hf

/-- The walk leaves its search only with a result of the TLB. -/
theorem tlbUnit_search (hph : s.mmu.r.state.phase = .search)
    (busy : s.mmu.pr.hit = true → s.mmu.tr.state.age = 6) :
    TlbUnit mem ptcr (s.step i).mmu := by
  have hnext := step_state he
  obtain ⟨hne, hq⟩ := hf.underway hph nofun nofun
  obtain ⟨hd, herr⟩ := or_eq_false_iff.mp hq
  have hw := hf.not_wrTlb hph nofun nofun
  obtain ⟨hv, -⟩ := he.quiet hne
  simp only [TlbUnit, hph] at hu
  -- leaving the search phase, the TLB has its result
  have hdone : (s.mmu.tr.hit || s.mmu.tr.miss) = true ∨ (s.mmu.tr.hit || s.mmu.pr.hit) = true →
      TlbWaits (s.step i).mmu := by
    intro hdone
    refine TlbWaits.step (hu.imp_left fun ⟨hlink, hb⟩ => ⟨hlink, hb, ?_⟩) he hne hw hq
    rcases hdone with h | h
    · exact hb.waitw_of_done h
    · cases hh : s.mmu.tr.hit with
      | true => exact hb.waitw_of_done (by simp [hh])
      | false =>
        have hage := busy (by simpa [hh] using h)
        have hin := hb.state
        cases hs : s.mmu.tr.state <;> simp_all [TlbState.age, TlbState.inSearch]
  rcases next_search (i := i) hph with hn | ⟨hn, ht, -⟩ | ⟨hn, hh⟩
  · simp only [TlbUnit, hnext, hn]
    rw [step_tr he, step_tlb]
    rcases hu with ⟨hlink, hb⟩ | ha
    · exact (hb.step hw hd herr).imp_left fun h => ⟨tlbLink_step he hne hb.ne_idle hlink, h⟩
    · exact .inr (ha.step hv)
  · simp only [TlbUnit, hnext, hn]
    exact hdone (.inl ht)
  · simp only [TlbUnit, hnext, hn, phase]
    exact hdone (.inr hh)

theorem tlbUnit_walk (hph : s.mmu.r.state.phase = .walk) : TlbUnit mem ptcr (s.step i).mmu := by
  have hnext := step_state he
  obtain ⟨hne, hq⟩ := hf.underway hph nofun nofun
  have hw := hf.not_wrTlb hph nofun nofun
  simp only [TlbUnit, hph] at hu
  have hkeep := hu.step he hne hw hq
  rcases next_walk (i := i) hph with hn | hn | hn
  · simpa only [TlbUnit, hnext, hn] using hkeep
  · simpa only [TlbUnit, hnext, hn, phase] using hkeep
  · simp only [TlbUnit, hnext, hn, phase]
    rcases hkeep with ⟨-, -, hst⟩ | ha
    · refine .inr (.inl ⟨hst, ?_⟩)
      by_contra hw'
      rw [step_r he] at hw'
      have hst' : s.mmu.r.state ≠ .radixFinish := fun h => by rw [h] at hph; cases hph
      simp only [rin, hst', hw, if_false, Bool.false_or, not_eq_false, and_eq_true]
        at hw'
      have := (reading_state he hw'.1).2.2.2
      rw [hn] at this
      cases this
    · exact .inl ha.state

/-- The entry that the walk has found is written after a miss. -/
theorem tlbUnit_load (hst : s.mmu.r.state = .radixLoadTlb)
    (ho : TlbOrder mem ptcr s.mmu) : TlbUnit mem ptcr (s.step i).mmu := by
  have hnext := (step_state he).trans (next_load hst)
  have hq : (s.mmu.r.done || s.mmu.r.err) = false := hf.quiet (by rw [hst]; decide)
  obtain ⟨hv, -⟩ := he.quiet (by rw [hst]; decide)
  simp only [TlbUnit, hst, phase] at hu
  simp only [TlbUnit, hnext, phase]
  simp only [step_tr he, step_r he, step_tlb]
  rcases hu with ⟨-, hb, htr⟩ | ha
  · cases hw : s.mmu.r.wrTlbram with
    | true =>
      obtain ⟨hhit, hfact⟩ := ho hst hw htr
      refine .inr (.inr ⟨by simp [trin, tlbState, htr, hw], ?_⟩)
      rw [walkPde_keeps (.inl hst)]
      exact hb.write htr hw hhit hfact
    | false =>
      refine .inr (.inl ⟨trin_waitw htr hw hq, ?_⟩)
      simp [rin, hst, hw, reading]
  · exact .inl (ha.keep hv)

theorem tlbUnit_finish (hst : s.mmu.r.state = .radixFinish) : TlbUnit mem ptcr (s.step i).mmu := by
  have hnext := (step_state he).trans (next_finish hst)
  have hq := hf.finish hst
  obtain ⟨hv, -⟩ := he.quiet (by rw [hst]; decide)
  simp only [TlbUnit, hst, phase] at hu
  simp only [TlbUnit, hnext, phase]
  simp only [step_tr he, step_r he, step_tlb]
  rcases hu with htr | ⟨htr, hw⟩ | ⟨htr, hw⟩
  · exact .inl (by simp [trin, tlbState, htr, hv])
  · refine .inl ?_
    have : (s.mmu.r.done = true ∨ s.mmu.r.err = true) := by simpa using hq
    simp [trin, tlbState, htr, hw, this]
  · refine .inr ⟨by simp [trin, tlbState, htr], ?_⟩
    rw [walkPde_keeps (.inr hst)]
    exact hw.step htr

/-- **The TLB follows the walk**, given that it is done searching before the page walk cache can
hit. -/
theorem tlbUnit_step (ho : TlbOrder mem ptcr s.mmu)
    (busy : s.mmu.r.state.phase = .search → s.mmu.pr.hit = true → s.mmu.tr.state.age = 6) :
    TlbUnit mem ptcr (s.step i).mmu := by
  rcases s.mmu.r.state.phase_cases with h | h | h | h | h | h
  · exact tlbUnit_idle he hu h
  · exact tlbUnit_tlbie he hu h
  · exact tlbUnit_search he hu hf h (busy h)
  · exact tlbUnit_walk he hu hf h
  · exact tlbUnit_load he hu hf h ho
  · exact tlbUnit_finish he hu hf h

end

end

/-! ### The page walk cache -/

/-- The page walk cache's copy of the request. -/
def PwcLink (m : State) : Prop :=
  m.pr.addr = m.r.addr.extractLsb' 21 31 ∧ m.pr.pid = effpid m.r.addr m.r.pid ∧
    m.pr.badEa = badEa m.r.addr

/-- The states in which the page walk cache works on a tlbie. -/
def PwcState.inInval : PwcState → Bool
  | .inval1 | .inval2 | .inval2M | .inval2M0 | .inval2M1 | .inval2M2 => true
  | _ => false

/-- What the page walk cache does in each phase. -/
def PwcUnit (mem : Memory) (ptcr : BitVec 64) (m : State) : Prop :=
  match m.r.state.phase with
  | .idle => m.pr.state = .idle
  | .tlbie =>
    m.pr.state = .idle ∨ m.pr.state.inInval = true ∧ m.pr.tlbieDone = false ∧ m.r.isMtspr = false
  | .search => PwcLink m ∧ PwcBusy m.pr m.pwc ∨ PwcAway m.pr
  | .walk =>
    m.pr.state = .idle ∨ PwcLink m ∧ m.pr.badEa = false ∧
      (PwcKey m.pr ∧ m.pr.state = .waitw ∨
        PwcWriting mem ptcr m.pr m.pwc ∧ m.pr.wrLeaf = false ∧
          (m.pr.state = .wrpte2 ∨ m.r.state = .radixReadWait))
  | .load =>
    m.pr.state = .idle ∨ PwcBusy m.pr m.pwc ∧ m.r.wrPwcram = false ∨
      PwcLink m ∧ m.pr.badEa = false ∧
        (PwcKey m.pr ∧ m.pr.state = .waitw ∨
          PwcWriting mem ptcr m.pr m.pwc ∧ m.pr.wrLeaf = false ∧ m.pr.state = .wrpte2)
  | .finish =>
    m.pr.state.inWrite = true →
      PwcWriting mem ptcr m.pr m.pwc ∧
        (m.pr.state = .wrpte2 ∨ m.pr.state = .wrpte12M ∧ m.pr.wrLeaf = true)

theorem pwcLink_start (he : Env mem s i) (hst : s.mmu.pr.state = .idle) (hv : i.l.valid = true)
    (ht : i.l.tlbie = false) : PwcLink (s.step i).mmu := by
  have hm : i.l.mtspr = false := by simpa [hv] using he.single
  rw [PwcLink, step_r he, step_pr he]
  simp [prin, rin, hst, he.accepts_eq, he.movesSpr_eq, hv, hm, ht, requestPid_eq]

theorem pwcLink_step (he : Env mem s i) (hr : s.mmu.r.state ≠ .idle)
    (hst : s.mmu.pr.state ≠ .idle) (h : PwcLink s.mmu) : PwcLink (s.step i).mmu := by
  obtain ⟨haddr, hpid, -⟩ := request_keeps he hr
  obtain ⟨ha, hp, hb, -⟩ := prin_keeps (l := i.l) hst
  rw [PwcLink, haddr, hpid, step_pr he, ha, hp, hb]
  exact h

/-- The entry that the page walk cache is told to write. -/
def PwcOrder (mem : Memory) (ptcr : BitVec 64) (m : State) : Prop :=
  m.r.wrPwcram = true → m.pr.state = .waitw →
    m.r.rereadpte = false ∧ m.r.pwcLevel ≠ 3 ∧
      PwcFact mem ptcr m.r.pwcLevel m.pr.pid m.pr.addr m.r.pde ∧
      (m.r.state = .radixLookup → m.r.pde.getLsbD 62 = false) ∧
      (m.r.state = .radixLoadTlb → m.r.pde.getLsbD 62 = true ∧ m.r.pwcLevel = 0)

theorem PwcBusy.not_inWrite {pr : PwcReg} (h : PwcBusy pr ram) : pr.state.inWrite = false := by
  have := h.state
  cases hs : pr.state <;> simp_all [PwcState.inSearch, PwcState.inWrite]

theorem PwcBusy.waitw_of_done {pr : PwcReg} (h : PwcBusy pr ram) (hd : (pr.hit || pr.miss) = true) :
    pr.state = .waitw := by
  by_contra hne
  have := h.open_ hne
  simp [this.1, this.2] at hd

theorem prin_waitw (hst : m.pr.state = .waitw) (hw : m.r.wrPwcram = false)
    (hq : (m.r.done || m.r.err) = false) : (prin m l).state = .waitw := by
  rw [prin_state hq]
  simp [pwcState, hst, hw]

theorem prin_idle (hst : m.pr.state = .idle) (hv : l.valid = false) : (prin m l).state = .idle := by
  simp [prin, pwcState, hst, hv]

theorem prin_wrpte2 (hst : m.pr.state = .wrpte2) (hl : m.pr.wrLeaf = false)
    (hq : (m.r.done || m.r.err) = false) : (prin m l).state = .waitw := by
  rw [prin_state hq]
  simp [pwcState, hst, hl]

theorem pwcUnit_finish (he : Env mem s i) (hf : Flags s.mmu)
    (hst : s.mmu.r.state = .radixFinish) : PwcUnit mem ptcr (s.step i).mmu := by
  have hnext := (step_state he).trans (next_finish hst)
  have hq := hf.finish hst
  simp only [PwcUnit, hnext, phase]
  simp [step_pr he, prin, hq]

/-- A tlbie in the page walk cache goes on or is done. -/
theorem inInval_step (h : m.pr.state.inInval = true) (hd : m.pr.tlbieDone = false) :
    (prin m l).state = .idle ∨
      (prin m l).state.inInval = true ∧ (prin m l).tlbieDone = false := by
  cases hq : (m.r.done || m.r.err) with
  | true => exact .inl (by simp [prin, hq])
  | false =>
    rw [prin_state hq]
    cases hst : m.pr.state <;> simp [hst, PwcState.inInval] at h
    · simp [PwcState.inInval, prin, pwcState, hst, hd]
    · by_cases hm : m.pr.regHash = 0x3f#6 <;>
        simp [PwcState.inInval, prin, pwcState, hst, hm, hd]
    · simp [PwcState.inInval, prin, pwcState, hst, hd]
    · simp [PwcState.inInval, prin, pwcState, hst, hd]
    · simp [PwcState.inInval, prin, pwcState, hst, hd]
    · simp [pwcState, hst]

theorem wrPwcram_search (hf : Flags s.mmu) (h : s.mmu.r.state.phase = .search) :
    s.mmu.r.wrPwcram = false := by
  by_contra hw
  rcases hf.wrPwc (by simpa using hw) with hs | hs <;> rw [hs] at h <;> cases h

section

variable (he : Env mem s i) (hu : PwcUnit mem ptcr s.mmu) (ho : PwcOrder mem ptcr s.mmu)
  (hok : PwcOk mem ptcr s.mmu.pwc.words s.mmu.pr.writes)

include he hu

theorem pwcUnit_idle (hf : Flags s.mmu) (hst : s.mmu.r.state = .idle) :
    PwcUnit mem ptcr (s.step i).mmu := by
  have hnext := step_state he
  have hq : (s.mmu.r.done || s.mmu.r.err) = false := hf.quiet (by rw [hst]; decide)
  simp only [PwcUnit, hst, phase] at hu
  rcases next_idle (i := i) hst with ⟨hv, hm, hn⟩ | ⟨hreq, hn⟩ | ⟨hv, ht, hm, hn⟩
  · rw [hn] at hnext
    simp only [PwcUnit, hnext, phase]
    simp only [step_pr he]
    exact prin_idle hu hv
  · rw [hn] at hnext
    simp only [PwcUnit, hnext, phase]
    simp only [step_pr he, step_r he]
    rcases hreq with hm | ⟨hv, ht⟩
    · have hv : i.l.valid = false := by simpa [hm] using he.single
      exact .inl (prin_idle hu hv)
    · have hm : i.l.mtspr = false := by simpa [hv] using he.single
      have hmt : (rin s.mmu i).isMtspr = false := by simp [rin, hst, hm]
      have hd : (prin s.mmu i.l).tlbieDone = (pwcTlbie i.l == .none) := by
        simp [prin, hu, hv, ht]
      rw [hd, prin_state hq]
      simp only [pwcState, hu, hv, ht, Bool.not_true, false_eq_true, if_false]
      cases pwcTlbie i.l <;> simp [PwcState.inInval, hmt]
  · have hph' : (s.step i).mmu.r.state.phase = .search := by
      rcases hn with ⟨hn, -⟩ | ⟨hn, -⟩ <;> rw [hnext, hn] <;> rfl
    simp only [PwcUnit, hph']
    rw [step_pr he, step_pwc]
    exact .inl ⟨pwcLink_start he hu hv ht, PwcBusy.start hu hq hv ht⟩

theorem pwcUnit_tlbie (hst : s.mmu.r.state = .doTlbie) : PwcUnit mem ptcr (s.step i).mmu := by
  have hnext := step_state he
  obtain ⟨hv, -⟩ := he.quiet (by rw [hst]; decide)
  simp only [PwcUnit, hst, phase] at hu
  rcases next_tlbie (i := i) hst with hn | ⟨hn, hd⟩ <;> rw [hn] at hnext
  · simp only [PwcUnit, hnext, phase]
    simp only [step_pr he, step_r he]
    rcases hu with hu | ⟨hu, hd, hm⟩
    · exact .inl (prin_idle hu hv)
    · have hmt : (rin s.mmu i).isMtspr = false := by simp [rin, hst, hm]
      exact (inInval_step hu hd).imp_right fun h => ⟨h.1, h.2, hmt⟩
  · simp only [PwcUnit, hnext, phase]
    simp only [step_pr he]
    rcases hu with hu | ⟨-, hd', hm⟩
    · rw [prin_idle hu hv]
      intro h; cases h
    · simp [hd', hm] at hd

theorem pwcUnit_search (hf : Flags s.mmu) (hph : s.mmu.r.state.phase = .search) :
    PwcUnit mem ptcr (s.step i).mmu := by
  have hnext := step_state he
  obtain ⟨hne, hq⟩ := hf.underway hph nofun nofun
  have hw := wrPwcram_search hf hph
  obtain ⟨hv, -⟩ := he.quiet hne
  simp only [PwcUnit, hph] at hu
  rcases next_search (i := i) hph with hn | ⟨hn, -, hp, -⟩ | ⟨hn, -⟩
  · simp only [PwcUnit, hnext, hn]
    rw [step_pr he, step_pwc]
    rcases hu with ⟨hlink, hb⟩ | ha
    · exact (hb.step hq hw).imp_left fun h => ⟨pwcLink_step he hne hb.ne_idle hlink, h⟩
    · exact .inr (ha.step hv)
  · simp only [PwcUnit, hnext, hn]
    rw [step_pr he, step_pwc]
    rcases hu with ⟨hlink, hb⟩ | ha
    · have hst := hb.waitw_of_done hp
      have hgood : (prin s.mmu i.l).badEa = false :=
        (prin_keeps hb.ne_idle).2.2.1.trans (hb.good (by rw [hst]; decide))
      exact .inr ⟨pwcLink_step he hne hb.ne_idle hlink, hgood,
        .inl ⟨prin_key hb.ne_idle hb.hash, prin_waitw hst hw hq⟩⟩
    · exact .inl (prin_idle ha.state hv)
  · simp only [PwcUnit, hnext, hn, phase]
    have hw' : (s.step i).mmu.r.wrPwcram = false := by
      by_contra hw'
      rw [step_r he] at hw'
      simp only [rin, not_eq_false, or_eq_true, and_eq_true] at hw'
      have hr : s.mmu.r.state = .radixReadWait := by
        rcases hw' with ⟨hr, -⟩ | ⟨hr, -⟩ <;> exact (reading_state he hr).1
      rw [hr] at hph
      cases hph
    rw [step_pr he, step_pwc]
    rcases hu with ⟨hlink, hb⟩ | ha
    · rcases hb.step hq hw with hb' | ha
      · exact .inr (.inl ⟨hb', hw'⟩)
      · exact .inl ha.state
    · exact .inl (prin_idle ha.state hv)

include ho hok in
/-- A directory entry is written while the walk reads the next table. -/
theorem pwcUnit_walk (hf : Flags s.mmu) (hph : s.mmu.r.state.phase = .walk) :
    PwcUnit mem ptcr (s.step i).mmu := by
  have hnext := step_state he
  obtain ⟨hne, hq⟩ := hf.underway hph nofun nofun
  obtain ⟨hv, -⟩ := he.quiet hne
  simp only [PwcUnit, hph] at hu
  -- whatever the walk does next, an idle, waiting or finished cache is in order
  have hrest : (prin s.mmu i.l).state = .idle ∨ PwcLink (s.step i).mmu ∧
      (prin s.mmu i.l).badEa = false ∧
        (PwcKey (prin s.mmu i.l) ∧ (prin s.mmu i.l).state = .waitw ∨
          PwcWriting mem ptcr (prin s.mmu i.l) (pwcNext s.mmu i.l) ∧
            (prin s.mmu i.l).wrLeaf = false ∧ (prin s.mmu i.l).state = .wrpte2) →
      PwcUnit mem ptcr (s.step i).mmu := by
    intro hr
    rcases next_walk (i := i) hph with hn | hn | hn
    · simp only [PwcUnit, hnext, hn]
      simp only [step_pr he, step_pwc]
      exact hr.imp_right fun h => ⟨h.1, h.2.1, h.2.2.imp_right fun h => ⟨h.1, h.2.1, .inl h.2.2⟩⟩
    · simp only [PwcUnit, hnext, hn, phase]
      simp only [step_pr he, step_pwc]
      exact hr.imp_right .inr
    · simp only [PwcUnit, hnext, hn, phase]
      simp only [step_pr he, step_pwc]
      intro hin
      rcases hr with hs | ⟨-, -, ⟨-, hs⟩ | ⟨hw, -, hs⟩⟩
      · rw [hs] at hin; cases hin
      · rw [hs] at hin; cases hin
      · exact ⟨hw, .inl hs⟩
  rcases hu with hst | ⟨hlink, hgood, ⟨hk, hst⟩ | ⟨hw, hleaf, hst⟩⟩
  · exact hrest (.inl (prin_idle hst hv))
  · have hpne : s.mmu.pr.state ≠ .idle := by rw [hst]; decide
    have hgood' := (prin_keeps (l := i.l) hpne).2.2.1.trans hgood
    have hlink' := pwcLink_step he hne hpne hlink
    cases hw : s.mmu.r.wrPwcram with
    | false => exact hrest (.inr ⟨hlink', hgood', .inl ⟨prin_key hpne hk, prin_waitw hst hw hq⟩⟩)
    | true =>
      obtain ⟨hre, hlev, hfact, hpde, -⟩ := ho hw hst
      have hlook : s.mmu.r.state = .radixLookup := by
        rcases hf.wrPwc hw with h | h
        · exact h
        · rw [h] at hph; cases hph
      have hn := hnext.trans (next_lookup hlook)
      simp only [PwcUnit, hn, phase]
      simp only [step_pr he, step_pwc]
      refine .inr ⟨hlink', hgood', .inr
        ⟨PwcWriting.start hk hst hq hw hre hlev hfact hok, ?_, .inr trivial⟩⟩
      simpa [prin, hst] using hpde hlook
  · have hpne : s.mmu.pr.state ≠ .idle := fun h => by have := hw.state; rw [h] at this; cases this
    have hgood' := (prin_keeps (l := i.l) hpne).2.2.1.trans hgood
    have hlink' := pwcLink_step he hne hpne hlink
    refine hrest (.inr ⟨hlink', hgood', ?_⟩)
    by_cases h2 : s.mmu.pr.state = .wrpte2
    · exact .inl ⟨prin_key hpne hw.key, prin_wrpte2 h2 hleaf hq⟩
    · have hnw : s.mmu.pr.state ≠ .waitw := fun h => by
        have := hw.state; rw [h] at this; cases this
      have hw' := hw.tag (l := i.l) h2 hq
      refine .inr ⟨hw', by simpa [prin, hnw] using hleaf, ?_⟩
      rw [prin_state hq]
      have hin := hw.state
      cases hs : s.mmu.pr.state <;> simp_all [PwcState.inWrite, pwcState]

include ho hok in
theorem pwcUnit_load (hf : Flags s.mmu) (hst : s.mmu.r.state = .radixLoadTlb) :
    PwcUnit mem ptcr (s.step i).mmu := by
  have hnext := (step_state he).trans (next_load hst)
  have hq : (s.mmu.r.done || s.mmu.r.err) = false := hf.quiet (by rw [hst]; decide)
  obtain ⟨hv, -⟩ := he.quiet (by rw [hst]; decide)
  simp only [PwcUnit, hst, phase] at hu
  simp only [PwcUnit, hnext, phase]
  simp only [step_pr he, step_pwc]
  intro hin
  rcases hu with hs | ⟨hb, hw⟩ | ⟨-, -, ⟨hk, hs⟩ | ⟨hwr, hleaf, hs⟩⟩
  · rw [prin_idle hs hv] at hin; cases hin
  · rcases hb.step (l := i.l) hq hw with hb' | ha
    · rw [hb'.not_inWrite] at hin; cases hin
    · rw [ha.state] at hin; cases hin
  · cases hw : s.mmu.r.wrPwcram with
    | false => rw [prin_waitw hs hw hq] at hin; cases hin
    | true =>
      obtain ⟨hre, hlev, hfact, -, hpde⟩ := ho hw hs
      refine ⟨PwcWriting.start hk hs hq hw hre hlev hfact hok, .inr ⟨?_, ?_⟩⟩
      · rw [prin_state hq]
        simp [pwcState, hs, hw, (hpde hst).2]
      · simpa [prin, hs] using (hpde hst).1
  · rw [prin_wrpte2 hs hleaf hq] at hin; cases hin

include ho hok in
/-- **The page walk cache follows the walk.** -/
theorem pwcUnit_step (hf : Flags s.mmu) : PwcUnit mem ptcr (s.step i).mmu := by
  rcases s.mmu.r.state.phase_cases with h | h | h | h | h | h
  · exact pwcUnit_idle he hu hf h
  · exact pwcUnit_tlbie he hu h
  · exact pwcUnit_search he hu hf h
  · exact pwcUnit_walk he hu ho hok hf h
  · exact pwcUnit_load he hu ho hok hf h
  · exact pwcUnit_finish he hf h

end

theorem PwcUnit.writing (hu : PwcUnit mem ptcr s.mmu) (hin : s.mmu.pr.state.inWrite = true) :
    PwcWriting mem ptcr s.mmu.pr s.mmu.pwc ∧
      (s.mmu.r.state = .radixFinish →
        s.mmu.pr.state = .wrpte2 ∨ s.mmu.pr.state = .wrpte12M ∧ s.mmu.pr.wrLeaf = true) := by
  unfold PwcUnit at hu
  rcases s.mmu.r.state.phase_cases with h | h | h | h | h | h
  · simp only [h, phase] at hu
    rw [hu] at hin; cases hin
  · simp only [h, phase] at hu
    rcases hu with hs | ⟨hs, -⟩
    · rw [hs] at hin; cases hin
    · cases hp : s.mmu.pr.state <;> simp_all [PwcState.inWrite, PwcState.inInval]
  · simp only [h] at hu
    rcases hu with ⟨-, hb⟩ | ha
    · rw [hb.not_inWrite] at hin; cases hin
    · rw [ha.state] at hin; cases hin
  · have hnf : s.mmu.r.state ≠ .radixFinish := fun h' => by rw [h'] at h; cases h
    simp only [h] at hu
    rcases hu with hs | ⟨-, -, ⟨-, hs⟩ | ⟨hw, -⟩⟩
    · rw [hs] at hin; cases hin
    · rw [hs] at hin; cases hin
    · exact ⟨hw, fun h' => absurd h' hnf⟩
  · have hnf : s.mmu.r.state ≠ .radixFinish := fun h' => by rw [h'] at h; cases h
    simp only [h, phase] at hu
    rcases hu with hs | ⟨hb, -⟩ | ⟨-, -, ⟨-, hs⟩ | ⟨hw, -⟩⟩
    · rw [hs] at hin; cases hin
    · rw [hb.not_inWrite] at hin; cases hin
    · rw [hs] at hin; cases hin
    · exact ⟨hw, fun h' => absurd h' hnf⟩
  · simp only [h, phase] at hu
    exact ⟨(hu hin).1, fun _ => (hu hin).2⟩

/-- A clock edge keeps the page walk cache right, but for a cut. -/
theorem pwcOk_tick (he : Env mem s i) (hf : Flags s.mmu) (hu : PwcUnit mem ptcr s.mmu)
    (hok : PwcOk mem ptcr s.mmu.pwc.words s.mmu.pr.writes) (hc : ¬PwcCut s.mmu) :
    PwcOk mem ptcr (s.step i).mmu.pwc.words (s.step i).mmu.pr.writes := by
  rw [step_pr he, step_pwc]
  refine pwcOk_step hok (fun hin => (hu.writing hin).1) ?_ ?_ hc
  · intro hst hq
    have hin : s.mmu.pr.state.inWrite = true := by rcases hst with h | h <;> rw [h] <;> rfl
    have hfin : s.mmu.r.state = .radixFinish := by
      by_contra hne
      rw [hf.quiet hne] at hq
      cases hq
    rcases (hu.writing hin).2 hfin with h2 | h12
    · rcases hst with h | h <;> rw [h] at h2 <;> cases h2
    · exact h12
  · intro hw
    refine hf.quiet fun h => ?_
    rcases hf.wrPwc hw with h' | h' <;> rw [h] at h' <;> cases h'

theorem TlbUnit.writing (hu : TlbUnit mem ptcr s.mmu) (hst : s.mmu.tr.state = .wrpte2) :
    TlbWriting mem ptcr s.mmu.tr s.mmu.tlb s.mmu.r.pde := by
  unfold TlbUnit at hu
  rcases s.mmu.r.state.phase_cases with h | h | h | h | h | h
  · simp only [h, phase] at hu
    rcases hu with hs | ⟨-, hw⟩
    · rw [hst] at hs; cases hs
    · exact hw
  · simp only [h, phase] at hu
    rcases hu with hs | ⟨hs, -⟩
    · rw [hst] at hs; cases hs
    · simp [TlbReg.inTlbie, hst] at hs
  · simp only [h] at hu
    rcases hu with ⟨-, hb⟩ | ha
    · have := hb.state; rw [hst] at this; cases this
    · have := ha.state; rw [hst] at this; cases this
  · simp only [h] at hu
    rcases hu with ⟨-, -, hs⟩ | ha
    · rw [hst] at hs; cases hs
    · have := ha.state; rw [hst] at this; cases this
  · simp only [h, phase] at hu
    rcases hu with ⟨-, -, hs⟩ | ha
    · rw [hst] at hs; cases hs
    · have := ha.state; rw [hst] at this; cases this
  · simp only [h, phase] at hu
    rcases hu with hs | ⟨hs, -⟩ | ⟨hs, -⟩ <;> rw [hst] at hs <;> cases hs

theorem tlbOk_tick (he : Env mem s i) (hu : TlbUnit mem ptcr s.mmu)
    (hok : TlbOk mem ptcr s.mmu.tlb.words s.mmu.tr.writes) :
    TlbOk mem ptcr (s.step i).mmu.tlb.words (s.step i).mmu.tr.writes := by
  rw [step_tr he, step_tlb]
  exact tlbOk_step hok hu.writing

/-! ### The two searches side by side -/

/-- The page walk cache is never ahead of the TLB, so that it cannot hit before the TLB is done. -/
def Sync (m : State) : Prop :=
  m.r.state.phase = .search →
    (m.pr.hit = true → m.tr.state.age = 6) ∧
      (m.pr.state.inSearch = true → m.pr.state ≠ .waitw → m.pr.state.age ≤ m.tr.state.age)

theorem TlbState.one_le_age (st : TlbState) : 1 ≤ st.age := by cases st <;> decide

theorem TlbState.age_le (st : TlbState) : st.age ≤ 6 := by cases st <;> decide

theorem PwcState.age_le (st : PwcState) : st.age ≤ 6 := by cases st <;> decide

/-- A search of the TLB gets older in every cycle. -/
theorem TlbBusy.age_step (hb : TlbBusy m.tr m.tlb) (hw : m.r.wrTlbram = false) :
    min 6 (m.tr.state.age + 1) ≤ (trin m l).state.age := by
  have hin := hb.state
  have hs : (trin m l).state = tlbState m l := rfl
  rw [hs]
  cases hst : m.tr.state <;> rw [hst] at hin <;> try cases hin
  · cases hbad : m.tr.badEa <;> simp [tlbState, hst, hbad, TlbState.age]
  · by_cases hm : tlbMayHit m = 0#4 <;> simp [tlbState, hst, hm, hb.own, TlbState.age]
  · cases hh : tlbIsHit m <;> by_cases hm : tlbMayHit m = 0#4 <;>
      simp [tlbState, hst, hm, hh, hb.own, TlbState.age]
  · by_cases hm : tlbMayHit m = 0#4 <;> simp [tlbState, hst, hm, hb.own, TlbState.age]
  · simp [tlbState, hst, TlbState.age]
  · cases hq : (m.r.done || m.r.err) <;> simp [tlbState, hst, hw, hq, TlbState.age]

/-- No cycle of a page walk cache search counts twice. -/
theorem PwcBusy.age_step (hb : PwcBusy m.pr m.pwc) (hne : m.pr.state ≠ .waitw) :
    (pwcState m l).age ≤ m.pr.state.age + 1 ∨
      pwcState m l = .idle ∨ pwcState m l = .waitw := by
  have hin := hb.state
  cases hst : m.pr.state <;> rw [hst] at hin <;> try cases hin
  · cases hbad : m.pr.badEa <;> simp [pwcState, hst, hbad, PwcState.age]
  · simp [pwcState, hst, PwcState.age]
  · simp [pwcState, hst, (hb.data_at hst).2.2.1, PwcState.age]
  · cases hh : pwcHitNow m
    · rcases (hb.data_at hst).2.2.1 with ⟨hn, -⟩ | ⟨hn, -⟩ <;>
        simp [pwcState, hst, hh, hn, PwcState.age]
    · simp [pwcState, hst, hh, PwcState.age]
  · rcases (hb.data_at hst).2.2.2.2.2 with ⟨hn, -⟩ | ⟨hn, -⟩ <;>
      simp [pwcState, hst, hn, PwcState.age]
  · left
    refine (PwcState.age_le _).trans ?_
    simp [PwcState.age]
  · cases hmn : pwcMissNow m
    · rcases (hb.data_at hst).2.2.2.2 with ⟨hn, -⟩ | ⟨hn | hn, -⟩ <;>
        simp [pwcState, hst, hmn, hn, PwcState.age]
    · simp [pwcState, hst, hmn]
  · left
    refine (PwcState.age_le _).trans ?_
    simp [PwcState.age]
  · simp [pwcState, hst]
  · exact absurd hst hne

/-- A hit is reported after `RDPDE`, and stays. -/
theorem PwcBusy.hit_step_iff (hb : PwcBusy m.pr m.pwc) :
    (prin m l).hit = true ↔ m.pr.hit = true ∨ m.pr.state = .rdpde := by
  have hne := hb.ne_idle
  cases hst : m.pr.state <;> simp_all [prin]

/-- The TLB starts with the page walk cache and is done first. -/
theorem sync_step (he : Env mem s i) (hf : Flags s.mmu) (hs : Sync s.mmu)
    (ht : TlbUnit mem ptcr s.mmu) (hp : PwcUnit mem ptcr s.mmu) : Sync (s.step i).mmu := by
  intro hph'
  rw [step_state he] at hph'
  rw [step_tr he, step_pr he]
  rcases s.mmu.r.state.phase_cases with h | h | hph | hph | h | h
  · -- a request starts both searches
    simp only [PwcUnit, h, phase] at hp
    have hq : (s.mmu.r.done || s.mmu.r.err) = false := hf.quiet (by rw [h]; decide)
    rcases next_idle (i := i) h with ⟨-, -, hn⟩ | ⟨-, hn⟩ | ⟨hv, htl, -, -⟩
    · rw [hn] at hph'; cases hph'
    · rw [hn] at hph'; cases hph'
    · have hb := PwcBusy.start hp hq hv htl
      have hst : (prin s.mmu i.l).state = .search1 := by
        rw [prin_state hq]; simp [pwcState, hp, hv, htl]
      refine ⟨fun hh => ?_, fun _ _ => ?_⟩
      · rw [(hb.open_ (by rw [hst]; decide)).1] at hh; cases hh
      · rw [hst]; exact TlbState.one_le_age _
  · rcases next_tlbie (i := i) h with hn | ⟨hn, -⟩ <;> rw [hn] at hph' <;> cases hph'
  · obtain ⟨hhit, hage⟩ := hs hph
    obtain ⟨hne, hq⟩ := hf.underway hph (by simp) (by simp)
    obtain ⟨hv, -⟩ := he.quiet hne
    have hw := hf.not_wrTlb hph (by simp) (by simp)
    simp only [TlbUnit, hph] at ht
    simp only [PwcUnit, hph] at hp
    have htlb : min 6 (s.mmu.tr.state.age + 1) ≤ (trin s.mmu i.l).state.age := by
      rcases ht with ⟨-, hb⟩ | ha
      · exact hb.age_step hw
      · rw [ha.keep hv]; exact Nat.min_le_left _ _
    have hle := TlbState.age_le (trin s.mmu i.l).state
    rcases hp with ⟨-, hb⟩ | ha
    · refine ⟨fun hh => ?_, fun hin hnw => ?_⟩
      · rcases hb.hit_step_iff.mp hh with hh | hh
        · have := hhit hh
          omega
        · have := hage (by rw [hh]; rfl) (by rw [hh]; decide)
          rw [hh] at this
          simp only [PwcState.age] at this
          omega
      · rw [prin_state hq] at hin hnw ⊢
        have hpw : s.mmu.pr.state ≠ .waitw := fun hst => by
          have hstay := prin_waitw (l := i.l) hst (wrPwcram_search hf hph) hq
          rw [prin_state hq] at hstay
          exact hnw hstay
        have hold := hage hb.state hpw
        have h6 := PwcState.age_le (pwcState s.mmu i.l)
        rcases hb.age_step (l := i.l) hpw with h | h | h
        · omega
        · rw [h] at hin; cases hin
        · exact absurd h hnw
    · have ha' := ha.step (l := i.l) hv
      refine ⟨fun hh => ?_, fun hin _ => ?_⟩
      · rw [ha'.hit] at hh; cases hh
      · rw [ha'.state] at hin; cases hin
  · rcases next_walk (i := i) hph with hn | hn | hn <;> rw [hn] at hph' <;> cases hph'
  · rw [next_load h] at hph'; cases hph'
  · rw [next_finish h] at hph'; cases hph'

end

end Mmu

end Microwatt
