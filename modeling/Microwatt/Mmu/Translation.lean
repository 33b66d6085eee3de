import Microwatt.Mmu.Correct

/-!
# Every translation finishes with the reference outcome

The invariant says that an outcome, when it comes, is the right one. That it comes is a matter of
rank: the caches answer after a few cycles, every read of a table is answered in the end, and
every level of the walk leaves fewer address bits.

## Main results

* `Mmu.Inv.served` — a request that meets the invariant is served
* `Mmu.radix_walk` — a translation with empty caches
* `Mmu.caches_transparent` — a translation in the middle of a run
* `Mmu.contents_agree`
-/

namespace Microwatt

namespace Mmu

/-! ### The ports -/

/-- The request is for a translation. -/
def isTranslation (l : Loadstore1ToMmu) : Bool := l.valid && !l.tlbie

/-- The translation asked for. -/
def requestOf (l : Loadstore1ToMmu) : Request where
  addr := l.addr
  access := if l.iside then .fetch else if l.load then .load else .store
  priv := l.priv

/-- An entry sent to one of the L1 TLBs. -/
structure L1Load where
  iside : Bool
  addr : BitVec 64
  pte : BitVec 64
  deriving DecidableEq, Repr

/-- What is sent to the L1 TLBs in a cycle. -/
def l1Loads (m : State) : List L1Load :=
  (if (dOut m).tlbld then [⟨false, (dOut m).addr, (dOut m).pte⟩] else []) ++
    if (iOut m).tlbld then [⟨true, (iOut m).addr, (iOut m).pte⟩] else []

/-- What has to be sent to the L1 TLBs for an outcome. -/
def wantedLoads (q : Request) : Except Fault (BitVec 64) → List L1Load
  | .ok pte => [⟨q.access == .fetch, q.addr.extractLsb' 12 52 ++ 0#12, pte⟩]
  | .error _ => []

/-- The request taken at time `t` is answered at time `T` and not before, with the outcome `out`.
The PTE goes to the L1 TLB of the access one cycle earlier, and nothing else does. -/
structure Served (run : ℕ → Tracked) (is : ℕ → Inputs) (t T : ℕ) (q : Request)
    (out : Except Fault (BitVec 64)) : Prop where
  later : t < T
  quiet : ∀ u, t < u → u < T →
    (lOut (run u).mmu (is u)).done = false ∧ (lOut (run u).mmu (is u)).err = false
  answer : lOut (run T).mmu (is T) =
    { response out with sprval := (lOut (run T).mmu (is T)).sprval }
  loads : ∀ u, t < u → u ≤ T →
    l1Loads (run u).mmu = if u + 1 = T then wantedLoads q out else []

/-- Every read of a table is answered. -/
def Answered (run : ℕ → Tracked) (is : ℕ → Inputs) : Prop :=
  ∀ t, dcreq (run t).mmu = true → ∃ u, t < u ∧ (is u).d.done = true

/-! ### Searches end -/

/-- How many cycles the two searches can still take. -/
def searchRank (m : State) : ℕ := 6 - m.tr.state.age + m.pr.rank

section

variable {mem : Memory} {ptcr : BitVec 64} {s : Tracked} {i : Inputs}

/-- While the walk waits for the caches, the searches come closer to their ends. -/
theorem Inv.searchRank_step (h : Inv mem ptcr s) (he : Env mem s i)
    (hst : s.mmu.r.state = .tlbWait) :
    searchRank (s.step i).mmu ≤ searchRank s.mmu ∧
      ((tlbdone s.mmu && pwcdone s.mmu) = false →
        searchRank (s.step i).mmu < searchRank s.mmu) := by
  have hph : s.mmu.r.state.phase = .search := by rw [hst]; rfl
  have hq : (s.mmu.r.done || s.mmu.r.err) = false := h.flags.quiet (by rw [hst]; decide)
  obtain ⟨hv, -⟩ := he.quiet (by rw [hst]; decide)
  have hw := h.flags.not_wrTlb hph nofun nofun
  have htlb := h.tlb
  have hpwc := h.pwc
  simp only [TlbUnit, hph] at htlb
  simp only [PwcUnit, hph] at hpwc
  have h6 := TlbState.age_le (trin s.mmu i.l).state
  have ht : 6 - (trin s.mmu i.l).state.age ≤ 6 - s.mmu.tr.state.age ∧
      (tlbdone s.mmu = false → 6 - (trin s.mmu i.l).state.age < 6 - s.mmu.tr.state.age) := by
    rcases htlb with ⟨-, hb⟩ | ha
    · have hage := hb.age_step (l := i.l) hw
      refine ⟨by omega, fun hd => ?_⟩
      have hlt : s.mmu.tr.state.age < 6 := by
        have hnw : s.mmu.tr.state ≠ .waitw := fun hw => by
          rw [tlbdone, hb.found hw] at hd; cases hd
        have hin := hb.state
        cases hs : s.mmu.tr.state <;> simp_all [TlbState.age, TlbState.inSearch]
      omega
    · refine ⟨?_, fun hd => ?_⟩
      · rw [ha.keep hv, ha.state]
      · simp [tlbdone, ha.miss] at hd
  have hp : (prin s.mmu i.l).rank ≤ s.mmu.pr.rank ∧
      (pwcdone s.mmu = false → (prin s.mmu i.l).rank < s.mmu.pr.rank) := by
    rcases hpwc with ⟨-, hb⟩ | ha
    · by_cases hnw : s.mmu.pr.state = .waitw
      · refine ⟨?_, fun hd => ?_⟩
        · have hstay := prin_waitw (l := i.l) hnw (wrPwcram_search h.flags hph) hq
          simp [PwcReg.rank, hstay]
        · rw [pwcdone, hb.found hnw] at hd; cases hd
      · have hlt := hb.rank_step (l := i.l) hq hnw
        exact ⟨hlt.le, fun _ => hlt⟩
    · refine ⟨?_, fun hd => ?_⟩
      · simp [PwcReg.rank, prin_idle ha.state hv]
      · simp [pwcdone, ha.miss] at hd
  unfold searchRank
  rw [step_tr he, step_pr he]
  refine ⟨by omega, fun hd => ?_⟩
  rcases Bool.and_eq_false_iff.mp hd with hd | hd
  · have := ht.2 hd
    omega
  · have := hp.2 hd
    omega

/-! ### A request under way -/

/-- The MMU works on a request or has just finished it. -/
structure Serving (mem : Memory) (ptcr : BitVec 64) (pid : BitVec 12) (q : Request)
    (s : Tracked) : Prop where
  inv : Inv mem ptcr s
  pid_eq : s.mmu.r.pid = pid
  request_eq : s.mmu.r.request = q
  translating : s.translating = true

variable {pid : BitVec 12} {q : Request}

variable (h : Serving mem ptcr pid q s) (he : Env mem s i)

include h in
theorem Serving.want_eq : s.mmu.r.want mem ptcr = translate mem ptcr pid q := by
  rw [Walk.want, h.pid_eq, h.request_eq]

include h he in
/-- No write to the page walk cache can be cut before the request finishes. -/
theorem Serving.step (ha : s.mmu.r.state.phase.active = true) :
    Serving mem ptcr pid q (s.step i) := by
  have hne := active_ne_idle ha
  obtain ⟨-, hpid, -, -, -, htr⟩ := request_keeps he hne
  refine ⟨h.inv.step he fun hc => ?_, hpid.trans h.pid_eq,
    (want_keeps ptcr he hne).1.trans h.request_eq, htr.trans h.translating⟩
  have hq := h.inv.flags.quiet fun hs => by rw [hs] at ha; cases ha
  rw [hc.2.1] at hq
  cases hq

theorem Serving.start (h : Inv mem ptcr s) (he : Env mem s i) (hreq : isTranslation i.l = true) :
    Serving mem ptcr s.mmu.r.pid (requestOf i.l) (s.step i) ∧
      ((s.step i).mmu.r.state = .partTblRead ∨ (s.step i).mmu.r.state = .tlbWait) := by
  simp only [isTranslation, Bool.and_eq_true, Bool.not_eq_true'] at hreq
  obtain ⟨hv, ht⟩ := hreq
  have hm : i.l.mtspr = false := by simpa [hv] using he.single
  have hidle : s.mmu.r.state = .idle := he.idle (by simp [hv])
  have hn : (s.step i).mmu.r.state = .partTblRead ∨ (s.step i).mmu.r.state = .tlbWait := by
    rw [step_state he]
    rcases next_idle (i := i) hidle with ⟨hv', -⟩ | ⟨hreq, -⟩ | ⟨-, -, -, hn⟩
    · rw [hv] at hv'; cases hv'
    · rcases hreq with hm' | ⟨-, ht'⟩
      · rw [hm] at hm'; cases hm'
      · rw [ht] at ht'; cases ht'
    · exact hn.imp And.left And.left
  have hinv : Inv mem ptcr (s.step i) := h.step he fun hc => by
    have hq := h.flags.quiet (by rw [hidle]; decide)
    rw [hc.2.1] at hq
    cases hq
  refine ⟨⟨hinv, ?_, ?_, hinv.busy ?_⟩, hn⟩
  · simp [step_r he, rin, he.movesSpr_eq, hm]
  · rw [step_r he]
    simp only [Walk.request, Walk.access, rin, he.accepts_eq, hv, if_true, requestOf]
    cases i.l.iside <;> cases i.l.load <;> rfl
  · rcases hn with hn | hn <;> rw [hn] <;> rfl

/-! ### Ports and outcome -/

include h in
theorem Serving.quiet (ha : s.mmu.r.state.phase.active = true) :
    (lOut s.mmu i).done = false ∧ (lOut s.mmu i).err = false := by
  have hq := h.inv.flags.quiet fun hs => by rw [hs] at ha; cases ha
  simpa [lOut] using hq

include h in
theorem Serving.answer (hst : s.mmu.r.state = .radixFinish) :
    lOut s.mmu i =
      { response (translate mem ptcr pid q) with sprval := (lOut s.mmu i).sprval } := by
  have hwalk := h.inv.walk
  simp only [WalkOk, hst] at hwalk
  rw [← h.want_eq, ← hwalk h.translating]
  rfl

theorem l1Loads_of_ne {m : State} (h : m.r.state ≠ .radixLoadTlb) : l1Loads m = [] := by
  have hno : tlbLoad m = false := by simpa [tlbLoad] using h
  simp [l1Loads, dOut, iOut, hno]

include h in
theorem Serving.loads (hst : s.mmu.r.state = .radixLoadTlb) :
    l1Loads s.mmu = wantedLoads q (translate mem ptcr pid q) := by
  have hleaf := h.inv.walk
  simp only [WalkOk, hst] at hleaf
  have hno := h.inv.tlbieReq_false (by rw [hst]; decide)
  have hfetch : (q.access == .fetch) = s.mmu.r.iside := by
    rw [← h.request_eq]
    exact Walk.access_fetch
  have haddr : q.addr = s.mmu.r.addr := by rw [← h.request_eq]; rfl
  have hpte : outPte s.mmu = leafPte s.mmu.r.pde s.mmu.r.shift.toNat (pageOf s.mmu.r.addr) := by
    rw [← pteOf_eq]
    simp [outPte, hno, tlbLoad, hst]
  have hea : outAddr s.mmu = s.mmu.r.addr.extractLsb' 12 52 ++ 0#12 := by
    simp [outAddr, hno, tlbLoad, hst]
  rw [← h.want_eq, Walk.want_leaf hleaf.quad hleaf.leaf, useLeaf_ok _ hleaf.ok]
  simp only [wantedLoads, hfetch, haddr, l1Loads, dOut, iOut, tlbLoad, hst, hpte, hea]
  cases s.mmu.r.iside <;> rfl

/-- A request that finishes without a load to an L1 TLB finishes with an error. -/
theorem finish_error (he : Env mem s i) (ha : s.mmu.r.state.phase.active = true)
    (hst : s.mmu.r.state ≠ .radixLoadTlb) (hn : (s.step i).mmu.r.state = .radixFinish) :
    (s.step i).mmu.r.result.err = true := by
  rw [step_state he] at hn
  rw [step_r he]
  cases hs : s.mmu.r.state <;> simp only [hs] at ha hst <;> try cases ha
  case radixLoadTlb => exact absurd rfl hst
  case segmentCheck =>
    have hw : segAction s.mmu ≠ .walk := fun hw => by simp [walkState, hs, hw] at hn
    rw [result_segment hs rfl hw]
  case radixReadWait =>
    cases hd : i.d.done with
    | false => simp [walkState, hs, he.noErr, hd] at hn
    | true =>
      have hl : readAction s.mmu.r (data i) ≠ .leaf := fun hl => by
        simp [walkState, hs, he.noErr, hd, hl] at hn
      have hdsc : readAction s.mmu.r (data i) ≠ .descend := fun hl => by
        simp [walkState, hs, he.noErr, hd, hl] at hn
      rw [result_read he hs hd rfl hl hdsc]
  case procTblWait => cases hd : i.d.done <;> simp [walkState, hs, he.noErr, hd] at hn
  case tlbWait =>
    rcases next_search (i := i) (s := s) (by rw [hs]; rfl) with hn' | ⟨hn', -⟩ | ⟨hn', -⟩ <;>
      rw [hn] at hn' <;> cases hn'
  case partTblWait => cases hd : i.d.done <;> simp [walkState, hs, hd] at hn
  all_goals simp [walkState, hs] at hn

include h he in
theorem Serving.noLoads (ha : s.mmu.r.state.phase.active = true)
    (hst : s.mmu.r.state ≠ .radixLoadTlb) (hn : (s.step i).mmu.r.state = .radixFinish) :
    l1Loads s.mmu = wantedLoads q (translate mem ptcr pid q) := by
  have h' := h.step he ha
  have hwalk := h'.inv.walk
  simp only [WalkOk, hn] at hwalk
  have herr := finish_error he ha hst hn
  rw [hwalk h'.translating, h'.want_eq] at herr
  rw [l1Loads_of_ne hst]
  cases hw : translate mem ptcr pid q with
  | ok pte => rw [hw] at herr; cases herr
  | error f => rfl

/-! ### Progress -/

/-- The states from which the rank of the walk counts; the others wait for an answer. -/
def WalkState.checkpoint : WalkState → Bool
  | .partTblRead | .tlbWait | .procTblRead | .segmentCheck | .radixLookup | .radixLoadTlb => true
  | _ => false

/-- The rank of the walk. A level of the tree leaves fewer address bits, and a cached leaf that is
refused is looked at once. -/
def level (m : State) : ℕ :=
  match m.r.state with
  | .partTblRead => 200
  | .tlbWait => 110 + searchRank m + if m.r.rereadpte then 0 else 40
  | .procTblRead => 101
  | .segmentCheck => 100
  | .radixLookup => m.r.shift.toNat + 2
  | .radixLoadTlb => 1
  | _ => 0

structure Underway (mem : Memory) (ptcr : BitVec 64) (pid : BitVec 12) (q : Request)
    (s : Tracked) : Prop extends Serving mem ptcr pid q s where
  active : s.mmu.r.state.phase.active = true

/-- The request is being answered. -/
structure Finished (mem : Memory) (ptcr : BitVec 64) (pid : BitVec 12) (q : Request)
    (s : Tracked) : Prop extends Serving mem ptcr pid q s where
  state : s.mmu.r.state = .radixFinish

/-- A checkpoint of a request under way. -/
structure Checkpoint (mem : Memory) (ptcr : BitVec 64) (pid : BitVec 12) (q : Request)
    (s : Tracked) : Prop extends Serving mem ptcr pid q s where
  checkpoint : s.mmu.r.state.checkpoint = true

theorem WalkState.checkpoint_active {st : WalkState} (h : st.checkpoint = true) :
    st.phase.active = true := by
  cases st <;> first | rfl | cases h

theorem searchRank_le (m : State) : searchRank m ≤ 17 := by
  have h1 := TlbState.one_le_age m.tr.state
  have h2 := m.pr.rank_le
  unfold searchRank
  omega

theorem level_tlbWait_le {m : State} (h : m.r.state = .tlbWait) : level m < 200 := by
  have := searchRank_le m
  simp only [level, h]
  split_ifs <;> omega

theorem lt_level_tlbWait {m : State} (h : m.r.state = .tlbWait) : 110 ≤ level m := by
  simp only [level, h]
  omega

/-- A walk about to read a table has at most 45 address bits below it. -/
theorem Inv.level_lookup (h : Inv mem ptcr s) (hst : s.mmu.r.state = .radixLookup) :
    level s.mmu ≤ 47 := by
  have hwalk := h.walk
  simp only [WalkOk, hst] at hwalk
  have := hwalk.shift_le
  simp only [level, hst]
  omega

include h he in
/-- One cycle in `TLBWAIT` leads to a checkpoint of smaller rank. -/
theorem Serving.tlbWait_step (hst : s.mmu.r.state = .tlbWait) :
    (s.step i).mmu.r.state.checkpoint = true ∧ level (s.step i).mmu < level s.mmu := by
  have h' := h.step he (by rw [hst]; rfl)
  have hn := step_state he
  rw [walkState, hst] at hn
  have hlow := lt_level_tlbWait hst
  obtain ⟨hle, hlt⟩ := h.inv.searchRank_step he hst
  -- a search goes on
  have hwait : (s.step i).mmu.r.state = .tlbWait →
      searchRank (s.step i).mmu < searchRank s.mmu ∧
        (s.step i).mmu.r.rereadpte = s.mmu.r.rereadpte ∨
      (s.step i).mmu.r.rereadpte = true ∧ s.mmu.r.rereadpte = false →
      (s.step i).mmu.r.state.checkpoint = true ∧ level (s.step i).mmu < level s.mmu := by
    intro hs hcase
    refine ⟨by rw [hs]; rfl, ?_⟩
    simp only [level, hs, hst]
    rcases hcase with ⟨hlt, hr⟩ | ⟨hr, hr'⟩
    · rw [hr]
      omega
    · rw [hr, hr']
      simp only [if_true, Bool.false_eq_true, if_false]
      omega
  rcases waitAction_cases s.mmu with ⟨ha, hd⟩ | ⟨⟨ha, -⟩ | ⟨ha, -⟩, -, hr⟩ |
    ⟨⟨ha, -⟩ | ⟨ha, -⟩, -, -, -, hr⟩ | ⟨ha, -⟩ | ⟨⟨ha, -⟩ | ⟨ha, -⟩, -⟩ <;> simp only [ha] at hn
  · refine hwait hn (.inl ⟨hlt hd, ?_⟩)
    have hno : ∀ a, a ≠ .wait → waiting s.mmu a = false := fun a hne => by
      simp [waiting, ha, hne.symm]
    simp [step_r he, rin, hst, hno]
  · have hl : level (s.step i).mmu = 1 := by simp only [level, hn]
    exact ⟨by rw [hn]; rfl, by omega⟩
  · exact hwait hn (.inr ⟨by simp [step_r he, rin, hst, waiting, ha], hr⟩)
  · have hl : level (s.step i).mmu = 1 := by simp only [level, hn]
    exact ⟨by rw [hn]; rfl, by omega⟩
  · exact hwait hn (.inr ⟨by simp [step_r he, rin, hst, waiting, ha], hr⟩)
  · have := h'.inv.level_lookup hn
    exact ⟨by rw [hn]; rfl, by omega⟩
  · have hl : level (s.step i).mmu = 101 := by simp only [level, hn]
    exact ⟨by rw [hn]; rfl, by omega⟩
  · have hl : level (s.step i).mmu = 100 := by simp only [level, hn]
    exact ⟨by rw [hn]; rfl, by omega⟩

include h he in
theorem Serving.segmentCheck_step (hst : s.mmu.r.state = .segmentCheck) :
    (s.step i).mmu.r.state = .radixFinish ∨
      (s.step i).mmu.r.state.checkpoint = true ∧ level (s.step i).mmu < level s.mmu := by
  have h' := h.step he (by rw [hst]; rfl)
  have hn := step_state he
  rw [walkState, hst] at hn
  simp only at hn
  by_cases ha : segAction s.mmu = .walk
  · rw [if_pos ha] at hn
    refine .inr ⟨by rw [hn]; rfl, ?_⟩
    have := h'.inv.level_lookup hn
    simp only [level, hst] at this ⊢
    omega
  · rw [if_neg ha] at hn
    exact .inl hn

/-- The answer to a read of a table either ends the walk or leaves fewer address bits. -/
theorem radixReadWait_step (he : Env mem s i) (hst : s.mmu.r.state = .radixReadWait)
    (hd : i.d.done = true) :
    (s.step i).mmu.r.state = .radixFinish ∨
      (s.step i).mmu.r.state.checkpoint = true ∧
        level (s.step i).mmu < s.mmu.r.shift.toNat + 2 := by
  have hn := step_state he
  simp only [walkState, hst, he.noErr, hd, Bool.false_eq_true, if_false, if_true] at hn
  cases ha : readAction s.mmu.r (data i) <;> simp only [ha] at hn
  case leaf =>
    refine .inr ⟨by rw [hn]; rfl, ?_⟩
    simp only [level, hn]
    omega
  case descend =>
    refine .inr ⟨by rw [hn]; rfl, ?_⟩
    have hshift : (s.step i).mmu.r.shift = s.mmu.r.shift - mbitsOf (data i) := by
      simp [step_r he, rin, walkShift, hst, reading, hd, ha]
    have hmb : badMbits (mbitsOf (data i)) s.mmu.r.shift = false := by
      by_contra hb
      simp only [Bool.not_eq_false] at hb
      simp only [readAction, hb, if_true] at ha
      split_ifs at ha
    have hno : ¬((mbitsOf (data i)).toNat < 5 ∨ 16 < (mbitsOf (data i)).toNat ∨
        s.mmu.r.shift.toNat < (mbitsOf (data i)).toNat) := by
      rw [← badMbits_iff, hmb]
      decide
    simp only [level, hn]
    rw [hshift, BitVec.toNat_sub_of_le (by rw [BitVec.le_def]; omega)]
    omega
  all_goals exact .inl hn

end

section

open Clocked

variable {mem : Memory} {ptcr : BitVec 64} {pid : BitVec 12} {q : Request} {run : ℕ → Tracked}
  {is : ℕ → Inputs}

/-- What stays while an answer is awaited is there when it comes. -/
theorem Answered.until (hans : Answered run is) {R : ℕ → Prop} {u : ℕ}
    (hreq : dcreq (run u).mmu = true) (h1 : R (u + 1))
    (hstep : ∀ v, R v → (is v).d.done = false → R (v + 1)) :
    Until R (fun v => (is v).d.done = true ∧ R v) (u + 1) := by
  refine until_first ?_ h1 fun v _ hv hd => hstep v hv (by simpa using hd)
  obtain ⟨v, hv, hd⟩ := hans u hreq
  exact ⟨v, hv, hd⟩

section

variable (hrun : ∀ t, run (t + 1) = (run t).step (is t)) (henv : ∀ t, Env mem (run t) (is t))
  (hans : Answered run is)

include hrun henv hans

/-- From a checkpoint the run comes to a checkpoint of smaller rank or to the end. -/
theorem Checkpoint.progress {u : ℕ} (h : Checkpoint mem ptcr pid q (run u)) :
    Until (fun v => Underway mem ptcr pid q (run v))
      (fun v => Finished mem ptcr pid q (run v) ∨
        Checkpoint mem ptcr pid q (run v) ∧ level (run v).mmu < level (run u).mmu) u := by
  have hstate : ∀ v, (run (v + 1)).mmu.r.state = walkState (run v).mmu (is v) := fun v => by
    rw [hrun, step_state (henv v)]
  have hshift : ∀ v, (run (v + 1)).mmu.r.shift = walkShift (run v).mmu (is v) := fun v => by
    rw [hrun, step_r (henv v)]; rfl
  have hnext : ∀ {v}, Underway mem ptcr pid q (run v) → Serving mem ptcr pid q (run (v + 1)) :=
    fun {v} hv => by rw [hrun]; exact hv.toServing.step (henv v) hv.active
  have hu : Underway mem ptcr pid q (run u) :=
    ⟨h.toServing, WalkState.checkpoint_active h.checkpoint⟩
  -- where the next cycle decides
  have hone : ∀ {v}, Underway mem ptcr pid q (run v) →
      ((run (v + 1)).mmu.r.state = .radixFinish ∨
        (run (v + 1)).mmu.r.state.checkpoint = true ∧
          level (run (v + 1)).mmu < level (run u).mmu) →
      Until (fun v => Underway mem ptcr pid q (run v))
        (fun v => Finished mem ptcr pid q (run v) ∨
          Checkpoint mem ptcr pid q (run v) ∧ level (run v).mmu < level (run u).mmu) v :=
    fun hv hn => .later hv (.now (hn.imp (fun hf => ⟨hnext hv, hf⟩)
      fun hc => ⟨⟨hnext hv, hc.1⟩, hc.2⟩))
  -- where an answer is awaited, in the state `st`, while the address bits to go stay
  have hread : ∀ (st : WalkState) (k : BitVec 6), dcreq (run u).mmu = true →
      st.phase.active = true → (run (u + 1)).mmu.r.state = st →
      (run (u + 1)).mmu.r.shift = k →
      (∀ v, (run v).mmu.r.state = st → (is v).d.done = false →
        (run (v + 1)).mmu.r.state = st ∧ (run (v + 1)).mmu.r.shift = (run v).mmu.r.shift) →
      (∀ v, (run v).mmu.r.state = st → (run v).mmu.r.shift = k → (is v).d.done = true →
        (run (v + 1)).mmu.r.state = .radixFinish ∨
          (run (v + 1)).mmu.r.state.checkpoint = true ∧
            level (run (v + 1)).mmu < level (run u).mmu) →
      Until (fun v => Underway mem ptcr pid q (run v))
        (fun v => Finished mem ptcr pid q (run v) ∨
          Checkpoint mem ptcr pid q (run v) ∧ level (run v).mmu < level (run u).mmu) u := by
    intro st k hreq hst hn hk hstay hend
    have hway : ∀ {v}, Serving mem ptcr pid q (run v) → (run v).mmu.r.state = st →
        Underway mem ptcr pid q (run v) := fun hv hs => ⟨hv, by rw [hs]; exact hst⟩
    refine .later hu ?_
    have hwait := hans.until (R := fun v => Serving mem ptcr pid q (run v) ∧
      (run v).mmu.r.state = st ∧ (run v).mmu.r.shift = k) hreq ⟨hnext hu, hn, hk⟩ ?_
    · refine (hwait.imp (fun v hv => hway hv.1 hv.2.1) fun v _ hv => hv).trans ?_
      rintro v - ⟨hd, hv, hs, hk⟩
      exact hone (hway hv hs) (hend v hs hk hd)
    · rintro v ⟨hv, hs, hk⟩ hd
      obtain ⟨hs', hk'⟩ := hstay v hs hd
      exact ⟨hnext (hway hv hs), hs', hk'.trans hk⟩
  cases hst : (run u).mmu.r.state <;> have hc := h.checkpoint <;> rw [hst] at hc <;> try cases hc
  case partTblRead =>
    refine hread .partTblWait _ (by simp [dcreq, hst]) rfl
      (by rw [hstate, walkState, hst]) rfl ?_ ?_
    · intro v hs hd
      exact ⟨by simp [hstate, walkState, hs, hd], by simp [hshift, walkShift, hs]⟩
    · intro v hs _ hd
      have hn : (run (v + 1)).mmu.r.state = .tlbWait := by simp [hstate, walkState, hs, hd]
      refine .inr ⟨by rw [hn]; rfl, ?_⟩
      have := level_tlbWait_le hn
      simp only [level, hst] at this ⊢
      omega
  case procTblRead =>
    refine hread .procTblWait _ (by simp [dcreq, hst]) rfl
      (by rw [hstate, walkState, hst]) rfl ?_ ?_
    · intro v hs hd
      exact ⟨by simp [hstate, walkState, hs, hd, (henv v).noErr],
        by simp [hshift, walkShift, hs, hd]⟩
    · intro v hs _ hd
      have hn : (run (v + 1)).mmu.r.state = .segmentCheck := by
        simp [hstate, walkState, hs, hd, (henv v).noErr]
      refine .inr ⟨by rw [hn]; rfl, ?_⟩
      simp [level, hn, hst]
  case segmentCheck =>
    refine hone hu ?_
    rw [hrun]
    exact h.toServing.segmentCheck_step (henv u) hst
  case tlbWait =>
    refine hone hu (.inr ?_)
    rw [hrun]
    exact h.toServing.tlbWait_step (henv u) hst
  case radixLookup =>
    refine hread .radixReadWait (run u).mmu.r.shift (by simp [dcreq, hst]) rfl
      (by rw [hstate, walkState, hst]) (by simp [hshift, walkShift, hst]) ?_ ?_
    · intro v hs hd
      exact ⟨by simp [hstate, walkState, hs, hd, (henv v).noErr],
        by simp [hshift, walkShift, hs, hd, reading]⟩
    · intro v hs hk hd
      have hl : level (run u).mmu = (run v).mmu.r.shift.toNat + 2 := by
        rw [hk]; simp [level, hst]
      rw [hl, hrun]
      exact radixReadWait_step (henv v) hs hd
  case radixLoadTlb =>
    refine hone hu (.inl ?_)
    rw [hstate, walkState, hst]

/-- **A request that meets the invariant is served** with the outcome of the reference. -/
theorem Inv.served {t : ℕ} (h : Inv mem ptcr (run t)) (hreq : isTranslation (is t).l = true) :
    ∃ T, Served run is t T (requestOf (is t).l)
      (translate mem ptcr (run t).mmu.r.pid (requestOf (is t).l)) := by
  obtain ⟨hserve, hst⟩ := Serving.start h (henv t) hreq
  rw [← hrun] at hserve hst
  have hcheck : Checkpoint mem ptcr (run t).mmu.r.pid (requestOf (is t).l) (run (t + 1)) :=
    ⟨hserve, by rcases hst with hs | hs <;> rw [hs] <;> rfl⟩
  obtain ⟨T, hT, hfin, hall⟩ := until_of_rank (fun v => level (run v).mmu)
    (fun u hu => Checkpoint.progress hrun henv hans hu) hcheck
  have hlast : ∀ u, t < u → u < T → (run u).mmu.r.state = .radixLoadTlb → u + 1 = T := by
    intro u h1 h2 hs
    by_contra hne
    have ha := (hall (u + 1) (by omega) (by omega)).active
    rw [hrun, step_state (henv u), next_load hs] at ha
    cases ha
  refine ⟨T, by omega, fun u h1 h2 => (hall u h1 h2).toServing.quiet (hall u h1 h2).active,
    hfin.toServing.answer hfin.state, fun u h1 h2 => ?_⟩
  rcases Nat.eq_or_lt_of_le h2 with rfl | h2
  · rw [if_neg (by omega)]
    exact l1Loads_of_ne (by rw [hfin.state]; decide)
  · have hu := hall u h1 h2
    by_cases hl : (run u).mmu.r.state = .radixLoadTlb
    · rw [if_pos (hlast u h1 h2 hl)]
      exact hu.toServing.loads hl
    · by_cases huT : u + 1 = T
      · rw [if_pos huT]
        refine hu.toServing.noLoads (henv u) hu.active hl ?_
        rw [← hrun, huT]
        exact hfin.state
      · rw [if_neg huT]
        exact l1Loads_of_ne hl

end

end

/-! ### Runs -/

/-- The idle MMU with nothing in its caches, as after a reset. -/
structure Cold (m : State) : Prop where
  state : m.r.state = .idle
  done : m.r.done = false
  err : m.r.err = false
  wrTlbram : m.r.wrTlbram = false
  wrPwcram : m.r.wrPwcram = false
  tlbieReq : m.r.tlbieReq = false
  ptbValid : m.r.ptbValid = false
  pt0Valid : m.r.pt0Valid = false
  pt3Valid : m.r.pt3Valid = false
  tlbIdle : m.tr.state = .idle
  pwcIdle : m.pr.state = .idle
  tlbEmpty : ∀ set way, (entryAt m.tlb.words set way).valid = false
  pwcEmpty : ∀ set way, (entryAt m.pwc.words set way).valid = false

theorem Cold.inv {s : Tracked} (h : Cold s.mmu) (mem : Memory) : Inv mem s.mmu.r.ptcr s where
  flags :=
    { quiet := fun _ => by simp [h.done, h.err]
      finish := fun hs => by rw [h.state] at hs; cases hs
      wrTlb := fun hw => by rw [h.wrTlbram] at hw; cases hw
      wrPwc := fun hw => by rw [h.wrPwcram] at hw; cases hw
      tlbie := fun hw => by rw [h.tlbieReq] at hw; cases hw }
  ptcr_eq := rfl
  kind := fun ha => by rw [h.state] at ha; cases ha
  tables :=
    { prtbl := fun hv => by rw [h.ptbValid] at hv; cases hv
      pgtbl0 := fun hv => by rw [h.pt0Valid] at hv; cases hv
      pgtbl3 := fun hv => by rw [h.pt3Valid] at hv; cases hv }
  tlb := by
    simp only [TlbUnit, h.state, WalkState.phase]
    exact .inl h.tlbIdle
  pwc := by
    simp only [PwcUnit, h.state, WalkState.phase]
    exact h.pwcIdle
  sync := fun hs => by rw [h.state] at hs; cases hs
  tlbOk := fun set way _ hv => by rw [h.tlbEmpty] at hv; cases hv
  pwcOk := fun set way _ hv => by rw [h.pwcEmpty] at hv; cases hv
  tlbOrder := fun hs => by rw [h.state] at hs; cases hs
  pwcOrder := fun hw => by rw [h.wrPwcram] at hw; cases hw
  busy := fun ha => by rw [h.state] at ha; cases ha
  tlbie := fun hs => by rw [h.state] at hs; cases hs
  walk := by simp only [WalkOk, h.state]
  reread := fun ha => by rw [h.state] at ha; cases ha
  walkHit := fun hs => by rw [h.state] at hs; cases hs

section

open Clocked

variable {mem : Memory} {s : Tracked} {is : ℕ → Inputs}

/-- **Radix walk.** With empty caches a request is served, in finite time, with the outcome of
the reference recursion. -/
theorem radix_walk (hcold : Cold s.mmu) (henv : ∀ t, Env mem (trace Tracked.step s is t) (is t))
    (hans : Answered (trace Tracked.step s is) is) (hreq : isTranslation (is 0).l = true) :
    ∃ T, Served (trace Tracked.step s is) is 0 T (requestOf (is 0).l)
      (translate mem s.mmu.r.ptcr s.mmu.r.pid (requestOf (is 0).l)) :=
  Inv.served (t := 0) (fun _ => rfl) henv hans (hcold.inv mem) hreq

/-- The MMU after a reset and the moves to PTCR and PID. -/
def coldMmu (ptcr : BitVec 64) (pid : BitVec 12) : Tracked where
  mmu :=
    { r := { ptcr := ptcr, pid := pid }
      tr := {}
      tlb := ⟨fun _ => 0, 0, 0, fun _ => 0, 0⟩
      pr := { state := .idle }
      pwc := ⟨fun _ => 0, 0, 0, fun _ => 0, 0⟩ }
  asked := 0
  translating := false

theorem cold_coldMmu (ptcr : BitVec 64) (pid : BitVec 12) : Cold (coldMmu ptcr pid).mmu := by
  refine ⟨rfl, rfl, rfl, rfl, rfl, rfl, rfl, rfl, rfl, rfl, rfl, ?_, ?_⟩ <;>
  · intro set way
    change (field 0 way.toNat).getLsbD 15 = false
    revert way
    decide

def loadAt (ea : BitVec 64) : Loadstore1ToMmu := { valid := true, load := true, addr := ea }

/-- Requests at the times in `at_`, and every read of a table answered at once with `word`. -/
def constInputs (at_ : ℕ → Bool) (word : BitVec 64) (t : ℕ) : Inputs where
  l := if at_ t then loadAt 0x12345678 else {}
  d := { done := true, data := word }

theorem constInputs_env {at_ : ℕ → Bool} {word : BitVec 64} {s : Tracked} {t : ℕ}
    (h : at_ t = true → s.mmu.r.state = .idle) :
    Env (fun _ => word) s (constInputs at_ word t) := by
  refine ⟨rfl, fun _ => rfl, rfl, fun hv => h ?_, ?_, fun _ => ?_⟩
  · by_contra ht
    simp [constInputs, ht] at hv
  · cases ht : at_ t <;> simp [constInputs, ht, loadAt]
  · cases ht : at_ t <;> simp [constInputs, ht, loadAt]

/-- A 2 ^ 45 byte page at the root of the tree, its PTE being at all addresses. -/
theorem radix_walk_hugePage :
    ∃ T, Served (trace Tracked.step (coldMmu 0 1) (constInputs (· == 0) 0x86010000000000C0))
      (constInputs (· == 0) 0x86010000000000C0) 0 T ⟨0x12345678, .load, false⟩
      (.ok 0x12345186) := by
  have h := @radix_walk (fun _ => 0x86010000000000C0) (coldMmu 0 1)
    (constInputs (· == 0) 0x86010000000000C0) (cold_coldMmu 0 1)
    (fun t => constInputs_env fun ht => by rw [eq_of_beq ht]; rfl)
    (fun t _ => ⟨t + 1, Nat.lt_succ_self t, rfl⟩) rfl
  have hout : translate (fun _ => 0x86010000000000C0) 0 1 ⟨0x12345678, .load, false⟩ =
      .ok 0x12345186 := by
    unfold translate lookup lookupRoot
    rw [tree]
    decide +kernel
  rw [← hout]
  exact h

/-- **The caches are transparent** in every run that cuts no write to the page walk cache: every
translation is served with the outcome of the reference recursion, whatever went before. -/
theorem caches_transparent (hcold : Cold s.mmu)
    (henv : ∀ t, Env mem (trace Tracked.step s is t) (is t))
    (hcut : ∀ t, ¬PwcCut (trace Tracked.step s is t).mmu)
    (hans : Answered (trace Tracked.step s is) is) (t : ℕ) (hreq : isTranslation (is t).l = true) :
    ∃ T, Served (trace Tracked.step s is) is t T (requestOf (is t).l)
      (translate mem s.mmu.r.ptcr (trace Tracked.step s is t).mmu.r.pid
        (requestOf (is t).l)) := by
  have hinv : ∀ u, Inv mem s.mmu.r.ptcr (trace Tracked.step s is u) := by
    intro u
    induction u with
    | zero => exact hcold.inv mem
    | succ u ih => exact ih.step (henv u) (hcut u)
  exact Inv.served (fun _ => rfl) henv hans (hinv t) hreq

theorem idle_step {m : State} {i : Inputs} (hrst : i.rst = false) (hv : i.l.valid = false)
    (hm : i.l.mtspr = false) (h : m.r.state = .idle ∧ m.pr.state = .idle) :
    (Mmu.step m i).r.state = .idle ∧ (Mmu.step m i).pr.state = .idle := by
  simp [Mmu.step, hrst, rin, walkState, prin, pwcState, h, hv, hm]

/-- Every read of a table is answered at once. -/
def drive (mem : Memory) (s : Tracked) (l : Loadstore1ToMmu) : Inputs where
  l := l
  d := { done := true, data := mem s.asked }

theorem drive_env {mem : Memory} {s : Tracked} {l : Loadstore1ToMmu}
    (h : (l.valid && l.mtspr) = false ∧ l.sprnt = false ∧
      ((l.valid || l.mtspr) = true → s.mmu.r.state = .idle)) :
    Env mem s (drive mem s l) :=
  ⟨rfl, fun _ => rfl, rfl, h.2.2, h.1, fun _ => h.2.1⟩

/-- PID 1 has one page of 4k, at 4k. -/
def singlePage : Memory := fun a =>
  byteSwap <|
    if a = 0x10008 then 0x20000
    else if a = 0x20010 then 0x10000a
    else if a = 0x100000 then 0x8000000000200009
    else if a = 0x200008 then 0xC000000000400186
    else 0

def loadTwice (t : ℕ) : Loadstore1ToMmu := if t = 0 ∨ t = 20 then loadAt 0x1000 else {}

def twice : ℕ → Tracked :=
  trace (fun s l => s.step (drive singlePage s l)) (coldMmu 0x10000 1) loadTwice

def twiceInputs (t : ℕ) : Inputs := drive singlePage (twice t) (loadTwice t)

/-- Two loads from a page. The second one hits in the TLB. -/
theorem caches_transparent_again :
    (twice 25).mmu.tr.hit = true ∧
      ∃ T, Served twice twiceInputs 20 T ⟨0x1000, .load, false⟩ (.ok 0x400186) := by
  have hrun : (twice 25).mmu.tr.hit = true ∧ (twice 20).mmu.r.state = .idle ∧
      (twice 20).mmu.r.pid = 1 ∧ (twice 40).mmu.r.state = .idle ∧ (twice 40).mmu.pr.state = .idle ∧
      ∀ t < 40, ¬PwcCut (twice t).mmu := by
    decide +kernel
  obtain ⟨hhit, hst, hpid, hst₄₀, hpr₄₀, hcut⟩ := hrun
  have htrace : trace Tracked.step (coldMmu 0x10000 1) twiceInputs = twice :=
    trace_drive Tracked.step (drive singlePage) _ _
  have hrest : ∀ t,
      (twice (40 + t)).mmu.r.state = .idle ∧ (twice (40 + t)).mmu.pr.state = .idle := by
    intro t
    induction t with
    | zero => exact ⟨hst₄₀, hpr₄₀⟩
    | succ t ih =>
      have hl : loadTwice (40 + t) = {} := if_neg (by omega)
      refine
        idle_step (i := drive singlePage (twice (40 + t)) (loadTwice (40 + t))) rfl ?_ ?_ ih <;>
        simp [drive, hl]
  have hout : translate singlePage 0x10000 1 ⟨0x1000, .load, false⟩ = .ok 0x400186 := by
    unfold translate lookup lookupRoot
    rw [if_neg (by decide +kernel), if_neg (by decide +kernel), tree, if_neg (by decide +kernel)]
    dsimp only
    rw [if_neg (by decide +kernel), if_neg (by decide +kernel), tree]
    decide +kernel
  have h := @caches_transparent singlePage (coldMmu 0x10000 1) twiceInputs (cold_coldMmu 0x10000 1)
  rw [htrace] at h
  refine ⟨hhit, ?_⟩
  rw [← hout, ← hpid]
  refine h (fun t => drive_env ?_) (fun t hc => ?_)
    (fun t _ => ⟨t + 1, Nat.lt_succ_self t, rfl⟩) 20 rfl
  · rw [loadTwice]
    split
    · next ht =>
      refine ⟨rfl, rfl, fun _ => ?_⟩
      rcases ht with rfl | rfl
      · rfl
      · exact hst
    · exact ⟨rfl, rfl, by simp⟩
  · by_cases ht : t < 40
    · exact hcut t ht hc
    · obtain ⟨k, rfl⟩ := Nat.exists_eq_add_of_le (Nat.le_of_not_lt ht)
      cases (hrest k).2.symm.trans hc.1

/-! ### What a cut write does

PID 1 has directory entries at 0, 8G, 16G and 24G, all in one set of the page walk cache, and
nothing at 32G. PID 64 has a 2M page at 32G. -/

def twoProcesses : Memory := fun a =>
  byteSwap <|
    if a = 0x10008 then 0x20000
    else if a = 0x20010 then 0x1000d0
    else if a = 0x20400 then 0x2000d0
    else if a = 0x100000 ∨ a = 0x108000 ∨ a = 0x110000 ∨ a = 0x118000 then 0x8000000000300009
    else if a = 0x220000 then 0xC000000000400186
    else 0

/-- A move to PID. -/
def setPid (pid : BitVec 64) : Loadstore1ToMmu := { mtspr := true, rs := pid }

/-- An operation and the cycles until it is finished. -/
def takes (l : Loadstore1ToMmu) (n : ℕ) : List Loadstore1ToMmu := l :: List.replicate n {}

/-- Four loads of PID 1 fill the set, PID 64 loads from its 2M page, and PID 1 loads from 32G. -/
def cutRun : List Loadstore1ToMmu :=
  takes (loadAt 0) 13 ++ takes (loadAt 0x200000000) 13 ++ takes (loadAt 0x400000000) 13 ++
    takes (loadAt 0x600000000) 13 ++ takes (setPid 64) 2 ++ takes (loadAt 0x800000000) 12 ++
    takes (setPid 1) 2 ++ takes (loadAt 0x800000000) 8

/-- A cycle with the memory behind the data cache. -/
def served (s : Tracked) (l : Loadstore1ToMmu) : Tracked := s.step (drive twoProcesses s l)

def cut : Tracked := run served (coldMmu 0x10000 1) cutRun

/-- **A process gets the page of another.** PID 1 has no page at 32G, but its load is reported
done, since the head of the entry that PID 64's page was written to still names PID 1. -/
theorem caches_stale_leaf :
    ∃ s : Tracked,
      Reachable Tracked.step (Env twoProcesses)
          (fun s => Cold s.mmu ∧ s.mmu.r.ptcr = 0x10000) s ∧
        s.translating = true ∧ s.mmu.r.pid = 1 ∧
        s.mmu.r.request = ⟨0x800000000, .load, false⟩ ∧ (lOut s.mmu {}).done = true ∧
        translate twoProcesses 0x10000 1 ⟨0x800000000, .load, false⟩ = .error .invalid := by
  obtain ⟨hrun, htr, hpid, hreq, hdone⟩ : Allowed served
      (fun s l => (l.valid && l.mtspr) = false ∧ l.sprnt = false ∧
        ((l.valid || l.mtspr) = true → s.mmu.r.state = .idle)) (coldMmu 0x10000 1) cutRun ∧
      cut.translating = true ∧ cut.mmu.r.pid = 1 ∧
      cut.mmu.r.request = ⟨0x800000000, .load, false⟩ ∧ (lOut cut.mmu {}).done = true := by
    decide +kernel
  refine ⟨cut, ?_, htr, hpid, hreq, hdone, ?_⟩
  · exact reachable_drive ⟨cold_coldMmu 0x10000 1, rfl⟩ (hrun.imp fun s l => drive_env)
  unfold translate lookup lookupRoot
  rw [tree]
  decide +kernel

/-! ### What the caches hold -/

/-- **What the caches hold is in the tables.** In every run that cuts no write to the page walk
cache, each valid entry of the TLB and of the page walk cache, but for one that is being written, is
what the tables in memory have for the PID and the address in its tag. -/
theorem contents_agree {ptcr : BitVec 64}
    (h : Reachable Tracked.step (fun s i => Env mem s i ∧ ¬PwcCut s.mmu)
      (fun s => Cold s.mmu ∧ s.mmu.r.ptcr = ptcr) s) :
    TlbOk mem ptcr s.mmu.tlb.words s.mmu.tr.writes ∧
      PwcOk mem ptcr s.mmu.pwc.words s.mmu.pr.writes := by
  have hinv : Inv mem ptcr s := by
    refine h.induct ?_ fun s i hi he => hi.step he.1 he.2
    rintro s ⟨hcold, rfl⟩
    exact hcold.inv mem
  exact ⟨hinv.tlbOk, hinv.pwcOk⟩

/-- A load of PID 1 leaves a directory entry in the page walk cache. -/
theorem contents_agree_load :
    let s := run served (coldMmu 0x10000 1) (takes (loadAt 0) 13)
    (entryAt s.mmu.pwc.words 8 0).valid = true ∧
      PwcEntryOk twoProcesses 0x10000 (entryAt s.mmu.pwc.words 8 0) 8 := by
  intro s
  have hrun : Allowed served
      (fun s l => ((l.valid && l.mtspr) = false ∧ l.sprnt = false ∧
        ((l.valid || l.mtspr) = true → s.mmu.r.state = .idle)) ∧ ¬PwcCut s.mmu)
      (coldMmu 0x10000 1) (takes (loadAt 0) 13) := by decide +kernel
  have hidle : s.mmu.pr.state = .idle := by decide +kernel
  have hreach : Reachable Tracked.step (fun s i => Env twoProcesses s i ∧ ¬PwcCut s.mmu)
      (fun s => Cold s.mmu ∧ s.mmu.r.ptcr = 0x10000) s :=
    reachable_drive ⟨cold_coldMmu 0x10000 1, rfl⟩ (hrun.imp fun s l h => ⟨drive_env h.1, h.2⟩)
  refine ⟨by decide +kernel, (contents_agree hreach).2 8 0 fun hw => ?_⟩
  have hin := hw.1
  rw [hidle] at hin
  cases hin

end

end Mmu

end Microwatt
