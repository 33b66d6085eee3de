import Microwatt.Mmu.PwcSearch

/-!
# Writing to the page walk cache

A new entry takes three cycles: the table entry, the tag, and last the head that makes it valid.
For a directory entry the walk goes on meanwhile and the three writes are always made. A 2M leaf
ends the walk, and the end of the walk forces the state machine to `IDLE` in the cycle that writes
the tag: the head is never written. The way then holds the new leaf and tag under its old head.
If that head is for another address space the entry is wrong (`PwcCut`).

## Main definitions

* `Mmu.PwcWriting` — an entry is being written
* `Mmu.PwcCut` — a 2M leaf is left under the head of another address space

## Main results

* `Mmu.pwcOk_step`
-/

namespace Microwatt

namespace Mmu

/-- The hashes are those of the address. -/
def PwcKey (pr : PwcReg) : Prop := ∀ level, pr.setFor level = hashLevel level pr.addr pr.pid

/-- The states that write an entry after its first word. -/
def PwcState.inWrite : PwcState → Bool
  | .wrpte12M | .wrpte1W3 | .wrpte2 => true
  | _ => false

/-- The entry being written. -/
def PwcReg.writes (pr : PwcReg) (set : BitVec 6) (way : BitVec 2) : Prop :=
  pr.state.inWrite = true ∧ set = pr.rdHash ∧ way = pr.selWay

/-- That entry, as it is now. -/
abbrev PwcReg.entry (pr : PwcReg) (ram : Ram) : Entry := entryAt ram.words pr.rdHash pr.selWay

/-- An entry is being written. Its old head may still be there, and if that is the head of a larger
region, the tag in word 3 is too. -/
structure PwcWriting (mem : Memory) (ptcr : BitVec 64) (pr : PwcReg) (ram : Ram) : Prop where
  state : pr.state.inWrite = true
  key : PwcKey pr
  set_eq : pr.rdHash = hashLevel pr.wrLevel pr.addr pr.pid
  level_ne : pr.wrLevel ≠ 3
  level_2M : pr.state = .wrpte12M → pr.wrLevel = 0
  level_W3 : pr.state = .wrpte1W3 → pr.wrLevel ≠ 0
  fact : PwcFact mem ptcr pr.wrLevel pr.pid pr.addr (pr.entry ram).body
  leaf : (pr.entry ram).body.getLsbD 62 = pr.wrLeaf
  old : pr.state = .wrpte12M → (pr.entry ram).valid = true →
    (pr.entry ram).level = 0 ∨
      ∃ a, PwcMatch (pr.entry ram) pr.rdHash (pr.entry ram).level (pr.entry ram).pid a
  tag_ok : pr.state = .wrpte2 → PwcTag (pr.entry ram) pr.wrLevel pr.addr

/-- **The defect.** The write of a 2M leaf is cut off, and its way has a valid head of a 2M entry
of another address space. -/
def PwcCut (s : State) : Prop :=
  s.pr.state = .wrpte12M ∧ (s.r.done || s.r.err) = true ∧
    (s.pr.entry s.pwc).valid = true ∧
    (s.pr.entry s.pwc).level = 0 ∧
    (s.pr.entry s.pwc).pid ≠ s.pr.pid

instance (s : State) : Decidable (PwcCut s) := by unfold PwcCut; infer_instance

section

variable {s : State} {l : Loadstore1ToMmu} {mem : Memory} {ptcr : BitVec 64}

theorem prin_key (h : s.pr.state ≠ .idle) (hk : PwcKey s.pr) : PwcKey (prin s l) := by
  intro level
  obtain ⟨haddr, hpid, -⟩ := prin_keeps (l := l) h
  rw [prin_setFor h, haddr, hpid, hk level]

/-! ### The writes -/

theorem pwcOp_waitw (hst : s.pr.state = .waitw) (hw : s.r.wrPwcram = true) :
    (pwcOp s l).wraddr = pwcReplHash s ++ bodyIdx (pwcReplWay s) ∧
      (pwcOp s l).wren = 0b1111#4 ∧ (pwcOp s l).wrdata = s.r.pde := by
  simp [pwcOp, pwcIdx, pwcWrHash, hst, hw, bodyIdx]

theorem pwcOp_wrpte12M (hst : s.pr.state = .wrpte12M) :
    (pwcOp s l).wraddr = s.pr.rdHash ++ tagIdx s.pr.selWay ∧
      (pwcOp s l).wren = tagWren s.pr.selWay ∧
      (pwcOp s l).wrdata = (s.pr.addr ++ 0#1 : BitVec 32) ++ (s.pr.addr ++ 0#1 : BitVec 32) := by
  refine ⟨by simp only [pwcOp, pwcIdx, pwcWrHash, hst, tagIdx],
    by simp only [pwcOp, hst, tagWren], ?_⟩
  simp only [pwcOp, hst]
  refine BitVec.eq_of_getLsbD_eq fun k hk => ?_
  simp only [BitVec.getLsbD_append]
  by_cases h1 : k < 1
  · simp [h1, show k < 32 by omega]
  by_cases h2 : k < 32
  · simp [h1, h2, show k - 1 < 31 by omega]
  by_cases h3 : k < 33
  · simp [h1, h2, show ¬k - 1 < 31 by omega, show k - 1 - 31 < 1 by omega,
      show k - 32 < 1 by omega]
  · simp [h1, h2, show ¬k - 1 < 31 by omega, show ¬k - 1 - 31 < 1 by omega,
      show ¬k - 32 < 1 by omega, show k - 1 - 31 - 1 = k - 32 - 1 by omega]

theorem pwcOp_wrpte1W3 (hst : s.pr.state = .wrpte1W3) :
    (pwcOp s l).wraddr = s.pr.rdHash ++ 3#3 ∧ (pwcOp s l).wren = onehot s.pr.selWay ∧
      (pwcOp s l).wrdata = spread (s.pr.addr.extractLsb' 15 16) := by
  simp [pwcOp, pwcIdx, pwcWrHash, hst]

theorem pwcOp_wrpte2 (hst : s.pr.state = .wrpte2) :
    (pwcOp s l).wraddr = s.pr.rdHash ++ 0#3 ∧ (pwcOp s l).wren = onehot s.pr.selWay ∧
      (pwcOp s l).wrdata =
        spread (head (1#1 ++ BitVec.ofBool s.pr.wrLeaf) s.pr.wrLevel s.pr.pid) := by
  simp [pwcOp, pwcIdx, pwcWrHash, hst, head]

/-- What a cycle without writing an entry does to the RAM: nothing, or it clears heads. -/
theorem pwcOp_quiet (h : s.pr.state.inWrite = false)
    (hw : s.pr.state = .waitw → s.r.wrPwcram = false) :
    (pwcOp s l).wren = 0 ∨
      (pwcOp s l).wraddr = pwcWrHash s ++ 0#3 ∧ (pwcOp s l).wrdata = 0 := by
  cases hst : s.pr.state <;> simp_all [pwcOp, pwcIdx, PwcState.inWrite]

theorem extract_tag31 (a : BitVec 31) :
    (a ++ 0#1 : BitVec 32).extractLsb' 7 25 = a.extractLsb' 6 25 := by
  refine BitVec.eq_of_getLsbD_eq fun k hk => ?_
  simp only [BitVec.getLsbD_extractLsb', BitVec.getLsbD_append, hk, decide_true, Bool.true_and,
    show ¬7 + k < 1 by omega, if_false, show 7 + k - 1 = 6 + k by omega]

theorem extract_tag7 (a : BitVec 31) :
    (a.extractLsb' 15 16).extractLsb' 9 7 = a.extractLsb' 24 7 := by
  refine BitVec.eq_of_getLsbD_eq fun k hk => ?_
  simp only [BitVec.getLsbD_extractLsb', hk, decide_true, Bool.true_and,
    show 9 + k < 16 by omega, show 15 + (9 + k) = 24 + k by omega]

/-- A match of a larger region does not depend on the tag in word 1 or 2, nor on the body. -/
theorem PwcMatch.of_level_ne {hd : BitVec 16} {t t' : BitVec 32} {t3 : BitVec 16}
    {b b' : BitVec 64} {set : BitVec 6} {level : BitVec 2} {pid : BitVec 12} {a : BitVec 31}
    (h : PwcMatch ⟨hd, t, t3, b⟩ set level pid a) (h0 : level ≠ 0) :
    PwcMatch ⟨hd, t', t3, b'⟩ set level pid a := by
  refine ⟨h.valid, h.pid_eq, h.level_eq, ?_, h.set_eq⟩
  have ht := h.tag_ok
  unfold PwcTag at ht ⊢
  rwa [if_neg h0] at ht ⊢

/-! ### From the first word to the last -/

/-- The walk has read an entry to be cached: the page walk cache starts to write it. -/
theorem PwcWriting.start (hk : PwcKey s.pr) (hst : s.pr.state = .waitw)
    (hq : (s.r.done || s.r.err) = false) (hw : s.r.wrPwcram = true) (hre : s.r.rereadpte = false)
    (hlevel : s.r.pwcLevel ≠ 3) (hf : PwcFact mem ptcr s.r.pwcLevel s.pr.pid s.pr.addr s.r.pde)
    (hok : PwcOk mem ptcr s.pwc.words s.pr.writes) :
    PwcWriting mem ptcr (prin s l) (pwcNext s l) := by
  have hne : s.pr.state ≠ .idle := by rw [hst]; decide
  obtain ⟨hop, hen, hdat⟩ := pwcOp_waitw (l := l) hst hw
  obtain ⟨haddr, hpid, -⟩ := prin_keeps (l := l) hne
  have hsel : (prin s l).selWay = pwcReplWay s := by simp [prin, pwcSelWay, hst, hw]
  have hset : (prin s l).rdHash = pwcReplHash s := by simp [prin, pwcRdHash, hst, hw]
  have hlev : (prin s l).wrLevel = s.r.pwcLevel := by simp [prin, hst]
  have hhash : pwcReplHash s = hashLevel s.r.pwcLevel s.pr.addr s.pr.pid := by
    rw [← hk]
    simp [pwcReplHash, hre, PwcReg.setFor]
  have hentry : entryAt (pwcNext s l).words (pwcReplHash s) (pwcReplWay s) =
      ⟨(entryAt s.pwc.words (pwcReplHash s) (pwcReplWay s)).head,
        (entryAt s.pwc.words (pwcReplHash s) (pwcReplWay s)).tag,
        (entryAt s.pwc.words (pwcReplHash s) (pwcReplWay s)).tag3, s.r.pde⟩ := by
    rw [pwcNext, entryAt_writeBody _ _ _ hop hen, if_pos ⟨rfl, rfl⟩, hdat]
  have hstate : (prin s l).state =
      if s.r.pwcLevel = 0 then .wrpte12M else .wrpte1W3 := by
    rw [prin_state hq]
    simp [pwcState, hst, hw]
  refine ⟨?_, prin_key hne hk, ?_, by rwa [hlev], ?_, ?_, ?_, ?_, ?_, ?_⟩
  · rw [hstate]; split <;> rfl
  · rw [hset, hlev, haddr, hpid, hhash]
  · rw [hstate, hlev]
    intro h
    by_contra h0
    rw [if_neg h0] at h
    cases h
  · rw [hstate, hlev]
    intro h h0
    rw [if_pos h0] at h
    cases h
  · rw [hlev, haddr, hpid, PwcReg.entry, hset, hsel, hentry]
    exact hf
  · rw [PwcReg.entry, hset, hsel, hentry]
    simp [prin, hst]
  · rw [PwcReg.entry, hset, hsel, hentry]
    intro _ hv
    by_cases h0 : (entryAt s.pwc.words (pwcReplHash s) (pwcReplWay s)).level = 0
    · exact .inl h0
    · obtain ⟨a, hm, -⟩ := hok (pwcReplHash s) (pwcReplWay s)
        (fun hb => by rw [PwcReg.writes, hst] at hb; exact absurd hb.1 (by decide)) hv
      exact .inr ⟨a, hm.of_level_ne h0⟩
  · rw [hstate]
    intro h
    split at h <;> cases h

theorem PwcWriting.tag (h : PwcWriting mem ptcr s.pr s.pwc) (hst : s.pr.state ≠ .wrpte2)
    (hq : (s.r.done || s.r.err) = false) : PwcWriting mem ptcr (prin s l) (pwcNext s l) := by
  have hstates : s.pr.state = .wrpte12M ∨ s.pr.state = .wrpte1W3 := by
    have hw := h.state
    cases hs : s.pr.state <;> simp_all [PwcState.inWrite]
  have hne : s.pr.state ≠ .idle := by rcases hstates with hs | hs <;> rw [hs] <;> decide
  obtain ⟨haddr, hpid, -⟩ := prin_keeps (l := l) hne
  have hs : (prin s l).state = .wrpte2 := by
    rw [prin_state hq]
    rcases hstates with hs | hs <;> simp [pwcState, hs]
  have hsel : (prin s l).selWay = s.pr.selWay := by
    rcases hstates with hs | hs <;> simp [prin, pwcSelWay, hs]
  have hset : (prin s l).rdHash = s.pr.rdHash := by
    rcases hstates with hs | hs <;> simp [prin, pwcRdHash, hs]
  have hlev : (prin s l).wrLevel = s.pr.wrLevel := by
    rcases hstates with hs | hs <;> simp [prin, hs]
  have hleaf : (prin s l).wrLeaf = s.pr.wrLeaf := by
    rcases hstates with hs | hs <;> simp [prin, hs]
  have hentry : (entryAt (pwcNext s l).words s.pr.rdHash s.pr.selWay).body =
      (s.pr.entry s.pwc).body ∧
      PwcTag (entryAt (pwcNext s l).words s.pr.rdHash s.pr.selWay) s.pr.wrLevel s.pr.addr := by
    rcases hstates with hs | hs
    · obtain ⟨hop, hen, hdat⟩ := pwcOp_wrpte12M (l := l) hs
      rw [pwcNext, entryAt_writeTag _ _ _ hop hen, if_pos ⟨rfl, rfl⟩, hdat, lane32_pair,
        h.level_2M hs]
      exact ⟨rfl, extract_tag31 _⟩
    · obtain ⟨hop, hen, hdat⟩ := pwcOp_wrpte1W3 (l := l) hs
      rw [pwcNext, entryAt_writeTag3 _ _ _ hop hen, if_pos ⟨rfl, rfl⟩, hdat, field_spread]
      refine ⟨rfl, ?_⟩
      unfold PwcTag
      rw [if_neg (h.level_W3 hs)]
      by_cases h1 : s.pr.wrLevel = 1
      · rw [if_pos h1]
      · have h2 : s.pr.wrLevel = 2 := by
          have h0 := h.level_W3 hs
          have h3 := h.level_ne
          revert h0 h1 h3
          generalize s.pr.wrLevel = lv
          revert lv
          decide
        rw [if_neg h1, if_pos h2]
        exact extract_tag7 _
  have hno : ∀ {st}, st ≠ .wrpte2 → (prin s l).state ≠ st := fun hst hc => hst (hc.symm.trans hs)
  refine ⟨by rw [hs]; rfl, prin_key hne h.key, ?_, by rw [hlev]; exact h.level_ne,
    fun hc => absurd hc (hno (by decide)), fun hc => absurd hc (hno (by decide)), ?_, ?_,
    fun hc => absurd hc (hno (by decide)), fun _ => ?_⟩
  · rw [hset, hlev, haddr, hpid, h.set_eq]
  · rw [hlev, haddr, hpid, PwcReg.entry, hset, hsel, hentry.1]
    exact h.fact
  · rw [PwcReg.entry, hset, hsel, hentry.1, hleaf]
    exact h.leaf
  · rw [PwcReg.entry, hset, hsel, hlev, haddr]
    exact hentry.2

theorem PwcWriting.finish (h : PwcWriting mem ptcr s.pr s.pwc) (hst : s.pr.state = .wrpte2) :
    PwcEntryOk mem ptcr (entryAt (pwcNext s l).words s.pr.rdHash s.pr.selWay) s.pr.rdHash := by
  obtain ⟨hop, hen, hdat⟩ := pwcOp_wrpte2 (l := l) hst
  rw [pwcNext, entryAt_writeHead _ _ _ hop, hen, onehot_getLsbD, if_pos (by simp), hdat,
    field_spread]
  intro _
  rw [level_head, pid_head]
  refine ⟨s.pr.addr, ⟨?_, pid_head .., level_head .., h.tag_ok hst, h.set_eq.symm⟩, h.fact⟩
  rw [valid_head]
  cases s.pr.wrLeaf <;> rfl

/-- The entry that a cut leaves is right if its head is not that of another address space. -/
theorem PwcWriting.cut (h : PwcWriting mem ptcr s.pr s.pwc) (hst : s.pr.state = .wrpte12M)
    (hq : (s.r.done || s.r.err) = true) (hleaf : s.pr.wrLeaf = true) (hc : ¬PwcCut s) :
    PwcEntryOk mem ptcr (entryAt (pwcNext s l).words s.pr.rdHash s.pr.selWay) s.pr.rdHash := by
  obtain ⟨hop, hen, hdat⟩ := pwcOp_wrpte12M (l := l) hst
  rw [pwcNext, entryAt_writeTag _ _ _ hop hen, if_pos ⟨rfl, rfl⟩, hdat, lane32_pair]
  intro hv
  have hlevel := h.level_2M hst
  by_cases h0 : (s.pr.entry s.pwc).level = 0
  · -- the old head is for a 2M entry of the same address space
    have hpid : (s.pr.entry s.pwc).pid = s.pr.pid := by
      by_contra hne
      exact hc ⟨hst, hq, hv, h0, hne⟩
    refine ⟨s.pr.addr, ⟨hv, rfl, rfl, ?_, ?_⟩, ?_⟩
    · change PwcTag _ (s.pr.entry s.pwc).level _
      rw [h0]
      exact extract_tag31 _
    · change hashLevel (s.pr.entry s.pwc).level _ (s.pr.entry s.pwc).pid = _
      rw [h0, hpid, h.set_eq, hlevel]
    · change PwcFact mem ptcr (s.pr.entry s.pwc).level (s.pr.entry s.pwc).pid _ _
      rw [h0, hpid, ← hlevel]
      exact h.fact
  · -- the old head is for a larger region, where a leaf says nothing
    obtain ⟨a, hm⟩ := (h.old hst hv).resolve_left h0
    refine ⟨a, hm.of_level_ne h0, ⟨fun hl => ?_, fun hl => absurd hl h0⟩⟩
    have hbody := h.leaf
    rw [hleaf] at hbody
    exact absurd (hl.symm.trans hbody) Bool.false_ne_true

/-- **The contents of the page walk cache stay right**, unless a write is cut. -/
theorem pwcOk_step (h : PwcOk mem ptcr s.pwc.words s.pr.writes)
    (hwr : s.pr.state.inWrite = true → PwcWriting mem ptcr s.pr s.pwc)
    (hend : s.pr.state = .wrpte12M ∨ s.pr.state = .wrpte1W3 → (s.r.done || s.r.err) = true →
      s.pr.state = .wrpte12M ∧ s.pr.wrLeaf = true)
    (hquiet : s.r.wrPwcram = true → (s.r.done || s.r.err) = false) (hc : ¬PwcCut s) :
    PwcOk mem ptcr (pwcNext s l).words (prin s l).writes := by
  have hwords : (pwcNext s l).words = writeWord s.pwc.words (pwcOp s l) := rfl
  by_cases h2 : s.pr.state = .wrpte2
  · -- the head completes the entry
    obtain ⟨hop, hen, -⟩ := pwcOp_wrpte2 (l := l) h2
    intro set way _
    by_cases hent : set = s.pr.rdHash ∧ way = s.pr.selWay
    · rw [hent.1, hent.2]
      exact (hwr (by rw [h2]; rfl)).finish h2
    · rw [hwords, entryAt_writeHead _ _ _ hop, if_neg]
      · exact h set way fun hb => hent hb.2
      · rintro ⟨hset, hbit⟩
        rw [hen, onehot_getLsbD, decide_eq_true_eq] at hbit
        exact hent ⟨hset, hbit⟩
  by_cases h1 : s.pr.state = .wrpte12M ∨ s.pr.state = .wrpte1W3
  · -- the tag; the entry stays under way unless the walk ends now
    have hin : s.pr.state.inWrite = true := by rcases h1 with hs | hs <;> rw [hs] <;> rfl
    have hother : ∀ set way, ¬(set = s.pr.rdHash ∧ way = s.pr.selWay) →
        entryAt (pwcNext s l).words set way = entryAt s.pwc.words set way := by
      intro set way hent
      rw [hwords]
      rcases h1 with hs | hs
      · obtain ⟨hop, hen, -⟩ := pwcOp_wrpte12M (l := l) hs
        rw [entryAt_writeTag _ _ _ hop hen, if_neg hent]
      · obtain ⟨hop, hen, -⟩ := pwcOp_wrpte1W3 (l := l) hs
        rw [entryAt_writeTag3 _ _ _ hop hen, if_neg hent]
    intro set way hb
    by_cases hent : set = s.pr.rdHash ∧ way = s.pr.selWay
    · cases hq : (s.r.done || s.r.err) with
      | true =>
        obtain ⟨hst, hleaf⟩ := hend h1 hq
        rw [hent.1, hent.2]
        exact (hwr hin).cut hst hq hleaf hc
      | false =>
        refine absurd ⟨?_, ?_, ?_⟩ hb
        · rw [prin_state hq]
          rcases h1 with hs | hs <;> simp [pwcState, hs, PwcState.inWrite]
        · rcases h1 with hs | hs <;> simp [prin, pwcRdHash, hs, hent.1]
        · rcases h1 with hs | hs <;> simp [prin, pwcSelWay, hs, hent.2]
    · rw [hother set way hent]
      exact h set way fun hb' => hent hb'.2
  have hin : s.pr.state.inWrite = false := by
    cases hst : s.pr.state <;> simp_all [PwcState.inWrite]
  have hfree : ∀ set way, ¬s.pr.writes set way := by
    rintro set way ⟨hw, -⟩
    rw [hin] at hw
    cases hw
  by_cases hw : s.pr.state = .waitw ∧ s.r.wrPwcram = true
  · -- the first word of a new entry
    obtain ⟨hop, hen, -⟩ := pwcOp_waitw (l := l) hw.1 hw.2
    intro set way hb
    by_cases hent : set = pwcReplHash s ∧ way = pwcReplWay s
    · refine absurd ⟨?_, ?_, ?_⟩ hb
      · rw [prin_state (hquiet hw.2)]
        simp only [pwcState, hw.1, hw.2, if_true]
        split <;> rfl
      · simp [prin, pwcRdHash, hw.1, hw.2, hent.1]
      · simp [prin, pwcSelWay, hw.1, hw.2, hent.2]
    · rw [hwords, entryAt_writeBody _ _ _ hop hen, if_neg hent]
      exact h set way (hfree set way)
  have hq : PwcOk mem ptcr s.pwc.words (prin s l).writes :=
    h.frame fun set way _ _ => ⟨hfree set way, rfl⟩
  rw [hwords]
  rcases pwcOp_quiet (l := l) hin (fun hst => by simpa [hst] using hw) with hen | ⟨hop, hdat⟩
  · rw [writeWord_none _ hen]; exact hq
  · exact hq.frame fun _ _ hb hv => ⟨hb, entryAt_zero_heads hop hdat hv⟩

end

end Mmu

end Microwatt
