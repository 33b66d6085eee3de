import Microwatt.Mmu.TlbSearch

/-!
# The 4k TLB as a table

A single-page tlbie clears the matching entries, and a page never gets two of them.

An insert takes three cycles, and in the first two of them the new entry has the new head and the
old tag. It may look like another entry of the set then; nothing searches at that time. So the
statement that a page has one entry leaves out the entry that is being written.

## Main results

* `Mmu.TlbLooks.next` — a search knows in each state what it should
* `Mmu.TlbLooks.tlbie` — a tlbie goes on, or has cleared the matching entries
* `Mmu.TlbOne.step` — a page gets no second entry
-/

namespace Microwatt

namespace Mmu

variable {words : Words} {pid : BitVec 12} {a : BitVec 40}

/-- The matching entries of the page have been cleared and nothing else has changed. -/
def TlbCleared (words words' : Words) (pid : BitVec 12) (a : BitVec 40) : Prop :=
  ∀ set way, entryAt words' set way =
    if set = hash4k a pid ∧ tlbHit words pid a way = true then
      { entryAt words set way with head := 0 }
    else entryAt words set way

theorem TlbCleared.of_none (h : ∀ way, tlbHit words pid a way = false) :
    TlbCleared words words pid a := by
  intro set way
  rw [if_neg]
  rw [h way]
  exact fun hc => Bool.false_ne_true hc.2

theorem TlbCleared.lookup {words words' : Words}
    (h : TlbCleared words words' pid a) : tlbLookup words' pid a = none := by
  refine Ways.first_eq_none.mpr fun way => ?_
  rw [tlbHit, h]
  cases hm : tlbHit words pid a way with
  | true => rw [if_pos ⟨rfl, rfl⟩, tlbHead_zero, Bool.false_and]
  | false =>
    rw [if_neg (by simp)]
    exact hm

section

variable {s : State} {l : Loadstore1ToMmu}

/-! ### The end of a single-page tlbie -/

section

variable (hb : TlbLooks s.tr s.tlb)

include hb

theorem TlbLooks.search2_done (hst : s.tr.state = .search2) (hm : tlbMayHit s = 0#4)
    (htl : s.tr.isTlbie = true) :
    (trin s l).state = .idle ∧ (trin s l).tlbieDone = true ∧
      TlbCleared s.tlb.words (tlbNext s l).words s.tr.pid s.tr.addr := by
  have hd := hb.data
  simp only [TlbExact, hst] at hd
  have hwords : (tlbNext s l).words = s.tlb.words := writeWord_none _ (by simp [tlbOp, hst])
  refine ⟨by simp [trin, tlbState, hst, hm, htl], by simp [trin, hst, hm, htl], ?_⟩
  rw [hwords]
  refine TlbCleared.of_none fun way => ?_
  rw [hb.tlbHit_eq, ← mayHit_search2 hst hd.1, eq_zero_iff_ways.mp hm way, Bool.false_and]

/-- The heads of the ways left over are cleared in `SEARCH4`. -/
theorem TlbLooks.search4_done (hst : s.tr.state = .search4) (htl : s.tr.isTlbie = true) :
    (trin s l).state = .idle ∧ (trin s l).tlbieDone = true ∧
      TlbCleared s.tlb.words (tlbNext s l).words s.tr.pid s.tr.addr := by
  refine ⟨by simp [trin, tlbState, hst, htl], by simp [trin, hst, htl], fun set way => ?_⟩
  have hop : (tlbOp s l).wraddr = s.tr.wrHash ++ 0#3 := by simp [tlbOp, tlbIdx, hst, htl]
  have hen : (tlbOp s l).wren = tlbMayHit s := by simp [tlbOp, hst, htl]
  have hdat : (tlbOp s l).wrdata = 0 := by simp [tlbOp, hst]
  have hwords : (tlbNext s l).words = writeWord s.tlb.words (tlbOp s l) := rfl
  rw [hwords, entryAt_writeHead _ _ _ hop, hen, hdat, field_zero, hb.mayHit4 hst, hb.wrHash,
    hb.hash]

end

/-- **The search is exact all the time.** Whenever the TLB searches after a step, it knows what it
should; a search begins in the idle state only. -/
theorem TlbLooks.next (h : s.tr.state.inSearch = true → TlbLooks s.tr s.tlb)
    (hs : (trin s l).state.inSearch = true) : TlbLooks (trin s l) (tlbNext s l) := by
  have hstate : (trin s l).state = tlbState s l := rfl
  rw [hstate] at hs
  cases hst : s.tr.state with
  | idle =>
    refine (TlbLooks.start hst ?_).1
    simp only [tlbState, hst] at hs
    rw [hstate]
    simp only [tlbState, hst]
    split_ifs at hs ⊢ <;> first | rfl | cases hs
  | search1 =>
    refine (h (by rw [hst]; rfl)).search1 hst ?_
    by_contra hbad
    simp [tlbState, hst, hbad, TlbState.inSearch] at hs
  | search2 =>
    refine (h (by rw [hst]; rfl)).search2 hst ?_
    by_contra hno
    rw [not_or, not_not] at hno
    simp [tlbState, hst, hno.1, hno.2, TlbState.inSearch] at hs
  | search3 => exact (h (by rw [hst]; rfl)).search3 hst
  | search4 =>
    refine (h (by rw [hst]; rfl)).search4 hst ?_
    by_contra htl
    rw [Bool.not_eq_false] at htl
    simp [tlbState, hst, htl, TlbState.inSearch] at hs
  | rdpte => exact (h (by rw [hst]; rfl)).rdpte hst
  | waitw =>
    simp only [tlbState, hst] at hs
    split_ifs at hs with hw hd
    · cases hs
    · cases hs
    · rw [Bool.or_eq_true, not_or] at hd
      exact (h (by rw [hst]; rfl)).waitw hst (by simpa using hw) (by simpa using hd.1)
        (by simpa using hd.2)
  | wrpte1 => simp [tlbState, hst, TlbState.inSearch] at hs
  | wrpte2 => simp [tlbState, hst, TlbState.inSearch] at hs
  | inval1 => simp [tlbState, hst, TlbState.inSearch] at hs
  | inval2 =>
    simp only [tlbState, hst] at hs
    split_ifs at hs <;> cases hs

/-- The search for a translation goes on until the answer is there. -/
theorem tlbState_go (hst : s.tr.state.inSearch = true) (hne : s.tr.state ≠ .waitw)
    (hgood : s.tr.badEa = false) (hown : s.tr.isTlbie = false) :
    (trin s l).state.inSearch = true ∧ s.tr.state.age < (trin s l).state.age := by
  have hstate : (trin s l).state = tlbState s l := rfl
  rw [hstate]
  cases h : s.tr.state <;> rw [h] at hst hne <;> try cases hst
  case waitw => exact absurd rfl hne
  case search1 => simp [tlbState, h, hgood, TlbState.inSearch, TlbState.age]
  case rdpte => simp [tlbState, h, TlbState.inSearch, TlbState.age]
  all_goals
    simp only [tlbState, h, hown]
    split_ifs <;> first | exact ⟨rfl, by decide⟩ | simp_all

theorem TlbLooks.tlbie (hb : TlbLooks s.tr s.tlb) (hgood : s.tr.badEa = false)
    (htl : s.tr.isTlbie = true) :
    ((trin s l).state.inSearch = true ∧ s.tr.state.age < (trin s l).state.age ∧
        (tlbNext s l).words = s.tlb.words) ∨
      ((trin s l).state = .idle ∧ (trin s l).tlbieDone = true ∧
        TlbCleared s.tlb.words (tlbNext s l).words s.tr.pid s.tr.addr) := by
  have hst := hb.state
  have hwords : (tlbOp s l).wren = 0 → (tlbNext s l).words = s.tlb.words := writeWord_none _
  cases h : s.tr.state <;> rw [h] at hst <;> try cases hst
  case search1 =>
    have hs : (trin s l).state = .search2 := by simp [trin, tlbState, h, hgood]
    exact .inl ⟨by rw [hs]; rfl, by rw [hs]; decide, hwords (by simp [tlbOp, h])⟩
  case search2 =>
    by_cases hm : tlbMayHit s = 0#4
    · exact .inr (hb.search2_done h hm htl)
    · have hs : (trin s l).state = .search3 := by simp [trin, tlbState, h, hm]
      exact .inl ⟨by rw [hs]; rfl, by rw [hs]; decide, hwords (by simp [tlbOp, h])⟩
  case search3 =>
    have hs : (trin s l).state = .search4 := by simp [trin, tlbState, h, htl]
    exact .inl ⟨by rw [hs]; rfl, by rw [hs]; decide, hwords (by simp [tlbOp, h])⟩
  case search4 => exact .inr (hb.search4_done h htl)
  case rdpte =>
    rw [hb.asked (.inl h)] at htl
    cases htl
  case waitw =>
    rw [hb.asked (.inr h)] at htl
    cases htl

/-! ### At most one entry for a page -/

/-- At most one way of the hashed set holds an entry for the page, those in `busy` apart. -/
def TlbSole (words : Words) (busy : BitVec 6 → BitVec 2 → Prop) (pid : BitVec 12)
    (a : BitVec 40) : Prop :=
  ∀ way way', ¬busy (hash4k a pid) way → ¬busy (hash4k a pid) way' →
    tlbHit words pid a way = true → tlbHit words pid a way' = true → way = way'

theorem tlbHit_congr {words words' : Words} {pid : BitVec 12} {a : BitVec 40}
    {way : BitVec 2} (h : entryAt words' (hash4k a pid) way = entryAt words (hash4k a pid) way) :
    tlbHit words' pid a way = tlbHit words pid a way := by
  rw [tlbHit, tlbHit, h]

theorem tlbHit_of_clear {words : Words} {op : RamOp} {set0 : BitVec 6}
    (hop : op.wraddr = set0 ++ 0#3) (hdat : op.wrdata = 0) {pid : BitVec 12} {a : BitVec 40}
    {way : BitVec 2} (h : tlbHit (writeWord words op) pid a way = true) :
    tlbHit words pid a way = true := by
  have hentry := entryAt_writeHead words (hash4k a pid) way hop
  split at hentry
  · rw [tlbHit, hentry, hdat, field_zero, tlbHead_zero (entryAt words _ way), Bool.false_and] at h
    cases h
  · rwa [tlbHit_congr hentry] at h

/-- The entry that is being written, as far as it has been written, and that no other way holds an
entry for its page, where this is the page `a`. -/
structure TlbPending (tr : TlbReg) (ram : Ram) (pid : BitVec 12) (a : BitVec 40) : Prop where
  wrHash : tr.wrHash = hash4k tr.addr tr.pid
  head_eq : (entryAt ram.words tr.wrHash tr.replWay).head =
    head 2#2 (tr.addr.extractLsb' 6 2) tr.pid
  tag_eq : tr.state = .wrpte2 →
    (entryAt ram.words tr.wrHash tr.replWay).tag = tr.addr.extractLsb' 8 32
  fresh : tr.pid = pid → tr.addr = a → ∀ way, way ≠ tr.replWay → tlbHit ram.words pid a way = false

/-- What keeps the entries of one page apart. -/
structure TlbOne (tr : TlbReg) (ram : Ram) (pid : BitVec 12) (a : BitVec 40) : Prop where
  sole : TlbSole ram.words tr.writes pid a
  looks : tr.state.inSearch = true → TlbLooks tr ram
  pending : tr.state = .wrpte1 ∨ tr.state = .wrpte2 → TlbPending tr ram pid a

variable {pid : BitVec 12} {a : BitVec 40}

theorem not_writes (h1 : s.tr.state ≠ .wrpte1) (h2 : s.tr.state ≠ .wrpte2) (set : BitVec 6)
    (way : BitVec 2) : ¬s.tr.writes set way := by
  rintro ⟨h | h, -⟩
  · exact h1 h
  · exact h2 h

section

variable (h : TlbOne s.tr s.tlb pid a)

include h

theorem TlbOne.waitw (hst : s.tr.state = .waitw)
    (hw : s.r.wrTlbram = true) : TlbOne (trin s l) (tlbNext s l) pid a := by
  have hb := h.looks (by rw [hst]; rfl)
  have hs : (trin s l).state = .wrpte1 := by simp [trin, tlbState, hst, hw]
  have hway : (trin s l).replWay = s.tr.replWay := by simp [trin, hst]
  obtain ⟨haddr, hpid, -, -⟩ := trin_keeps (l := l) hb.ne_idle
  have hwr := (trin_keeps_hash (l := l) hb.state).2
  obtain ⟨hop, hen, hdat⟩ := tlbOp_waitw (l := l) hst hw
  have hwords : (tlbNext s l).words = writeWord s.tlb.words (tlbOp s l) := rfl
  have hentry := fun set way => entryAt_writeHead s.tlb.words set way hop
  simp only [hen, onehot_getLsbD, decide_eq_true_eq] at hentry
  have hfree : ∀ set way, ¬s.tr.writes set way :=
    not_writes (by rw [hst]; decide) (by rw [hst]; decide)
  -- the entries that count are as before
  have hsame : ∀ way, ¬(trin s l).writes (hash4k a pid) way →
      tlbHit (tlbNext s l).words pid a way = tlbHit s.tlb.words pid a way := by
    intro way hno
    refine tlbHit_congr ?_
    rw [hwords, hentry, if_neg]
    exact fun hc => hno ⟨.inl hs, hc.1.trans hwr.symm, hc.2.trans hway.symm⟩
  refine ⟨fun way way' hn hn' hh hh' => ?_, fun hc => ?_, fun _ => ⟨?_, ?_, fun hc => ?_, ?_⟩⟩
  · rw [hsame way hn] at hh
    rw [hsame way' hn'] at hh'
    exact h.sole way way' (hfree _ _) (hfree _ _) hh hh'
  · rw [hs] at hc; cases hc
  · rw [hwr, haddr, hpid, hb.wrHash, hb.hash]
  · rw [hwr, hway, haddr, hpid, hwords, hentry, if_pos ⟨rfl, rfl⟩, hdat, field_spread]
  · rw [hs] at hc; cases hc
  · rw [haddr, hpid, hway]
    rintro rfl rfl way hne
    have hold : tlbHit s.tlb.words s.tr.pid s.tr.addr way = false := by
      have hd := hb.data
      simp only [TlbExact, hst] at hd
      cases hl : tlbLookup s.tlb.words s.tr.pid s.tr.addr with
      | none => exact Ways.first_eq_none.mp hl way
      | some found =>
        rw [hl] at hd
        by_contra hhit
        refine hne ((h.sole way found (hfree _ _) (hfree _ _) (Bool.not_eq_false _ ▸ hhit)
          (Ways.first_eq_some.mp hl).1).trans hd.2.2.2.1.symm)
    have hkeep : entryAt (tlbNext s l).words (hash4k s.tr.addr s.tr.pid) way =
        entryAt s.tlb.words (hash4k s.tr.addr s.tr.pid) way := by
      rw [hwords, hentry, if_neg fun hc => hne hc.2]
    rw [tlbHit_congr hkeep, hold]

theorem TlbOne.wrpte1 (hst : s.tr.state = .wrpte1) : TlbOne (trin s l) (tlbNext s l) pid a := by
  have hp := h.pending (.inl hst)
  have hs : (trin s l).state = .wrpte2 := by simp [trin, tlbState, hst]
  have hway : (trin s l).replWay = s.tr.replWay := by simp [trin, hst]
  have hwr : (trin s l).wrHash = s.tr.wrHash := by simp [trin, hst]
  obtain ⟨haddr, hpid, -, -⟩ := trin_keeps (s := s) (l := l) (by rw [hst]; decide)
  obtain ⟨hop, hen, hdat⟩ := tlbOp_wrpte1 (l := l) hst
  have hwords : (tlbNext s l).words = writeWord s.tlb.words (tlbOp s l) := rfl
  have hentry := fun set way => entryAt_writeTag s.tlb.words set way hop hen
  have hthis := hentry s.tr.wrHash s.tr.replWay
  rw [if_pos ⟨rfl, rfl⟩, hdat, lane32_pair] at hthis
  have hbusy : (trin s l).writes = s.tr.writes := by
    funext set way
    simp [TlbReg.writes, hst, hs, hwr, hway]
  refine ⟨fun way way' hn hn' hh hh' => ?_, fun hc => ?_, fun _ => ⟨?_, ?_, fun _ => ?_, ?_⟩⟩
  · rw [hbusy] at hn hn'
    have hsame : ∀ w, ¬s.tr.writes (hash4k a pid) w →
        tlbHit (tlbNext s l).words pid a w = tlbHit s.tlb.words pid a w := fun w hno =>
      tlbHit_congr (hwords ▸ (hentry _ w).trans (if_neg fun hc => hno ⟨.inl hst, hc⟩))
    rw [hsame way hn] at hh
    rw [hsame way' hn'] at hh'
    exact h.sole way way' hn hn' hh hh'
  · rw [hs] at hc; cases hc
  · rw [hwr, haddr, hpid, hp.wrHash]
  · rw [hwr, hway, haddr, hpid, hwords, hthis]
    exact hp.head_eq
  · rw [hwr, hway, haddr, hwords, hthis]
  · rw [haddr, hpid, hway]
    intro hpe hae way hne
    have hkeep : entryAt (tlbNext s l).words (hash4k a pid) way =
        entryAt s.tlb.words (hash4k a pid) way := by
      rw [hwords, hentry, if_neg fun hc => hne hc.2]
    rw [tlbHit_congr hkeep]
    exact hp.fresh hpe hae way hne

/-- The PTE is written and the entry is complete. -/
theorem TlbOne.wrpte2 (hst : s.tr.state = .wrpte2) : TlbOne (trin s l) (tlbNext s l) pid a := by
  have hp := h.pending (.inr hst)
  have hs : (trin s l).state = .idle := by simp [trin, tlbState, hst]
  obtain ⟨hop, hen, hdat⟩ := tlbOp_wrpte2 (l := l) hst
  have hwords : (tlbNext s l).words = writeWord s.tlb.words (tlbOp s l) := rfl
  have hentry := fun set way => entryAt_writeBody s.tlb.words set way hop hen
  -- the body does not matter for a hit
  have hsame : ∀ way, tlbHit (tlbNext s l).words pid a way = tlbHit s.tlb.words pid a way := by
    intro way
    rw [hwords, tlbHit, hentry]
    split <;> rfl
  -- an entry for the page at the place just written is the new one
  have hnew : ∀ way, tlbHit s.tlb.words pid a way = true → s.tr.writes (hash4k a pid) way →
      s.tr.pid = pid ∧ s.tr.addr = a := by
    rintro way hh ⟨-, hset, rfl⟩
    have hm := tlbHit_iff.mp hh
    rw [hset] at hm
    have hpide : s.tr.pid = pid := by
      rw [← hm.pid_eq, Entry.pid, hp.head_eq]
      exact (pid_head 2#2 _ _ 0 0 0).symm
    have hmine : TlbMatch (entryAt s.tlb.words s.tr.wrHash s.tr.replWay) s.tr.wrHash pid
        s.tr.addr := by
      refine ⟨hm.valid, hm.pid_eq, ?_, hp.tag_eq hst, hpide ▸ hp.wrHash.symm⟩
      rw [Entry.level, hp.head_eq]
      exact level_head 2#2 _ _ 0 0 0
    exact ⟨hpide, hmine.unique hm⟩
  refine ⟨fun way way' _ _ hh hh' => ?_, fun hc => ?_, fun hc => ?_⟩
  · rw [hsame] at hh hh'
    -- if one of them is the new entry, no other way holds one
    have hcase : ∀ w w', tlbHit s.tlb.words pid a w = true → tlbHit s.tlb.words pid a w' = true →
        s.tr.writes (hash4k a pid) w → w = w' := by
      intro w w' hw hw' hbusy
      obtain ⟨hpe, hae⟩ := hnew w hw hbusy
      by_contra hne
      have hno := hp.fresh hpe hae w' (fun he => hne (hbusy.2.2.trans he.symm))
      rw [hw'] at hno
      cases hno
    by_cases hb : s.tr.writes (hash4k a pid) way
    · exact hcase way way' hh hh' hb
    by_cases hb' : s.tr.writes (hash4k a pid) way'
    · exact (hcase way' way hh' hh hb').symm
    · exact h.sole way way' hb hb' hh hh'
  · rw [hs] at hc; cases hc
  · rw [hs] at hc
    rcases hc with hc | hc <;> cases hc

/-- **The entries of a page stay apart** in every step. -/
theorem TlbOne.step : TlbOne (trin s l) (tlbNext s l) pid a := by
  by_cases h1 : s.tr.state = .wrpte1
  · exact h.wrpte1 h1
  by_cases h2 : s.tr.state = .wrpte2
  · exact h.wrpte2 h2
  by_cases hw : s.tr.state = .waitw ∧ s.r.wrTlbram = true
  · exact h.waitw hw.1 hw.2
  have hfree := not_writes h1 h2
  have hold : ∀ way, tlbHit (tlbNext s l).words pid a way = true →
      tlbHit s.tlb.words pid a way = true := by
    intro way hh
    have hwords : (tlbNext s l).words = writeWord s.tlb.words (tlbOp s l) := rfl
    rw [hwords] at hh
    rcases tlbOp_quiet (l := l) h1 h2 (fun hst => by simpa [hst] using hw) with hen | ⟨hop, hdat⟩
    · rwa [writeWord_none _ hen] at hh
    · exact tlbHit_of_clear hop hdat hh
  refine ⟨fun way way' _ _ hh hh' => ?_, TlbLooks.next h.looks, ?_⟩
  · exact h.sole way way' (hfree _ _) (hfree _ _) (hold way hh) (hold way' hh')
  · rintro (hs | hs)
    · exact absurd (tlbState_wrpte1 hs) hw
    · exact absurd (tlbState_wrpte2 hs) h1

end

end

end Mmu

end Microwatt
