import Microwatt.Lib.Clocked
import Microwatt.Mmu.TlbLookup
import Microwatt.Mmu.Walk

/-!
# Runs of the 4k TLB

The TLB over many cycles: a request starts a search, the walk may have the TLB write an entry
afterwards, and a single-page tlbie clears the entries of the page. The registers of the walk are
left open (`TlbRun`), so what is shown holds for every walk and every memory.

A write lasts from the cycle in which the walk says so (`wrTlbram` in `WAITW`) to the third cycle
after it; the PTE is what the walk's `pde` register holds in the last of these cycles.

## Main definitions

* `Mmu.TlbAsks`, `Mmu.TlbInvalidates`, `Mmu.TlbAnswers` — requests and answers
* `Mmu.TlbTable` — the TLB as a table of pages

## Main results

* `Mmu.tlb_table`
-/

namespace Microwatt

namespace Mmu

/-! ### Runs -/

/-- A run of the TLB: its registers and its RAM step by step. The walk may do anything. -/
def TlbRun (s : ℕ → State) (l : ℕ → Loadstore1ToMmu) : Prop :=
  ∀ t, (s (t + 1)).tr = trin (s t) (l t) ∧ (s (t + 1)).tlb = tlbNext (s t) (l t)

/-- The idle TLB is asked for the translation of an address that can be cached. The PID and the
address bits 51 to 12 are those of the request. -/
structure TlbAsks (s : State) (l : Loadstore1ToMmu) (pid : BitVec 12) (a : BitVec 40) : Prop where
  idle : s.tr.state = .idle
  valid : l.valid = true
  tlbie : l.tlbie = false
  good : badEa l.addr = false
  pid_eq : requestPid l s.r.pid = pid
  addr_eq : l.addr.extractLsb' 12 40 = a

/-- The idle TLB gets a tlbie of a single page. -/
structure TlbInvalidates (s : State) (l : Loadstore1ToMmu) (pid : BitVec 12) (a : BitVec 40) :
    Prop where
  idle : s.tr.state = .idle
  valid : l.valid = true
  tlbie : l.tlbie = true
  tlb : tlbieNoTlb l = false
  page : isf l = 0
  pid_eq : requestPid l s.r.pid = pid
  addr_eq : l.addr.extractLsb' 12 40 = a

/-- The answer of the TLB: it says hit if the hashed set holds an entry for the page and miss
otherwise, and the PTE of the entry is in the output register. -/
structure TlbAnswers (s : State) (pid : BitVec 12) (a : BitVec 40) : Prop where
  state : s.tr.state = .waitw
  hit : s.tr.hit = true ↔
    ∃ way, TlbMatch (entryAt s.tlb.words (hash4k a pid) way) (hash4k a pid) pid a
  miss : s.tr.miss = !s.tr.hit
  pte : ∀ way, tlbLookup s.tlb.words pid a = some way →
    s.tlb.rdreg = (entryAt s.tlb.words (hash4k a pid) way).body

theorem TlbState.last {st : TlbState} (h : st.inSearch = true) (hage : 5 ≤ st.age) :
    st = .rdpte ∨ st = .waitw := by
  cases st <;> simp_all [TlbState.inSearch, TlbState.age]

/-- The contents of the TLB and the request have not changed. -/
structure TlbHeld (s s' : State) : Prop where
  words : s'.tlb.words = s.tlb.words
  pid : s'.tr.pid = s.tr.pid
  addr : s'.tr.addr = s.tr.addr
  badEa : s'.tr.badEa = s.tr.badEa
  isTlbie : s'.tr.isTlbie = s.tr.isTlbie

theorem TlbHeld.refl (s : State) : TlbHeld s s := ⟨rfl, rfl, rfl, rfl, rfl⟩

theorem TlbHeld.trans {s s' s'' : State} (h : TlbHeld s s') (h' : TlbHeld s' s'') : TlbHeld s s'' :=
  ⟨h'.words.trans h.words, h'.pid.trans h.pid, h'.addr.trans h.addr, h'.badEa.trans h.badEa,
    h'.isTlbie.trans h.isTlbie⟩

section

variable {s : ℕ → State} {l : ℕ → Loadstore1ToMmu} (h : TlbRun s l)

include h

variable {t : ℕ} {pid : BitVec 12} {a : BitVec 40}

theorem TlbRun.held (hst : (s t).tr.state ≠ .idle)
    (hw : (tlbNext (s t) (l t)).words = (s t).tlb.words) : TlbHeld (s t) (s (t + 1)) := by
  obtain ⟨htr, htlb⟩ := h t
  obtain ⟨haddr, hpid, hbad, htl⟩ := trin_keeps (l := l t) hst
  exact ⟨htlb ▸ hw, htr ▸ hpid, htr ▸ haddr, htr ▸ hbad, htr ▸ htl⟩

theorem TlbRun.looks (hl : (s t).tr.state.inSearch = true → TlbLooks (s t).tr (s t).tlb)
    (hs : (s (t + 1)).tr.state.inSearch = true) : TlbLooks (s (t + 1)).tr (s (t + 1)).tlb := by
  obtain ⟨htr, htlb⟩ := h t
  rw [htr] at hs ⊢
  rw [htlb]
  exact TlbLooks.next hl hs

/-- A search for a translation comes to its answer. -/
theorem TlbRun.search (n : ℕ) (hb : TlbLooks (s t).tr (s t).tlb) (hgood : (s t).tr.badEa = false)
    (hown : (s t).tr.isTlbie = false) (hage : 6 ≤ (s t).tr.state.age + n) :
    ∃ u, t ≤ u ∧ u ≤ t + n ∧ (s u).tr.state = .waitw ∧ TlbLooks (s u).tr (s u).tlb ∧
      TlbHeld (s t) (s u) ∧
      ∀ k, t ≤ k → k < u → (s k).tr.hit = false ∧ (s k).tr.miss = false := by
  induction n generalizing t with
  | zero =>
    have hst := (TlbState.last hb.state (by omega)).resolve_left fun hr => by
      rw [hr] at hage
      exact absurd hage (by decide)
    exact ⟨t, le_rfl, le_rfl, hst, hb, TlbHeld.refl _, fun k hk hk' => absurd hk' (by omega)⟩
  | succ n ih =>
    by_cases hst : (s t).tr.state = .waitw
    · exact ⟨t, le_rfl, by omega, hst, hb, TlbHeld.refl _, fun k hk hk' => absurd hk' (by omega)⟩
    obtain ⟨hin, holder⟩ := tlbState_go (l := l t) hb.state hst hgood hown
    rw [← (h t).1] at hin holder
    have hheld := h.held hb.ne_idle (tlbNext_words_search hb.state hown fun hc => absurd hc hst)
    obtain ⟨u, htu, hun, hu, hbu, hheldu, hopen⟩ := ih (h.looks (fun _ => hb) hin)
      (hheld.badEa.trans hgood) (hheld.isTlbie.trans hown) (by omega)
    refine ⟨u, by omega, by omega, hu, hbu, hheld.trans hheldu, fun k hk hku => ?_⟩
    rcases Nat.eq_or_lt_of_le hk with rfl | hlt
    · exact hb.open_ hst
    · exact hopen k hlt hku

theorem TlbRun.start (hst : (s t).tr.state = .idle) (hs : (trin (s t) (l t)).state = .search1) :
    TlbLooks (s (t + 1)).tr (s (t + 1)).tlb ∧ (s (t + 1)).tlb.words = (s t).tlb.words ∧
      (s (t + 1)).tr.state = .search1 := by
  obtain ⟨htr, htlb⟩ := h t
  obtain ⟨hb, hw⟩ := TlbLooks.start hst hs
  rw [htr, htlb]
  exact ⟨hb, hw, hs⟩

theorem TlbRun.asks (ha : TlbAsks (s t) (l t) pid a) :
    TlbLooks (s (t + 1)).tr (s (t + 1)).tlb ∧ (s (t + 1)).tlb.words = (s t).tlb.words ∧
      (s (t + 1)).tr.state = .search1 ∧ (s (t + 1)).tr.pid = pid ∧ (s (t + 1)).tr.addr = a ∧
      (s (t + 1)).tr.badEa = false ∧ (s (t + 1)).tr.isTlbie = false := by
  obtain ⟨hb, hw, hs⟩ := h.start ha.idle (tlbState_start ha.idle ha.valid ha.tlbie)
  refine ⟨hb, hw, hs, ?_⟩
  rw [(h t).1]
  simp [trin, ha.idle, ha.pid_eq, ha.addr_eq, ha.good, ha.tlbie]

theorem TlbRun.invalidates (ha : TlbInvalidates (s t) (l t) pid a) :
    TlbLooks (s (t + 1)).tr (s (t + 1)).tlb ∧ (s (t + 1)).tlb.words = (s t).tlb.words ∧
      (s (t + 1)).tr.state = .search1 ∧ (s (t + 1)).tr.pid = pid ∧ (s (t + 1)).tr.addr = a ∧
      (s (t + 1)).tr.badEa = false ∧ (s (t + 1)).tr.isTlbie = true := by
  obtain ⟨hb, hw, hs⟩ := h.start ha.idle
    (by simp [trin, tlbState, ha.idle, ha.valid, ha.tlbie, ha.tlb, ha.page])
  refine ⟨hb, hw, hs, ?_⟩
  rw [(h t).1]
  simp [trin, ha.idle, ha.pid_eq, ha.addr_eq, ha.tlbie]

theorem TlbRun.clear (n : ℕ) (hb : TlbLooks (s t).tr (s t).tlb) (hgood : (s t).tr.badEa = false)
    (htl : (s t).tr.isTlbie = true) (hage : 5 ≤ (s t).tr.state.age + n) :
    ∃ u, t < u ∧ u ≤ t + n ∧ (s u).tr.state = .idle ∧ (s u).tr.tlbieDone = true ∧
      TlbCleared (s t).tlb.words (s u).tlb.words (s t).tr.pid (s t).tr.addr := by
  induction n generalizing t with
  | zero =>
    rw [hb.asked (TlbState.last hb.state hage)] at htl
    cases htl
  | succ n ih =>
    rcases hb.tlbie (l := l t) hgood htl with ⟨hin, holder, hw⟩ | hdone
    · rw [← (h t).1] at hin holder
      have hheld := h.held hb.ne_idle hw
      obtain ⟨u, htu, hun, hidle, hdone, hclear⟩ := ih (h.looks (fun _ => hb) hin)
        (hheld.badEa.trans hgood) (hheld.isTlbie.trans htl) (by omega)
      rw [hheld.words, hheld.pid, hheld.addr] at hclear
      exact ⟨u, by omega, by omega, hidle, hdone, hclear⟩
    · rw [← (h t).1, ← (h t).2] at hdone
      exact ⟨t + 1, by omega, by omega, hdone⟩

/-- A single-page tlbie from the request to its end. -/
theorem TlbRun.invalidate (ha : TlbInvalidates (s t) (l t) pid a) :
    ∃ u, t < u ∧ u ≤ t + 5 ∧ (s u).tr.state = .idle ∧ (s u).tr.tlbieDone = true ∧
      TlbCleared (s t).tlb.words (s u).tlb.words pid a := by
  obtain ⟨hb, hw, hs, rfl, rfl, hgood, htl⟩ := h.invalidates ha
  obtain ⟨u, htu, hun, hidle, hdone, hclear⟩ := h.clear 4 hb hgood htl (by rw [hs]; decide)
  rw [hw] at hclear
  exact ⟨u, by omega, by omega, hidle, hdone, hclear⟩

/-- While the TLB is not idle again after a request, it searches and has not changed, or it is
writing. -/
theorem TlbRun.busy {t v : ℕ} (ha : TlbAsks (s t) (l t) pid a) (htv : t < v)
    (hbusy : ∀ k, t < k → k ≤ v → (s k).tr.state ≠ .idle) :
    (TlbLooks (s v).tr (s v).tlb ∧ TlbHeld (s (t + 1)) (s v)) ∨ (s v).tr.state = .wrpte1 ∨
      (s v).tr.state = .wrpte2 := by
  induction v, htv using Nat.le_induction with
  | base => exact .inl ⟨(h.asks ha).1, TlbHeld.refl _⟩
  | succ v hle ih =>
    have hnow := hbusy (v + 1) (by omega) le_rfl
    rcases ih fun k hk hkv => hbusy k hk (by omega) with ⟨hb, hheld⟩ | hst | hst
    · have hown := hheld.isTlbie.trans (h.asks ha).2.2.2.2.2.2
      by_cases hw : (s v).tr.state = .waitw ∧ (s v).r.wrTlbram = true
      · refine .inr (.inl ?_)
        rw [(h v).1]
        simp [trin, tlbState, hw.1, hw.2]
      · left
        have hgood := hheld.badEa.trans (h.asks ha).2.2.2.2.2.1
        have hin : (s (v + 1)).tr.state.inSearch = true := by
          by_cases hst : (s v).tr.state = .waitw
          · rw [(h v).1] at hnow ⊢
            simp only [trin, tlbState, hst] at hnow ⊢
            split_ifs at hnow ⊢ with hwr hdone
            · exact absurd ⟨hst, hwr⟩ hw
            · exact absurd rfl hnow
            · rfl
          · rw [(h v).1]
            exact (tlbState_go hb.state hst hgood hown).1
        refine ⟨h.looks (fun _ => hb) hin, hheld.trans (h.held hb.ne_idle ?_)⟩
        exact tlbNext_words_search hb.state hown fun hst => by simpa [hst] using hw
    · refine .inr (.inr ?_)
      rw [(h v).1]
      simp [trin, tlbState, hst]
    · refine absurd ?_ hnow
      rw [(h v).1]
      simp [trin, tlbState, hst]

theorem TlbRun.insert {v : ℕ} (hst : (s v).tr.state = .waitw) (hw : (s v).r.wrTlbram = true) :
    (s (v + 3)).tr.state = .idle ∧ ∀ set way, entryAt (s (v + 3)).tlb.words set way =
      if set = (s v).tr.wrHash ∧ way = (s v).tr.replWay then
        ⟨head 2#2 ((s v).tr.addr.extractLsb' 6 2) (s v).tr.pid, (s v).tr.addr.extractLsb' 8 32,
          (entryAt (s v).tlb.words set way).tag3, (s (v + 2)).r.pde⟩
      else entryAt (s v).tlb.words set way := by
  -- the registers meanwhile
  have h1 : (s (v + 1)).tr.state = .wrpte1 := by
    rw [(h v).1]
    simp [trin, tlbState, hst, hw]
  have h2 : (s (v + 2)).tr.state = .wrpte2 := by
    rw [(h (v + 1)).1]
    simp [trin, tlbState, h1]
  have h3 : (s (v + 3)).tr.state = .idle := by
    rw [(h (v + 2)).1]
    simp [trin, tlbState, h2]
  have hreg1 : (s (v + 1)).tr.wrHash = (s v).tr.wrHash ∧
      (s (v + 1)).tr.replWay = (s v).tr.replWay ∧ (s (v + 1)).tr.addr = (s v).tr.addr := by
    rw [(h v).1]
    simp [trin, hst]
  have hreg2 : (s (v + 2)).tr.wrHash = (s v).tr.wrHash ∧
      (s (v + 2)).tr.replWay = (s v).tr.replWay := by
    rw [(h (v + 1)).1, ← hreg1.1, ← hreg1.2.1]
    simp [trin, h1]
  -- the words
  obtain ⟨hop0, hen0, hdat0⟩ := tlbOp_waitw (l := l v) hst hw
  obtain ⟨hop1, hen1, hdat1⟩ := tlbOp_wrpte1 (l := l (v + 1)) h1
  obtain ⟨hop2, hen2, hdat2⟩ := tlbOp_wrpte2 (l := l (v + 2)) h2
  rw [hreg1.1, hreg1.2.1] at hop1
  rw [hreg1.2.1] at hen1
  rw [hreg2.1, hreg2.2] at hop2
  refine ⟨h3, fun set way => ?_⟩
  rw [(h (v + 2)).2, tlbNext, entryAt_writeBody _ _ _ hop2 hen2, (h (v + 1)).2, tlbNext,
    entryAt_writeTag _ _ _ hop1 hen1, (h v).2, tlbNext, entryAt_writeHead _ _ _ hop0, hen0,
    onehot_getLsbD, hdat0, hdat1, hdat2, hreg1.2.2, field_spread, lane32_pair]
  by_cases hc : set = (s v).tr.wrHash ∧ way = (s v).tr.replWay
  · simp only [hc, and_self, if_true, decide_true]
  · simp only [hc, decide_eq_true_eq, if_false]

/-- No two entries for a page, along the run. -/
theorem TlbRun.one (h0 : TlbOne (s 0).tr (s 0).tlb pid a) (t : ℕ) :
    TlbOne (s t).tr (s t).tlb pid a := by
  induction t with
  | zero => exact h0
  | succ t ih =>
    rw [(h t).1, (h t).2]
    exact ih.step

end

theorem TlbOne.of_idle {s : State} {pid : BitVec 12} {a : BitVec 40} (hst : s.tr.state = .idle)
    (h : TlbSole s.tlb.words (fun _ _ => False) pid a) : TlbOne s.tr s.tlb pid a := by
  refine ⟨fun way way' _ _ => h way way' id id, fun hc => ?_, fun hc => ?_⟩
  · rw [hst] at hc; cases hc
  · rw [hst] at hc
    rcases hc with hc | hc <;> cases hc

/-- What a search knows at its end is the answer. -/
theorem TlbLooks.answers {s : State} (hb : TlbLooks s.tr s.tlb) (hst : s.tr.state = .waitw) :
    TlbAnswers s s.tr.pid s.tr.addr := by
  have hd := hb.data
  simp only [TlbExact, hst] at hd
  cases hl : tlbLookup s.tlb.words s.tr.pid s.tr.addr with
  | none =>
    rw [hl] at hd
    refine ⟨hst, ⟨fun hh => ?_, ?_⟩, by rw [hd.1, hd.2]; rfl, fun way hw => ?_⟩
    · rw [hd.1] at hh; cases hh
    · rintro ⟨way, hm⟩
      have hno := Ways.first_eq_none.mp hl way
      rw [tlbHit_iff.mpr hm] at hno
      cases hno
    · rw [hl] at hw; cases hw
  | some found =>
    rw [hl] at hd
    refine ⟨hst, ⟨fun _ => ?_, fun _ => hd.1⟩, by rw [hd.1, hd.2.1]; rfl, fun way hw => ?_⟩
    · exact ⟨found, tlbHit_iff.mp (Ways.first_eq_some.mp hl).1⟩
    · obtain rfl : found = way := Option.some.inj (hl.symm.trans hw)
      rw [hd.2.2.2.2, tlbEntry, hb.hash]

/-- The way that an insert takes: no lower way of the set holds an entry for the page. -/
theorem TlbLooks.below_replWay {s : State} (hb : TlbLooks s.tr s.tlb) (hst : s.tr.state = .waitw)
    {way : BitVec 2} (hlt : way < s.tr.replWay) :
    tlbHit s.tlb.words s.tr.pid s.tr.addr way = false := by
  have hd := hb.data
  simp only [TlbExact, hst] at hd
  cases hl : tlbLookup s.tlb.words s.tr.pid s.tr.addr with
  | none => exact Ways.first_eq_none.mp hl way
  | some found =>
    rw [hl] at hd
    rw [hd.2.2.2.1] at hlt
    exact (Ways.first_eq_some.mp hl).2 way hlt

/-! ### The table -/

/-- The TLB is a table of pages in which the lookup takes one cycle after the other. -/
structure TlbTable (s : ℕ → State) (l : ℕ → Loadstore1ToMmu) : Prop where
  /-- A search has its answer after at most six cycles, and none before. -/
  search : ∀ t pid a, TlbAsks (s t) (l t) pid a →
    ∃ u, t < u ∧ u ≤ t + 6 ∧ TlbAnswers (s u) pid a ∧ (s u).tlb.words = (s t).tlb.words ∧
      ∀ k, t < k → k < u → (s k).tr.hit = false ∧ (s k).tr.miss = false
  /-- An entry is for one page. -/
  page : ∀ e set pid pid' a a', TlbMatch e set pid a → TlbMatch e set pid' a' →
    pid = pid' ∧ a = a'
  /-- When the walk has the TLB write after a search, the lookup finds the new PTE three cycles
  later, and every other entry is what it was when the search began. -/
  insert : ∀ t v pid a, TlbAsks (s t) (l t) pid a → t < v →
    (∀ k, t < k → k ≤ v → (s k).tr.state ≠ .idle) → (s v).tr.state = .waitw →
    (s v).r.wrTlbram = true →
      (s (v + 3)).tr.state = .idle ∧ ∃ way, tlbLookup (s (v + 3)).tlb.words pid a = some way ∧
        (entryAt (s (v + 3)).tlb.words (hash4k a pid) way).body = (s (v + 2)).r.pde ∧
        ∀ set way', ¬(set = hash4k a pid ∧ way' = way) →
          entryAt (s (v + 3)).tlb.words set way' = entryAt (s t).tlb.words set way'
  /-- A page that has at most one entry never gets two. -/
  sole : ∀ pid a, (s 0).tr.state = .idle →
    TlbSole (s 0).tlb.words (fun _ _ => False) pid a →
      ∀ t, TlbSole (s t).tlb.words (s t).tr.writes pid a
  /-- A single-page tlbie takes at most five cycles. It clears the entries for the page and no
  others. -/
  invalidate : ∀ t pid a, TlbInvalidates (s t) (l t) pid a →
    ∃ u, t < u ∧ u ≤ t + 5 ∧ (s u).tr.state = .idle ∧ (s u).tr.tlbieDone = true ∧
      TlbCleared (s t).tlb.words (s u).tlb.words pid a ∧
      tlbLookup (s u).tlb.words pid a = none

/-- **Search, insert and invalidation in the 4k TLB.** Whatever the RAM holds and whatever the walk
does, the TLB behaves as a table in which each page has its place in the set its hash selects. -/
theorem tlb_table {s : ℕ → State} {l : ℕ → Loadstore1ToMmu} (h : TlbRun s l) : TlbTable s l where
  search t pid a ha := by
    obtain ⟨hb, hw, hs, rfl, rfl, hgood, hown⟩ := h.asks ha
    obtain ⟨u, htu, hun, hu, hbu, hheld, hopen⟩ :=
      h.search 5 hb hgood hown (by rw [hs]; decide)
    have hans := hbu.answers hu
    rw [hheld.pid, hheld.addr] at hans
    exact ⟨u, by omega, by omega, hans, hheld.words.trans hw, fun k hk => hopen k hk⟩
  page e set pid pid' a a' hm hm' := by
    have hpid : pid = pid' := hm.pid_eq.symm.trans hm'.pid_eq
    exact ⟨hpid, hm.unique (hpid ▸ hm')⟩
  insert t v pid a ha htv hbusy hst hw := by
    have hlooks : TlbLooks (s v).tr (s v).tlb ∧ TlbHeld (s (t + 1)) (s v) := by
      refine (h.busy ha htv hbusy).resolve_right ?_
      rw [hst]
      rintro (hc | hc) <;> cases hc
    obtain ⟨hb, hheld⟩ := hlooks
    obtain ⟨-, hwords, -, hpid, haddr, -, -⟩ := h.asks ha
    rw [← hheld.pid] at hpid
    rw [← hheld.addr] at haddr
    rw [← hheld.words] at hwords
    subst hpid haddr
    obtain ⟨hidle, hentry⟩ := h.insert hst hw
    have hset : (s v).tr.wrHash = hash4k (s v).tr.addr (s v).tr.pid := hb.wrHash.trans hb.hash
    rw [hset] at hentry
    refine ⟨hidle, (s v).tr.replWay, Ways.first_eq_some.mpr ⟨?_, fun way hlt => ?_⟩, ?_, ?_⟩
    · rw [tlbHit, hentry, if_pos ⟨rfl, rfl⟩, tlbHead_head, tlbTag]
      simp
    · rw [tlbHit_congr ((hentry _ way).trans (if_neg fun hc => BitVec.ne_of_lt hlt hc.2))]
      exact hb.below_replWay hst hlt
    · rw [hentry, if_pos ⟨rfl, rfl⟩]
    · intro set way' hne
      rw [hentry, if_neg hne, hwords]
  sole pid a hst h0 t := (h.one (TlbOne.of_idle hst h0) t).sole
  invalidate t pid a ha := by
    obtain ⟨u, htu, hun, hidle, hdone, hclear⟩ := h.invalidate ha
    exact ⟨u, htu, hun, hidle, hdone, hclear, hclear.lookup⟩

/-! ### A run of the MMU -/

/-- The MMU with empty caches. -/
def emptyCaches : State where
  r := {}
  tr := {}
  tlb := ⟨fun _ => 0, 0, 0, fun _ => 0, 0⟩
  pr := { state := .idle }
  pwc := ⟨fun _ => 0, 0, 0, fun _ => 0, 0⟩

/-- The first level of a tree translates ten address bits, the second one nine. Every read of a
table is answered at once. -/
def smallTree (s : State) (l : Loadstore1ToMmu) : Inputs where
  l := l
  d.done := true
  d.data := byteSwap <|
    match s.r.state with
    | .procTblWait => 0xA
    | .radixReadWait => if s.r.shift = 9 then 0x8000000000000009 else 0xC000000000000186
    | _ => 0

/-- Loads from two pages and again from the first one, and a tlbie for it. -/
def pageOps : ℕ → Loadstore1ToMmu
  | 0 | 40 => { valid := true, load := true, addr := 0x1000 }
  | 20 => { valid := true, load := true, addr := 0x2000 }
  | 60 => { valid := true, tlbie := true, addr := 0x1000 }
  | _ => {}

def pageRun : ℕ → State := Clocked.trace (fun s l => step s (smallTree s l)) emptyCaches pageOps

/-- A search that misses, the insert after it, a search that hits, and a tlbie. -/
theorem tlb_table_run :
    TlbTable pageRun pageOps ∧
      (∃ u, u ≤ 6 ∧ TlbAnswers (pageRun u) 0 1 ∧ tlbLookup (pageRun u).tlb.words 0 1 = none) ∧
      (∃ way, tlbLookup (pageRun 16).tlb.words 0 1 = some way) ∧
      (∃ u, 40 < u ∧ u ≤ 46 ∧ TlbAnswers (pageRun u) 0 1 ∧
        tlbLookup (pageRun u).tlb.words 0 1 = some 0) ∧
      ∃ u, 60 < u ∧ u ≤ 65 ∧ tlbLookup (pageRun u).tlb.words 0 1 = none := by
  have h : TlbTable pageRun pageOps := tlb_table fun _ => ⟨rfl, rfl⟩
  have hrun : (∀ k ≤ 13, 0 < k → (pageRun k).tr.state ≠ .idle) ∧
      (pageRun 13).tr.state = .waitw ∧ (pageRun 13).r.wrTlbram = true ∧
      (pageRun 40).tr.state = .idle ∧ requestPid (pageOps 40) (pageRun 40).r.pid = 0 ∧
      (pageRun 60).tr.state = .idle ∧ tlbLookup (pageRun 40).tlb.words 0 1 = some 0 := by
    decide +kernel
  obtain ⟨hbusy, hst, hw, hst₄₀, hpid₄₀, hst₆₀, hfound⟩ := hrun
  have hasks : TlbAsks (pageRun 0) (pageOps 0) 0 1 := ⟨rfl, rfl, rfl, by decide, rfl, by decide⟩
  have hagain : TlbAsks (pageRun 40) (pageOps 40) 0 1 :=
    ⟨hst₄₀, rfl, rfl, by decide, hpid₄₀, by decide⟩
  have hinval : TlbInvalidates (pageRun 60) (pageOps 60) 0 1 :=
    ⟨hst₆₀, rfl, rfl, by decide, by decide, by decide, by decide⟩
  obtain ⟨u, -, hu, hans, hwords, -⟩ := h.search 0 0 1 hasks
  obtain ⟨-, way, hway, -⟩ := h.insert 0 13 0 1 hasks (by decide)
    (fun k hk hk' => hbusy k hk' hk) hst hw
  obtain ⟨v, hv, hv', hans', hwords', -⟩ := h.search 40 0 1 hagain
  obtain ⟨w, hw, hw', -, -, -, hnone⟩ := h.invalidate 60 0 1 hinval
  refine ⟨h, ⟨u, hu, hans, ?_⟩, ⟨way, hway⟩, ⟨v, hv, hv', hans', ?_⟩, w, hw, hw', hnone⟩
  · rw [hwords]
    decide
  · rw [hwords', hfound]

end Mmu

end Microwatt
