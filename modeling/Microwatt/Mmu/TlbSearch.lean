import Microwatt.Lib.Ways
import Microwatt.Mmu.Content

/-!
# A search in the 4k TLB

What the TLB is for, without its pipeline: a lookup takes the lowest way of the hashed set whose
entry is for the page (`tlbLookup`). The state machine reads one word of the set per cycle and
narrows down the ways that may hit. `TlbExact` says for each state which words are on their way, and
that the ways left over are exactly those that match in what has been compared so far; the step
lemmas show that a search ends with what the lookup finds. The contents of the RAM are arbitrary.

## Main definitions

* `Mmu.tlbLookup` — the lookup
* `Mmu.TlbLooks` — a search, for a translation or for a tlbie
* `Mmu.TlbBusy` — a search for a translation

## Main results

* `Mmu.TlbBusy.step` — a search goes on, or the address cannot be cached
* `Mmu.tlbOk_step` — the contents of the TLB stay right
-/

namespace Microwatt

namespace Mmu

/-- The states of a search for a translation, up to the one that waits for the walk. -/
def TlbState.inSearch : TlbState → Bool
  | .search1 | .search2 | .search3 | .search4 | .rdpte | .waitw => true
  | _ => false

/-- How long a search has gone on, at least. A search is over after six cycles. -/
def TlbState.age : TlbState → ℕ
  | .search1 => 1
  | .search2 => 2
  | .search3 => 3
  | .search4 => 4
  | .rdpte => 5
  | _ => 6

/-! ### The lookup -/

/-- The head of the entry is that of an entry for the page. -/
def tlbHead (e : Entry) (pid : BitVec 12) (a : BitVec 40) : Bool :=
  e.valid && e.pid == pid && e.level == a.extractLsb' 6 2

/-- The tag of the entry is that of an entry for the page. -/
def tlbTag (e : Entry) (a : BitVec 40) : Bool := e.tag == a.extractLsb' 8 32

section

variable (words : Words) (pid : BitVec 12) (a : BitVec 40)

/-- The way of the hashed set holds an entry for the page. -/
def tlbHit (way : BitVec 2) : Bool :=
  tlbHead (entryAt words (hash4k a pid) way) pid a && tlbTag (entryAt words (hash4k a pid) way) a

/-- The lowest way of the hashed set that holds an entry for the page. -/
def tlbLookup : Option (BitVec 2) := Ways.first (tlbHit words pid a)

end

variable {words : Words} {pid : BitVec 12} {a : BitVec 40}

theorem tlbHit_iff {way : BitVec 2} :
    tlbHit words pid a way = true ↔
      TlbMatch (entryAt words (hash4k a pid) way) (hash4k a pid) pid a := by
  simp only [tlbHit, tlbHead, tlbTag, Bool.and_eq_true, beq_iff_eq]
  exact ⟨fun h => ⟨h.1.1.1, h.1.1.2, h.1.2, h.2, rfl⟩,
    fun h => ⟨⟨⟨h.valid, h.pid_eq⟩, h.low_eq⟩, h.tag_eq⟩⟩

theorem tlbHead_zero (e : Entry) (pid : BitVec 12) (a : BitVec 40) :
    tlbHead { e with head := 0 } pid a = false := by
  simp [tlbHead, Entry.valid]

/-- An entry as the state machine writes it. -/
theorem tlbHead_head (pid pid' : BitVec 12) (a a' : BitVec 40) (tag : BitVec 32) (tag3 : BitVec 16)
    (body : BitVec 64) :
    tlbHead ⟨head 2#2 (a'.extractLsb' 6 2) pid', tag, tag3, body⟩ pid a =
      (pid' == pid && a'.extractLsb' 6 2 == a.extractLsb' 6 2) := by
  rw [tlbHead, valid_head, pid_head, level_head]
  rfl

/-! ### What a search has found out -/

section

variable (tr : TlbReg) (ram : Ram)

/-- The entry of a way of the set that is searched. -/
def tlbEntry (way : BitVec 2) : Entry := entryAt ram.words tr.hash4k way

/-- What is known in each state of a search. The ways 0 and 1 are compared before the ways 2 and
3, and a translation does not wait for the latter. -/
def TlbExact : Prop :=
  match tr.state with
  | .search1 => ram.rddata = ram.words (tr.hash4k ++ 0#3)
  | .search2 =>
    ram.rdreg = ram.words (tr.hash4k ++ 0#3) ∧ ram.rddata = ram.words (tr.hash4k ++ 1#3)
  | .search3 =>
    (∀ way : BitVec 2, tr.mayHit.getLsbD way.toNat = tlbHead (tlbEntry tr ram way) tr.pid tr.addr) ∧
      ram.rdreg = ram.words (tr.hash4k ++ 1#3) ∧ ram.rddata = ram.words (tr.hash4k ++ 2#3)
  | .search4 =>
    (∀ way : BitVec 2, tr.mayHit.getLsbD way.toNat =
      (tlbHead (tlbEntry tr ram way) tr.pid tr.addr &&
        (decide (2 ≤ way.toNat) || tlbTag (tlbEntry tr ram way) tr.addr))) ∧
      ram.rdreg = ram.words (tr.hash4k ++ 2#3) ∧
      (tr.isTlbie = false → tr.mayHit.getLsbD 0 = false ∧ tr.mayHit.getLsbD 1 = false)
  | .rdpte =>
    tlbLookup ram.words tr.pid tr.addr = some tr.hitWay ∧
      ram.rddata = (tlbEntry tr ram tr.hitWay).body
  | .waitw =>
    match tlbLookup ram.words tr.pid tr.addr with
    | some way =>
      tr.hit = true ∧ tr.miss = false ∧ tr.hitWay = way ∧ tr.replWay = way ∧
        ram.rdreg = (tlbEntry tr ram way).body
    | none => tr.hit = false ∧ tr.miss = true
  | _ => True

/-- The TLB is searching for an entry, for a translation or to invalidate it, or has the answer
for a translation. -/
structure TlbLooks : Prop where
  state : tr.state.inSearch = true
  hash : tr.hash4k = hash4k tr.addr tr.pid
  wrHash : tr.wrHash = tr.hash4k
  open_ : tr.state ≠ .waitw → tr.hit = false ∧ tr.miss = false
  asked : tr.state = .rdpte ∨ tr.state = .waitw → tr.isTlbie = false
  data : TlbExact tr ram

/-- The TLB is searching for a translation, or has found out about it. -/
structure TlbBusy : Prop extends TlbLooks tr ram where
  own : tr.isTlbie = false
  good : tr.state ≠ .search1 → tr.badEa = false

end

/-- The TLB is idle and says miss. -/
structure TlbAway (tr : TlbReg) : Prop where
  state : tr.state = .idle
  hit : tr.hit = false
  miss : tr.miss = true

section

variable {s : State} {l : Loadstore1ToMmu}

/-! ### Registers that a search keeps -/

theorem trin_keeps (h : s.tr.state ≠ .idle) :
    (trin s l).addr = s.tr.addr ∧ (trin s l).pid = s.tr.pid ∧ (trin s l).badEa = s.tr.badEa ∧
      (trin s l).isTlbie = s.tr.isTlbie := by
  simp [trin, h]

theorem trin_keeps_hash (h : s.tr.state.inSearch = true) :
    (trin s l).hash4k = s.tr.hash4k ∧ (trin s l).wrHash = s.tr.wrHash := by
  cases hst : s.tr.state <;> simp [hst, TlbState.inSearch] at h <;> simp [trin, hst]

section

variable (h : s.tr.state.inSearch = true) (hown : s.tr.isTlbie = false)
  (hw : s.tr.state = .waitw → s.r.wrTlbram = false)

include h hown hw

theorem tlbOp_wren : (tlbOp s l).wren = 0 := by
  cases hst : s.tr.state <;> simp [hst, TlbState.inSearch] at h <;> simp [tlbOp, hst, hown]
  simp [hw hst]

theorem tlbNext_words_search : (tlbNext s l).words = s.tlb.words :=
  writeWord_none _ (tlbOp_wren h hown hw)

end

/-! ### Comparing -/

theorem getLsbD_ofBits4 (f : ℕ → Bool) (way : BitVec 2) :
    (Lanes.ofBits 4 f).getLsbD way.toNat = f way.toNat := by
  have hlt : way.toNat < 4 := way.isLt
  rw [Lanes.getLsbD_ofBits]
  simp [hlt]

theorem eq_zero_iff_ways {m : BitVec 4} :
    m = 0#4 ↔ ∀ way : BitVec 2, m.getLsbD way.toNat = false := by
  revert m; decide

theorem tagIdx_low {way : BitVec 2} (h : way.toNat < 2) :
    tagIdx way = 1#3 ∧ way.toNat % 2 = way.toNat := by
  revert way; decide

theorem tagIdx_high {way : BitVec 2} (h : 2 ≤ way.toNat) :
    tagIdx way = 2#3 ∧ way.toNat % 2 = way.toNat - 2 := by
  revert way; decide

theorem mayHit_search2 (hst : s.tr.state = .search2)
    (hd : s.tlb.rdreg = s.tlb.words (s.tr.hash4k ++ 0#3)) (way : BitVec 2) :
    (tlbMayHit s).getLsbD way.toNat = tlbHead (tlbEntry s.tr s.tlb way) s.tr.pid s.tr.addr := by
  rw [tlbMayHit, hst]
  simp only [getLsbD_ofBits4, hd]
  rfl

theorem mayHit_search3 (hst : s.tr.state = .search3)
    (hd : s.tlb.rdreg = s.tlb.words (s.tr.hash4k ++ 1#3)) (way : BitVec 2) :
    (tlbMayHit s).getLsbD way.toNat = (s.tr.mayHit.getLsbD way.toNat &&
      (decide (2 ≤ way.toNat) || tlbTag (tlbEntry s.tr s.tlb way) s.tr.addr)) := by
  rw [tlbMayHit, hst]
  simp only [getLsbD_ofBits4, hd]
  by_cases hlow : way.toNat < 2
  · rw [tlbTag, tlbEntry, entryAt, (tagIdx_low hlow).1, (tagIdx_low hlow).2]
  · simp [show 2 ≤ way.toNat by omega]

theorem mayHit_search4 (hst : s.tr.state = .search4)
    (hd : s.tlb.rdreg = s.tlb.words (s.tr.hash4k ++ 2#3)) (way : BitVec 2) :
    (tlbMayHit s).getLsbD way.toNat = (s.tr.mayHit.getLsbD way.toNat &&
      (decide (way.toNat < 2) || tlbTag (tlbEntry s.tr s.tlb way) s.tr.addr)) := by
  rw [tlbMayHit, hst]
  simp only [getLsbD_ofBits4, hd]
  by_cases hlow : way.toNat < 2
  · simp [hlow]
  · rw [tlbTag, tlbEntry, entryAt, (tagIdx_high (by omega)).1, (tagIdx_high (by omega)).2]

/-- Where all comparisons have been made, the ways left over are the hits. -/
theorem tlbLookup_eq_none {m : BitVec 4} {words : Words} {pid : BitVec 12} {a : BitVec 40}
    (h : ∀ way : BitVec 2, tlbHit words pid a way = true → m.getLsbD way.toNat = true)
    (hm : m = 0#4) : tlbLookup words pid a = none := by
  refine Ways.first_eq_none.mpr fun way => ?_
  by_contra hne
  have hbit := h way (Bool.not_eq_false _ ▸ hne)
  rw [eq_zero_iff_ways.mp hm way] at hbit
  cases hbit

/-- The hit way of `SEARCH3` is the lowest one. -/
theorem tlbHitWay_low (hst : s.tr.state = .search3) (hh : tlbIsHit s = true) :
    (tlbHitWay s).toNat < 2 ∧ (tlbMayHit s).getLsbD (tlbHitWay s).toNat = true ∧
      ∀ v, v < tlbHitWay s → (tlbMayHit s).getLsbD v.toNat = false := by
  have hdef : tlbHitWay s = if (tlbMayHit s).getLsbD 0 then 0
      else if (tlbMayHit s).getLsbD 1 then 1 else s.tr.hitWay := by rw [tlbHitWay, hst]
  unfold tlbIsHit at hh
  rw [hdef]
  generalize tlbMayHit s = m at hh
  generalize s.tr.hitWay = way
  revert m way
  decide

/-- The hit way of `SEARCH4` is the lowest one, where ways 0 and 1 are out. -/
theorem tlbHitWay_high (hst : s.tr.state = .search4) (hown : s.tr.isTlbie = false)
    (h0 : (tlbMayHit s).getLsbD 0 = false) (h1 : (tlbMayHit s).getLsbD 1 = false)
    (hne : tlbMayHit s ≠ 0#4) :
    (tlbMayHit s).getLsbD (tlbHitWay s).toNat = true ∧
      ∀ v, v < tlbHitWay s → (tlbMayHit s).getLsbD v.toNat = false := by
  have hdef : tlbHitWay s = if (tlbMayHit s).getLsbD 2 then 2 else 3 := by
    rw [tlbHitWay, hst]
    simp [hown, hne]
  rw [hdef]
  generalize tlbMayHit s = m at h0 h1 hne
  revert m
  decide

/-! ### The search step by step -/

theorem tlbState_start (hst : s.tr.state = .idle) (hv : l.valid = true) (ht : l.tlbie = false) :
    (trin s l).state = .search1 := by
  simp [trin, tlbState, hst, hv, ht]

/-- A request that needs the page's entries starts a search. -/
theorem TlbLooks.start (hst : s.tr.state = .idle) (hs : (trin s l).state = .search1) :
    TlbLooks (trin s l) (tlbNext s l) ∧ (tlbNext s l).words = s.tlb.words := by
  have hreq : l.valid = true ∧ (l.tlbie = true → tlbieNoTlb l = false ∧ (isf l).getLsbD 1 = false ∧
      (isf l).getLsbD 0 = false) := by
    simp only [trin, tlbState, hst] at hs
    split_ifs at hs with hv ht hn h1 h0
    · exact ⟨by simpa using hv, fun h => by simp [h] at ht⟩
    · exact ⟨by simpa using hv, fun _ => ⟨by simpa using hn, by simpa using h1, by simpa using h0⟩⟩
  obtain ⟨hv, htl⟩ := hreq
  have hwr : (tlbOp s l).wren = 0 := by simp [tlbOp, hst]
  have hwords : (tlbNext s l).words = s.tlb.words := writeWord_none _ hwr
  have hhashes : (trin s l).hash4k = tlbHash s l ∧ (trin s l).wrHash = tlbHash s l := by
    cases ht : l.tlbie with
    | false => simp [trin, hst, ht]
    | true =>
      obtain ⟨hn, h1, h0⟩ := htl ht
      simp only [trin, hst, hv, ht, hn, h1, h0, Bool.and_false, Bool.false_eq_true, if_false,
        and_self]
  have hread : (tlbOp s l).doread = true := by
    cases ht : l.tlbie with
    | false => simp [tlbOp, hst, hv, ht]
    | true =>
      obtain ⟨hn, h1, -⟩ := htl ht
      simp only [tlbOp, hst, hv, ht, hn, h1]
      rfl
  have haddr : (tlbOp s l).rdaddr = (trin s l).hash4k ++ 0#3 := by simp [tlbOp, tlbIdx, hst]
  refine ⟨⟨by rw [hs]; rfl, ?_, hhashes.2.trans hhashes.1.symm, ?_, ?_, ?_⟩, hwords⟩
  · rw [hhashes.1, tlbHash, addrHash4k_eq]
    simp [trin, hst]
  · simp [trin, hst, hv]
  · rw [hs]
    rintro (h | h) <;> cases h
  · simp only [TlbExact, hs]
    rw [hwords, tlbNext]
    simp only [hread, if_true, haddr]

section

variable (hb : TlbLooks s.tr s.tlb)

include hb

theorem TlbLooks.ne_idle : s.tr.state ≠ .idle := by
  intro h
  have := hb.state
  rw [h] at this
  cases this

/-- The search goes on: its registers stay and the RAM is not written. -/
theorem TlbLooks.of_data (hwr : (tlbOp s l).wren = 0) (hstate : (trin s l).state.inSearch = true)
    (hopen : (trin s l).state ≠ .waitw → (trin s l).hit = false ∧ (trin s l).miss = false)
    (hown : (trin s l).state = .rdpte ∨ (trin s l).state = .waitw → s.tr.isTlbie = false)
    (hdata : TlbExact (trin s l) { tlbNext s l with words := s.tlb.words }) :
    TlbLooks (trin s l) (tlbNext s l) := by
  obtain ⟨haddr, hpid, -, htlbie⟩ := trin_keeps (l := l) hb.ne_idle
  obtain ⟨hhash, hwh⟩ := trin_keeps_hash (l := l) hb.state
  have hwords : (tlbNext s l).words = s.tlb.words := writeWord_none _ hwr
  refine ⟨hstate, ?_, ?_, hopen, fun h => htlbie.trans (hown h), ?_⟩
  · rw [hhash, haddr, hpid, hb.hash]
  · rw [hhash, hwh, hb.wrHash]
  · rw [← hwords] at hdata
    exact hdata

theorem TlbLooks.tlbHit_eq (way : BitVec 2) :
    tlbHit s.tlb.words s.tr.pid s.tr.addr way =
      (tlbHead (tlbEntry s.tr s.tlb way) s.tr.pid s.tr.addr &&
        tlbTag (tlbEntry s.tr s.tlb way) s.tr.addr) := by
  rw [tlbHit, tlbEntry, ← hb.hash]

theorem TlbLooks.search1 (hst : s.tr.state = .search1) (hgood : s.tr.badEa = false) :
    TlbLooks (trin s l) (tlbNext s l) := by
  have hs : (trin s l).state = .search2 := by simp [trin, tlbState, hst, hgood]
  have hf := hb.open_ (by rw [hst]; decide)
  have hd := hb.data
  simp only [TlbExact, hst] at hd
  have hhash := (trin_keeps_hash (l := l) hb.state).1
  refine hb.of_data (by simp [tlbOp, hst]) (by rw [hs]; rfl) ?_ (by simp [hs]) ?_
  · simp [trin, hst, hf.1, hf.2, hgood]
  · simp only [TlbExact, hs, hhash]
    simp [tlbNext, tlbOp, hst, hd, hhash, tlbIdx]

/-- In `SEARCH2` a search goes on if some head is right, and else a translation has missed. -/
theorem TlbLooks.search2 (hst : s.tr.state = .search2)
    (hgo : tlbMayHit s ≠ 0#4 ∨ s.tr.isTlbie = false) : TlbLooks (trin s l) (tlbNext s l) := by
  have hf := hb.open_ (by rw [hst]; decide)
  have hd := hb.data
  simp only [TlbExact, hst] at hd
  have hhash := (trin_keeps_hash (l := l) hb.state).1
  obtain ⟨haddr, hpid, -, -⟩ := trin_keeps (l := l) hb.ne_idle
  have hheads := mayHit_search2 hst hd.1
  by_cases hm : tlbMayHit s = 0#4
  · have hown := hgo.resolve_left (fun h => h hm)
    have hs : (trin s l).state = .waitw := by simp [trin, tlbState, hst, hm, hown]
    have hnone : tlbLookup s.tlb.words s.tr.pid s.tr.addr = none := by
      refine tlbLookup_eq_none (fun way h => ?_) hm
      rw [hheads]
      rw [hb.tlbHit_eq, Bool.and_eq_true] at h
      exact h.1
    refine hb.of_data (by simp [tlbOp, hst]) (by rw [hs]; rfl) (by simp [hs]) (fun _ => hown) ?_
    simp only [TlbExact, hs, haddr, hpid, hnone]
    simp [trin, hst, hm, hf.1]
  · have hs : (trin s l).state = .search3 := by simp [trin, tlbState, hst, hm]
    refine hb.of_data (by simp [tlbOp, hst]) (by rw [hs]; rfl) ?_ (by simp [hs]) ?_
    · simp [trin, hst, hm, hf.1, hf.2]
    · simp only [TlbExact, hs, tlbEntry, hhash, haddr, hpid]
      refine ⟨hheads, ?_, ?_⟩
      · simp [tlbNext, tlbOp, hst, hm, hd.2]
      · simp [tlbNext, tlbOp, hst, hm, hhash, tlbIdx]

theorem TlbLooks.mayHit3 (hst : s.tr.state = .search3) (way : BitVec 2) :
    (tlbMayHit s).getLsbD way.toNat = (tlbHead (tlbEntry s.tr s.tlb way) s.tr.pid s.tr.addr &&
      (decide (2 ≤ way.toNat) || tlbTag (tlbEntry s.tr s.tlb way) s.tr.addr)) := by
  have hd := hb.data
  simp only [TlbExact, hst] at hd
  rw [mayHit_search3 hst hd.2.1, hd.1]

theorem TlbLooks.search3 (hst : s.tr.state = .search3) : TlbLooks (trin s l) (tlbNext s l) := by
  have hf := hb.open_ (by rw [hst]; decide)
  have hd := hb.data
  simp only [TlbExact, hst] at hd
  obtain ⟨-, -, hdata⟩ := hd
  have hmay := hb.mayHit3 hst
  have hhash := (trin_keeps_hash (l := l) hb.state).1
  obtain ⟨haddr, hpid, -, htlbie⟩ := trin_keeps (l := l) hb.ne_idle
  have hwr : (tlbOp s l).wren = 0 := by simp [tlbOp, hst]
  -- a tlbie goes on to the ways 2 and 3 in any case
  have hfour : (trin s l).state = .search4 →
      (s.tr.isTlbie = true ∨ (tlbIsHit s = false ∧ tlbMayHit s ≠ 0#4)) →
      TlbLooks (trin s l) (tlbNext s l) := by
    intro hs hwhy
    have hrd : (tlbOp s l).rdren = true := by
      rcases hwhy with h | ⟨h, h'⟩
      · simp [tlbOp, hst, h]
      · simp [tlbOp, hst, h, h']
    have hmiss : (trin s l).miss = false := by
      rcases hwhy with h | ⟨h, h'⟩
      · simp [trin, hst, hf.2, h]
      · simp [trin, hst, hf.2, h']
    refine hb.of_data hwr (by rw [hs]; rfl) ?_ (by simp [hs]) ?_
    · exact fun _ => ⟨by simp [trin, hst, hf.1], hmiss⟩
    · simp only [TlbExact, hs, tlbEntry, hhash, haddr, hpid, htlbie]
      refine ⟨hmay, by simp [tlbNext, hrd, hdata], fun hown => ?_⟩
      rcases hwhy with h | ⟨h, -⟩
      · rw [hown] at h; cases h
      · exact Bool.or_eq_false_iff.mp h
  by_cases hown : s.tr.isTlbie = true
  · exact hfour (by simp [trin, tlbState, hst, hown]) (.inl hown)
  have hown' : s.tr.isTlbie = false := by simpa using hown
  by_cases hh : tlbIsHit s = true
  · have hs : (trin s l).state = .rdpte := by simp [trin, tlbState, hst, hown', hh]
    have hway : (trin s l).hitWay = tlbHitWay s := rfl
    obtain ⟨hlow, hthis, hbelow⟩ := tlbHitWay_low hst hh
    refine hb.of_data hwr (by rw [hs]; rfl) ?_ (fun _ => hown') ?_
    · simp [trin, hst, hf.1, hf.2, hh]
    · simp only [TlbExact, hs, tlbEntry, hhash, haddr, hpid, hway]
      refine ⟨Ways.first_eq_some.mpr ⟨?_, fun v hv => ?_⟩, ?_⟩
      · rw [hmay, show decide (2 ≤ (tlbHitWay s).toNat) = false by simpa using hlow,
          Bool.false_or] at hthis
        rw [hb.tlbHit_eq, hthis]
      · have hv2 : v.toNat < 2 := (BitVec.lt_def.mp hv).trans hlow
        have hno := hbelow v hv
        rw [hmay, show decide (2 ≤ v.toNat) = false by simpa using hv2, Bool.false_or] at hno
        rw [hb.tlbHit_eq, hno]
      · simp [tlbNext, tlbOp, hst, hown', hh, hhash, tlbIdx, entryAt, bodyIdx]
  · have hh' : tlbIsHit s = false := by simpa using hh
    by_cases hm : tlbMayHit s = 0#4
    · have hs : (trin s l).state = .waitw := by simp [trin, tlbState, hst, hown', hh', hm]
      have hnone : tlbLookup s.tlb.words s.tr.pid s.tr.addr = none := by
        refine tlbLookup_eq_none (fun way h => ?_) hm
        rw [hb.tlbHit_eq, Bool.and_eq_true] at h
        rw [hmay, h.1, h.2, Bool.or_true, Bool.and_true]
      refine hb.of_data hwr (by rw [hs]; rfl) (by simp [hs]) (fun _ => hown') ?_
      simp only [TlbExact, hs, haddr, hpid, hnone]
      simp [trin, hst, hm, hf.1, hown', hh']
    · exact hfour (by simp [trin, tlbState, hst, hown', hh', hm]) (.inr ⟨hh', hm⟩)

/-- After `SEARCH4` the ways left over are those that match. -/
theorem TlbLooks.mayHit4 (hst : s.tr.state = .search4) (way : BitVec 2) :
    (tlbMayHit s).getLsbD way.toNat = tlbHit s.tlb.words s.tr.pid s.tr.addr way := by
  have hd := hb.data
  simp only [TlbExact, hst] at hd
  rw [mayHit_search4 hst hd.2.1, hd.1, hb.tlbHit_eq]
  by_cases hlow : way.toNat < 2
  · simp [hlow, show ¬2 ≤ way.toNat by omega]
  · simp [hlow, show 2 ≤ way.toNat by omega]

theorem TlbLooks.search4 (hst : s.tr.state = .search4) (hown : s.tr.isTlbie = false) :
    TlbLooks (trin s l) (tlbNext s l) := by
  have hf := hb.open_ (by rw [hst]; decide)
  have hd := hb.data
  simp only [TlbExact, hst] at hd
  obtain ⟨-, hreg, hout⟩ := hd
  have hmay := hb.mayHit4 hst
  have hhash := (trin_keeps_hash (l := l) hb.state).1
  obtain ⟨haddr, hpid, -, -⟩ := trin_keeps (l := l) hb.ne_idle
  have hwr : (tlbOp s l).wren = 0 := by simp [tlbOp, hst, hown]
  by_cases hm : tlbMayHit s = 0#4
  · have hs : (trin s l).state = .waitw := by simp [trin, tlbState, hst, hown, hm]
    have hnone : tlbLookup s.tlb.words s.tr.pid s.tr.addr = none :=
      tlbLookup_eq_none (fun way h => (hmay way).trans h) hm
    refine hb.of_data hwr (by rw [hs]; rfl) (by simp [hs]) (fun _ => hown) ?_
    simp only [TlbExact, hs, haddr, hpid, hnone]
    simp [trin, hst, hm, hf.1, hown]
  · have hs : (trin s l).state = .rdpte := by simp [trin, tlbState, hst, hown, hm]
    have hway : (trin s l).hitWay = tlbHitWay s := rfl
    have hout0 : (tlbMayHit s).getLsbD 0 = false :=
      (mayHit_search4 hst hreg 0).trans (by rw [show (0 : BitVec 2).toNat = 0 from rfl,
        (hout hown).1, Bool.false_and])
    have hout1 : (tlbMayHit s).getLsbD 1 = false :=
      (mayHit_search4 hst hreg 1).trans (by rw [show (1 : BitVec 2).toNat = 1 from rfl,
        (hout hown).2, Bool.false_and])
    obtain ⟨hthis, hbelow⟩ := tlbHitWay_high hst hown hout0 hout1 hm
    refine hb.of_data hwr (by rw [hs]; rfl) ?_ (fun _ => hown) ?_
    · simp [trin, hst, hf.1, hf.2, hm]
    · simp only [TlbExact, hs, tlbEntry, hhash, haddr, hpid, hway]
      refine ⟨Ways.first_eq_some.mpr ⟨?_, fun v hv => ?_⟩, ?_⟩
      · rw [← hmay, hthis]
      · rw [← hmay, hbelow v hv]
      · simp [tlbNext, tlbOp, hst, hown, hm, hhash, tlbIdx, entryAt, bodyIdx]

theorem TlbLooks.rdpte (hst : s.tr.state = .rdpte) : TlbLooks (trin s l) (tlbNext s l) := by
  have hf := hb.open_ (by rw [hst]; decide)
  have hd := hb.data
  simp only [TlbExact, hst] at hd
  have hhash := (trin_keeps_hash (l := l) hb.state).1
  obtain ⟨haddr, hpid, -, -⟩ := trin_keeps (l := l) hb.ne_idle
  have hs : (trin s l).state = .waitw := by simp [trin, tlbState, hst]
  refine hb.of_data (by simp [tlbOp, hst]) (by rw [hs]; rfl) (by simp [hs])
    (fun _ => hb.asked (.inl hst)) ?_
  simp only [TlbExact, hs, tlbEntry, hhash, haddr, hpid, hd.1]
  refine ⟨by simp [trin, hst], by simp [trin, hst, hf.2], by simp [trin, tlbHitWay, hst],
    by simp [trin, hst], ?_⟩
  simpa [tlbNext, tlbOp, hst, tlbEntry] using hd.2

/-- The answer stays until the walk writes or is done. -/
theorem TlbLooks.waitw (hst : s.tr.state = .waitw) (hw : s.r.wrTlbram = false)
    (hd : s.r.done = false) (he : s.r.err = false) : TlbLooks (trin s l) (tlbNext s l) := by
  have hdata := hb.data
  simp only [TlbExact, hst] at hdata
  have hhash := (trin_keeps_hash (l := l) hb.state).1
  obtain ⟨haddr, hpid, -, -⟩ := trin_keeps (l := l) hb.ne_idle
  have hs : (trin s l).state = .waitw := by simp [trin, tlbState, hst, hw, hd, he]
  have hway : (trin s l).hitWay = s.tr.hitWay := by simp [trin, tlbHitWay, hst, hw]
  have hkept : (trin s l).hit = s.tr.hit ∧ (trin s l).miss = s.tr.miss ∧
      (trin s l).replWay = s.tr.replWay := by simp [trin, hst]
  have hreg : (tlbNext s l).rdreg = s.tlb.rdreg := by simp [tlbNext, tlbOp, hst]
  refine hb.of_data (by simp [tlbOp, hst, hw]) (by rw [hs]; rfl) (by simp [hs])
    (fun _ => hb.asked (.inr hst)) ?_
  simp only [TlbExact, hs, tlbEntry, hhash, haddr, hpid, hway, hkept, hreg]
  exact hdata

end

/-! ### Searches for a translation -/

theorem TlbBusy.start (hst : s.tr.state = .idle) (hv : l.valid = true) (ht : l.tlbie = false) :
    TlbBusy (trin s l) (tlbNext s l) := by
  have hs := tlbState_start hst hv ht
  exact ⟨(TlbLooks.start hst hs).1, by simp [trin, hst, ht], fun h => absurd hs h⟩

section

variable (hb : TlbBusy s.tr s.tlb)

include hb

theorem TlbBusy.found (hst : s.tr.state = .waitw) : (s.tr.hit || s.tr.miss) = true := by
  have hd := hb.data
  simp only [TlbExact, hst] at hd
  split at hd <;> simp [hd]

/-- A hit is an entry for the page, and its PTE is in the output register. -/
theorem TlbBusy.tlbMatch (hst : s.tr.state = .waitw) (hh : s.tr.hit = true) :
    TlbMatch (entryAt s.tlb.words s.tr.hash4k s.tr.hitWay) s.tr.hash4k s.tr.pid s.tr.addr ∧
      s.tlb.rdreg = (entryAt s.tlb.words s.tr.hash4k s.tr.hitWay).body := by
  have hd := hb.data
  simp only [TlbExact, hst] at hd
  split at hd
  · rename_i hl
    obtain ⟨-, -, rfl, -, hreg⟩ := hd
    rw [hb.hash]
    exact ⟨tlbHit_iff.mp (Ways.first_eq_some.mp hl).1, hb.hash ▸ hreg⟩
  · rw [hd.1] at hh; cases hh

theorem TlbBusy.of_looks (hgood : s.tr.badEa = false) (h : TlbLooks (trin s l) (tlbNext s l)) :
    TlbBusy (trin s l) (tlbNext s l) := by
  obtain ⟨-, -, hbad, htl⟩ := trin_keeps (l := l) hb.ne_idle
  exact ⟨h, htl.trans hb.own, fun _ => hbad.trans hgood⟩

theorem TlbBusy.waitw (hst : s.tr.state = .waitw) (hw : s.r.wrTlbram = false)
    (hd : s.r.done = false) (he : s.r.err = false) : TlbBusy (trin s l) (tlbNext s l) :=
  hb.of_looks (hb.good (by simp [hst])) (hb.toTlbLooks.waitw hst hw hd he)

/-- **One step of a search.** It goes on, or the address turns out not to be cacheable. -/
theorem TlbBusy.step (hw : s.r.wrTlbram = false) (hd : s.r.done = false) (he : s.r.err = false) :
    TlbBusy (trin s l) (tlbNext s l) ∨ TlbAway (trin s l) := by
  have hst := hb.state
  have hgood : s.tr.state ≠ .search1 → s.tr.badEa = false := hb.good
  cases h : s.tr.state <;> rw [h] at hst hgood <;> try cases hst
  case search1 =>
    cases hbad : s.tr.badEa with
    | false => exact .inl (hb.of_looks hbad (hb.search1 h hbad))
    | true =>
      have hf := hb.open_ (by rw [h]; decide)
      exact .inr ⟨by simp [trin, tlbState, h, hbad], by simp [trin, h, hf.1],
        by simp [trin, h, hbad]⟩
  case search2 => exact .inl (hb.of_looks (hgood (by decide)) (hb.search2 h (.inr hb.own)))
  case search3 => exact .inl (hb.of_looks (hgood (by decide)) (hb.search3 h))
  case search4 => exact .inl (hb.of_looks (hgood (by decide)) (hb.search4 h hb.own))
  case rdpte => exact .inl (hb.of_looks (hgood (by decide)) (hb.rdpte h))
  case waitw => exact .inl (hb.waitw h hw hd he)

end

theorem TlbAway.step (h : TlbAway s.tr) (hv : l.valid = false) : TlbAway (trin s l) :=
  ⟨by simp [trin, tlbState, h.state, hv], by simp [trin, h.state, hv, h.hit],
    by simp [trin, h.state, hv, h.miss]⟩

/-! ### Writing an entry

A new entry takes three cycles: the head, which makes it valid, then the tag and the PTE. -/

/-- The entry being written. -/
def TlbReg.writes (tr : TlbReg) (set : BitVec 6) (way : BitVec 2) : Prop :=
  (tr.state = .wrpte1 ∨ tr.state = .wrpte2) ∧ set = tr.wrHash ∧ way = tr.replWay

/-- An entry with the PTE `pde` is being written after a miss. -/
structure TlbWriting (mem : Memory) (ptcr : BitVec 64) (tr : TlbReg) (ram : Ram) (pde : BitVec 64) :
    Prop where
  state : tr.state = .wrpte1 ∨ tr.state = .wrpte2
  hit : tr.hit = false
  miss : tr.miss = true
  wrHash : tr.wrHash = hash4k tr.addr tr.pid
  fact : TlbFact mem ptcr tr.pid tr.addr pde
  head_eq : (entryAt ram.words tr.wrHash tr.replWay).head =
    head 2#2 (tr.addr.extractLsb' 6 2) tr.pid
  tag_eq : tr.state = .wrpte2 →
    (entryAt ram.words tr.wrHash tr.replWay).tag = tr.addr.extractLsb' 8 32

variable {mem : Memory} {ptcr : BitVec 64}

theorem tlbOp_waitw (hst : s.tr.state = .waitw) (hw : s.r.wrTlbram = true) :
    (tlbOp s l).wraddr = s.tr.wrHash ++ 0#3 ∧ (tlbOp s l).wren = onehot s.tr.replWay ∧
      (tlbOp s l).wrdata = spread (head 2#2 (s.tr.addr.extractLsb' 6 2) s.tr.pid) := by
  simp only [tlbOp, tlbIdx, hst, hw, if_true, head]
  simp

theorem tlbOp_wrpte1 (hst : s.tr.state = .wrpte1) :
    (tlbOp s l).wraddr = s.tr.wrHash ++ tagIdx s.tr.replWay ∧
      (tlbOp s l).wren = tagWren s.tr.replWay ∧
      (tlbOp s l).wrdata = s.tr.addr.extractLsb' 8 32 ++ s.tr.addr.extractLsb' 8 32 := by
  simp only [tlbOp, tlbIdx, hst, tagIdx, tagWren]
  simp

theorem tlbOp_wrpte2 (hst : s.tr.state = .wrpte2) :
    (tlbOp s l).wraddr = s.tr.wrHash ++ bodyIdx s.tr.replWay ∧ (tlbOp s l).wren = 0b1111#4 ∧
      (tlbOp s l).wrdata = s.r.pde := by
  simp [tlbOp, tlbIdx, hst, bodyIdx]

/-- The walk has found a leaf: the TLB starts to write it. -/
theorem TlbBusy.write (hb : TlbBusy s.tr s.tlb) (hst : s.tr.state = .waitw)
    (hw : s.r.wrTlbram = true) (hhit : s.tr.hit = false)
    (hf : TlbFact mem ptcr s.tr.pid s.tr.addr s.r.pde) :
    TlbWriting mem ptcr (trin s l) (tlbNext s l) s.r.pde := by
  have hs : (trin s l).state = .wrpte1 := by simp [trin, tlbState, hst, hw]
  have hmiss : s.tr.miss = true := by simpa [hhit] using hb.found hst
  have hway : (trin s l).replWay = s.tr.replWay := by simp [trin, hst]
  obtain ⟨haddr, hpid, -, -⟩ := trin_keeps (l := l) hb.ne_idle
  have hwr := (trin_keeps_hash (l := l) hb.state).2
  obtain ⟨hop, hen, hdat⟩ := tlbOp_waitw (l := l) hst hw
  refine ⟨.inl hs, by simp [trin, hst, hhit], by simp [trin, hst, hmiss], ?_, ?_, ?_, ?_⟩
  · rw [hwr, haddr, hpid, hb.wrHash, hb.hash]
  · rwa [haddr, hpid]
  · rw [haddr, hpid, hwr, hway, tlbNext]
    rw [entryAt_writeHead _ _ _ hop, hen, onehot_getLsbD, if_pos (by simp), hdat, field_spread]
  · rw [hs]; intro h; cases h

theorem TlbWriting.step (h : TlbWriting mem ptcr s.tr s.tlb s.r.pde)
    (hst : s.tr.state = .wrpte1) : TlbWriting mem ptcr (trin s l) (tlbNext s l) s.r.pde := by
  have hs : (trin s l).state = .wrpte2 := by simp [trin, tlbState, hst]
  have hway : (trin s l).replWay = s.tr.replWay := by simp [trin, hst]
  have hwr : (trin s l).wrHash = s.tr.wrHash := by simp [trin, hst]
  obtain ⟨haddr, hpid, -, -⟩ := trin_keeps (s := s) (l := l) (by rw [hst]; decide)
  obtain ⟨hop, hen, hdat⟩ := tlbOp_wrpte1 (l := l) hst
  have hentry := entryAt_writeTag s.tlb.words s.tr.wrHash s.tr.replWay hop hen
  rw [if_pos ⟨rfl, rfl⟩, hdat, lane32_pair] at hentry
  refine ⟨.inr hs, by simp [trin, hst, h.hit], by simp [trin, hst, h.miss], ?_, ?_, ?_, ?_⟩
  · rw [hwr, haddr, hpid, h.wrHash]
  · rw [haddr, hpid]; exact h.fact
  · rw [haddr, hpid, hwr, hway, tlbNext, hentry]
    exact h.head_eq
  · rw [haddr, hwr, hway, tlbNext, hentry]
    intro _; rfl

theorem TlbWriting.finish (h : TlbWriting mem ptcr s.tr s.tlb s.r.pde)
    (hst : s.tr.state = .wrpte2) :
    ∃ a, TlbMatch (entryAt (tlbNext s l).words s.tr.wrHash s.tr.replWay) s.tr.wrHash
        (entryAt (tlbNext s l).words s.tr.wrHash s.tr.replWay).pid a ∧
      TlbFact mem ptcr (entryAt (tlbNext s l).words s.tr.wrHash s.tr.replWay).pid a
        (entryAt (tlbNext s l).words s.tr.wrHash s.tr.replWay).body := by
  obtain ⟨hop, hen, hdat⟩ := tlbOp_wrpte2 (l := l) hst
  have hentry := entryAt_writeBody s.tlb.words s.tr.wrHash s.tr.replWay hop hen
  rw [if_pos ⟨rfl, rfl⟩, hdat, h.head_eq, h.tag_eq hst] at hentry
  have hwords : (tlbNext s l).words = writeWord s.tlb.words (tlbOp s l) := rfl
  rw [hwords, hentry]
  refine ⟨s.tr.addr, ⟨?_, rfl, ?_, rfl, ?_⟩, ?_⟩
  · rw [valid_head]; rfl
  · rw [level_head]
  · rw [pid_head, h.wrHash]
  · rw [pid_head]; exact h.fact

/-- What a cycle without writing an entry does to the RAM: nothing, or it clears heads. -/
theorem tlbOp_quiet (h : s.tr.state ≠ .wrpte1) (h' : s.tr.state ≠ .wrpte2)
    (hw : s.tr.state = .waitw → s.r.wrTlbram = false) :
    (tlbOp s l).wren = 0 ∨
      (tlbOp s l).wraddr = s.tr.wrHash ++ 0#3 ∧ (tlbOp s l).wrdata = 0 := by
  cases hst : s.tr.state <;> simp_all [tlbOp, tlbIdx]
  case search4 => cases s.tr.isTlbie <;> simp

theorem tlbState_wrpte1 (h : (trin s l).state = .wrpte1) :
    s.tr.state = .waitw ∧ s.r.wrTlbram = true := by
  simp only [trin, tlbState] at h
  cases hst : s.tr.state <;> simp only [hst] at h <;> try split_ifs at h
  all_goals first | exact ⟨rfl, ‹_›⟩ | cases h

theorem tlbState_wrpte2 (h : (trin s l).state = .wrpte2) : s.tr.state = .wrpte1 := by
  simp only [trin, tlbState] at h
  cases hst : s.tr.state <;> simp only [hst] at h <;> try split_ifs at h
  case wrpte1 => rfl
  all_goals cases h

/-- **The TLB contents stay right**, provided a finished entry is. -/
theorem tlbOk_step (h : TlbOk mem ptcr s.tlb.words s.tr.writes)
    (hwr : s.tr.state = .wrpte2 → TlbWriting mem ptcr s.tr s.tlb s.r.pde) :
    TlbOk mem ptcr (tlbNext s l).words (trin s l).writes := by
  have hwords : (tlbNext s l).words = writeWord s.tlb.words (tlbOp s l) := rfl
  by_cases h1 : s.tr.state = .wrpte1
  · -- the tag of the entry under way
    obtain ⟨hop, hen, -⟩ := tlbOp_wrpte1 (l := l) h1
    have hbusy : (trin s l).writes = s.tr.writes := by
      funext set way
      simp [TlbReg.writes, trin, tlbState, h1]
    rw [hbusy, hwords]
    refine h.frame fun set way hb _ => ⟨hb, ?_⟩
    rw [entryAt_writeTag _ _ _ hop hen, if_neg]
    rintro ⟨rfl, rfl⟩
    exact hb ⟨.inl h1, rfl, rfl⟩
  by_cases h2 : s.tr.state = .wrpte2
  · -- its PTE, which completes the entry
    obtain ⟨hop, hen, -⟩ := tlbOp_wrpte2 (l := l) h2
    intro set way _ hv
    by_cases hent : set = s.tr.wrHash ∧ way = s.tr.replWay
    · rw [hent.1, hent.2]
      exact (hwr h2).finish h2
    · rw [hwords, entryAt_writeBody _ _ _ hop hen, if_neg hent] at hv ⊢
      exact h set way (fun hb => hent hb.2) hv
  by_cases hw : s.tr.state = .waitw ∧ s.r.wrTlbram = true
  · -- the head of a new entry
    obtain ⟨hop, hen, -⟩ := tlbOp_waitw (l := l) hw.1 hw.2
    rw [hwords]
    refine h.frame fun set way hb _ => ⟨?_, ?_⟩
    · rintro ⟨hs | hs, -⟩
      · exact h1 hs
      · exact h2 hs
    · rw [entryAt_writeHead _ _ _ hop, if_neg]
      rintro ⟨hset, hbit⟩
      rw [hen, onehot_getLsbD, decide_eq_true_eq] at hbit
      refine hb ⟨.inl (by simp [trin, tlbState, hw.1, hw.2]), ?_, ?_⟩
      · simpa [trin, hw.1] using hset
      · simpa [trin, hw.1] using hbit
  have hnot : (trin s l).state ≠ .wrpte1 ∧ (trin s l).state ≠ .wrpte2 :=
    ⟨fun hs => hw (tlbState_wrpte1 hs), fun hs => h1 (tlbState_wrpte2 hs)⟩
  have hq : TlbOk mem ptcr s.tlb.words (trin s l).writes := by
    refine h.frame fun set way _ _ => ⟨?_, rfl⟩
    rintro ⟨hs | hs, -⟩
    · exact h1 hs
    · exact h2 hs
  rw [hwords]
  rcases tlbOp_quiet (l := l) h1 h2 (fun hst => by simpa [hst] using hw) with hen | ⟨hop, hdat⟩
  · rw [writeWord_none _ hen]; exact hq
  · exact hq.frame fun _ _ hb hv => ⟨hb, entryAt_zero_heads hop hdat hv⟩

end

end Mmu

end Microwatt
