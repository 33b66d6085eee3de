import Microwatt.Mmu.TlbSearch

/-!
# A search in the page walk cache

A lookup in the page walk cache takes the smallest region for which the set selected by that
region's hash holds an entry, and the lowest way that does (`pwcLookup`). The state machine looks
for the three sizes at once, in three sets of one RAM, and interleaves their words. The word of the
current state is in `pwc_rdreg` and the word of `next_state` in `pwc_rddata`; the ways left over are
exactly those that match in what has been compared so far, and a size that is given up has no entry
for the address. That is the invariant behind the state machine's many paths (`PwcSearch`).

## Main definitions

* `Mmu.pwcLookup` — the lookup
* `Mmu.PwcBusy` — a search, or its answer

## Main results

* `Mmu.PwcBusy.step` — a search goes on, or the address cannot be cached
* `Mmu.PwcBusy.rank_step` — a search comes to its end
-/

namespace Microwatt

namespace Mmu

/-- The states of a search for a translation, up to the one that waits for the walk. -/
def PwcState.inSearch : PwcState → Bool
  | .search1 | .search2M0 | .search2M1 | .search2M2 | .search1G0 | .search1G3 | .searchHT0
  | .searchHT3 | .rdpde | .waitw => true
  | _ => false

/-- The earliest cycle after the request in which a search can be in the state. -/
def PwcState.age : PwcState → ℕ
  | .search1 => 1
  | .search2M0 => 2
  | .search1G0 => 3
  | .search2M1 | .searchHT0 => 4
  | .search2M2 | .search1G3 | .searchHT3 => 5
  | _ => 6

/-! ### The lookup -/

def pwcHead (e : Entry) (level : BitVec 2) (pid : BitVec 12) : Bool :=
  e.valid && e.pid == pid && e.level == level

/-- The tag of the entry is that of an entry of the level for the address. -/
def pwcTag (e : Entry) (level : BitVec 2) (a : BitVec 31) : Bool :=
  if level = 0 then e.tag.extractLsb' 7 25 == a.extractLsb' 6 25
  else if level = 1 then e.tag3 == a.extractLsb' 15 16
  else if level = 2 then e.tag3.extractLsb' 9 7 == a.extractLsb' 24 7
  else false

section

variable (words : Words) (pid : BitVec 12) (a : BitVec 31)

/-- The way of the set for the level holds an entry for the address. -/
def pwcHit (level way : BitVec 2) : Bool :=
  pwcHead (entryAt words (hashLevel level a pid) way) level pid &&
    pwcTag (entryAt words (hashLevel level a pid) way) level a

/-- The level and the way of the entry for the address: 2M before 1G before 512G, and the lowest
way. -/
def pwcLookup : Option (BitVec 2 × BitVec 2) :=
  [0, 1, 2].findSome? fun level =>
    (Ways.first (pwcHit words pid a level)).map fun way => (level, way)

end

section

variable {words : Words} {pid : BitVec 12} {a : BitVec 31}

variable {level way : BitVec 2}

theorem pwcTag_iff {e : Entry} : pwcTag e level a = true ↔ PwcTag e level a := by
  unfold pwcTag PwcTag
  split_ifs <;> simp

theorem pwcHit_iff : pwcHit words pid a level way = true ↔
      PwcMatch (entryAt words (hashLevel level a pid) way) (hashLevel level a pid) level pid a := by
  simp only [pwcHit, pwcHead, Bool.and_eq_true, beq_iff_eq, pwcTag_iff]
  exact ⟨fun h => ⟨h.1.1.1, h.1.1.2, h.1.2, h.2, rfl⟩,
    fun h => ⟨⟨⟨h.valid, h.pid_eq⟩, h.level_eq⟩, h.tag_ok⟩⟩

/-- The set for the level holds no entry for the address. -/
def PwcNo (words : Words) (pid : BitVec 12) (a : BitVec 31) (level : BitVec 2) :
    Prop :=
  ∀ way, pwcHit words pid a level way = false

theorem PwcNo.first (h : PwcNo words pid a level) :
    Ways.first (pwcHit words pid a level) = none := Ways.first_eq_none.mpr h

theorem pwcLookup_2M (h : Ways.first (pwcHit words pid a 0) = some way) :
    pwcLookup words pid a = some (0, way) := by
  simp only [pwcLookup, List.findSome?_cons, h, Option.map_some]

theorem pwcLookup_1G (h0 : PwcNo words pid a 0) (h : Ways.first (pwcHit words pid a 1) = some way) :
    pwcLookup words pid a = some (1, way) := by
  simp only [pwcLookup, List.findSome?_cons, h0.first, h, Option.map_none, Option.map_some]

theorem pwcLookup_512G (h0 : PwcNo words pid a 0) (h1 : PwcNo words pid a 1)
    (h : Ways.first (pwcHit words pid a 2) = some way) : pwcLookup words pid a = some (2, way) := by
  simp only [pwcLookup, List.findSome?_cons, h0.first, h1.first, h, Option.map_none,
    Option.map_some]

theorem pwcLookup_none (h0 : PwcNo words pid a 0) (h1 : PwcNo words pid a 1)
    (h2 : PwcNo words pid a 2) : pwcLookup words pid a = none := by
  simp only [pwcLookup, List.findSome?_cons, h0.first, h1.first, h2.first, Option.map_none,
    List.findSome?_nil]

/-- What is found is an entry for the address. -/
theorem pwcLookup_hit (h : pwcLookup words pid a = some (level, way)) :
    pwcHit words pid a level way = true := by
  obtain ⟨k, -, hk⟩ := List.exists_of_findSome?_eq_some h
  obtain ⟨w, hw, he⟩ := Option.map_eq_some_iff.mp hk
  cases he
  exact (Ways.first_eq_some.mp hw).1

/-- Where nothing is found, there is no entry for the address. -/
theorem pwcLookup_eq_none (h : pwcLookup words pid a = none) (level : BitVec 2) :
    PwcNo words pid a level := by
  intro way
  have hall := List.findSome?_eq_none_iff.mp h
  by_cases hm : level ∈ ([0, 1, 2] : List (BitVec 2))
  · exact Ways.first_eq_none.mp (Option.map_eq_none_iff.mp (hall level hm)) way
  · -- no entry has level 3
    have hthree : pwcTag (entryAt words (hashLevel level a pid) way) level a = false := by
      simp only [List.mem_cons, List.not_mem_nil, or_false, not_or] at hm
      rw [pwcTag, if_neg hm.1, if_neg hm.2.1, if_neg hm.2.2]
    rw [pwcHit, hthree, Bool.and_false]

end

/-! ### What a search has found out -/

section

variable (b : PwcReg)

/-- The set to search for entries of a level. -/
def PwcReg.setFor (level : BitVec 2) : BitVec 6 :=
  if level = 0 then b.hash2M else if level = 1 then b.hash1G else b.hash512G

/-- The word that a state of the search looks at. -/
def PwcReg.wordOf : PwcState → BitVec 9
  | .search2M0 => b.hash2M ++ 0#3
  | .search2M1 => b.hash2M ++ 1#3
  | .search2M2 => b.hash2M ++ 2#3
  | .search1G0 => b.hash1G ++ 0#3
  | .search1G3 => b.hash1G ++ 3#3
  | .searchHT0 => b.hash512G ++ 0#3
  | .searchHT3 => b.hash512G ++ 3#3
  | _ => 0

/-- The ways in `mayHit` are exactly those with the head of an entry of the level for the PID. -/
def PwcHeadsAre (words : Words) (level : BitVec 2) (mayHit : BitVec 4) : Prop :=
  ∀ way : BitVec 2, mayHit.getLsbD way.toNat =
    pwcHead (entryAt words (b.setFor level) way) level b.pid

/-- The ways in `mayHit` are exactly those with the head of a 2M entry for the PID, where the tags
of ways 0 and 1 have been compared too. -/
def PwcLowAre (words : Words) (mayHit : BitVec 4) : Prop :=
  ∀ way : BitVec 2, mayHit.getLsbD way.toNat =
    (pwcHead (entryAt words (b.setFor 0) way) 0 b.pid &&
      (decide (2 ≤ way.toNat) || pwcTag (entryAt words (b.setFor 0) way) 0 b.addr))

/-- What is known in each state of a search. The address is that of `b`; the other registers are
those of `pr`. -/
@[reducible] def PwcSearch (pr : PwcReg) (ram : Ram) : PwcState → Prop
  | .search1 =>
    ram.rddata = ram.words (b.wordOf .search2M0) ∧
      pr.missed2M = false ∧ pr.missed1G = false ∧ pr.missed512G = false
  | .search2M0 =>
    ram.rdreg = ram.words (b.wordOf .search2M0) ∧ ram.rddata = ram.words (b.wordOf .search1G0) ∧
      pr.missed2M = false ∧ pr.missed1G = false ∧ pr.missed512G = false
  | .search1G0 =>
    ram.rdreg = ram.words (b.wordOf .search1G0) ∧ ram.rddata = ram.words (b.wordOf pr.nextState) ∧
      pr.missed1G = false ∧ pr.missed512G = false ∧ PwcHeadsAre b ram.words 0 pr.mayHit2M ∧
      (pr.nextState = .search2M1 ∧ pr.missed2M = false ∨
        pr.nextState = .searchHT0 ∧ pr.missed2M = true ∧ PwcNo ram.words b.pid b.addr 0)
  | .search2M1 =>
    ram.rdreg = ram.words (b.wordOf .search2M1) ∧ ram.rddata = ram.words (b.wordOf pr.nextState) ∧
      pr.nextState = .search2M2 ∧ pr.missed512G = false ∧ PwcHeadsAre b ram.words 0 pr.mayHit2M ∧
      PwcHeadsAre b ram.words 1 pr.mayHit1G ∧
      (pr.missed1G = true → PwcNo ram.words b.pid b.addr 1)
  | .search2M2 =>
    ram.rdreg = ram.words (b.wordOf .search2M2) ∧ ram.rddata = ram.words (b.wordOf pr.nextState) ∧
      (pr.nextState = .search1G3 ∧ pr.missed1G = false ∨
        pr.nextState = .searchHT0 ∧ pr.missed1G = true ∧ PwcNo ram.words b.pid b.addr 1) ∧
      pr.missed512G = false ∧ PwcLowAre b ram.words pr.mayHit2M ∧
      PwcHeadsAre b ram.words 1 pr.mayHit1G
  | .search1G3 =>
    ram.rdreg = ram.words (b.wordOf .search1G3) ∧ PwcNo ram.words b.pid b.addr 0 ∧
      PwcHeadsAre b ram.words 1 pr.mayHit1G ∧
      (pr.missed512G = true ∧ PwcNo ram.words b.pid b.addr 2 ∨
        pr.missed512G = false ∧ ram.rddata = ram.words (b.wordOf pr.nextState) ∧
          (pr.nextState = .searchHT0 ∨
            pr.nextState = .searchHT3 ∧ PwcHeadsAre b ram.words 2 pr.mayHit512G))
  | .searchHT0 =>
    ram.rdreg = ram.words (b.wordOf .searchHT0) ∧ ram.rddata = ram.words (b.wordOf pr.nextState) ∧
      pr.missed512G = false ∧ PwcNo ram.words b.pid b.addr 0 ∧
      (pr.nextState = .search1G3 ∧ pr.missed1G = false ∧ PwcHeadsAre b ram.words 1 pr.mayHit1G ∨
        (pr.nextState = .searchHT0 ∨ pr.nextState = .searchHT3) ∧ pr.missed1G = true ∧
          PwcNo ram.words b.pid b.addr 1)
  | .searchHT3 =>
    ram.rdreg = ram.words (b.wordOf .searchHT3) ∧ PwcNo ram.words b.pid b.addr 0 ∧
      PwcNo ram.words b.pid b.addr 1 ∧ PwcHeadsAre b ram.words 2 pr.mayHit512G
  | .rdpde =>
    pwcLookup ram.words b.pid b.addr = some (pr.hitSize, pr.selWay) ∧
      ram.rddata = (entryAt ram.words (b.setFor pr.hitSize) pr.selWay).body
  | .waitw =>
    pwcLookup ram.words b.pid b.addr = (if pr.hit then some (pr.hitSize, pr.selWay) else none) ∧
      pr.miss = !pr.hit ∧
      (pr.hit = true → ram.rdreg = (entryAt ram.words (b.setFor pr.hitSize) pr.selWay).body)
  | _ => True

end

/-- The page walk cache is searching for a translation, or has the answer. -/
structure PwcBusy (pr : PwcReg) (ram : Ram) : Prop where
  state : pr.state.inSearch = true
  hash : ∀ level, pr.setFor level = hashLevel level pr.addr pr.pid
  good : pr.state ≠ .search1 → pr.badEa = false
  open_ : pr.state ≠ .waitw → pr.hit = false ∧ pr.miss = false
  data : PwcSearch pr pr ram pr.state

/-- The page walk cache is idle and says miss. -/
structure PwcAway (pr : PwcReg) : Prop where
  state : pr.state = .idle
  hit : pr.hit = false
  miss : pr.miss = true

section

variable {s : State} {l : Loadstore1ToMmu}

/-! ### Registers that a search keeps -/

theorem prin_keeps (h : s.pr.state ≠ .idle) :
    (prin s l).addr = s.pr.addr ∧ (prin s l).pid = s.pr.pid ∧ (prin s l).badEa = s.pr.badEa ∧
      (prin s l).hash2M = s.pr.hash2M ∧ (prin s l).hash1G = s.pr.hash1G ∧
      (prin s l).hash512G = s.pr.hash512G := by
  simp [prin, h]

theorem prin_setFor (h : s.pr.state ≠ .idle) (level : BitVec 2) :
    (prin s l).setFor level = s.pr.setFor level := by
  obtain ⟨-, -, -, h2, h1, h5⟩ := prin_keeps (l := l) h
  simp only [PwcReg.setFor, h2, h1, h5]

theorem prin_wordOf (h : s.pr.state ≠ .idle) (st : PwcState) :
    (prin s l).wordOf st = s.pr.wordOf st := by
  obtain ⟨-, -, -, h2, h1, h5⟩ := prin_keeps (l := l) h
  cases st <;> simp only [PwcReg.wordOf, h2, h1, h5]

variable {words : Words} {level : BitVec 2} {m : BitVec 4}

theorem prin_search (h : s.pr.state ≠ .idle) {pr : PwcReg} {ram : Ram} (st : PwcState) :
    PwcSearch (prin s l) pr ram st = PwcSearch s.pr pr ram st := by
  obtain ⟨haddr, hpid, -⟩ := prin_keeps (l := l) h
  cases st <;>
    simp only [PwcSearch, PwcHeadsAre, PwcLowAre, prin_wordOf h, prin_setFor h, haddr, hpid]

theorem prin_state (hq : (s.r.done || s.r.err) = false) : (prin s l).state = pwcState s l := by
  simp [prin, hq]

section

variable (h : s.pr.state.inSearch = true) (hw : s.pr.state = .waitw → s.r.wrPwcram = false)

include h hw

theorem pwcOp_wren : (pwcOp s l).wren = 0 := by
  cases hst : s.pr.state <;> simp [hst, PwcState.inSearch] at h <;> simp [pwcOp, hst]
  simp [hw hst]

theorem pwcNext_words_search : (pwcNext s l).words = s.pwc.words :=
  writeWord_none _ (pwcOp_wren h hw)

end

/-! ### Comparing -/

theorem pwcMatch_exact {pr : PwcReg} {word : BitVec 64}
    (hd : word = words (pr.setFor level ++ 0#3)) :
    PwcHeadsAre pr words level (pwcMatch word pr.pid level) := by
  intro way
  rw [pwcMatch, getLsbD_ofBits4, hd]
  rfl

theorem extract_lane32 (word : BitVec 64) (j : ℕ) :
    word.extractLsb' (j * 32 + 7) 25 = (Lanes.lane 32 word j).extractLsb' 7 25 := by
  refine BitVec.eq_of_getLsbD_eq fun k hk => ?_
  simp only [BitVec.getLsbD_extractLsb', Lanes.getLsbD_lane, hk, decide_true, Bool.true_and,
    show 7 + k < 32 by omega, show j * 32 + 7 + k = 32 * j + (7 + k) by omega]

theorem refine2M_exact (m : BitVec 4) (word : BitVec 64) (first : ℕ) (tag : BitVec 25)
    (way : BitVec 2) :
    (refine2M m word first tag).getLsbD way.toNat = (m.getLsbD way.toNat &&
      (decide (way.toNat < first ∨ first + 2 ≤ way.toNat) ||
        (Lanes.lane 32 word (way.toNat - first)).extractLsb' 7 25 == tag)) := by
  rw [refine2M, getLsbD_ofBits4, extract_lane32]

theorem findFirstOne_spec {x : BitVec 4} (h : x ≠ 0#4) :
    x.getLsbD (findFirstOne x).toNat = true := by
  revert x; decide

/-- Of several hits the first way counts. -/
theorem first_findFirstOne {m : BitVec 4} {p : BitVec 2 → Bool}
    (h : ∀ way : BitVec 2, m.getLsbD way.toNat = p way) (hm : m ≠ 0#4) :
    Ways.first p = some (findFirstOne m) := by
  have hlow : ∀ v, v < findFirstOne m → m.getLsbD v.toNat = false := by
    clear h
    revert m
    decide
  refine Ways.first_eq_some.mpr ⟨?_, fun v hv => ?_⟩
  · rw [← h]
    exact findFirstOne_spec hm
  · rw [← h]
    exact hlow v hv

/-- Without a way left over there is no entry. -/
theorem pwcNo_of_hits
    (h : ∀ way : BitVec 2, m.getLsbD way.toNat = pwcHit s.pwc.words s.pr.pid s.pr.addr level way)
    (hm : m = 0#4) : PwcNo s.pwc.words s.pr.pid s.pr.addr level := by
  intro way
  rw [← h way, eq_zero_iff_ways.mp hm way]

/-! ### The search step by step -/

theorem PwcBusy.start (hst : s.pr.state = .idle) (hq : (s.r.done || s.r.err) = false)
    (hv : l.valid = true) (ht : l.tlbie = false) : PwcBusy (prin s l) (pwcNext s l) := by
  have hs : (prin s l).state = .search1 := by simp [prin_state hq, pwcState, hst, hv, ht]
  have hwr : (pwcOp s l).wren = 0 := by simp [pwcOp, hst]
  have hwords : (pwcNext s l).words = s.pwc.words := writeWord_none _ hwr
  refine ⟨by rw [hs]; rfl, ?_, fun h => absurd hs h, ?_, ?_⟩
  · intro level
    unfold PwcReg.setFor
    by_cases h0 : level = 0
    · simp [h0, prin, hst, addrHash2M_eq]
    by_cases h1 : level = 1
    · simp [h1, prin, hst, addrHash1G_eq]
    · have h5 : hashLevel level (prin s l).addr (prin s l).pid =
          hashLevel 2 (prin s l).addr (prin s l).pid := by
        simp only [hashLevel, h0, h1, if_false]
        rfl
      rw [if_neg h0, if_neg h1, h5]
      simp [prin, hst, addrHash512G_eq]
  · simp [prin, hst, hv]
  · rw [hs]
    refine ⟨?_, by simp [prin, pwcMissed2M, hst], by simp [prin, pwcMissed1G, hst],
      by simp [prin, pwcMissed512G, hst]⟩
    rw [hwords]
    simp [pwcNext, pwcOp, hst, hv, ht, pwcRdHash, pwcIdx, PwcReg.wordOf, prin]

section

variable (hb : PwcBusy s.pr s.pwc)

include hb

theorem PwcBusy.ne_idle : s.pr.state ≠ .idle := by
  intro h
  have := hb.state
  rw [h] at this
  cases this

theorem PwcBusy.data_at {st : PwcState} (hst : s.pr.state = st) : PwcSearch s.pr s.pr s.pwc st :=
  hst ▸ hb.data

theorem PwcBusy.pwcHit_eq (level way : BitVec 2) :
    pwcHit s.pwc.words s.pr.pid s.pr.addr level way =
      (pwcHead (entryAt s.pwc.words (s.pr.setFor level) way) level s.pr.pid &&
        pwcTag (entryAt s.pwc.words (s.pr.setFor level) way) level s.pr.addr) := by
  rw [pwcHit, ← hb.hash]

theorem PwcBusy.no_of_heads (h : PwcHeadsAre s.pr s.pwc.words level m) (hm : m = 0#4) :
    PwcNo s.pwc.words s.pr.pid s.pr.addr level := by
  intro way
  rw [hb.pwcHit_eq, ← h way, eq_zero_iff_ways.mp hm way, Bool.false_and]

theorem PwcBusy.mayHit2M1 (hst : s.pr.state = .search2M1) :
    PwcLowAre s.pr s.pwc.words (pwcMayHit2M s) := by
  obtain ⟨hreg, -, -, -, hheads, -⟩ := hb.data_at hst
  intro way
  have hmay : pwcMayHit2M s =
      refine2M s.pr.mayHit2M s.pwc.rdreg 0 (s.pr.addr.extractLsb' 6 25) := by
    simp [pwcMayHit2M, hst]
  rw [hmay, refine2M_exact, hheads way, hreg]
  by_cases hlow : way.toNat < 2
  · simp only [Nat.not_lt_zero, Nat.zero_add, show ¬2 ≤ way.toNat by omega, or_self,
      decide_false, Bool.false_or, pwcTag, if_true, entryAt, (tagIdx_low hlow).1,
      (tagIdx_low hlow).2, PwcReg.wordOf, PwcReg.setFor, Nat.sub_zero]
  · simp [show 2 ≤ way.toNat by omega]

theorem PwcBusy.mayHit2M2 (hst : s.pr.state = .search2M2) (way : BitVec 2) :
    (pwcMayHit2M s).getLsbD way.toNat = pwcHit s.pwc.words s.pr.pid s.pr.addr 0 way := by
  obtain ⟨hreg, -, -, -, hlows, -⟩ := hb.data_at hst
  have hmay : pwcMayHit2M s =
      refine2M s.pr.mayHit2M s.pwc.rdreg 2 (s.pr.addr.extractLsb' 6 25) := by
    simp [pwcMayHit2M, hst]
  rw [hmay, refine2M_exact, hlows way, hreg, hb.pwcHit_eq]
  by_cases hlow : way.toNat < 2
  · simp [hlow, show ¬2 ≤ way.toNat by omega]
  · have hge : 2 ≤ way.toNat := by omega
    have hlt := way.isLt
    simp only [hge, hlow, show ¬2 + 2 ≤ way.toNat by omega, or_self, decide_false, Bool.false_or,
      decide_true, Bool.true_or, Bool.and_true, pwcTag, if_true, entryAt, (tagIdx_high hge).1,
      (tagIdx_high hge).2, PwcReg.wordOf, PwcReg.setFor]

theorem PwcBusy.mayHit1G3 (hst : s.pr.state = .search1G3) (way : BitVec 2) :
    (pwcMayHit1G s).getLsbD way.toNat = pwcHit s.pwc.words s.pr.pid s.pr.addr 1 way := by
  obtain ⟨hreg, -, hheads, -⟩ := hb.data_at hst
  rw [pwcMayHit1G, hst]
  simp only [getLsbD_ofBits4]
  rw [hheads way, hreg, hb.pwcHit_eq]
  rfl

theorem PwcBusy.mayHitHT3 (hst : s.pr.state = .searchHT3) (way : BitVec 2) :
    (pwcMayHit512G s).getLsbD way.toNat = pwcHit s.pwc.words s.pr.pid s.pr.addr 2 way := by
  obtain ⟨hreg, -, -, hheads⟩ := hb.data_at hst
  rw [pwcMayHit512G, hst]
  simp only [getLsbD_ofBits4]
  rw [hheads way, hreg, hb.pwcHit_eq]
  rfl

theorem PwcBusy.found (hst : s.pr.state = .waitw) : (s.pr.hit || s.pr.miss) = true := by
  rw [(hb.data_at hst).2.1, Bool.or_not_self]

/-- A hit is an entry for the address, and the entry is in the output register. -/
theorem PwcBusy.pwcMatch (hst : s.pr.state = .waitw) (hh : s.pr.hit = true) :
    PwcMatch (entryAt s.pwc.words (s.pr.setFor s.pr.hitSize) s.pr.selWay)
        (s.pr.setFor s.pr.hitSize) s.pr.hitSize s.pr.pid s.pr.addr ∧
      s.pwc.rdreg = (entryAt s.pwc.words (s.pr.setFor s.pr.hitSize) s.pr.selWay).body := by
  obtain ⟨hlook, -, hreg⟩ := hb.data_at hst
  rw [if_pos hh] at hlook
  refine ⟨?_, hreg hh⟩
  rw [hb.hash]
  exact pwcHit_iff.mp (pwcLookup_hit hlook)

theorem PwcBusy.search1_bad (hst : s.pr.state = .search1) (hbad : s.pr.badEa = true) :
    PwcAway (prin s l) := by
  have hf := hb.open_ (by rw [hst]; decide)
  refine ⟨?_, by simp [prin, hst, hf.1], by simp [prin, hst, hbad, pwcMissNow]⟩
  simp [prin, pwcState, hst, hbad]

variable (hq : (s.r.done || s.r.err) = false) {st₀ u : PwcState}

include hq

/-- Whatever the next state of the search, these registers stay and the RAM is not written. -/
theorem PwcBusy.of_data (hw : s.pr.state = .waitw → s.r.wrPwcram = false)
    (hgood : s.pr.badEa = false) (hs : pwcState s l = u) (hin : u.inSearch = true)
    (hopen : u ≠ .waitw → (prin s l).hit = false ∧ (prin s l).miss = false)
    (hdata : PwcSearch s.pr (prin s l) { pwcNext s l with words := s.pwc.words } u) :
    PwcBusy (prin s l) (pwcNext s l) := by
  obtain ⟨haddr, hpid, hbad, -⟩ := prin_keeps (l := l) hb.ne_idle
  rw [← prin_state hq] at hs
  subst hs
  refine ⟨hin, fun level => ?_, fun _ => hbad.trans hgood, hopen, ?_⟩
  · rw [prin_setFor hb.ne_idle, haddr, hpid, hb.hash]
  · rw [prin_search hb.ne_idle]
    rw [← pwcNext_words_search (l := l) hb.state hw] at hdata
    exact hdata

variable (hst : s.pr.state = st₀) (h₀ : st₀ ≠ .rdpde ∧ st₀ ≠ .waitw) (hgood : s.pr.badEa = false)

include hst h₀ hgood

/-- The search goes on without an answer. -/
theorem PwcBusy.goes (hmiss : pwcMissNow s = false) (hs : pwcState s l = u)
    (hin : u.inSearch = true)
    (hdata : PwcSearch s.pr (prin s l) { pwcNext s l with words := s.pwc.words } u) :
    PwcBusy (prin s l) (pwcNext s l) := by
  have hf := hb.open_ (hst ▸ h₀.2)
  refine hb.of_data hq (fun h => absurd (hst.symm.trans h) h₀.2) hgood hs hin (fun _ => ?_) hdata
  have hne := hb.ne_idle
  rw [hst] at hne
  cases st₀ <;> simp_all [prin]

/-- No size has an entry. -/
theorem PwcBusy.misses (hs : pwcState s l = .waitw) (hmiss : pwcMissNow s = true)
    (hno0 : PwcNo s.pwc.words s.pr.pid s.pr.addr 0) (hno1 : PwcNo s.pwc.words s.pr.pid s.pr.addr 1)
    (hno2 : PwcNo s.pwc.words s.pr.pid s.pr.addr 2) : PwcBusy (prin s l) (pwcNext s l) := by
  have hf := hb.open_ (hst ▸ h₀.2)
  have hne := hb.ne_idle
  have hflags : (prin s l).hit = false ∧ (prin s l).miss = true := by
    rw [hst] at hne
    cases st₀ <;> simp_all [prin]
  refine hb.of_data hq (fun h => absurd (hst.symm.trans h) h₀.2) hgood hs rfl (by simp) ?_
  simp only [PwcSearch, hflags]
  exact ⟨pwcLookup_none hno0 hno1 hno2, rfl, by simp⟩

/-- A size has an entry, and the smaller ones have none. -/
theorem PwcBusy.hits
    (hhits : ∀ way : BitVec 2,
      m.getLsbD way.toNat = pwcHit s.pwc.words s.pr.pid s.pr.addr level way)
    (hm : m ≠ 0#4) (hlook : ∀ {way}, Ways.first (pwcHit s.pwc.words s.pr.pid s.pr.addr level) =
      some way → pwcLookup s.pwc.words s.pr.pid s.pr.addr = some (level, way))
    (hmiss : pwcMissNow s = false) (hs : pwcState s l = .rdpde)
    (hsel : pwcSelWay s = findFirstOne m) (hsize : (prin s l).hitSize = level)
    (hread : (pwcNext s l).rddata = s.pwc.words (s.pr.setFor level ++ bodyIdx (pwcSelWay s))) :
    PwcBusy (prin s l) (pwcNext s l) := by
  refine hb.goes hq hst h₀ hgood hmiss hs rfl ?_
  simp only [PwcSearch, hsize]
  refine ⟨(hlook (first_findFirstOne hhits hm)).trans ?_, hread⟩
  rw [← hsel]
  rfl

end

/-! ### The search step by step -/

section

variable (hb : PwcBusy s.pr s.pwc) (hq : (s.r.done || s.r.err) = false)

include hb hq

/-- The heads of the 2M set are there, those of the 1G set are read. -/
theorem PwcBusy.search1 (hst : s.pr.state = .search1) (hgood : s.pr.badEa = false) :
    PwcBusy (prin s l) (pwcNext s l) := by
  obtain ⟨hd, h2, h1, h5⟩ := hb.data_at hst
  exact hb.goes hq hst (by decide) hgood (by simp [pwcMissNow, hst, hgood]) (u := .search2M0)
    (by simp [pwcState, hst, hgood]) rfl ⟨by simp [pwcNext, pwcOp, pwcRdren, hst, hd],
      by simp [pwcNext, pwcOp, hst, pwcRdHash, pwcIdx, PwcReg.wordOf],
      by simp [prin, pwcMissed2M, hst, h2], by simp [prin, pwcMissed1G, hst, h1],
      by simp [prin, pwcMissed512G, hst, h5]⟩

/-- The 2M heads are compared; if none is right, the 2M tags are skipped. -/
theorem PwcBusy.search2M0 (hst : s.pr.state = .search2M0) : PwcBusy (prin s l) (pwcNext s l) := by
  obtain ⟨hreg, hdat, h2, h1, h5⟩ := hb.data_at hst
  have hheads : PwcHeadsAre s.pr s.pwc.words 0 (pwcMayHit2M s) := by
    rw [pwcMayHit2M, hst]
    exact pwcMatch_exact hreg
  refine hb.goes hq hst (by decide) (hb.good (by simp [hst])) (by simp [pwcMissNow, hst])
    (u := .search1G0) (by simp [pwcState, hst]) rfl
    ⟨by simp [pwcNext, pwcOp, pwcRdren, hst, hdat], ?_, by simp [prin, pwcMissed1G, hst, h1],
      by simp [prin, pwcMissed512G, hst, h5], hheads, ?_⟩
  · by_cases hm : pwcMayHit2M s = 0#4 <;>
      simp [pwcNext, pwcOp, prin, pwcNextState, hst, hm, pwcRdHash, pwcIdx, PwcReg.wordOf]
  · by_cases hm : pwcMayHit2M s = 0#4
    · exact .inr ⟨by simp [prin, pwcNextState, hst, hm], by simp [prin, pwcMissed2M, hst, hm],
        hb.no_of_heads hheads hm⟩
    · exact .inl ⟨by simp [prin, pwcNextState, hst, hm], by simp [prin, pwcMissed2M, hst, hm, h2]⟩

theorem PwcBusy.search1G0 (hst : s.pr.state = .search1G0) : PwcBusy (prin s l) (pwcNext s l) := by
  obtain ⟨hreg, hdat, h1, h5, hheads2, hnext⟩ := hb.data_at hst
  have hgood := hb.good (by simp [hst])
  have hheads1 : PwcHeadsAre s.pr s.pwc.words 1 (pwcMayHit1G s) := by
    rw [pwcMayHit1G, hst]
    exact pwcMatch_exact hreg
  rw [← show pwcMayHit2M s = s.pr.mayHit2M by simp [pwcMayHit2M, hst]] at hheads2
  have hno : pwcMissed1G s = true → PwcNo s.pwc.words s.pr.pid s.pr.addr 1 := fun hm =>
    hb.no_of_heads hheads1 (by simpa [pwcMissed1G, hst, h1] using hm)
  have hmiss : pwcMissNow s = false := by simp [pwcMissNow, hst]
  have h5' : pwcMissed512G s = false := by simp [pwcMissed512G, hst, h5]
  have hs : pwcState s l = s.pr.nextState := by simp [pwcState, hst]
  have hreg' : (pwcNext s l).rdreg = s.pwc.words (s.pr.wordOf s.pr.nextState) := by
    simp [pwcNext, pwcOp, pwcRdren, hst, hdat]
  rcases hnext with ⟨hn, h2⟩ | ⟨hn, h2, hno0⟩ <;> rw [hn] at hs hreg'
  · have hn' : pwcNextState s l = .search2M2 := by simp [pwcNextState, hst, h2]
    refine hb.goes hq hst (by decide) hgood hmiss hs rfl
      ⟨hreg', ?_, hn', h5', hheads2, hheads1, hno⟩
    simp [prin, hn', pwcNext, pwcOp, hst, pwcRdHash, pwcIdx, PwcReg.wordOf, h2]
  · cases hm : pwcMissed1G s with
    | false =>
      have hn' : pwcNextState s l = .search1G3 := by simp [pwcNextState, hst, h2, hm]
      refine hb.goes hq hst (by decide) hgood hmiss hs rfl
        ⟨hreg', ?_, h5', hno0, .inl ⟨hn', hm, hheads1⟩⟩
      simp [prin, hn', pwcNext, pwcOp, hst, pwcRdHash, pwcIdx, PwcReg.wordOf, h2, hm]
    | true =>
      have hn' : pwcNextState s l = .searchHT0 := by simp [pwcNextState, hst, h2, hm]
      refine hb.goes hq hst (by decide) hgood hmiss hs rfl
        ⟨hreg', ?_, h5', hno0, .inr ⟨.inl hn', hm, hno hm⟩⟩
      simp [prin, hn', pwcNext, pwcOp, hst, pwcRdHash, pwcIdx, PwcReg.wordOf, h2, hm]

theorem PwcBusy.search2M1 (hst : s.pr.state = .search2M1) : PwcBusy (prin s l) (pwcNext s l) := by
  obtain ⟨-, hdat, hn, h5, -, hheads1, hno1⟩ := hb.data_at hst
  rw [← show pwcMayHit1G s = s.pr.mayHit1G by simp [pwcMayHit1G, hst]] at hheads1
  have h1' : pwcMissed1G s = s.pr.missed1G := by simp [pwcMissed1G, hst]
  refine hb.goes hq hst (by decide) (hb.good (by simp [hst])) (by simp [pwcMissNow, hst])
    (u := .search2M2) (by simp [pwcState, hst, hn]) rfl
    ⟨by simp [pwcNext, pwcOp, pwcRdren, hst, hdat, hn], ?_, ?_,
      by simp [prin, pwcMissed512G, hst, h5], hb.mayHit2M1 hst, hheads1⟩
  · cases h1 : s.pr.missed1G <;>
      simp [pwcNext, pwcOp, prin, pwcNextState, hst, h1, pwcRdHash, pwcIdx, PwcReg.wordOf]
  · cases h1 : s.pr.missed1G with
    | false => exact .inl ⟨by simp [prin, pwcNextState, hst, h1], h1'.trans h1⟩
    | true => exact .inr ⟨by simp [prin, pwcNextState, hst, h1], h1'.trans h1, hno1 h1⟩

/-- The tags of the ways 2 and 3 decide about 2M. -/
theorem PwcBusy.search2M2 (hst : s.pr.state = .search2M2) : PwcBusy (prin s l) (pwcNext s l) := by
  obtain ⟨-, hdat, hnext, h5, -, hheads1⟩ := hb.data_at hst
  have hgood := hb.good (by simp [hst])
  have hhits := hb.mayHit2M2 hst
  have hmiss : pwcMissNow s = false := by simp [pwcMissNow, hst]
  by_cases hm : pwcMayHit2M s = 0#4
  · have hno0 := pwcNo_of_hits hhits hm
    have hno : pwcHitNow s = false := by simp [pwcHitNow, hst, hm]
    rw [← show pwcMayHit1G s = s.pr.mayHit1G by simp [pwcMayHit1G, hst]] at hheads1
    have h1' : pwcMissed1G s = s.pr.missed1G := by simp [pwcMissed1G, hst]
    have h5' : pwcMissed512G s = false := by simp [pwcMissed512G, hst, h5]
    have hs : pwcState s l = s.pr.nextState := by simp [pwcState, hst, hno]
    have hreg' : (pwcNext s l).rdreg = s.pwc.words (s.pr.wordOf s.pr.nextState) := by
      simp [pwcNext, pwcOp, pwcRdren, hst, hdat, hno]
    rcases hnext with ⟨hn, h1⟩ | ⟨hn, h1, hno1⟩ <;> rw [hn] at hs hreg'
    · have hn' : pwcNextState s l = .searchHT0 := by simp [pwcNextState, hst, hno, h1]
      refine hb.goes hq hst (by decide) hgood hmiss hs rfl
        ⟨hreg', hno0, hheads1, .inr ⟨h5', ?_, .inl hn'⟩⟩
      simp [prin, hn', pwcNext, pwcOp, hst, hno, h1, pwcRdHash, pwcIdx, PwcReg.wordOf]
    · have hn' : pwcNextState s l = .searchHT3 := by simp [pwcNextState, hst, hno, h1]
      refine hb.goes hq hst (by decide) hgood hmiss hs rfl
        ⟨hreg', ?_, h5', hno0, .inr ⟨.inr hn', h1'.trans h1, hno1⟩⟩
      simp [prin, hn', pwcNext, pwcOp, hst, hno, h1, pwcRdHash, pwcIdx, PwcReg.wordOf]
  · have hyes : pwcHitNow s = true := by simp [pwcHitNow, hst, hm]
    exact hb.hits hq hst (by decide) hgood hhits hm pwcLookup_2M hmiss
      (by simp [pwcState, hst, hyes]) (by simp [pwcSelWay, hst, hyes]) (by simp [prin, hst, hyes])
      (by simp [pwcNext, pwcOp, hst, hyes, pwcRdHash, pwcIdx, PwcReg.setFor, bodyIdx])

theorem PwcBusy.search1G3 (hst : s.pr.state = .search1G3) : PwcBusy (prin s l) (pwcNext s l) := by
  obtain ⟨-, hno0, -, hnext⟩ := hb.data_at hst
  have hgood := hb.good (by simp [hst])
  have hhits := hb.mayHit1G3 hst
  by_cases hm : pwcMayHit1G s = 0#4
  · have hno1 := pwcNo_of_hits hhits hm
    have hno : pwcHitNow s = false := by simp [pwcHitNow, hst, hm]
    rcases hnext with ⟨h5, hno2⟩ | ⟨h5, hdat, hn⟩
    · have hmiss : pwcMissNow s = true := by simp [pwcMissNow, hst, hm, h5]
      exact hb.misses hq hst (by decide) hgood (by simp [pwcState, hst, hno, hmiss]) hmiss hno0 hno1
        hno2
    · have hmiss : pwcMissNow s = false := by simp [pwcMissNow, hst, h5]
      have hs : pwcState s l = s.pr.nextState := by simp [pwcState, hst, hno, hmiss]
      have hn' : pwcNextState s l = s.pr.nextState := by simp [pwcNextState, hst]
      have hreg' : (pwcNext s l).rdreg = s.pwc.words (s.pr.wordOf s.pr.nextState) := by
        simp [pwcNext, pwcOp, pwcRdren, hst, hdat, hno, hmiss]
      have hdat' : (pwcNext s l).rddata = s.pwc.words (s.pr.wordOf (prin s l).nextState) := by
        simp [prin, hn', pwcNext, pwcOp, hst, hdat, hno]
      rcases hn with hn | ⟨hn, hheads5⟩ <;> rw [hn] at hs hreg' hn'
      · exact hb.goes hq hst (by decide) hgood hmiss hs rfl
          ⟨hreg', hdat', by simp [prin, pwcMissed512G, hst, h5], hno0,
            .inr ⟨.inl hn', by simp [prin, pwcMissed1G, hst, hm], hno1⟩⟩
      · rw [← show pwcMayHit512G s = s.pr.mayHit512G by simp [pwcMayHit512G, hst]] at hheads5
        exact hb.goes hq hst (by decide) hgood hmiss hs rfl ⟨hreg', hno0, hno1, hheads5⟩
  · have hyes : pwcHitNow s = true := by simp [pwcHitNow, hst, hm]
    exact hb.hits hq hst (by decide) hgood hhits hm (pwcLookup_1G hno0)
      (by simp [pwcMissNow, hst, hm]) (by simp [pwcState, hst, hyes])
      (by simp [pwcSelWay, hst, hyes]) (by simp [prin, hst, hyes])
      (by simp [pwcNext, pwcOp, hst, hyes, pwcRdHash, pwcIdx, PwcReg.setFor, bodyIdx])

/-- The 512G heads are compared, the last ones. -/
theorem PwcBusy.searchHT0 (hst : s.pr.state = .searchHT0) : PwcBusy (prin s l) (pwcNext s l) := by
  obtain ⟨hreg, hdat, h5, hno0, hnext⟩ := hb.data_at hst
  have hgood := hb.good (by simp [hst])
  have hheads5 : PwcHeadsAre s.pr s.pwc.words 2 (pwcMayHit512G s) := by
    rw [pwcMayHit512G, hst]
    exact pwcMatch_exact hreg
  have hmay1 : pwcMayHit1G s = s.pr.mayHit1G := by simp [pwcMayHit1G, hst]
  have h1' : pwcMissed1G s = s.pr.missed1G := by simp [pwcMissed1G, hst]
  by_cases hm : pwcMayHit512G s = 0#4
  · have hno2 := hb.no_of_heads hheads5 hm
    have hmd : pwcMissed512G s = true := by simp [pwcMissed512G, hst, hm]
    rcases hnext with ⟨hn, h1, hheads1⟩ | ⟨-, h1, hno1⟩
    · rw [← hmay1] at hheads1
      have hmiss : pwcMissNow s = false := by simp [pwcMissNow, hst, h1]
      exact hb.goes hq hst (by decide) hgood hmiss (u := .search1G3)
        (by simp [pwcState, hst, hmiss, hn]) rfl
        ⟨by simp [pwcNext, pwcOp, pwcRdren, hst, hdat, hmiss, hn], hno0, hheads1,
          .inl ⟨hmd, hno2⟩⟩
    · have hmiss : pwcMissNow s = true := by simp [pwcMissNow, hst, h1, hmd]
      exact hb.misses hq hst (by decide) hgood (by simp [pwcState, hst, hmiss]) hmiss hno0 hno1 hno2
  · have hmd : pwcMissed512G s = false := by simp [pwcMissed512G, hst, hm, h5]
    have hmiss : pwcMissNow s = false := by simp [pwcMissNow, hst, hmd]
    have hs : pwcState s l = s.pr.nextState := by simp [pwcState, hst, hmiss]
    have hn' : pwcNextState s l = .searchHT3 := by simp [pwcNextState, hst, hm]
    have hreg' : (pwcNext s l).rdreg = s.pwc.words (s.pr.wordOf s.pr.nextState) := by
      simp [pwcNext, pwcOp, pwcRdren, hst, hdat, hmiss]
    have hdat' : (pwcNext s l).rddata = s.pwc.words (s.pr.wordOf (prin s l).nextState) := by
      simp [prin, hn', pwcNext, pwcOp, hst, hm, pwcRdHash, pwcIdx, PwcReg.wordOf]
    rcases hnext with ⟨hn, h1, hheads1⟩ | ⟨hn | hn, h1, hno1⟩ <;> rw [hn] at hs hreg'
    · rw [← hmay1] at hheads1
      exact hb.goes hq hst (by decide) hgood hmiss hs rfl
        ⟨hreg', hno0, hheads1, .inr ⟨hmd, hdat', .inr ⟨hn', hheads5⟩⟩⟩
    · exact hb.goes hq hst (by decide) hgood hmiss hs rfl
        ⟨hreg', hdat', hmd, hno0, .inr ⟨.inr hn', h1'.trans h1, hno1⟩⟩
    · exact hb.goes hq hst (by decide) hgood hmiss hs rfl ⟨hreg', hno0, hno1, hheads5⟩

theorem PwcBusy.searchHT3 (hst : s.pr.state = .searchHT3) : PwcBusy (prin s l) (pwcNext s l) := by
  obtain ⟨-, hno0, hno1, -⟩ := hb.data_at hst
  have hgood := hb.good (by simp [hst])
  have hhits := hb.mayHitHT3 hst
  by_cases hm : pwcMayHit512G s = 0#4
  · have hno : pwcHitNow s = false := by simp [pwcHitNow, hst, hm]
    exact hb.misses hq hst (by decide) hgood (by simp [pwcState, hst, hno])
      (by simp [pwcMissNow, hst, hm]) hno0 hno1 (pwcNo_of_hits hhits hm)
  · have hyes : pwcHitNow s = true := by simp [pwcHitNow, hst, hm]
    exact hb.hits hq hst (by decide) hgood hhits hm (pwcLookup_512G hno0 hno1)
      (by simp [pwcMissNow, hst, hm]) (by simp [pwcState, hst, hyes])
      (by simp [pwcSelWay, hst, hyes]) (by simp [prin, hst, hyes])
      (by simp [pwcNext, pwcOp, hst, hyes, pwcRdHash, pwcIdx, PwcReg.setFor, bodyIdx])

/-- The table entry of the way that was hit arrives. -/
theorem PwcBusy.rdpde (hst : s.pr.state = .rdpde) : PwcBusy (prin s l) (pwcNext s l) := by
  obtain ⟨hlook, hdat⟩ := hb.data_at hst
  have hf := hb.open_ (by rw [hst]; decide)
  have hkept : (prin s l).hit = true ∧ (prin s l).miss = false ∧
      (prin s l).hitSize = s.pr.hitSize ∧ (prin s l).selWay = s.pr.selWay := by
    simp [prin, pwcSelWay, pwcMissNow, hst, hf.2]
  refine hb.of_data hq (by simp [hst]) (hb.good (by simp [hst])) (u := .waitw)
    (by simp [pwcState, hst]) rfl (by simp) ?_
  simp only [PwcSearch, hkept]
  exact ⟨hlook, rfl, fun _ => by simp [pwcNext, pwcOp, pwcRdren, hst, hdat]⟩

theorem PwcBusy.waitw (hst : s.pr.state = .waitw) (hw : s.r.wrPwcram = false) :
    PwcBusy (prin s l) (pwcNext s l) := by
  obtain ⟨hlook, hmiss, hreg⟩ := hb.data_at hst
  have hkept : (prin s l).hit = s.pr.hit ∧ (prin s l).miss = s.pr.miss ∧
      (prin s l).hitSize = s.pr.hitSize ∧ (prin s l).selWay = s.pr.selWay := by
    simp [prin, pwcSelWay, pwcMissNow, hst, hw]
  refine hb.of_data hq (fun _ => hw) (hb.good (by simp [hst])) (u := .waitw)
    (by simp [pwcState, hst, hw]) rfl (by simp) ?_
  simp only [PwcSearch, hkept]
  exact ⟨hlook, hmiss, fun hh => by simp [pwcNext, pwcOp, pwcRdren, hst, hreg hh]⟩

/-- A search for an address that can be cached goes on. -/
theorem PwcBusy.next (hgood : s.pr.badEa = false)
    (hw : s.pr.state = .waitw → s.r.wrPwcram = false) : PwcBusy (prin s l) (pwcNext s l) := by
  have hst := hb.state
  cases h : s.pr.state <;> rw [h] at hst <;> try cases hst
  case search1 => exact hb.search1 hq h hgood
  case search2M0 => exact hb.search2M0 hq h
  case search2M1 => exact hb.search2M1 hq h
  case search2M2 => exact hb.search2M2 hq h
  case search1G0 => exact hb.search1G0 hq h
  case search1G3 => exact hb.search1G3 hq h
  case searchHT0 => exact hb.searchHT0 hq h
  case searchHT3 => exact hb.searchHT3 hq h
  case rdpde => exact hb.rdpde hq h
  case waitw => exact hb.waitw hq h (hw h)

/-- **One step of a search.** It goes on, or the address turns out not to be cacheable. -/
theorem PwcBusy.step (hw : s.r.wrPwcram = false) :
    PwcBusy (prin s l) (pwcNext s l) ∨ PwcAway (prin s l) := by
  by_cases hbad : s.pr.state = .search1 ∧ s.pr.badEa = true
  · exact .inr (hb.search1_bad hbad.1 hbad.2)
  · refine .inl (hb.next hq ?_ fun _ => hw)
    by_contra hne
    exact hbad ⟨by_contra fun hst => hne (hb.good hst), Bool.not_eq_false _ ▸ hne⟩

end

theorem PwcAway.step (h : PwcAway s.pr) (hv : l.valid = false) : PwcAway (prin s l) :=
  ⟨by simp [prin, pwcState, h.state, hv], by simp [prin, h.state, hv, h.hit],
    by simp [prin, h.state, hv, h.miss]⟩

end

/-! ### Searches end -/

/-- How many cycles a search of the page walk cache can still take. -/
def PwcReg.rank (pr : PwcReg) : ℕ :=
  match pr.state with
  | .search1 => 12
  | .search2M0 => 11
  | .search1G0 => 10
  | .search2M1 => 9
  | .search2M2 => 8
  | .search1G3 => if pr.missed512G || pr.nextState == .searchHT3 then 5 else 7
  | .searchHT0 =>
    if pr.nextState = .search1G3 then 6 else if pr.nextState = .searchHT0 then 5 else 4
  | .searchHT3 => 3
  | .rdpde => 2
  | _ => 0

theorem PwcReg.rank_le (pr : PwcReg) : pr.rank ≤ 12 := by
  unfold PwcReg.rank
  split <;> try split_ifs
  all_goals omega

/-- Every step of a search brings it closer to its end. -/
theorem PwcBusy.rank_step {m : State} {l : Loadstore1ToMmu} (hb : PwcBusy m.pr m.pwc)
    (hq : (m.r.done || m.r.err) = false) (hne : m.pr.state ≠ .waitw) :
    (prin m l).rank < m.pr.rank := by
  have hin := hb.state
  unfold PwcReg.rank
  rw [prin_state hq]
  cases hst : m.pr.state <;> rw [hst] at hin <;> try cases hin
  case search1 => cases hbad : m.pr.badEa <;> simp [pwcState, hst, hbad]
  case search2M0 => simp [pwcState, hst]
  case search1G0 =>
    rcases (hb.data_at hst).2.2.2.2.2 with ⟨hn, -⟩ | ⟨hn, -⟩ <;> simp only [pwcState, hst, hn]
    · decide
    · split_ifs <;> decide
  case search2M1 =>
    simp [pwcState, hst, (hb.data_at hst).2.2.1]
  case search2M2 =>
    cases hh : pwcHitNow m
    · rcases (hb.data_at hst).2.2.1 with ⟨hn, -⟩ | ⟨hn, -⟩ <;> simp only [pwcState, hst, hh, hn] <;>
        simp only [Bool.false_eq_true, if_false] <;> split_ifs <;> decide
    · simp [pwcState, hst, hh]
  case search1G3 =>
    cases hh : pwcHitNow m
    · have hn' : (prin m l).nextState = m.pr.nextState := by simp [prin, pwcNextState, hst]
      cases hmn : pwcMissNow m
      · rcases (hb.data_at hst).2.2.2 with ⟨h5, -⟩ | ⟨h5, -, hn | ⟨hn, -⟩⟩
        · -- with the other sizes missed, a miss here is a miss
          by_cases hm : pwcMayHit1G m = 0#4
          · simp [pwcMissNow, hst, hm, h5] at hmn
          · simp [pwcHitNow, hst, hm] at hh
        · simp [pwcState, hst, hh, hmn, hn, hn', h5]
        · simp [pwcState, hst, hh, hmn, hn, h5]
      · simp only [pwcState, hst, hh, hmn]
        split_ifs <;> simp
    · simp only [pwcState, hst, hh]
      split_ifs <;> simp
  case searchHT0 =>
    obtain ⟨-, -, h5, -, hnext⟩ := hb.data_at hst
    cases hmn : pwcMissNow m
    · by_cases hm : pwcMayHit512G m = 0#4
      · have hmd : pwcMissed512G m = true := by simp [pwcMissed512G, hst, hm]
        rcases hnext with ⟨hn, -⟩ | ⟨-, h1, -⟩
        · have h5' : (prin m l).missed512G = true := hmd
          simp [pwcState, hst, hmn, hn, h5']
        · simp [pwcMissNow, hst, h1, hmd] at hmn
      · have hn' : (prin m l).nextState = .searchHT3 := by simp [prin, pwcNextState, hst, hm]
        rcases hnext with ⟨hn, -⟩ | ⟨hn | hn, -⟩ <;> simp [pwcState, hst, hmn, hn, hn']
    · simp only [pwcState, hst, hmn]
      split_ifs <;> simp
  case searchHT3 => cases hh : pwcHitNow m <;> simp [pwcState, hst, hh]
  case rdpde => simp [pwcState, hst]
  case waitw => exact absurd hst hne

end Mmu

end Microwatt
