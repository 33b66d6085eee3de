import Microwatt.Mmu.Inval

/-!
# tlbie of one 2M page

The page walk cache compares the four ways of the page's set, the heads first and then the tags of
ways 0 and 1 and of ways 2 and 3. The last of these states compares with `r.addr`, the whole
address of the walk, where the one before it compares with `pr.addr`, the address from bit 21 on.
So for the ways 2 and 3 the bits 30 to 6 of the address are taken for its bits 51 to 27. There the
page's entry may survive the tlbie, and another page's entry may be lost.

The tlbie does what it should exactly where the two comparisons cannot differ.

## Main definitions

* `Mmu.isPage2M` — the entries that are meant
* `Mmu.SlicesAgree` — the comparisons cannot differ

## Main results

* `Mmu.tlbie_page2M`, `Mmu.tlbie_page2M_survives`
-/

namespace Microwatt

open Clocked

namespace Mmu

/-- The entry is a 2M leaf of the address space. -/
def isLeaf2M (e : Entry) (pid : BitVec 12) : Bool := e.leaf && pwcHead e 0 pid

/-- The place holds a 2M leaf for the page with address bits 51 to 21 equal to `a`. -/
def isPage2M (words : Words) (pid : BitVec 12) (a : BitVec 31) (set : BitVec 6)
    (way : BitVec 2) : Bool :=
  set == hashLevel 0 a pid && isLeaf2M (entryAt words set way) pid &&
    pwcTag (entryAt words set way) 0 a

/-- The entry that is there is cleared: it is a 2M leaf of the page's set, and its tag is what it is
compared with, the bits 51 to 27 of the address in ways 0 and 1 and its bits 30 to 6 in the others.
-/
def hits2M (words : Words) (pid : BitVec 12) (ea : BitVec 64) (set : BitVec 6)
    (way : BitVec 2) : Bool :=
  set == addrHash2M ea pid && isLeaf2M (entryAt words set way) pid &&
    (entryAt words set way).tag.extractLsb' 7 25 ==
      ea.extractLsb' (if way.toNat < 2 then 27 else 6) 25

/-- The bits 30 to 6 of the address are its bits 51 to 27, or the ways 2 and 3 of the page's set
hold no 2M leaf of the address space with one of the two as its tag. -/
def SlicesAgree (words : Words) (pid : BitVec 12) (ea : BitVec 64) : Prop :=
  ea.extractLsb' 6 25 = ea.extractLsb' 27 25 ∨
    ∀ way : BitVec 2, 2 ≤ way.toNat →
      isLeaf2M (entryAt words (addrHash2M ea pid) way) pid = true →
      (entryAt words (addrHash2M ea pid) way).tag.extractLsb' 7 25 ≠ ea.extractLsb' 6 25 ∧
        (entryAt words (addrHash2M ea pid) way).tag.extractLsb' 7 25 ≠ ea.extractLsb' 27 25

instance (words : Words) (pid : BitVec 12) (ea : BitVec 64) :
    Decidable (SlicesAgree words pid ea) :=
  inferInstanceAs (Decidable (_ ∨ ∀ _ : BitVec 2, _ → _ → _ ∧ _))

/-! ### Comparing -/

theorem head_leaf2M (x : BitVec 16) :
    (x.extractLsb' 12 4 == 0b1100) =
      (x.getLsbD 14 && x.getLsbD 15 && x.extractLsb' 12 2 == 0) := by
  have hsmall : ∀ y : BitVec 4, (y == 0b1100) =
      (y.getLsbD 2 && y.getLsbD 3 && y.extractLsb' 0 2 == 0) := by decide
  have hlow : (x.extractLsb' 12 4).extractLsb' 0 2 = x.extractLsb' 12 2 := by
    refine BitVec.eq_of_getLsbD_eq fun k hk => ?_
    simp [hk, show k < 4 by omega]
  rw [hsmall, hlow, BitVec.getLsbD_extractLsb', BitVec.getLsbD_extractLsb']
  rfl

theorem isLeaf2M_eq (e : Entry) (pid : BitVec 12) :
    isLeaf2M e pid = (e.head.extractLsb' 12 4 == 0b1100 && e.head.extractLsb' 0 12 == pid) := by
  rw [head_leaf2M, isLeaf2M, pwcHead, Entry.leaf, Entry.valid, Entry.pid, Entry.level]
  ac_rfl

section

variable {s : ℕ → State} {i : ℕ → Inputs}

/-- What the page walk cache knows after the heads and the tags of ways 0 and 1. -/
structure Page2M (s : State) (words : Words) (pid : BitVec 12) (ea : BitVec 64) :
    Prop where
  waiting : Waiting s
  addr : s.r.addr = ea
  state : s.pr.state = .inval2M2
  hash : s.pr.hash2M = addrHash2M ea pid
  words_eq : s.pwc.words = words
  may : ∀ way : BitVec 2, s.pr.mayHit2M.getLsbD way.toNat =
    (isLeaf2M (entryAt words (addrHash2M ea pid) way) pid &&
      (decide (2 ≤ way.toNat) ||
        pwcTag (entryAt words (addrHash2M ea pid) way) 0 (ea.extractLsb' 21 31)))
  reg : s.pwc.rdreg = words (addrHash2M ea pid ++ 2#3)
  busy : s.pr.tlbieDone = false

variable (h : TlbieRun s i) (his : isf (i 0).l = 0) (hap : (i 0).l.addr.extractLsb' 5 3 = 1)

include h his hap

/-- The page walk cache reaches its last state at time 4, and the walk waits. -/
theorem TlbieRun.page2M :
    (∀ k, 0 < k → k ≤ 4 → Waiting (s k)) ∧
      Page2M (s 4) (s 0).pwc.words (tlbiePid (i 0).l) (i 0).l.addr := by
  have hkind : pwcTlbie (i 0).l = .page2M := by
    simp [pwcTlbie, h.slbia, his, hap]
  have hq : ((s 0).r.done || (s 0).r.err) = false := h.ended
  obtain ⟨hw1, ha1⟩ := h.waiting
  have hq1 : ((s 1).r.done || (s 1).r.err) = false := hw1.quiet
  -- time 1: the heads are being read
  have hst1 : (s 1).pr.state = .inval2M := by
    rw [h.step_pr, prin_state hq]
    simp [pwcState, h.pwc, h.valid, h.tlbie, hkind]
  have hr1 : (s 1).pr.rdHash = addrHash2M (i 0).l.addr (tlbiePid (i 0).l) ∧
      (s 1).pr.hash2M = addrHash2M (i 0).l.addr (tlbiePid (i 0).l) ∧
      (s 1).pr.pid = tlbiePid (i 0).l ∧ (s 1).pr.addr = (i 0).l.addr.extractLsb' 21 31 ∧
      (s 1).pr.tlbieDone = false := by
    simp [h.step_pr, prin, pwcRdHash, h.pwc, h.valid, h.tlbie, hkind, h.requestPid_eq]
  have hd1 : (s 1).pwc.rddata =
      (s 0).pwc.words (addrHash2M (i 0).l.addr (tlbiePid (i 0).l) ++ 0#3) := by
    rw [h.step_pwc, pwcNext]
    simp [pwcOp, pwcRdHash, pwcIdx, h.pwc, h.valid, h.tlbie, hkind, h.requestPid_eq]
  have hwd1 : (s 1).pwc.words = (s 0).pwc.words := by
    rw [h.step_pwc]
    exact writeWord_none _ (by simp [pwcOp, h.pwc])
  -- time 2: the heads are in the output register
  obtain ⟨hw2, ha2⟩ := hw1.step (h.rst 1) hr1.2.2.2.2
  rw [← h.step] at hw2 ha2
  have hst2 : (s 2).pr.state = .inval2M0 := by
    rw [h.step_pr 1, prin_state hq1]
    simp [pwcState, hst1]
  have hr2 : (s 2).pr.rdHash = (s 1).pr.rdHash ∧ (s 2).pr.hash2M = (s 1).pr.hash2M ∧
      (s 2).pr.pid = (s 1).pr.pid ∧ (s 2).pr.addr = (s 1).pr.addr ∧
      (s 2).pr.tlbieDone = false := by
    simp [h.step_pr 1, prin, pwcRdHash, hst1, hr1.2.2.2.2]
  have hd2 : (s 2).pwc.rdreg = (s 1).pwc.rddata ∧
      (s 2).pwc.rddata = (s 0).pwc.words ((s 1).pr.rdHash ++ 1#3) := by
    rw [h.step_pwc 1, pwcNext, ← hwd1]
    simp [pwcOp, pwcRdren, pwcRdHash, pwcIdx, hst1]
  have hwd2 : (s 2).pwc.words = (s 0).pwc.words := by
    rw [h.step_pwc 1, ← hwd1]
    exact writeWord_none _ (by simp [pwcOp, hst1])
  -- time 3: the tags of ways 0 and 1 are
  obtain ⟨hw3, ha3⟩ := hw2.step (h.rst 2) hr2.2.2.2.2
  rw [← h.step] at hw3 ha3
  have hq2 : ((s 2).r.done || (s 2).r.err) = false := hw2.quiet
  have hst3 : (s 3).pr.state = .inval2M1 := by
    rw [h.step_pr 2, prin_state hq2]
    simp [pwcState, hst2]
  have hr3 : (s 3).pr.hash2M = (s 2).pr.hash2M ∧
      (s 3).pr.pid = (s 2).pr.pid ∧ (s 3).pr.addr = (s 2).pr.addr ∧
      (s 3).pr.tlbieDone = false := by
    simp [h.step_pr 2, prin, hst2, hr2.2.2.2.2]
  have hm3 : ∀ way : BitVec 2, (s 3).pr.mayHit2M.getLsbD way.toNat =
      isLeaf2M (entryAt (s 0).pwc.words (addrHash2M (i 0).l.addr (tlbiePid (i 0).l)) way)
        (tlbiePid (i 0).l) := by
    intro way
    have hdef : (s 3).pr.mayHit2M = pwcMayHit2M (s 2) := by rw [h.step_pr 2]; rfl
    rw [hdef, pwcMayHit2M, hst2]
    simp only [getLsbD_ofBits4]
    rw [isLeaf2M_eq, hd2.1, hd1, hr2.2.2.1, hr1.2.2.1]
    rfl
  have hd3 : (s 3).pwc.rdreg = (s 2).pwc.rddata ∧
      (s 3).pwc.rddata = (s 0).pwc.words ((s 2).pr.rdHash ++ 2#3) := by
    rw [h.step_pwc 2, pwcNext, ← hwd2]
    simp [pwcOp, pwcRdren, pwcRdHash, pwcIdx, hst2]
  have hwd3 : (s 3).pwc.words = (s 0).pwc.words := by
    rw [h.step_pwc 2, ← hwd2]
    exact writeWord_none _ (by simp [pwcOp, hst2])
  -- time 4: the tags of ways 2 and 3 are
  obtain ⟨hw4, ha4⟩ := hw3.step (h.rst 3) hr3.2.2.2
  rw [← h.step] at hw4 ha4
  have hq3 : ((s 3).r.done || (s 3).r.err) = false := hw3.quiet
  refine ⟨fun k hk hk4 => ?_, hw4, ?_, ?_, ?_, ?_, fun way => ?_, ?_, ?_⟩
  · rcases (by omega : k = 1 ∨ k = 2 ∨ k = 3 ∨ k = 4) with rfl | rfl | rfl | rfl
    · exact hw1
    · exact hw2
    · exact hw3
    · exact hw4
  · rw [ha4, ha3, ha2, ha1]
  · rw [h.step_pr 3, prin_state hq3]
    simp [pwcState, hst3]
  · rw [← hr1.2.1, ← hr2.2.1, ← hr3.1]
    simp [h.step_pr 3, prin, hst3]
  · rw [h.step_pwc 3, ← hwd3]
    exact writeWord_none _ (by simp [pwcOp, hst3])
  · have hdef : (s 4).pr.mayHit2M =
        refine2M (s 3).pr.mayHit2M (s 3).pwc.rdreg 0 ((s 3).pr.addr.extractLsb' 6 25) := by
      rw [h.step_pr 3]
      simp [prin, pwcMayHit2M, hst3]
    rw [hdef, refine2M_exact, hm3, hd3.1, hd2.2, hr3.2.2.1, hr2.2.2.2.1, hr1.2.2.2.1, hr1.1]
    by_cases hlow : way.toNat < 2
    · simp only [Nat.not_lt_zero, Nat.zero_add, show ¬2 ≤ way.toNat by omega, or_self,
        decide_false, Bool.false_or, pwcTag, if_true, entryAt, (tagIdx_low hlow).1,
        (tagIdx_low hlow).2, Nat.sub_zero]
    · simp [show 2 ≤ way.toNat by omega]
  · rw [h.step_pwc 3, ← hr1.1, ← hr2.1, ← hd3.2]
    simp [pwcNext, pwcOp, pwcRdren, hst3]
  · simp [h.step_pr 3, prin, hst3, hr3.2.2.2]

end

theorem extract_addr (ea : BitVec 64) :
    (ea.extractLsb' 21 31).extractLsb' 6 25 = ea.extractLsb' 27 25 := by
  refine BitVec.eq_of_getLsbD_eq fun k hk => ?_
  simp [hk, show 6 + k < 31 by omega, show 21 + (6 + k) = 27 + k by omega]

theorem pwcTag_page (e : Entry) (ea : BitVec 64) :
    pwcTag e 0 (ea.extractLsb' 21 31) = (e.tag.extractLsb' 7 25 == ea.extractLsb' 27 25) := by
  rw [pwcTag, if_pos rfl, extract_addr]

section

variable {s : State} {words words' : Words} {pid : BitVec 12} {ea : BitVec 64}

/-- The last comparison. -/
theorem Page2M.mayHit (h : Page2M s words pid ea) (way : BitVec 2) :
    (pwcMayHit2M s).getLsbD way.toNat = hits2M words pid ea (addrHash2M ea pid) way := by
  have hdef : pwcMayHit2M s = refine2M s.pr.mayHit2M s.pwc.rdreg 2 (s.r.addr.extractLsb' 6 25) := by
    simp [pwcMayHit2M, h.state]
  rw [hdef, refine2M_exact, h.may, h.reg, h.addr, hits2M, beq_self_eq_true, Bool.true_and,
    pwcTag_page]
  by_cases hlow : way.toNat < 2
  · simp [hlow, show ¬2 ≤ way.toNat by omega]
  · have hge : 2 ≤ way.toNat := by omega
    have hlt := way.isLt
    have hlane : Lanes.lane 32 (words (addrHash2M ea pid ++ 2#3)) (way.toNat - 2) =
        (entryAt words (addrHash2M ea pid) way).tag := by
      simp only [entryAt, (tagIdx_high hge).1, (tagIdx_high hge).2]
    rw [hlane]
    simp [hlow, show ¬2 + 2 ≤ way.toNat by omega, hge]

/-- What is cleared is the page, exactly where the two comparisons of ways 2 and 3 agree. -/
theorem hits2M_eq_iff :
    (∀ set way, hits2M words pid ea set way = isPage2M words pid (ea.extractLsb' 21 31) set way) ↔
      SlicesAgree words pid ea := by
  simp only [hits2M, isPage2M, pwcTag_page, ← addrHash2M_eq]
  constructor
  · intro h
    by_cases heq : ea.extractLsb' 6 25 = ea.extractLsb' 27 25
    · exact .inl heq
    · refine .inr fun way hge hleaf => ?_
      have hway := h (addrHash2M ea pid) way
      simp only [hleaf, beq_self_eq_true, Bool.true_and, if_neg (Nat.not_lt.mpr hge)] at hway
      -- a tag that is one of the two would have to be the other one too
      constructor
      · intro h6
        rw [h6, beq_self_eq_true, eq_comm, beq_iff_eq] at hway
        exact heq hway
      · intro h27
        rw [h27, beq_self_eq_true, beq_iff_eq] at hway
        exact heq hway.symm
  · rintro h set way
    by_cases hset : set = addrHash2M ea pid
    · subst hset
      cases hleaf : isLeaf2M (entryAt words (addrHash2M ea pid) way) pid with
      | false => simp
      | true =>
        by_cases hlow : way.toNat < 2
        · rw [if_pos hlow]
        · rw [if_neg hlow]
          rcases h with heq | hno
          · rw [heq]
          · obtain ⟨h6, h27⟩ := hno way (Nat.not_lt.mp hlow) hleaf
            rw [beq_eq_false_iff_ne.mpr h6, beq_eq_false_iff_ne.mpr h27]
    · rw [beq_eq_false_iff_ne.mpr hset]
      rfl

/-- Clearing shows at a valid entry. -/
theorem HeadsCleared.iff_eq {p q : BitVec 6 → BitVec 2 → Bool} (h : HeadsCleared words words' p)
    (hp : ∀ set way, p set way = true → (entryAt words set way).valid = true)
    (hq : ∀ set way, q set way = true → (entryAt words set way).valid = true) :
    HeadsCleared words words' q ↔ ∀ set way, p set way = q set way := by
  refine ⟨fun h' set way => ?_, fun heq set way => heq set way ▸ h set way⟩
  have hboth := (h set way).symm.trans (h' set way)
  have hne : (entryAt words set way).valid = true →
      (entryAt words set way).clear ≠ entryAt words set way := by
    intro hvalid hclear
    have hinvalid := Entry.valid_clear (entryAt words set way)
    rw [hclear, hvalid] at hinvalid
    exact Bool.noConfusion hinvalid
  by_contra hdiff
  cases hps : p set way with
  | true =>
    have hqs : q set way = false := by simpa [hps] using hdiff
    rw [hps, hqs, if_pos rfl, if_neg Bool.false_ne_true] at hboth
    exact hne (hp set way hps) hboth
  | false =>
    have hqs : q set way = true := by simpa [hps] using hdiff
    rw [hps, hqs, if_pos rfl, if_neg Bool.false_ne_true] at hboth
    exact hne (hq set way hqs) hboth.symm

end

theorem isLeaf2M_valid {e : Entry} {pid : BitVec 12} (h : isLeaf2M e pid = true) :
    e.valid = true := by
  simp only [isLeaf2M, pwcHead, Bool.and_eq_true] at h
  exact h.2.1.1

/-- **tlbie of one 2M page.** The walk is done with it, and exactly the 2M leaves of the page have
been cleared in the page walk cache if and only if the wrong comparison does no harm. -/
theorem tlbie_page2M {s : ℕ → State} {i : ℕ → Inputs} (h : TlbieRun s i) (his : isf (i 0).l = 0)
    (hap : (i 0).l.addr.extractLsb' 5 3 = 1) (hric : (i 0).l.ric = 0) :
    ∃ T, (s T).r.done = true ∧ (s T).r.err = false ∧ (∀ k, k < T → walkEnds (s k) = false) ∧
      (HeadsCleared (s 0).pwc.words (s T).pwc.words
          (isPage2M (s 0).pwc.words (tlbiePid (i 0).l) ((i 0).l.addr.extractLsb' 21 31)) ↔
        SlicesAgree (s 0).pwc.words (tlbiePid (i 0).l) (i 0).l.addr) := by
  have hno : tlbieNoTlb (i 0).l = false := by simp [tlbieNoTlb, h.slbia, hric]
  -- the TLB searches for a 4k page
  obtain ⟨u, hu, hle, hst, hdone, -⟩ := h.tlbRun.invalidate (t := 0)
    ⟨h.tlb, h.valid, h.tlbie, hno, his, rfl, rfl⟩
  obtain ⟨hwait, hp⟩ := h.page2M his hap
  have hq : ((s 4).r.done || (s 4).r.err) = false := hp.waiting.quiet
  have hwait5 : Waiting (s 5) := by
    rw [h.step 4]
    exact (hp.waiting.step (h.rst 4) hp.busy).1
  have hst5 : (s 5).pr.state = .idle := by
    rw [h.step_pr 4, prin_state hq]
    simp [pwcState, hp.state]
  have hdone5 : (s 5).pr.tlbieDone = true := by simp [h.step_pr 4, prin, hp.state]
  obtain ⟨hd, he, hend, -, hwp⟩ := h.finish hu hle (n := 5) (fun k hk hk5 => by
    rcases Nat.eq_or_lt_of_le hk5 with rfl | hlt
    · exact hwait5
    · exact hwait k hk (by omega)) hst hdone hst5 hdone5
  have hcleared : HeadsCleared (s 0).pwc.words (s 6).pwc.words
      (hits2M (s 0).pwc.words (tlbiePid (i 0).l) (i 0).l.addr) := by
    intro set way
    have hop : (pwcOp (s 4) (i 4).l).wraddr =
        addrHash2M (i 0).l.addr (tlbiePid (i 0).l) ++ 0#3 := by
      rw [← hp.hash]
      simp [pwcOp, pwcIdx, pwcWrHash, hp.state]
    have hdat : (pwcOp (s 4) (i 4).l).wrdata = 0 := by simp [pwcOp, hp.state]
    have hen : (pwcOp (s 4) (i 4).l).wren = pwcMayHit2M (s 4) := by simp [pwcOp, hp.state]
    rw [hwp, h.step_pwc 4, pwcNext, entryAt_writeHead _ _ _ hop, hdat, field_zero, hen,
      hp.mayHit, hp.words_eq]
    by_cases hset : set = addrHash2M (i 0).l.addr (tlbiePid (i 0).l)
    · subst hset
      simp only [true_and]
      rfl
    · simp [hits2M, hset]
  refine ⟨6, hd, he, fun k hk => hend k (by omega), ?_⟩
  rw [← hits2M_eq_iff]
  refine hcleared.iff_eq (fun set way hhit => ?_) fun set way hpage => ?_
  · simp only [hits2M, Bool.and_eq_true] at hhit
    exact isLeaf2M_valid hhit.1.2
  · simp only [isPage2M, Bool.and_eq_true] at hpage
    exact isLeaf2M_valid hpage.1.2

/-! ### Runs -/

/-- A tlbie of the 2M page at 0x8000000 of PID 1. -/
def tlbieOfPage : Loadstore1ToMmu :=
  { valid := true, tlbie := true, addr := 0x8000020, rs := 0x100000000 }

/-- The MMU with one entry in the page walk cache, the leaf of that page. It is in the set 9 of its
hash, in the way 2 if `high` and in the way 0 otherwise. -/
def onePage (high : Bool) : State :=
  { emptyCaches with
    pwc := { emptyCaches.pwc with
      words := fun w =>
        if high then if w = 72 then 0xC00100000000 else if w = 74 then 0x80 else 0
        else if w = 72 then 0xC001 else if w = 73 then 0x80 else 0 } }

/-- In way 0 the entry is found. -/
theorem tlbie_page2M_way0 :
    ∃ T, (trace step (onePage false) (oneTlbie tlbieOfPage) T).r.done = true ∧
      (entryAt (trace step (onePage false) (oneTlbie tlbieOfPage) T).pwc.words 9 0).valid =
        false := by
  obtain ⟨T, hd, -, -, hiff⟩ :=
    tlbie_page2M (tlbieRun_trace (s := onePage false) (l := tlbieOfPage) rfl rfl rfl rfl rfl rfl
      rfl rfl) (by decide) (by decide) rfl
  have hcl := hiff.mpr (by decide +kernel)
  exact ⟨T, hd, hcl.invalid (by decide +kernel)⟩

/-- In way 2 it is there still when the walk is done: its tag has been compared with the bits 30 to
6 of the address, which are not its bits 51 to 27. -/
theorem tlbie_page2M_survives :
    TlbieRun (trace step (onePage true) (oneTlbie tlbieOfPage)) (oneTlbie tlbieOfPage) ∧
      isf tlbieOfPage = 0 ∧ tlbieOfPage.addr.extractLsb' 5 3 = 1 ∧ tlbieOfPage.ric = 0 ∧
      isPage2M (onePage true).pwc.words (tlbiePid tlbieOfPage)
        (tlbieOfPage.addr.extractLsb' 21 31) 9 2 = true ∧
      (trace step (onePage true) (oneTlbie tlbieOfPage) 6).r.done = true ∧
      entryAt (trace step (onePage true) (oneTlbie tlbieOfPage) 6).pwc.words 9 2 =
        entryAt (onePage true).pwc.words 9 2 :=
  ⟨tlbieRun_trace rfl rfl rfl rfl rfl rfl rfl rfl, by decide, by decide, rfl, by decide +kernel,
    by decide +kernel, by decide +kernel⟩

end Mmu

end Microwatt
