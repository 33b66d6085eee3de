import Microwatt.Mmu.Units

/-!
# The walk follows the reference

In every state of the walk its registers tell how far the reference recursion has come for the
request (`WalkOk`), whether it started from the root, from a directory entry in the page walk
cache or ended at once with a cached leaf. With the invariants of the caches this makes an
invariant of the whole unit (`Inv`), which every clock edge keeps as long as no write to the page
walk cache is cut.

## Main definitions

* `Mmu.WalkOk` — what the registers of the walk mean in each state
* `Mmu.Inv` — the invariant of the MMU

## Main results

* `Mmu.Inv.step`
-/

namespace Microwatt

open Bool (and_eq_true false_eq_true or_eq_true)

namespace Mmu

/-! ### The request in progress -/

/-- The kind of access of the request. -/
def Walk.access (r : Walk) : Access :=
  if r.iside then .fetch else if r.store then .store else .load

/-- The request that the walk works on. -/
def Walk.request (r : Walk) : Request := ⟨r.addr, r.access, r.priv⟩

/-- The root of the tree that the request uses. -/
def Walk.root (mem : Memory) (ptcr : BitVec 64) (r : Walk) : BitVec 64 :=
  processRoot mem ptcr (effpid r.addr r.pid)

/-- The outcome that the request must have. -/
def Walk.want (mem : Memory) (ptcr : BitVec 64) (r : Walk) : Except Fault (BitVec 64) :=
  translate mem ptcr r.pid r.request

/-- Address bits 63 and 62 are equal. -/
def Walk.quad (r : Walk) : Bool := r.addr.getLsbD 63 == r.addr.getLsbD 62

section

variable {mem : Memory} {ptcr : BitVec 64} {r : Walk}

theorem Walk.want_eq : r.want mem ptcr =
    match lookupRoot mem (r.root mem ptcr) r.quad (pageOf r.addr) with
    | .ok (leaf, shift) => useLeaf r.request leaf shift
    | .error f => .error f := by
  rw [Walk.root, effpid_eq]
  rfl

theorem Walk.want_error {f : Fault}
    (h : lookupRoot mem (r.root mem ptcr) r.quad (pageOf r.addr) = .error f) :
    r.want mem ptcr = .error f := by rw [Walk.want_eq, h]

variable {leaf ea : BitVec 64}

theorem Walk.want_leaf {k : ℕ} (hq : r.quad = true)
    (h : AtLeaf mem (r.root mem ptcr) (pageOf r.addr) leaf k) :
    r.want mem ptcr = useLeaf r.request leaf k := by
  rw [Walk.want_eq, hq, h _ (Agree.refl _ _)]

theorem useLeaf_ok {q : Request} (k : ℕ) (h : checkLeaf q.access q.priv leaf = .ok ()) :
    useLeaf q leaf k = .ok (leafPte leaf k (pageOf q.addr)) := by
  unfold useLeaf
  rw [h]

theorem useLeaf_error {q : Request} {f : Fault} (k : ℕ)
    (h : checkLeaf q.access q.priv leaf = .error f) : useLeaf q leaf k = .error f := by
  unfold useLeaf
  rw [h]

theorem Walk.access_fetch : (r.access == .fetch) = r.iside := by
  unfold Walk.access
  cases r.iside <;> cases r.store <;> rfl

theorem Walk.access_store (h : r.iside = true → r.store = false) :
    (r.access == .store) = r.store := by
  unfold Walk.access
  cases hi : r.iside
  · cases r.store <;> rfl
  · rw [h hi]; rfl

/-- The check of the reference, on the request's registers. -/
theorem checkLeaf_eq (hk : r.iside = true → r.store = false) (leaf : BitVec 64) :
    checkLeaf r.access r.priv leaf =
      if !checkPermC leaf r.priv r.iside r.store true then .error .permError
      else if leaf.getLsbD 8 && (leaf.getLsbD 7 || !r.store) then .ok ()
      else .error .rcError := by
  rw [checkLeaf, ← checkPermC_eq, Walk.access_fetch, Walk.access_store hk, bne,
    Walk.access_store hk]

/-- A cached leaf has R set, so that its check agrees with that of the reference. -/
theorem checkLeaf_cached {m : State} (hk : m.r.iside = true → m.r.store = false)
    (hr : leaf.getLsbD 8 = true) :
    (cachedPermOk m leaf = true → checkLeaf m.r.access m.r.priv leaf = .ok ()) ∧
      (cachedPermOk m leaf = false → ∃ f, checkLeaf m.r.access m.r.priv leaf = .error f) := by
  rw [checkLeaf_eq hk, hr]
  unfold cachedPermOk checkPermC
  generalize leaf.getLsbD 7 = c
  generalize leaf.getLsbD 3 = b3
  generalize leaf.getLsbD 2 = b2
  generalize leaf.getLsbD 1 = b1
  generalize leaf.getLsbD 5 = b5
  generalize leaf.getLsbD 0 = b0
  cases hi : m.r.iside
  · cases m.r.store <;> cases m.r.priv <;> cases c <;> cases b3 <;> cases b2 <;> cases b1 <;> simp
  · rw [hk hi]
    cases m.r.priv <;> cases c <;> cases b3 <;> cases b5 <;> cases b0 <;> simp

/-- What a decision on a table entry says about it. -/
theorem readAction_spec (hk : r.iside = true → r.store = false) (d : BitVec 64) :
    match readAction r d with
    | .leaf => d.getLsbD 63 = true ∧ d.getLsbD 62 = true ∧ d.getLsbD 8 = true ∧
        checkLeaf r.access r.priv d = .ok ()
    | .leafPermErr => d.getLsbD 63 = true ∧ d.getLsbD 62 = true ∧
        checkLeaf r.access r.priv d = .error .permError
    | .leafRcErr => d.getLsbD 63 = true ∧ d.getLsbD 62 = true ∧
        checkLeaf r.access r.priv d = .error .rcError
    | .badPde => d.getLsbD 63 = true ∧ d.getLsbD 62 = false ∧
        badMbits (mbitsOf d) r.shift = true
    | .descend => d.getLsbD 63 = true ∧ d.getLsbD 62 = false ∧
        badMbits (mbitsOf d) r.shift = false
    | .notPresent => d.getLsbD 63 = false := by
  rw [checkLeaf_eq hk]
  unfold readAction
  generalize checkPermC d r.priv r.iside r.store true = p
  generalize badMbits (mbitsOf d) r.shift = b
  cases h63 : d.getLsbD 63 <;> cases h62 : d.getLsbD 62 <;> cases p <;> cases b <;>
    cases d.getLsbD 8 <;> cases d.getLsbD 7 <;> cases r.store <;> simp

/-! ### Addresses that the caches cover -/

theorem badEa_eq_false (h : badEa ea = false) :
    (∀ k, 52 ≤ k → k < 62 → ea.getLsbD k = false) ∧ (ea.getLsbD 63 == ea.getLsbD 62) = true := by
  simp only [badEa, Bool.or_eq_false_iff, bne_eq_false_iff_eq] at h
  refine ⟨fun k h52 h62 => ?_, by rw [h.2]; simp⟩
  have hbit := congrArg (fun x => x.getLsbD (k - 52)) h.1
  simpa [show k - 52 < 10 by omega, show 52 + (k - 52) = k by omega] using hbit

theorem pageOf_small (h : badEa ea = false) : smallPage (ea.extractLsb' 12 40) = pageOf ea := by
  refine BitVec.eq_of_getLsbD_eq fun k hk => ?_
  unfold smallPage pageOf
  rw [BitVec.getLsbD_append]
  by_cases h40 : k < 40
  · simp [h40, hk]
  · have hz := (badEa_eq_false h).1 (12 + k) (by omega) (by omega)
    simp [h40, hk, hz]

theorem agree_largePage_pageOf (h : badEa ea = false) {k : ℕ} (hk : 9 ≤ k) :
    Agree k (pageOf ea) (largePage (ea.extractLsb' 21 31)) := by
  intro j hj
  rw [getLsbD_largePage _ (by omega)]
  unfold pageOf
  by_cases h40 : j < 40
  · simp [show j < 50 by omega, show j - 9 < 31 by omega,
      show 21 + (j - 9) = 12 + j by omega]
  · by_cases h50 : j < 50
    · have hz := (badEa_eq_false h).1 (12 + j) (by omega) (by omega)
      simp [h50, show ¬j - 9 < 31 by omega, hz]
    · simp [h50, show ¬j - 9 < 31 by omega]

/-! ### Small numbers -/

theorem badMbits_iff (mbits shift : BitVec 6) :
    badMbits mbits shift = true ↔
      mbits.toNat < 5 ∨ 16 < mbits.toNat ∨ shift.toNat < mbits.toNat := by
  simp [badMbits, BitVec.lt_def, or_assoc]

theorem mbitsOf_toNat (d : BitVec 64) : (mbitsOf d).toNat = (d.extractLsb' 0 5).toNat :=
  toNat_zero_append 1 _

theorem rtsOf_lt (d : BitVec 64) : (rtsOf d).toNat < 32 := by
  have h := rtsOf_eq d
  rw [treeBits] at h
  omega

end

/-! ### The invariant -/

/-- A doubleword of a table is to be read: `pgbase`, `mask_size` and `shift` say which. -/
structure Walking (mem : Memory) (ptcr : BitVec 64) (r : Walk) : Prop where
  quad : r.quad = true
  five_le : 5 ≤ r.maskSize.toNat
  le_sixteen : r.maskSize.toNat ≤ 16
  shift_le : r.shift.toNat ≤ 45
  table : AtTable mem (r.root mem ptcr) (pageOf r.addr) r.pgbase r.maskSize.toNat
    (r.shift.toNat + r.maskSize.toNat)

/-- The walk enters the table that `d` points to, with `sh` bits of the address to go. -/
theorem Walking.enter {r : Walk} {d : BitVec 64} {sh : BitVec 6} (hquad : r.quad = true)
    (hgood : badMbits (mbitsOf d) sh = false) (hle : sh.toNat ≤ 50)
    (hmask : r.maskSize = d.extractLsb' 0 5) (hbase : r.pgbase = baseOf d)
    (hshift : r.shift = sh - mbitsOf d)
    (htab : AtTable mem (r.root mem ptcr) (pageOf r.addr) (baseOf d) (mbitsOf d).toNat sh.toNat) :
    Walking mem ptcr r := by
  have hmb : ¬((mbitsOf d).toNat < 5 ∨ 16 < (mbitsOf d).toNat ∨ sh.toNat < (mbitsOf d).toNat) := by
    rw [← badMbits_iff, hgood]
    decide
  have hbits : r.maskSize.toNat = (mbitsOf d).toNat := by rw [mbitsOf_toNat, hmask]
  have hsub : r.shift.toNat = sh.toNat - (mbitsOf d).toNat := by
    rw [hshift, BitVec.toNat_sub_of_le (by rw [BitVec.le_def]; omega)]
  refine ⟨hquad, by omega, by omega, by omega, ?_⟩
  rw [hbits, hbase, show r.shift.toNat + (mbitsOf d).toNat = sh.toNat by omega]
  exact htab

/-- The leaf has been found and permits the access. -/
structure LeafFound (mem : Memory) (ptcr : BitVec 64) (r : Walk) : Prop where
  quad : r.quad = true
  leaf : AtLeaf mem (r.root mem ptcr) (pageOf r.addr) r.pde r.shift.toNat
  rbit : r.pde.getLsbD 8 = true
  ok : checkLeaf r.access r.priv r.pde = .ok ()

/-- What is reported to `loadstore1`, apart from the SPR value. -/
def Walk.result (r : Walk) : MmuToLoadstore1 where
  done := r.done
  err := r.err
  invalid := r.invalid
  badtree := r.badtree
  segerr := r.segerror
  permError := r.permErr
  rcError := r.rcError

/-- What the registers of the walk mean in each state. -/
def WalkOk (mem : Memory) (ptcr : BitVec 64) (s : Tracked) : Prop :=
  match s.mmu.r.state with
  | .partTblWait => s.asked = parttableAddr ptcr
  | .tlbWait => s.mmu.r.ptbValid = true
  | .procTblRead =>
    s.mmu.r.ptbValid = true ∧ s.mmu.r.shift = 0#1 ++ s.mmu.r.prtbl.extractLsb' 0 5
  | .procTblWait =>
    s.asked = processAddr (processTable mem ptcr) (effpid s.mmu.r.addr s.mmu.r.pid)
  | .segmentCheck => ptValid s.mmu = true ∧ s.mmu.r.shift = rtsOf (pgtbl s.mmu)
  | .radixLookup => Walking mem ptcr s.mmu.r
  | .radixReadWait =>
    Walking mem ptcr s.mmu.r ∧
      s.asked = entryAddr s.mmu.r.pgbase s.mmu.r.maskSize.toNat s.mmu.r.shift.toNat
        (pageOf s.mmu.r.addr)
  | .radixLoadTlb => LeafFound mem ptcr s.mmu.r
  | .radixFinish => s.translating = true → s.mmu.r.result = response (s.mmu.r.want mem ptcr)
  | _ => True

/-- A translation is in progress and has no outcome yet. -/
def Phase.active : Phase → Bool
  | .search | .walk | .load => true
  | _ => false

/-- The table pointers that the MMU keeps are those in memory. -/
structure Tables (mem : Memory) (ptcr : BitVec 64) (r : Walk) : Prop where
  prtbl : r.ptbValid = true → r.prtbl = processTable mem ptcr
  pgtbl0 : r.pt0Valid = true → r.pgtbl0 = processRoot mem ptcr r.pid
  pgtbl3 : r.pt3Valid = true → r.pgtbl3 = processRoot mem ptcr 0

structure Inv (mem : Memory) (ptcr : BitVec 64) (s : Tracked) : Prop where
  flags : Flags s.mmu
  ptcr_eq : s.mmu.r.ptcr = ptcr
  kind : s.mmu.r.state.phase.active = true → s.mmu.r.iside = true → s.mmu.r.store = false
  tables : Tables mem ptcr s.mmu.r
  tlb : TlbUnit mem ptcr s.mmu
  pwc : PwcUnit mem ptcr s.mmu
  sync : Sync s.mmu
  tlbOk : TlbOk mem ptcr s.mmu.tlb.words s.mmu.tr.writes
  pwcOk : PwcOk mem ptcr s.mmu.pwc.words s.mmu.pr.writes
  tlbOrder : TlbOrder mem ptcr s.mmu
  pwcOrder : PwcOrder mem ptcr s.mmu
  busy : s.mmu.r.state.phase.active = true → s.translating = true
  tlbie : s.mmu.r.state = .doTlbie → s.translating = false
  walk : WalkOk mem ptcr s
  reread : s.mmu.r.state.phase.active = true → s.mmu.r.rereadpte = true →
    ∃ f, s.mmu.r.want mem ptcr = .error f
  walkHit : s.mmu.r.state.phase = .walk → s.mmu.tr.hit = true → s.mmu.r.rereadpte = true

section

variable {mem : Memory} {ptcr : BitVec 64} {s : Tracked} {i : Inputs}

/-! ### The registers behind the reference -/

theorem want_keeps (ptcr : BitVec 64) (he : Env mem s i) (h : s.mmu.r.state ≠ .idle) :
    (s.step i).mmu.r.request = s.mmu.r.request ∧ (s.step i).mmu.r.quad = s.mmu.r.quad ∧
      (s.step i).mmu.r.root mem ptcr = s.mmu.r.root mem ptcr ∧
      (s.step i).mmu.r.want mem ptcr = s.mmu.r.want mem ptcr := by
  obtain ⟨ha, hp, hi, hs, hpr, -⟩ := request_keeps he h
  have hreq : (s.step i).mmu.r.request = s.mmu.r.request := by
    simp only [Walk.request, Walk.access, ha, hi, hs, hpr]
  refine ⟨hreq, ?_, ?_, ?_⟩
  · simp only [Walk.quad, ha]
  · simp only [Walk.root, ha, hp]
  · simp only [Walk.want, hreq, hp]

theorem data_eq (he : Env mem s i) (h : i.d.done = true) : data i = readTable mem s.asked := by
  rw [data, he.answer h, readTable]

theorem ptcr_step (he : Env mem s i) : (s.step i).mmu.r.ptcr = s.mmu.r.ptcr := by
  rw [step_r he]
  have hno : (movesSpr s.mmu i && i.l.sprnt) = false := by
    rw [he.movesSpr_eq]
    cases hm : i.l.mtspr
    · rfl
    · simp [he.ptcr hm]
  simp [rin, hno]

variable (h : Inv mem ptcr s) (he : Env mem s i)

include h he in
/-- Roots that are kept were read from the tables. -/
theorem Inv.tables_step : Tables mem ptcr (s.step i).mmu.r := by
  have hno : (movesSpr s.mmu i && i.l.sprnt) = false := by
    rw [he.movesSpr_eq]
    cases hm : i.l.mtspr
    · rfl
    · simp [he.ptcr hm]
  have hwalk := h.walk
  rw [step_r he]
  refine ⟨fun hv => ?_, fun hv => ?_, fun hv => ?_⟩
  · cases hd : dropsTables s.mmu i
    · by_cases hc : s.mmu.r.state = .partTblWait ∧ i.d.done = true
      · simp only [WalkOk, hc.1] at hwalk
        simp [rin, hc.1, hc.2, data_eq he hc.2, hwalk, processTable, parttableAddr_eq]
      · have hold : s.mmu.r.ptbValid = true := by
          simp only [rin, hno, hd, Bool.or_false, false_eq_true, if_false, or_eq_true,
            and_eq_true, beq_iff_eq] at hv
          exact hv.resolve_right hc
        simpa [rin, hc] using h.tables.prtbl hold
    · simp [rin, hd] at hv
  · cases hd : (movesSpr s.mmu i || dropsTables s.mmu i)
    · have hmv : movesSpr s.mmu i = false := (Bool.or_eq_false_iff.mp hd).1
      by_cases hc : s.mmu.r.state = .procTblWait ∧ i.d.done = true ∧
          s.mmu.r.addr.getLsbD 63 = false
      · simp only [WalkOk, hc.1] at hwalk
        have hpid : effpid s.mmu.r.addr s.mmu.r.pid = s.mmu.r.pid := by
          simp only [effpid, hc.2.2, false_eq_true, if_false]
        rw [hpid] at hwalk
        have hroot : data i = processRoot mem ptcr s.mmu.r.pid := by
          rw [data_eq he hc.2.1, hwalk, processRoot]
        simp only [rin, hmv, Bool.false_and, false_eq_true, if_false]
        rw [if_pos hc, hroot]
      · have hold : s.mmu.r.pt0Valid = true := by
          simp only [rin, hd, false_eq_true, if_false, or_eq_true, and_eq_true,
            beq_iff_eq, Bool.not_eq_true', and_assoc] at hv
          exact hv.resolve_right hc
        simp only [rin, hmv, Bool.false_and, false_eq_true, if_false]
        rw [if_neg hc]
        exact h.tables.pgtbl0 hold
    · simp [rin, hd] at hv
  · cases hd : dropsTables s.mmu i
    · by_cases hc : s.mmu.r.state = .procTblWait ∧ i.d.done = true ∧
          s.mmu.r.addr.getLsbD 63 = true
      · simp only [WalkOk, hc.1] at hwalk
        have hpid : effpid s.mmu.r.addr s.mmu.r.pid = 0 := by
          simp only [effpid, hc.2.2, if_true]
        rw [hpid] at hwalk
        have hroot : data i = processRoot mem ptcr 0 := by
          rw [data_eq he hc.2.1, hwalk, processRoot]
        simp only [rin]
        rw [if_pos hc, hroot]
      · have hold : s.mmu.r.pt3Valid = true := by
          simp only [rin, hno, hd, Bool.or_false, false_eq_true, if_false, or_eq_true,
            and_eq_true, beq_iff_eq, and_assoc] at hv
          exact hv.resolve_right hc
        simp only [rin]
        rw [if_neg hc]
        exact h.tables.pgtbl3 hold
    · simp [rin, hd] at hv

section

variable (h : Inv mem ptcr s)

include h

/-- The cached root is the one the request uses. -/
theorem Inv.pgtbl_eq (hv : ptValid s.mmu = true) : pgtbl s.mmu = s.mmu.r.root mem ptcr := by
  unfold ptValid at hv
  unfold pgtbl Walk.root effpid
  cases hq : s.mmu.r.addr.getLsbD 63 with
  | false =>
    simp only [hq, Bool.not_false, if_true] at hv
    exact h.tables.pgtbl0 hv
  | true =>
    simp only [hq, Bool.not_true, false_eq_true, if_false] at hv
    exact h.tables.pgtbl3 hv

/-! ### Hits -/

theorem Inv.tlb_hit (hst : s.mmu.r.state = .tlbWait) (hh : s.mmu.tr.hit = true) :
    s.mmu.r.quad = true ∧
      AtLeaf mem (s.mmu.r.root mem ptcr) (pageOf s.mmu.r.addr) s.mmu.tlb.rdreg 0 ∧
      s.mmu.tlb.rdreg.getLsbD 8 = true := by
  have hu := h.tlb
  simp only [TlbUnit, hst, WalkState.phase] at hu
  rcases hu with ⟨⟨haddr, hpid, hbad⟩, hb⟩ | ha
  · have hw := hb.waitw_of_done (by simp [hh])
    have hgood : badEa s.mmu.r.addr = false := hbad ▸ hb.good (by rw [hw]; decide)
    obtain ⟨hm, hreg⟩ := hb.tlbMatch hw hh
    have hfree : ¬s.mmu.tr.writes s.mmu.tr.hash4k s.mmu.tr.hitWay := by
      rintro ⟨hs | hs, -⟩ <;> rw [hw] at hs <;> cases hs
    obtain ⟨hleaf, hr⟩ := h.tlbOk.hit hfree hm
    rw [← hreg, haddr, hpid, pageOf_small hgood] at hleaf
    rw [← hreg] at hr
    exact ⟨(badEa_eq_false hgood).2, hleaf, hr⟩
  · rw [ha.hit] at hh; cases hh

/-- What a page walk cache hit says about the request. -/
theorem Inv.pwc_hit (hst : s.mmu.r.state = .tlbWait) (hh : s.mmu.pr.hit = true) :
    badEa s.mmu.r.addr = false ∧
      PwcFact mem ptcr s.mmu.pr.hitSize (effpid s.mmu.r.addr s.mmu.r.pid)
        (s.mmu.r.addr.extractLsb' 21 31) s.mmu.pwc.rdreg := by
  have hu := h.pwc
  simp only [PwcUnit, hst, WalkState.phase] at hu
  rcases hu with ⟨⟨haddr, hpid, hbad⟩, hb⟩ | ha
  · have hw := hb.waitw_of_done (by simp [hh])
    have hgood : badEa s.mmu.r.addr = false := hbad ▸ hb.good (by rw [hw]; decide)
    obtain ⟨hm, hreg⟩ := hb.pwcMatch hw hh
    have hfree : ¬s.mmu.pr.writes (s.mmu.pr.setFor s.mmu.pr.hitSize) s.mmu.pr.selWay := by
      rintro ⟨hs, -⟩; rw [hw] at hs; cases hs
    have hfact := h.pwcOk.hit hfree hm
    rw [← hreg, haddr, hpid] at hfact
    exact ⟨hgood, hfact⟩
  · rw [ha.hit] at hh; cases hh

/-- A 2M leaf in the page walk cache is in the tree. -/
theorem Inv.pwc_leaf (hst : s.mmu.r.state = .tlbWait) (hh : s.mmu.pr.hit = true)
    (hsize : s.mmu.pr.hitSize = 0) (hl : s.mmu.pwc.rdreg.getLsbD 62 = true) :
    s.mmu.r.quad = true ∧
      AtLeaf mem (s.mmu.r.root mem ptcr) (pageOf s.mmu.r.addr) s.mmu.pwc.rdreg 9 ∧
      s.mmu.pwc.rdreg.getLsbD 8 = true := by
  obtain ⟨hgood, hfact⟩ := h.pwc_hit hst hh
  obtain ⟨hleaf, hr⟩ := hfact.leaf hsize hl
  exact ⟨(badEa_eq_false hgood).2, hleaf.congr (agree_largePage_pageOf hgood (by omega)), hr⟩

/-! ### The walk, state by state -/

theorem Inv.tlbieReq_false (hst : s.mmu.r.state ≠ .doTlbie) : s.mmu.r.tlbieReq = false := by
  by_contra hne
  exact hst (h.flags.tlbie (by simpa using hne))

end

variable (he : Env mem s i) (hne : s.mmu.r.state ≠ .idle)

include he hne in
/-- Between requests the valid flags of the tables only grow. -/
theorem ptbValid_keeps (h : s.mmu.r.ptbValid = true) : (s.step i).mmu.r.ptbValid = true := by
  simp [step_r he, rin, movesSpr, dropsTables, accepts, hne, h]

/-- What a decision of the segment check says. -/
theorem segAction_spec (m : State) :
    match segAction m with
    | .noTree => mbitsOf (pgtbl m) = 0
    | .segErr => mbitsOf (pgtbl m) ≠ 0 ∧ (m.r.quad = false ∨ nonzero m = true)
    | .badRoot => mbitsOf (pgtbl m) ≠ 0 ∧ m.r.quad = true ∧ nonzero m = false ∧
        badMbits (mbitsOf (pgtbl m)) (m.r.shift + 19) = true
    | .walk => mbitsOf (pgtbl m) ≠ 0 ∧ m.r.quad = true ∧ nonzero m = false ∧
        badMbits (mbitsOf (pgtbl m)) (m.r.shift + 19) = false := by
  unfold segAction Walk.quad
  by_cases h0 : mbitsOf (pgtbl m) = 0#6
  · simp [h0]
  · cases m.r.addr.getLsbD 63 <;> cases m.r.addr.getLsbD 62 <;> cases nonzero m <;>
      cases badMbits (mbitsOf (pgtbl m)) (m.r.shift + 19) <;> simp [h0]

theorem result_segment {m : State} {a : SegAction} (hst : m.r.state = .segmentCheck)
    (ha : segAction m = a) (hne : a ≠ .walk) :
    (rin m i).result =
      { err := true, invalid := a == .noTree, badtree := a == .badRoot
        segerr := a == .segErr } := by
  unfold Walk.result rin anyError invalid badtree segerror permErr rcError reading segmenting
    walkState
  simp only [hst, ha]
  cases a
  case walk => exact absurd rfl hne
  all_goals rfl

theorem Walking.keep (h : Walking mem ptcr s.mmu.r) (he : Env mem s i)
    (hne : s.mmu.r.state ≠ .idle) (hmask : (s.step i).mmu.r.maskSize = s.mmu.r.maskSize)
    (hbase : (s.step i).mmu.r.pgbase = s.mmu.r.pgbase)
    (hshift : (s.step i).mmu.r.shift = s.mmu.r.shift) : Walking mem ptcr (s.step i).mmu.r := by
  obtain ⟨haddr, -⟩ := request_keeps he hne
  obtain ⟨-, hquad, hroot, -⟩ := want_keeps ptcr he hne
  refine ⟨hquad.trans h.quad, by rw [hmask]; exact h.five_le, by rw [hmask]; exact h.le_sixteen,
    by rw [hshift]; exact h.shift_le, ?_⟩
  rw [hmask, hbase, hshift, hroot, haddr]
  exact h.table

theorem result_read (he : Env mem s i) {a : ReadAction} (hst : s.mmu.r.state = .radixReadWait)
    (hd : i.d.done = true) (ha : readAction s.mmu.r (data i) = a) (hl : a ≠ .leaf)
    (hn : a ≠ .descend) :
    (rin s.mmu i).result =
      { err := true, invalid := a == .notPresent, badtree := a == .badPde,
        permError := a == .leafPermErr, rcError := a == .leafRcErr } := by
  unfold Walk.result rin anyError invalid badtree segerror permErr rcError reading segmenting
    walkState
  simp only [hst, ha, hd, he.noErr]
  cases a
  case leaf => exact absurd rfl hl
  case descend => exact absurd rfl hn
  all_goals rfl

section

variable (h : Inv mem ptcr s) (he : Env mem s i)

include h he

theorem walkOk_partTblRead (hst : s.mmu.r.state = .partTblRead) : WalkOk mem ptcr (s.step i) := by
  have hn : (s.step i).mmu.r.state = .partTblWait := by simp [step_state he, walkState, hst]
  simp only [WalkOk, hn]
  simp [Tracked.step, dcreq, outAddr, tlbLoad, hst, h.tlbieReq_false (by rw [hst]; decide),
    h.ptcr_eq]

theorem walkOk_partTblWait (hst : s.mmu.r.state = .partTblWait) : WalkOk mem ptcr (s.step i) := by
  have hwalk := h.walk
  simp only [WalkOk, hst] at hwalk
  cases hd : i.d.done with
  | false =>
    have hn : (s.step i).mmu.r.state = .partTblWait := by simp [step_state he, walkState, hst, hd]
    simp only [WalkOk, hn]
    simpa [Tracked.step, dcreq, hst] using hwalk
  | true =>
    have hn : (s.step i).mmu.r.state = .tlbWait := by simp [step_state he, walkState, hst, hd]
    simp only [WalkOk, hn]
    simp [step_r he, rin, movesSpr, dropsTables, accepts, hst, hd]

/-- The end of the search: a hit, a directory entry to go on from, or nothing. -/
theorem walkOk_tlbWait (hst : s.mmu.r.state = .tlbWait) : WalkOk mem ptcr (s.step i) := by
  have hwalk := h.walk
  simp only [WalkOk, hst] at hwalk
  have hne : s.mmu.r.state ≠ .idle := by rw [hst]; decide
  have hptb := ptbValid_keeps he hne hwalk
  obtain ⟨haddr, hpid, hiside, hstore, hpriv, -⟩ := request_keeps he hne
  obtain ⟨-, hquad, hroot, -⟩ := want_keeps ptcr he hne
  have hacc : (s.step i).mmu.r.access = s.mmu.r.access := by
    simp only [Walk.access, hiside, hstore]
  have hn := step_state he
  rw [walkState, hst] at hn
  -- a cached leaf that permits the access
  have hload : ∀ {leaf : BitVec 64} {k : BitVec 6}, s.mmu.r.quad = true →
      AtLeaf mem (s.mmu.r.root mem ptcr) (pageOf s.mmu.r.addr) leaf k.toNat →
      leaf.getLsbD 8 = true → cachedPermOk s.mmu leaf = true →
      (s.step i).mmu.r.pde = leaf → (s.step i).mmu.r.shift = k →
      LeafFound mem ptcr (s.step i).mmu.r := by
    intro leaf k hq hleaf hr hperm hpde hshift
    refine ⟨hquad.trans hq, ?_, by rw [hpde]; exact hr, ?_⟩
    · rw [hroot, haddr, hpde, hshift]; exact hleaf
    · rw [hacc, hpriv, hpde]; exact (checkLeaf_cached (h.kind (by rw [hst]; rfl)) hr).1 hperm
  rcases waitAction_cases s.mmu with ⟨ha, -⟩ | ⟨⟨ha, hperm⟩ | ⟨ha, -⟩, hh, -⟩ |
    ⟨⟨ha, hperm⟩ | ⟨ha, -⟩, hh, hsize, hl, -⟩ | ⟨ha, hh, hl, -, -⟩ |
    ⟨⟨ha, hv⟩ | ⟨ha, hv⟩, -, -, -⟩ <;> simp only [ha] at hn
  · simpa only [WalkOk, hn] using hptb
  · obtain ⟨hq, hleaf, hr⟩ := h.tlb_hit hst hh
    simp only [WalkOk, hn]
    exact hload (k := 0) hq hleaf hr hperm (by simp [step_r he, rin, walkPde, hst, ha])
      (by simp [step_r he, rin, walkShift, hst, ha])
  · simpa only [WalkOk, hn] using hptb
  · obtain ⟨hq, hleaf, hr⟩ := h.pwc_leaf hst hh hsize hl
    simp only [WalkOk, hn]
    exact hload (k := 9) hq hleaf hr hperm (by simp [step_r he, rin, walkPde, hst, ha])
      (by simp [step_r he, rin, walkShift, hst, ha])
  · simpa only [WalkOk, hn] using hptb
  · -- a directory entry: the walk goes on from its table
    obtain ⟨hgood, hfact⟩ := h.pwc_hit hst hh
    have hshift : (s.step i).mmu.r.shift =
        0#1 ++ s.mmu.pr.hitSize ++ 0#1 ++ s.mmu.pr.hitSize := by
      simp [step_r he, rin, walkShift, hst, ha]
    have hmask : (s.step i).mmu.r.maskSize = 9 := by
      simp [step_r he, rin, walkMaskSize, waiting, hst, ha]
    have hbase : (s.step i).mmu.r.pgbase = baseOf s.mmu.pwc.rdreg := by
      simp [step_r he, rin, walkPgbase, waiting, hst, ha]
    have hnine : ((s.step i).mmu.r.shift).toNat = 9 * s.mmu.pr.hitSize.toNat := by
      rw [hshift]
      generalize s.mmu.pr.hitSize = z
      revert z; decide
    simp only [WalkOk, hn]
    refine ⟨hquad.trans (badEa_eq_false hgood).2, by rw [hmask]; decide, by rw [hmask]; decide,
      by omega, ?_⟩
    rw [hroot, haddr, hbase, hmask, hnine]
    exact (hfact.table hl).congr (agree_largePage_pageOf hgood (by unfold levelShift; omega))
  · have hprtbl : (s.step i).mmu.r.prtbl = s.mmu.r.prtbl := by simp [step_r he, rin, hst]
    simp only [WalkOk, hn]
    refine ⟨hptb, ?_⟩
    simp [step_r he, rin, walkShift, hst, ha]
  · have hpt : ptValid (s.step i).mmu = true := by
      unfold ptValid at hv ⊢
      simpa [step_r he, rin, movesSpr, dropsTables, accepts, hst] using hv
    have hpg : pgtbl (s.step i).mmu = pgtbl s.mmu := by
      unfold pgtbl
      rw [haddr]
      simp [step_r he, rin, hst]
    simp only [WalkOk, hn]
    refine ⟨hpt, ?_⟩
    rw [hpg]
    simp [step_r he, rin, walkShift, hst, ha]

theorem walkOk_procTblRead (hst : s.mmu.r.state = .procTblRead) : WalkOk mem ptcr (s.step i) := by
  have hwalk := h.walk
  simp only [WalkOk, hst] at hwalk
  obtain ⟨haddr, hpid, -⟩ := request_keeps he (by rw [hst]; decide)
  have hn : (s.step i).mmu.r.state = .procTblWait := by simp [step_state he, walkState, hst]
  have hasked : (s.step i).asked =
      prtableAddr s.mmu.r.prtbl s.mmu.r.shift (effpid s.mmu.r.addr s.mmu.r.pid) := by
    simp [Tracked.step, dcreq, outAddr, tlbLoad, hst, h.tlbieReq_false (by rw [hst]; decide)]
  simp only [WalkOk, hn]
  rw [hasked, haddr, hpid, hwalk.2, prtableAddr_eq, h.tables.prtbl hwalk.1]

theorem walkOk_procTblWait (hst : s.mmu.r.state = .procTblWait) : WalkOk mem ptcr (s.step i) := by
  have hwalk := h.walk
  simp only [WalkOk, hst] at hwalk
  obtain ⟨haddr, hpid, -⟩ := request_keeps he (by rw [hst]; decide)
  cases hd : i.d.done with
  | false =>
    have hn : (s.step i).mmu.r.state = .procTblWait := by
      simp [step_state he, walkState, hst, hd, he.noErr]
    simp only [WalkOk, hn]
    rw [haddr, hpid]
    simpa [Tracked.step, dcreq, hst] using hwalk
  | true =>
    have hn : (s.step i).mmu.r.state = .segmentCheck := by
      simp [step_state he, walkState, hst, hd, he.noErr]
    simp only [WalkOk, hn]
    have hshift : (s.step i).mmu.r.shift = rtsOf (data i) := by
      simp [step_r he, rin, walkShift, hst, hd]
    unfold ptValid pgtbl
    rw [hshift, haddr, step_r he]
    cases hq : s.mmu.r.addr.getLsbD 63 <;>
      simp only [rin, movesSpr, dropsTables, accepts, hst, hd, hq] <;> simp

/-- The root is checked against the address. -/
theorem walkOk_segmentCheck (hst : s.mmu.r.state = .segmentCheck) : WalkOk mem ptcr (s.step i) := by
  have hwalk := h.walk
  simp only [WalkOk, hst] at hwalk
  obtain ⟨hv, hshift⟩ := hwalk
  have hne : s.mmu.r.state ≠ .idle := by rw [hst]; decide
  have hpg := h.pgtbl_eq hv
  obtain ⟨haddr, -⟩ := request_keeps he hne
  obtain ⟨-, hquad, hroot, hwant⟩ := want_keeps ptcr he hne
  have hrts := rtsOf_lt (pgtbl s.mmu)
  have h19 : (s.mmu.r.shift + 19).toNat = (rtsOf (pgtbl s.mmu)).toNat + 19 := by
    rw [hshift, BitVec.toNat_add]
    change ((rtsOf (pgtbl s.mmu)).toNat + 19) % 64 = _
    omega
  have hnz := nonzero_eq s.mmu
  rw [hshift] at hnz
  have hn := step_state he
  rw [walkState, hst] at hn
  have hspec := segAction_spec s.mmu
  -- every error of the segment check is the one the reference finds
  have hfin : ∀ {a : SegAction} {f : Fault}, segAction s.mmu = a → a ≠ .walk →
      lookupRoot mem (s.mmu.r.root mem ptcr) s.mmu.r.quad (pageOf s.mmu.r.addr) = .error f →
      (response (.error f) : MmuToLoadstore1) =
        { err := true, invalid := a == .noTree, badtree := a == .badRoot, segerr := a == .segErr } →
      WalkOk mem ptcr (s.step i) := by
    intro a f ha hne hw hres
    simp only [ha, hne, if_false] at hn
    simp only [WalkOk, hn]
    intro _
    rw [hwant, Walk.want_error hw, step_r he, result_segment hst ha hne, hres]
  cases ha : segAction s.mmu <;> simp only [ha] at hspec
  case noTree =>
    refine hfin (f := .invalid) ha (by decide) ?_ rfl
    rw [← hpg, lookupRoot, if_pos (mbitsOf_eq_zero_iff.mp hspec)]
  case segErr =>
    refine hfin (f := .segerror) ha (by decide) ?_ rfl
    rw [← hpg, lookupRoot, if_neg (mbitsOf_eq_zero_iff.not.mp hspec.1), if_pos]
    simpa [hnz, rtsOf_eq] using hspec.2
  case badRoot =>
    obtain ⟨h0, hq, hz, hbad⟩ := hspec
    refine hfin (f := .badtree) ha (by decide) ?_ rfl
    have hpage : pageOf s.mmu.r.addr >>> ((rtsOf (pgtbl s.mmu)).toNat + 19) = 0 := by
      simpa [hnz] using hz
    rw [hq, ← hpg]
    refine (atTable_root h0 hpage).badtree ?_
    rw [← h19]
    exact (badMbits_iff _ _).mp hbad
  case walk =>
    obtain ⟨h0, hq, hz, hgood⟩ := hspec
    simp only [ha, if_true] at hn
    have hpage : pageOf s.mmu.r.addr >>> ((rtsOf (pgtbl s.mmu)).toNat + 19) = 0 := by
      simpa [hnz] using hz
    simp only [WalkOk, hn]
    refine .enter (d := pgtbl s.mmu) (hquad.trans hq) hgood (by omega) ?_ ?_ ?_ ?_
    · simp [step_r he, rin, walkMaskSize, waiting, hst]
    · simp [step_r he, rin, walkPgbase, waiting, hst]
    · simp [step_r he, rin, walkShift, hst]
    · rw [h19, hroot, haddr, ← hpg]
      exact atTable_root h0 hpage

theorem walkOk_radixLookup (hst : s.mmu.r.state = .radixLookup) : WalkOk mem ptcr (s.step i) := by
  have hwalk := h.walk
  simp only [WalkOk, hst] at hwalk
  have hne : s.mmu.r.state ≠ .idle := by rw [hst]; decide
  have hn : (s.step i).mmu.r.state = .radixReadWait := (step_state he).trans (next_lookup hst)
  have hmask : (s.step i).mmu.r.maskSize = s.mmu.r.maskSize := by
    simp [step_r he, rin, walkMaskSize, waiting, reading, hst]
  have hbase : (s.step i).mmu.r.pgbase = s.mmu.r.pgbase := by
    simp [step_r he, rin, walkPgbase, waiting, reading, hst]
  have hshift : (s.step i).mmu.r.shift = s.mmu.r.shift := by
    simp [step_r he, rin, walkShift, hst]
  have hasked : (s.step i).asked =
      pgtableAddr s.mmu.r.pgbase s.mmu.r.maskSize s.mmu.r.shift s.mmu.r.addr := by
    simp [Tracked.step, dcreq, outAddr, tlbLoad, hst, h.tlbieReq_false (by rw [hst]; decide)]
  have hle := hwalk.shift_le
  simp only [WalkOk, hn]
  refine ⟨hwalk.keep he hne hmask hbase hshift, ?_⟩
  rw [hasked, hmask, hbase, hshift, (request_keeps he hne).1,
    pgtableAddr_eq _ _ _ _ hwalk.five_le hwalk.le_sixteen (by omega)]

/-- A table entry has arrived; one case for each kind. -/
theorem walkOk_radixReadWait (hst : s.mmu.r.state = .radixReadWait) :
    WalkOk mem ptcr (s.step i) := by
  have hwalk := h.walk
  simp only [WalkOk, hst] at hwalk
  obtain ⟨hw, hasked⟩ := hwalk
  have hne : s.mmu.r.state ≠ .idle := by rw [hst]; decide
  obtain ⟨haddr, hpid, hiside, hstore, hpriv, -⟩ := request_keeps he hne
  obtain ⟨-, hquad, hroot, hwant⟩ := want_keeps ptcr he hne
  have hacc : (s.step i).mmu.r.access = s.mmu.r.access := by
    simp only [Walk.access, hiside, hstore]
  have hn := step_state he
  simp only [walkState, hst, he.noErr, false_eq_true, if_false] at hn
  cases hd : i.d.done with
  | false =>
    simp only [hd, false_eq_true, if_false] at hn
    have hmask : (s.step i).mmu.r.maskSize = s.mmu.r.maskSize := by
      simp [step_r he, rin, walkMaskSize, waiting, reading, hst, hd]
    have hbase : (s.step i).mmu.r.pgbase = s.mmu.r.pgbase := by
      simp [step_r he, rin, walkPgbase, waiting, reading, hst, hd]
    have hshift : (s.step i).mmu.r.shift = s.mmu.r.shift := by
      simp [step_r he, rin, walkShift, hst, reading, hd]
    simp only [WalkOk, hn]
    refine ⟨hw.keep he hne hmask hbase hshift, ?_⟩
    rw [hmask, hbase, hshift, haddr]
    simpa [Tracked.step, dcreq, hst] using hasked
  | true =>
    simp only [hd, if_true] at hn
    have hent : data i = readTable mem (entryAddr s.mmu.r.pgbase s.mmu.r.maskSize.toNat
        s.mmu.r.shift.toNat (pageOf s.mmu.r.addr)) := by rw [data_eq he hd, hasked]
    have hspec := readAction_spec (h.kind (by rw [hst]; rfl)) (data i)
    -- an error is the one that the reference finds
    have hfin : ∀ {a : ReadAction} {f : Fault}, readAction s.mmu.r (data i) = a → a ≠ .leaf →
        a ≠ .descend → s.mmu.r.want mem ptcr = .error f →
        (response (.error f) : MmuToLoadstore1) =
          { err := true, invalid := a == .notPresent, badtree := a == .badPde,
            permError := a == .leafPermErr, rcError := a == .leafRcErr } →
        WalkOk mem ptcr (s.step i) := by
      intro a f ha hl hdsc hw hres
      have hfinish : (s.step i).mmu.r.state = .radixFinish := by
        rw [hn, ha]
        cases a
        case leaf => exact absurd rfl hl
        case descend => exact absurd rfl hdsc
        all_goals rfl
      simp only [WalkOk, hfinish]
      intro _
      rw [hwant, hw, step_r he, result_read he hst hd ha hl hdsc, hres]
    cases ha : readAction s.mmu.r (data i) <;> simp only [ha] at hspec hn
    case leaf =>
      have hleaf := hw.table.leaf hw.five_le hw.le_sixteen hent hspec.1 hspec.2.1
      have hpde : (s.step i).mmu.r.pde = data i := by simp [step_r he, rin, walkPde, hst, hd]
      have hshift : (s.step i).mmu.r.shift = s.mmu.r.shift := by
        simp [step_r he, rin, walkShift, hst, reading, ha]
      simp only [WalkOk, hn]
      refine ⟨hquad.trans hw.quad, ?_, by rw [hpde]; exact hspec.2.2.1, ?_⟩
      · rw [hroot, haddr, hpde, hshift]; exact hleaf
      · rw [hacc, hpriv, hpde]; exact hspec.2.2.2
    case leafPermErr | leafRcErr =>
      have hleaf := hw.table.leaf hw.five_le hw.le_sixteen hent hspec.1 hspec.2.1
      have hwant := (Walk.want_leaf hw.quad hleaf).trans (useLeaf_error _ hspec.2.2)
      exact hfin ha (by decide) (by decide) hwant rfl
    case badPde =>
      have htab := hw.table.descend hw.five_le hw.le_sixteen hent hspec.1 hspec.2.1
      refine hfin (f := .badtree) ha (by decide) (by decide) (Walk.want_error ?_) rfl
      rw [hw.quad]
      exact htab.badtree ((badMbits_iff _ _).mp hspec.2.2)
    case notPresent =>
      refine hfin (f := .invalid) ha (by decide) (by decide) (Walk.want_error ?_) rfl
      rw [hw.quad]
      exact hw.table.invalid hw.five_le hw.le_sixteen hent hspec
    case descend =>
      have htab := hw.table.descend hw.five_le hw.le_sixteen hent hspec.1 hspec.2.1
      have hle := hw.shift_le
      simp only [WalkOk, hn]
      refine .enter (d := data i) (hquad.trans hw.quad) hspec.2.2 (by omega) ?_ ?_ ?_ ?_
      · simp [step_r he, rin, walkMaskSize, waiting, reading, hst, hd, ha]
      · simp [step_r he, rin, walkPgbase, waiting, reading, hst, hd, ha]
      · simp [step_r he, rin, walkShift, hst, reading, hd, ha]
      · rw [hroot, haddr]
        exact htab

theorem walkOk_radixLoadTlb (hst : s.mmu.r.state = .radixLoadTlb) : WalkOk mem ptcr (s.step i) := by
  have hwalk := h.walk
  simp only [WalkOk, hst] at hwalk
  have hn : (s.step i).mmu.r.state = .radixFinish := (step_state he).trans (next_load hst)
  obtain ⟨-, -, -, hwant⟩ := want_keeps ptcr he (by rw [hst]; decide)
  have hres : (rin s.mmu i).result = { done := true } := by
    unfold Walk.result rin anyError invalid badtree segerror permErr rcError reading segmenting
      walkState
    simp only [hst]
    rfl
  simp only [WalkOk, hn]
  intro _
  rw [hwant, Walk.want_leaf hwalk.quad hwalk.leaf, useLeaf_ok _ hwalk.ok, step_r he, hres]
  rfl

theorem Inv.walk_step : WalkOk mem ptcr (s.step i) := by
  cases hst : s.mmu.r.state
  case idle =>
    have hn := step_state he
    rcases next_idle (i := i) hst with ⟨-, -, hs⟩ | ⟨-, hs⟩ | ⟨hv, ht, hm, ⟨hs, -⟩ | ⟨hs, hp⟩⟩ <;>
      rw [hs] at hn <;> simp only [WalkOk, hn]
    simp [step_r he, rin, movesSpr, dropsTables, hm, ht, hp]
  case doTlbie =>
    have hn := step_state he
    rcases next_tlbie (i := i) hst with hs | ⟨hs, -⟩ <;> rw [hs] at hn <;> simp only [WalkOk, hn]
    rw [(request_keeps he (by rw [hst]; decide)).2.2.2.2.2, h.tlbie hst]
    intro hc; cases hc
  case partTblRead => exact walkOk_partTblRead h he hst
  case partTblWait => exact walkOk_partTblWait h he hst
  case tlbWait => exact walkOk_tlbWait h he hst
  case procTblRead => exact walkOk_procTblRead h he hst
  case procTblWait => exact walkOk_procTblWait h he hst
  case segmentCheck => exact walkOk_segmentCheck h he hst
  case radixLookup => exact walkOk_radixLookup h he hst
  case radixReadWait => exact walkOk_radixReadWait h he hst
  case radixLoadTlb => exact walkOk_radixLoadTlb h he hst
  case radixFinish =>
    have hn : (s.step i).mmu.r.state = .idle := (step_state he).trans (next_finish hst)
    simp only [WalkOk, hn]

end

/-! ### The rest of the invariant -/

theorem active_ne_idle (h : s.mmu.r.state.phase.active = true) : s.mmu.r.state ≠ .idle :=
  fun h' => by rw [h'] at h; cases h

/-- A translation goes on, or it has just been asked for. -/
theorem active_before (he : Env mem s i) (h : (s.step i).mmu.r.state.phase.active = true) :
    s.mmu.r.state.phase.active = true ∨
      s.mmu.r.state = .idle ∧ i.l.valid = true ∧ i.l.tlbie = false ∧ i.l.mtspr = false := by
  rw [step_state he] at h
  rcases s.mmu.r.state.phase_cases with hs | hs | hs | hs | hs | hs
  · rcases next_idle (i := i) hs with ⟨-, -, hn⟩ | ⟨-, hn⟩ | ⟨hv, ht, hm, -⟩
    · rw [hn] at h; cases h
    · rw [hn] at h; cases h
    · exact .inr ⟨hs, hv, ht, hm⟩
  · rcases next_tlbie (i := i) hs with hn | ⟨hn, -⟩ <;> rw [hn] at h <;> cases h
  · exact .inl (by rw [hs]; rfl)
  · exact .inl (by rw [hs]; rfl)
  · exact .inl (by rw [hs]; rfl)
  · rw [next_finish hs] at h; cases h

section

include h he

theorem Inv.busy_step (ha : (s.step i).mmu.r.state.phase.active = true) :
    (s.step i).translating = true := by
  rcases active_before he ha with ha | ⟨-, hv, ht, hm⟩
  · rw [(request_keeps he (active_ne_idle ha)).2.2.2.2.2]
    exact h.busy ha
  · simp [Tracked.step, he.accepts_eq, he.movesSpr_eq, hv, ht, hm]

theorem Inv.tlbie_step (hn : (s.step i).mmu.r.state = .doTlbie) :
    (s.step i).translating = false := by
  rw [step_state he] at hn
  rcases s.mmu.r.state.phase_cases with hs | hs | hs | hs | hs | hs
  · rcases next_idle (i := i) hs with ⟨-, -, hn'⟩ | ⟨hreq, -⟩ | ⟨-, -, -, ⟨hn', -⟩ | ⟨hn', -⟩⟩
    · rw [hn'] at hn; cases hn
    · rcases hreq with hm | ⟨hv, ht⟩
      · simp [Tracked.step, he.accepts_eq, he.movesSpr_eq, hm]
      · simp [Tracked.step, he.accepts_eq, he.movesSpr_eq, hv, ht]
    · rw [hn'] at hn; cases hn
    · rw [hn'] at hn; cases hn
  · rw [(request_keeps he (by rw [hs]; decide)).2.2.2.2.2]
    exact h.tlbie hs
  · rcases next_search (i := i) hs with hn' | ⟨hn', -⟩ | ⟨hn', -⟩ <;> rw [hn] at hn' <;> cases hn'
  · rcases next_walk (i := i) hs with hn' | hn' | hn' <;> rw [hn] at hn' <;> cases hn'
  · rw [next_load hs] at hn; cases hn
  · rw [next_finish hs] at hn; cases hn

theorem Inv.kind_step (ha : (s.step i).mmu.r.state.phase.active = true) :
    (s.step i).mmu.r.iside = true → (s.step i).mmu.r.store = false := by
  rcases active_before he ha with ha | ⟨-, hv, -⟩
  · obtain ⟨-, -, hiside, hstore, -⟩ := request_keeps he (active_ne_idle ha)
    rw [hiside, hstore]
    exact h.kind ha
  · rw [step_r he]
    simp only [rin, he.accepts_eq, hv, if_true]
    intro hi
    simp [hi]

/-- A cached leaf is read again only if it does not permit the access. -/
theorem Inv.reread_step (ha : (s.step i).mmu.r.state.phase.active = true)
    (hr : (s.step i).mmu.r.rereadpte = true) : ∃ f, (s.step i).mmu.r.want mem ptcr = .error f := by
  rcases active_before he ha with ha | ⟨hidle, -⟩
  · have hne := active_ne_idle ha
    rw [(want_keeps ptcr he hne).2.2.2]
    simp only [step_r he, rin, hne, if_false, or_eq_true, waiting, and_eq_true,
      beq_iff_eq] at hr
    -- the leaf is the one the reference finds
    have hbad : ∀ {leaf : BitVec 64} {k : ℕ}, s.mmu.r.quad = true ∧
        AtLeaf mem (s.mmu.r.root mem ptcr) (pageOf s.mmu.r.addr) leaf k ∧
        leaf.getLsbD 8 = true → cachedPermOk s.mmu leaf = false →
        ∃ f, s.mmu.r.want mem ptcr = .error f := by
      rintro leaf k ⟨hq, hleaf, hrbit⟩ hperm
      obtain ⟨f, hf⟩ := (checkLeaf_cached (h.kind ha) hrbit).2 hperm
      exact ⟨f, by rw [Walk.want_leaf hq hleaf]; exact useLeaf_error _ hf⟩
    rcases hr with (hr | ⟨hst, hr⟩) | ⟨hst, hr⟩
    · exact h.reread ha hr
    · rcases waitAction_cases s.mmu with ⟨hw, -⟩ | ⟨⟨hw, -⟩ | ⟨-, hperm⟩, hh, -⟩ |
        ⟨⟨hw, -⟩ | ⟨hw, -⟩, -⟩ | ⟨hw, -⟩ | ⟨⟨hw, -⟩ | ⟨hw, -⟩, -⟩ <;>
        first
        | exact hbad (h.tlb_hit hst hh) hperm
        | (rw [hw] at hr; cases hr)
    · rcases waitAction_cases s.mmu with ⟨hw, -⟩ | ⟨⟨hw, -⟩ | ⟨hw, -⟩, -⟩ |
        ⟨⟨hw, -⟩ | ⟨-, hperm⟩, hh, hsize, hl, -⟩ | ⟨hw, -⟩ | ⟨⟨hw, -⟩ | ⟨hw, -⟩, -⟩ <;>
        first
        | exact hbad (h.pwc_leaf hst hh hsize hl) hperm
        | (rw [hw] at hr; cases hr)
  · simp [step_r he, rin, hidle] at hr

end

include he hne in
theorem tlbHit_step (h : s.mmu.tr.state = .waitw ∨ s.mmu.tr.state = .idle) :
    (s.step i).mmu.tr.hit = s.mmu.tr.hit := by
  rw [step_tr he]
  rcases h with h | h <;> simp [trin, h, (he.quiet hne).1]

include he hne in
theorem rereadpte_keeps (h : s.mmu.r.rereadpte = true) : (s.step i).mmu.r.rereadpte = true := by
  simp [step_r he, rin, hne, h]

section

include h he

/-- A walk that goes on after a TLB hit reads the entry again. -/
theorem Inv.walkHit_step (hph : (s.step i).mmu.r.state.phase = .walk)
    (hh : (s.step i).mmu.tr.hit = true) : (s.step i).mmu.r.rereadpte = true := by
  have htlb := h.tlb
  have ha : s.mmu.r.state.phase = .search ∧ tlbdone s.mmu = true ∧
      (s.mmu.tr.hit = true → s.mmu.r.rereadpte = true) ∨ s.mmu.r.state.phase = .walk := by
    rw [step_state he] at hph
    rcases s.mmu.r.state.phase_cases with hs | hs | hs | hs | hs | hs
    · rcases next_idle (i := i) hs with ⟨-, -, hn⟩ | ⟨-, hn⟩ | ⟨-, -, -, ⟨hn, -⟩ | ⟨hn, -⟩⟩ <;>
        rw [hn] at hph <;> cases hph
    · rcases next_tlbie (i := i) hs with hn | ⟨hn, -⟩ <;> rw [hn] at hph <;> cases hph
    · rcases next_search (i := i) hs with hn | ⟨-, htd, -, hr⟩ | ⟨hn, -⟩
      · rw [hn] at hph; cases hph
      · exact .inl ⟨hs, htd, hr⟩
      · rw [hn] at hph; cases hph
    · exact .inr hs
    · rw [next_load hs] at hph; cases hph
    · rw [next_finish hs] at hph; cases hph
  rcases ha with ⟨hs, htd, hr⟩ | hs
  · have hne : s.mmu.r.state ≠ .idle := fun h' => by rw [h'] at hs; cases hs
    simp only [TlbUnit, hs] at htlb
    have hrest : s.mmu.tr.state = .waitw ∨ s.mmu.tr.state = .idle :=
      htlb.imp (fun hb => hb.2.waitw_of_done htd) fun ha => ha.state
    rw [tlbHit_step he hne hrest] at hh
    exact rereadpte_keeps he hne (hr hh)
  · have hne : s.mmu.r.state ≠ .idle := fun h' => by rw [h'] at hs; cases hs
    simp only [TlbUnit, hs] at htlb
    have hrest : s.mmu.tr.state = .waitw ∨ s.mmu.tr.state = .idle :=
      htlb.imp (fun hb => hb.2.2) fun ha => ha.state
    rw [tlbHit_step he hne hrest] at hh
    exact rereadpte_keeps he hne (h.walkHit hs hh)

/-- A walk that found a leaf to use did not start from a cached leaf that was refused. -/
theorem Inv.not_reread (hr : reading s.mmu i .leaf = true) : s.mmu.r.rereadpte = false := by
  obtain ⟨hst, -, -, hn⟩ := reading_state he hr
  by_contra hre
  obtain ⟨f, hf⟩ := h.reread (by rw [hst]; rfl) (by simpa using hre)
  have hleaf := h.walk_step he
  simp only [WalkOk, step_state he, hn] at hleaf
  rw [← (want_keeps ptcr he (by rw [hst]; decide)).2.2.2,
    Walk.want_leaf hleaf.quad hleaf.leaf, useLeaf_ok _ hleaf.ok] at hf
  cases hf

/-- What the TLB is told to write is in the tree. -/
theorem Inv.tlbOrder_step : TlbOrder mem ptcr (s.step i).mmu := by
  intro hn hw htr
  rw [step_state he] at hn
  have hnf : s.mmu.r.state ≠ .radixFinish := fun hs => by rw [next_finish hs] at hn; cases hn
  have hnl : s.mmu.r.wrTlbram = false := by
    by_contra hw'
    rcases h.flags.wrTlb (by simpa using hw') with hs | hs
    · rw [next_load hs] at hn; cases hn
    · exact hnf hs
  simp only [step_r he, rin, hnf, hnl, if_false, Bool.false_or, and_eq_true,
    beq_iff_eq] at hw
  obtain ⟨hr, hshift⟩ := hw
  obtain ⟨hst, -, -, -⟩ := reading_state he hr
  have hne : s.mmu.r.state ≠ .idle := by rw [hst]; decide
  have htlb := h.tlb
  simp only [TlbUnit, hst, WalkState.phase] at htlb
  rcases htlb with ⟨hlink, hb, htw⟩ | ha
  · have hleaf := h.walk_step he
    simp only [WalkOk, step_state he, hn] at hleaf
    obtain ⟨haddr, hpid, hbad⟩ := tlbLink_step he hne hb.ne_idle hlink
    have hgood : badEa (s.step i).mmu.r.addr = false := by
      rw [← hbad, step_tr he, (trin_keeps hb.ne_idle).2.2.1]
      exact hb.good (by rw [htw]; decide)
    have hsh : (s.step i).mmu.r.shift = 0 := by
      have hnd : reading s.mmu i .descend = false := by
        simp only [reading, and_eq_true, beq_iff_eq] at hr
        simp [reading, hr.2]
      simp [step_r he, rin, walkShift, hst, hnd, hshift]
    constructor
    · rw [tlbHit_step he hne (.inl htw)]
      by_contra hh
      have := h.walkHit (by rw [hst]; rfl) (by simpa using hh)
      rw [h.not_reread he hr] at this
      cases this
    · refine ⟨?_, hleaf.rbit⟩
      rw [haddr, hpid, pageOf_small hgood]
      have := hleaf.leaf
      rw [hsh] at this
      exact this
  · rw [step_tr he, (ha.step (he.quiet hne).1).state] at htr
    cases htr

end

/-- The sizes of directory entries that the page walk cache holds. -/
theorem cacheablePde_spec {m : State} {d : BitVec 64} (h : cacheablePde m d = true) :
    m.r.rereadpte = false ∧ (mbitsOf d).toNat = 9 ∧
      m.r.shift.extractLsb' 3 2 - 1 ≠ 3 ∧
        levelShift (m.r.shift.extractLsb' 3 2 - 1) = m.r.shift.toNat ∧
      9 ≤ m.r.shift.toNat := by
  simp only [cacheablePde, and_eq_true, or_eq_true, Bool.not_eq_true', beq_iff_eq] at h
  obtain ⟨⟨hs, hm⟩, hr⟩ := h
  refine ⟨hr, by rw [hm]; rfl, ?_⟩
  rcases hs with (hs | hs) | hs <;> rw [hs] <;> decide

include h he in
/-- And so is what the page walk cache is told to write. -/
theorem Inv.pwcOrder_step : PwcOrder mem ptcr (s.step i).mmu := by
  intro hw hpr
  simp only [step_r he, rin, or_eq_true, and_eq_true, beq_iff_eq] at hw
  have hst : s.mmu.r.state = .radixReadWait := by
    rcases hw with ⟨hr, -⟩ | ⟨hr, -⟩ <;> exact (reading_state he hr).1
  have hd : i.d.done = true := by
    rcases hw with ⟨hr, -⟩ | ⟨hr, -⟩ <;> exact (reading_state he hr).2.1
  have hne : s.mmu.r.state ≠ .idle := by rw [hst]; decide
  have hpwc := h.pwc
  simp only [PwcUnit, hst, WalkState.phase] at hpwc
  have hpde : (s.step i).mmu.r.pde = data i := by simp [step_r he, rin, walkPde, hst, hd]
  have hre : (s.step i).mmu.r.rereadpte = s.mmu.r.rereadpte := by
    have hno : ∀ a, waiting s.mmu a = false := fun a => by rw [waiting, hst]; rfl
    simp [step_r he, rin, hno, hst]
  obtain ⟨-, -, hroot, -⟩ := want_keeps ptcr he hne
  have hspec := readAction_spec (h.kind (by rw [hst]; rfl)) (data i)
  rcases hpwc with hs | ⟨hlink, hgood, hrest⟩
  · rw [step_pr he, prin_idle hs (he.quiet hne).1] at hpr
    cases hpr
  · have hpne : s.mmu.pr.state ≠ .idle := by
      rcases hrest with ⟨-, hs⟩ | ⟨hwr, -⟩
      · rw [hs]; decide
      · intro hs
        have := hwr.state
        rw [hs] at this
        cases this
    obtain ⟨haddr, hpid, hbad⟩ := pwcLink_step he hne hpne hlink
    have hea : badEa (s.step i).mmu.r.addr = false := by
      rw [← hbad, step_pr he, (prin_keeps hpne).2.2.1]
      exact hgood
    have hag : ∀ {k : ℕ}, 9 ≤ k → Agree k (largePage ((s.step i).mmu.r.addr.extractLsb' 21 31))
        (pageOf (s.step i).mmu.r.addr) := fun hk j hj => (agree_largePage_pageOf hea hk j hj).symm
    rw [hre, hpde, haddr, hpid]
    rcases hw with ⟨hr, hshift⟩ | ⟨hr, hc⟩
    · -- a 2M leaf
      obtain ⟨-, -, ha, hn⟩ := reading_state he hr
      have hleaf := h.walk_step he
      simp only [WalkOk, step_state he, hn] at hleaf
      have hlevel : (s.step i).mmu.r.pwcLevel = 0 := by simp [step_r he, rin, hr, hshift]
      have hsh : (s.step i).mmu.r.shift = 9 := by
        have hnd : reading s.mmu i .descend = false := by simp [reading, ha]
        simp [step_r he, rin, walkShift, hst, hnd, hshift]
      simp only [ha] at hspec
      refine ⟨h.not_reread he hr, by rw [hlevel]; decide, ⟨fun hl => ?_, fun _ _ => ?_⟩,
        fun hs => ?_, fun _ => ⟨hspec.2.1, hlevel⟩⟩
      · rw [hspec.2.1] at hl; cases hl
      · have hat := hleaf.leaf
        rw [hsh, hpde] at hat
        exact ⟨hat.congr (hag (le_refl 9)), hspec.2.2.1⟩
      · rw [step_state he, hn] at hs; cases hs
    · -- a directory entry of the usual size
      obtain ⟨-, -, ha, hn⟩ := reading_state he hr
      obtain ⟨hnr, hmb, hlev, hls, h9⟩ := cacheablePde_spec hc
      have hlevel : (s.step i).mmu.r.pwcLevel = s.mmu.r.shift.extractLsb' 3 2 - 1 := by
        have hnl : reading s.mmu i .leaf = false := by simp [reading, ha]
        simp [step_r he, rin, hr, hc, hnl]
      simp only [ha] at hspec
      have hwalk := h.walk
      simp only [WalkOk, hst] at hwalk
      obtain ⟨hw, hasked⟩ := hwalk
      have htab := hw.table.descend hw.five_le hw.le_sixteen
        (show data i = _ by rw [data_eq he hd, hasked]) hspec.1 hspec.2.1
      rw [hlevel]
      refine ⟨hnr, hlev, ⟨fun _ => ?_, fun _ hl => ?_⟩, fun _ => hspec.2.1, fun hs => ?_⟩
      · rw [hls]
        have hroot' : processRoot mem ptcr
            (effpid (s.step i).mmu.r.addr (s.step i).mmu.r.pid) = s.mmu.r.root mem ptcr := hroot
        rw [hroot', ← hmb]
        refine htab.congr ?_
        rw [← (request_keeps he hne).1]
        exact hag h9
      · rw [hspec.2.1] at hl; cases hl
      · rw [step_state he, hn] at hs; cases hs

include h he in
/-- **A clock edge keeps the invariant**, unless it cuts a write to the page walk cache. -/
theorem Inv.step (hc : ¬PwcCut s.mmu) : Inv mem ptcr (s.step i) where
  flags := h.flags.step he
  ptcr_eq := (ptcr_step he).trans h.ptcr_eq
  kind := h.kind_step he
  tables := h.tables_step he
  tlb := tlbUnit_step he h.tlb h.flags h.tlbOrder fun hph => (h.sync hph).1
  pwc := pwcUnit_step he h.pwc h.pwcOrder h.pwcOk h.flags
  sync := sync_step he h.flags h.sync h.tlb h.pwc
  tlbOk := tlbOk_tick he h.tlb h.tlbOk
  pwcOk := pwcOk_tick he h.flags h.pwc h.pwcOk hc
  tlbOrder := h.tlbOrder_step he
  pwcOrder := h.pwcOrder_step he
  busy := h.busy_step he
  tlbie := h.tlbie_step he
  walk := h.walk_step he
  reread := h.reread_step he
  walkHit := h.walkHit_step he

end

end Mmu

end Microwatt
