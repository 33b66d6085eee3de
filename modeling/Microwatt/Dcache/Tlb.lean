import Microwatt.Dcache.Control
import Microwatt.Lib.Clocked

/-!
# The L1 data TLB

The TLB has no way to check what it is told to do: a load overwrites the way that `r1.tlb_victim`
names, an invalidation clears the ways in `r1.tlb_hit_ways`, and both were recorded when some
earlier request was looked up. Nothing compares tags at that time. That no page ends up in two ways
depends on the order in which loadstore1 and the MMU use the unit: a load follows the error that the
missing or insufficient translation caused, a single-page invalidation follows a probe of the page,
and neither happens while a request is in flight.

Runs are followed by a record of what the MMU has loaded and not invalidated since, which page
raised the last error and which page was probed last.

## Main definitions

* `Dcache.TlbTracked`, `Dcache.TlbEnv` — the run with its record
* `Dcache.TlbInv` — what holds in every reachable state

## Main results

* `Dcache.dtlb_exact`
-/

namespace Microwatt

open Clocked Bool

namespace Dcache

variable {g : Geometry}

/-! ### Pages -/

def pageOf (addr : BitVec 64) : BitVec 52 := addr.extractLsb' 12 52

/-- The set a page belongs to. -/
def pageIndex (g : Geometry) (page : BitVec 52) : g.TlbIndex := page.extractLsb' 0 g.tlbSetBits

/-- The tag a page is stored under. -/
def pageTag (g : Geometry) (page : BitVec 52) : g.TlbTag :=
  page.extractLsb' g.tlbSetBits g.tlbEaTagBits

theorem tlbIndex_eq (addr : BitVec 64) : tlbIndex g addr = pageIndex g (pageOf addr) := by
  have hsize := g.tlbSize
  refine BitVec.eq_of_getLsbD_eq fun k hk => ?_
  simp [tlbIndex, pageIndex, pageOf, show k < 52 by omega]

theorem eaTag_eq (addr : BitVec 64) : eaTag g addr = pageTag g (pageOf addr) := by
  refine BitVec.eq_of_getLsbD_eq fun k hk => ?_
  change k < 64 - (12 + g.tlbSetBits) at hk
  have hlt : g.tlbSetBits + k < 52 := by omega
  simp [eaTag, pageTag, pageOf, hlt, Nat.add_assoc]

theorem page_ext {p q : BitVec 52} (hi : pageIndex g p = pageIndex g q)
    (ht : pageTag g p = pageTag g q) : p = q := by
  refine BitVec.eq_of_getLsbD_eq fun k hk => ?_
  by_cases hlow : k < g.tlbSetBits
  · have hbit := congrArg (fun v => v.getLsbD k) hi
    simpa [pageIndex, hlow] using hbit
  · have hbit := congrArg (fun v => v.getLsbD (k - g.tlbSetBits)) ht
    have hadd : g.tlbSetBits + (k - g.tlbSetBits) = k := by omega
    have hlt : k - g.tlbSetBits < 64 - (12 + g.tlbSetBits) := by omega
    simpa [pageTag, hadd, hlt] using hbit

theorem exists_page (index : g.TlbIndex) (tag : g.TlbTag) :
    ∃ page, pageIndex g page = index ∧ pageTag g page = tag := by
  have hsize := g.tlbSize
  refine ⟨(tag ++ index).setWidth 52, ?_, ?_⟩
  · refine BitVec.eq_of_getLsbD_eq fun k hk => ?_
    simp [pageIndex, BitVec.getLsbD_append, hk, show k < 52 by omega]
  · refine BitVec.eq_of_getLsbD_eq fun k hk => ?_
    change k < 64 - (12 + g.tlbSetBits) at hk
    simp [pageTag, BitVec.getLsbD_append, hk, show g.tlbSetBits + k < 52 by omega]

/-! ### Runs and their record -/

/-- The unit with the record of its TLB operations. -/
structure TlbTracked (g : Geometry) where
  cache : State g
  /-- The PTE the MMU loaded last for a page, unless it has been invalidated since. -/
  loaded : BitVec 52 → Option (BitVec 64) := fun _ => none
  /-- The page of the last access of loadstore1 that was reported as an error. -/
  errorPage : Option (BitVec 52) := none
  /-- The page that was probed, if a probe was the last request and nothing was loaded since. -/
  probed : Option (BitVec 52) := none

variable (t : TlbTracked g) (i : Inputs)

/-- What the MMU's command does to the record of loaded translations. -/
def loadedNext (page : BitVec 52) : Option (BitVec 64) :=
  if i.m.tlbie then if i.m.doall || page == pageOf i.m.addr then none else t.loaded page
  else if i.m.tlbld && page == pageOf i.m.addr then some i.m.pte
  else t.loaded page

def tlbStep : TlbTracked g where
  cache := step t.cache i
  loaded := loadedNext t i
  errorPage :=
    if reqOp t.cache i == .bad && !t.cache.r0.mmuReq then some (pageOf t.cache.r0.req.addr)
    else t.errorPage
  probed :=
    if r0Valid t.cache i then
      if t.cache.r0.req.tlbProbe then some (pageOf t.cache.r0.req.addr) else none
    else if i.m.tlbld then none
    else t.probed

/-- The MMU changes the TLB when no request is in flight, loads a translation only for the access
that reported the last error, and invalidates a single page only after a probe of it. -/
@[mk_iff] structure TlbEnv : Prop where
  rst : i.rst = false
  quiet : (i.m.tlbld || i.m.tlbie) = true →
    t.cache.r0Full = false ∧ t.cache.r1.lsError = false ∧ i.d.valid = false ∧ i.m.valid = false
  load : i.m.tlbld = true → t.errorPage = some (pageOf i.m.addr)
  inval : i.m.tlbie = true → i.m.doall = false → t.probed = some (pageOf i.m.addr)

instance : Decidable (TlbEnv t i) :=
  decidable_of_iff _ (tlbEnv_iff ..).symm

/-- A run starts after reset, with nothing recorded. -/
def TlbStart : Prop := AfterReset t.cache ∧ t.errorPage = none ∧ t.probed = none

/-! ### The invariant -/

/-- A way of the TLB is valid for a page. -/
def Holds (s : State g) (page : BitVec 52) (way : g.TlbWay) : Prop :=
  s.dtlbValids (pageIndex g page) way = true ∧
    s.dtlbTags (pageIndex g page) way = pageTag g page

/-- The ways that an error leaves for its page: the one that hit, or none. After the next edge
this is the victim, whether the page was found or not. -/
def ErrorWay (s : State g) (way : g.TlbWay) : Prop :=
  if s.r1.lsError then s.r1.tlbHit = true ∧ way = s.r1.tlbHitWay else way = s.r1.tlbVictim

/-- While a request is in `r0`, the registered read of the TLB is what the TLB holds. -/
structure TlbRead (s : State g) : Prop where
  valid : s.r0Full = true → s.tlbReadValid = true
  ways : s.r0Full = true →
    s.tlbValidWay = s.dtlbValids (tlbReqIndex s) ∧ s.tlbTagWay = s.dtlbTags (tlbReqIndex s) ∧
      s.tlbPteWay = s.dtlbPtes (tlbReqIndex s)

structure TlbInv : Prop where
  read : TlbRead t.cache
  unique : ∀ page way way', Holds t.cache page way → Holds t.cache page way' → way = way'
  content : ∀ page way, Holds t.cache page way →
    t.loaded page = some (t.cache.dtlbPtes (pageIndex g page) way)
  error : ∀ page, t.errorPage = some page → ∀ way, Holds t.cache page way →
    ErrorWay t.cache way
  probe : ∀ page, t.probed = some page → ∀ way, Holds t.cache page way →
    t.cache.r1.tlbHitWays way = true

variable {t i}

variable {s : State g} {way : g.TlbWay}

theorem TlbRead.of_empty (h : s.r0Full = false) : TlbRead s :=
  ⟨fun hf => absurd hf (by simp [h]), fun hf => absurd hf (by simp [h])⟩

theorem AfterReset.tlbRead (h : AfterReset s) : TlbRead s := .of_empty h.r0Full

theorem TlbStart.inv (h : TlbStart t) : TlbInv t := by
  obtain ⟨hreset, herror, hprobed⟩ := h
  have hnone : ∀ page way, ¬Holds t.cache page way := by
    intro page way hh
    exact absurd hh.1 (by simp [hreset.dtlbValids])
  refine ⟨hreset.tlbRead, ?_, ?_, ?_, ?_⟩
  · intro page way _ hh
    exact absurd hh (hnone page way)
  · intro page way hh
    exact absurd hh (hnone page way)
  · intro page hp
    exact absurd hp (by simp [herror])
  · intro page hp
    exact absurd hp (by simp [hprobed])

/-- While a request is in `r0`, the search compares with what the TLB holds. -/
theorem TlbInv.tlbHitExpand_iff (h : TlbInv t) (hfull : t.cache.r0Full = true) (way : g.TlbWay) :
    tlbHitExpand t.cache way = true ↔ Holds t.cache (pageOf t.cache.r0.req.addr) way := by
  obtain ⟨hvalid, htag, -⟩ := h.read.ways hfull
  simp only [tlbHitExpand, hvalid, htag, tlbReqIndex, tlbIndex_eq, eaTag_eq, Holds,
    and_eq_true, beq_iff_eq]

theorem TlbInv.only (h : TlbInv t) (hfull : t.cache.r0Full = true)
    (hway : tlbHitExpand t.cache way = true) : Ways.Only (tlbHitExpand t.cache) way := by
  refine ⟨hway, fun way' hway' => ?_⟩
  rw [h.tlbHitExpand_iff hfull] at hway hway'
  exact h.unique _ _ _ hway' hway

/-! ### One step -/

/-- The request in `r0` after the edge is the one whose set was read at the edge. -/
theorem tlbReqIndex_clock (hstall : r0Stall s i = false) :
    tlbReqIndex (clock s i) = tlbReadIndex i := by
  simp only [tlbReqIndex, clock, r0Next, hstall, Bool.not_false, if_true, r0New, tlbReadIndex]
  cases i.m.valid <;> rfl

theorem tlbReqIndex_clock_stall (hstall : r0Stall s i = true) :
    tlbReqIndex (clock s i) = tlbReqIndex s := by
  simp only [tlbReqIndex, clock, r0Next, hstall, Bool.not_true, false_eq_true, if_false]
  split <;> rfl

theorem r0Full_clock_stall (hstall : r0Stall s i = true) : (clock s i).r0Full = s.r0Full := by
  simp [clock, r0FullNext, hstall]

theorem r0Full_clock (hstall : r0Stall s i = false) :
    (clock s i).r0Full = (i.m.valid || i.d.valid) := by
  simp only [clock, r0FullNext, hstall, Bool.not_false, if_true, r0New]
  cases i.m.valid <;> simp

theorem TlbEnv.cache (he : TlbEnv t i) : (tlbStep t i).cache = clock t.cache i :=
  step_eq_clock he.rst

variable (h : TlbInv t) (he : TlbEnv t i) (hld : i.m.tlbld = false) (hie : i.m.tlbie = false)

include hld hie in
/-- What an edge does to the TLB when the MMU sends no command. -/
theorem dtlb_clock_idle :
    (clock s i).dtlbValids = s.dtlbValids ∧ (clock s i).dtlbTags = s.dtlbTags ∧
      (clock s i).dtlbPtes = s.dtlbPtes := by
  refine ⟨?_, ?_, ?_⟩ <;> funext index way <;> simp [clock, dtlbValidsNext, tlbWrite, hld, hie]

include hld hie in
theorem holds_clock_idle (page : BitVec 52) (way : g.TlbWay) :
    Holds (clock s i) page way ↔ Holds s page way := by
  obtain ⟨hv, ht, -⟩ := dtlb_clock_idle (s := s) hld hie
  simp [Holds, hv, ht]

/-- An invalidation leaves an entry only if it belongs to another page. -/
theorem holds_clock_tlbie (hie : i.m.tlbie = true) {page : BitVec 52}
    (h : Holds (clock s i) page way) :
    Holds s page way ∧ i.m.doall = false ∧
      (page = pageOf i.m.addr → s.r1.tlbHitWays way = false) := by
  simp only [Holds, clock, dtlbValidsNext, tlbWrite, tlbWrIndex, hie, Bool.not_true,
    Bool.false_and, Bool.true_and, false_eq_true, if_false] at h
  obtain ⟨hvalid, htag⟩ := h
  cases hall : i.m.doall with
  | true => simp [hall] at hvalid
  | false =>
    simp only [hall, false_eq_true, if_false, if_true, and_eq_true] at hvalid
    refine ⟨⟨hvalid.1, htag⟩, rfl, ?_⟩
    rintro rfl
    simpa [tlbIndex_eq] using hvalid.2

/-- A load leaves the old entry of a way, or has just written the new one. -/
theorem holds_clock_tlbld (hld : i.m.tlbld = true) (hie : i.m.tlbie = false) {page : BitVec 52}
    (h : Holds (clock s i) page way) :
    (page = pageOf i.m.addr ∧ way = s.r1.tlbVictim ∧
        (clock s i).dtlbPtes (pageIndex g page) way = i.m.pte) ∨
      (Holds s page way ∧ (page = pageOf i.m.addr → way ≠ s.r1.tlbVictim) ∧
        (clock s i).dtlbPtes (pageIndex g page) way = s.dtlbPtes (pageIndex g page) way) := by
  simp only [Holds, clock, dtlbValidsNext, tlbWrite, tlbWrIndex, hie, hld, Bool.not_false,
    Bool.true_and, Bool.false_and, false_eq_true, if_false, tlbIndex_eq, eaTag_eq] at h ⊢
  by_cases hw : pageIndex g page = pageIndex g (pageOf i.m.addr) ∧ way = s.r1.tlbVictim
  · have hwrite : (pageIndex g page == pageIndex g (pageOf i.m.addr) && way == s.r1.tlbVictim)
        = true := by simp [hw]
    simp only [hwrite, if_true] at h ⊢
    exact .inl ⟨page_ext hw.1 h.2.symm, hw.2, trivial⟩
  · have hwrite : (pageIndex g page == pageIndex g (pageOf i.m.addr) && way == s.r1.tlbVictim)
        = false := by simpa using hw
    simp only [hwrite, Bool.or_false, false_eq_true, if_false] at h ⊢
    refine .inr ⟨h, ?_, trivial⟩
    rintro rfl hway
    exact hw ⟨rfl, hway⟩

/-- The read stays current if the MMU changes the TLB only when no request is in flight. -/
theorem TlbRead.clock (h : TlbRead s)
    (hquiet : (i.m.tlbld || i.m.tlbie) = true →
      s.r0Full = false ∧ i.d.valid = false ∧ i.m.valid = false) : TlbRead (clock s i) := by
  by_cases hcmd : (i.m.tlbld || i.m.tlbie) = true
  · obtain ⟨hfull, hd, hm⟩ := hquiet hcmd
    refine .of_empty ?_
    cases hstall : r0Stall s i with
    | true => rw [r0Full_clock_stall hstall, hfull]
    | false => rw [r0Full_clock hstall, hm, hd]; rfl
  · obtain ⟨hld, hie⟩ : i.m.tlbld = false ∧ i.m.tlbie = false := by simpa using hcmd
    obtain ⟨hv, ht, hp⟩ := dtlb_clock_idle (s := s) hld hie
    constructor
    · cases hstall : r0Stall s i with
      | true =>
        rw [r0Full_clock_stall hstall]
        simpa [Dcache.clock, hstall] using h.valid
      | false =>
        rw [r0Full_clock hstall]
        simp only [Dcache.clock, hstall, hie]
        cases i.m.valid <;> simp
    · cases hstall : r0Stall s i with
      | true =>
        rw [r0Full_clock_stall hstall, tlbReqIndex_clock_stall hstall, hv, ht, hp]
        simpa [Dcache.clock, hstall] using h.ways
      | false =>
        intro _
        rw [tlbReqIndex_clock hstall, hv, ht, hp]
        simp [Dcache.clock, hstall]

include h he hld hie in
/-- A step in which the MMU sends no command keeps the invariant: the only thing that happens to
the TLB is that a request is looked up. -/
theorem TlbInv.step_idle : TlbInv (tlbStep t i) := by
  have hclock := he.cache
  obtain ⟨hv, ht, hp⟩ := dtlb_clock_idle (s := t.cache) hld hie
  have hloaded : (tlbStep t i).loaded = t.loaded := by
    funext page
    simp [tlbStep, loadedNext, hld, hie]
  have hholds : ∀ {page way}, Holds (tlbStep t i).cache page way ↔ Holds t.cache page way := by
    intro page way
    rw [hclock]
    exact holds_clock_idle hld hie page way
  refine ⟨?_, ?_, ?_, ?_, ?_⟩
  · rw [hclock]
    exact h.read.clock fun hcmd => absurd hcmd (by simp [hld, hie])
  · intro page way way' hw hw'
    exact h.unique page way way' (hholds.mp hw) (hholds.mp hw')
  · intro page way hw
    rw [hloaded, hclock, hp]
    exact h.content page way (hholds.mp hw)
  · intro page hpage way hw
    rw [hholds] at hw
    have hnext : (tlbStep t i).cache.r1 = r1Next t.cache i := by rw [hclock]; rfl
    by_cases hbad : (reqOp t.cache i == .bad && !t.cache.r0.mmuReq) = true
    · -- the page that raises the error now is held by the way that hit, if any
      simp only [tlbStep, hbad, if_true, Option.some.injEq] at hpage
      subst hpage
      have hvalid : r0Valid t.cache i = true := by
        refine r0Valid_of_reqGo (reqGo_of_reqOp fun hop => ?_)
        rw [hop] at hbad
        exact absurd hbad (by simp)
      have hfull := r0Full_of_r0Valid hvalid
      have hexp := (h.tlbHitExpand_iff hfull way).mpr hw
      have hany : Ways.any (tlbHitExpand t.cache) = true := Ways.any_iff.mpr ⟨way, hexp⟩
      have herr : (r1Next t.cache i).lsError = true := hbad
      simp only [ErrorWay, hnext, herr, if_true]
      simp only [r1Next, tlbHit, hany, h.read.valid hfull, hvalid, if_true]
      exact ⟨rfl, ((h.only hfull hexp).last_eq).symm⟩
    · rw [not_eq_true] at hbad
      simp only [tlbStep, hbad, false_eq_true, if_false] at hpage
      have herr : (r1Next t.cache i).lsError = false := hbad
      have hway := h.error page hpage way hw
      simp only [ErrorWay, hnext, herr, false_eq_true, if_false]
      simp only [ErrorWay] at hway
      simp only [r1Next]
      cases hls : t.cache.r1.lsError with
      | true =>
        simp only [hls, if_true] at hway ⊢
        rw [hway.1]
        exact hway.2
      | false =>
        simpa only [hls, false_eq_true, if_false] using hway
  · intro page hpage way hw
    rw [hholds] at hw
    rw [hclock]
    simp only [tlbStep, hld, false_eq_true, if_false] at hpage
    simp only [clock, r1Next]
    cases hvalid : r0Valid t.cache i with
    | true =>
      simp only [hvalid, if_true] at hpage ⊢
      split at hpage
      · cases hpage
        exact (h.tlbHitExpand_iff (r0Full_of_r0Valid hvalid) way).mpr hw
      · cases hpage
    | false =>
      simp only [hvalid, false_eq_true, if_false] at hpage ⊢
      exact h.probe page hpage way hw

/-- What a command of the MMU finds and leaves: `r0` empty, no error being reported and the
registers of the last lookup as they were. -/
theorem TlbEnv.command (he : TlbEnv t i) (hcmd : (i.m.tlbld || i.m.tlbie) = true) :
    (tlbStep t i).cache.r0Full = false ∧ t.cache.r1.lsError = false ∧
      (tlbStep t i).cache.r1.lsError = false ∧
      (tlbStep t i).cache.r1.tlbVictim = t.cache.r1.tlbVictim ∧
      (tlbStep t i).cache.r1.tlbHitWays = t.cache.r1.tlbHitWays ∧
      (tlbStep t i).errorPage = t.errorPage := by
  obtain ⟨hfull, hls, hd, hm⟩ := he.quiet hcmd
  have hclock := he.cache
  have hop : reqOp t.cache i = .none := reqOp_of_not_go (reqGo_of_empty hfull)
  have hvalid : r0Valid t.cache i = false := by simp [r0Valid, hfull]
  refine ⟨?_, hls, ?_, ?_, ?_, ?_⟩
  · rw [hclock]
    cases hstall : r0Stall t.cache i with
    | true => rw [r0Full_clock_stall hstall, hfull]
    | false => rw [r0Full_clock hstall, hm, hd]; rfl
  · rw [hclock]
    simp [clock, r1Next, hop]
  · rw [hclock]
    simp [clock, r1Next, hls]
  · rw [hclock]
    simp [clock, r1Next, hvalid]
  · simp [tlbStep, hop]

section

include h he

theorem TlbInv.step_tlbie (hie : i.m.tlbie = true) : TlbInv (tlbStep t i) := by
  have hcmd : (i.m.tlbld || i.m.tlbie) = true := by simp [hie]
  obtain ⟨hfull, hls, hls', hvictim, hways, herr⟩ := he.command hcmd
  have hclock := he.cache
  have hkept : ∀ {page way}, Holds (tlbStep t i).cache page way → Holds t.cache page way ∧
      i.m.doall = false ∧ (page = pageOf i.m.addr → t.cache.r1.tlbHitWays way = false) := by
    intro page way hh
    rw [hclock] at hh
    exact holds_clock_tlbie hie hh
  refine ⟨.of_empty hfull, ?_, ?_, ?_, ?_⟩
  · intro page way way' hw hw'
    exact h.unique page way way' (hkept hw).1 (hkept hw').1
  · intro page way hw
    obtain ⟨hold, hall, hother⟩ := hkept hw
    have hne : page ≠ pageOf i.m.addr := by
      intro heq
      subst heq
      -- the probe recorded every way that holds the page
      have hhit := h.probe _ (he.inval hie hall) way hold
      rw [hother rfl] at hhit
      exact absurd hhit (by simp)
    have hpte : (tlbStep t i).cache.dtlbPtes = t.cache.dtlbPtes := by
      rw [hclock]
      funext index w
      simp [clock, tlbWrite, hie]
    rw [hpte]
    simpa [tlbStep, loadedNext, hie, hall, hne] using h.content page way hold
  · intro page hpage way hw
    rw [herr] at hpage
    have hway := h.error page hpage way (hkept hw).1
    simp only [ErrorWay, hls, hls', hvictim] at hway ⊢
    exact hway
  · intro page hpage way hw
    obtain ⟨hf, -⟩ := he.quiet hcmd
    have hvalid : r0Valid t.cache i = false := by simp [r0Valid, hf]
    simp only [tlbStep, hvalid, false_eq_true, if_false] at hpage
    rw [hways]
    split at hpage
    · cases hpage
    · exact h.probe page hpage way (hkept hw).1

theorem TlbInv.step_tlbld (hld : i.m.tlbld = true) (hie : i.m.tlbie = false) :
    TlbInv (tlbStep t i) := by
  have hcmd : (i.m.tlbld || i.m.tlbie) = true := by simp [hld]
  obtain ⟨hfull, hls, hls', hvictim, hways, herr⟩ := he.command hcmd
  have hclock := he.cache
  -- the page was nowhere but in the victim, so the new entry is the only one
  have hold : ∀ {way}, Holds t.cache (pageOf i.m.addr) way → way = t.cache.r1.tlbVictim := by
    intro way hh
    have hway := h.error _ (he.load hld) way hh
    simpa only [ErrorWay, hls, false_eq_true, if_false] using hway
  have hnew : ∀ {page way}, Holds (tlbStep t i).cache page way →
      (page = pageOf i.m.addr ∧ way = t.cache.r1.tlbVictim ∧
          (tlbStep t i).cache.dtlbPtes (pageIndex g page) way = i.m.pte) ∨
        (Holds t.cache page way ∧ page ≠ pageOf i.m.addr ∧
          (tlbStep t i).cache.dtlbPtes (pageIndex g page) way =
            t.cache.dtlbPtes (pageIndex g page) way) := by
    intro page way hh
    rw [hclock] at hh ⊢
    rcases holds_clock_tlbld hld hie hh with hw | ⟨hw, hne, hpte⟩
    · exact .inl hw
    · refine .inr ⟨hw, ?_, hpte⟩
      rintro rfl
      exact hne rfl (hold hw)
  refine ⟨.of_empty hfull, ?_, ?_, ?_, ?_⟩
  · intro page way way' hw hw'
    rcases hnew hw with ⟨hpage, hway, -⟩ | ⟨hw, hpage, -⟩ <;>
      rcases hnew hw' with ⟨hpage', hway', -⟩ | ⟨hw', hpage', -⟩
    · rw [hway, hway']
    · exact absurd hpage hpage'
    · exact absurd hpage' hpage
    · exact h.unique page way way' hw hw'
  · intro page way hw
    rcases hnew hw with ⟨hpage, -, hpte⟩ | ⟨hw, hpage, hpte⟩
    · simp [tlbStep, loadedNext, hie, hld, hpage, ← hpte]
    · rw [hpte]
      simpa [tlbStep, loadedNext, hie, hld, hpage] using h.content page way hw
  · intro page hpage way hw
    rw [herr] at hpage
    have hpage' : page = pageOf i.m.addr := by
      rw [he.load hld] at hpage
      exact (Option.some.inj hpage).symm
    simp only [ErrorWay, hls', hvictim, false_eq_true, if_false]
    rcases hnew hw with ⟨-, hway, -⟩ | ⟨-, hne, -⟩
    · exact hway
    · exact absurd hpage' hne
  · intro page hpage way hw
    obtain ⟨hf, -⟩ := he.quiet hcmd
    have hvalid : r0Valid t.cache i = false := by simp [r0Valid, hf]
    simp [tlbStep, hvalid, hld] at hpage

theorem TlbInv.step : TlbInv (tlbStep t i) := by
  cases hie : i.m.tlbie with
  | true => exact h.step_tlbie he hie
  | false =>
    cases hld : i.m.tlbld with
    | true => exact h.step_tlbld he hld hie
    | false => exact h.step_idle he hld hie

end

/-! ### The whole run -/

/-- **The TLB holds what the MMU loaded.** In every run that keeps to the order of requests, no set
holds two valid ways with the same tag, a lookup that hits returns exactly the PTE loaded last for
its page, and a page that was invalidated and not loaded again is not hit. -/
theorem dtlb_exact (h : Reachable tlbStep TlbEnv TlbStart t) :
    (∀ index way way', t.cache.dtlbValids index way = true →
        t.cache.dtlbValids index way' = true →
        t.cache.dtlbTags index way = t.cache.dtlbTags index way' → way = way') ∧
      (∀ i, tlbHit t.cache i = true →
        t.loaded (pageOf t.cache.r0.req.addr) = some (pte t.cache)) ∧
      ∀ i, t.loaded (pageOf t.cache.r0.req.addr) = none → tlbHit t.cache i = false := by
  have hinv : TlbInv t := h.induct (fun _ h0 => h0.inv) (fun _ _ hi he => hi.step he)
  have hhit : ∀ i, tlbHit t.cache i = true →
      t.loaded (pageOf t.cache.r0.req.addr) = some (pte t.cache) := by
    intro i hi
    simp only [tlbHit, and_eq_true] at hi
    have hfull := r0Full_of_r0Valid hi.2
    obtain ⟨way, hway⟩ := Ways.any_iff.mp hi.1.1
    rw [pte, (hinv.only hfull hway).orOf_eq, (hinv.read.ways hfull).2.2, tlbReqIndex, tlbIndex_eq]
    exact hinv.content _ way ((hinv.tlbHitExpand_iff hfull way).mp hway)
  refine ⟨?_, hhit, ?_⟩
  · intro index way way' hway hway' htag
    obtain ⟨page, rfl, hpage⟩ := exists_page index (t.cache.dtlbTags index way)
    exact hinv.unique page way way' ⟨hway, hpage.symm⟩ ⟨hway', by rw [← htag, hpage]⟩
  · intro i hnone
    by_contra hi
    rw [not_eq_false] at hi
    rw [hhit i hi] at hnone
    cases hnone

/-- A load of a page that is not mapped, the error, the MMU's answer, and the load again. -/
def missThenHit : List Inputs :=
  let load : Loadstore1ToDcache :=
    { valid := true, load := true, virtMode := true, privMode := true, addr := 0x12345678 }
  [{ d := load }, {}, {}, { m := { tlbld := true, addr := 0x12345678, pte := 0x40000187 } },
    { d := load }]

theorem dtlb_exact_missThenHit :
    let t := run tlbStep { cache := ({} : State .default) } missThenHit
    tlbHit t.cache {} = true ∧ t.loaded 0x12345 = some 0x40000187 ∧ pte t.cache = 0x40000187 := by
  have hrun : Allowed tlbStep TlbEnv { cache := ({} : State .default) } missThenHit ∧
      (let t := run tlbStep { cache := ({} : State .default) } missThenHit
       tlbHit t.cache {} = true ∧ pageOf t.cache.r0.req.addr = 0x12345 ∧
        t.loaded 0x12345 = some 0x40000187) := by decide +kernel
  have hstart : TlbStart { cache := ({} : State .default) } :=
    ⟨by constructor <;> intros <;> rfl, rfl, rfl⟩
  have hreach := reachable_run hstart hrun.1
  obtain ⟨-, hhit, haddr, hloaded⟩ := hrun
  revert hreach hhit haddr hloaded
  generalize run tlbStep _ missThenHit = t
  intro hreach hhit haddr hloaded
  have hpte := (dtlb_exact hreach).2.1 {} hhit
  rw [haddr, hloaded, Option.some.injEq] at hpte
  exact ⟨hhit, hloaded, hpte.symm⟩

end Dcache

end Microwatt
