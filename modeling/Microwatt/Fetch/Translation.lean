import Microwatt.Fetch.Basic
import Microwatt.Lib.Clocked

/-!
# Translations in the fetch unit

A fetch in virtual mode is right if its real page is the one the MMU loaded for the effective page
and has not invalidated since. The ERAT, the ITLB and the read port of the ITLB each hold copies of
what was loaded. An invalidation clears the first two in its cycle, but not the read port: the entry
that is read at the same edge is compared and copied to the ERAT one cycle later, as if nothing had
happened. The same holds for a translation that is replaced.

Another gap has to do with stopping the core. The request register is held while the stop mark is
set, but its `req` bit is not. If the stop mark comes while the address in the register waits for
the ITLB, or with an interrupt, and is then taken away, the register is sent out with the real page
number it has, which belongs to nothing.

Both gaps are named as conditions on the inputs, and everything else is covered.

## Main definitions

* `Fetch1.Tracked`, `Fetch1.trackedStep` — with the record of loaded translations
* `Fetch1.Ordered` — the conditions above

## Main results

* `Fetch1.translation_sound`
-/

namespace Microwatt

open Clocked

namespace Fetch1

variable {g : Geometry}

/-! ### Pages, indexes and tags -/

/-- The index and the tag determine the page: two of the three fields in the hash are in the tag. -/
theorem epn_of_hashEa {a b : BitVec 64} (hindex : hashEa g a = hashEa g b)
    (htag : eaTag g a = eaTag g b) : epn a = epn b := by
  have hsize := g.tlbFits
  have hhigh : ∀ k, 12 + g.tlbBits ≤ k → k < 64 → a.getLsbD k = b.getLsbD k := by
    intro k hle hlt
    have hbit := congrArg (fun v => v.getLsbD (k - (12 + g.tlbBits))) htag
    have hadd : 12 + g.tlbBits + (k - (12 + g.tlbBits)) = k := by omega
    have hin : k - (12 + g.tlbBits) < 64 - (12 + g.tlbBits) := by omega
    simpa [eaTag, hadd, hin] using hbit
  refine BitVec.eq_of_getLsbD_eq fun k hk => ?_
  by_cases hlow : k < g.tlbBits
  · have hbit := congrArg (fun v => v.getLsbD k) hindex
    have h1 := hhigh (12 + g.tlbBits + k) (by omega) (by omega)
    have h2 := hhigh (12 + 2 * g.tlbBits + k) (by omega) (by omega)
    simpa [hashEa, epn, hlow, hk, h1, h2] using hbit
  · have hbit := hhigh (12 + k) (by omega) (by omega)
    simpa [epn, hk] using hbit

theorem hashEa_of_epn {a b : BitVec 64} (h : epn a = epn b) : hashEa g a = hashEa g b := by
  have hsize := g.tlbFits
  have hbits : ∀ k, k < 52 → a.getLsbD (12 + k) = b.getLsbD (12 + k) := by
    intro k hk
    have hbit := congrArg (fun v => v.getLsbD k) h
    simpa [epn, hk] using hbit
  refine BitVec.eq_of_getLsbD_eq fun k hk => ?_
  have h0 := hbits k (by omega)
  have h1 := hbits (g.tlbBits + k) (by omega)
  have h2 := hbits (2 * g.tlbBits + k) (by omega)
  rw [← Nat.add_assoc] at h1 h2
  simp [hashEa, hk, h0, h1, h2]

/-! ### Runs and their record -/

/-- The unit with the record of its translations. -/
structure Tracked (g : Geometry) where
  fetch : State g
  /-- The PTE the MMU loaded last for a page, unless it has been invalidated since. -/
  loaded : BitVec 52 → Option (BitVec 64) := fun _ => none
  /-- What was loaded for the address in the request register when it was translated. -/
  entry : Option (BitVec 64) := none

variable (t : Tracked g) (i : Inputs)

/-- What the MMU's command does to the record of loaded translations. -/
def loadedNext (page : BitVec 52) : Option (BitVec 64) :=
  if i.m.tlbie then if i.m.doall || page == epn i.m.addr then none else t.loaded page
  else if i.m.tlbld && page == epn i.m.addr then some i.m.pte
  else t.loaded page

def trackedStep : Tracked g where
  fetch := step t.fetch i
  loaded := loadedNext t i
  entry := if advanceNia t.fetch i then t.loaded (epn (nextNia t.fetch i)) else t.entry

/-- The address the unit moves to is translated, or needs no translation. -/
def settles (s : State g) (i : Inputs) : Bool :=
  !(rNext s i).virtMode || (!diverted i && !tlbstallNext s i)

/-- The conditions on the order of events. -/
@[mk_iff] structure Ordered : Prop where
  /-- The translation of a page is not changed in the cycle in which the ITLB is read for it. -/
  lookup : startCheck t.fetch i = true →
    (i.m.tlbie && i.m.doall) = false ∧
      ((i.m.tlbie || i.m.tlbld) = true → epn i.m.addr ≠ epn (nextNia t.fetch i))
  /-- The core is stopped on a translated address. A stop in the cycle before the ITLB is checked
  is harmless if it is over with the check. -/
  stop : i.stopIn = true →
    if advanceNia t.fetch i then tlbcheckNext t.fetch i = true ∨ settles t.fetch i = true
    else t.fetch.rInt.tlbcheck = false

instance : Decidable (Ordered t i) :=
  decidable_of_iff _ (ordered_iff ..).symm

def Start : Prop := AfterReset t.fetch

/-! ### The invariant -/

/-- A valid copy with the real page `rpn` and the bit `priv` is what is loaded for the page. -/
def Copy (page : BitVec 52) (rpn : BitVec 44) (priv : Bool) : Prop :=
  ∃ pte, t.loaded page = some pte ∧ rpn = pteRpn pte ∧ priv = ptePriv pte

/-- The address in the request register was translated, and the access is permitted. -/
def Translated : Prop :=
  t.fetch.r.virtMode = true →
    ∃ pte, t.entry = some pte ∧ t.fetch.r.rpn = pteRpn pte ∧
      (ptePriv pte = true → t.fetch.r.privMode = true)

structure Inv : Prop where
  erat0 : t.fetch.erat.valid0 = true →
    Copy t t.fetch.erat.epn0 t.fetch.erat.rpn0 t.fetch.erat.priv0
  erat1 : t.fetch.erat.valid1 = true →
    Copy t t.fetch.erat.epn1 t.fetch.erat.rpn1 t.fetch.erat.priv1
  itlb : ∀ addr, t.fetch.itlbValids (hashEa g addr) = true →
    t.fetch.itlbTags (hashEa g addr) = eaTag g addr →
    t.loaded (epn addr) = some (t.fetch.itlbPtes (hashEa g addr))
  port : t.fetch.rInt.tlbcheck = true → itlbHit t.fetch = true →
    t.loaded (epn t.fetch.r.nia) = some t.fetch.itlbPte
  req : t.fetch.r.req = true → Translated t
  stopMark : t.fetch.r.stopMark = true → Translated t ∨ t.fetch.rInt.tlbcheck = true

variable {t i}

theorem Start.inv (h : Start t) : Inv t where
  erat0 hv := absurd hv (by simp [h.erat0])
  erat1 hv := absurd hv (by simp [h.erat1])
  itlb addr hv := absurd hv (by simp [h.itlb])
  port hc := absurd hc (by simp [h.tlbcheck])
  req hr := absurd hr (by simp [h.req])
  stopMark _ := .inl fun hv => absurd hv (by simp [h.virtMode])

/-! ### One edge -/

theorem loadedNext_of_idle (hie : i.m.tlbie = false) (hld : i.m.tlbld = false) :
    loadedNext t i = t.loaded := by
  funext page
  simp [loadedNext, hie, hld]

/-- A command for another page leaves the record of a page as it is. -/
theorem loadedNext_of_ne {page : BitVec 52} (hall : (i.m.tlbie && i.m.doall) = false)
    (hne : (i.m.tlbie || i.m.tlbld) = true → epn i.m.addr ≠ page) :
    loadedNext t i page = t.loaded page := by
  unfold loadedNext
  cases hie : i.m.tlbie with
  | true =>
    rw [hie, Bool.true_and] at hall
    have hpage := (hne (by simp [hie])).symm
    simp [hall, hpage]
  | false =>
    cases hld : i.m.tlbld with
    | true =>
      have hpage := (hne (by simp [hld])).symm
      simp [hpage]
    | false => simp

theorem Inv.erat_step (h : Inv t) :
    ((eratNext t.fetch i).valid0 = true →
        Copy (trackedStep t i) (eratNext t.fetch i).epn0 (eratNext t.fetch i).rpn0
          (eratNext t.fetch i).priv0) ∧
      ((eratNext t.fetch i).valid1 = true →
        Copy (trackedStep t i) (eratNext t.fetch i).epn1 (eratNext t.fetch i).rpn1
          (eratNext t.fetch i).priv1) := by
  unfold eratNext
  by_cases hclear : (i.rst || i.m.tlbie) = true
  · simp [hclear]
  by_cases hld : i.m.tlbld = true
  · simp only [hclear, hld, if_true, Bool.false_eq_true, if_false, false_implies, and_true]
    intro _
    have hie : i.m.tlbie = false := by simp at hclear; exact hclear.2
    exact ⟨i.m.pte, by simp [trackedStep, loadedNext, hie, hld], rfl, rfl⟩
  -- no command of the MMU: the record stays, and the ERAT gets what the port has
  have hsame : (trackedStep t i).loaded = t.loaded :=
    loadedNext_of_idle (by simp at hclear; exact hclear.2) (by simpa using hld)
  have hfill : eratFill t.fetch = true →
      Copy (trackedStep t i) (epn t.fetch.r.nia) (pteRpn t.fetch.itlbPte)
        (ptePriv t.fetch.itlbPte) := by
    intro hfill
    simp only [eratFill, Bool.and_eq_true] at hfill
    exact ⟨_, by rw [hsame]; exact h.port hfill.1 hfill.2, rfl, rfl⟩
  have h0 : t.fetch.erat.valid0 = true →
      Copy (trackedStep t i) t.fetch.erat.epn0 t.fetch.erat.rpn0 t.fetch.erat.priv0 := by
    simpa only [Copy, hsame] using h.erat0
  have h1 : t.fetch.erat.valid1 = true →
      Copy (trackedStep t i) t.fetch.erat.epn1 t.fetch.erat.rpn1 t.fetch.erat.priv1 := by
    simpa only [Copy, hsame] using h.erat1
  simp only [hclear, hld, Bool.false_eq_true, if_false]
  split_ifs with hf hmru hhit
  · exact ⟨h0, fun _ => hfill hf⟩
  · exact ⟨fun _ => hfill hf, h1⟩
  · exact ⟨h0, h1⟩
  · exact ⟨h0, h1⟩

theorem Inv.itlb_step (h : Inv t) (addr : BitVec 64)
    (hv : itlbValidsNext t.fetch i (hashEa g addr) = true)
    (htag : (step t.fetch i).itlbTags (hashEa g addr) = eaTag g addr) :
    loadedNext t i (epn addr) = some ((step t.fetch i).itlbPtes (hashEa g addr)) := by
  unfold itlbValidsNext at hv
  simp only [step, itlbWrite] at htag ⊢
  by_cases hall : (i.rst || (i.m.tlbie && i.m.doall)) = true
  · simp [hall] at hv
  simp only [Bool.or_eq_true, not_or, Bool.not_eq_true] at hall
  obtain ⟨hrst, hdoall⟩ := hall
  simp only [hrst, hdoall, Bool.or_self, Bool.false_eq_true, if_false] at hv
  by_cases hindex : hashEa g addr = hashEa g i.m.addr
  · -- the entry of the command: it is cleared, written, or left alone
    by_cases hie : i.m.tlbie = true
    · simp [hie, hindex] at hv
    rw [Bool.not_eq_true] at hie
    by_cases hld : i.m.tlbld = true
    · simp only [hrst, hie, hld, hindex, Bool.not_false, Bool.and_self, beq_self_eq_true,
        if_true] at htag ⊢
      simp [loadedNext, hie, hld, epn_of_hashEa hindex htag.symm]
    · rw [Bool.not_eq_true] at hld
      simp only [hie, hld, Bool.and_false, Bool.false_and, Bool.false_eq_true, if_false]
        at hv htag ⊢
      rw [loadedNext_of_idle hie hld]
      exact h.itlb addr hv htag
  · have hne : epn i.m.addr ≠ epn addr := fun heq => hindex (hashEa_of_epn heq.symm)
    have hbeq : (hashEa g addr == hashEa g i.m.addr) = false := by simpa using hindex
    rw [loadedNext_of_ne hdoall fun _ => hne]
    simp only [hbeq, hindex, Bool.and_false, Bool.false_eq_true, if_false, ite_self] at hv htag ⊢
    exact h.itlb addr hv htag

/-- The entry that was read at the edge is still what is loaded for the page. -/
theorem Inv.port_step (h : Inv t) (ho : Ordered t i)
    (hcheck : tlbcheckNext t.fetch i = true) (hhit : itlbHit (step t.fetch i) = true) :
    loadedNext t i (epn (step t.fetch i).r.nia) = some (step t.fetch i).itlbPte := by
  simp only [tlbcheckNext, Bool.and_eq_true] at hcheck
  have hadvance : advanceNia t.fetch i = true := by
    have hstart := hcheck.2
    simp only [startCheck, Bool.and_eq_true] at hstart
    exact hstart.1.1.1.1
  obtain ⟨hall, hne⟩ := ho.lookup hcheck.2
  simp only [itlbHit, step, rNext, hadvance, if_true, Bool.and_eq_true, beq_iff_eq] at hhit ⊢
  rw [loadedNext_of_ne hall hne]
  exact h.itlb _ hhit.2 hhit.1

/-- An ERAT hit gives the real page and checks the privilege. -/
theorem Inv.translated_of_settles (h : Inv t) (hadvance : advanceNia t.fetch i = true)
    (hset : settles t.fetch i = true) : Translated (trackedStep t i) := by
  intro hvirt
  change (rNext t.fetch i).virtMode = true at hvirt
  simp only [settles, hvirt, Bool.not_true, Bool.false_or, Bool.and_eq_true,
    Bool.not_eq_true'] at hset
  obtain ⟨hdiv, hstall⟩ := hset
  have hvm : virtMode t.fetch i = true := by simpa [rNext, hadvance, hdiv] using hvirt
  simp only [tlbstallNext, fetchFailNext, hdiv, Bool.not_false, Bool.true_and,
    Bool.or_eq_false_iff] at hstall
  obtain ⟨hfail, hcheck, hstart⟩ := hstall
  have hhit : ehit t.fetch i = true := by
    by_contra hmiss
    rw [Bool.not_eq_true] at hmiss
    simp only [hmiss, hvm, Bool.not_true, Bool.or_self, Bool.false_eq_true, if_false] at hfail
    simp [startCheck, hadvance, hmiss, hvm, hcheck, hfail] at hstart
  simp only [hhit, Bool.true_or, if_true] at hfail
  have hcopy : Copy t (epn (nextNia t.fetch i)) (nextRpn t.fetch i) (eaaPriv t.fetch i) := by
    unfold nextRpn eaaPriv
    cases hsel : eratSel t.fetch i with
    | true =>
      simp only [eratSel, Bool.and_eq_true, beq_iff_eq] at hsel
      simpa [hvm, hsel.1] using h.erat1 hsel.2
    | false =>
      simp only [ehit, hsel, Bool.false_or, Bool.and_eq_true, beq_iff_eq] at hhit
      simpa [hvm, hhit.1] using h.erat0 hhit.2
  obtain ⟨pte, hload, hrpn, hpriv⟩ := hcopy
  refine ⟨pte, ?_, ?_, fun hp => ?_⟩
  · simpa [trackedStep, hadvance] using hload
  · simpa [trackedStep, step, rNext, hadvance] using hrpn
  · rw [← hpriv] at hp
    simp only [hp, Bool.true_and, Bool.not_eq_false'] at hfail
    simp [trackedStep, step, rNext, hadvance, hfail]

/-- A held request register is translated if it was. -/
theorem Translated.hold (h : Translated t) (hadvance : advanceNia t.fetch i = false) :
    Translated (trackedStep t i) := by
  simpa [Translated, trackedStep, step, rNext, hadvance] using h

/-- A register that is held was sent, or carries the stop mark. -/
theorem Inv.translated_of_hold (h : Inv t) (hadvance : advanceNia t.fetch i = false) :
    Translated t ∨ t.fetch.rInt.tlbcheck = true := by
  simp only [advanceNia, Bool.or_eq_false_iff, Bool.and_eq_false_iff, Bool.not_eq_false',
    Bool.and_eq_true] at hadvance
  rcases hadvance.2 with hstop | ⟨hreq, -⟩
  · exact h.stopMark hstop
  · exact .inl (h.req hreq)

theorem Inv.req_step (h : Inv t) (hreq : reqNext t.fetch i = true) :
    Translated (trackedStep t i) := by
  simp only [reqNext, Bool.and_eq_true, Bool.not_eq_true'] at hreq
  obtain ⟨⟨-, hdiv⟩, hstall⟩ := hreq
  cases hadvance : advanceNia t.fetch i with
  | true => exact h.translated_of_settles hadvance (by simp [settles, hdiv, hstall])
  | false =>
    refine Translated.hold ?_ hadvance
    rcases h.translated_of_hold hadvance with htr | hcheck
    · exact htr
    · simp [tlbstallNext, hdiv, hcheck] at hstall

theorem Inv.stop_step (h : Inv t) (ho : Ordered t i) (hstop : i.stopIn = true) :
    Translated (trackedStep t i) ∨ tlbcheckNext t.fetch i = true := by
  have hcond := ho.stop hstop
  cases hadvance : advanceNia t.fetch i with
  | true =>
    simp only [hadvance, if_true] at hcond
    rcases hcond with hcheck | hset
    · exact .inr hcheck
    · exact .inl (h.translated_of_settles hadvance hset)
  | false =>
    simp only [hadvance, Bool.false_eq_true, if_false] at hcond
    rcases h.translated_of_hold hadvance with htr | hcheck
    · exact .inl (htr.hold hadvance)
    · exact absurd hcheck (by simp [hcond])

theorem Inv.step (h : Inv t) (ho : Ordered t i) : Inv (trackedStep t i) where
  erat0 := h.erat_step.1
  erat1 := h.erat_step.2
  itlb := h.itlb_step
  port := h.port_step ho
  req := h.req_step
  stopMark := h.stop_step ho

/-! ### Requests -/

/-- **Every request goes to the page that was loaded for it.** In every run whose events are
ordered, with any redirects, stalls, interrupts and commands of the MMU, a request in virtual mode
carries the real page number of the PTE that was loaded for its effective page and not invalidated
up to the cycle in which the address was translated, and it is in privileged mode if the PTE asks
for it. -/
theorem translation_sound (h : Reachable trackedStep Ordered Start t)
    (hreq : (iOut t.fetch i).req = true) (hvirt : (iOut t.fetch i).virtMode = true) :
    ∃ pte, t.entry = some pte ∧ (iOut t.fetch i).rpn = pteRpn pte ∧
      (ptePriv pte = true → (iOut t.fetch i).privMode = true) := by
  have hinv : Inv t := h.induct (fun _ h0 => h0.inv) (fun _ _ hi ho => hi.step ho)
  exact hinv.req hreq hvirt

section Runs

def loads (addr pte : BitVec 64) : Inputs := { m := { tlbld := true, addr := addr, pte := pte } }

/-- Writeback sends the unit to an address in virtual mode. -/
def jumps (addr : BitVec 64) : Inputs :=
  { w := { redirect := true, virtMode := true, privMode := true, redirectNia := addr } }

/-- Two pages are loaded, so that only the second one is in the ERAT, and the first is fetched. -/
def fetchFirst : List Inputs :=
  [loads 0x10000 0x40000, loads 0x11000 0x50000, jumps 0x10000, {}, {}]

theorem translation_sound_fetchFirst :
    let t := run trackedStep { fetch := ({} : State .default) } fetchFirst
    t.fetch.r.nia = 0x10000 ∧ t.entry = some 0x40000 ∧ t.fetch.r.rpn = 0x40 := by
  have hrun : Allowed trackedStep Ordered { fetch := ({} : State .default) } fetchFirst ∧
      (let t := run trackedStep { fetch := ({} : State .default) } fetchFirst
       t.fetch.r.nia = 0x10000 ∧ t.fetch.r.req = true ∧ t.fetch.r.virtMode = true ∧
        t.entry = some 0x40000) := by decide +kernel
  have hstart : Start { fetch := ({} : State .default) } := by constructor <;> intros <;> rfl
  have hreach := reachable_run hstart hrun.1
  obtain ⟨-, hnia, hreq, hvirt, hentry⟩ := hrun
  revert hreach hnia hreq hvirt hentry
  generalize run trackedStep _ fetchFirst = t
  intro hreach hnia hreq hvirt hentry
  obtain ⟨pte, hpte, hrpn, -⟩ := translation_sound (i := {}) hreach hreq hvirt
  rw [hentry, Option.some.injEq] at hpte
  refine ⟨hnia, hentry, hrpn.trans ?_⟩
  rw [← hpte]
  rfl

/-- The same with the first page invalidated in the cycle in which the ITLB is read for it. -/
def invalidated : List Inputs :=
  [loads 0x10000 0x40000, loads 0x11000 0x50000,
    { jumps 0x10000 with m := { tlbie := true, addr := 0x10000 } }, {}, {}]

/-- The same with the core stopped for the cycle in which the ITLB is checked. -/
def stopped : List Inputs :=
  [loads 0x10000 0x40000, loads 0x11000 0x50000, jumps 0x10000, { stopIn := true }, {}]

/-- The invalidated page is fetched from, and the stopped core goes on with the page of another
address. -/
theorem translation_unsound_invalidated_stopped :
    (let t := run trackedStep { fetch := ({} : State .default) } invalidated
     t.fetch.r.req = true ∧ t.fetch.r.virtMode = true ∧ t.fetch.r.fetchFail = false ∧
      t.fetch.r.nia = 0x10000 ∧ t.fetch.r.rpn = 0x40 ∧ t.entry = none) ∧
    (let t := run trackedStep { fetch := ({} : State .default) } stopped
     t.fetch.r.req = true ∧ t.fetch.r.virtMode = true ∧ t.fetch.r.fetchFail = false ∧
      t.fetch.r.nia = 0x10000 ∧ t.entry = some 0x40000 ∧ t.fetch.r.rpn = 0x50) := by
  decide +kernel

end Runs

end Fetch1

end Microwatt
