import Microwatt.Mmu.PwcSearch
import Microwatt.Mmu.TlbTable

/-!
# The page walk cache as a table

The search in the page walk cache is the lookup (`pwc_search`). The walk may end a search before it
has its answer, since a hit in the TLB is enough for it. The page walk cache is idle in the next
cycle then, whatever it has found out.

## Main results

* `Mmu.PwcRun.search` — a search comes to its answer, or the walk ends it
* `Mmu.pwc_search` — the answer is what the lookup finds
-/

namespace Microwatt

namespace Mmu

/-! ### Runs -/

/-- A run of the page walk cache: its registers and its RAM step by step. The walk may do
anything. -/
def PwcRun (s : ℕ → State) (l : ℕ → Loadstore1ToMmu) : Prop :=
  ∀ t, (s (t + 1)).pr = prin (s t) (l t) ∧ (s (t + 1)).pwc = pwcNext (s t) (l t)

/-- The idle page walk cache is asked for the translation of an address that can be cached. The
PID and the address bits 51 to 21 are those of the request. -/
structure PwcAsks (s : State) (l : Loadstore1ToMmu) (pid : BitVec 12) (a : BitVec 31) : Prop where
  idle : s.pr.state = .idle
  valid : l.valid = true
  tlbie : l.tlbie = false
  good : badEa l.addr = false
  pid_eq : requestPid l s.r.pid = pid
  addr_eq : l.addr.extractLsb' 21 31 = a

/-- The answer of the page walk cache: it says hit if one of the three sets holds an entry for the
address and miss otherwise. The entry that the lookup finds is in the output register and
`hit_size` is its level. -/
structure PwcAnswers (s : State) (pid : BitVec 12) (a : BitVec 31) : Prop where
  state : s.pr.state = .waitw
  hit : s.pr.hit = true ↔
    ∃ level way, PwcMatch (entryAt s.pwc.words (hashLevel level a pid) way) (hashLevel level a pid)
      level pid a
  miss : s.pr.miss = !s.pr.hit
  entry : ∀ level way, pwcLookup s.pwc.words pid a = some (level, way) →
    s.pr.hitSize = level ∧ s.pwc.rdreg = (entryAt s.pwc.words (hashLevel level a pid) way).body

/-- A search that takes no more cycles has its answer. -/
theorem PwcReg.waitw_of_rank {pr : PwcReg} (h : pr.state.inSearch = true) (h0 : pr.rank = 0) :
    pr.state = .waitw := by
  unfold PwcReg.rank at h0
  cases hst : pr.state <;> rw [hst] at h <;> simp only [hst] at h0 <;> try split_ifs at h0
  all_goals first | rfl | omega | cases h

/-- The walk is done with the request. -/
def walkEnds (s : State) : Bool := s.r.done || s.r.err

/-- What a search knows at its end is the answer. -/
theorem PwcBusy.answers {s : State} (hb : PwcBusy s.pr s.pwc) (hst : s.pr.state = .waitw) :
    PwcAnswers s s.pr.pid s.pr.addr := by
  obtain ⟨hlook, hmiss, hreg⟩ := hb.data_at hst
  refine ⟨hst, ⟨fun hh => ?_, ?_⟩, hmiss, fun level way hw => ?_⟩
  · rw [hh, if_pos rfl] at hlook
    exact ⟨_, _, pwcHit_iff.mp (pwcLookup_hit hlook)⟩
  · rintro ⟨level, way, hm⟩
    by_contra hno
    rw [if_neg hno] at hlook
    have hfalse := pwcLookup_eq_none hlook level way
    rw [pwcHit_iff.mpr hm] at hfalse
    cases hfalse
  · rw [hlook] at hw
    split at hw
    · rename_i hh
      obtain ⟨rfl, rfl⟩ := Prod.mk.inj (Option.some.inj hw)
      refine ⟨rfl, ?_⟩
      rw [hreg hh, hb.hash]
    · cases hw

section

variable {s : ℕ → State} {l : ℕ → Loadstore1ToMmu} (h : PwcRun s l)

include h

/-- A search comes to its answer, or the walk ends it before. -/
theorem PwcRun.search (n : ℕ) {t : ℕ} (hb : PwcBusy (s t).pr (s t).pwc)
    (hgood : (s t).pr.badEa = false) (hrank : (s t).pr.rank ≤ n) :
    (∃ u, t ≤ u ∧ u ≤ t + n ∧ (s u).pr.state = .waitw ∧ PwcBusy (s u).pr (s u).pwc ∧
        (s u).pwc.words = (s t).pwc.words ∧ (s u).pr.pid = (s t).pr.pid ∧
        (s u).pr.addr = (s t).pr.addr ∧
        ∀ k, t ≤ k → k < u → (s k).pr.hit = false ∧ (s k).pr.miss = false) ∨
      ∃ k, t ≤ k ∧ k < t + n ∧ walkEnds (s k) = true ∧
        ∀ j, t ≤ j → j ≤ k → (s j).pr.hit = false ∧ (s j).pr.miss = false := by
  induction n generalizing t with
  | zero =>
    have hst := PwcReg.waitw_of_rank hb.state (Nat.le_zero.mp hrank)
    exact .inl ⟨t, le_rfl, le_rfl, hst, hb, rfl, rfl, rfl, fun k hk hk' => absurd hk' (by omega)⟩
  | succ n ih =>
    by_cases hst : (s t).pr.state = .waitw
    · exact .inl ⟨t, le_rfl, by omega, hst, hb, rfl, rfl, rfl,
        fun k hk hk' => absurd hk' (by omega)⟩
    have hopen := hb.open_ hst
    cases hq : walkEnds (s t) with
    | true =>
      refine .inr ⟨t, le_rfl, by omega, hq, fun j hj hj' => ?_⟩
      obtain rfl : j = t := by omega
      exact hopen
    | false =>
      obtain ⟨hpr, hpwc⟩ := h t
      have hb' : PwcBusy (s (t + 1)).pr (s (t + 1)).pwc := by
        rw [hpr, hpwc]
        exact hb.next hq hgood fun hc => absurd hc hst
      obtain ⟨haddr, hpid, hbad, -⟩ := prin_keeps (l := l t) hb.ne_idle
      have hrank' : (s (t + 1)).pr.rank ≤ n := by
        have hlt := hb.rank_step (l := l t) hq hst
        rw [← hpr] at hlt
        omega
      have hwords : (s (t + 1)).pwc.words = (s t).pwc.words := by
        rw [hpwc]
        exact pwcNext_words_search hb.state fun hc => absurd hc hst
      rw [← hpr] at haddr hpid hbad
      -- what holds at `t` joins what holds from `t + 1` on
      have hjoin : ∀ b, (∀ k, t + 1 ≤ k → k < b → (s k).pr.hit = false ∧ (s k).pr.miss = false) →
          ∀ k, t ≤ k → k < b → (s k).pr.hit = false ∧ (s k).pr.miss = false := by
        intro b hlater k hk hkb
        rcases Nat.eq_or_lt_of_le hk with rfl | hlt
        · exact hopen
        · exact hlater k hlt hkb
      rcases ih hb' (hbad.trans hgood) hrank' with
        ⟨u, htu, hun, hu, hbu, hw, hp, ha, hno⟩ | ⟨k, htk, hkn, hk, hno⟩
      · exact .inl ⟨u, by omega, by omega, hu, hbu, hw.trans hwords, hp.trans hpid, ha.trans haddr,
          hjoin u hno⟩
      · exact .inr ⟨k, by omega, by omega, hk, fun j hj hjk =>
          hjoin (k + 1) (fun i hi hik => hno i hi (by omega)) j hj (by omega)⟩

theorem PwcRun.asks {t : ℕ} {pid : BitVec 12} {a : BitVec 31} (ha : PwcAsks (s t) (l t) pid a)
    (hq : walkEnds (s t) = false) :
    PwcBusy (s (t + 1)).pr (s (t + 1)).pwc ∧ (s (t + 1)).pwc.words = (s t).pwc.words ∧
      (s (t + 1)).pr.pid = pid ∧ (s (t + 1)).pr.addr = a ∧ (s (t + 1)).pr.badEa = false := by
  obtain ⟨hpr, hpwc⟩ := h t
  rw [hpr, hpwc]
  refine ⟨PwcBusy.start ha.idle hq ha.valid ha.tlbie,
    writeWord_none _ (by simp [pwcOp, ha.idle]), ?_⟩
  simp [prin, ha.idle, ha.pid_eq, ha.addr_eq, ha.good]

end

/-- The address bits from the page boundary of the level up to bit 51 are the same. -/
def sameRegion (level : BitVec 2) (a a' : BitVec 31) : Prop :=
  ∀ k, 9 * level.toNat ≤ k → k < 31 → a.getLsbD k = a'.getLsbD k

theorem sameRegion_of_agree {level : BitVec 2} {a a' : BitVec 31}
    (h : Agree (levelShift level) (largePage a) (largePage a')) : sameRegion level a a' := by
  intro k hk hlt
  have hbit := h (k + 9) (by unfold levelShift; omega)
  rwa [getLsbD_largePage _ (by omega), getLsbD_largePage _ (by omega), Nat.add_sub_cancel] at hbit

/-- **The search in the page walk cache is the lookup.** Whatever the RAM holds, a request has its
answer after at most thirteen cycles and none before, unless the walk is done with it earlier. And
an entry of a level stands for one PID and one region: hash and tag determine them. -/
theorem pwc_search {s : ℕ → State} {l : ℕ → Loadstore1ToMmu} (h : PwcRun s l) :
    (∀ t pid a, PwcAsks (s t) (l t) pid a →
      (∃ u, t < u ∧ u ≤ t + 13 ∧ PwcAnswers (s u) pid a ∧ (s u).pwc.words = (s t).pwc.words ∧
          ∀ k, t < k → k < u → (s k).pr.hit = false ∧ (s k).pr.miss = false) ∨
        ∃ k, t ≤ k ∧ k < t + 13 ∧ walkEnds (s k) = true ∧
          ∀ j, t < j → j ≤ k → (s j).pr.hit = false ∧ (s j).pr.miss = false) ∧
    ∀ e set level pid pid' a a', PwcMatch e set level pid a → PwcMatch e set level pid' a' →
      pid = pid' ∧ sameRegion level a a' := by
  refine ⟨fun t pid a ha => ?_, fun e set level pid pid' a a' hm hm' => ?_⟩
  · cases hq : walkEnds (s t) with
    | true => exact .inr ⟨t, le_rfl, by omega, hq, fun j hj hj' => absurd hj' (by omega)⟩
    | false =>
      obtain ⟨hb, hw, rfl, rfl, hgood⟩ := h.asks ha hq
      rcases h.search 12 hb hgood (PwcReg.rank_le _) with
        ⟨u, htu, hun, hu, hbu, hwu, hp, had, hno⟩ | ⟨k, htk, hkn, hk, hno⟩
      · have hans := hbu.answers hu
        rw [hp, had] at hans
        exact .inl ⟨u, by omega, by omega, hans, hwu.trans hw, hno⟩
      · exact .inr ⟨k, by omega, by omega, hk, hno⟩
  · have hpid : pid = pid' := hm.pid_eq.symm.trans hm'.pid_eq
    exact ⟨hpid, sameRegion_of_agree (hm.unique (hpid ▸ hm'))⟩

/-- The first load finds nothing. The second one is to another page of the same directory, whose
entry the walk has written in the meantime. -/
theorem pwc_search_run :
    PwcRun pageRun pageOps ∧
      (∃ u, u ≤ 13 ∧ PwcAnswers (pageRun u) 0 0 ∧ pwcLookup (pageRun u).pwc.words 0 0 = none) ∧
      ∃ u, 20 < u ∧ u ≤ 33 ∧ PwcAnswers (pageRun u) 0 0 ∧
        pwcLookup (pageRun u).pwc.words 0 0 = some (0, 0) := by
  have h : PwcRun pageRun pageOps := fun _ => ⟨rfl, rfl⟩
  have hrun : (∀ k < 13, walkEnds (pageRun k) = false) ∧
      (∀ k < 33, 20 ≤ k → ¬(walkEnds (pageRun k) = true ∧
        ∀ j ≤ k, 20 < j → (pageRun j).pr.hit = false ∧ (pageRun j).pr.miss = false)) ∧
      (pageRun 20).pr.state = .idle ∧ requestPid (pageOps 20) (pageRun 20).r.pid = 0 ∧
      pwcLookup (pageRun 20).pwc.words 0 0 = some (0, 0) := by
    decide +kernel
  obtain ⟨hends, hends', hst, hpid, hfound⟩ := hrun
  refine ⟨h, ?_, ?_⟩
  · -- the walk has to wait for the tables
    rcases (pwc_search h).1 0 0 0 ⟨rfl, rfl, rfl, by decide, rfl, by decide⟩ with
      ⟨u, -, hu, hans, hwords, -⟩ | ⟨k, -, hk, hend, -⟩
    · exact ⟨u, by omega, hans, by rw [hwords]; decide⟩
    · rw [hends k (by omega)] at hend
      cases hend
  · rcases (pwc_search h).1 20 0 0 ⟨hst, rfl, rfl, by decide, hpid, by decide⟩ with
      ⟨u, hu, hu', hans, hwords, -⟩ | ⟨k, hk, hk', hend, hno⟩
    · exact ⟨u, hu, hu', hans, hwords ▸ hfound⟩
    · exact absurd ⟨hend, fun j hj hj' => hno j hj' hj⟩ (hends' k hk' hk)

end Mmu

end Microwatt
