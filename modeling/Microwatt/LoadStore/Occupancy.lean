import Microwatt.LoadStore.Pipeline

/-!
# What keeps loadstore1 busy

A request that interrupts, or that has to wait for the MMU or for the comparison of a hash, makes
stage 2 busy, and through it execute1 waits. So nothing younger leaves execute1 in the cycle in
which loadstore1 finds out that it has to interrupt.

## Main definitions

* `LoadStore.Slow` — what makes stage 2 busy does so as long as it is there

## Main results

* `LoadStore.Slow.step`, `LoadStore.Slow.not_advance_of_flush`
-/

namespace Microwatt

open Bool

namespace LoadStore

variable {b : Bool}

/-- An operation of the MMU is not misaligned. Decode gives it neither reservation nor hash. -/
def MmuAligned (i : Inputs) : Prop :=
  i.l.valid = true → i.l.op = .mtspr ∨ i.l.op = .tlbie ∨ i.l.op = .fetchFailed →
    i.l.reserve = false ∧ i.l.hash = false

/-- What makes stage 2 busy. -/
structure Slow (t : Tracked) : Prop where
  aligned1 : t.ls.r1.req.valid = true → t.ls.r1.req.mmuOp = true → t.ls.r1.req.alignIntr = false
  aligned2 : t.ls.r2.req.valid = true → t.ls.r2.req.mmuOp = true → t.ls.r2.req.alignIntr = false
  align : t.ls.r2.req.valid = true → t.ls.r2.req.alignIntr = true → t.ls.r2.busy = true
  hash : t.waiting = true → t.ls.r2.req.hashcmp = true → t.ls.r2.busy = true
  mmuOp : t.ls.r2.req.valid = true → t.ls.r2.req.mmuOp = true →
    t.ls.r2.busy = true ∧ t.ls.r2.waitMmu = true
  mmuWait : t.ls.r3.state = .mmuWait →
    t.ls.r2.busy = true ∧ t.ls.r2.waitMmu = true ∧ t.ls.r2.req.alignIntr = false

theorem Slow.init {t : Tracked} (h : t.Init b) : Slow t := by
  obtain ⟨⟨s, i, hrst, hls⟩, hw, -⟩ := h
  have h1 : t.ls.r1.req.valid = false := by simp [hls, LoadStore.step, hrst, Stage1.reset]
  have h2 : t.ls.r2.req.valid = false := by simp [hls, LoadStore.step, hrst, Stage2.reset]
  have h3 : t.ls.r3.state = .idle := by simp [hls, LoadStore.step, hrst, Stage3.reset]
  constructor <;> simp [h1, h2, h3, hw]

section Step

variable {t : Tracked} {i : Inputs}

theorem Slow.reset (hrst : i.rst = true) : Slow (t.step b i) := by
  constructor <;>
    simp [Tracked.step, LoadStore.step, hrst, Stage1.reset, Stage2.reset, Stage3.reset]

/-- What the request of stage 1 becomes keeps the kind of operation. -/
theorem stage1Req_aligned (h : Slow t) (hmmu : MmuAligned i)
    (hv : (stage1Req b t.ls i).valid = true) (hop : (stage1Req b t.ls i).mmuOp = true) :
    (stage1Req b t.ls i).alignIntr = false := by
  revert hv hop
  simp only [stage1Req]
  split
  · intro hv hop
    simp only [reqIn, loadstore1In, or_eq_true, beq_iff_eq, and_eq_true] at hop
    have hkind : i.l.op = .mtspr ∨ i.l.op = .tlbie ∨ i.l.op = .fetchFailed := by
      rcases hop with (h | h) | h
      · exact .inr (.inl h)
      · exact .inr (.inr h)
      · exact .inl h.1
    obtain ⟨hres, hhash⟩ := hmmu hv hkind
    simp only [reqIn, loadstore1In, alignIntrOf, hres, hhash]
    rcases hkind with hk | hk | hk <;> simp [hk]
  · split
    · exact h.aligned1
    · split
      · exact h.aligned1
      · intro hv hop
        simp only [and_eq_true] at hv
        exact h.aligned1 hv.2 hop

theorem Slow.step_aligned1 (h : Slow t) (hmmu : MmuAligned i)
    (hv : (r1in b t.ls i).req.valid = true) (hop : (r1in b t.ls i).req.mmuOp = true) :
    (r1in b t.ls i).req.alignIntr = false := by
  revert hv hop
  simp only [r1in]
  split
  · intro hv; cases hv
  · split
    · simp only [nextReq1]
      split <;> exact stage1Req_aligned h hmmu
    · exact h.aligned1

/-- A valid request in stage 2 was there before or has been taken over from stage 1, and nothing
interrupts it. -/
theorem r2in_valid (hv : (r2in t.ls i).req.valid = true) :
    interrupt2 t.ls i = false ∧ mmuOpDone t.ls i = false ∧
      ((takes t.ls i = true ∧ t.ls.r1.req.valid = true ∧
          (r2in t.ls i).req.alignIntr = t.ls.r1.req.alignIntr ∧
          (r2in t.ls i).req.mmuOp = t.ls.r1.req.mmuOp) ∨
        (takes t.ls i = false ∧ bubble t.ls i = false ∧ t.ls.r2.req.valid = true ∧
          (r2in t.ls i).req.alignIntr = t.ls.r2.req.alignIntr ∧
          (r2in t.ls i).req.mmuOp = t.ls.r2.req.mmuOp)) := by
  simp only [r2in, and_eq_true, not_eq_true'] at hv
  obtain ⟨⟨⟨hv, hbub⟩, hdone⟩, hintr⟩ := hv
  refine ⟨hintr, hdone, ?_⟩
  cases ht : takes t.ls i with
  | true =>
    simp only [nextReq2, ht, if_true] at hv
    exact .inl ⟨rfl, hv, by simp [r2in, nextReq2, ht, takenReq], by
      simp [r2in, nextReq2, ht, takenReq]⟩
  | false =>
    simp only [nextReq2, ht, false_eq_true, if_false] at hv
    exact .inr ⟨rfl, hbub, hv, by simp [r2in, nextReq2, ht], by simp [r2in, nextReq2, ht]⟩

theorem busy_of_takes (hinv : Inv b t) (ht : takes t.ls i = true)
    (hintr : interrupt2 t.ls i = false) :
    (r2in t.ls i).busy = (slowReq t.ls || (t.ls.r1.req.valid && t.ls.r1.req.mmuOp)) ∧
      (r2in t.ls i).waitMmu = (t.ls.r1.req.valid && t.ls.r1.req.mmuOp) := by
  obtain ⟨-, herr, hbusy⟩ := advance_iff.mp (advance_of_takes ht)
  have hwait : t.ls.r2.waitMmu = false := by
    by_contra hw
    have := hinv.waitMmu (by simpa using hw)
    rw [hbusy] at this
    cases this
  constructor <;> simp [r2in, hintr, herr, hbusy, hwait, mmuOpDone, ht]

theorem busy_of_waitMmu (hbusy : t.ls.r2.busy = true) (hwait : t.ls.r2.waitMmu = true)
    (hintr : interrupt2 t.ls i = false) (hdone : i.m.done = false) :
    (r2in t.ls i).busy = true ∧ (r2in t.ls i).waitMmu = true := by
  have ht : takes t.ls i = false := by simp [takes, advance, hbusy]
  have hbub : bubble t.ls i = false := by simp [bubble, advance, hbusy]
  constructor <;> simp [r2in, hintr, hbusy, hwait, hdone, mmuOpDone, ht, hbub]

theorem busy_of_align (hinv : Inv b t) (hv : (r2in t.ls i).req.valid = true)
    (ha : (r2in t.ls i).req.alignIntr = true) : (r2in t.ls i).busy = true := by
  obtain ⟨hintr, -, ⟨ht, hv1, ha1, -⟩ | ⟨-, -, hv2, ha2, -⟩⟩ := r2in_valid hv
  · rw [(busy_of_takes hinv ht hintr).1, slowReq, hv1, ← ha1, ha]
    rfl
  · -- it would have interrupted
    rw [ha2] at ha
    simp [interrupt2, hv2, ha] at hintr

theorem Slow.step_mmuOp (h : Slow t) (hinv : Inv b t) (hv : (r2in t.ls i).req.valid = true)
    (hop : (r2in t.ls i).req.mmuOp = true) :
    (r2in t.ls i).busy = true ∧ (r2in t.ls i).waitMmu = true := by
  obtain ⟨hintr, hdone, ⟨ht, hv1, -, hop1⟩ | ⟨-, -, hv2, -, hop2⟩⟩ := r2in_valid hv
  · obtain ⟨hb, hw⟩ := busy_of_takes hinv ht hintr
    rw [hop1] at hop
    simp [hb, hw, hv1, hop]
  · rw [hop2] at hop
    obtain ⟨hb, hw⟩ := h.mmuOp hv2 hop
    exact busy_of_waitMmu hb hw hintr (by simpa [mmuOpDone, hw, hop] using hdone)

variable (h : Slow t) (hinv : Inv b t) (henv : Env t i)

section

include h hinv henv

theorem Slow.step_hash (hrst : i.rst = false) (hflush : flush t.ls i = false)
    (hw : (t.step b i).waiting = true) (hhash : (t.step b i).ls.r2.req.hashcmp = true) :
    (r2in t.ls i).busy = true := by
  have hintr := interrupt2_of_not_flush hflush
  rcases waiting_cases henv hinv hrst hflush hw with ⟨ht, hv, -, -, -, hreq, -⟩ |
    ⟨ht, hw0, hnv, -, hreq, -⟩
  · have hhash1 : t.ls.r1.req.hashcmp = true := by rw [hreq] at hhash; exact hhash
    simp [(busy_of_takes hinv ht hintr).1, slowReq, hv, hhash1]
  · rw [hreq] at hhash
    have hmmu := (hinv.align2 hw0).2
    cases herr : i.d.error with
    | true => simp [r2in, hintr, herr]
    | false => simp [r2in, hintr, herr, hhash, hnv, mmuOpDone, hmmu, ht, h.hash hw0 hhash]

theorem Slow.step_mmuWait (hs : (r3in b t.ls i).state = .mmuWait) :
    (r2in t.ls i).busy = true ∧ (r2in t.ls i).waitMmu = true ∧
      (r2in t.ls i).req.alignIntr = false := by
  have hm : (i.m.done || i.m.err) = false := by
    by_contra hm
    simp [r3in, not_eq_false _ ▸ hm] at hs
  obtain ⟨hdone, herr⟩ := or_eq_false_iff.mp hm
  cases hmiss : dcacheMiss t.ls i with
  | true =>
    simp only [dcacheMiss, and_eq_true, not_eq_true'] at hmiss
    have hal := (hinv.align2 (henv.error hmiss.1).1).1
    have hintr : interrupt2 t.ls i = false := by
      simp [interrupt2, hal, dcacheIntr, hmiss.2, herr]
    have ht : takes t.ls i = false := by simp [takes, advance, hmiss.1]
    exact ⟨by simp [r2in, hintr, hmiss.1], by simp [r2in, hintr, hmiss.1], by
      simp [r2in, nextReq2, ht, hal]⟩
  | false =>
    -- an operation of the MMU that starts, or anything that waits for it already
    have hold : t.ls.r2.busy = true ∧ t.ls.r2.waitMmu = true ∧ t.ls.r2.req.alignIntr = false := by
      cases hst : mmuOpStart t.ls with
      | true =>
        simp only [mmuOpStart, and_eq_true] at hst
        obtain ⟨hb, hw⟩ := h.mmuOp hst.1.2 hst.2
        exact ⟨hb, hw, h.aligned2 hst.1.2 hst.2⟩
      | false => exact h.mmuWait (by simpa [r3in, hm, hmiss, hst] using hs)
    obtain ⟨hb, hw, hal⟩ := hold
    have ht : takes t.ls i = false := by simp [takes, advance, hb]
    have hal' : (r2in t.ls i).req.alignIntr = false := by simp [r2in, nextReq2, ht, hal]
    have hintr : interrupt2 t.ls i = false := by
      simp only [interrupt2, hal, herr, Bool.and_false, Bool.or_false, Bool.false_or]
      by_contra hd
      simp only [dcacheIntr, not_eq_false, and_eq_true] at hd
      -- the data cache reports no error for a request of the MMU
      obtain ⟨hwait, hidle⟩ := henv.error hd.1
      cases hst : mmuOpStart t.ls with
      | true =>
        simp only [mmuOpStart, and_eq_true] at hst
        rw [(hinv.align2 hwait).2] at hst
        cases hst.2
      | false => simp [r3in, hm, hmiss, hst, hidle] at hs
    obtain ⟨hb', hw'⟩ := busy_of_waitMmu hb hw hintr hdone
    exact ⟨hb', hw', hal'⟩

theorem Slow.step (hmmu : MmuAligned i) : Slow (t.step b i) := by
  cases hrst : i.rst with
  | true => exact Slow.reset hrst
  | false =>
    have hr1 := t.r1_step b hrst
    have hr2 := t.r2_step b hrst
    have hr3 := t.r3_step b hrst
    refine ⟨?_, ?_, ?_, fun hw hhash => ?_, ?_, ?_⟩
    · rw [hr1]; exact h.step_aligned1 hmmu
    · rw [hr2]
      intro hv hop
      obtain ⟨-, -, ⟨-, hv1, ha1, hop1⟩ | ⟨-, -, hv2, ha2, hop2⟩⟩ := r2in_valid hv
      · rw [ha1]; exact h.aligned1 hv1 (hop1 ▸ hop)
      · rw [ha2]; exact h.aligned2 hv2 (hop2 ▸ hop)
    · rw [hr2]; exact busy_of_align hinv
    · have hflush : flush t.ls i = false := by
        by_contra hf
        simp [Tracked.step, not_eq_false _ ▸ hf] at hw
      rw [hr2]
      exact h.step_hash hinv henv hrst hflush hw hhash
    · rw [hr2]; exact h.step_mmuOp hinv
    · rw [hr2, hr3]; exact h.step_mmuWait hinv henv

end

/-- **An interrupt is found while the stages stand still.** -/
theorem Slow.not_advance_of_flush (h : Slow t) (henv : Env t i) (hflush : flush t.ls i = true) :
    advance t.ls i = false := by
  simp only [flush, or_eq_true] at hflush
  rcases hflush with ((htrap | halign) | hintr) | herr
  · simp only [hashchkTrap, and_eq_true] at htrap
    simp [advance, h.hash (henv.answer htrap.1.1).1 htrap.1.2]
  · rw [and_eq_true] at halign
    simp [advance, h.align halign.1 halign.2]
  · simp only [dcacheIntr, and_eq_true] at hintr
    simp [advance, hintr.1]
  · simp [advance, (h.mmuWait (henv.mmu (by simp [herr])).2).1]

end Step

end LoadStore

end Microwatt
