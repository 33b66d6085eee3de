import Mathlib.Tactic.MkIffOfInductiveProp
import Microwatt.Lib.Clocked
import Microwatt.Control.Basic

/-!
# Hazard tracking in control

What the tag registers mean. Control never sees an instruction again after issuing it, only the
tag that comes back on `complete_in`; the question is whether `valid`, `recent` and `reg` still
tell which instruction will produce a register's value once tags are reused, completions and
allocations of one tag meet in a cycle, and flushes wipe everything.

The instructions themselves are followed by a list kept beside the unit, newest first:
`Tracked.inFlight`. An issue puts one in front, a completion drops the last, a reset or a flush
empties the list. The environment is asked for the two things the rest of the core provides:
completions arrive in issue order, and never more than `TAG_COUNT` instructions are outstanding.

## Main results

* `Control.Inv.step` — the invariant: the held tags are those of the list, and `recent` marks
  the youngest writer of its register
* `Control.pendingWrite_iff` — a tag is one to wait for exactly when it belongs to the youngest
  writer in flight
* `Control.hazard_tracking` — over every run: at most one such tag for each register, the tag of
  the youngest writer, and an instruction that is let out reads no register whose youngest writer
  is not being served in that cycle
-/

namespace Microwatt

open Clocked List

namespace Control

/-! ### The instructions in flight -/

/-- What matters here of an issued instruction: its tag and the register it writes. -/
structure Instr where
  tag : TagNumber
  wrGpr : Bool
  reg : GsprIndex
  deriving DecidableEq, Repr

/-- Does the instruction write register `R`? -/
def Instr.writes (R : GsprIndex) (e : Instr) : Bool := e.wrGpr && e.reg == R

/-- The unit together with the issued, not completed and not flushed instructions, the youngest
in front. -/
structure Tracked where
  ctl : State
  inFlight : List Instr

variable {b : Ex1Bypass}

/-- The instruction issued in this cycle, if one is. -/
def issued (b : Ex1Bypass) (s : State) (i : Inputs) : List Instr :=
  if (instrTag b s i).valid then
    [⟨(instrTag b s i).tag, gprWriteValid b s i, i.gprWriteIn⟩]
  else []

variable {s : State} {i : Inputs} {t : Tracked}

theorem issued_of_not_valid (hv : (instrTag b s i).valid = false) : issued b s i = [] := by
  simp [issued, hv]

theorem issued_of_valid (hv : (instrTag b s i).valid = true) :
    issued b s i = [⟨s.currTag, gprWriteValid b s i, i.gprWriteIn⟩] := by
  rw [issued, if_pos hv]
  rfl

/-- A completion takes out the oldest instruction. -/
def retire (i : Inputs) (q : List Instr) : List Instr :=
  if i.completeIn.valid then q.dropLast else q

def Tracked.step (b : Ex1Bypass) (t : Tracked) (i : Inputs) : Tracked where
  ctl := Control.step b t.ctl i
  inFlight :=
    if i.rst || i.flushIn then [] else issued b t.ctl i ++ retire i t.inFlight

/-- Completions arrive in issue order, and at most `TAG_COUNT` instructions are outstanding. -/
@[mk_iff]
structure Env (b : Ex1Bypass) (t : Tracked) (i : Inputs) : Prop where
  inOrder : i.completeIn.valid = true →
    t.inFlight.getLast?.map Instr.tag = some i.completeIn.tag
  bounded : (t.step b i).inFlight.length ≤ tagCount

instance (b : Ex1Bypass) (t : Tracked) (i : Inputs) : Decidable (Env b t i) :=
  decidable_of_iff _ (env_iff ..).symm

/-- Nothing is in flight after a reset. -/
def Tracked.Init (t : Tracked) : Prop := IsReset t.ctl ∧ t.inFlight = []

/-- The tag of the youngest instruction in flight that writes `R`. -/
def youngestWriter (q : List Instr) (R : GsprIndex) : Option TagNumber :=
  (q.find? (Instr.writes R)).map Instr.tag

/-! ### Tags are handed out in order

Going from the youngest instruction to the oldest, the tags count down from the next one to be
handed out. With no more than `TAG_COUNT` of them they are distinct. -/

/-- The tags of `q` count down from `c`, which is not among them yet. -/
def CountsDown : List Instr → TagNumber → Prop
  | [], _ => True
  | e :: q, c => e.tag + 1 = c ∧ CountsDown q e.tag

theorem CountsDown.of_append : ∀ {l r : List Instr} {c : TagNumber},
    CountsDown (l ++ r) c → CountsDown l c
  | [], _, _, _ => trivial
  | _ :: _, _, _, h => ⟨h.1, of_append h.2⟩

theorem CountsDown.tag_add : ∀ {q : List Instr} {c : TagNumber}, CountsDown q c →
    ∀ {k : ℕ} {e : Instr}, q[k]? = some e → (e.tag.val + k + 1) % tagCount = c.val
  | [], _, _, _, _, he => by simp at he
  | e₀ :: q, c, h, 0, e, he => by
    obtain rfl : e₀ = e := by simpa using he
    rw [← h.1, Fin.val_add]
    rfl
  | e₀ :: q, c, h, k + 1, e, he => by
    have hrest : (e.tag.val + k + 1) % tagCount = e₀.tag.val :=
      CountsDown.tag_add h.2 (by simpa using he)
    have hfirst : (e₀.tag.val + 1) % tagCount = c.val := by
      rw [← h.1, Fin.val_add]
      rfl
    simp only [tagCount] at hrest hfirst ⊢
    omega

/-- The next tag is free as long as one of the `TAG_COUNT` is. -/
theorem CountsDown.tag_ne {q : List Instr} {c : TagNumber} (h : CountsDown q c)
    (hlen : q.length < tagCount) {e : Instr} (he : e ∈ q) : e.tag ≠ c := by
  obtain ⟨k, hk, hek⟩ := getElem_of_mem he
  have hadd := h.tag_add (List.getElem?_eq_some_iff.mpr ⟨hk, hek⟩)
  intro heq
  have hc := c.isLt
  rw [heq] at hadd
  simp only [tagCount] at hadd hlen hc
  omega

/-- Different instructions in flight hold different tags. -/
theorem CountsDown.tag_ne_of_append {l r : List Instr} {e : Instr} {c : TagNumber}
    (h : CountsDown (l ++ e :: r) c) (hlen : (l ++ e :: r).length ≤ tagCount) {x : Instr}
    (hx : x ∈ l ∨ x ∈ r) : x.tag ≠ e.tag := by
  have he := h.tag_add (k := l.length) (e := e) (by simp)
  simp only [length_append, length_cons] at hlen
  intro heq
  rcases hx with hx | hx
  · obtain ⟨k, hk, hek⟩ := getElem_of_mem hx
    have hx' := h.tag_add (k := k) (e := x) (by
      rw [getElem?_append_left hk]
      exact List.getElem?_eq_some_iff.mpr ⟨hk, hek⟩)
    rw [heq] at hx'
    simp only [tagCount] at he hx' hlen
    omega
  · obtain ⟨k, hk, hek⟩ := getElem_of_mem hx
    have hx' := h.tag_add (k := l.length + (k + 1)) (e := x) (by
      rw [getElem?_append_right (Nat.le_add_right _ _)]
      simpa using List.getElem?_eq_some_iff.mpr ⟨hk, hek⟩)
    rw [heq] at hx'
    simp only [tagCount] at he hx' hlen
    omega

theorem CountsDown.nodup_tags : ∀ {q : List Instr} {c : TagNumber}, CountsDown q c →
    q.length ≤ tagCount → (q.map Instr.tag).Nodup
  | [], _, _, _ => nodup_nil
  | e :: q, c, h, hlen => by
    rw [map_cons, nodup_cons]
    refine ⟨fun he => ?_, h.2.nodup_tags ((Nat.le_succ _).trans hlen)⟩
    obtain ⟨x, hx, htag⟩ := mem_map.mp he
    have hne : x.tag ≠ e.tag :=
      CountsDown.tag_ne_of_append (l := []) (r := q) (e := e) h hlen (.inr hx)
    exact hne htag

/-! ### The invariant -/

/-- What the tag registers say about the instructions in flight. -/
structure Inv (t : Tracked) : Prop where
  /-- The tags were handed out in order. -/
  order : CountsDown t.inFlight t.ctl.currTag
  /-- No more instructions are followed than there are tags. -/
  bounded : t.inFlight.length ≤ tagCount
  /-- A tag is held exactly by the instructions in flight. -/
  held : ∀ u, (t.ctl.tagRegs u).valid = true ↔ ∃ e ∈ t.inFlight, e.tag = u
  /-- The holder's register is recorded, and is marked recent until a younger one writes it. -/
  entry : ∀ l e r, t.inFlight = l ++ e :: r →
    (t.ctl.tagRegs e.tag).reg = e.reg ∧
      (t.ctl.tagRegs e.tag).recent = (e.wrGpr && !l.any (Instr.writes e.reg))

theorem Inv.init (h : t.Init) : Inv t := by
  obtain ⟨⟨hregs, -⟩, hq⟩ := h
  refine ⟨by rw [hq]; trivial, by rw [hq]; simp, fun u => ?_, fun l e r hsplit => ?_⟩
  · simp [hq, (hregs u).2.2.2]
  · simp [hq] at hsplit

/-- The registers of a tag nothing happens to in this cycle, but for the `recent` bit. -/
theorem nextTagReg_of_ne {u : TagNumber} (hissue : (instrTag b s i).valid = true → u ≠ s.currTag)
    (hdone : i.completeIn.valid = true → u ≠ i.completeIn.tag) :
    (nextTagReg b s i u).valid = (s.tagRegs u).valid ∧
      (nextTagReg b s i u).reg = (s.tagRegs u).reg ∧
      (nextTagReg b s i u).recent = ((s.tagRegs u).recent &&
        !((issued b s i).any (Instr.writes (s.tagRegs u).reg))) := by
  have hc : (i.completeIn.valid && u == i.completeIn.tag) = false := by
    cases hv : i.completeIn.valid with
    | false => simp
    | true => simpa using hdone hv
  cases hv : (instrTag b s i).valid with
  | false => simp [nextTagReg, issued, hv, hc]
  | true =>
    have hu : u ≠ s.currTag := hissue hv
    by_cases hw : gprWriteValid b s i = true ∧ (s.tagRegs u).reg = i.gprWriteIn
    · simp [nextTagReg, issued, hv, hc, hu, hw, Instr.writes]
    · have hw' : (gprWriteValid b s i && (s.tagRegs u).reg == i.gprWriteIn) = false := by
        simpa using hw
      have hw'' : (gprWriteValid b s i && i.gprWriteIn == (s.tagRegs u).reg) = false := by
        rw [← hw', Bool.beq_comm]
      simp [nextTagReg, issued, hv, hc, hu, hw', hw'', Instr.writes]

/-- A completion that is not overtaken by an allocation releases its tag. -/
theorem nextTagReg_complete (hv : i.completeIn.valid = true)
    (hissue : (instrTag b s i).valid = true → i.completeIn.tag ≠ s.currTag) :
    (nextTagReg b s i i.completeIn.tag).valid = false := by
  cases ht : (instrTag b s i).valid with
  | false => simp [nextTagReg, ht, hv, TagRegister.complete]
  | true =>
    have hu : i.completeIn.tag ≠ s.currTag := hissue ht
    by_cases hw : gprWriteValid b s i = true ∧
        (s.tagRegs i.completeIn.tag).reg = i.gprWriteIn
    · simp [nextTagReg, hv, ht, hu, hw, TagRegister.complete]
    · have hw' : (gprWriteValid b s i &&
          (s.tagRegs i.completeIn.tag).reg == i.gprWriteIn) = false := by simpa using hw
      simp [nextTagReg, hv, ht, hu, hw', TagRegister.complete]

/-- The tag handed out takes over the instruction's register. -/
theorem nextTagReg_issue (hv : (instrTag b s i).valid = true) :
    (nextTagReg b s i s.currTag).valid = true ∧
      (nextTagReg b s i s.currTag).reg = i.gprWriteIn ∧
      (nextTagReg b s i s.currTag).recent = gprWriteValid b s i := by
  simp [nextTagReg, hv]

/-- In-order completion, read on the list: the oldest instruction goes. -/
theorem retire_split (henv : Env b t i) :
    (i.completeIn.valid = false ∧ retire i t.inFlight = t.inFlight) ∨
      ∃ e, e.tag = i.completeIn.tag ∧ i.completeIn.valid = true ∧
        t.inFlight = retire i t.inFlight ++ [e] := by
  cases hv : i.completeIn.valid with
  | false => exact .inl ⟨rfl, by simp [retire, hv]⟩
  | true =>
    refine .inr ?_
    obtain ⟨e, he, htag⟩ := Option.map_eq_some_iff.mp (henv.inOrder hv)
    obtain ⟨l, hl⟩ := getLast?_eq_some_iff.mp he
    exact ⟨e, htag, rfl, by simp [retire, hv, hl]⟩

theorem Inv.order_retire (h : Inv t) (henv : Env b t i) :
    CountsDown (retire i t.inFlight) t.ctl.currTag := by
  rcases retire_split henv with ⟨-, hq⟩ | ⟨e, -, -, hq⟩
  · rw [hq]; exact h.order
  · have horder := h.order
    rw [hq] at horder
    exact horder.of_append

theorem inFlight_step (hrun : (i.rst || i.flushIn) = false) :
    (t.step b i).inFlight = issued b t.ctl i ++ retire i t.inFlight := by
  simp [Tracked.step, hrun]

section

variable (h : Inv t) (henv : Env b t i) (hrun : (i.rst || i.flushIn) = false)

include h henv hrun

/-- An instruction that stays in flight neither completes nor gives its tag away. -/
theorem Inv.tag_ne_of_stays {e : Instr} (he : e ∈ retire i t.inFlight) :
    ((instrTag b t.ctl i).valid = true → e.tag ≠ t.ctl.currTag) ∧
      (i.completeIn.valid = true → e.tag ≠ i.completeIn.tag) := by
  refine ⟨fun hv => (h.order_retire henv).tag_ne ?_ he, fun hv => ?_⟩
  · have hbound := henv.bounded
    have hlen : (issued b t.ctl i).length = 1 := by rw [issued_of_valid hv]; rfl
    rw [inFlight_step hrun, length_append, hlen] at hbound
    omega
  · rcases retire_split henv with ⟨hno, -⟩ | ⟨x, hx, -, hsplit⟩
    · rw [hv] at hno; cases hno
    · rw [← hx]
      have horder := h.order
      have hlen := h.bounded
      rw [hsplit] at horder hlen
      exact horder.tag_ne_of_append hlen (.inl he)

theorem Inv.held_step (u : TagNumber) : (nextTagReg b t.ctl i u).valid = true ↔
    ∃ e ∈ issued b t.ctl i ++ retire i t.inFlight, e.tag = u := by
  by_cases hcur : (instrTag b t.ctl i).valid = true ∧ u = t.ctl.currTag
  · obtain ⟨hv, rfl⟩ := hcur
    simp [(nextTagReg_issue hv).1, issued_of_valid hv]
  · have hissue : (instrTag b t.ctl i).valid = true → u ≠ t.ctl.currTag := fun hv hu =>
      hcur ⟨hv, hu⟩
    have hnew : ¬ ∃ e ∈ issued b t.ctl i, e.tag = u := by
      rintro ⟨e, he, rfl⟩
      cases hv : (instrTag b t.ctl i).valid with
      | false => simp [issued_of_not_valid hv] at he
      | true =>
        rw [issued_of_valid hv, mem_singleton] at he
        exact hissue hv (by rw [he])
    simp only [mem_append, or_and_right, exists_or, hnew, false_or]
    by_cases hdone : i.completeIn.valid = true ∧ u = i.completeIn.tag
    · obtain ⟨hv, rfl⟩ := hdone
      rw [nextTagReg_complete hv hissue]
      simp only [Bool.false_eq_true, false_iff, not_exists, not_and]
      exact fun e he => (h.tag_ne_of_stays henv hrun he).2 hv
    · rw [(nextTagReg_of_ne hissue fun hv hu => hdone ⟨hv, hu⟩).1, h.held u]
      rcases retire_split henv with ⟨-, hsame⟩ | ⟨x, hx, hv, hsplit⟩
      · rw [hsame]
      · have hxu : x.tag ≠ u := fun hxu => hdone ⟨hv, by rw [← hxu, hx]⟩
        generalize retire i t.inFlight = q at hsplit ⊢
        rw [hsplit]
        simp [hxu]

/-- The entry of an instruction that stays in flight. -/
theorem Inv.entry_step {l r : List Instr} {e : Instr} (hl : retire i t.inFlight = l ++ e :: r) :
    (nextTagReg b t.ctl i e.tag).reg = e.reg ∧ (nextTagReg b t.ctl i e.tag).recent =
      (e.wrGpr && !(issued b t.ctl i ++ l).any (Instr.writes e.reg)) := by
  obtain ⟨hissue, hdone⟩ := h.tag_ne_of_stays henv hrun (e := e) (by rw [hl]; simp)
  have hkeep := nextTagReg_of_ne hissue hdone
  have hent : (t.ctl.tagRegs e.tag).reg = e.reg ∧
      (t.ctl.tagRegs e.tag).recent = (e.wrGpr && !l.any (Instr.writes e.reg)) := by
    rcases retire_split henv with ⟨-, hsame⟩ | ⟨x, -, -, hx⟩
    · exact h.entry l e r (by rw [← hsame]; exact hl)
    · exact h.entry l e (r ++ [x]) (by rw [hx, hl]; simp)
  rw [hkeep.2.1, hkeep.2.2, hent.1, hent.2, any_append]
  refine ⟨rfl, ?_⟩
  cases e.wrGpr <;> cases l.any (Instr.writes e.reg) <;> simp

theorem Inv.step_run : Inv (t.step b i) := by
  have hrst : i.rst = false := (Bool.or_eq_false_iff.mp hrun).1
  have hflight := inFlight_step (b := b) (t := t) hrun
  have hregs : ∀ u, (t.step b i).ctl.tagRegs u = nextTagReg b t.ctl i u := by
    intro u; simp [Tracked.step, Control.step, hrun]
  refine ⟨?_, henv.bounded, fun u => ?_, fun l e r hsplit => ?_⟩
  · have hcurr : (t.step b i).ctl.currTag = nextTag b t.ctl i := by
      simp [Tracked.step, Control.step, hrst]
    rw [hflight, hcurr]
    have hqord := h.order_retire henv
    cases hv : (instrTag b t.ctl i).valid with
    | false => simpa [issued_of_not_valid hv, nextTag, hv] using hqord
    | true => simpa [issued_of_valid hv, nextTag, hv, CountsDown] using hqord
  · rw [hregs, hflight]
    exact h.held_step henv hrun u
  · rw [hflight] at hsplit
    rw [hregs]
    cases hv : (instrTag b t.ctl i).valid with
    | false =>
      rw [issued_of_not_valid hv] at hsplit
      simpa [issued_of_not_valid hv] using h.entry_step henv hrun hsplit
    | true =>
      rw [issued_of_valid hv, singleton_append] at hsplit
      cases l with
      | nil =>
        -- the instruction issued just now
        obtain ⟨rfl, rfl⟩ := cons.inj hsplit
        have hnew := nextTagReg_issue (b := b) hv
        exact ⟨hnew.2.1, by simpa using hnew.2.2⟩
      | cons x l =>
        -- an older one, with the new instruction in front
        obtain ⟨rfl, hrest⟩ := cons.inj hsplit
        have hold := h.entry_step henv hrun hrest
        rwa [issued_of_valid hv] at hold

end

theorem Inv.step (h : Inv t) (henv : Env b t i) : Inv (t.step b i) := by
  cases hrun : (i.rst || i.flushIn) with
  | false => exact h.step_run henv hrun
  | true =>
    have hq : (t.step b i).inFlight = [] := by simp [Tracked.step, hrun]
    refine ⟨by rw [hq]; trivial, by rw [hq]; simp, fun u => ?_, fun l e r hsplit => ?_⟩
    · rw [hq]
      simp [Tracked.step, Control.step, hrun, TagRegister.complete]
    · simp [hq] at hsplit

/-! ### Reading the invariant -/

/-- A tag is one to wait for exactly when it belongs to the youngest writer in flight. -/
theorem pendingWrite_iff (h : Inv t) (u : TagNumber) (R : GsprIndex) :
    pendingWrite t.ctl u R = true ↔ youngestWriter t.inFlight R = some u := by
  rw [youngestWriter, Option.map_eq_some_iff]
  simp only [pendingWrite, Bool.and_eq_true, beq_iff_eq]
  constructor
  · rintro ⟨⟨hv, hrec⟩, hreg⟩
    obtain ⟨e, he, rfl⟩ := (h.held u).mp hv
    obtain ⟨l, r, hsplit⟩ := append_of_mem he
    obtain ⟨hreg', hrec'⟩ := h.entry l e r hsplit
    rw [hrec', Bool.and_eq_true] at hrec
    rw [hreg'] at hreg
    subst hreg
    refine ⟨e, find?_eq_some_iff_append.mpr ⟨by simp [Instr.writes, hrec.1], l, r,
      hsplit, fun x hx => ?_⟩, rfl⟩
    have hno := hrec.2
    rw [Bool.not_eq_true', any_eq_false] at hno
    simpa using hno x hx
  · rintro ⟨e, he, rfl⟩
    obtain ⟨hw, l, r, hsplit, hno⟩ := find?_eq_some_iff_append.mp he
    obtain ⟨hreg, hrec⟩ := h.entry l e r hsplit
    simp only [Instr.writes, Bool.and_eq_true, beq_iff_eq] at hw
    obtain ⟨hwr, rfl⟩ := hw
    refine ⟨⟨(h.held e.tag).mpr ⟨e, by rw [hsplit]; simp, rfl⟩, ?_⟩, hreg⟩
    rw [hrec, hwr, Bool.true_and, Bool.not_eq_true', any_eq_false]
    exact fun x hx => by simpa using hno x hx

/-- The loop over the tags, when the tag to wait for is unique: it is that tag, unless it is
served in this cycle. -/
theorem hazardTag_valid {R : GsprIndex} {u : TagNumber}
    (hu : ∀ t, pendingWrite s t R = true ↔ t = u) :
    (hazardTag b s i true R).valid = !served b i ⟨u, true⟩ := by
  have hstep : ∀ acc t, hazardStep b s i true R acc t =
      if t = u then ⟨u, !served b i ⟨u, true⟩⟩ else acc := by
    intro acc t
    by_cases ht : t = u
    · subst ht
      have hp : pendingWrite s t R = true := (hu t).mpr rfl
      cases hsv : served b i ⟨t, true⟩ <;> simp [hazardStep, hp, hsv]
    · have hp : pendingWrite s t R = false := by
        rw [← Bool.not_eq_true]
        exact fun hc => ht ((hu t).mp hc)
      simp [hazardStep, hp, ht]
  have hfold : hazardTag b s i true R = (finRange tagCount).foldl
      (fun acc t => if t = u then ⟨u, !served b i ⟨u, true⟩⟩ else acc) instrTagInit := by
    unfold hazardTag
    congr 1
    funext acc t
    exact hstep acc t
  rw [hfold]
  -- four turns, of which exactly the one for `u` assigns
  match u with
  | 0 | 1 | 2 | 3 => rfl

/-- Nothing holds back an operand port when `valid_out` is set. -/
theorem hazardTags_of_validOut (h : validOut b s i = true) :
    (tagA b s i).valid = false ∧ (tagB b s i).valid = false ∧ (tagC b s i).valid = false := by
  simp only [validOut] at h
  split at h
  · cases h
  · rename_i hstall
    simp only [gprTagStall, Bool.or_eq_true, not_or, Bool.not_eq_true] at hstall
    exact ⟨hstall.1.1.1.1.1, hstall.1.1.1.1.2, hstall.1.1.1.2⟩

/-- One operand port of an instruction that is let out. -/
theorem served_of_hazardTag (h : Inv t) {R : GsprIndex}
    (hclear : (hazardTag b t.ctl i true R).valid = false) :
    youngestWriter t.inFlight R = none ∨
      ∃ u, youngestWriter t.inFlight R = some u ∧ served b i ⟨u, true⟩ = true := by
  cases hy : youngestWriter t.inFlight R with
  | none => exact .inl rfl
  | some u =>
    refine .inr ⟨u, rfl, ?_⟩
    have huniq : ∀ v, pendingWrite t.ctl v R = true ↔ v = u := by
      intro v
      rw [pendingWrite_iff h, hy, Option.some.injEq, eq_comm]
    rw [hazardTag_valid huniq] at hclear
    simpa using hclear

/-- The operand ports: is `R` read through one of them? -/
def Reads (i : Inputs) (R : GsprIndex) : Prop :=
  (i.gprAReadValidIn = true ∧ i.gprAReadIn = R) ∨ (i.gprBReadValidIn = true ∧ i.gprBReadIn = R) ∨
    (i.gprCReadValidIn = true ∧ i.gprCReadIn = R)

/-- **Hazard tracking.** Along every run from reset in which completions arrive in issue order
and at most `TAG_COUNT` instructions are outstanding: for every register at most one tag is
valid, recent and assigned to it; if an instruction in flight writes the register, that tag is
the youngest such instruction's; and an instruction that is let out reads only registers with no
writer in flight, or whose youngest writer is served by a bypass or completing in that cycle. -/
theorem hazard_tracking {t : Tracked}
    (h : Reachable (Tracked.step b) (Env b) Tracked.Init t) (R : GsprIndex) :
    (∀ u v, pendingWrite t.ctl u R = true → pendingWrite t.ctl v R = true → u = v) ∧
      (∀ u, youngestWriter t.inFlight R = some u → pendingWrite t.ctl u R = true) ∧
      ∀ i, validOut b t.ctl i = true → Reads i R →
        (∀ e ∈ t.inFlight, e.writes R = false) ∨
          ∃ u, youngestWriter t.inFlight R = some u ∧
            ((b = true ∧ tagMatch i.executeNextBypass.tag ⟨u, true⟩ = true) ∨
              (b = true ∧ tagMatch i.execute2NextBypass.tag ⟨u, true⟩ = true) ∨
              tagMatch i.completeIn ⟨u, true⟩ = true) := by
  have hinv : Inv t := h.induct (fun _ => Inv.init) fun _ _ hi henv => hi.step henv
  refine ⟨fun u v hu hv => ?_, fun u hu => (pendingWrite_iff hinv u R).mpr hu,
    fun i hout hread => ?_⟩
  · rw [pendingWrite_iff hinv] at hu hv
    exact Option.some.inj (hu.symm.trans hv)
  · obtain ⟨ha, hb, hc⟩ := hazardTags_of_validOut hout
    have hclear : (hazardTag b t.ctl i true R).valid = false := by
      rcases hread with ⟨hr, rfl⟩ | ⟨hr, rfl⟩ | ⟨hr, rfl⟩
      · rw [← hr]; exact ha
      · rw [← hr]; exact hb
      · rw [← hr]; exact hc
    rcases served_of_hazardTag hinv hclear with hnone | ⟨u, hu, hserved⟩
    · refine .inl fun e he => ?_
      rw [youngestWriter, Option.map_eq_none_iff, find?_eq_none] at hnone
      simpa using hnone e he
    · refine .inr ⟨u, hu, ?_⟩
      simpa [served, or_assoc] using hserved

/-- The unit just after reset, with every field of the tag registers cleared. -/
def resetState : Tracked where
  ctl :=
    { tagRegs := fun _ => ⟨false, 0, false, false, false, false⟩
      currTag := 0, currCrTag := 0, currOvTag := 0, prevTag := 0 }
  inFlight := []

/-- An instruction is offered that writes `r3`; everything else is quiet. -/
def writeR3 : Inputs where
  rst := false
  completeIn := instrTagInit
  validIn := true
  flushIn := false
  deferred := false
  serialize := false
  stopMarkIn := false
  gprWriteValidIn := true
  gprWriteIn := 3
  gprAReadValidIn := false
  gprAReadIn := 0
  gprBReadValidIn := false
  gprBReadIn := 0
  gprCReadValidIn := false
  gprCReadIn := 0
  executeNextBypass := ⟨instrTagInit, 0, 0⟩
  execute2NextBypass := ⟨instrTagInit, 0, 0⟩
  writebackBypass := ⟨instrTagInit, 0, 0⟩
  executeNextCrTag := instrTagInit
  execute2NextCrTag := instrTagInit
  crReadIn := false
  crWriteIn := false
  ovReadIn := false
  ovWriteIn := false

/-- A reader of `r3` in the cycle in which tag 1 is on the first bypass. -/
def readR3 : Inputs :=
  { writeR3 with
    gprAReadValidIn := true, gprAReadIn := 3, executeNextBypass := ⟨⟨1, true⟩, 3, 0⟩ }

theorem reachable_writeR3_twice :
    Reachable (Tracked.step true) (Env true) Tracked.Init
      (run (Tracked.step true) resetState [writeR3, writeR3]) := by
  refine reachable_run ⟨?_, rfl⟩ ⟨⟨?_, ?_⟩, ⟨?_, ?_⟩, trivial⟩
  · exact ⟨fun _ => ⟨rfl, rfl, rfl, rfl⟩, rfl, rfl, rfl, rfl⟩
  all_goals decide

/-- Two writers of `r3` are in flight, under the tags 0 and 1. Tag 1 alone is to be waited for,
and it is the one whose result lets the reader out. -/
theorem hazard_tracking_writeR3_twice :
    let t := run (Tracked.step true) resetState [writeR3, writeR3]
    (∀ u, pendingWrite t.ctl u 3 = true → u = 1) ∧ validOut true t.ctl readR3 = true ∧
      ((∀ e ∈ t.inFlight, e.writes 3 = false) ∨
        ∃ u, youngestWriter t.inFlight 3 = some u ∧
          ((true = true ∧ tagMatch readR3.executeNextBypass.tag ⟨u, true⟩ = true) ∨
            (true = true ∧ tagMatch readR3.execute2NextBypass.tag ⟨u, true⟩ = true) ∨
            tagMatch readR3.completeIn ⟨u, true⟩ = true)) := by
  obtain ⟨huniq, hyoung, hout⟩ := hazard_tracking reachable_writeR3_twice 3
  exact ⟨fun u hu => huniq u 1 hu (hyoung 1 (by decide)), by decide,
    hout readR3 (by decide) (.inl ⟨rfl, rfl⟩)⟩

end Control

end Microwatt
