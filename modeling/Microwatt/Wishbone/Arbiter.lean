import Mathlib.Data.List.FinRange
import Microwatt.Interfaces
import Microwatt.Lib.Clocked

/-!
# The wishbone arbiter

`wishbone_arbiter.vhdl`. The register `selected` follows the first master that asks for the bus
whenever the selected one does not, and up to four masters are connected in that very cycle.

The slave knows nothing of masters: it acks its requests in their order. So the queue of the
masters whose requests it owes an ack is kept beside the register, and what decides the matter is
that every entry of the queue is `selected`.

## Main definitions

* `Arbiter.earlySel`, `Arbiter.slaveOut`, `Arbiter.mastersOut` — who is connected
* `Arbiter.Tracked` — the register, and what the slave owes

## Main results

* `Arbiter.acks_are_owed`
-/

namespace Microwatt

namespace Arbiter

variable {n : ℕ}

/-- The ports, for `n + 1` masters. -/
structure Inputs (n : ℕ) where
  rst : Bool := false
  masters : Fin (n + 1) → WishboneMasterOut
  slave : WishboneSlaveOut

section Muxes

variable (selected : Fin (n + 1)) (c : Inputs n)

def busy : Bool := (c.masters selected).cyc

/-- `candidate`: the assignment for the lowest number comes last. -/
def candidate : Fin (n + 1) :=
  (List.finRange (n + 1)).foldr (fun i other => if (c.masters i).cyc then i else other) selected

def earlySel : Fin (n + 1) :=
  if n + 1 ≤ 4 ∧ busy selected c = false then candidate selected c else selected

def slaveOut : WishboneMasterOut := c.masters (earlySel selected c)

/-- `wb_masters_out`. -/
def mastersOut (i : Fin (n + 1)) : WishboneSlaveOut where
  dat := c.slave.dat
  ack := if earlySel selected c = i ∧ (c.masters i).cyc = true then c.slave.ack else false
  stall := if earlySel selected c = i ∧ (c.masters i).cyc = true then c.slave.stall else true

/-- The register `selected` after a clock edge. -/
def selectedNext : Fin (n + 1) :=
  if c.rst then 0 else if busy selected c = false then candidate selected c else selected

/-- A request of master `i` is accepted. -/
def accepts (i : Fin (n + 1)) : Bool :=
  (c.masters i).cyc && (c.masters i).stb && !(mastersOut selected c i).stall

/-- The masters whose requests are accepted. -/
def accepted : List (Fin (n + 1)) := (List.finRange (n + 1)).filter (accepts selected c)

end Muxes

/-- The arbiter, the masters that the slave owes an ack, and what each master has seen since the
last reset. -/
structure Tracked (n : ℕ) where
  selected : Fin (n + 1)
  owed : List (Fin (n + 1)) := []
  requests : Fin (n + 1) → ℕ := fun _ => 0
  acks : Fin (n + 1) → ℕ := fun _ => 0

namespace Tracked

variable (t : Tracked n) (c : Inputs n)

/-- The masters that the slave owes an ack, with those it accepts a request of. -/
def owedNow : List (Fin (n + 1)) := t.owed ++ accepted t.selected c

/-- One clock edge. A reset is one of the whole system. -/
def step : Tracked n where
  selected := selectedNext t.selected c
  owed := if c.rst then [] else (t.owedNow c).drop c.slave.ack.toNat
  requests m := if c.rst then 0 else t.requests m + (accepts t.selected c m).toNat
  acks m := if c.rst then 0 else t.acks m + (mastersOut t.selected c m).ack.toNat

/-- Any master may be selected at first. -/
def Init : Prop := t.owed = [] ∧ t.requests = (fun _ => 0) ∧ t.acks = fun _ => 0

end Tracked

/-- A master holds `cyc` until its requests are acked. The slave acks requests that it has
accepted, at the earliest in the same cycle, and while `cyc` is there. -/
structure Env (t : Tracked n) (c : Inputs n) : Prop where
  hold : ∀ m ∈ t.owed, (c.masters m).cyc = true
  ack : c.slave.ack = true → (slaveOut t.selected c).cyc = true ∧ t.owedNow c ≠ []

theorem accepts_eq_true {selected i : Fin (n + 1)} {c : Inputs n} :
    accepts selected c i = true ↔ i = earlySel selected c ∧
      ((c.masters i).cyc = true ∧ (c.masters i).stb = true ∧ c.slave.stall = false) := by
  by_cases h : earlySel selected c = i ∧ (c.masters i).cyc = true
  · simp [accepts, mastersOut, h]
  · simp only [accepts, mastersOut, if_neg h]
    simp only [Bool.not_true, Bool.and_false, Bool.false_eq_true, false_iff]
    exact fun hi => h ⟨hi.1.symm, hi.2.1⟩

theorem earlySel_of_busy {selected : Fin (n + 1)} {c : Inputs n}
    (h : (c.masters selected).cyc = true) : earlySel selected c = selected := by
  simp [earlySel, busy, h]

/-- The master that is connected stays selected. -/
theorem selectedNext_of_cyc {selected : Fin (n + 1)} {c : Inputs n} (hrst : c.rst = false)
    (h : (slaveOut selected c).cyc = true) : selectedNext selected c = earlySel selected c := by
  unfold selectedNext slaveOut earlySel at *
  cases hb : busy selected c with
  | true => simp [hrst]
  | false =>
    simp only [hb, and_true] at h ⊢
    by_cases hn : n + 1 ≤ 4
    · simp [hrst, hn]
    · rw [if_neg hn] at h
      rw [busy, h] at hb
      cases hb

/-- Acks are owed to the selected master only, and the counts agree. -/
structure Inv (t : Tracked n) : Prop where
  owner : ∀ m ∈ t.owed, m = t.selected
  count : ∀ m, t.requests m = t.acks m + t.owed.count m

section

variable {t : Tracked n} {c : Inputs n} (h : Inv t) (he : Env t c)

include h he

/-- With the requests accepted now, acks are owed to the master that is connected. -/
theorem Inv.owner_now :
    ∀ m ∈ t.owedNow c, m = earlySel t.selected c ∧ (c.masters m).cyc = true := by
  intro m hm
  rcases List.mem_append.mp hm with hm | hm
  · have hcyc := he.hold m hm
    obtain rfl := h.owner m hm
    exact ⟨(earlySel_of_busy hcyc).symm, hcyc⟩
  · obtain ⟨hsel, hcyc, -⟩ := accepts_eq_true.mp (List.mem_filter.mp hm).2
    exact ⟨hsel, hcyc⟩

/-- An ack reaches the master that has waited longest. -/
theorem Inv.ack_iff (m : Fin (n + 1)) : (mastersOut t.selected c m).ack = true ↔
    c.slave.ack = true ∧ (t.owedNow c).head? = some m := by
  simp only [mastersOut, Bool.if_false_right, Bool.and_eq_true, decide_eq_true_eq]
  constructor
  · rintro ⟨⟨rfl, -⟩, hack⟩
    obtain ⟨first, rest, hq⟩ := List.exists_cons_of_ne_nil (he.ack hack).2
    have hfirst := (h.owner_now he first (by simp [hq])).1
    exact ⟨hack, by simp [hq, hfirst]⟩
  · rintro ⟨hack, hhead⟩
    obtain ⟨hsel, hcyc⟩ := h.owner_now he m (List.mem_of_mem_head? (by simp [hhead]))
    exact ⟨⟨hsel.symm, hcyc⟩, hack⟩

theorem Inv.step : Inv (t.step c) := by
  cases hrst : c.rst with
  | true => exact ⟨by simp [Tracked.step, hrst], by simp [Tracked.step, hrst]⟩
  | false =>
    refine ⟨fun m hm => ?_, fun m => ?_⟩
    · simp only [Tracked.step, hrst] at hm ⊢
      obtain ⟨rfl, hcyc⟩ := h.owner_now he m (List.mem_of_mem_drop hm)
      exact (selectedNext_of_cyc hrst hcyc).symm
    · have hnew : (accepted t.selected c).count m = (accepts t.selected c m).toNat := by
        rw [accepted]
        cases hm : accepts t.selected c m with
        | true =>
          rw [List.count_filter hm]
          exact List.count_eq_one_of_mem (List.nodup_finRange _) (List.mem_finRange m)
        | false => exact List.count_eq_zero.mpr fun hin => by simp [hm] at hin
      have hnow : (t.owedNow c).count m = (mastersOut t.selected c m).ack.toNat +
          ((t.owedNow c).drop c.slave.ack.toNat).count m := by
        have hiff := h.ack_iff he m
        cases hack : c.slave.ack with
        | false => simp [hack] at hiff ⊢; simp [hiff]
        | true =>
          obtain ⟨first, rest, hq⟩ := List.exists_cons_of_ne_nil (he.ack hack).2
          simp only [hack, hq, List.head?_cons, Option.some.injEq, true_and] at hiff ⊢
          by_cases hm : first = m
          · simp [hiff.mpr hm, hm, add_comm]
          · have hno : (mastersOut t.selected c m).ack = false := by simpa [hm] using hiff
            simp [hno, hm]
      have hold := h.count m
      rw [Tracked.owedNow, List.count_append, hnew] at hnow
      simp only [Tracked.step, hrst]
      simp only [Bool.false_eq_true, if_false, Tracked.owedNow]
      omega

end

/-- **Each master gets one ack for each of its accepted requests, and no other.** What it has been
acked and what is still owed to it are its accepted requests; an ack goes to the master that has
waited longest, and to no other. The slave accepts a request exactly when one of a master is
accepted, and it is the one that the slave sees. At most one is accepted in a cycle, and the
selected master does not change while an ack is owed to it. -/
theorem acks_are_owed {t : Tracked n}
    (h : Clocked.Reachable Tracked.step Env Tracked.Init t) {c : Inputs n} (he : Env t c) :
    (∀ m, t.requests m = t.acks m + t.owed.count m) ∧
    (∀ m, (mastersOut t.selected c m).ack = true ↔
      c.slave.ack = true ∧ (t.owedNow c).head? = some m) ∧
    ((slaveOut t.selected c).cyc = true ∧ (slaveOut t.selected c).stb = true ∧
        c.slave.stall = false ↔ ∃ m, accepts t.selected c m = true) ∧
    (∀ m, accepts t.selected c m = true → slaveOut t.selected c = c.masters m) ∧
    (∀ m m', accepts t.selected c m = true → accepts t.selected c m' = true → m = m') ∧
    (t.selected ∈ t.owed → c.rst = false → (t.step c).selected = t.selected) := by
  have hinv : Inv t := by
    refine h.induct ?_ fun t c ht hc => ht.step hc
    rintro t ⟨howed, hreq, hack⟩
    exact ⟨by simp [howed], by simp [howed, hreq, hack]⟩
  refine ⟨hinv.count, hinv.ack_iff he, ?_, fun m hm => ?_, fun m m' hm hm' => ?_,
    fun hsel hrst => ?_⟩
  · simp only [accepts_eq_true, exists_eq_left, slaveOut]
  · rw [slaveOut, (accepts_eq_true.mp hm).1]
  · rw [(accepts_eq_true.mp hm).1, (accepts_eq_true.mp hm').1]
  · have hcyc := he.hold _ hsel
    simp [Tracked.step, selectedNext, hrst, busy, hcyc]

/-- Master 1 of three has made a request, and waits for the ack while master 0 asks for the bus. -/
theorem acks_are_owed_waiting : ∃ (t : Tracked 2) (c : Inputs 2),
    t.owed = [1] ∧ c.slave.ack = true ∧ (mastersOut t.selected c 1).ack = true := by
  let req : Inputs 2 :=
    ⟨false, fun m => { cyc := decide (m = 1), stb := decide (m = 1) }, {}⟩
  let c : Inputs 2 := ⟨false, fun m => { cyc := decide (m ≠ 2), stb := true }, { ack := true }⟩
  have hreach : Clocked.Reachable Tracked.step Env Tracked.Init (.step { selected := 0 } req) :=
    .tick (.start ⟨rfl, rfl, rfl⟩) ⟨by decide, by decide⟩
  have hc := acks_are_owed hreach (c := c) ⟨by decide, by decide⟩
  exact ⟨_, c, by decide, rfl, (hc.2.1 1).mpr ⟨rfl, by decide⟩⟩

end Arbiter

end Microwatt
