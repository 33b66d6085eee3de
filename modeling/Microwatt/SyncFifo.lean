import Microwatt.Lib.Clocked
import Microwatt.Lib.Ring

/-!
# The synchronous FIFO

`sync_fifo.vhdl`. The two indices are equal both when nothing is held and when the memory is full;
the last operation that was not balanced by the other one tells which.

An index is of the subtype `index_t`, and so is the variable `r` of `next_index`. When `DEPTH` is
not a power of two, the assignment `r := idx + 1` of the last index is out of range, before the test
that is to bring it back to 0. A failed range check stops the design, here with `none`.

The next indices are concurrent assignments. They are evaluated when an input changes and once more
after the clock edge, when the index has moved and `push` and `pop` have not followed yet. So the
design stops as soon as an index has moved to the last place, not when it is to leave it.

## Main definitions

* `SyncFifo.clock` — a clock edge
* `SyncFifo.Queue.step` — the same for a bounded queue

## Main results

* `SyncFifo.Represents.next` — a clock edge is a step of the queue
* `SyncFifo.Low.run_iff` — when a range check fails
* `SyncFifo.refines_queue`
-/

namespace Microwatt

open Clocked Ring Option

namespace SyncFifo

variable {depth width : ℕ}

/-- `ispow2`, of `utils.vhdl`. -/
def ispow2 (i : ℕ) : Bool := BitVec.ofNat 32 i &&& BitVec.ofNat 32 (i - 1) == 0

/-- The range check of an assignment to a variable of the subtype `index_t`. -/
def toIndex (r : ℕ) : Option (Fin depth) := if h : r < depth then some ⟨r, h⟩ else none

def nextIndex (idx : Fin depth) : Option (Fin depth) :=
  if ispow2 depth then toIndex ((idx + 1) % depth)
  else do
    let r : Fin depth ← toIndex (idx + 1)
    if r.val = depth then toIndex 0 else some r

/-- The value of `rd_next` and `wr_next`: the index moves when the flag is set. -/
def nextWhen (moves : Bool) (idx : Fin depth) : Option (Fin depth) :=
  if moves then nextIndex idx else some idx

/-- A clock edge of an index. The range check of the next index does not wait for the end of a
reset, and it is made again when the index has changed and the flag has not yet. -/
def clockIndex (reset moves : Bool) (idx : Fin depth) : Option (Fin depth) := do
  let next ← nextWhen moves idx
  let idx' := if reset then ⟨0, idx.pos⟩ else next
  let _ ← nextWhen moves idx'
  return idx'

inductive Op
  | pop
  | push
  deriving DecidableEq

structure State (depth width : ℕ) where
  memory : Fin depth → BitVec width
  rdIdx : Fin depth
  wrIdx : Fin depth
  opPrev : Op

structure Inputs (width : ℕ) where
  reset : Bool := false
  wrValid : Bool := false
  wrData : BitVec width := 0
  rdReady : Bool := false

section Signals

variable (s : State depth width) (i : Inputs width)

def empty : Bool := s.rdIdx = s.wrIdx ∧ s.opPrev = .pop

def full : Bool := s.rdIdx = s.wrIdx ∧ s.opPrev = .push

def wrReady : Bool := i.rdReady || !full s

def rdValid : Bool := i.wrValid || !empty s

def push : Bool := wrReady s i && i.wrValid

def pop : Bool := i.rdReady && rdValid s i

def opNext : Op :=
  match push s i, pop s i with
  | true, false => .push
  | false, true => .pop
  | _, _ => s.opPrev

def rdData : BitVec width := if empty s = false then s.memory s.rdIdx else i.wrData

/-- The memory after the clock edge. -/
def memoryNext : Fin depth → BitVec width :=
  if !i.reset && push s i then Function.update s.memory s.wrIdx i.wrData else s.memory

/-- One clock edge. -/
def clock : Option (State depth width) := do
  let rd ← clockIndex i.reset (pop s i) s.rdIdx
  let wr ← clockIndex i.reset (push s i) s.wrIdx
  return ⟨memoryNext s i, rd, wr, if i.reset then .pop else opNext s i⟩

end Signals

/-- The FIFO with the words that were written to it and the words that were read from it. -/
structure Tracked (depth width : ℕ) where
  fifo : State depth width
  written : List (BitVec width) := []
  read : List (BitVec width) := []

namespace Tracked

variable (t : Tracked depth width) (i : Inputs width)

def step : Option (Tracked depth width) := do
  let fifo ← clock t.fifo i
  let written := t.written ++ if push t.fifo i then [i.wrData] else []
  let read := t.read ++ if pop t.fifo i then [rdData t.fifo i] else []
  return ⟨fifo, written, read⟩

/-- The words that were written and have not been read. -/
def held : List (BitVec width) := t.written.drop t.read.length

end Tracked

/-! ### The queue -/

namespace Queue

variable (depth : ℕ) (q : List (BitVec width)) (i : Inputs width)

/-- The word that is taken in, in a cycle in which there is room or one leaves. -/
def accepted : List (BitVec width) :=
  if i.wrValid = true ∧ (i.rdReady = true ∨ q.length < depth) then [i.wrData] else []

/-- The word that leaves, which may be the one that comes. -/
def given : List (BitVec width) := (q ++ accepted depth q i).take i.rdReady.toNat

/-- The words after the cycle. -/
def step : List (BitVec width) := (q ++ accepted depth q i).drop i.rdReady.toNat

/-- How many words are taken in over a run. -/
def total (depth : ℕ) : List (BitVec width) → List (Inputs width) → ℕ
  | _, [] => 0
  | q, i :: is => (accepted depth q i).length + total depth (step depth q i) is

theorem given_append_step : given depth q i ++ step depth q i = q ++ accepted depth q i :=
  List.take_append_drop _ _

end Queue

/-! ### The indices -/

theorem nextIndex_eq (idx : Fin depth) : nextIndex idx =
    if ispow2 depth = false ∧ idx.val + 1 = depth then none else some (slot idx 1) := by
  have hlt := idx.isLt
  cases hp : ispow2 depth with
  | true => simp [nextIndex, hp, toIndex, slot, Nat.mod_lt _ idx.pos]
  | false =>
    by_cases hlast : idx.val + 1 = depth
    · simp [nextIndex, hp, toIndex, hlast]
    · have hin : idx.val + 1 < depth := by omega
      simp [nextIndex, hp, toIndex, hin, hlast, slot, Nat.mod_eq_of_lt hin]

theorem nextWhen_eq (b : Bool) (idx : Fin depth) : nextWhen b idx =
    if ispow2 depth = false ∧ b = true ∧ idx.val + 1 = depth then none
    else some (slot idx b.toNat) := by
  cases b <;> simp [nextWhen, nextIndex_eq]

theorem clockIndex_eq (moves : Bool) (idx : Fin depth) : clockIndex false moves idx =
    if ispow2 depth = false ∧ (moves = true ∧
      (idx.val + 1 = depth ∨ (slot idx 1).val + 1 = depth)) then none
    else some (slot idx moves.toNat) := by
  simp only [clockIndex, nextWhen_eq]
  cases ispow2 depth <;> cases moves <;> simp
  by_cases hlast : idx.val + 1 = depth <;> by_cases hnext : (slot idx 1).val + 1 = depth <;>
    simp [hlast, hnext]

variable {s s' : State depth width} {q : List (BitVec width)} {i : Inputs width}

/-- What a clock edge does when no range check fails. -/
theorem clock_eq (hs : clock s i = some s') (hr : i.reset = false) : s' =
    ⟨if push s i then Function.update s.memory s.wrIdx i.wrData else s.memory,
      slot s.rdIdx (pop s i).toNat, slot s.wrIdx (push s i).toNat, opNext s i⟩ := by
  have hmoved : ∀ {b : Bool} {idx r : Fin depth}, clockIndex false b idx = some r →
      r = slot idx b.toNat := by
    intro b idx r h
    rw [clockIndex_eq] at h
    split at h
    · cases h
    · exact (Option.some.inj h).symm
  simp only [clock, memoryNext, hr, Option.bind_eq_bind, Option.bind_eq_some_iff] at hs
  obtain ⟨rd, hrd, wr, hwr, hs⟩ := hs
  cases hs
  rw [hmoved hrd, hmoved hwr]
  simp

/-! ### What is held -/

/-- The state holds the words of `q`. -/
structure Represents (s : State depth width) (q : List (BitVec width)) : Prop where
  bound : q.length ≤ depth
  memory : Ring.Holds s.memory s.rdIdx q
  wrIdx : s.wrIdx = slot s.rdIdx q.length
  opPop : q.length = 0 → s.opPrev = .pop
  opPush : q.length = depth → s.opPrev = .push

theorem Represents.write (h : Represents s q) (hq : q.length < depth) (d : BitVec width) :
    Represents ⟨Function.update s.memory s.wrIdx d, s.rdIdx, slot s.wrIdx 1, .push⟩
      (q ++ [d]) where
  bound := by simpa using Nat.succ_le_of_lt hq
  memory := by
    rw [h.wrIdx]
    exact h.memory.push hq d
  wrIdx := by simp [h.wrIdx, slot_slot]
  opPop := by simp
  opPush _ := rfl

theorem Represents.read {x : BitVec width} (h : Represents s (x :: q)) :
    Represents ⟨s.memory, slot s.rdIdx 1, s.wrIdx, .pop⟩ q where
  bound := (Nat.le_succ _).trans h.bound
  memory := h.memory.pop
  wrIdx := by rw [h.wrIdx, slot_slot, List.length_cons, Nat.add_comm]
  opPop _ := rfl
  opPush hq := absurd h.bound (by simp [hq])

/-- With one word in and one word out there is room in a full memory, and the last operation does
not count. -/
theorem Represents.read_write {x : BitVec width} (h : Represents s (x :: q)) (d : BitVec width) :
    Represents ⟨Function.update s.memory s.wrIdx d, slot s.rdIdx 1, slot s.wrIdx 1,
      s.opPrev⟩ (q ++ [d]) :=
  { h.read.write h.bound d with
    opPop := by simp
    opPush := fun hq => h.opPush (by simpa using hq) }

/-- A word that passes through leaves nothing behind. -/
theorem Represents.pass (h : Represents s []) (mem : Fin depth → BitVec width) :
    Represents ⟨mem, slot s.rdIdx 1, slot s.wrIdx 1, s.opPrev⟩ [] where
  bound := Nat.zero_le _
  memory k hk := absurd hk (Nat.not_lt_zero k)
  wrIdx := by simp [h.wrIdx]
  opPop := h.opPop
  opPush := h.opPush

/-! ### Outputs -/

section

variable (h : Represents s q)

include h

theorem Represents.idx_eq : s.rdIdx = s.wrIdx ↔ q.length = 0 ∨ q.length = depth := by
  rw [h.wrIdx, eq_comm, slot_eq_self h.bound]

theorem Represents.empty_iff : empty s = true ↔ q = [] := by
  rw [empty, decide_eq_true_eq, h.idx_eq, ← List.length_eq_zero_iff]
  constructor
  · rintro ⟨h0 | hn, hop⟩
    · exact h0
    · rw [h.opPush hn] at hop
      cases hop
  · intro h0
    exact ⟨.inl h0, h.opPop h0⟩

theorem Represents.full_iff : full s = true ↔ q.length = depth := by
  rw [full, decide_eq_true_eq, h.idx_eq]
  constructor
  · rintro ⟨h0 | hn, hop⟩
    · rw [h.opPop h0] at hop
      cases hop
    · exact hn
  · intro hn
    exact ⟨.inr hn, h.opPush hn⟩

variable (i : Inputs width)

theorem Represents.wrReady_iff : wrReady s i = false ↔ q.length = depth ∧ i.rdReady = false := by
  rw [wrReady, ← h.full_iff]
  cases full s <;> simp

theorem Represents.rdValid_iff : rdValid s i = false ↔ q = [] ∧ i.wrValid = false := by
  rw [rdValid, ← h.empty_iff]
  cases empty s <;> simp

theorem Represents.push_iff : push s i = true ↔
    i.wrValid = true ∧ (i.rdReady = true ∨ q.length < depth) := by
  rw [push, Bool.and_eq_true, and_comm, ← Bool.not_eq_false (wrReady s i),
    h.wrReady_iff, not_and_or, Bool.not_eq_false, h.bound.lt_iff_ne, or_comm]

theorem Represents.accepted_eq :
    Queue.accepted depth q i = if push s i then [i.wrData] else [] := by
  simp only [Queue.accepted, h.push_iff i]

theorem Represents.step_eq : Queue.step depth q i =
    (q ++ if push s i then [i.wrData] else []).drop (pop s i).toNat := by
  rw [Queue.step, h.accepted_eq, pop]
  cases hv : rdValid s i with
  | true => rw [Bool.and_true]
  | false =>
    obtain ⟨rfl, hw⟩ := (h.rdValid_iff i).mp hv
    simp [push, hw]

theorem Represents.given_eq :
    Queue.given depth q i = if pop s i then [rdData s i] else [] := by
  rw [Queue.given]
  cases hrd : i.rdReady with
  | false => simp [pop, hrd]
  | true =>
    have hempty := h.empty_iff
    cases q with
    | nil =>
      simp only [iff_true] at hempty
      cases hw : i.wrValid <;>
        simp [Queue.accepted, pop, rdValid, rdData, hempty, hrd, hw]
    | cons x q =>
      have hne : empty s = false := by simpa using hempty
      simp [pop, rdValid, rdData, hne, hrd, h.memory.head]

end

/-- **A clock edge is a step of the queue.** -/
theorem Represents.next (h : Represents s q) (hs : clock s i = some s')
    (hr : i.reset = false) : Represents s' (Queue.step depth q i) := by
  rw [h.step_eq, clock_eq hs hr]
  have hpush := h.push_iff i
  have hvalid := h.rdValid_iff i
  cases hin : push s i with
  | false =>
    cases hout : pop s i with
    | false => simpa [opNext, hin, hout] using h
    | true =>
      -- A word leaves, so `wr_ready` is there and it is the writer who has nothing.
      obtain ⟨hrd, hv⟩ := Bool.and_eq_true_iff.mp hout
      have hw : i.wrValid = false := by simpa [hin, hrd] using hpush
      cases q with
      | nil => simp [hv, hw] at hvalid
      | cons x q => simpa [opNext, hin, hout] using h.read
  | true =>
    obtain ⟨hw, hroom⟩ := hpush.mp hin
    cases hout : pop s i with
    | false =>
      have hrd : i.rdReady = false := by simpa [pop, rdValid, hw] using hout
      have hlt : q.length < depth := by simpa [hrd] using hroom
      simpa [opNext, hin, hout] using h.write hlt i.wrData
    | true =>
      cases q with
      | nil => simpa [opNext, hin, hout] using h.pass _
      | cons x q => simpa [opNext, hin, hout] using h.read_write i.wrData

/-! ### Runs -/

/-- After a reset nothing is held, whatever the memory has kept. -/
theorem represents_of_reset (hs : clock s i = some s') (hr : i.reset = true) :
    Represents s' [] ∧ s'.wrIdx.val = 0 := by
  have hzero : ∀ {b : Bool} {idx r : Fin depth}, clockIndex true b idx = some r →
      r = ⟨0, idx.pos⟩ := by
    intro b idx r h
    simp only [clockIndex, Option.bind_eq_bind, Option.bind_eq_some_iff] at h
    obtain ⟨_, -, _, -, h⟩ := h
    exact (Option.some.inj h).symm
  simp only [clock, hr, Option.bind_eq_bind, Option.bind_eq_some_iff] at hs
  obtain ⟨rd, hrd, wr, hwr, hs⟩ := hs
  cases hs
  rw [hzero hrd, hzero hwr]
  exact ⟨⟨Nat.zero_le _, fun k hk => absurd hk (Nat.not_lt_zero k), slot_zero.symm,
    fun _ => rfl, fun hd => absurd rd.pos (by simp [← hd])⟩, rfl⟩

theorem run_represents {is : List (Inputs width)} (his : ∀ i ∈ is, i.reset = false)
    {t t' : Tracked depth width} (h : Represents t.fifo q) (hq : t.written = t.read ++ q)
    (ht : is.foldlM Tracked.step t = some t') :
    Represents t'.fifo (run (Queue.step depth) q is) ∧
      t'.written = t'.read ++ run (Queue.step depth) q is := by
  induction is generalizing t q with
  | nil =>
    cases ht
    exact ⟨h, hq⟩
  | cons i is ih =>
    rw [List.foldlM_cons, Option.bind_eq_bind, Option.bind_eq_some_iff] at ht
    obtain ⟨t₁, ht₁, ht⟩ := ht
    simp only [Tracked.step, Option.bind_eq_bind, Option.bind_eq_some_iff] at ht₁
    obtain ⟨s, hs, ht₁⟩ := ht₁
    cases ht₁
    refine ih (fun j hj => his j (.tail _ hj)) (h.next hs (his i (.head _))) ?_ ht
    simp only [hq, ← h.accepted_eq, ← h.given_eq, List.append_assoc, Queue.given_append_step]

theorem exists_run (h : ispow2 depth = true) {is : List (Inputs width)}
    (his : ∀ i ∈ is, i.reset = false) (t : Tracked depth width) :
    ∃ t', is.foldlM Tracked.step t = some t' := by
  induction is generalizing t with
  | nil => exact ⟨t, rfl⟩
  | cons i is ih =>
    have hclock : ∃ s, clock t.fifo i = some s := by
      simp [clock, his i (.head _), clockIndex_eq, h]
    obtain ⟨s, hs⟩ := hclock
    simp only [List.foldlM_cons, Tracked.step, hs, Option.bind_eq_bind, bind_some]
    exact ih (fun j hj => his j (.tail _ hj)) _

/-! ### Other depths -/

theorem Represents.pop_imp (h : Represents s q) (hpop : pop s i = true) :
    0 < q.length ∨ push s i = true := by
  obtain ⟨hrd, hv⟩ := Bool.and_eq_true_iff.mp hpop
  by_cases hq : q = []
  · have hw : i.wrValid = true := by
      by_contra hw
      rw [(h.rdValid_iff i).mpr ⟨hq, by simpa using hw⟩] at hv
      cases hv
    exact .inr ((h.push_iff i).mpr ⟨hw, .inl hrd⟩)
  · exact .inl (List.length_pos_iff.mpr hq)

theorem Represents.length_accepted (h : Represents s q) :
    (Queue.accepted depth q i).length = (push s i).toNat := by
  rw [h.accepted_eq]
  cases push s i <;> rfl

theorem Represents.length_step (h : Represents s q) :
    (Queue.step depth q i).length + (pop s i).toNat = q.length + (push s i).toNat := by
  rw [h.step_eq, ← h.accepted_eq, List.length_drop, List.length_append, h.length_accepted]
  cases hout : pop s i with
  | false => simp
  | true =>
    rcases h.pop_imp hout with hpos | hpush
    · simp only [Bool.toNat_true]
      omega
    · simp [hpush]

/-- The indices have not come to the last place. Then they count the words. -/
structure Low (s : State depth width) (q : List (BitVec width)) : Prop extends
    Represents s q where
  idx : s.rdIdx.val + q.length = s.wrIdx.val
  room : s.wrIdx.val + 1 < depth

/-- Only the word that brings the write index to the last place stops the design. The read index
gets there with it at the earliest. -/
theorem Low.next (hp : ispow2 depth = false) (h : Low s q) (hr : i.reset = false) :
    push s i = true ∧ s.wrIdx.val + 2 = depth ∧ clock s i = none ∨
      ∃ s', clock s i = some s' ∧ Low s' (Queue.step depth q i) ∧
        s'.wrIdx.val = s.wrIdx.val + (Queue.accepted depth q i).length := by
  have hidx := h.idx
  have hroom := h.room
  have hslot : ∀ {j : Fin depth} {k : ℕ}, j.val + k < depth → (slot j k).val = j.val + k :=
    fun hlt => Nat.mod_eq_of_lt hlt
  have hwr1 : (slot s.wrIdx 1).val = s.wrIdx.val + 1 := hslot hroom
  have hrd1 : (slot s.rdIdx 1).val = s.rdIdx.val + 1 := hslot (by omega)
  by_cases hstop : push s i = true ∧ s.wrIdx.val + 2 = depth
  · obtain ⟨hpush, hlast⟩ := hstop
    have hwr : clockIndex false true s.wrIdx = none := by
      rw [clockIndex_eq, if_pos ⟨hp, rfl, .inr (by omega)⟩]
    refine .inl ⟨hpush, hlast, ?_⟩
    simp [clock, hr, hpush, hwr]
  · have hwr : clockIndex false (push s i) s.wrIdx =
        some (slot s.wrIdx (push s i).toNat) := by
      rw [clockIndex_eq, if_neg]
      rintro ⟨-, hpush, hlast⟩
      exact hstop ⟨hpush, by omega⟩
    have hrd : clockIndex false (pop s i) s.rdIdx = some (slot s.rdIdx (pop s i).toNat) := by
      rw [clockIndex_eq, if_neg]
      rintro ⟨-, hout, hlast⟩
      rcases h.pop_imp hout with hpos | hpush
      · omega
      · exact hstop ⟨hpush, by omega⟩
    obtain ⟨s', hs⟩ : ∃ s', clock s i = some s' := by simp [clock, hr, hwr, hrd]
    have hnext := h.toRepresents.next hs hr
    have heq := clock_eq hs hr
    have hlen := h.length_accepted (i := i)
    have hstep := h.length_step (i := i)
    have hlt : s.wrIdx.val + (push s i).toNat + 1 < depth := by
      cases hpush : push s i with
      | false => simpa using hroom
      | true =>
        have hne : s.wrIdx.val + 2 ≠ depth := fun hlast => hstop ⟨hpush, hlast⟩
        simp only [Bool.toNat_true]
        omega
    have hwrNext := hslot (j := s.wrIdx) (k := (push s i).toNat) (by omega)
    have hrdNext := hslot (j := s.rdIdx) (k := (pop s i).toNat) (by omega)
    refine .inr ⟨s', hs, ⟨hnext, ?_, ?_⟩, ?_⟩ <;> simp only [heq] <;> omega

/-- **When a range check fails**: as soon as `DEPTH - 1` words have been written. -/
theorem Low.run_iff (hp : ispow2 depth = false) {is : List (Inputs width)}
    (his : ∀ i ∈ is, i.reset = false) {t : Tracked depth width} (h : Low t.fifo q) :
    (∃ t', is.foldlM Tracked.step t = some t') ↔
      t.fifo.wrIdx.val + Queue.total depth q is + 1 < depth := by
  induction is generalizing t q with
  | nil => simpa [Queue.total] using h.room
  | cons i is ih =>
    rw [List.foldlM_cons, Queue.total]
    rcases h.next hp (his i (.head _)) with ⟨hpush, hlast, hnone⟩ | ⟨s', hs, hlow, hwr⟩
    · have hlen : (Queue.accepted depth q i).length = 1 := by rw [h.length_accepted, hpush]; rfl
      simp only [Tracked.step, hnone, hlen, Option.bind_eq_bind, bind_none]
      simp only [reduceCtorEq, exists_false, false_iff]
      omega
    · simp only [Tracked.step, hs, Option.bind_eq_bind, bind_some]
      refine (ih (fun j hj => his j (.tail _ hj)) hlow).trans ?_
      rw [hwr, Nat.add_assoc t.fifo.wrIdx.val]

/-- **The FIFO is a queue of `DEPTH` words, as long as it runs.** After a reset, for every sequence
of inputs: no range check fails exactly if `DEPTH` is a power of two or fewer than `DEPTH - 1` words
are taken in. While none has failed, the words that were read are the first ones of those that were
written, the rest is what the queue holds, `DEPTH` words at most, and the FIFO refuses a word or has
none to give just when the queue is full or empty and the other side does not help. -/
theorem refines_queue {s₀ s : State depth width} {i₀ : Inputs width} (hr : i₀.reset = true)
    (hs : clock s₀ i₀ = some s) {is : List (Inputs width)} (his : ∀ i ∈ is, i.reset = false) :
    ((∃ t, is.foldlM Tracked.step { fifo := s } = some t) ↔
      ispow2 depth = true ∨ Queue.total depth [] is + 1 < depth) ∧
    ∀ t, is.foldlM Tracked.step { fifo := s } = some t →
      t.read <+: t.written ∧ t.held = run (Queue.step depth) [] is ∧
      t.held.length ≤ depth ∧ ∀ i,
        (wrReady t.fifo i = false ↔ t.held.length = depth ∧ i.rdReady = false) ∧
        (rdValid t.fifo i = false ↔ t.held = [] ∧ i.wrValid = false) := by
  obtain ⟨hempty, hzero⟩ := represents_of_reset hs hr
  refine ⟨?_, fun t ht => ?_⟩
  · cases hp : ispow2 depth with
    | true => simpa using exists_run hp his _
    | false =>
      have hone : depth ≠ 1 := by
        rintro rfl
        cases hp
      have hpos := s.wrIdx.pos
      have hidx : s.rdIdx = s.wrIdx := by simpa using hempty.wrIdx.symm
      have hlow : Low s [] := ⟨hempty, by simp [hidx], by omega⟩
      simpa [hzero] using hlow.run_iff hp his (t := { fifo := s })
  · obtain ⟨h, hq⟩ := run_represents his hempty rfl ht
    have hheld : t.held = run (Queue.step depth) [] is := by
      rw [Tracked.held, hq, List.drop_left]
    rw [hheld]
    exact ⟨⟨_, hq.symm⟩, rfl, h.bound, fun i => ⟨h.wrReady_iff i, h.rdValid_iff i⟩⟩

/-- Two words fill a memory of two; the third is written while the first is read. -/
theorem refines_queue_full : ∃ t : Tracked 2 8,
    [{ wrValid := true, wrData := 1 }, { wrValid := true, wrData := 2 },
      { wrValid := true, wrData := 3, rdReady := true }].foldlM Tracked.step
      { fifo := ⟨fun _ => 0, 0, 0, .pop⟩ } = some t ∧
    t.held = [2, 3] ∧ wrReady t.fifo {} = false := by
  let s : State 2 8 := ⟨fun _ => 0, 0, 0, .pop⟩
  have hs : clock s { reset := true } = some s := rfl
  let is : List (Inputs 8) := [{ wrValid := true, wrData := 1 }, { wrValid := true, wrData := 2 },
    { wrValid := true, wrData := 3, rdReady := true }]
  have his : ∀ i ∈ is, i.reset = false := by decide
  obtain ⟨hsome, hrun⟩ := refines_queue rfl hs his
  obtain ⟨t, ht⟩ := hsome.mpr (.inl (by decide))
  obtain ⟨-, hheld, -, hout⟩ := hrun t ht
  have hq : t.held = [2, 3] := hheld.trans (by decide)
  exact ⟨t, ht, hq, (hout {}).1.mpr ⟨by rw [hq]; rfl, rfl⟩⟩

/-- With a memory of three words the second word stops the design, although `wr_ready` is there. -/
theorem wraps_out_of_range : ∃ (s : State 3 8) (t : Tracked 3 8),
    clock ⟨fun _ => 0, 0, 0, .pop⟩ { reset := true } = some s ∧
    [{ wrValid := true }].foldlM Tracked.step { fifo := s } = some t ∧
    wrReady t.fifo { wrValid := true } = true ∧ t.step { wrValid := true } = none :=
  ⟨_, _, rfl, rfl, rfl, rfl⟩

end SyncFifo

end Microwatt
