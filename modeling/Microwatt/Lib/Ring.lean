import Mathlib.Data.Nat.ModEq
import Mathlib.Logic.Function.Basic

/-!
# Arrays used around

A queue that is kept in an array of `n` elements starts at any of them and goes on at the first one
after the last. Two numbers below `n` lead to different elements, so there is room for `n` words,
and a queue of `n` words ends where it starts, as an empty one does.

## Main definitions

* `Ring.slot` — the element some way after a given one
* `Ring.Holds` — the array holds a list

## Main results

* `Ring.Holds.push`, `Ring.Holds.pop` — a word more at the end, a word less at the start
-/

namespace Ring

variable {α : Type*} {n : ℕ} {first : Fin n}

/-- The element `k` places after `first`. -/
def slot (first : Fin n) (k : ℕ) : Fin n := ⟨(first + k) % n, Nat.mod_lt _ first.pos⟩

@[simp] theorem slot_zero : slot first 0 = first :=
  Fin.ext (Nat.mod_eq_of_lt first.isLt)

theorem slot_slot (j k : ℕ) : slot (slot first j) k = slot first (j + k) := by
  simp [slot, Nat.add_assoc]

theorem slot_inj {j k : ℕ} (hj : j < n) (hk : k < n) : slot first j = slot first k ↔ j = k := by
  constructor
  · intro h
    have hmod : j ≡ k [MOD n] := Nat.ModEq.add_left_cancel' first (Fin.ext_iff.mp h)
    exact hmod.eq_of_lt_of_lt hj hk
  · rintro rfl
    rfl

theorem slot_eq_self {k : ℕ} (hk : k ≤ n) : slot first k = first ↔ k = 0 ∨ k = n := by
  rcases Nat.eq_or_lt_of_le hk with rfl | hlt
  · simp [slot, Nat.mod_eq_of_lt first.isLt]
  · have hinj : slot first k = slot first 0 ↔ k = 0 := slot_inj hlt first.pos
    rw [slot_zero] at hinj
    rw [hinj]
    omega

/-- From `first` on the array holds `items`; the other elements are free. -/
def Holds (mem : Fin n → α) (first : Fin n) (items : List α) : Prop :=
  ∀ k, ∀ _ : k < items.length, mem (slot first k) = items[k]

variable {mem : Fin n → α} {items : List α} {x : α}

theorem Holds.push (h : Holds mem first items) (hn : items.length < n) (x : α) :
    Holds (Function.update mem (slot first items.length) x) first (items ++ [x]) := by
  intro k hk
  rcases Nat.eq_or_lt_of_le (Nat.le_of_lt_succ (by simpa using hk)) with rfl | hlt
  · simp
  · have hne : slot first k ≠ slot first items.length :=
      fun he => hlt.ne ((slot_inj (hlt.trans hn) hn).mp he)
    rw [Function.update_of_ne hne, h k hlt, List.getElem_append_left hlt]

theorem Holds.head (h : Holds mem first (x :: items)) : mem first = x := by
  have h0 := h 0 (by simp)
  rw [slot_zero] at h0
  exact h0

theorem Holds.pop (h : Holds mem first (x :: items)) : Holds mem (slot first 1) items := by
  intro k hk
  rw [slot_slot, Nat.add_comm, h (k + 1) (by simpa using hk), List.getElem_cons_succ]

end Ring
