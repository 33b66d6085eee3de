import Mathlib.Data.List.Basic

/-!
# The latest of a list of events

A list of events, the newest in front, some of which set a value: the value is that of the newest
such event, or the one there was before all of them. This is what a register holds after a sequence
of writes, whether it is a register of a program or a place in memory.

## Main definitions

* `Latest.value` — the value after the events

## Main results

* `Latest.value_append` — events in two parts
* `Latest.value_of_find` — the newest event that sets the value is known
-/

namespace Latest

variable {α β : Type*} {sets : α → Bool} {f : α → β} {q r : List α} {before : β} {e : α}

/-- The value after the events of `q`. -/
def value (sets : α → Bool) (f : α → β) (q : List α) (before : β) : β :=
  ((q.find? sets).map f).getD before

@[simp] theorem value_nil : value sets f [] before = before := rfl

theorem value_of_find (h : q.find? sets = some e) : value sets f q before = f e := by
  simp [value, h]

theorem value_of_forall (h : ∀ e ∈ q, sets e = false) : value sets f q before = before := by
  have hnone : q.find? sets = none := by
    rw [List.find?_eq_none]
    intro e he
    simp [h e he]
  simp [value, hnone]

/-- The events of `q` come after those of `r`. -/
theorem value_append : value sets f (q ++ r) before = value sets f q (value sets f r before) := by
  rw [value, value, value, List.find?_append]
  cases q.find? sets <;> rfl

theorem value_cons :
    value sets f (e :: q) before = if sets e then f e else value sets f q before := by
  cases h : sets e <;> simp [value, h]

/-- An event that sets the value and is both the newest such one and the oldest of all. -/
theorem eq_of_find_append_singleton (h : (q ++ [e]).find? sets = some e) {x : α}
    (hx : x ∈ q ++ [e]) (hset : sets x = true) (hne : ∀ y ∈ q, y ≠ e) : x = e := by
  rcases List.mem_append.mp hx with hq | he
  · rw [List.find?_append] at h
    cases hf : q.find? sets with
    | none => exact absurd hset (by simpa using List.find?_eq_none.mp hf x hq)
    | some y =>
      rw [hf] at h
      obtain rfl : y = e := by simpa using h
      exact absurd rfl (hne y (List.mem_of_find?_eq_some hf))
  · simpa using he

end Latest
