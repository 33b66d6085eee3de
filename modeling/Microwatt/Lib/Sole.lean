import Mathlib.Data.Option.Basic
import Mathlib.Logic.Basic

/-!
# One item in several places

Several places of which at most one is occupied, as the stages of parallel units that work at one
thing at a time. `Sole f x` says that the places `f` together hold what a single place with the
contents `x` would hold.

## Main definitions

* `Sole`

## Main results

* `Sole.step` — an item enters and another one leaves
* `Sole.filter` — what is taken out of the places
-/

variable {ι α : Type*}

/-- The places `f` hold what `x` holds: nothing, or one item in one place. -/
def Sole (f : ι → Option α) : Option α → Prop
  | none => ∀ i, f i = none
  | some a => ∃ i, f i = some a ∧ ∀ j, j ≠ i → f j = none

namespace Sole

variable {f f' e : ι → Option α} {x y : Option α} {i j : ι} {a : α}

theorem eq_of_some (h : Sole f x) (hi : f i = some a) : x = some a := by
  cases x with
  | none => rw [h i] at hi; cases hi
  | some b =>
    obtain ⟨k, hk, hothers⟩ := h
    by_cases hik : i = k
    · rw [← hk, ← hik, hi]
    · rw [hothers i hik] at hi
      cases hi

theorem other (h : Sole f x) (hi : f i ≠ none) (hij : j ≠ i) : f j = none := by
  cases x with
  | none => exact h j
  | some b =>
    obtain ⟨k, -, hothers⟩ := h
    by_cases hik : i = k
    · exact hothers j (hik ▸ hij)
    · exact absurd (hothers i hik) hi

theorem eq_none (h : Sole f x) (hx : x = none) : f i = none := by
  rw [hx] at h
  exact h i

theorem eq_none_iff (h : Sole f x) : x = none ↔ ∀ i, f i = none := by
  refine ⟨fun hx i => h.eq_none hx, fun hf => ?_⟩
  cases x with
  | none => rfl
  | some b =>
    obtain ⟨k, hk, -⟩ := h
    rw [hf k] at hk
    cases hk

theorem exists_of_some (h : Sole f (some a)) : ∃ i, f i = some a :=
  let ⟨i, hi, _⟩ := h
  ⟨i, hi⟩

/-- Whatever is said of the occupied place is said of the item. -/
theorem exists_flag (h : Sole f x) (m : ι → Bool) : ∃ b, ∀ i, f i ≠ none → m i = b := by
  cases x with
  | none => exact ⟨false, fun i hi => absurd (h i) hi⟩
  | some a =>
    obtain ⟨k, -, hothers⟩ := h
    refine ⟨m k, fun i hi => ?_⟩
    by_cases hik : i = k
    · rw [hik]
    · exact absurd (hothers i hik) hi

/-- The item is taken out of its place, or nothing is. -/
theorem filter (h : Sole f x) {m : ι → Bool} {b : Bool} (hm : ∀ i, f i ≠ none → m i = b) :
    Sole (fun i => if m i then f i else none) (if b then x else none) := by
  have hall : ∀ i, (if m i then f i else none) = if b then f i else none := by
    intro i
    by_cases hi : f i = none
    · simp [hi]
    · rw [hm i hi]
  rw [funext hall]
  cases b with
  | true => exact h
  | false => exact fun _ => rfl

/-- What enters goes into its place, and what leaves makes room for it. -/
theorem step (h : Sole f x) (he : Sole e y) {leaves : ι → Bool} {b : Bool}
    (hleaves : ∀ i, f i ≠ none → leaves i = b) (hroom : y ≠ none → x ≠ none → b = true)
    (hf : ∀ i, f' i = (e i).or (if leaves i then none else f i)) :
    Sole f' (y.or (if b then none else x)) := by
  have hstay : ∀ i, (if leaves i then none else f i) = if b then none else f i := by
    intro i
    by_cases hi : f i = none
    · simp [hi]
    · rw [hleaves i hi]
  cases y with
  | none =>
    have hf' : f' = fun i => if b then none else f i := by
      funext i
      rw [hf i, he i, hstay i]
      rfl
    rw [hf']
    cases b with
    | true => exact fun _ => rfl
    | false => exact h
  | some a =>
    obtain ⟨k, hk, hothers⟩ := he
    refine ⟨k, by rw [hf k, hk]; rfl, fun j hj => ?_⟩
    rw [hf j, hothers j hj, hstay j]
    by_cases hx : x = none
    · simp [h.eq_none hx]
    · simp [hroom (by simp) hx]

end Sole
