import Mathlib.Data.BitVec

/-!
# Selecting among the ways of a set

A set-associative memory compares all its ways at once. Its loops over the ways either keep the
number of the last one that matches or collect the matching words with `or`; both give the right
way only if no two match. This file defines the two loops, for ways numbered by bit vectors of any
width, and says what they give for a single match.

## Main definitions

* `Ways.any`, `Ways.last`, `Ways.orOf` — the loops over all ways
* `Ways.first` — the lowest way that matches
* `Ways.Only` — exactly one way matches

## Main results

* `Ways.any_iff`, `Ways.last_spec` — a match is found
* `Ways.Only.last_eq`, `Ways.Only.orOf_eq` — a single match is selected
-/

namespace Ways

variable {n m : ℕ}

/-- The ways in the order of the loops. -/
def all (n : ℕ) : List (BitVec n) := (List.range (2 ^ n)).map (BitVec.ofNat n)

section

variable (p : BitVec n → Bool)

/-- Some way matches. -/
def any : Bool := (all n).any p

/-- The last way that matches, 0 if there is none. -/
def last : BitVec n := (all n).foldl (fun acc w => if p w then w else acc) 0

/-- The lowest way that matches. -/
def first : Option (BitVec n) := (all n).find? p

/-- The words of the matching ways, combined with `or`. -/
def orOf (f : BitVec n → BitVec m) : BitVec m :=
  (all n).foldl (fun acc w => if p w then acc ||| f w else acc) 0

/-- The way `w` matches and no other does. -/
def Only (w : BitVec n) : Prop := p w = true ∧ ∀ v, p v = true → v = w

end

theorem mem_all (w : BitVec n) : w ∈ all n := by
  simp only [all, List.mem_map, List.mem_range]
  exact ⟨w.toNat, w.isLt, by simp⟩

instance (p : BitVec n → Bool) (w : BitVec n) : Decidable (Only p w) :=
  decidable_of_iff (p w = true ∧ ∀ v ∈ all n, p v = true → v = w)
    ⟨fun h => ⟨h.1, fun v => h.2 v (mem_all v)⟩, fun h => ⟨h.1, fun v _ => h.2 v⟩⟩

variable {p : BitVec n → Bool} {w : BitVec n}

theorem any_iff : any p = true ↔ ∃ w, p w = true := by
  simp only [any, List.any_eq_true]
  exact ⟨fun ⟨w, _, h⟩ => ⟨w, h⟩, fun ⟨w, h⟩ => ⟨w, mem_all w, h⟩⟩

theorem first_eq_none : first p = none ↔ ∀ w, p w = false := by
  rw [first, List.find?_eq_none]
  exact ⟨fun h w => Bool.eq_false_iff.mpr (h w (mem_all w)),
    fun h w _ => Bool.eq_false_iff.mp (h w)⟩

theorem first_eq_some : first p = some w ↔ p w = true ∧ ∀ v, v < w → p v = false := by
  have hrange : first p = ((List.range (2 ^ n)).find? fun k => p (BitVec.ofNat n k)).map
      (BitVec.ofNat n) := by
    rw [first, all, List.find?_map]
    rfl
  rw [hrange, Option.map_eq_some_iff]
  constructor
  · rintro ⟨k, hk, rfl⟩
    obtain ⟨hp, hlt, hlow⟩ := List.find?_range_eq_some.mp hk
    rw [List.mem_range] at hlt
    refine ⟨hp, fun v hv => ?_⟩
    rw [BitVec.lt_def, BitVec.toNat_ofNat, Nat.mod_eq_of_lt hlt] at hv
    simpa using hlow v.toNat hv
  · rintro ⟨hp, hlow⟩
    refine ⟨w.toNat, List.find?_range_eq_some.mpr ⟨by simpa using hp, ?_, fun k hk => ?_⟩, by simp⟩
    · exact List.mem_range.mpr w.isLt
    · have hlt : k < 2 ^ n := hk.trans w.isLt
      have hv : BitVec.ofNat n k < w := by
        rw [BitVec.lt_def, BitVec.toNat_ofNat, Nat.mod_eq_of_lt hlt]
        exact hk
      simp [hlow _ hv]

theorem last_spec (h : p w = true) : p (last p) = true := by
  have hgen : ∀ (l : List (BitVec n)) (a : BitVec n), p a = true ∨ w ∈ l →
      p (l.foldl (fun acc w => if p w then w else acc) a) = true := by
    intro l
    induction l with
    | nil => intro a ha; simpa using ha
    | cons v l ih =>
      intro a ha
      refine ih _ ?_
      beta_reduce
      by_cases hv : p v = true
      · exact .inl (by rw [if_pos hv]; exact hv)
      · rw [if_neg hv]
        rcases ha with ha | ha
        · exact .inl ha
        · rcases List.mem_cons.mp ha with rfl | ha
          · exact absurd h hv
          · exact .inr ha
  exact hgen _ _ (.inr (mem_all w))

theorem Only.last_eq (h : Only p w) : last p = w :=
  h.2 _ (last_spec h.1)

theorem Only.orOf_eq (h : Only p w) (f : BitVec n → BitVec m) : orOf p f = f w := by
  have hgen : ∀ (l : List (BitVec n)) (a : BitVec m), (a = 0 ∧ w ∈ l) ∨ a = f w →
      l.foldl (fun acc w => if p w then acc ||| f w else acc) a = f w := by
    intro l
    induction l with
    | nil => intro a ha; simpa using ha
    | cons v l ih =>
      intro a ha
      refine ih _ ?_
      beta_reduce
      by_cases hv : p v = true
      · obtain rfl := h.2 v hv
        rw [if_pos hv]
        rcases ha with ⟨rfl, -⟩ | rfl
        · exact .inr (by simp)
        · exact .inr (by simp)
      · rw [if_neg hv]
        rcases ha with ⟨rfl, hm⟩ | rfl
        · rcases List.mem_cons.mp hm with rfl | hm
          · exact absurd h.1 hv
          · exact .inl ⟨rfl, hm⟩
        · exact .inr rfl
  exact hgen _ _ (.inl ⟨rfl, mem_all w⟩)

end Ways
