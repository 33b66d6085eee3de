import Mathlib.Algebra.Order.Group.Nat
import Mathlib.Data.Nat.Find
import Mathlib.Logic.Relation

/-!
# Clocked machines and what holds along their runs

A synchronous design is a register state `σ`, an input `ι` sampled at every clock edge, and a
function `step : σ → ι → σ` giving the registers after the edge. Nothing else is needed to talk
about it: a run is a list of inputs, and a property of every run is an invariant.

The environment enters as a relation `env : σ → ι → Prop` saying which inputs the rest of the
system may present in a given state. It is a hypothesis of the results, never part of `step`, so
one machine can be studied under several protocols.

## Main definitions

* `Clocked.run`, `Clocked.Allowed` — a finite run, and every one of its inputs being allowed
* `Clocked.Reachable` — the states runs of allowed inputs lead to
* `Clocked.trace` — an infinite run
* `Clocked.Until` — along a trace, `P` holds until `Q` does, and `Q` does in the end

## Main results

* `Clocked.Reachable.induct` — an invariant of the initial states and of every allowed step
  holds in every reachable state
* `Clocked.reachable_run` — the bridge from a concrete list of inputs
* `Clocked.until_of_rank` — progress by a rank that goes down from one checkpoint to the next
-/

/-! ### Flags -/

namespace Flag

variable {a b v : Bool}

/-- A flag is down if another one would be other than it is. -/
theorem down (h : a = true → b = v) (hb : b = !v) : a = false := by
  cases a with
  | false => rfl
  | true => cases b <;> cases v <;> simp_all

end Flag

namespace Clocked

variable {σ ι : Type*}

/-- The registers after the inputs `is`, one clock edge each. -/
def run (step : σ → ι → σ) (s : σ) : List ι → σ
  | [] => s
  | i :: is => run step (step s i) is

@[simp] theorem run_nil (step : σ → ι → σ) (s : σ) : run step s [] = s := rfl

@[simp] theorem run_cons (step : σ → ι → σ) (s : σ) (i : ι) (is : List ι) :
    run step s (i :: is) = run step (step s i) is := rfl

/-- Every input of the list is one the environment may present in the state it meets. -/
def Allowed (step : σ → ι → σ) (env : σ → ι → Prop) (s : σ) : List ι → Prop
  | [] => True
  | i :: is => env s i ∧ Allowed step env (step s i) is

instance decidableAllowed (step : σ → ι → σ) (env : σ → ι → Prop) [∀ s i, Decidable (env s i)] :
    ∀ (s : σ) (is : List ι), Decidable (Allowed step env s is)
  | _, [] => .isTrue trivial
  | s, i :: is =>
    haveI := decidableAllowed step env (step s i) is
    inferInstanceAs (Decidable (env s i ∧ Allowed step env (step s i) is))

/-- The states that some finite run of allowed inputs reaches from an initial state. -/
inductive Reachable (step : σ → ι → σ) (env : σ → ι → Prop) (init : σ → Prop) : σ → Prop
  | start {s : σ} (h : init s) : Reachable step env init s
  | tick {s : σ} {i : ι} (h : Reachable step env init s) (hi : env s i) :
      Reachable step env init (step s i)

variable {step : σ → ι → σ} {env : σ → ι → Prop} {init : σ → Prop}

/-- **The invariant rule.** -/
theorem Reachable.induct {Inv : σ → Prop} (h0 : ∀ s, init s → Inv s)
    (hstep : ∀ s i, Inv s → env s i → Inv (step s i)) {s : σ} (h : Reachable step env init s) :
    Inv s := by
  induction h with
  | start h => exact h0 _ h
  | tick _ hi ih => exact hstep _ _ ih hi

/-- A run of allowed inputs stays inside the reachable states. -/
theorem Reachable.run {s : σ} (h : Reachable step env init s) :
    ∀ {is : List ι}, Allowed step env s is → Reachable step env init (Clocked.run step s is) := by
  intro is
  induction is generalizing s with
  | nil => intro _; exact h
  | cons i is ih => intro hall; exact ih (h.tick hall.1) hall.2

theorem reachable_run {s : σ} {is : List ι} (h : init s) (hall : Allowed step env s is) :
    Reachable step env init (Clocked.run step s is) :=
  (Reachable.start h).run hall

/-- The same for a closed loop, in which inputs are made from the state and a list of choices. -/
theorem reachable_drive {κ : Type*} {drive : σ → κ → ι} {s : σ} {ks : List κ} (h : init s)
    (hall : Allowed (fun s k => step s (drive s k)) (fun s k => env s (drive s k)) s ks) :
    Reachable step env init (Clocked.run (fun s k => step s (drive s k)) s ks) := by
  have hgen : ∀ {ks : List κ} {s : σ}, Reachable step env init s →
      Allowed (fun s k => step s (drive s k)) (fun s k => env s (drive s k)) s ks →
      Reachable step env init (Clocked.run (fun s k => step s (drive s k)) s ks) := by
    intro ks
    induction ks with
    | nil => intro s hs _; exact hs
    | cons k ks ih => intro s hs hall; exact ih (hs.tick hall.1) hall.2
  exact hgen (.start h) hall

theorem Allowed.imp {env' : σ → ι → Prop} (himp : ∀ s i, env s i → env' s i) {s : σ}
    {is : List ι} (h : Allowed step env s is) : Allowed step env' s is := by
  induction is generalizing s with
  | nil => trivial
  | cons i is ih => exact ⟨himp s i h.1, ih h.2⟩

/-! ### Infinite runs and progress -/

/-- The registers along an infinite run. -/
def trace (step : σ → ι → σ) (s : σ) (is : ℕ → ι) : ℕ → σ
  | 0 => s
  | t + 1 => step (trace step s is t) (is t)

@[simp] theorem trace_zero (step : σ → ι → σ) (s : σ) (is : ℕ → ι) : trace step s is 0 = s := rfl

@[simp] theorem trace_succ (step : σ → ι → σ) (s : σ) (is : ℕ → ι) (t : ℕ) :
    trace step s is (t + 1) = step (trace step s is t) (is t) := rfl

/-- A run goes on from the state it has come to. -/
theorem trace_add (step : σ → ι → σ) (s : σ) (is : ℕ → ι) (t u : ℕ) :
    trace step (trace step s is t) (fun v => is (v + t)) u = trace step s is (u + t) := by
  induction u with
  | zero => rw [Nat.zero_add, trace_zero]
  | succ u ih => rw [Nat.succ_add, trace_succ, trace_succ, ih]

/-- A run on the inputs that another run gets from a driver is that run. -/
theorem trace_drive {κ : Type*} (step : σ → ι → σ) (drive : σ → κ → ι) (s : σ) (ks : ℕ → κ) :
    trace step s (fun t => drive (trace (fun s k => step s (drive s k)) s ks t) (ks t)) =
      trace (fun s k => step s (drive s k)) s ks := by
  funext t
  induction t with
  | zero => rfl
  | succ t ih => rw [trace_succ, trace_succ, ih]

/-- `P` holds from time `t` on until `Q` does, which happens. -/
def Until (P Q : ℕ → Prop) (t : ℕ) : Prop := ∃ T, t ≤ T ∧ Q T ∧ ∀ u, t ≤ u → u < T → P u

variable {P Q A C : ℕ → Prop} {t : ℕ}

theorem Until.now (h : Q t) : Until P Q t := ⟨t, le_refl t, h, fun u h1 h2 => by omega⟩

theorem Until.later (hP : P t) (h : Until P Q (t + 1)) : Until P Q t := by
  obtain ⟨T, hT, hQ, hall⟩ := h
  refine ⟨T, by omega, hQ, fun u h1 h2 => ?_⟩
  rcases Nat.eq_or_lt_of_le h1 with rfl | h1
  · exact hP
  · exact hall u h1 h2

theorem Until.imp {P' Q' : ℕ → Prop} (h : Until P Q t) (hP : ∀ u, P u → P' u)
    (hQ : ∀ u, t ≤ u → Q u → Q' u) : Until P' Q' t := by
  obtain ⟨T, hT, hQT, hall⟩ := h
  exact ⟨T, hT, hQ T hT hQT, fun u h1 h2 => hP u (hall u h1 h2)⟩

theorem Until.trans (h : Until P A t) (hA : ∀ u, t ≤ u → A u → Until P Q u) : Until P Q t := by
  obtain ⟨T, hT, hAT, hall⟩ := h
  obtain ⟨T', hT', hQ, hall'⟩ := hA T hT hAT
  refine ⟨T', hT.trans hT', hQ, fun u h1 h2 => ?_⟩
  by_cases hu : u < T
  · exact hall u h1 hu
  · exact hall' u (by omega) h2

/-- What stays as long as `A` has not happened is still there when `A` happens first. -/
theorem until_first (hA : ∃ u, t ≤ u ∧ A u) (h : P t)
    (hstep : ∀ u, t ≤ u → P u → ¬A u → P (u + 1)) : Until P (fun u => A u ∧ P u) t := by
  classical
  obtain ⟨hle, hAT⟩ := Nat.find_spec hA
  have hall : ∀ u, t ≤ u → u ≤ Nat.find hA → P u := by
    intro u htu
    induction u, htu using Nat.le_induction with
    | base => exact fun _ => h
    | succ u htu ih =>
      intro hu
      exact hstep u htu (ih (by omega)) fun hAu => Nat.find_min hA (by omega) ⟨htu, hAu⟩
  exact ⟨Nat.find hA, hle, ⟨hAT, hall _ hle le_rfl⟩, fun u h1 h2 => hall u h1 h2.le⟩

/-- **Progress by rank.** From every checkpoint `C` the run comes to the goal or to another
checkpoint of smaller rank. -/
theorem until_of_rank (rank : ℕ → ℕ)
    (h : ∀ u, C u → Until P (fun v => Q v ∨ C v ∧ rank v < rank u) u) (hC : C t) :
    Until P Q t := by
  induction hr : rank t using Nat.strong_induction_on generalizing t with
  | _ r ih =>
    refine (h t hC).trans fun u _ hu => ?_
    rcases hu with hQ | ⟨hCu, hlt⟩
    · exact .now hQ
    · exact ih (rank u) (by omega) hCu rfl

end Clocked
