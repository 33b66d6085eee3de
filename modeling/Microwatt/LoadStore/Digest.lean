import Mathlib.Tactic.FinCases
import Mathlib.Tactic.IntervalCases
import Microwatt.Lib.Clocked
import Microwatt.LoadStore.Basic

/-!
# The hash unit computes HashDigest

`HashDigest` expands the key into 32 words and puts each of four lanes, made from bytes of the
two operands, through 32 rounds of a cipher. The unit in loadstore1 keeps only four key words and
does four rounds of every lane in a cycle; it needs eight cycles, and signals the result for one
cycle only.

## Main results

* `LoadStore.HashReg.Progress.next` — a cycle is four words of the schedule and four rounds
* `LoadStore.HashReg.Progress.result` — after eight cycles the digest is there
* `LoadStore.hash_unit_digest` — what every run of the unit signals, and when
-/

namespace Microwatt

open BitVec

namespace LoadStore

/-! ### The function -/

/-- Bit `n` of the constant sequence `z0`. -/
def scheduleBit (n : ℕ) : Bool := (0xFA2561CDF44AC398#64).getLsbD (63 - n)

/-- Word `n` of the key schedule, `k[n]`. -/
def scheduleWord (key : BitVec 64) : ℕ → BitVec 16
  | 0 => key.extractLsb' 48 16
  | 1 => key.extractLsb' 32 16
  | 2 => key.extractLsb' 16 16
  | 3 => key.extractLsb' 0 16
  | n + 4 =>
    let temp := (scheduleWord key (n + 3)).rotateRight 3 ^^^ scheduleWord key (n + 1)
    0xfffc ^^^ (ofBool (scheduleBit n)).setWidth 16 ^^^ scheduleWord key n ^^^ temp ^^^
      temp.rotateRight 1

/-- The word used in round `n`, `eff_k[n]`: every lane takes the four words of a group in an
order of its own. -/
def roundKey (key : BitVec 64) (lane n : ℕ) : BitVec 16 :=
  scheduleWord key (4 * (n / 4) + (n % 4 + lane) % 4)

/-- `fxleft`. -/
def roundMix (xl : BitVec 16) : BitVec 16 :=
  (xl.rotateLeft 1 &&& xl.rotateLeft 8) ^^^ xl.rotateLeft 2

/-- `(xleft, xright)` after `n` rounds. -/
def cipher (key : BitVec 64) (lane : ℕ) (x : BitVec 16 × BitVec 16) : ℕ → BitVec 16 × BitVec 16
  | 0 => x
  | n + 1 =>
    let y := cipher key lane x n
    (y.2 ^^^ roundMix y.1 ^^^ roundKey key lane n, y.1)

/-- The two halves of the lane's word `stage0`, made of bytes `2 * lane` and `2 * lane + 1` of `y`
and the bytes of `x` counted from the other end. -/
def laneStart (x y : BitVec 64) (lane : ℕ) : BitVec 16 × BitVec 16 :=
  (y.extractLsb' (8 * (2 * lane + 1)) 8 ++ x.extractLsb' (56 - 8 * (2 * lane + 1)) 8,
    y.extractLsb' (8 * (2 * lane)) 8 ++ x.extractLsb' (56 - 8 * (2 * lane)) 8)

/-- `simon_like_32_64` on the word of a lane. -/
def simonLike (x y key : BitVec 64) (lane : ℕ) : BitVec 32 :=
  let z := cipher key lane (laneStart x y lane) 32
  z.2 ++ z.1

def hashDigest (x y key : BitVec 64) : BitVec 64 :=
  (simonLike x y key 0 ++ simonLike x y key 1) ^^^ (simonLike x y key 2 ++ simonLike x y key 3)

/-! ### One round, one word -/

theorem append_eq_rotateLeft {m n : ℕ} (x : BitVec 16) (h : m + n = 16) (hm : m < 16) :
    (x.extractLsb' 0 n ++ x.extractLsb' n m).cast (by omega) = x.rotateLeft m := by
  apply eq_of_getLsbD_eq
  intro k hk
  rw [getLsbD_cast, getLsbD_append, getLsbD_rotateLeft,
    Nat.mod_eq_of_lt hm]
  by_cases hkm : k < m
  · simp [hkm, show n + k = 16 - m + k by omega]
  · simp [hkm, hk, show k - m < n by omega]

theorem append_eq_rotateRight {m n : ℕ} (x : BitVec 16) (h : m + n = 16) (hm : m < 16) :
    (x.extractLsb' 0 m ++ x.extractLsb' m n).cast (by omega) = x.rotateRight m := by
  apply eq_of_getLsbD_eq
  intro k hk
  rw [getLsbD_cast, getLsbD_append, getLsbD_rotateRight,
    Nat.mod_eq_of_lt hm]
  by_cases hkn : k < n
  · simp [hkn, show k < 16 - m by omega]
  · simp [hkn, hk, show ¬ k < 16 - m by omega, show k - n = k - (16 - m) by omega]
    omega

theorem nextKey_scheduleWord (key : BitVec 64) (n : ℕ) :
    nextKey (scheduleBit n) (scheduleWord key n) (scheduleWord key (n + 1))
      (scheduleWord key (n + 3)) = scheduleWord key (n + 4) := by
  have h3 := append_eq_rotateRight (scheduleWord key (n + 3)) (m := 3) (n := 13) rfl (by omega)
  have h1 := append_eq_rotateRight
    ((scheduleWord key (n + 3)).rotateRight 3 ^^^ scheduleWord key (n + 1))
    (m := 1) (n := 15) rfl (by omega)
  simp only [BitVec.cast_eq] at h3 h1
  simp only [nextKey, scheduleWord, h3, h1]

theorem hashRound_eq (key : BitVec 16) (x : BitVec 16 × BitVec 16) :
    hashRound key x = (x.2 ^^^ roundMix x.1 ^^^ key, x.1) := by
  have h1 := append_eq_rotateLeft x.1 (m := 1) (n := 15) rfl (by omega)
  have h8 := append_eq_rotateLeft x.1 (m := 8) (n := 8) rfl (by omega)
  have h2 := append_eq_rotateLeft x.1 (m := 2) (n := 14) rfl (by omega)
  simp only [BitVec.cast_eq] at h1 h8 h2
  simp only [hashRound, roundMix, h1, h8, h2]

theorem hashRounds_cipher {key : BitVec 64} {words : Fin 4 → BitVec 16} {n : ℕ}
    (hwords : ∀ i, words i = scheduleWord key (4 * n + i)) (lane : Fin 4)
    (x : BitVec 16 × BitVec 16) :
    hashRounds words lane (cipher key lane x (4 * n)) = cipher key lane x (4 * (n + 1)) := by
  have hkey : ∀ i : Fin 4, words (i + lane) = roundKey key lane (4 * n + i) := by
    intro i
    rw [hwords, Fin.val_add, roundKey, show (4 * n + i.val) / 4 = n by omega,
      show (4 * n + i.val) % 4 = i.val by omega]
  have hround : ∀ i : Fin 4, hashRound (words (i + lane)) (cipher key lane x (4 * n + i)) =
      cipher key lane x (4 * n + i + 1) := by
    intro i
    rw [hashRound_eq, hkey]
    rfl
  have h0 : hashRound (words (0 + lane)) (cipher key lane x (4 * n)) =
      cipher key lane x (4 * n + 1) := hround 0
  have h1 : hashRound (words (1 + lane)) (cipher key lane x (4 * n + 1)) =
      cipher key lane x (4 * n + 2) := hround 1
  have h2 : hashRound (words (2 + lane)) (cipher key lane x (4 * n + 2)) =
      cipher key lane x (4 * n + 3) := hround 2
  calc hashRounds words lane (cipher key lane x (4 * n))
      = hashRound (words (3 + lane)) (hashRound (words (2 + lane)) (hashRound (words (1 + lane))
          (hashRound (words (0 + lane)) (cipher key lane x (4 * n))))) := rfl
    _ = hashRound (words (3 + lane)) (cipher key lane x (4 * n + 3)) := by rw [h0, h1, h2]
    _ = cipher key lane x (4 * (n + 1)) := hround 3

/-! ### The unit -/

/-- The unit after `n` of its eight cycles on `ra`, `rb` and `key`. -/
structure HashReg.Progress (ra rb key : BitVec 64) (h : HashReg) (n : ℕ) : Prop where
  le : n ≤ 8
  active : h.active = decide (n < 8)
  done : h.done = decide (n = 8)
  step : h.step = BitVec.ofNat 3 n
  /-- The bits of the sequence that are still needed are at the top of the register. -/
  z0 : ∀ j, 4 * n + j ≤ 30 → h.z0.getLsbD (30 - j) = scheduleBit (4 * n + j)
  words : n < 8 → ∀ i : Fin 4, h.key i = scheduleWord key (4 * n + i)
  lanes : ∀ lane : Fin 4,
    (h.xleft lane, h.xright lane) = cipher key lane (laneStart ra rb lane) (4 * n)

namespace HashReg.Progress

variable {ra rb key : BitVec 64} {h : HashReg} {n : ℕ}

/-- An idle unit starts on the operands it is given. -/
theorem start (hidle : h.active = false) (ra rb key : BitVec 64) :
    Progress ra rb key (nextHash h true ra rb key) 0 where
  le := by omega
  active := by simp [nextHash, hidle]
  done := by simp [nextHash, hidle]
  step := by simp [nextHash, hidle]
  z0 := by
    have hbits : ∀ j : Fin 31, (0x7D12B0E6#31).getLsbD (30 - j) = scheduleBit j := by
      decide +kernel
    intro j hj
    simpa [nextHash, hidle] using hbits ⟨j, by omega⟩
  words := by
    intro _ i
    fin_cases i <;> simp [nextHash, hidle, scheduleWord]
  lanes := by
    intro lane
    fin_cases lane <;> simp [nextHash, hidle, cipher, laneStart]

/-- A cycle is four words of the schedule and four rounds of each lane, whatever is at the
inputs. -/
theorem next (hp : Progress ra rb key h n) (hn : n < 8) (start : Bool) (ra' rb' key' : BitVec 64) :
    Progress ra rb key (nextHash h start ra' rb' key') (n + 1) := by
  have hactive : h.active = true := by simp [hp.active, hn]
  have hnext : nextHash h start ra' rb' key' =
      { active := h.step != 7
        done := h.step == 7
        step := h.step + 1
        z0 := h.z0.extractLsb' 0 27 ++ 0#4
        key := expandKeys h.z0 h.key
        xleft := fun lane => (hashRounds h.key lane (h.xleft lane, h.xright lane)).1
        xright := fun lane => (hashRounds h.key lane (h.xleft lane, h.xright lane)).2 } := by
    simp [nextHash, hactive]
  have hseven : (h.step == 7) = decide (n = 7) := by
    rw [hp.step]
    interval_cases n <;> rfl
  rw [hnext]
  refine ⟨by omega, ?_, ?_, ?_, fun j hj => ?_, fun hn' i => ?_, fun lane => ?_⟩
  · have : (h.step != 7) = !decide (n = 7) := by rw [bne, hseven]
    simp only [this]
    interval_cases n <;> rfl
  · simp only [hseven]
    interval_cases n <;> rfl
  · simp only [hp.step]
    interval_cases n <;> rfl
  · rw [getLsbD_append]
    simp only [show ¬ 30 - j < 4 by omega, if_false, getLsbD_extractLsb',
      show 30 - j - 4 < 27 by omega, decide_true, Bool.true_and, Nat.zero_add]
    rw [show 30 - j - 4 = 30 - (j + 4) by omega, hp.z0 _ (by omega),
      show 4 * n + (j + 4) = 4 * (n + 1) + j by omega]
  · have hz : ∀ j < 4, h.z0.getLsbD (30 - j) = scheduleBit (4 * n + j) := fun j hj =>
      hp.z0 j (by omega)
    have hk := hp.words hn
    have h4 : nextKey (h.z0.getLsbD 30) (h.key 0) (h.key 1) (h.key 3) =
        scheduleWord key (4 * n + 4) := by
      rw [hz 0 (by omega), hk 0, hk 1, hk 3]
      exact nextKey_scheduleWord key (4 * n)
    have h5 : nextKey (h.z0.getLsbD 29) (h.key 1) (h.key 2) (scheduleWord key (4 * n + 4)) =
        scheduleWord key (4 * n + 5) := by
      rw [hz 1 (by omega), hk 1, hk 2]
      exact nextKey_scheduleWord key (4 * n + 1)
    have h6 : nextKey (h.z0.getLsbD 28) (h.key 2) (h.key 3) (scheduleWord key (4 * n + 5)) =
        scheduleWord key (4 * n + 6) := by
      rw [hz 2 (by omega), hk 2, hk 3]
      exact nextKey_scheduleWord key (4 * n + 2)
    have h7 : nextKey (h.z0.getLsbD 27) (h.key 3) (scheduleWord key (4 * n + 4))
        (scheduleWord key (4 * n + 6)) = scheduleWord key (4 * n + 7) := by
      rw [hz 3 (by omega), hk 3]
      exact nextKey_scheduleWord key (4 * n + 3)
    have hall : expandKeys h.z0 h.key = ![scheduleWord key (4 * n + 4),
        scheduleWord key (4 * n + 5), scheduleWord key (4 * n + 6),
        scheduleWord key (4 * n + 7)] := by
      simp only [expandKeys, h4, h5, h6, h7]
    simp only [hall]
    fin_cases i <;> rfl
  · simp only [hp.lanes, hashRounds_cipher (hp.words hn)]

theorem result (hp : Progress ra rb key h 8) : hashResult h = hashDigest ra rb key := by
  have hlane : ∀ lane : Fin 4, h.xright lane ++ h.xleft lane = simonLike ra rb key lane := by
    intro lane
    have hl := hp.lanes lane
    rw [simonLike, ← hl]
  have happ : ∀ a b c d : BitVec 16, (a ++ b ++ c ++ d : BitVec 64) = (a ++ b) ++ (c ++ d) := by
    intro a b c d
    exact append_assoc
  rw [hashResult, happ, happ]
  simp only [hlane]
  rfl

end HashReg.Progress

/-! ### Runs of the unit -/

structure HashInputs where
  rst : Bool := false
  hashStart : Bool := false
  ra : BitVec 64 := 0
  rb : BitVec 64 := 0
  key : BitVec 64 := 0

/-- `loadstore_hash_reg`. -/
def HashReg.clock (h : HashReg) (i : HashInputs) : HashReg :=
  if i.rst then {} else nextHash h i.hashStart i.ra i.rb i.key

section Runs

variable (is : ℕ → HashInputs)

/-- The unit in cycle `t` of a run from its reset state. -/
abbrev hashAt (t : ℕ) : HashReg := Clocked.trace HashReg.clock {} is t

/-- An idle unit is started in cycle `s`. -/
structure HashStarts (s : ℕ) : Prop where
  idle : (hashAt is s).active = false
  start : (is s).hashStart = true
  rst : (is s).rst = false

/-- The unit has done `n` cycles of the work that was started in cycle `s`. -/
structure Works (s n : ℕ) : Prop where
  starts : HashStarts is s
  rst : ∀ u ≤ n, (is (s + u)).rst = false
  progress : HashReg.Progress (is s).ra (is s).rb (is s).key (hashAt is (s + 1 + n)) n

variable {is}

theorem HashStarts.works {s : ℕ} (h : HashStarts is s) : Works is s 0 where
  starts := h
  rst := by
    intro u hu
    rw [Nat.le_zero.mp hu]
    exact h.rst
  progress := by
    have hclock : hashAt is (s + 1) =
        nextHash (hashAt is s) true (is s).ra (is s).rb (is s).key := by
      rw [hashAt, Clocked.trace_succ, HashReg.clock, h.rst, h.start]
      rfl
    rw [Nat.add_zero, hclock]
    exact .start h.idle _ _ _

theorem Works.next {s n : ℕ} (h : Works is s n) (hn : n < 8) (hr : (is (s + 1 + n)).rst = false) :
    Works is s (n + 1) where
  starts := h.starts
  rst := by
    intro u hu
    rcases Nat.lt_or_eq_of_le hu with hlt | rfl
    · exact h.rst u (by omega)
    · rwa [show s + (n + 1) = s + 1 + n by omega]
  progress := by
    have hclock : hashAt is (s + 1 + (n + 1)) = nextHash (hashAt is (s + 1 + n))
        (is (s + 1 + n)).hashStart (is (s + 1 + n)).ra (is (s + 1 + n)).rb
        (is (s + 1 + n)).key := by
      rw [hashAt, ← Nat.add_assoc, Clocked.trace_succ, HashReg.clock, hr]
      rfl
    rw [hclock]
    exact h.progress.next hn _ _ _ _

/-- Work that is not interrupted by a reset goes on for eight cycles. -/
theorem HashStarts.works_le {s : ℕ} (h : HashStarts is s) {n : ℕ} (hn : n ≤ 8)
    (hr : ∀ u ≤ n, (is (s + u)).rst = false) : Works is s n := by
  induction n with
  | zero => exact h.works
  | succ n ih =>
    refine (ih (by omega) fun u hu => hr u (by omega)).next (by omega) ?_
    have := hr (n + 1) le_rfl
    rwa [show s + (n + 1) = s + 1 + n by omega] at this

/-- In every cycle the unit is at rest or at work. -/
theorem rests_or_works (t : ℕ) :
    ((hashAt is t).active = false ∧ (hashAt is t).done = false) ∨
      ∃ s n, s + 1 + n = t ∧ Works is s n := by
  induction t with
  | zero => exact .inl ⟨rfl, rfl⟩
  | succ t ih =>
    cases hr : (is t).rst with
    | true =>
      have hclock : hashAt is (t + 1) = {} := by
        rw [hashAt, Clocked.trace_succ, HashReg.clock, hr, if_pos rfl]
      exact .inl (by rw [hclock]; exact ⟨rfl, rfl⟩)
    | false =>
      have hclock : hashAt is (t + 1) =
          nextHash (hashAt is t) (is t).hashStart (is t).ra (is t).rb (is t).key := by
        rw [hashAt, Clocked.trace_succ, HashReg.clock, hr]
        rfl
      -- an idle unit starts again or rests
      have hidle (ha : (hashAt is t).active = false) :
          ((hashAt is (t + 1)).active = false ∧ (hashAt is (t + 1)).done = false) ∨
            ∃ s n, s + 1 + n = t + 1 ∧ Works is s n := by
        cases hs : (is t).hashStart with
        | true => exact .inr ⟨t, 0, rfl, HashStarts.works ⟨ha, hs, hr⟩⟩
        | false =>
          rw [hclock, hs]
          exact .inl (by simp [nextHash, ha])
      rcases ih with hrest | ⟨s, n, rfl, hw⟩
      · exact hidle hrest.1
      · rcases Nat.lt_or_eq_of_le hw.progress.le with hlt | rfl
        · exact .inr ⟨s, n + 1, by omega, hw.next hlt hr⟩
        · exact hidle (by rw [hw.progress.active]; rfl)

end Runs

/-- **The hash unit.** A unit that is started when it is idle signals the digest of its operands
eight cycles later, unless it is reset, and it signals nothing else. -/
theorem hash_unit_digest (is : ℕ → HashInputs) :
    (∀ s, HashStarts is s → (∀ u ≤ 8, (is (s + u)).rst = false) →
      (hashAt is (s + 1 + 8)).done = true ∧
        hashResult (hashAt is (s + 1 + 8)) = hashDigest (is s).ra (is s).rb (is s).key) ∧
    ∀ t, (hashAt is t).done = true → ∃ s, s + 1 + 8 = t ∧ HashStarts is s ∧
      (∀ u ≤ 8, (is (s + u)).rst = false) ∧
      hashResult (hashAt is t) = hashDigest (is s).ra (is s).rb (is s).key := by
  refine ⟨fun s hs hr => ?_, fun t hd => ?_⟩
  · have hw := hs.works_le le_rfl hr
    exact ⟨hw.progress.done, hw.progress.result⟩
  · rcases rests_or_works t with hrest | ⟨s, n, rfl, hw⟩
    · rw [hrest.2] at hd
      cases hd
    · have hn : n = 8 := by
        have := hw.progress.done
        rw [hd] at this
        exact of_decide_eq_true this.symm
      subst hn
      exact ⟨s, rfl, hw.starts, hw.rst, hw.progress.result⟩

end LoadStore

end Microwatt
