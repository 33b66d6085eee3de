import Mathlib.Data.Rat.Floor
import Microwatt.CountZeroes
import Microwatt.LoadStore.Stages

/-!
# Single-precision loads and stores

Registers hold every number in double format. `lfs` widens the word it loads and `stfs` narrows the
register it stores. A denormal single is a normal double: on the way in its leading zeroes are
counted and shifted out, on the way out the low exponent bits say how far to shift back. The two
agree on every word.

## Main definitions

* `LoadStore.lfs` — the register that a word is loaded into
* `LoadStore.spValue`, `LoadStore.dpValue` — the numbers in a word and in a register

## Main results

* `LoadStore.single_round_trip`
-/

namespace Microwatt

open Bits

namespace LoadStore

/-- The register that a word is loaded into. -/
def lfs (s : BitVec 32) : BitVec 64 :=
  loadDpData s (s.extractLsb' 0 23 != 0) (countLeftZeroes (s.extractLsb' 0 23))

/-- The sign of a number. -/
def signed (neg : Bool) (y : ℚ) : ℚ := if neg then -y else y

/-- The number in a word, if it is one. -/
def spValue (s : BitVec 32) : Option ℚ :=
  let exp := (s.extractLsb' 23 8).toNat
  let frac := (s.extractLsb' 0 23).toNat
  if exp = 255 then none
  else
    some (signed (s.getLsbD 31)
      (if exp = 0 then frac * 2 ^ (-149 : ℤ) else (2 ^ 23 + frac) * 2 ^ ((exp : ℤ) - 150)))

/-- The number in a floating-point register, if it is one. -/
def dpValue (b : BitVec 64) : Option ℚ :=
  let exp := (b.extractLsb' 52 11).toNat
  let frac := (b.extractLsb' 0 52).toNat
  if exp = 2047 then none
  else
    some (signed (b.getLsbD 63)
      (if exp = 0 then frac * 2 ^ (-1074 : ℤ) else (2 ^ 52 + frac) * 2 ^ ((exp : ℤ) - 1075)))

/-! ### The shifters -/

variable {frac : BitVec 23} {s : BitVec 32} {f : ℕ}

section

variable {shift : BitVec 5} (h : shift.toNat ≤ 23)

include h

theorem shift_steps :
    (shift.extractLsb' 0 2).toNat + 4 * min (shift.extractLsb' 2 3).toNat 5 = shift.toNat := by
  have hlo : (shift.extractLsb' 0 2).toNat = shift.toNat % 4 := by
    rw [toNat_extract]
    omega
  have hhi : (shift.extractLsb' 2 3).toNat = shift.toNat / 4 := by
    rw [toNat_extract]
    omega
  omega

theorem toNat_shifter23l :
    (shifter23l frac shift).toNat = frac.toNat * 2 ^ shift.toNat % 2 ^ 23 := by
  rw [shifter23l, ← BitVec.shiftLeft_add, shift_steps h, BitVec.toNat_shiftLeft, Nat.shiftLeft_eq]

theorem toNat_shifter23r : (shifter23r frac shift).toNat = frac.toNat / 2 ^ shift.toNat := by
  rw [shifter23r, ← BitVec.shiftRight_add, shift_steps h, BitVec.toNat_ushiftRight,
    Nat.shiftRight_eq_div_pow]

end

/-! ### The fields of the register -/

/-- The exponent field of the register. -/
def expDp (s : BitVec 32) : ℕ :=
  let exp := (s.extractLsb' 23 8).toNat
  let frac := (s.extractLsb' 0 23).toNat
  if exp = 255 then 2047
  else if exp ≠ 0 then 896 + exp
  else if frac = 0 then 0
  else 874 + frac.log2

/-- The first 23 bits of the fraction field. -/
def fracDp (s : BitVec 32) : ℕ :=
  let exp := (s.extractLsb' 23 8).toNat
  let frac := (s.extractLsb' 0 23).toNat
  if exp = 0 ∧ frac ≠ 0 then frac * 2 ^ (23 - frac.log2) % 2 ^ 23 else frac

/-- The leading zeroes of a fraction. -/
theorem toNat_lz (h : frac.toNat ≠ 0) :
    (countLeftZeroes frac).toNat = 22 - frac.toNat.log2 ∧ frac.toNat.log2 < 23 := by
  have hlt : frac.toNat.log2 < 23 := (Nat.log2_lt h).mpr frac.isLt
  have hne : frac ≠ 0 := by
    rintro rfl
    exact h rfl
  refine ⟨?_, hlt⟩
  rw [countLeftZeroes_eq (by decide) _ hne, BitVec.toNat_ofNat]
  omega

/-- **The register** in terms of its fields. -/
theorem toNat_lfs (s : BitVec 32) :
    (lfs s).toNat = ((s.toNat / 2 ^ 31 * 2 ^ 11 + expDp s) * 2 ^ 23 + fracDp s) * 2 ^ 29 := by
  have hslt := s.isLt
  have hsign : (s.extractLsb' 31 1).toNat = s.toNat / 2 ^ 31 := by
    rw [toNat_extract]
    omega
  have happ : ∀ (ed : BitVec 11) (fr : BitVec 23), (s.extractLsb' 31 1 ++ ed ++ fr ++ 0#29).toNat =
      ((s.toNat / 2 ^ 31 * 2 ^ 11 + ed.toNat) * 2 ^ 23 + fr.toNat) * 2 ^ 29 := by
    intro ed fr
    have hzero : (0#29).toNat = 0 := rfl
    rw [toNat_append, toNat_append, toNat_append, hsign, hzero, Nat.add_zero]
  simp only [lfs, loadDpData, happ, expDp, fracDp]
  have helt := (s.extractLsb' 23 8).isLt
  have hflt := (s.extractLsb' 0 23).isLt
  generalize s.extractLsb' 23 8 = e at helt ⊢
  generalize s.extractLsb' 0 23 = f at hflt ⊢
  have hshift0 : (shifter23l f 0).toNat = f.toNat := by
    rw [toNat_shifter23l (by decide)]
    change f.toNat * 1 % 2 ^ 23 = _
    omega
  by_cases h0 : e = 0
  · subst h0
    by_cases hf : f = 0
    · subst hf
      simp only [bne_self_eq_false, Bool.not_false, if_true]
      rfl
    · have hf0 : f.toNat ≠ 0 := fun hc => hf (BitVec.eq_of_toNat_eq hc)
      have hnz : (!(f != 0)) = false := by rw [bne_iff_ne.mpr hf, Bool.not_true]
      obtain ⟨hlz, hlog⟩ := toNat_lz hf0
      have hexp : (896 - (countLeftZeroes f).setWidth 11 : BitVec 11).toNat =
          874 + f.toNat.log2 := by
        rw [BitVec.toNat_sub, BitVec.toNat_setWidth, hlz]
        change (2 ^ 11 - (22 - f.toNat.log2) % 2 ^ 11 + 896) % 2 ^ 11 = _
        omega
      have hcount : ((countLeftZeroes f).extractLsb' 0 5 + 1).toNat = 23 - f.toNat.log2 := by
        rw [BitVec.toNat_add, toNat_extract, hlz]
        change ((22 - f.toNat.log2) / 1 % 32 + 1) % 32 = _
        omega
      have hfrac : (shifter23l f ((countLeftZeroes f).extractLsb' 0 5 + 1)).toNat =
          f.toNat * 2 ^ (23 - f.toNat.log2) % 2 ^ 23 := by
        rw [toNat_shifter23l (by omega), hcount]
      rw [if_neg (by decide), if_neg (by simp), if_neg (by rw [hnz]; simp), if_neg (by simp),
        if_neg (by rw [hnz]; simp), hexp, hfrac, if_neg (by decide), if_neg (by simp),
        if_neg hf0, if_pos ⟨rfl, hf0⟩]
  · have he0 : e.toNat ≠ 0 := fun hc => h0 (BitVec.eq_of_toNat_eq hc)
    have hden : ¬(e.toNat = 0 ∧ f.toNat ≠ 0) := fun hc => he0 hc.1
    rw [if_pos h0, if_pos h0, hshift0, if_pos he0, if_neg hden]
    by_cases h255 : e = BitVec.allOnes 8
    · have he255 : e.toNat = 255 := by
        rw [h255]
        rfl
      rw [if_pos h255, if_pos he255]
      rfl
    · have he255 : e.toNat ≠ 255 := fun hc => h255 (BitVec.eq_of_toNat_eq hc)
      have hexp : (896 + e.setWidth 11 : BitVec 11).toNat = 896 + e.toNat := by
        rw [BitVec.toNat_add, BitVec.toNat_setWidth]
        change (896 + e.toNat % 2 ^ 11) % 2 ^ 11 = _
        omega
      rw [if_neg h255, if_neg he255, hexp]

theorem fields_lt (s : BitVec 32) : expDp s < 2 ^ 11 ∧ fracDp s < 2 ^ 23 := by
  have helt := (s.extractLsb' 23 8).isLt
  have hflt := (s.extractLsb' 0 23).isLt
  have hlog : (s.extractLsb' 0 23).toNat ≠ 0 → (s.extractLsb' 0 23).toNat.log2 < 23 := fun h =>
    (Nat.log2_lt h).mpr hflt
  constructor
  · simp only [expDp]
    split_ifs with h1 h2 h3
    · decide
    · omega
    · decide
    · have := hlog h3
      omega
  · simp only [fracDp]
    split_ifs
    · exact Nat.mod_lt _ (by decide)
    · exact hflt

theorem fields_special (h : (s.extractLsb' 23 8).toNat = 255) :
    expDp s = 2047 ∧ fracDp s = (s.extractLsb' 0 23).toNat := by
  simp only [expDp, fracDp]
  exact ⟨if_pos h, if_neg fun hc => by omega⟩

/-- A normal word. -/
theorem fields_normal (h : (s.extractLsb' 23 8).toNat ≠ 255) (h0 : (s.extractLsb' 23 8).toNat ≠ 0) :
    expDp s = 896 + (s.extractLsb' 23 8).toNat ∧ fracDp s = (s.extractLsb' 0 23).toNat := by
  simp only [expDp, fracDp]
  exact ⟨by rw [if_neg h, if_pos h0], if_neg fun hc => h0 hc.1⟩

theorem fields_zero (h : (s.extractLsb' 23 8).toNat = 0) (hf : (s.extractLsb' 0 23).toNat = 0) :
    expDp s = 0 ∧ fracDp s = 0 := by
  simp only [expDp, fracDp]
  refine ⟨?_, ?_⟩
  · rw [if_neg (by omega), if_neg (by omega), if_pos hf]
  · rw [if_neg fun hc => hc.2 hf, hf]

theorem fields_denormal (h : (s.extractLsb' 23 8).toNat = 0) (hf : (s.extractLsb' 0 23).toNat ≠ 0) :
    expDp s = 874 + (s.extractLsb' 0 23).toNat.log2 ∧
      fracDp s = (s.extractLsb' 0 23).toNat * 2 ^ (23 - (s.extractLsb' 0 23).toNat.log2) %
        2 ^ 23 := by
  simp only [expDp, fracDp]
  exact ⟨by rw [if_neg (by omega), if_neg (by omega), if_neg hf], if_pos ⟨h, hf⟩⟩

theorem lfs_fields (s : BitVec 32) :
    ((lfs s).extractLsb' 52 11).toNat = expDp s ∧
      ((lfs s).extractLsb' 0 52).toNat = fracDp s * 2 ^ 29 ∧
      (lfs s).getLsbD 63 = s.getLsbD 31 := by
  obtain ⟨he, hf⟩ := fields_lt s
  have hs := s.isLt
  rw [toNat_extract, toNat_extract, getLsbD_eq, getLsbD_eq, toNat_lfs]
  refine ⟨by omega, by omega, decide_eq_decide.mpr (by omega)⟩

/-! ### Denormal words -/

/-- A denormal fraction, its first one taken off and the rest shifted up. -/
theorem denormal_split (h0 : f ≠ 0) (hf : f < 2 ^ 23) :
    ∃ g, g < 2 ^ f.log2 ∧ f = 2 ^ f.log2 + g ∧ f.log2 < 23 ∧
      f * 2 ^ (23 - f.log2) % 2 ^ 23 = g * 2 ^ (23 - f.log2) := by
  have hlog : f.log2 < 23 := (Nat.log2_lt h0).mpr hf
  have hlo := Nat.log2_self_le h0
  have hhi : f < 2 ^ (f.log2 + 1) := Nat.lt_log2_self
  rw [Nat.pow_succ] at hhi
  refine ⟨f - 2 ^ f.log2, by omega, by omega, hlog, ?_⟩
  have hpow : 2 ^ f.log2 * 2 ^ (23 - f.log2) = 2 ^ 23 := by
    rw [← Nat.pow_add]
    congr 1
    omega
  have hmul : (f - 2 ^ f.log2) * 2 ^ (23 - f.log2) < 2 ^ 23 := by
    rw [← hpow]
    exact Nat.mul_lt_mul_of_pos_right (by omega) (Nat.two_pow_pos _)
  have hsplit : f * 2 ^ (23 - f.log2) = (f - 2 ^ f.log2) * 2 ^ (23 - f.log2) + 2 ^ 23 := by
    rw [Nat.sub_mul, hpow]
    have := Nat.mul_le_mul_right (2 ^ (23 - f.log2)) hlo
    omega
  rw [hsplit, Nat.add_mod_right, Nat.mod_eq_of_lt hmul]

/-! ### Storing -/

section Store

variable {d : BitVec 64} {sg ed fr : ℕ}
  (hd : d.toNat = ((sg * 2 ^ 11 + ed) * 2 ^ 23 + fr) * 2 ^ 29) (hfr : fr < 2 ^ 23)

include hd hfr

theorem toNat_exp_field (hed : ed < 2 ^ 11) : (d.extractLsb' 52 11).toNat = ed := by
  rw [toNat_extract, hd]
  omega

theorem toNat_sign_field (hed : ed < 2 ^ 11) : (d.extractLsb' 63 1).toNat = sg := by
  rw [toNat_extract, hd]
  omega

theorem store_normal (hlo : 896 < ed) (hhi : ed < 2 ^ 11) :
    (storeSpData d).toNat = sg * 2 ^ 31 + ed / 2 ^ 10 * 2 ^ 30 + ed % 2 ^ 7 * 2 ^ 23 + fr := by
  have hexp := toNat_exp_field hd hfr hhi
  have hsign := toNat_sign_field hd hfr hhi
  have h62 : (d.extractLsb' 62 1).toNat = ed / 2 ^ 10 := by
    rw [toNat_extract, hd]
    omega
  have hlow : (d.extractLsb' 29 30).toNat = ed % 2 ^ 7 * 2 ^ 23 + fr := by
    rw [toNat_extract, hd]
    omega
  simp only [storeSpData]
  rw [if_pos (by omega), toNat_append, toNat_append, hsign, h62, hlow]
  omega

/-- A register in the range of denormal words. -/
theorem store_denormal (hlo : 874 ≤ ed) (hhi : ed ≤ 896) :
    (storeSpData d).toNat = sg * 2 ^ 31 + (2 ^ 22 + fr / 2) / 2 ^ (896 - ed) := by
  have hexp := toNat_exp_field hd hfr (by omega)
  have hsign := toNat_sign_field hd hfr (by omega)
  have hfrac : (1#1 ++ d.extractLsb' 30 22 : BitVec 23).toNat = 2 ^ 22 + fr / 2 := by
    have hlow : (d.extractLsb' 30 22).toNat = fr / 2 := by
      rw [toNat_extract, hd]
      omega
    rw [toNat_append, hlow]
    rfl
  have hcount : (0 - (d.extractLsb' 52 11).extractLsb' 0 5 : BitVec 5).toNat = 896 - ed := by
    have hlow : ((d.extractLsb' 52 11).extractLsb' 0 5).toNat = ed % 2 ^ 5 := by
      rw [toNat_extract, hexp, Nat.pow_zero, Nat.div_one]
    rw [BitVec.toNat_sub, hlow]
    change (2 ^ 5 - ed % 2 ^ 5 + 0) % 2 ^ 5 = _
    omega
  simp only [storeSpData]
  rw [if_neg (by omega), if_pos (by omega), toNat_append, toNat_append, hsign,
    toNat_shifter23r (by omega), hcount, hfrac]
  change (sg * 2 ^ 8 + 0) * 2 ^ 23 + _ = _
  omega

theorem store_zero (hhi : ed < 874) : (storeSpData d).toNat = sg * 2 ^ 31 := by
  have hexp := toNat_exp_field hd hfr (by omega)
  have hsign := toNat_sign_field hd hfr (by omega)
  have hzero : (0#31).toNat = 0 := rfl
  simp only [storeSpData]
  rw [if_neg (by omega), if_neg (by omega), toNat_append, hsign, hzero, Nat.add_zero]

end Store

/-! ### There and back -/

theorem denormal_back {f g l : ℕ} (hf : f = 2 ^ l + g) (hl : l < 23) :
    (2 ^ 22 + g * 2 ^ (23 - l) / 2) / 2 ^ (896 - (874 + l)) = f := by
  have hpow : 2 ^ (23 - l) = 2 ^ (22 - l) * 2 := by
    rw [← Nat.pow_succ]
    congr 1
    omega
  have htop : 2 ^ 22 = 2 ^ l * 2 ^ (22 - l) := by
    rw [← Nat.pow_add]
    congr 1
    omega
  rw [hpow, ← Nat.mul_assoc, Nat.mul_div_cancel _ (by decide), htop, ← Nat.add_mul,
    show 896 - (874 + l) = 22 - l by omega, Nat.mul_div_cancel _ (Nat.two_pow_pos _), hf]

/-- **Storing what was loaded** gives the word again. -/
theorem storeSpData_lfs (s : BitVec 32) : storeSpData (lfs s) = s := by
  have hnat := toNat_lfs s
  obtain ⟨helt, hflt⟩ := fields_lt s
  have hslt := s.isLt
  have hse : (s.extractLsb' 23 8).toNat = s.toNat / 2 ^ 23 % 2 ^ 8 := toNat_extract _ _ _
  have hsf : (s.extractLsb' 0 23).toNat = s.toNat % 2 ^ 23 := by
    rw [toNat_extract, Nat.pow_zero, Nat.div_one]
  refine BitVec.eq_of_toNat_eq ?_
  by_cases he : (s.extractLsb' 23 8).toNat = 0
  · by_cases hf : (s.extractLsb' 0 23).toNat = 0
    · obtain ⟨hexp, -⟩ := fields_zero he hf
      rw [store_zero hnat hflt (by omega)]
      omega
    · obtain ⟨hexp, hfrac⟩ := fields_denormal he hf
      obtain ⟨g, -, hfg, hlog, hshift⟩ := denormal_split hf (s.extractLsb' 0 23).isLt
      rw [store_denormal hnat hflt (by omega) (by omega), hexp, hfrac, hshift,
        denormal_back hfg hlog]
      omega
  · by_cases h255 : (s.extractLsb' 23 8).toNat = 255
    · obtain ⟨hexp, hfrac⟩ := fields_special h255
      rw [store_normal hnat hflt (by omega) helt, hexp, hfrac]
      omega
    · obtain ⟨hexp, hfrac⟩ := fields_normal h255 he
      have he8 := (s.extractLsb' 23 8).isLt
      rw [store_normal hnat hflt (by omega) helt, hexp, hfrac]
      omega

/-- The number in the register of a denormal word. -/
theorem denormal_value {f g l : ℕ} (hf : f = 2 ^ l + g) (hl : l < 23) :
    ((2 : ℚ) ^ 52 + (g * 2 ^ (23 - l) * 2 ^ 29 : ℕ)) * 2 ^ (((874 + l : ℕ) : ℤ) - 1075) =
      f * 2 ^ (-149 : ℤ) := by
  obtain ⟨k, hk⟩ : ∃ k, l + k = 23 := ⟨23 - l, by omega⟩
  have hexp : ((874 + l : ℕ) : ℤ) - 1075 = -149 - 29 - (k : ℤ) := by
    push_cast
    omega
  have h52 : (2 : ℚ) ^ 52 = 2 ^ l * 2 ^ k * 2 ^ 29 := by
    rw [← pow_add, hk]
    norm_num
  rw [hexp, show 23 - l = k by omega, zpow_sub₀ (by norm_num), zpow_sub₀ (by norm_num),
    zpow_natCast, h52, hf]
  have h2k : (2 : ℚ) ^ k ≠ 0 := by positivity
  push_cast
  field_simp
  ring

/-- **The number** is the same. -/
theorem dpValue_lfs (s : BitVec 32) : dpValue (lfs s) = spValue s := by
  obtain ⟨hexp, hfrac, hsign⟩ := lfs_fields s
  have he8 := (s.extractLsb' 23 8).isLt
  have hf23 := (s.extractLsb' 0 23).isLt
  simp only [dpValue, spValue, hexp, hfrac, hsign]
  by_cases h255 : (s.extractLsb' 23 8).toNat = 255
  · obtain ⟨hed, -⟩ := fields_special h255
    rw [if_pos h255, if_pos hed]
  by_cases he : (s.extractLsb' 23 8).toNat = 0
  · by_cases hf : (s.extractLsb' 0 23).toNat = 0
    · obtain ⟨hed, hfd⟩ := fields_zero he hf
      rw [if_neg (by omega), if_pos hed, if_neg h255, if_pos he, hfd, hf]
      simp
    · obtain ⟨hed, hfd⟩ := fields_denormal he hf
      obtain ⟨g, -, hfg, hlog, hshift⟩ := denormal_split hf hf23
      rw [if_neg (by omega), if_neg (by omega), if_neg h255, if_pos he, hed, hfd, hshift]
      congr 2
      exact denormal_value hfg hlog
  · obtain ⟨hed, hfd⟩ := fields_normal h255 he
    rw [if_neg (by omega), if_neg (by omega), if_neg h255, if_neg he, hed, hfd]
    congr 2
    generalize (s.extractLsb' 0 23).toNat = f
    generalize (s.extractLsb' 23 8).toNat = e
    rw [show (((896 + e : ℕ) : ℤ) - 1075) = (e : ℤ) - 150 - 29 by push_cast; ring,
      zpow_sub₀ (by norm_num) ((e : ℤ) - 150)]
    push_cast
    norm_num
    ring

/-- **Single-precision loads and stores.** Loading a word and storing the register gives the word
again, the register has the sign and the number of the word, and a register that some word is loaded
into survives being stored and loaded. -/
theorem single_round_trip (s : BitVec 32) :
    storeSpData (lfs s) = s ∧ (lfs s).getLsbD 63 = s.getLsbD 31 ∧ dpValue (lfs s) = spValue s ∧
      ∀ d, lfs s = d → lfs (storeSpData d) = d := by
  refine ⟨storeSpData_lfs s, (lfs_fields s).2.2, dpValue_lfs s, ?_⟩
  rintro d rfl
  rw [storeSpData_lfs]

/-! ### In the pipeline -/

/-- The third stage widens the word that it has taken from the data. -/
theorem loadDpData_r3in (s : State) (i : Inputs) :
    loadDpData (r3in true s i).ldSpData (r3in true s i).ldSpNz (r3in true s i).ldSpLz =
      lfs ((dataTrimmed s i).extractLsb' 0 32) := by
  have hfrac : ((dataTrimmed s i).extractLsb' 0 32).extractLsb' 0 23 =
      (dataTrimmed s i).extractLsb' 0 23 := by
    refine BitVec.eq_of_toNat_eq ?_
    rw [toNat_extract, toNat_extract, toNat_extract]
    omega
  rw [lfs, hfrac]
  rfl

end LoadStore

end Microwatt
