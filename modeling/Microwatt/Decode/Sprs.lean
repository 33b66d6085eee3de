import Microwatt.Decode.Decode2
import Microwatt.Lib.Clocked
import Mathlib.Data.Fintype.Defs

/-!
# The number of a SPR on its way to execute1

Three tables stand between the number in a `mfspr` or `mtspr` and the register that is meant.
Decode1 looks the number up in `map_spr` and `decode_ram_spr`, decode2 finds out by itself whether
loadstore1 holds the register, and execute1 reads the selector. What execute1 may rely on is stated
here for the instruction word that comes with the selector, and proved for the two decode stages
connected to each other.

Sixteen SPRs are kept in two small RAMs, an even and an odd one, of which branches and returns from
interrupts read or write up to two at a time. Which ones is said by `RamSpr`, `Decode2.readsSpr` and
`Decode2.writesSpr`; decode2 says it with addresses. The debug unit may use the read addresses of an
instruction that does not need them.

The stalls and flushes of the two stages are arbitrary, and so is everything else that comes in.

## Main definitions

* `Decode2.SprDecoded`, `Decode2.RamsprDecoded`, `Decode2.MsrPrivileged`
* `Decode2.Front` — decode1 and decode2

## Main results

* `Decode2.sprDecoded`, `Decode2.ramsprDecoded`, `Decode2.msrPrivileged`
-/

namespace Microwatt

open Clocked Execute1 Bool Decode1

/-! ### SPRs in RAM -/

/-- The SPRs that are kept in RAM. -/
inductive RamSpr
  | lr | ctr | tar | srr0 | srr1 | hsrr0 | hsrr1 | sprg0 | sprg1 | sprg2 | sprg3 | hsprg0 | hsprg1
  | vrsave | hashkeyr | hashpkeyr
  deriving DecidableEq, Repr

open RamSpr

namespace RamSpr

instance : Fintype RamSpr where
  elems := ⟨[lr, ctr, tar, srr0, srr1, hsrr0, hsrr1, sprg0, sprg1, sprg2, sprg3, hsprg0, hsprg1,
    vrsave, hashkeyr, hashpkeyr], by decide⟩
  complete r := by cases r <;> decide

/-- The number of a SPR; SPRG3 can also be read under a second one. -/
def ofNum (n : BitVec 10) : Option RamSpr :=
  match n.toNat with
  | 8 => some lr
  | 9 => some ctr
  | 815 => some tar
  | 26 => some srr0
  | 27 => some srr1
  | 314 => some hsrr0
  | 315 => some hsrr1
  | 272 => some sprg0
  | 273 => some sprg1
  | 274 => some sprg2
  | 275 | 259 => some sprg3
  | 304 => some hsprg0
  | 305 => some hsprg1
  | 256 => some vrsave
  | 468 => some hashkeyr
  | 469 => some hashpkeyr
  | _ => none

/-- Whether it is in the odd RAM. -/
def isOdd : RamSpr → Bool
  | ctr | srr1 | hsrr1 | sprg1 | sprg3 | hsprg1 | hashkeyr | hashpkeyr => true
  | _ => false

def index : RamSpr → RamsprIndex
  | srr0 | srr1 => 0
  | hsrr0 | hsrr1 => 1
  | sprg0 | sprg1 => 2
  | sprg2 | sprg3 => 3
  | hsprg0 | hsprg1 => 4
  | lr | ctr => 5
  | tar | hashkeyr => 6
  | vrsave | hashpkeyr => 7

theorem place_inj {a b : RamSpr} (ho : a.isOdd = b.isOdd) (hi : a.index = b.index) : a = b := by
  revert ho hi
  cases a <;> cases b <;> decide

/-- `decode_ram_spr` finds the place of the SPR. -/
theorem decodeRamSpr_eq (n : BitVec 10) :
    decodeRamSpr n =
      match ofNum n with
      | some r => { index := r.index, isodd := r.isOdd, is32b := r == vrsave, valid := true }
      | none => {} := by
  revert n
  decide +kernel

end RamSpr

namespace Decode2

/-! ### What execute1 relies on -/

/-- The instruction for execute1 moves from or to a SPR. -/
def MovesSpr (e : Decode2ToExecute1) : Prop := e.insnType = .mfspr ∨ e.insnType = .mtspr

instance (e : Decode2ToExecute1) : Decidable (MovesSpr e) := inferInstanceAs (Decidable (_ ∨ _))

/-- The entry of `map_spr` as decode2 passes it on: not to read what can only be written, nor the
other way round. -/
def selectFor (op : InsnType) (id : SprId) : SprId :=
  { id with valid := id.valid && !(op == .mfspr && id.wonly) && !(op == .mtspr && id.ronly) }

/-- The fields of a move from or to a SPR are those that belong to its number. -/
@[mk_iff]
structure SprDecoded (e : Decode2ToExecute1) : Prop where
  select : MovesSpr e →
    e.sprSelect = selectFor e.insnType (mapSpr (decodeSprNum e.insn))
  isRam : MovesSpr e → e.sprIsRam = (decodeRamSpr (decodeSprNum e.insn)).valid
  unit : MovesSpr e →
    e.unit = if sprInLdst (decodeSprNum e.insn) then .ldst else .alu
  decCtr : MovesSpr e → e.decCtr = false

instance (e : Decode2ToExecute1) : Decidable (SprDecoded e) :=
  decidable_of_iff _ (sprDecoded_iff ..).symm

/-- The instruction sets LR. -/
def links (e : Decode2ToExecute1) : Bool :=
  (e.insnType == .b || e.insnType == .bc || e.insnType == .bcreg) && e.insn.getLsbD 0

/-- The instruction decrements CTR: BO(2) = 0 and it does not branch to CTR. -/
def decrements (e : Decode2ToExecute1) : Bool :=
  !e.insn.getLsbD 23 &&
    (e.insnType == .bc || (e.insnType == .bcreg && !(e.insn.getLsbD 10 && !e.insn.getLsbD 6)))

/-- The register that `bclr`, `bcctr` or `bctar` branches to. -/
def branchReg (insn : BitVec 32) : RamSpr :=
  if !insn.getLsbD 10 then .lr else if !insn.getLsbD 6 then .ctr else .tar

/-- The registers that `rfid`, `hrfid` or `rfscv` returns with. -/
def returnRegs (insn : BitVec 32) : RamSpr × RamSpr :=
  if insn.getLsbD 7 then (.lr, .ctr)
  else if !insn.getLsbD 9 then (.srr0, .srr1)
  else (.hsrr0, .hsrr1)

/-- The key of `hashst` and `hashchk`, or of `hashstp` and `hashchkp`. -/
def hashReg (insn : BitVec 32) : RamSpr := if insn.getLsbD 7 then .hashkeyr else .hashpkeyr

def readsSpr (e : Decode2ToExecute1) (r : RamSpr) : Bool :=
  match e.insnType with
  | .mfspr => ofNum (decodeSprNum e.insn) == some r
  | .bc => decrements e && r == .ctr
  | .bcreg => r == branchReg e.insn || (decrements e && r == .ctr)
  | .rfid => r == (returnRegs e.insn).1 || r == (returnRegs e.insn).2
  | .load | .store => e.isSigned && r == hashReg e.insn
  | _ => false

/-- The SPR whose value is the result, or the target of the branch. -/
def sourceSpr (e : Decode2ToExecute1) : Option RamSpr :=
  match e.insnType with
  | .mfspr => ofNum (decodeSprNum e.insn)
  | .bcreg => some (branchReg e.insn)
  | _ => none

def writesSpr (e : Decode2ToExecute1) (r : RamSpr) : Bool :=
  match e.insnType with
  | .mtspr => ofNum (decodeSprNum e.insn) == some r
  | _ => (links e && r == .lr) || (decrements e && r == .ctr)

/-- The fields that say what is written. -/
@[mk_iff] structure RamsprWrites (e : Decode2ToExecute1) : Prop where
  writes : ∀ r : RamSpr,
    ((if r.isOdd then e.ramsprWriteOdd else e.ramsprWriteEven) && e.ramsprWraddr == r.index) =
      writesSpr e r
  lr : e.lr = links e
  decCtr : e.decCtr = decrements e
  unit : (∃ r, writesSpr e r = true) → e.unit = .alu

/-- The fields that say what is read. -/
@[mk_iff] structure RamsprReads (e : Decode2ToExecute1) : Prop where
  addr : ∀ r, readsSpr e r = true →
    (if r.isOdd then e.ramsprOddRdaddr else e.ramsprEvenRdaddr) = r.index
  source : ∀ r, sourceSpr e = some r →
    e.ramsprRdOdd = r.isOdd ∧ e.ramspr32bit = (r == .vrsave)

/-- Both, for an instruction that is valid. -/
@[mk_iff]
structure RamsprDecoded (e : Decode2ToExecute1) : Prop where
  writes : RamsprWrites e
  reads : e.valid = true → RamsprReads e

instance (e : Decode2ToExecute1) : Decidable (RamsprWrites e) :=
  decidable_of_iff _ (ramsprWrites_iff ..).symm

instance (e : Decode2ToExecute1) : Decidable (RamsprReads e) :=
  decidable_of_iff _ (ramsprReads_iff ..).symm

instance (e : Decode2ToExecute1) : Decidable (RamsprDecoded e) :=
  decidable_of_iff _ (ramsprDecoded_iff ..).symm

/-! ### Decode1 -/

def isBranch (row : DecodeRom) : Bool :=
  row.insnType == .b || row.insnType == .bc || row.insnType == .bcreg

/-- What the table says of moves and branches: execute1 performs them, and exactly the branches may
set LR. Writing the MSR is privileged. -/
structure RowFits (row : DecodeRom) : Prop where
  moves : row.insnType = .mfspr ∨ row.insnType = .mtspr → row.unit = .alu
  branches : isBranch row = true → row.unit = .alu
  links : row.lr = isBranch row
  msr : row.insnType = .mtmsrd → row.privileged = true

theorem rowFits_decodeRom (hasFpu : Bool) (code : InsnCode) : RowFits (decodeRom hasFpu code) := by
  have h : ∀ code, let row := decodeRom hasFpu code
      (row.insnType = .mfspr ∨ row.insnType = .mtspr → row.unit = .alu) ∧
        (isBranch row = true → row.unit = .alu) ∧ row.lr = isBranch row ∧
        (row.insnType = .mtmsrd → row.privileged = true) := by
    refine InsnCode.forall_code ?_
    cases hasFpu <;> decide +kernel
  exact ⟨(h code).1, (h code).2.1, (h code).2.2.1, (h code).2.2.2⟩

/-- What decode1 says about the number of the SPR, for the instruction word it holds. -/
structure Looked (s : Decode1.State) : Prop where
  sprInfo : s.r.sprInfo = mapSpr (decodeSprNum s.r.insn)
  ramSpr : s.r.ramSpr = decodeRamSpr (decodeSprNum s.r.insn)
  row : RowFits s.decode

theorem Looked.step {hasFpu : Bool} {s : Decode1.State} (h : Looked s) (i : Decode1.Inputs) :
    Looked (Decode1.step hasFpu s i) := by
  have hrow : RowFits (Decode1.step hasFpu s i).decode := by
    simp only [Decode1.step]
    split
    · exact h.row
    · exact rowFits_decodeRom hasFpu _
  have hr : (Decode1.step hasFpu s i).r = rNext s i := rfl
  refine ⟨?_, ?_, hrow⟩ <;> rw [hr, rNext] <;> split_ifs
  · rfl
  · exact h.sprInfo
  · exact h.sprInfo
  · exact h.sprInfo
  · rfl
  · rfl
  · exact h.ramSpr
  · exact h.ramSpr
  · exact h.ramSpr
  · rfl

/-! ### Decode2 -/

theorem sprDecoded_default : SprDecoded {} := by decide

/-- The operands and the read address for the debug unit do not matter. -/
theorem SprDecoded.congr {e e' : Decode2ToExecute1} (h : SprDecoded e)
    (hop : e'.insnType = e.insnType) (hinsn : e'.insn = e.insn)
    (hsel : e'.sprSelect = e.sprSelect) (hram : e'.sprIsRam = e.sprIsRam)
    (hunit : e'.unit = e.unit) (hctr : e'.decCtr = e.decCtr) : SprDecoded e' := by
  have hmoves : MovesSpr e' → MovesSpr e := by
    rw [MovesSpr, MovesSpr, hop]
    exact id
  constructor <;> intro hm
  · rw [hsel, hop, hinsn]; exact h.select (hmoves hm)
  · rw [hram, hinsn]; exact h.isRam (hmoves hm)
  · rw [hunit, hinsn]; exact h.unit (hmoves hm)
  · rw [hctr]; exact h.decCtr (hmoves hm)

variable {e : Decode2ToExecute1} {g : Generics} {i : Inputs} {s1 : Decode1.State} {s : Front}

theorem sprDecoded_freshE {s : Decode1.State} (h : Looked s) (hd : i.d = dOut s) :
    SprDecoded (freshE g i) := by
  have hinfo : i.d.sprInfo = mapSpr (decodeSprNum i.d.insn) := by
    rw [hd]; exact h.sprInfo
  have hram : i.d.ramSpr = decodeRamSpr (decodeSprNum i.d.insn) := by
    rw [hd]; exact h.ramSpr
  have hrow : RowFits i.d.decode := by rw [hd]; exact h.row
  constructor <;> intro hm
  · change selectFor (op i.d) i.d.sprInfo = _
    rw [hinfo]
    rfl
  · have hmoves : movesSpr i.d = true := by
      rcases hm with hm | hm <;> simp only [freshE] at hm <;> simp [movesSpr, hm]
    change (movesSpr i.d && i.d.ramSpr.valid) = _
    rw [hmoves, hram]
    rfl
  · have hmoves : movesSpr i.d = true := by
      rcases hm with hm | hm <;> simp only [freshE] at hm <;> simp [movesSpr, hm]
    change Decode2.unit i.d = _
    rw [Decode2.unit, hmoves, Bool.true_and, hrow.moves hm]
    rfl
  · rcases hm with hm | hm <;> simp only [freshE] at hm <;> simp [freshE, decctr, hm]

theorem sprDecoded_step {s : State} (h : SprDecoded s.dc2.e) (h1 : Looked s1)
    (hd : i.d = dOut s1) : SprDecoded (step g s i).dc2.e := by
  have hpend : SprDecoded (pending g s i).e := by
    rw [pending]
    split
    · exact h
    · exact sprDecoded_freshE h1 hd
  change SprDecoded (dc2Next g s i).e
  rw [dc2Next]
  split_ifs
  · exact sprDecoded_default
  · exact h.congr rfl rfl rfl rfl rfl rfl
  · exact hpend.congr rfl rfl rfl rfl rfl rfl

/-- What execute1 relies on in `mtmsr(d)`. -/
def MsrPrivileged (e : Decode2ToExecute1) : Prop := e.insnType = .mtmsrd → e.privileged = true

theorem msrPrivileged_step {s : State} (h : MsrPrivileged s.dc2.e) (h1 : Looked s1)
    (hd : i.d = dOut s1) : MsrPrivileged (step g s i).dc2.e := by
  have hpend : MsrPrivileged (pending g s i).e := by
    rw [pending]
    split
    · exact h
    · intro hop
      have hrow : i.d.decode.privileged = true := by
        change i.d.decode.insnType = .mtmsrd at hop
        rw [hd] at hop ⊢
        exact h1.row.msr hop
      change privileged i.d i.tbRdProt = true
      rw [privileged, hrow]
      rfl
  change MsrPrivileged (dc2Next g s i).e
  rw [dc2Next]
  split_ifs
  · exact nofun
  · exact h
  · exact hpend

/-! ### Addresses in RAM -/

theorem ramsprWrites_default : RamsprWrites {} where
  writes := by intro r; cases r <;> rfl
  lr := rfl
  decCtr := rfl
  unit := fun _ => rfl

theorem RamsprWrites.congr {e e' : Decode2ToExecute1} (h : RamsprWrites e)
    (hop : e'.insnType = e.insnType) (hinsn : e'.insn = e.insn)
    (heven : e'.ramsprWriteEven = e.ramsprWriteEven) (hodd : e'.ramsprWriteOdd = e.ramsprWriteOdd)
    (haddr : e'.ramsprWraddr = e.ramsprWraddr) (hlr : e'.lr = e.lr)
    (hctr : e'.decCtr = e.decCtr) (hunit : e'.unit = e.unit) : RamsprWrites e' := by
  have hlinks : links e' = links e := by rw [links, links, hop, hinsn]
  have hdec : decrements e' = decrements e := by rw [decrements, decrements, hop, hinsn]
  have hw : ∀ r, writesSpr e' r = writesSpr e r := by
    intro r
    rw [writesSpr, writesSpr, hop, hinsn, hlinks, hdec]
  refine ⟨fun r => ?_, ?_, ?_, ?_⟩
  · rw [heven, hodd, haddr, hw]; exact h.writes r
  · rw [hlr, hlinks]; exact h.lr
  · rw [hctr, hdec]; exact h.decCtr
  · rw [hunit]
    rintro ⟨r, hr⟩
    exact h.unit ⟨r, (hw r).symm.trans hr⟩

theorem ofNum_ldst {n : BitVec 10} {r : RamSpr} (h : ofNum n = some r) :
    sprInLdst n = false := by
  have hall : ∀ n, (ofNum n).isSome = true → sprInLdst n = false := by decide +kernel
  exact hall n (by rw [h]; rfl)

section Fresh

variable {g : Generics} {i : Inputs} {s : Decode1.State}

section

variable (h : Looked s) (hd : i.d = dOut s)

include h hd

theorem lr_eq : lr i.d = links (freshE g i) := by
  have hrow : RowFits i.d.decode := by rw [hd]; exact h.row
  rw [lr, hrow.links]
  rfl

theorem ramsprWrites_freshE : RamsprWrites (freshE g i) := by
  have hram : i.d.ramSpr = decodeRamSpr (decodeSprNum i.d.insn) := by
    rw [hd]; exact h.ramSpr
  have hrow : RowFits i.d.decode := by rw [hd]; exact h.row
  have hlr : lr i.d = links (freshE g i) := lr_eq h hd
  have hdec : decctr i.d = decrements (freshE g i) := rfl
  refine ⟨fun r => ?_, hlr, hdec, ?_⟩
  · by_cases hop : op i.d = .mtspr
    · have hw : writesSpr (freshE g i) r =
          (ofNum (decodeSprNum i.d.insn) == some r) := by
        simp [writesSpr, freshE, hop]
      rw [hw]
      simp only [freshE, ramsprWraddr, hop, hram, decodeRamSpr_eq]
      cases ofNum (decodeSprNum i.d.insn) with
      | none => cases r <;> rfl
      | some q => cases q <;> cases r <;> rfl
    · have hw : writesSpr (freshE g i) r =
          ((lr i.d && r == .lr) || (decctr i.d && r == .ctr)) := by
        rw [hlr, hdec]
        simp [writesSpr, freshE, hop]
      have haddr : ramsprWraddr i.d = if lr i.d then 5 else if decctr i.d then 5 else 0 := by
        simp only [ramsprWraddr]
      have hne : (op i.d == .mtspr) = false := by simp [hop]
      rw [hw]
      simp only [freshE, hne, haddr, false_eq_true, if_false]
      cases lr i.d <;> cases decctr i.d <;> cases r <;> rfl
  · rintro ⟨r, hr⟩
    by_cases hop : op i.d = .mtspr
    · have hn : ofNum (decodeSprNum i.d.insn) = some r := by
        simpa [writesSpr, freshE, hop] using hr
      change Decode2.unit i.d = _
      rw [Decode2.unit, sprn, ofNum_ldst hn, Bool.and_false]
      exact hrow.moves (.inr hop)
    · have hb : isBranch i.d.decode = true := by
        have hor : links (freshE g i) = true ∨ decrements (freshE g i) = true := by
          simp only [writesSpr, freshE] at hr
          split at hr
          · next h => exact absurd (by simpa using h) hop
          · rcases or_eq_true_iff.mp hr with hr | hr
            · exact .inl (and_eq_true_iff.mp hr).1
            · exact .inr (and_eq_true_iff.mp hr).1
        rcases hor with hl | hl
        · exact (and_eq_true_iff.mp hl).1
        · have := (and_eq_true_iff.mp hl).2
          simp only [freshE, op, or_eq_true, and_eq_true] at this
          rcases this with h | h <;> simp [isBranch, h]
      have hmoves : movesSpr i.d = false := by
        simp only [isBranch, or_eq_true, beq_iff_eq] at hb
        rcases hb with (hb | hb) | hb <;> simp [movesSpr, op, hb]
      change Decode2.unit i.d = _
      rw [Decode2.unit, hmoves, Bool.false_and]
      exact hrow.branches hb

theorem ramsprReads_freshE : RamsprReads (freshE g i) := by
  have hram : i.d.ramSpr = decodeRamSpr (decodeSprNum i.d.insn) := by
    rw [hd]; exact h.ramSpr
  refine ⟨fun r hr => ?_, fun r hr => ?_⟩
  · simp only [readsSpr] at hr
    simp only [freshE, ramsprOddRdaddr, ramsprEvenRdaddr]
    split at hr <;> try cases hr
    all_goals rename_i hop; change op i.d = _ at hop; simp only [hop]
    · rw [hram, decodeRamSpr_eq]
      have hn : ofNum (decodeSprNum i.d.insn) = some r := eq_of_beq hr
      rw [hn]
      cases r <;> rfl
    · obtain ⟨h1, h2⟩ := and_eq_true_iff.mp hr
      have h1' : decctr i.d = true := h1
      rw [eq_of_beq h2, h1']
      rfl
    · rcases or_eq_true_iff.mp hr with hr | hr
      · rw [eq_of_beq hr]
        change (if (branchReg i.d.insn).isOdd then _ else _) = (branchReg i.d.insn).index
        rw [branchReg]
        cases i.d.insn.getLsbD 10 <;> cases i.d.insn.getLsbD 6 <;> simp [isOdd, index]
      · obtain ⟨h1, h2⟩ := and_eq_true_iff.mp hr
        have h1' : decctr i.d = true := h1
        rw [eq_of_beq h2, h1']
        rfl
    · change (r == (returnRegs i.d.insn).1 || r == (returnRegs i.d.insn).2) = true at hr
      rw [returnRegs] at hr
      cases h7 : i.d.insn.getLsbD 7 <;> cases h9 : i.d.insn.getLsbD 9 <;>
        simp only [h7, h9] at hr <;> cases r <;> first | rfl | cases hr
    all_goals
      obtain ⟨h1, h2⟩ := and_eq_true_iff.mp hr
      have h1' : i.d.decode.isSigned = true := h1
      rw [eq_of_beq h2, h1']
      change (if (hashReg i.d.insn).isOdd then _ else _) = (hashReg i.d.insn).index
      rw [hashReg]
      cases i.d.insn.getLsbD 7 <;> rfl
  · simp only [sourceSpr] at hr
    simp only [freshE, ramsprRdOdd]
    split at hr <;> try cases hr
    all_goals rename_i hop; change op i.d = _ at hop; simp only [hop]
    · have hn : ofNum (decodeSprNum i.d.insn) = some r := hr
      rw [hram, decodeRamSpr_eq, hn]
      exact ⟨rfl, rfl⟩
    · change _ = (branchReg i.d.insn).isOdd ∧ _ = (branchReg i.d.insn == _)
      rw [branchReg]
      cases i.d.insn.getLsbD 10 <;> cases i.d.insn.getLsbD 6 <;> exact ⟨rfl, rfl⟩

end

end Fresh

/-- What the register of decode2 says about the SPRs in RAM. The read addresses may belong to the
debug unit unless `read_rspr` is set. -/
structure RamsprHeld (r : Reg) : Prop where
  writes : RamsprWrites r.e
  reads : r.readRspr = true → RamsprReads r.e
  needed : r.e.valid = true ∨ r.busy = true →
    r.readRspr = true ∨ (∀ q, readsSpr r.e q = false) ∧ sourceSpr r.e = none

theorem ramsprHeld_default : RamsprHeld {} where
  writes := ramsprWrites_default
  reads h := by cases h
  needed h := by rcases h with h | h <;> cases h

/-- An instruction that reads none of them has no read addresses to get wrong. -/
theorem ramsprReads_of_none (h : ∀ q, readsSpr e q = false) (hs : sourceSpr e = none) :
    RamsprReads e := by
  refine ⟨fun r hr => ?_, fun r hr => ?_⟩
  · rw [h r] at hr; cases hr
  · rw [hs] at hr; cases hr

theorem RamsprHeld.decoded {r : Reg} (h : RamsprHeld r) : RamsprDecoded r.e where
  writes := h.writes
  reads hv := by
    rcases h.needed (.inl hv) with hr | ⟨hr, hs⟩
    · exact h.reads hr
    · exact ramsprReads_of_none hr hs

/-- `sprs_busy` is set for every instruction that reads one of them. -/
theorem reads_of_sprsBusy {s : Decode1.State} (h : Looked s) (hd : i.d = dOut s)
    (hb : sprsBusy i.d = false) :
    (∀ q, readsSpr (freshE g i) q = false) ∧ sourceSpr (freshE g i) = none := by
  have hram : i.d.ramSpr = decodeRamSpr (decodeSprNum i.d.insn) := by
    rw [hd]; exact h.ramSpr
  have hdec : op i.d = .bc → decrements (freshE g i) = false := by
    intro hop
    simp only [sprsBusy, hop, hashes] at hb
    exact (or_eq_false_iff.mp hb).1
  have hnum : op i.d = .mfspr → ofNum (decodeSprNum i.d.insn) = none := by
    intro hop
    simp only [sprsBusy, hop, hram, decodeRamSpr_eq] at hb
    cases hn : ofNum (decodeSprNum i.d.insn) with
    | none => rfl
    | some r => rw [hn] at hb; cases hb
  have hhash : op i.d = .load ∨ op i.d = .store → i.d.decode.isSigned = false := by
    rintro (hop | hop) <;> simpa [sprsBusy, hop, hashes, decctr] using hb
  refine ⟨fun q => ?_, ?_⟩
  · simp only [readsSpr]
    split <;> rename_i hop
    · change (ofNum (decodeSprNum i.d.insn) == some q) = false
      rw [hnum hop]
      rfl
    · rw [hdec hop, Bool.false_and]
    · have hop' : op i.d = .bcreg := hop
      simp [sprsBusy, hop'] at hb
    · have hop' : op i.d = .rfid := hop
      simp [sprsBusy, hop'] at hb
    · change (i.d.decode.isSigned && _) = false
      rw [hhash (.inl hop), Bool.false_and]
    · change (i.d.decode.isSigned && _) = false
      rw [hhash (.inr hop), Bool.false_and]
    · rfl
  · simp only [sourceSpr]
    split <;> rename_i hop
    · exact hnum hop
    · have hop' : op i.d = .bcreg := hop
      simp [sprsBusy, hop'] at hb
    · rfl

section

variable {s : State} (h : RamsprHeld s.dc2) (h1 : Looked s1) (hd : i.d = dOut s1)

include h h1 hd

theorem ramsprHeld_pending :
    RamsprWrites (pending g s i).e ∧
      ((pending g s i).readRspr = true → RamsprReads (pending g s i).e) ∧
      (validIn s i = true → (pending g s i).readRspr = true ∨
        (∀ q, readsSpr (pending g s i).e q = false) ∧ sourceSpr (pending g s i).e = none) := by
  cases hb : s.dc2.busy with
  | true =>
    have hp : pending g s i = s.dc2 := by rw [pending, hb]; rfl
    rw [hp]
    exact ⟨h.writes, h.reads, fun _ => h.needed (.inr hb)⟩
  | false =>
    have hp : pending g s i = fresh g s i := by rw [pending, hb]; rfl
    rw [hp]
    refine ⟨ramsprWrites_freshE h1 hd, fun _ => ramsprReads_freshE h1 hd, fun hv => ?_⟩
    have hvalid : i.d.valid = true := by simpa [validIn, hb] using hv
    cases hbusy : sprsBusy i.d with
    | true => exact .inl (by simp [fresh, hbusy, hvalid])
    | false => exact .inr (reads_of_sprsBusy h1 hd hbusy)

theorem ramsprHeld_step : RamsprHeld (step g s i).dc2 := by
  obtain ⟨hw, hr, hn⟩ := ramsprHeld_pending (g := g) h h1 hd
  change RamsprHeld (dc2Next g s i)
  rw [dc2Next]
  split_ifs
  · exact ramsprHeld_default
  · refine ⟨h.writes.congr rfl rfl rfl rfl rfl rfl rfl rfl, fun hr => ?_, h.needed⟩
    have hread : s.dc2.readRspr = true := hr
    have he : (dc2Held g s i).e = s.dc2.e := by simp [dc2Held, hread]
    rw [he]
    exact h.reads hread
  · refine ⟨hw.congr rfl rfl rfl rfl rfl rfl rfl rfl, fun hread => ?_, fun hv => hn ?_⟩
    · have hread : (pending g s i).readRspr = true := hread
      have hacc : dbgSprAccess g s i = false := by simp [dbgSprAccess, hread]
      have hreads := hr hread
      refine ⟨fun r hr => ?_, fun r hr => ?_⟩
      · have := hreads.addr r hr
        simpa [dc2in, eNext, hacc] using this
      · have := hreads.source r hr
        simpa [dc2in, eNext, hacc] using this
    · rcases hv with hv | hv
      · exact validIn_of_validOut hv
      · exact (and_eq_true_iff.mp hv).1

end

/-! ### Both together -/

structure Front where
  d1 : Decode1.State := {}
  d2 : State

/-- The inputs of the two stages. That of decode2 from decode1 is not looked at. -/
structure FrontInputs where
  i1 : Decode1.Inputs := {}
  i2 : Inputs := {}

def frontStep (g : Generics) (s : Front) (i : FrontInputs) : Front where
  d1 := Decode1.step g.hasFpu s.d1 i.i1
  d2 := step g s.d2 { i.i2 with d := dOut s.d1 }

/-- The registers of both stages have their initial values. -/
def FrontStart (s : Front) : Prop := s.d1 = {} ∧ s.d2.dc2 = {}

/-- What holds of the two stages. -/
structure FrontInv (s : Front) : Prop where
  looked : Looked s.d1
  decoded : SprDecoded s.d2.dc2.e
  held : RamsprHeld s.d2.dc2
  msr : MsrPrivileged s.d2.dc2.e

theorem frontInv_start (h : FrontStart s) : FrontInv s := by
  refine ⟨?_, ?_, ?_, ?_⟩
  · rw [h.1]
    exact ⟨rfl, rfl, ⟨fun _ => rfl, fun _ => rfl, rfl, nofun⟩⟩
  · rw [h.2]
    exact sprDecoded_default
  · rw [h.2]
    exact ramsprHeld_default
  · rw [h.2]
    exact nofun

section

variable (h : Reachable (frontStep g) (fun _ _ => True) FrontStart s)

include h

theorem frontInv : FrontInv s := by
  refine h.induct (fun s hs => frontInv_start hs) fun s i hs _ => ?_
  exact ⟨hs.looked.step i.i1, sprDecoded_step hs.decoded hs.looked rfl,
    ramsprHeld_step hs.held hs.looked rfl, msrPrivileged_step hs.msr hs.looked rfl⟩

/-- **The number of a SPR is decoded right** in every run of the two stages. -/
theorem sprDecoded : SprDecoded (eOut s.d2) :=
  (frontInv h).decoded

/-- **The addresses are those of the SPRs that the instruction uses**, in every run. -/
theorem ramsprDecoded : RamsprDecoded (eOut s.d2) :=
  (frontInv h).held.decoded

/-- **Writing the MSR is privileged** in every run, and so `Execute1.MsrEnv` holds. -/
theorem msrPrivileged : MsrPrivileged (eOut s.d2) :=
  (frontInv h).msr

end

/-- The two stages when a `mtspr` has come through them. -/
def afterMtspr (insn : BitVec 32) : Front :=
  run (frontStep {})
    { d2 := { control :=
      { tagRegs := fun _ => ⟨false, 0, false, false, false, false⟩
        currTag := 0, currCrTag := 0, currOvTag := 0, prevTag := 0 } } }
    [{ i1 := { f := { valid := true, icode := .mtspr, insn := some insn } } }, {}]

theorem reachable_afterMtspr (insn : BitVec 32) :
    Reachable (frontStep {}) (fun _ _ => True) FrontStart (afterMtspr insn) :=
  reachable_run ⟨rfl, rfl⟩ ⟨trivial, trivial, trivial⟩

theorem sprDecoded_mtctr : let e := eOut (afterMtspr 0x7C6903A6).d2
    e.valid = true ∧ MovesSpr e ∧ e.sprIsRam = true := by
  have hm : MovesSpr (eOut (afterMtspr 0x7C6903A6).d2) := .inr (by decide +kernel)
  exact ⟨by decide +kernel, hm,
    ((sprDecoded (reachable_afterMtspr _)).isRam hm).trans (by decide +kernel)⟩

theorem ramsprDecoded_mtctr : let e := eOut (afterMtspr 0x7C6903A6).d2
    e.valid = true ∧ (e.ramsprWriteOdd && e.ramsprWraddr == RamSpr.ctr.index) = true :=
  ⟨by decide +kernel,
    ((ramsprDecoded (reachable_afterMtspr _)).writes.writes .ctr).trans (by decide +kernel)⟩

end Decode2

end Microwatt
