import Microwatt.Decode.Rom
import Microwatt.Fetch.Basic
import Microwatt.Icache.Basic

/-!
# The first decode stage

`decode1` takes an instruction from the instruction cache, looks up its row of the decode table and
the numbers of the registers to be read, and predicts direct branches. A prefixed instruction comes
in two words: the prefix waits in `pr` for the suffix. An instruction that the table marks as
repeated is presented to decode2 twice, the second time with `second` set.

The primary opcode of an instruction is undefined if it could not be recovered from the code, as
that of `rfscv`, `cfuged`, `pdepd` and `pextd`. It is read as zero here; nothing looks at it in
these four.

## Main definitions

* `decodeRamSpr`, `mapSpr` — the tables of SPRs
* `Decode1.step`, `Decode1.dOut`
-/

namespace Microwatt

/-! ### Special purpose registers -/

structure RamSprInfo where
  index : RamsprIndex := 0
  isodd : Bool := false
  is32b : Bool := false
  valid : Bool := false
  deriving DecidableEq, Repr

def decodeRamSpr (sprn : BitVec 10) : RamSprInfo :=
  match sprn.toNat with
  | 8 => { index := 5, valid := true } -- LR
  | 9 => { index := 5, isodd := true, valid := true } -- CTR
  | 815 => { index := 6, valid := true } -- TAR
  | 26 => { index := 0, valid := true } -- SRR0
  | 27 => { index := 0, isodd := true, valid := true } -- SRR1
  | 314 => { index := 1, valid := true } -- HSRR0
  | 315 => { index := 1, isodd := true, valid := true } -- HSRR1
  | 272 => { index := 2, valid := true } -- SPRG0
  | 273 => { index := 2, isodd := true, valid := true } -- SPRG1
  | 274 => { index := 3, valid := true } -- SPRG2
  | 275 | 259 => { index := 3, isodd := true, valid := true } -- SPRG3, SPRG3U
  | 304 => { index := 4, valid := true } -- HSPRG0
  | 305 => { index := 4, isodd := true, valid := true } -- HSPRG1
  | 256 => { index := 7, is32b := true, valid := true } -- VRSAVE
  | 468 => { index := 6, isodd := true, valid := true } -- HASHKEYR
  | 469 => { index := 7, isodd := true, valid := true } -- HASHPKEYR
  | _ => {}

def mapSpr (sprn : BitVec 10) : SprId :=
  match sprn.toNat with
  | 268 => { sel := 0x1, valid := true, ronly := true } -- TB
  | 269 => { sel := 0x2, valid := true, ronly := true } -- TBU
  | 284 => { sel := 0x1, valid := true, wonly := true } -- TBLW
  | 285 => { sel := 0x1, valid := true, wonly := true } -- TBUW
  | 22 => { sel := 0x3, valid := true } -- DEC
  | 287 => { sel := 0x4, valid := true } -- PVR
  | 724 => { sel := 0x5, valid := true } -- LOG_ADDR
  | 725 => { sel := 0x5, valid := true, ronly := true } -- LOG_DATA
  -- the registers of the performance monitor
  | 771 | 772 | 773 | 774 | 775 | 776 | 779 | 782 | 769 | 770 | 768 | 780 | 781
  | 787 | 788 | 789 | 790 | 791 | 792 | 795 | 798 | 785 | 786 | 784 | 796 | 797 =>
    { valid := true, ispmu := true }
  | 736 | 737 | 738 | 752 | 753 | 754 => { sel := 0x0, valid := true }
  | 28 => { sel := 0x6, valid := true } -- CFAR
  | 1 => { sel := 0xf, valid := true } -- XER
  | 153 => { sel := 0x7, valid := true } -- FSCR
  | 318 => { sel := 0x8, valid := true } -- LPCR
  | 339 => { sel := 0x9, valid := true } -- HEIR
  | 136 => { sel := 0xa, valid := true, ronly := true } -- CTRL
  | 152 => { sel := 0xa, valid := true, wonly := true } -- CTRLW
  | 3 | 17 => { sel := 0xb, valid := true } -- UDSCR, DSCR
  | 1023 => { sel := 0xc, valid := true } -- PIR
  | 187 => { sel := 0xd, valid := true } -- CIABR
  | 828 | 471 => { sel := 0xe, valid := true } -- DEXCR, HDEXCR
  | 812 | 455 => { sel := 0xe, valid := true, ronly := true } -- DEXCRU, HDEXCU
  | 808 | 809 | 810 | 811 => { valid := true, noop := true } -- NOOP0 .. NOOP3
  | 336 | 337 | 313 => { sel := 0x0, valid := true } -- HMER, HMEER, HRMOR
  | _ => {}

/-! ### Fields of an instruction -/

/-- `insn_ra`, also `insn_fra`. -/
def insnRa (insn : BitVec 32) : BitVec 5 := insn.extractLsb' 16 5

/-- `insn_rb`, also `insn_frb`. -/
def insnRb (insn : BitVec 32) : BitVec 5 := insn.extractLsb' 11 5

/-- `insn_rs`, also `insn_rt` and `insn_frt`. -/
def insnRs (insn : BitVec 32) : BitVec 5 := insn.extractLsb' 21 5

def insnRcreg (insn : BitVec 32) : BitVec 5 := insn.extractLsb' 6 5

def gprToGspr (n : BitVec 5) : GsprIndex := 0#1 ++ n

def fprToGspr (n : BitVec 5) : GsprIndex := 1#1 ++ n

/-! ### Records -/

/-- `Decode1ToDecode2Type`, with the values of `Decode1ToDecode2Init`. -/
structure Decode1ToDecode2 where
  valid : Bool := false
  stopMark : Bool := false
  second : Bool := false
  nia : BitVec 64 := 0
  prefixed : Bool := false
  pfx : BitVec 26 := 0
  illegalSuffix : Bool := false
  misalignedPrefix : Bool := false
  insn : BitVec 32 := 0
  decode : DecodeRom := {}
  brPred : Bool := false
  bigEndian : Bool := false
  sprInfo : SprId := {}
  ramSpr : RamSprInfo := {}
  regA : GsprIndex := 0
  regB : GsprIndex := 0
  regC : GsprIndex := 0
  deriving DecidableEq, Repr

structure Decode1ToRegisterFile where
  reg1Addr : GsprIndex := 0
  reg2Addr : GsprIndex := 0
  reg3Addr : GsprIndex := 0
  read1Enable : Bool := false
  read2Enable : Bool := false
  read3Enable : Bool := false
  deriving DecidableEq, Repr

namespace Decode1

structure BrPredictor where
  brTarget : BitVec 62 := 0
  predict : Bool := false
  deriving DecidableEq, Repr

/-- `prefix_state_t`, with the values of `prefix_state_init`. -/
structure PrefixState where
  prefixed : Bool := false
  pfx : BitVec 26 := 0
  prefIa : BitVec 4 := 0
  deriving DecidableEq, Repr

structure State where
  r : Decode1ToDecode2 := {}
  br : BrPredictor := {}
  pr : PrefixState := {}
  decode : DecodeRom := {}
  fetchFailed : Bool := false
  deriving DecidableEq, Repr

structure Inputs where
  rst : Bool := false
  stallIn : Bool := false
  flushIn : Bool := false
  f : IcacheToDecode1 := {}
  deriving DecidableEq, Repr

variable (hasFpu : Bool) (s : State) (i : Inputs)

/-- The word of the instruction. -/
def fInsn : BitVec 32 := i.f.insn.getD (0#6 ++ i.f.low)

/-- `double`: the instruction has to be presented once more. -/
def double : Bool := s.r.valid && s.decode.repeat_ != .none && !s.r.second

def busyOut : Bool := i.stallIn || double s

/-! ### Prefixes -/

/-- A code lies in a range of the list of codes, the end excluded. -/
def inRange (lo hi icode : InsnCode) : Bool := lo.pos ≤ icode.pos && icode.pos < hi.pos

def validSuffix (pfx : BitVec 26) (icode : InsnCode) : Bool :=
  if pfx.extractLsb' 23 3 = 0b000 then inRange .lhzu .add icode
  else if pfx.extractLsb' 23 3 = 0b100 then
    inRange .addi .lhzu icode || inRange .stfd .stfdu icode
  else if pfx.extractLsb' 23 3 = 0b110 then pfx.extractLsb' 20 3 == 0
  else false

/-- The instruction is a suffix, whose prefix is in `pr`. -/
def isSuffix : Bool := !i.f.fetchFailed && s.pr.prefixed

/-- The instruction is a prefix. -/
def isPfx : Bool := !i.f.fetchFailed && !s.pr.prefixed && i.f.icode == .insnPrefix

/-- The prefix is the last word of a block of 64 bytes. -/
def lastWord : Bool := i.f.nia.extractLsb' 2 4 == 0b1111

def decodeRomAddr : InsnCode :=
  if i.f.fetchFailed then .fetchFail
  else if s.pr.prefixed then
    if s.pr.pfx.getLsbD 24 then .pnop else .val (i.f.icode.pos ||| 1)
  else i.f.icode

def prIn : PrefixState :=
  if i.f.fetchFailed || s.pr.prefixed then {}
  else if i.f.icode == .insnPrefix then
    { prefixed := true, pfx := (fInsn i).extractLsb' 0 26, prefIa := i.f.nia.extractLsb' 2 4 }
  else s.pr

/-- `v.valid`. Only a single failed fetch is sent down, and of a prefixed instruction the suffix, or
the prefix if it is misaligned. -/
def validNext : Bool :=
  if i.f.fetchFailed then !s.fetchFailed
  else if isPfx s i then i.f.valid && lastWord i
  else i.f.valid

/-- `v.nia`: a prefixed instruction has the address of the prefix. -/
def niaNext : BitVec 64 :=
  if isSuffix s i then
    i.f.nia.extractLsb' 6 58 ++ s.pr.prefIa ++ i.f.nia.extractLsb' 0 2
  else i.f.nia

/-! ### The branch predictor -/

/-- The prediction before the branch target cache is heard. -/
def staticPred : Bool :=
  match i.f.icode with
  -- unconditional branches are always taken
  | .brel | .babs => true
  -- predict backward relative branches as taken, others as untaken
  | .bcrel => (fInsn i).getLsbD 15
  | _ => false

def brPred : Bool :=
  if i.f.nextPredicted then true
  else if i.f.nextPredNtaken then false
  else staticPred i

def brOffset : BitVec 24 :=
  let offset := (fInsn i).extractLsb' 2 24
  match i.f.icode with
  | .bcrel => BitVec.allOnes 10 ++ offset.extractLsb' 0 14
  | _ => offset

def brTarget : BitVec 62 :=
  (if (fInsn i).getLsbD 1 then 0 else i.f.nia.extractLsb' 2 62) + (brOffset i).signExtend 62

def predict : Bool :=
  brPred i && i.f.valid && !i.flushIn && !busyOut s i && !i.f.nextPredicted

/-! ### Register numbers -/

/-- `reg_1_addr` of a new instruction. -/
def reg1 : GsprIndex :=
  BitVec.ofBool (decide (InsnCode.fabs.pos ≤ i.f.icode.pos)) ++ insnRa (fInsn i)

/-- `reg_2_addr` of a new instruction. -/
def reg2 : GsprIndex :=
  BitVec.ofBool (decide (InsnCode.fabs.pos ≤ i.f.icode.pos)) ++ insnRb (fInsn i)

/-- The instruction stores a pair of registers, beginning with the odd one. -/
def oddFirst : Bool := (i.f.icode == .stq || i.f.icode == .stqcx) && !i.f.bigEndian

/-- `reg_3_addr` of a new instruction. -/
def reg3 : GsprIndex :=
  let reg : GsprIndex :=
    if InsnCode.fmul.pos ≤ i.f.icode.pos then fprToGspr (insnRcreg (fInsn i))
    else if InsnCode.stfd.pos ≤ i.f.icode.pos then fprToGspr (insnRs (fInsn i))
    else if InsnCode.maddld.pos ≤ i.f.icode.pos then gprToGspr (insnRcreg (fInsn i))
    else gprToGspr (insnRs (fInsn i))
  if oddFirst i then reg ||| 1 else reg

/-- `reg_3_addr` of the second part of an instruction. -/
def reg3Second : GsprIndex :=
  if s.decode.repeat_ == .drsp then
    s.r.regC.extractLsb' 1 5 ++ BitVec.ofBool (s.r.prefixed || i.f.bigEndian)
  else s.r.regC

def rOut : Decode1ToRegisterFile where
  reg1Addr := if double s then s.r.regA else reg1 i
  reg2Addr := if double s then s.r.regB else reg2 i
  reg3Addr := if double s then reg3Second s i else reg3 i
  read1Enable := !double s && i.f.valid
  read2Enable := !double s && i.f.valid && decide (InsnCode.add.pos ≤ i.f.icode.pos)
  read3Enable := double s || i.f.valid

/-! ### The registers after the edge -/

def rin : Decode1ToDecode2 where
  valid := validNext s i
  stopMark := i.f.stopMark
  second := false
  nia := niaNext s i
  prefixed := s.pr.prefixed
  pfx := s.pr.pfx
  illegalSuffix := isSuffix s i && !validSuffix s.pr.pfx i.f.icode
  misalignedPrefix := isPfx s i && lastWord i
  insn := fInsn i
  brPred := brPred i
  bigEndian := i.f.bigEndian
  sprInfo := mapSpr (Execute1.decodeSprNum (fInsn i))
  ramSpr := decodeRamSpr (Execute1.decodeSprNum (fInsn i))
  regA := (rOut s i).reg1Addr
  regB := (rOut s i).reg2Addr
  regC := (rOut s i).reg3Addr

def rNext : Decode1ToDecode2 :=
  if i.rst then {}
  else if i.flushIn then { s.r with valid := false }
  else if i.stallIn then s.r
  else if double s then { s.r with second := true, regC := (rin s i).regC }
  else rin s i

def prNext : PrefixState :=
  if i.rst || i.flushIn then {}
  else if busyOut s i then s.pr
  else if i.f.valid then prIn s i
  else s.pr

def step : State where
  r := rNext s i
  br := { brTarget := if i.rst then s.br.brTarget else brTarget i
          predict := !i.rst && predict s i }
  pr := prNext s i
  decode := if busyOut s i then s.decode else decodeRom hasFpu (decodeRomAddr s i)
  fetchFailed :=
    if i.rst || i.flushIn then false
    else if busyOut s i then s.fetchFailed
    else i.f.fetchFailed

/-! ### Outputs -/

def dOut : Decode1ToDecode2 := { s.r with decode := s.decode }

def fOut : Decode1ToFetch1 where
  redirect := s.br.predict
  redirectNia := s.br.brTarget ++ 0#2

def flushOut : Bool := predict s i || s.br.predict

/-! ### The second read port -/

/-- A prefixed instruction has no second register operand. -/
theorem inputRegB_suffix (code : InsnCode) :
    (inRange .lhzu .add code || inRange .addi .lhzu code) = true →
      (decodeRom hasFpu (.val (code.pos ||| 1))).inputRegB = .imm := by
  exact forall_rows (by decide +kernel) hasFpu code

theorem getLsbD_of_mrr {pfx : BitVec 26} (h : pfx.extractLsb' 23 3 = 0b110) :
    pfx.getLsbD 24 = true := by
  have hbit := congrArg (·.getLsbD 1) h
  simpa [BitVec.getLsbD_extractLsb'] using hbit

variable {hasFpu s i}

/-- The register file is told when an instruction reads RB, although the row of the table is not
known yet. -/
theorem read2_of_inputRegB (hrow : (decodeRom hasFpu (decodeRomAddr s i)).inputRegB ≠ .imm)
    (hvalid : (rin s i).valid = true) (hsuffix : (rin s i).illegalSuffix = false) :
    i.f.valid = true ∧ InsnCode.add.pos ≤ i.f.icode.pos := by
  cases hff : i.f.fetchFailed with
  | true =>
    have hcode : decodeRomAddr s i = .fetchFail := by rw [decodeRomAddr, hff]; rfl
    rw [hcode] at hrow
    exact absurd rfl hrow
  | false =>
    have hv : i.f.valid = true := by
      simp only [rin, validNext, hff, Bool.false_eq_true, if_false] at hvalid
      split at hvalid
      · exact (Bool.and_eq_true_iff.mp hvalid).1
      · exact hvalid
    refine ⟨hv, ?_⟩
    cases hpr : s.pr.prefixed with
    | false =>
      have hcode : decodeRomAddr s i = i.f.icode := by simp [decodeRomAddr, hff, hpr]
      rw [hcode] at hrow
      exact (inputRegB_imm hasFpu i.f.icode).resolve_left hrow
    | true =>
      have hok : validSuffix s.pr.pfx i.f.icode = true := by
        simpa [rin, isSuffix, hff, hpr] using hsuffix
      cases h24 : s.pr.pfx.getLsbD 24 with
      | true =>
        have hcode : decodeRomAddr s i = .pnop := by rw [decodeRomAddr, hff, hpr, h24]; rfl
        rw [hcode] at hrow
        exact absurd rfl hrow
      | false =>
        have hcode : decodeRomAddr s i = .val (i.f.icode.pos ||| 1) := by
          rw [decodeRomAddr, hff, hpr, h24]; rfl
        rw [hcode] at hrow
        by_contra hlow
        refine hrow (inputRegB_suffix hasFpu i.f.icode ?_)
        simp only [validSuffix] at hok
        split at hok
        · simp [hok]
        · split at hok
          · rcases Bool.or_eq_true_iff.mp hok with h | h
            · simp [h]
            · -- the suffixes that access FPRs come after those with RB
              have hpos : InsnCode.stfd.pos ≤ i.f.icode.pos := by
                simpa [inRange] using (Bool.and_eq_true_iff.mp h).1
              exact absurd (le_trans (by decide) hpos) hlow
          · split at hok
            · next hmrr => rw [getLsbD_of_mrr hmrr] at h24; cases h24
            · cases hok

end Decode1

end Microwatt
