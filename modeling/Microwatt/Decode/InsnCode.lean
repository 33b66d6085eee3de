import Mathlib.Data.BitVec

/-!
# Instruction codes

`insn_code` of `decode_types.vhdl` lists the instructions the core knows. The order matters: the
place of a code in the list says which operands the instruction has. The predecoder stores the place
of the code in the instruction cache instead of the primary opcode, and `recode_primary_opcode` gets
the primary opcode back.

## Main definitions

* `InsnCode`, `InsnCode.pos`, `InsnCode.val` — the codes and their places
* `recodePrimaryOpcode` — from a code to the primary opcode
-/

namespace Microwatt

/-- `insn_code`. Codes with a number in the source are padding and keep the number. -/
inductive InsnCode
  -- The following have no RB operand and do not access FPRs.
  | illegal | fetchFail | insnPrefix | pnop | addic | addicDot | addis | addme | addpcis | addze
  | andiDot | andisDot | attn | brel | babs | bcrel | bcabs | bcctr | bclr | bctar | brh | brw
  | brd | cbcdtd | cdtbcd | cmpi | cmpli | cntlzw | cntlzd | cnttzw | cnttzd | crand | crandc
  | creqv | crnand | crnor | cror | crorc | crxor | darn | eieio | extsb | extsh | extsw
  | extswsli | isync | lbzu | ld | ldu | lhau | lwa | lwzu | mcrf | mcrxrx | mfcr | mfmsr | mfspr
  | msgsync | mtcrf | mtmsr | mtmsrd | mtspr | mulli | neg | nop | ori | oris | popcntb | popcntw
  | popcntd | prtyw | prtyd | rfid | rfscv | rldic | rldicl | rldicr | rldimi | rlwimi | rlwinm
  | rnop | sc | setb | slbia | sradi | srawi | stbu | std | stdu | sthu | stq | stwu | subfic
  | subfme | subfze | sync | tdi | tlbsync | twi | wait | xori | xoris
  -- Those with an MLS:D prefixed form, each followed by it.
  | addi | paddi | lbz | plbz | lha | plha | lhz | plhz | lwz | plwz | stb | pstb | sth | psth
  | stw | pstw
  -- Slots for those that are 8LS:D when prefixed.
  | lhzu | plwa | lq | plq | op57 | pld | op60 | pstq | op61 | pstd
  -- The following have an RB operand and do not access FPRs.
  | add | addc | adde | addex | addg6s | and | andc | bperm | cfuged | cmp | cmpb | cmpeqb | cmpl
  | cmprb | dcbf | dcbst | dcbt | dcbtst | dcbz | divd | divdu | divde | divdeu | divw | divwu
  | divwe | divweu | eqv | hashchk | hashchkp | hashst | hashstp | icbi | icbt | isel | lbarx
  | lbzcix | lbzux | lbzx | ldarx | ldbrx | ldcix | ldx | ldux | lharx | lhax | lhaux | lhbrx
  | lhzcix | lhzx | lhzux | lqarx | lwarx | lwax | lwaux | lwbrx | lwzcix | lwzx | lwzux | modsd
  | modsw | moduw | modud | msgclr | msgsnd | mulhw | mulhwu | mulhd | mulhdu | mullw | mulld
  | nand | nor | or | orc | pdepd | pextd | rldcl | rldcr | rlwnm | slw | sld | sraw | srad | srw
  | srd | stbcix | stbcx | stbx | stbux | stdbrx | stdcix | stdcx | stdx | stdux | sthbrx | sthcix
  | sthcx | sthx | sthux | stqcx | stwbrx | stwcix | stwcx | stwx | stwux | subf | subfc | subfe
  | td | tlbie | tlbiel | tw | xor | pad242 | pad243 | pad244 | pad245 | pad246 | pad247
  -- The following have a third input addressed by RC.
  | maddld | maddhd | maddhdu | pad251 | pad252 | pad253 | pad254 | pad255
  -- The following access floating-point registers, with an FRS operand.
  | stfd | pstfd | stfs | pstfs | lfd | plfd | lfs | plfs | stfdu | stfsu | stfdux | stfdx
  | stfiwx | stfsux | stfsx | lfdu | lfsu | lfdx | lfdux | lfiwax | lfiwzx | lfsx | lfsux | mcrfs
  | mtfsb | mtfsfi | pad282 | pad283 | pad284 | pad285 | pad286 | pad287
  -- The following access FRA or FRB.
  | fabs | fadd | fadds | fcfid | fcfids | fcfidu | fcfidus | fcmpo | fcmpu | fcpsgn | fctid
  | fctidz | fctidu | fctiduz | fctiw | fctiwz | fctiwu | fctiwuz | fdiv | fdivs | fmr | fmrgew
  | fmrgow | fnabs | fneg | fre | fres | frim | frin | frip | friz | frsp | frsqrte | frsqrtes
  | fsqrt | fsqrts | fsub | fsubs | ftdiv | ftsqrt | mffs | mtfsf | pad330 | pad331 | pad332
  | pad333 | pad334 | pad335
  -- The following access FRA, possibly FRB, and FRC.
  | fmul | fmuls | fmadd | fmadds | fmsub | fmsubs | fnmadd | fnmadds | fnmsub | fnmsubs | fsel
  deriving DecidableEq, Repr

namespace InsnCode

/-- `insn_code'pos`. -/
def pos (code : InsnCode) : ℕ := code.ctorIdx

/-- `insn_code'val`, on the places of codes. -/
def val (place : ℕ) : InsnCode := ofNat place

theorem val_pos (code : InsnCode) : val code.pos = code := ofNat_ctorIdx code

theorem pos_lt (code : InsnCode) : code.pos < 347 := by
  cases code <;> decide

/-- `INSN_first_frs`: from here on instructions access floating-point registers. -/
def firstFrs : InsnCode := stfd

end InsnCode

/-- `recode_primary_opcode`. There is no value for the codes that the source maps to `"XXXXXX"`. -/
def recodePrimaryOpcode : InsnCode → Option (BitVec 6)
  | .addic => some 0b001100
  | .addicDot => some 0b001101
  | .addi => some 0b001110
  | .addis => some 0b001111
  | .addpcis => some 0b010011
  | .andiDot => some 0b011100
  | .andisDot => some 0b011101
  | .attn => some 0b000000
  | .brel | .babs => some 0b010010
  | .bcrel | .bcabs => some 0b010000
  | .brh | .brw | .brd => some 0b011111
  | .cmpi => some 0b001011
  | .cmpli => some 0b001010
  | .lbz => some 0b100010
  | .lbzu => some 0b100011
  | .lfd => some 0b110010
  | .lfdu => some 0b110011
  | .lfs => some 0b110000
  | .lfsu => some 0b110001
  | .lha => some 0b101010
  | .lhau => some 0b101011
  | .lhz => some 0b101000
  | .lhzu => some 0b101001
  | .lq => some 0b111000
  | .lwz => some 0b100000
  | .lwzu => some 0b100001
  | .mulli => some 0b000111
  | .nop | .ori => some 0b011000
  | .oris => some 0b011001
  | .rlwimi => some 0b010100
  | .rlwinm => some 0b010101
  | .rlwnm => some 0b010111
  | .sc => some 0b010001
  | .stb => some 0b100110
  | .stbu => some 0b100111
  | .stfd => some 0b110110
  | .stfdu => some 0b110111
  | .stfs => some 0b110100
  | .stfsu => some 0b110101
  | .sth => some 0b101100
  | .sthu => some 0b101101
  | .stw => some 0b100100
  | .stq => some 0b111110
  | .stwu => some 0b100101
  | .subfic => some 0b001000
  | .tdi => some 0b000010
  | .twi => some 0b000011
  | .xori => some 0b011010
  | .xoris => some 0b011011
  | .maddhd | .maddhdu | .maddld => some 0b000100
  | .rldic | .rldicl | .rldicr | .rldimi | .rldcl | .rldcr => some 0b011110
  | .ld | .ldu | .lwa => some 0b111010
  | .fdivs | .fsubs | .fadds | .fsqrts | .fres | .fmuls | .frsqrtes | .fmsubs | .fmadds | .fnmsubs
  | .fnmadds => some 0b111011
  | .std | .stdu => some 0b111110
  | .fdiv | .fsub | .fadd | .fsqrt | .fsel | .fre | .fmul | .frsqrte | .fmsub | .fmadd | .fnmsub
  | .fnmadd => some 0b111111
  | .insnPrefix => some 0b000001
  | .op57 => some 0b111001
  | .op60 => some 0b111100
  | .op61 => some 0b111101
  | .add | .addc | .adde | .addex | .addg6s | .addme | .addze | .and | .andc | .bperm | .cbcdtd
  | .cdtbcd | .cmp | .cmpb | .cmpeqb | .cmpl | .cmprb | .cntlzd | .cntlzw | .cnttzd | .cnttzw
  | .darn | .dcbf | .dcbst | .dcbt | .dcbtst | .dcbz | .divdeu | .divweu | .divde | .divwe
  | .divdu | .divwu | .divd | .divw | .hashchk | .hashchkp | .hashst | .hashstp | .eieio | .eqv
  | .extsb | .extsh | .extsw | .extswsli | .icbi | .icbt | .isel | .lbarx | .lbzcix | .lbzux
  | .lbzx | .ldarx | .ldbrx | .ldcix | .ldux | .ldx | .lfdx | .lfdux | .lfiwax | .lfiwzx | .lfsx
  | .lfsux | .lharx | .lhaux | .lhax | .lhbrx | .lhzcix | .lhzux | .lhzx | .lqarx | .lwarx
  | .lwaux | .lwax | .lwbrx | .lwzcix | .lwzux | .lwzx | .mcrxrx | .mfcr | .mfmsr | .mfspr
  | .modud | .moduw | .modsd | .modsw | .msgclr | .msgsnd | .msgsync | .mtcrf | .mtmsr | .mtmsrd
  | .mtspr | .mulhd | .mulhdu | .mulhw | .mulhwu | .mulld | .mullw | .nand | .neg | .rnop | .nor
  | .or | .orc | .popcntb | .popcntd | .popcntw | .prtyd | .prtyw | .setb | .slbia | .sld | .slw
  | .srad | .sradi | .sraw | .srawi | .srd | .srw | .stbcix | .stbcx | .stbux | .stbx | .stdbrx
  | .stdcix | .stdcx | .stdux | .stdx | .stfdx | .stfdux | .stfiwx | .stfsx | .stfsux | .sthbrx
  | .sthcix | .sthcx | .sthux | .sthx | .stqcx | .stwbrx | .stwcix | .stwcx | .stwux | .stwx
  | .subf | .subfc | .subfe | .subfme | .subfze | .sync | .td | .tw | .tlbie | .tlbiel | .tlbsync
  | .wait | .xor => some 0b011111
  | .bcctr | .bclr | .bctar | .crand | .crandc | .creqv | .crnand | .crnor | .cror | .crorc
  | .crxor | .isync | .mcrf | .rfid => some 0b010011
  | .fcfids | .fcfidus => some 0b111011
  | .fcmpu | .fcmpo | .mcrfs | .ftdiv | .ftsqrt | .mtfsb | .mtfsfi | .fmrgow | .fmrgew | .mffs
  | .mtfsf | .fcpsgn | .fneg | .fmr | .fnabs | .fabs | .frin | .friz | .frip | .frim | .frsp
  | .fctiw | .fctiwu | .fctid | .fcfid | .fctidu | .fcfidu | .fctiwz | .fctiwuz | .fctidz
  | .fctiduz => some 0b111111
  | _ => none

end Microwatt
