import Microwatt.Decode.InsnCode

/-!
# The predecoder and the instruction image

Instructions are decoded in part on their way into the instruction cache. The code of the
instruction comes from one of two tables, indexed by the primary opcode with the low five bits, or
by the extended opcode. What is stored is the code and the low 26 bits of the word; for an illegal
instruction it is the whole word with the top bit of the image set. When the cache is read, the
primary opcode is recomputed from the code.

Both tables are lists of their entries, in the order of the source. The entries of the second table
that belong to the primary opcodes 19, 59 and 63 share its upper half, and columns are moved so that
they do not meet.

## Main definitions

* `Predecode.majorPredecodeRom`, `Predecode.rowPredecodeRom` — the tables
* `Predecode.predecode0`, `Predecode.predecode1` — the two stages
* `Predecode.insnOut` — the instruction as the cache gives it out

## Main results

* `Predecode.insnOut_predecode`
-/

namespace Microwatt

namespace Predecode

/-! ### The tables -/

/-- An entry of the major table: a primary opcode and a range of the low five bits. -/
structure MajorEntry where
  op : BitVec 6
  first : BitVec 5
  last : BitVec 5
  code : InsnCode

/-- An entry of the row table: the half of the table, the row and the column. -/
structure RowEntry where
  half : BitVec 1
  row : BitVec 5
  column : BitVec 5
  code : InsnCode

/-- The entry for all words with the primary opcode. -/
def whole (op : BitVec 6) (code : InsnCode) : MajorEntry := ⟨op, 0b00000, 0b11111, code⟩

/-- Branches: bit 1 is the AA bit, and bits 4 to 2 belong to the offset. -/
def branches (op : BitVec 6) (rel abs : InsnCode) : List MajorEntry :=
  (List.range 8).flatMap fun k =>
    [⟨op, .ofNat 5 (4 * k), .ofNat 5 (4 * k + 1), rel⟩,
      ⟨op, .ofNat 5 (4 * k + 2), .ofNat 5 (4 * k + 3), abs⟩]

/-- Loads and stores with an offset of fourteen bits: bits 1 and 0 name the instruction, and bits 4
to 2 belong to the offset. -/
def offsets (op : BitVec 6) (code0 code1 code2 : InsnCode) : List MajorEntry :=
  (List.range 8).flatMap fun k =>
    [⟨op, .ofNat 5 (4 * k), .ofNat 5 (4 * k), code0⟩,
      ⟨op, .ofNat 5 (4 * k + 1), .ofNat 5 (4 * k + 1), code1⟩,
      ⟨op, .ofNat 5 (4 * k + 2), .ofNat 5 (4 * k + 2), code2⟩]

/-- `major_predecode_rom`, indexed by instruction bits 31..26 and 4..0. -/
def majorPredecodeRom : List MajorEntry :=
  List.flatten [
    [whole 0b001100 .addic, whole 0b001101 .addicDot, whole 0b001110 .addi, whole 0b001111 .addis,
      ⟨0b010011, 0b00100, 0b00101, .addpcis⟩, whole 0b011100 .andiDot, whole 0b011101 .andisDot,
      ⟨0b000000, 0b00000, 0b00000, .attn⟩],
    branches 0b010010 .brel .babs,
    branches 0b010000 .bcrel .bcabs,
    [whole 0b001011 .cmpi, whole 0b001010 .cmpli, whole 0b100010 .lbz, whole 0b100011 .lbzu,
      whole 0b110010 .lfd, whole 0b110011 .lfdu, whole 0b110000 .lfs, whole 0b110001 .lfsu,
      whole 0b101010 .lha, whole 0b101011 .lhau, whole 0b101000 .lhz, whole 0b101001 .lhzu,
      whole 0b100000 .lwz, whole 0b100001 .lwzu, whole 0b000111 .mulli, whole 0b011000 .ori,
      whole 0b011001 .oris, whole 0b010100 .rlwimi, whole 0b010101 .rlwinm, whole 0b010111 .rlwnm,
      whole 0b010001 .sc, whole 0b100110 .stb, whole 0b100111 .stbu, whole 0b110110 .stfd,
      whole 0b110111 .stfdu, whole 0b110100 .stfs, whole 0b110101 .stfsu, whole 0b101100 .sth,
      whole 0b101101 .sthu, whole 0b100100 .stw, whole 0b100101 .stwu, whole 0b001000 .subfic,
      whole 0b000010 .tdi, whole 0b000011 .twi, whole 0b011010 .xori, whole 0b011011 .xoris,
      ⟨0b000100, 0b10000, 0b10000, .maddhd⟩, ⟨0b000100, 0b10001, 0b10001, .maddhdu⟩,
      ⟨0b000100, 0b10011, 0b10011, .maddld⟩, ⟨0b011110, 0b01000, 0b01001, .rldic⟩,
      ⟨0b011110, 0b01010, 0b01011, .rldic⟩, ⟨0b011110, 0b00000, 0b00001, .rldicl⟩,
      ⟨0b011110, 0b00010, 0b00011, .rldicl⟩, ⟨0b011110, 0b00100, 0b00101, .rldicr⟩,
      ⟨0b011110, 0b00110, 0b00111, .rldicr⟩, ⟨0b011110, 0b01100, 0b01101, .rldimi⟩,
      ⟨0b011110, 0b01110, 0b01111, .rldimi⟩, ⟨0b011110, 0b10000, 0b10001, .rldcl⟩,
      ⟨0b011110, 0b10010, 0b10011, .rldcr⟩, whole 0b111000 .lq],
    offsets 0b111010 .ld .ldu .lwa,
    [⟨0b111011, 0b00100, 0b00101, .fdivs⟩, ⟨0b111011, 0b01000, 0b01001, .fsubs⟩,
      ⟨0b111011, 0b01010, 0b01011, .fadds⟩, ⟨0b111011, 0b01100, 0b01101, .fsqrts⟩,
      ⟨0b111011, 0b10000, 0b10001, .fres⟩, ⟨0b111011, 0b10010, 0b10011, .fmuls⟩,
      ⟨0b111011, 0b10100, 0b10101, .frsqrtes⟩, ⟨0b111011, 0b11000, 0b11001, .fmsubs⟩,
      ⟨0b111011, 0b11010, 0b11011, .fmadds⟩, ⟨0b111011, 0b11100, 0b11101, .fnmsubs⟩,
      ⟨0b111011, 0b11110, 0b11111, .fnmadds⟩],
    offsets 0b111110 .std .stdu .stq,
    [⟨0b111111, 0b00100, 0b00101, .fdiv⟩, ⟨0b111111, 0b01000, 0b01001, .fsub⟩,
      ⟨0b111111, 0b01010, 0b01011, .fadd⟩, ⟨0b111111, 0b01100, 0b01101, .fsqrt⟩,
      ⟨0b111111, 0b01110, 0b01111, .fsel⟩, ⟨0b111111, 0b10000, 0b10001, .fre⟩,
      ⟨0b111111, 0b10010, 0b10011, .fmul⟩, ⟨0b111111, 0b10100, 0b10101, .frsqrte⟩,
      ⟨0b111111, 0b11000, 0b11001, .fmsub⟩, ⟨0b111111, 0b11010, 0b11011, .fmadd⟩,
      ⟨0b111111, 0b11100, 0b11101, .fnmsub⟩, ⟨0b111111, 0b11110, 0b11111, .fnmadd⟩,
      whole 0b000001 .insnPrefix, whole 0b111001 .op57, whole 0b111100 .op60, whole 0b111101 .op61]]

/-- The half of `row_predecode_rom` for the primary opcode 31: rows, columns and codes. For isel
the row is an operand. -/
def rowPredecodeRomLow : List (BitVec 5 × BitVec 5 × InsnCode) :=
  List.flatten [
    [(0b01000, 0b01010, .add), (0b11000, 0b01010, .add), (0b00000, 0b01010, .addc),
      (0b10000, 0b01010, .addc), (0b00100, 0b01010, .adde), (0b10100, 0b01010, .adde),
      (0b00101, 0b01010, .addex), (0b00010, 0b01010, .addg6s), (0b00111, 0b01010, .addme),
      (0b10111, 0b01010, .addme), (0b00110, 0b01010, .addze), (0b10110, 0b01010, .addze),
      (0b00000, 0b11100, .and), (0b00001, 0b11100, .andc), (0b00111, 0b11100, .bperm),
      (0b00110, 0b11011, .brh), (0b00100, 0b11011, .brw), (0b00101, 0b11011, .brd),
      (0b01001, 0b11010, .cbcdtd), (0b01000, 0b11010, .cdtbcd), (0b00110, 0b11100, .cfuged),
      (0b00000, 0b00000, .cmp), (0b01111, 0b11100, .cmpb), (0b00111, 0b00000, .cmpeqb),
      (0b00001, 0b00000, .cmpl), (0b00110, 0b00000, .cmprb), (0b00001, 0b11010, .cntlzd),
      (0b00000, 0b11010, .cntlzw), (0b10001, 0b11010, .cnttzd), (0b10000, 0b11010, .cnttzw),
      (0b11010, 0b00110, .rnop), (0b10111, 0b10011, .darn), (0b00010, 0b10110, .dcbf),
      (0b00001, 0b10110, .dcbst), (0b01000, 0b10110, .dcbt), (0b00111, 0b10110, .dcbtst),
      (0b11111, 0b10110, .dcbz), (0b01100, 0b01001, .divdeu), (0b11100, 0b01001, .divdeu),
      (0b01100, 0b01011, .divweu), (0b11100, 0b01011, .divweu), (0b01101, 0b01001, .divde),
      (0b11101, 0b01001, .divde), (0b01101, 0b01011, .divwe), (0b11101, 0b01011, .divwe),
      (0b01110, 0b01001, .divdu), (0b11110, 0b01001, .divdu), (0b01110, 0b01011, .divwu),
      (0b11110, 0b01011, .divwu), (0b01111, 0b01001, .divd), (0b11111, 0b01001, .divd),
      (0b01111, 0b01011, .divw), (0b11111, 0b01011, .divw), (0b11001, 0b10110, .rnop),
      (0b01010, 0b10110, .rnop), (0b01011, 0b10110, .rnop), (0b11010, 0b10110, .eieio),
      (0b01000, 0b11100, .eqv), (0b11101, 0b11010, .extsb), (0b11100, 0b11010, .extsh),
      (0b11110, 0b11010, .extsw), (0b11011, 0b11010, .extswsli), (0b11011, 0b11011, .extswsli),
      (0b11110, 0b10110, .icbi), (0b00000, 0b10110, .icbt)],
    (List.range 32).map fun row => (.ofNat 5 row, 0b01111, .isel),
    [(0b00001, 0b10100, .lbarx), (0b11010, 0b10101, .lbzcix), (0b00011, 0b10111, .lbzux),
      (0b00010, 0b10111, .lbzx), (0b00010, 0b10100, .ldarx), (0b10000, 0b10100, .ldbrx),
      (0b11011, 0b10101, .ldcix), (0b00001, 0b10101, .ldux), (0b00000, 0b10101, .ldx),
      (0b10010, 0b10111, .lfdx), (0b10011, 0b10111, .lfdux), (0b11010, 0b10111, .lfiwax),
      (0b11011, 0b10111, .lfiwzx), (0b10000, 0b10111, .lfsx), (0b10001, 0b10111, .lfsux),
      (0b00011, 0b10100, .lharx), (0b01011, 0b10111, .lhaux), (0b01010, 0b10111, .lhax),
      (0b11000, 0b10110, .lhbrx), (0b11001, 0b10101, .lhzcix), (0b01001, 0b10111, .lhzux),
      (0b01000, 0b10111, .lhzx), (0b01000, 0b10100, .lqarx), (0b00000, 0b10100, .lwarx),
      (0b01011, 0b10101, .lwaux), (0b01010, 0b10101, .lwax), (0b10000, 0b10110, .lwbrx),
      (0b11000, 0b10101, .lwzcix), (0b00001, 0b10111, .lwzux), (0b00000, 0b10111, .lwzx),
      (0b10010, 0b00000, .mcrxrx), (0b00000, 0b10011, .mfcr), (0b00010, 0b10011, .mfmsr),
      (0b01010, 0b10011, .mfspr), (0b01000, 0b01001, .modud), (0b01000, 0b01011, .moduw),
      (0b11000, 0b01001, .modsd), (0b11000, 0b01011, .modsw), (0b00111, 0b01110, .msgclr),
      (0b00110, 0b01110, .msgsnd), (0b11011, 0b10110, .msgsync), (0b00100, 0b10000, .mtcrf),
      (0b00100, 0b10010, .mtmsr), (0b00101, 0b10010, .mtmsrd), (0b01110, 0b10011, .mtspr),
      (0b00010, 0b01001, .mulhd), (0b00000, 0b01001, .mulhdu), (0b00010, 0b01011, .mulhw),
      (0b00000, 0b01011, .mulhwu), (0b10010, 0b01001, .mulhd), (0b10000, 0b01001, .mulhdu),
      (0b10010, 0b01011, .mulhw), (0b10000, 0b01011, .mulhwu), (0b00111, 0b01001, .mulld),
      (0b10111, 0b01001, .mulld), (0b00111, 0b01011, .mullw), (0b10111, 0b01011, .mullw),
      (0b01110, 0b11100, .nand), (0b00011, 0b01000, .neg), (0b10011, 0b01000, .neg),
      (0b10000, 0b10010, .rnop), (0b10001, 0b10010, .rnop), (0b10010, 0b10010, .rnop),
      (0b10011, 0b10010, .rnop), (0b10110, 0b10010, .hashst), (0b10111, 0b10010, .hashchk),
      (0b10100, 0b10010, .hashstp), (0b10101, 0b10010, .hashchkp), (0b00011, 0b11100, .nor),
      (0b01101, 0b11100, .or), (0b01100, 0b11100, .orc), (0b00100, 0b11100, .pdepd),
      (0b00101, 0b11100, .pextd), (0b00011, 0b11010, .popcntb), (0b01111, 0b11010, .popcntd),
      (0b01011, 0b11010, .popcntw), (0b00101, 0b11010, .prtyd), (0b00100, 0b11010, .prtyw),
      (0b00100, 0b00000, .setb), (0b01100, 0b00000, .setb), (0b01101, 0b00000, .setb),
      (0b01110, 0b00000, .setb), (0b01111, 0b00000, .setb), (0b01111, 0b10010, .slbia),
      (0b00000, 0b11011, .sld), (0b00000, 0b11000, .slw), (0b11000, 0b11010, .srad),
      (0b11001, 0b11010, .sradi), (0b11001, 0b11011, .sradi), (0b11000, 0b11000, .sraw),
      (0b11001, 0b11000, .srawi), (0b10000, 0b11011, .srd), (0b10000, 0b11000, .srw),
      (0b11110, 0b10101, .stbcix), (0b10101, 0b10110, .stbcx), (0b00111, 0b10111, .stbux),
      (0b00110, 0b10111, .stbx), (0b10100, 0b10100, .stdbrx), (0b11111, 0b10101, .stdcix),
      (0b00110, 0b10110, .stdcx), (0b00101, 0b10101, .stdux), (0b00100, 0b10101, .stdx),
      (0b10110, 0b10111, .stfdx), (0b10111, 0b10111, .stfdux), (0b11110, 0b10111, .stfiwx),
      (0b10100, 0b10111, .stfsx), (0b10101, 0b10111, .stfsux), (0b11100, 0b10110, .sthbrx),
      (0b11101, 0b10101, .sthcix), (0b10110, 0b10110, .sthcx), (0b01101, 0b10111, .sthux),
      (0b01100, 0b10111, .sthx), (0b00101, 0b10110, .stqcx), (0b10100, 0b10110, .stwbrx),
      (0b11100, 0b10101, .stwcix), (0b00100, 0b10110, .stwcx), (0b00101, 0b10111, .stwux),
      (0b00100, 0b10111, .stwx), (0b00001, 0b01000, .subf), (0b10001, 0b01000, .subf),
      (0b00000, 0b01000, .subfc), (0b10000, 0b01000, .subfc), (0b00100, 0b01000, .subfe),
      (0b10100, 0b01000, .subfe), (0b00111, 0b01000, .subfme), (0b10111, 0b01000, .subfme),
      (0b00110, 0b01000, .subfze), (0b10110, 0b01000, .subfze), (0b10010, 0b10110, .sync),
      (0b00010, 0b00100, .td), (0b00000, 0b00100, .tw), (0b01001, 0b10010, .tlbie),
      (0b01000, 0b10010, .tlbiel), (0b10001, 0b10110, .tlbsync), (0b00000, 0b11110, .wait),
      (0b01001, 0b11100, .xor)]]

/-- The half of `row_predecode_rom` for the primary opcodes 19, 59 and 63. -/
def rowPredecodeRomHigh : List (BitVec 5 × BitVec 5 × InsnCode) :=
  [(0b10000, 0b11000, .bcctr), (0b00000, 0b11000, .bclr), (0b10001, 0b11000, .bctar),
    (0b01000, 0b10001, .crand), (0b00100, 0b10001, .crandc), (0b01001, 0b10001, .creqv),
    (0b00111, 0b10001, .crnand), (0b00001, 0b10001, .crnor), (0b01110, 0b10001, .cror),
    (0b01101, 0b10001, .crorc), (0b00110, 0b10001, .crxor), (0b00100, 0b11110, .isync),
    (0b00000, 0b10000, .mcrf), (0b00000, 0b11010, .rfid), (0b00010, 0b11010, .rfscv),
    (0b01000, 0b11010, .rfid), (0b11010, 0b10110, .fcfids), (0b11110, 0b10110, .fcfidus),
    (0b00000, 0b00000, .fcmpu), (0b00001, 0b00000, .fcmpo), (0b00010, 0b00000, .mcrfs),
    (0b00100, 0b00000, .ftdiv), (0b00101, 0b00000, .ftsqrt), (0b00001, 0b00110, .mtfsb),
    (0b00010, 0b00110, .mtfsb), (0b00100, 0b00110, .mtfsfi), (0b11010, 0b00110, .fmrgow),
    (0b11110, 0b00110, .fmrgew), (0b10010, 0b00111, .mffs), (0b10110, 0b00111, .mtfsf),
    (0b00000, 0b01000, .fcpsgn), (0b00001, 0b01000, .fneg), (0b00010, 0b01000, .fmr),
    (0b00100, 0b01000, .fnabs), (0b01000, 0b01000, .fabs), (0b01100, 0b01000, .frin),
    (0b01101, 0b01000, .friz), (0b01110, 0b01000, .frip), (0b01111, 0b01000, .frim),
    (0b00000, 0b01100, .frsp), (0b00000, 0b01110, .fctiw), (0b00100, 0b01110, .fctiwu),
    (0b11001, 0b01110, .fctid), (0b11010, 0b01110, .fcfid), (0b11101, 0b01110, .fctidu),
    (0b11110, 0b01110, .fcfidu), (0b00000, 0b01111, .fctiwz), (0b00100, 0b01111, .fctiwuz),
    (0b11001, 0b01111, .fctidz), (0b11101, 0b01111, .fctiduz)]

def rowPredecodeRom : List RowEntry :=
  rowPredecodeRomLow.map (fun e => ⟨0, e.1, e.2.1, e.2.2⟩) ++
    rowPredecodeRomHigh.map fun e => ⟨1, e.1, e.2.1, e.2.2⟩

def MajorEntry.covers (e : MajorEntry) (addr : BitVec 11) : Bool :=
  addr.extractLsb' 5 6 == e.op && e.first ≤ addr.extractLsb' 0 5 && addr.extractLsb' 0 5 ≤ e.last

def RowEntry.covers (e : RowEntry) (addr : BitVec 11) : Bool :=
  addr.extractLsb' 10 1 == e.half && addr.extractLsb' 5 5 == e.row &&
    addr.extractLsb' 0 5 == e.column

/-- The code in the major table; where there is no entry it is illegal. -/
def majorCode (addr : BitVec 11) : InsnCode :=
  ((majorPredecodeRom.find? (·.covers addr)).map (·.code)).getD .illegal

def rowCode (addr : BitVec 11) : InsnCode :=
  ((rowPredecodeRom.find? (·.covers addr)).map (·.code)).getD .illegal

/-! ### The first stage -/

section

variable (iword : BitVec 32)

def primary : BitVec 6 := iword.extractLsb' 26 6

def majaddr : BitVec 11 := primary iword ++ iword.extractLsb' 0 5

/-- Address bit 10 is 0 for the primary opcode 31, 1 for 19, 59 and 63. -/
def rowHalf : BitVec 1 := BitVec.ofBool (iword.getLsbD 31 || !iword.getLsbD 29)

/-- The column, which is moved for the primary opcodes 19 and 59. -/
def rowColumn : BitVec 5 :=
  (if !iword.getLsbD 28 then 1#1 ++ iword.extractLsb' 5 1 else iword.extractLsb' 4 2) ++
    iword.extractLsb' 1 3

def rowaddr : BitVec 11 := rowHalf iword ++ iword.extractLsb' 6 5 ++ rowColumn iword

end

/-- `predec_t`: the word with its codes from both tables. -/
structure Predec where
  image : BitVec 32
  majPredecode : BitVec 10
  rowPredecode : BitVec 10

/-- The place of a code in ten bits. -/
def toPlace (code : InsnCode) : BitVec 10 := BitVec.ofNat 10 code.pos

/-- `predecode_0`, for one word. -/
def predecode0 (iword : BitVec 32) : Predec where
  image := iword
  majPredecode := toPlace (majorCode (majaddr iword))
  rowPredecode := toPlace (rowCode (rowaddr iword))

/-! ### The second stage -/

/-- `illegal` by the primary opcode and the column. -/
def illegalColumn (iword : BitVec 32) : Bool :=
  match primary iword with
  | 0b000100 => !iword.getLsbD 5
  | 0b010011 => iword.getLsbD 4
  | 0b111011 => !iword.getLsbD 5 && (!iword.getLsbD 4 || !iword.getLsbD 3)
  | _ => false

def useRow (iword : BitVec 32) : Bool :=
  match primary iword with
  | 0b010011 => iword.getLsbD 5 || (!iword.getLsbD 3 && !iword.getLsbD 2)
  | 0b011111 => true
  | 0b111011 => !iword.getLsbD 5
  | 0b111111 => !iword.getLsbD 5
  | _ => false

def icode (p : Predec) : BitVec 10 :=
  if useRow p.image then p.rowPredecode
  -- ori, special-case the standard NOP
  else if p.image = 0x60000000 then toPlace .nop
  else p.majPredecode

/-- The image is that of an illegal instruction. -/
def isIllegal (hasFpu valid : Bool) (p : Predec) : Bool :=
  !valid || (illegalColumn p.image || (!hasFpu && InsnCode.firstFrs.pos ≤ (icode p).toNat)) ||
    icode p == toPlace .illegal

/-- `predecode_1`, for one word: the image that is written into the cache. -/
def predecode1 (hasFpu valid : Bool) (p : Predec) : BitVec 36 :=
  if isIllegal hasFpu valid p then 0b1000#4 ++ p.image
  else icode p ++ p.image.extractLsb' 0 26

/-! ### Reading the image -/

/-- `i_out.insn`. There is no value if the primary opcode is undefined. -/
def insnOut (insn : BitVec 36) : Option (BitVec 32) :=
  if insn.getLsbD 35 then some (insn.extractLsb' 0 32)
  else
    (recodePrimaryOpcode (.val (insn.extractLsb' 26 10).toNat)).map fun op =>
      op ++ insn.extractLsb' 0 26

def icodeOut (insn : BitVec 36) : InsnCode :=
  if insn.getLsbD 35 then .illegal else .val (insn.extractLsb' 26 10).toNat

/-! ### The tables and the primary opcodes -/

/-- The words for rfscv, pdepd, pextd and cfuged, by primary and extended opcode. -/
def Unmapped (iword : BitVec 32) : Prop :=
  (primary iword = 19 ∧ iword.extractLsb' 1 10 = 82) ∨
    (primary iword = 31 ∧
      (iword.extractLsb' 1 10 = 156 ∨ iword.extractLsb' 1 10 = 188 ∨
        iword.extractLsb' 1 10 = 220))

instance (iword : BitVec 32) : Decidable (Unmapped iword) := by unfold Unmapped; infer_instance

/-- The primary opcode a place in the row table belongs to. -/
def rowPrimary (half : BitVec 1) (column : BitVec 5) : BitVec 6 :=
  if half = 0 then 31
  else if column < 16 then 63
  else if column < 18 ∨ 24 ≤ column then 19
  else 59

/-- A place in the row table whose code has no primary opcode. -/
def Hole (half : BitVec 1) (row column : BitVec 5) : Prop :=
  (half = 1 ∧ row = 0b00010 ∧ column = 0b11010) ∨
    (half = 0 ∧ column = 0b11100 ∧ (row = 0b00100 ∨ row = 0b00101 ∨ row = 0b00110))

instance (half : BitVec 1) (row column : BitVec 5) : Decidable (Hole half row column) := by
  unfold Hole; infer_instance

theorem majorPredecodeRom_recode :
    ∀ e ∈ majorPredecodeRom, recodePrimaryOpcode e.code = some e.op := by
  decide +kernel

theorem rowPredecodeRom_recode :
    ∀ e ∈ rowPredecodeRom, Hole e.half e.row e.column ∨
      recodePrimaryOpcode e.code = some (rowPrimary e.half e.column) := by
  decide +kernel

theorem recode_majorCode {addr : BitVec 11} (h : majorCode addr ≠ .illegal) :
    recodePrimaryOpcode (majorCode addr) = some (addr.extractLsb' 5 6) := by
  unfold majorCode at h ⊢
  cases hfind : majorPredecodeRom.find? (·.covers addr) with
  | none => simp [hfind] at h
  | some e =>
    have hcovers := List.find?_some hfind
    simp only [MajorEntry.covers, Bool.and_eq_true, beq_iff_eq] at hcovers
    rw [hcovers.1.1]
    exact majorPredecodeRom_recode e (List.mem_of_find?_eq_some hfind)

theorem recode_rowCode {addr : BitVec 11} (h : rowCode addr ≠ .illegal)
    (hhole : ¬Hole (addr.extractLsb' 10 1) (addr.extractLsb' 5 5) (addr.extractLsb' 0 5)) :
    recodePrimaryOpcode (rowCode addr) =
      some (rowPrimary (addr.extractLsb' 10 1) (addr.extractLsb' 0 5)) := by
  unfold rowCode at h ⊢
  cases hfind : rowPredecodeRom.find? (·.covers addr) with
  | none => simp [hfind] at h
  | some e =>
    have hcovers := List.find?_some hfind
    simp only [RowEntry.covers, Bool.and_eq_true, beq_iff_eq] at hcovers
    obtain ⟨⟨hhalf, hrow⟩, hcolumn⟩ := hcovers
    rw [hhalf, hrow, hcolumn] at hhole
    rw [hhalf, hcolumn]
    exact (rowPredecodeRom_recode e (List.mem_of_find?_eq_some hfind)).resolve_left hhole

/-! ### What the stages look at

Which table is used, and where, depends on the primary opcode and the column of the word only. So
the facts below are checked on one word for each pair of these. -/

/-- The column of a word, instruction bits 5..1. -/
def column (iword : BitVec 32) : BitVec 5 := iword.extractLsb' 1 5

/-- A word with the given primary opcode and column. -/
def sample (op : BitVec 6) (col : BitVec 5) : BitVec 32 := op ++ 0#20 ++ col ++ 0#1

section

variable (w : BitVec 32)

theorem getLsbD_sample (op : BitVec 6) (col : BitVec 5) (k : ℕ) :
    (sample op col).getLsbD k =
      if k < 1 then false
      else if k - 1 < 5 then col.getLsbD (k - 1)
      else if k - 1 - 5 < 20 then false
      else op.getLsbD (k - 1 - 5 - 20) := by
  refine BitVec.getLsbD_append.trans ?_
  rw [BitVec.getLsbD_append, BitVec.getLsbD_append, BitVec.getLsbD_zero, BitVec.getLsbD_zero]

theorem primary_sample (op : BitVec 6) (col : BitVec 5) : primary (sample op col) = op := by
  refine BitVec.eq_of_getLsbD_eq fun k hk => ?_
  rw [primary, BitVec.getLsbD_extractLsb', getLsbD_sample, if_neg (by omega), if_neg (by omega),
    if_neg (by omega), show 26 + k - 1 - 5 - 20 = k by omega]
  simp [hk]

theorem getLsbD_sample_column {k : ℕ} (hk : k < 5) :
    (sample (primary w) (column w)).getLsbD (1 + k) = w.getLsbD (1 + k) := by
  rw [getLsbD_sample, if_neg (by omega), if_pos (by omega), Nat.add_sub_cancel_left]
  simp [column, hk]

theorem getLsbD_sample_primary {k : ℕ} (hk : k < 6) :
    (sample (primary w) (column w)).getLsbD (26 + k) = w.getLsbD (26 + k) := by
  have hbit := congrArg (fun v => v.getLsbD k) (primary_sample (primary w) (column w))
  simpa [primary, hk] using hbit

theorem illegalColumn_sample : illegalColumn (sample (primary w) (column w)) = illegalColumn w := by
  have h5 := getLsbD_sample_column w (k := 4) (by omega)
  have h4 := getLsbD_sample_column w (k := 3) (by omega)
  have h3 := getLsbD_sample_column w (k := 2) (by omega)
  simp only [Nat.reduceAdd] at h5 h4 h3
  simp only [illegalColumn, primary_sample, h5, h4, h3]

theorem useRow_sample : useRow (sample (primary w) (column w)) = useRow w := by
  have h5 := getLsbD_sample_column w (k := 4) (by omega)
  have h3 := getLsbD_sample_column w (k := 2) (by omega)
  have h2 := getLsbD_sample_column w (k := 1) (by omega)
  simp only [Nat.reduceAdd] at h5 h3 h2
  simp only [useRow, primary_sample, h5, h3, h2]

theorem rowHalf_sample : rowHalf (sample (primary w) (column w)) = rowHalf w := by
  have h31 := getLsbD_sample_primary w (k := 5) (by omega)
  have h29 := getLsbD_sample_primary w (k := 3) (by omega)
  simp only [Nat.reduceAdd] at h31 h29
  simp only [rowHalf, h31, h29]

theorem rowColumn_sample : rowColumn (sample (primary w) (column w)) = rowColumn w := by
  have h28 := getLsbD_sample_primary w (k := 2) (by omega)
  have hfield : ∀ a n, 1 ≤ a → a + n ≤ 6 →
      (sample (primary w) (column w)).extractLsb' a n = w.extractLsb' a n := by
    intro a n ha hn
    refine BitVec.eq_of_getLsbD_eq fun k hk => ?_
    have hbit := getLsbD_sample_column w (k := a + k - 1) (by omega)
    rw [show 1 + (a + k - 1) = a + k by omega] at hbit
    simp [hk, hbit]
  simp only [Nat.reduceAdd] at h28
  rw [rowColumn, rowColumn, h28, hfield 5 1 (by omega) (by omega),
    hfield 4 2 (by omega) (by omega), hfield 1 3 (by omega) (by omega)]

variable {w}

/-- The place of a legal word in the row table belongs to its primary opcode. -/
theorem rowPrimary_of_useRow (hrow : useRow w = true) (hlegal : illegalColumn w = false) :
    rowPrimary (rowHalf w) (rowColumn w) = primary w := by
  have hall : ∀ op col, useRow (sample op col) = true → illegalColumn (sample op col) = false →
      rowPrimary (rowHalf (sample op col)) (rowColumn (sample op col)) = op := by
    decide +kernel
  have h := hall (primary w) (column w)
  rw [useRow_sample, illegalColumn_sample, rowHalf_sample, rowColumn_sample] at h
  exact h hrow hlegal

theorem extended_eq : w.extractLsb' 1 10 = w.extractLsb' 6 5 ++ column w := by
  have happend : w.extractLsb' 6 5 ++ w.extractLsb' 1 5 = w.extractLsb' 1 (5 + 5) :=
    BitVec.extractLsb'_append_extractLsb'_eq_extractLsb' rfl
  exact happend.symm

/-- The holes of the row table are met by the four unmapped instructions only. -/
theorem unmapped_of_hole (hrow : useRow w = true) (hlegal : illegalColumn w = false)
    (hhole : Hole (rowHalf w) (w.extractLsb' 6 5) (rowColumn w)) : Unmapped w := by
  have hall : ∀ op col, useRow (sample op col) = true → illegalColumn (sample op col) = false →
      (rowHalf (sample op col) = 1 → rowColumn (sample op col) = 0b11010 →
        op = 19 ∧ col = 0b10010) ∧
      (rowHalf (sample op col) = 0 → rowColumn (sample op col) = 0b11100 →
        op = 31 ∧ col = 0b11100) := by
    decide +kernel
  have h := hall (primary w) (column w)
  rw [useRow_sample, illegalColumn_sample, rowHalf_sample, rowColumn_sample] at h
  obtain ⟨hhigh, hlow⟩ := h hrow hlegal
  unfold Unmapped
  rw [extended_eq]
  rcases hhole with ⟨hhalf, hr, hc⟩ | ⟨hhalf, hc, hr⟩
  · obtain ⟨hop, hcol⟩ := hhigh hhalf hc
    rw [hop, hcol, hr]
    decide
  · obtain ⟨hop, hcol⟩ := hlow hhalf hc
    rw [hop, hcol]
    rcases hr with hr | hr | hr <;> rw [hr] <;> decide

/-! ### The code of a word -/

/-- The code that the second stage selects. -/
def code (w : BitVec 32) : InsnCode :=
  if useRow w then rowCode (rowaddr w)
  else if w = 0x60000000 then .nop
  else majorCode (majaddr w)

theorem icode_predecode0 : icode (predecode0 w) = toPlace (code w) := by
  unfold icode code
  change (if useRow w then _ else if w = 0x60000000 then _ else _) = _
  split_ifs <;> rfl

theorem extract_rowaddr :
    (rowaddr w).extractLsb' 10 1 = rowHalf w ∧ (rowaddr w).extractLsb' 5 5 = w.extractLsb' 6 5 ∧
      (rowaddr w).extractLsb' 0 5 = rowColumn w := by
  refine ⟨BitVec.extractLsb'_append_eq_of_le (by omega) |>.trans ?_,
    BitVec.extractLsb'_append_eq_of_le (by omega) |>.trans ?_, BitVec.extractLsb'_append_eq_right⟩
  · exact BitVec.extractLsb'_append_eq_left
  · exact BitVec.extractLsb'_append_eq_right

theorem extract_majaddr : (majaddr w).extractLsb' 5 6 = primary w :=
  BitVec.extractLsb'_append_eq_left

/-- The code of a legal word gives its primary opcode back. -/
theorem recode_code (hlegal : illegalColumn w = false) (hcode : code w ≠ .illegal)
    (hmapped : ¬Unmapped w) : recodePrimaryOpcode (code w) = some (primary w) := by
  obtain ⟨hhalf, hr, hcol⟩ := extract_rowaddr (w := w)
  unfold code at hcode ⊢
  split_ifs at hcode ⊢ with hrow hnop
  · rw [recode_rowCode hcode, hhalf, hcol, rowPrimary_of_useRow hrow hlegal]
    rw [hhalf, hr, hcol]
    exact fun hhole => hmapped (unmapped_of_hole hrow hlegal hhole)
  · rw [hnop]
    decide
  · rw [recode_majorCode hcode, extract_majaddr]

/-! ### The round trip -/

theorem toNat_toPlace (c : InsnCode) : (toPlace c).toNat = c.pos := by
  have hlt := c.pos_lt
  simp only [toPlace, BitVec.toNat_ofNat]
  omega

/-- Codes leave the top bit of the image free. -/
theorem getLsbD_toPlace (c : InsnCode) : (toPlace c).getLsbD 9 = false := by
  have hlt := c.pos_lt
  have hnat := toNat_toPlace c
  rw [BitVec.getLsbD, Nat.testBit_lt_two_pow]
  omega

/-- The image of a legal word is read with the primary opcode of its code. -/
theorem insnOut_code (c : InsnCode) (low : BitVec 26) :
    insnOut (toPlace c ++ low) = (recodePrimaryOpcode c).map (· ++ low) := by
  have htop : (toPlace c ++ low).getLsbD 35 = false :=
    BitVec.getLsbD_append.trans (by simpa using getLsbD_toPlace c)
  have hcode : (toPlace c ++ low).extractLsb' 26 10 = toPlace c :=
    BitVec.extractLsb'_append_eq_left
  have hlow : (toPlace c ++ low).extractLsb' 0 26 = low := BitVec.extractLsb'_append_eq_right
  unfold insnOut
  rw [htop, if_neg Bool.false_ne_true]
  change (recodePrimaryOpcode (.val ((toPlace c ++ low).extractLsb' 26 10).toNat)).map
    (fun op => op ++ (toPlace c ++ low).extractLsb' 0 26) = _
  rw [hcode, hlow, toNat_toPlace, InsnCode.val_pos]

theorem insnOut_illegal : insnOut (0b1000#4 ++ w) = some w := by
  have htop : (0b1000#4 ++ w).getLsbD 35 = true := BitVec.getLsbD_append.trans (by simp)
  unfold insnOut
  rw [htop, if_pos rfl]
  exact congrArg some BitVec.extractLsb'_append_eq_right

theorem primary_append : primary w ++ w.extractLsb' 0 26 = w :=
  (BitVec.extractLsb'_append_extractLsb'_eq_extractLsb' rfl).trans BitVec.extractLsb'_eq_self

/-- The places of the four unmapped instructions, which are the holes of the row table. -/
theorem rowaddr_unmapped (h : Unmapped w) :
    useRow w = true ∧ illegalColumn w = false ∧
      rowaddr w ∈ [0b10001011010#11, 0b00010011100#11, 0b00010111100#11, 0b00011011100#11] := by
  have hplace : ∀ {ext : BitVec 10}, w.extractLsb' 1 10 = ext →
      column w = ext.extractLsb' 0 5 ∧ w.extractLsb' 6 5 = ext.extractLsb' 5 5 := by
    rintro ext rfl
    rw [extended_eq]
    exact ⟨BitVec.extractLsb'_append_eq_right.symm, BitVec.extractLsb'_append_eq_left.symm⟩
  rw [← useRow_sample, ← illegalColumn_sample, rowaddr, ← rowHalf_sample, ← rowColumn_sample]
  rcases h with ⟨hop, hext⟩ | ⟨hop, hext | hext | hext⟩
  all_goals
    obtain ⟨hcol, hrow⟩ := hplace hext
    rw [hop, hcol, hrow]
    decide

/-- The four instructions are legal, so they are stored with their codes, but their primary opcode
is not recomputed. -/
theorem insnOut_unmapped (hasFpu : Bool) (h : Unmapped w) :
    insnOut (predecode1 hasFpu true (predecode0 w)) = none := by
  obtain ⟨hrow, hlegal, haddr⟩ := rowaddr_unmapped h
  have hall : ∀ a ∈ [0b10001011010#11, 0b00010011100#11, 0b00010111100#11, 0b00011011100#11],
      recodePrimaryOpcode (rowCode a) = none ∧ toPlace (rowCode a) ≠ toPlace .illegal ∧
        (toPlace (rowCode a)).toNat < InsnCode.firstFrs.pos := by
    decide +kernel
  obtain ⟨hnone, hne, hlt⟩ := hall _ haddr
  have hicode : icode (predecode0 w) = toPlace (rowCode (rowaddr w)) := if_pos hrow
  have hill : isIllegal hasFpu true (predecode0 w) = false := by
    rw [isIllegal, hicode, show illegalColumn (predecode0 w).image = false from hlegal,
      decide_eq_false (by omega), beq_false_of_ne hne]
    simp
  rw [predecode1, hill, if_neg Bool.false_ne_true, hicode]
  change insnOut (toPlace (rowCode (rowaddr w)) ++ w.extractLsb' 0 26) = none
  rw [insnOut_code, hnone, Option.map_none]

theorem insnOut_mapped (hasFpu : Bool) (hmapped : ¬Unmapped w) :
    insnOut (predecode1 hasFpu true (predecode0 w)) = some w := by
  unfold predecode1
  split_ifs with hill
  · exact insnOut_illegal
  · simp only [isIllegal, Bool.not_true, Bool.false_or, Bool.or_eq_true, not_or,
      Bool.not_eq_true, beq_eq_false_iff_ne] at hill
    obtain ⟨⟨hlegal, -⟩, hne⟩ := hill
    change illegalColumn w = false at hlegal
    rw [icode_predecode0] at hne ⊢
    have hcode : code w ≠ .illegal := fun heq => hne (congrArg toPlace heq)
    change insnOut (toPlace (code w) ++ w.extractLsb' 0 26) = some w
    rw [insnOut_code, recode_code hlegal hcode hmapped, Option.map_some, primary_append]

end

/-- **The image gives the word back.** Whether there is an FPU or not, the cache gives out a word as
it came from memory exactly if it is none of rfscv, cfuged, pdepd and pextd. -/
theorem insnOut_predecode (hasFpu : Bool) (w : BitVec 32) :
    insnOut (predecode1 hasFpu true (predecode0 w)) = some w ↔ ¬Unmapped w := by
  refine ⟨fun hsome hunmapped => ?_, insnOut_mapped hasFpu⟩
  rw [insnOut_unmapped hasFpu hunmapped] at hsome
  exact absurd hsome (by simp)

theorem insnOut_predecode_addi :
    insnOut (predecode1 false true (predecode0 0x38600001)) = some 0x38600001 :=
  (insnOut_predecode false _).mpr (by decide)

theorem insnOut_predecode_cfuged :
    insnOut (predecode1 true true (predecode0 0x4c0000a4)) = none ∧
      insnOut (predecode1 true true (predecode0 0x7c0001b8)) = none ∧
      insnOut (predecode1 true true (predecode0 0x7c000138)) = none ∧
      insnOut (predecode1 true true (predecode0 0x7c000178)) = none :=
  ⟨by decide +kernel, by decide +kernel, by decide +kernel, by decide +kernel⟩

end Predecode

end Microwatt
