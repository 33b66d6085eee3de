import Mathlib.Data.Fin.Basic
import Mathlib.Data.BitVec

/-!
# Types shared by the units of the core

The records of `common.vhdl` that more than one unit uses. A `std_ulogic` is a `Bool` and a
`std_ulogic_vector` a `BitVec`: the undefined values `'U'` and `'X'` of simulation have no
counterpart, since the design compares its control bits with `'1'` and an undefined bit is then
simply not set.

## Main definitions

* `InstrTag`, `BypassData`
-/

namespace Microwatt

/-! ### Instruction tags -/

/-- `TAG_COUNT`: how many instructions control can follow at once. -/
abbrev tagCount : ℕ := 4

abbrev TagNumber := Fin tagCount

/-- One proof for the numerals of all modules. -/
scoped instance neZero_tagCount : NeZero tagCount := ⟨by decide⟩

/-- `gspr_index_t`: a GPR in `0 … 31` or an FPR in `32 … 63`. -/
abbrev GsprIndex := BitVec 6

structure InstrTag where
  tag : TagNumber
  valid : Bool
  deriving DecidableEq, Repr

def instrTagInit : InstrTag := ⟨0, false⟩

/-- `tag_match`: both tags are valid and they are the same number. -/
def tagMatch (tag1 tag2 : InstrTag) : Bool :=
  tag1.valid && tag2.valid && tag1.tag == tag2.tag

theorem tagMatch_iff {tag1 tag2 : InstrTag} :
    tagMatch tag1 tag2 = true ↔
      tag1.valid = true ∧ tag2.valid = true ∧ tag1.tag = tag2.tag := by
  simp [tagMatch, and_assoc]

/-- `bypass_data_t`: a result on its way to the register file, with the tag and the register of
the instruction it belongs to. -/
structure BypassData where
  tag : InstrTag
  reg : GsprIndex
  data : BitVec 64
  deriving DecidableEq, Repr

end Microwatt
