import Microwatt.Decode.Decode2
import Microwatt.Writeback

/-!
# The CR file

`cr_file.vhdl`: the condition register and the bits of the XER that instructions set. A read sees
the write of the same cycle.

## Main definitions

* `CrFile.State`, `CrFile.dOut`, `CrFile.step`
-/

namespace Microwatt

namespace CrFile

/-- The registers, which a reset leaves alone. -/
structure State where
  crs : BitVec 32 := 0
  xerc : XerCommon := {}
  deriving DecidableEq, Repr

variable (s : State) (w : WritebackToCrFile)

/-- The fields of `new` that the mask selects, and the others of `old`. -/
def merge (mask : BitVec 8) (new old : BitVec 32) : BitVec 32 :=
  Lanes.ofBits 32 fun n => if mask.getLsbD (n / 4) then new.getLsbD n else old.getLsbD n

def crsUpdated : BitVec 32 := merge w.writeCrMask w.writeCrData s.crs

def xercUpdated : XerCommon := if w.writeXercEnable then w.writeXercData else s.xerc

def dOut : CrFileToDecode2 := ⟨crsUpdated s w, xercUpdated s w⟩

def step : State where
  crs := if w.writeCrEnable then crsUpdated s w else s.crs
  xerc := xercUpdated s w

end CrFile

end Microwatt
