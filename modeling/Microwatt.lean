import Microwatt.Lib.Clocked
import Microwatt.Lib.Lanes
import Microwatt.Lib.Ways
import Microwatt.Lib.Cyclic
import Microwatt.Lib.Latest
import Microwatt.Lib.Sole
import Microwatt.Lib.Bits
import Microwatt.Lib.Restoring
import Microwatt.Common
import Microwatt.Helpers
import Microwatt.Interfaces
import Microwatt.Plru
import Microwatt.LoadStore.Basic
import Microwatt.LoadStore.Stages
import Microwatt.LoadStore.Format
import Microwatt.LoadStore.Pipeline
import Microwatt.LoadStore.Occupancy
import Microwatt.LoadStore.Digest
import Microwatt.LoadStore.Hash
import Microwatt.LoadStore.Quadword
import Microwatt.LoadStore.Port
import Microwatt.LoadStore.Slots
import Microwatt.Mmu.Basic
import Microwatt.Mmu.Caches
import Microwatt.Mmu.Walk
import Microwatt.Mmu.Reference
import Microwatt.Mmu.Content
import Microwatt.Mmu.TlbSearch
import Microwatt.Mmu.TlbLookup
import Microwatt.Mmu.TlbTable
import Microwatt.Mmu.PwcSearch
import Microwatt.Mmu.PwcLookup
import Microwatt.Mmu.Inval
import Microwatt.Mmu.InvalPage
import Microwatt.Mmu.PwcWrite
import Microwatt.Mmu.Units
import Microwatt.Mmu.Correct
import Microwatt.Mmu.Translation
import Microwatt.Control.Basic
import Microwatt.Control.Hazards
import Microwatt.Dcache.Basic
import Microwatt.Dcache.Lookup
import Microwatt.Dcache.Step
import Microwatt.Dcache.Control
import Microwatt.Dcache.Tlb
import Microwatt.Dcache.Bus
import Microwatt.Dcache.Requests
import Microwatt.Dcache.Reservation
import Microwatt.Decode.InsnCode
import Microwatt.Decode.Predecode
import Microwatt.Decode.Decode1
import Microwatt.Decode.Decode2
import Microwatt.Decode.Serialize
import Microwatt.Writeback
import Microwatt.RegisterFile
import Microwatt.CrFile
import Microwatt.Xics.Icp
import Microwatt.Decode.Operands
import Microwatt.Fetch.Basic
import Microwatt.Fetch.Translation
import Microwatt.Icache.Basic
import Microwatt.Icache.Reload
import Microwatt.Execute.Msr
import Microwatt.Execute.Flush
import Microwatt.Execute.Divider
import Microwatt.Execute.CountBits
import Microwatt.Execute.Timebase
import Microwatt.Execute.RamSprs
import Microwatt.Fpu.Fpscr
import Microwatt.CountZeroes
import Microwatt.LoadStore.Single
import Microwatt.LoadStore.Sprs
import Microwatt.LoadStore.Pairs
import Microwatt.Backend.Basic
import Microwatt.Fpu.Illegal
import Microwatt.Backend.Trace
import Microwatt.Backend.Slots
import Microwatt.Backend.Core
import Microwatt.Backend.Order
import Microwatt.Backend.Sprs
import Microwatt.Wishbone.Arbiter
import Microwatt.SyncFifo
