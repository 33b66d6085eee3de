import Microwatt.Interfaces

/-!
# The fetch unit

`fetch1` keeps the address of the next instruction, translates it and sends it to the instruction
cache. Translations come from two levels: a mini cache of two entries, the ERAT, that is looked at
in the same cycle, and the direct-mapped L1 ITLB behind it, whose read port is a register. On an
ERAT miss no request is sent; the ITLB entry that was read at the clock edge is compared in the next
cycle (`tlbcheck`) and copied to the ERAT, and the address is tried again (`tlbstall`).

The branch target cache (BTC) is read for the address after the next one. An entry found there is a
prediction: the address that comes after the predicted branch is its recorded target.

Every register is given by one function with the suffix `Next`, named after the record field it
assigns. The combinational process assigns some of its variables several times; the order of the
assignments is the order of the tests here. The ports `flush_in` and `log_out` have no function.

## Main definitions

* `Fetch1.Geometry` — the generics of the unit
* `Fetch1.State`, `Fetch1.Inputs` — its registers and input ports
* `Fetch1.step` — one clock edge
* `Fetch1.iOut` — the request to the instruction cache
-/

namespace Microwatt

/-- `WritebackToFetch1Type`, with the values of `WritebackToFetch1Init`. -/
structure WritebackToFetch1 where
  redirect : Bool := false
  virtMode : Bool := false
  privMode : Bool := false
  bigEndian : Bool := false
  mode32bit : Bool := false
  redirectNia : BitVec 64 := 0
  brNia : BitVec 64 := 0
  brLast : Bool := false
  brTaken : Bool := false
  interrupt : Bool := false
  altIntr : Bool := false
  intrVec : BitVec 64 := 0
  deriving DecidableEq, Repr

structure Decode1ToFetch1 where
  redirect : Bool := false
  redirectNia : BitVec 64 := 0
  deriving DecidableEq, Repr

structure Fetch1ToIcache where
  req : Bool := false
  fetchFail : Bool := false
  virtMode : Bool := false
  privMode : Bool := false
  bigEndian : Bool := false
  stopMark : Bool := false
  predicted : Bool := false
  predNtaken : Bool := false
  nia : BitVec 64 := 0
  nextNia : BitVec 64 := 0
  rpn : BitVec 44 := 0
  nextRpn : BitVec 44 := 0
  deriving DecidableEq, Repr

namespace Fetch1

/-- The generics of the unit, with the size of the ITLB given by the number of index bits. The index
is made from three fields of the page number. -/
structure Geometry where
  tlbBits : ℕ
  hasBtc : Bool := true
  resetAddress : BitVec 64 := 0
  altResetAddress : BitVec 64 := 0
  tlbFits : 12 + 3 * tlbBits ≤ 64

namespace Geometry

/-- The values of `fetch1.vhdl`. -/
def default : Geometry := { tlbBits := 6, tlbFits := by decide }

variable (g : Geometry)

abbrev TlbIndex := BitVec g.tlbBits
abbrev TlbTag := BitVec (64 - (12 + g.tlbBits))

end Geometry

/-- The effective page number of an address. -/
def epn (addr : BitVec 64) : BitVec 52 := addr.extractLsb' 12 52

/-- The real page number in a PTE. -/
def pteRpn (pte : BitVec 64) : BitVec 44 := pte.extractLsb' 12 44

/-- The bit of a PTE that reserves the page to privileged mode. -/
def ptePriv (pte : BitVec 64) : Bool := pte.getLsbD 3

def hashEa (g : Geometry) (addr : BitVec 64) : g.TlbIndex :=
  addr.extractLsb' 12 g.tlbBits ^^^ addr.extractLsb' (12 + g.tlbBits) g.tlbBits ^^^
    addr.extractLsb' (12 + 2 * g.tlbBits) g.tlbBits

/-- The tag an address is stored under in the ITLB. -/
def eaTag (g : Geometry) (addr : BitVec 64) : g.TlbTag :=
  addr.extractLsb' (12 + g.tlbBits) (64 - (12 + g.tlbBits))

/-- Addresses of instructions are multiples of four. -/
def alignNia (addr : BitVec 64) : BitVec 64 := addr &&& ~~~3

/-! ### Registers and ports -/

structure RegInternal where
  mode32bit : Bool := false
  rdIsNiap4 : Bool := false
  tlbcheck : Bool := false
  tlbstall : Bool := false
  nextNia : BitVec 64 := 0
  deriving DecidableEq, Repr

structure Erat where
  epn0 : BitVec 52 := 0
  epn1 : BitVec 52 := 0
  rpn0 : BitVec 44 := 0
  rpn1 : BitVec 44 := 0
  priv0 : Bool := false
  priv1 : Bool := false
  valid0 : Bool := false
  valid1 : Bool := false
  mru : Bool := false
  deriving DecidableEq, Repr

/-- A word of the branch target cache: whether the branch was taken, the mode and the upper address
bits of the branch, and its target without the two low bits. -/
structure BtcEntry where
  taken : Bool := false
  virtMode : Bool := false
  tag : BitVec 52 := 0
  target : BitVec 62 := 0
  deriving DecidableEq, Repr

/-- The registers and memories of the unit. -/
structure State (g : Geometry) where
  r : Fetch1ToIcache := {}
  rInt : RegInternal := {}
  erat : Erat := {}
  itlbValids : g.TlbIndex → Bool := fun _ => false
  itlbTags : g.TlbIndex → g.TlbTag := fun _ => 0
  itlbPtes : g.TlbIndex → BitVec 64 := fun _ => 0
  itlbValid : Bool := false
  itlbTtag : g.TlbTag := 0
  itlbPte : BitVec 64 := 0
  btcMemory : BitVec 10 → BtcEntry := fun _ => {}
  btcValids : BitVec 10 → Bool := fun _ => false
  btcRdData : BtcEntry := {}
  btcRdValid : Bool := false

structure Inputs where
  rst : Bool := false
  stallIn : Bool := false
  invalBtc : Bool := false
  stopIn : Bool := false
  altResetIn : Bool := false
  m : MmuToITLB := {}
  w : WritebackToFetch1 := {}
  d : Decode1ToFetch1 := {}

section Comb

variable {g : Geometry} (s : State g) (i : Inputs)

/-! ### The next address -/

def itlbHit : Bool := s.itlbTtag == eaTag g s.r.nia && s.itlbValid

/-- The request to decode1 or to writeback replaces the address. -/
def redirected : Bool := i.w.redirect || i.d.redirect

def m32 : Bool := if i.w.redirect then i.w.mode32bit else s.rInt.mode32bit

/-- `next_nia` before the upper half is cleared in 32-bit mode. -/
def nextNiaWide : BitVec 64 :=
  if i.w.redirect then alignNia i.w.redirectNia
  else if i.d.redirect then alignNia i.d.redirectNia
  -- needed so that the correct icache tags are read
  else if s.rInt.tlbstall then s.r.nia
  else s.rInt.nextNia

def nextNia : BitVec 64 :=
  if m32 s i then (nextNiaWide s i).setWidth 32 |>.setWidth 64 else nextNiaWide s i

/-- `virt_mode` as the address is translated. -/
def virtMode : Bool := if i.w.redirect then i.w.virtMode else s.r.virtMode

/-- `priv_mode` as the address is checked. -/
def privMode : Bool := if i.w.redirect then i.w.privMode else s.r.privMode

def advanceNia : Bool :=
  i.rst || i.w.interrupt || i.w.redirect || i.d.redirect ||
    (!s.r.stopMark && !(s.r.req && i.stallIn))

/-! ### Translation -/

/-- Entry 1 of the ERAT matches; `esel`. -/
def eratSel : Bool := epn (nextNia s i) == s.erat.epn1 && s.erat.valid1

/-- Some entry of the ERAT matches; `ehit`. -/
def ehit : Bool := eratSel s i || (epn (nextNia s i) == s.erat.epn0 && s.erat.valid0)

def nextRpn : BitVec 44 :=
  if !virtMode s i then (nextNia s i).extractLsb' 12 44
  else if eratSel s i then s.erat.rpn1
  else s.erat.rpn0

def eaaPriv : Bool :=
  if !virtMode s i then true else if eratSel s i then s.erat.priv1 else s.erat.priv0

/-- `fetch_fail` as the ITLB leaves it: a failed check, or an earlier failure for the address. -/
def failPending : Bool :=
  !redirected i && (s.r.fetchFail || (s.rInt.tlbcheck && !itlbHit s))

/-- The ERAT has no translation, so the ITLB is to be checked in the next cycle. -/
def startCheck : Bool :=
  advanceNia s i && !ehit s i && virtMode s i && !s.rInt.tlbcheck && !failPending s i

/-- Reset or interrupt, which send no request themselves. -/
def diverted : Bool := i.rst || i.w.interrupt

def fetchFailNext : Bool :=
  !diverted i &&
    if ehit s i || !virtMode s i then eaaPriv s i && !privMode s i else failPending s i

def tlbcheckNext : Bool := !diverted i && startCheck s i

def tlbstallNext : Bool :=
  fetchFailNext s i || (!diverted i && (s.rInt.tlbcheck || startCheck s i))

def reqNext : Bool := !i.stopIn && !diverted i && !tlbstallNext s i

/-! ### Branch prediction -/

/-- The BTC has an entry for the address of the request. -/
def btcHit : Bool :=
  reqNext s i && !redirected i && !s.rInt.tlbstall && s.btcRdValid && s.rInt.rdIsNiap4 &&
    (s.btcRdData.virtMode == s.r.virtMode) && s.btcRdData.tag == epn s.rInt.nextNia

def predictedNext : Bool := btcHit s i && s.btcRdData.taken

def predNtakenNext : Bool := btcHit s i && !s.btcRdData.taken

def nextNiaNext : BitVec 64 :=
  if predictedNext s i then s.btcRdData.target ++ (0 : BitVec 2)
  else if i.rst then if i.altResetIn then g.altResetAddress else g.resetAddress
  else if i.w.interrupt then alignNia i.w.intrVec
  else nextNia s i + 4

/-- `btc_rd_addr`: the word for the address after the next one. -/
def btcRdAddr : BitVec 10 := (nextNia s i + 4).extractLsb' 2 10

/-! ### The registers after the edge -/

/-- The request register: most of it moves only with the address. -/
def rNext : Fetch1ToIcache where
  req := reqNext s i
  fetchFail := fetchFailNext s i
  stopMark := i.stopIn
  virtMode :=
    if advanceNia s i then if diverted i then i.w.altIntr && !i.rst else virtMode s i
    else s.r.virtMode
  privMode :=
    if advanceNia s i then diverted i || privMode s i else s.r.privMode
  bigEndian :=
    if advanceNia s i then
      !diverted i && if i.w.redirect then i.w.bigEndian else s.r.bigEndian
    else s.r.bigEndian
  predicted := if advanceNia s i then predictedNext s i else s.r.predicted
  predNtaken := if advanceNia s i then predNtakenNext s i else s.r.predNtaken
  nia := if advanceNia s i then nextNia s i else s.r.nia
  rpn := if advanceNia s i then nextRpn s i else s.r.rpn

def rIntNext : RegInternal where
  tlbcheck := tlbcheckNext s i
  tlbstall := tlbstallNext s i
  mode32bit := if advanceNia s i then !diverted i && m32 s i else s.rInt.mode32bit
  rdIsNiap4 :=
    if advanceNia s i then !diverted i && !predictedNext s i else s.rInt.rdIsNiap4
  nextNia := if advanceNia s i then nextNiaNext s i else s.rInt.nextNia

/-- The ITLB entry that was read belongs to the address and goes to the ERAT. -/
def eratFill : Bool := s.rInt.tlbcheck && itlbHit s

def eratNext : Erat :=
  if i.rst || i.m.tlbie then { s.erat with valid0 := false, valid1 := false, mru := false }
  else if i.m.tlbld then
    { s.erat with
      epn0 := epn i.m.addr, rpn0 := pteRpn i.m.pte, priv0 := ptePriv i.m.pte,
      valid0 := true, valid1 := false, mru := false }
  else if eratFill s then
    if !s.erat.mru then
      { s.erat with
        epn1 := epn s.r.nia, rpn1 := pteRpn s.itlbPte, priv1 := ptePriv s.itlbPte,
        valid1 := true, mru := !s.erat.mru }
    else
      { s.erat with
        epn0 := epn s.r.nia, rpn0 := pteRpn s.itlbPte, priv0 := ptePriv s.itlbPte,
        valid0 := true, mru := !s.erat.mru }
  else if ehit s i && advanceNia s i then { s.erat with mru := eratSel s i }
  else s.erat

/-- The MMU's command writes an ITLB entry. -/
def itlbWrite : Bool := !i.rst && !i.m.tlbie && i.m.tlbld

def itlbValidsNext (index : g.TlbIndex) : Bool :=
  if i.rst || (i.m.tlbie && i.m.doall) then false
  else if i.m.tlbie then
    -- clear entry regardless of hit or miss
    if index = hashEa g i.m.addr then false else s.itlbValids index
  else if i.m.tlbld then if index = hashEa g i.m.addr then true else s.itlbValids index
  else s.itlbValids index

def btcWrData : BtcEntry where
  taken := i.w.brTaken
  virtMode := s.r.virtMode
  tag := i.w.brNia.extractLsb' 12 52
  target := i.w.redirectNia.extractLsb' 2 62

def btcWrAddr : BitVec 10 := i.w.brNia.extractLsb' 2 10

def step : State g where
  r := rNext s i
  rInt := rIntNext s i
  erat := eratNext s i
  itlbValids := itlbValidsNext s i
  itlbTags := fun index =>
    if itlbWrite i && index == hashEa g i.m.addr then eaTag g i.m.addr else s.itlbTags index
  itlbPtes := fun index =>
    if itlbWrite i && index == hashEa g i.m.addr then i.m.pte else s.itlbPtes index
  itlbValid :=
    if advanceNia s i then s.itlbValids (hashEa g (nextNia s i)) else s.itlbValid
  itlbTtag := if advanceNia s i then s.itlbTags (hashEa g (nextNia s i)) else s.itlbTtag
  itlbPte := if advanceNia s i then s.itlbPtes (hashEa g (nextNia s i)) else s.itlbPte
  btcMemory := fun addr =>
    if i.w.brLast && addr == btcWrAddr i then btcWrData s i else s.btcMemory addr
  btcValids := fun addr =>
    if i.invalBtc || i.rst then false
    else if i.w.brLast && addr == btcWrAddr i then true
    else s.btcValids addr
  btcRdData := if advanceNia s i then s.btcMemory (btcRdAddr s i) else s.btcRdData
  btcRdValid :=
    g.hasBtc && if advanceNia s i then s.btcValids (btcRdAddr s i) else s.btcRdValid

def iOut : Fetch1ToIcache := { s.r with nextNia := nextNia s i, nextRpn := nextRpn s i }

end Comb

/-! ### After reset -/

variable {g : Geometry}

/-- What a clock edge with `rst` leaves of any state. -/
structure AfterReset (s : State g) : Prop where
  req : s.r.req = false
  virtMode : s.r.virtMode = false
  tlbcheck : s.rInt.tlbcheck = false
  erat0 : s.erat.valid0 = false
  erat1 : s.erat.valid1 = false
  itlb : ∀ index, s.itlbValids index = false
  btc : ∀ addr, s.btcValids addr = false

theorem afterReset_step (s : State g) {i : Inputs} (hrst : i.rst = true) :
    AfterReset (step s i) := by
  constructor <;>
    simp [step, rNext, rIntNext, reqNext, tlbcheckNext, eratNext, itlbValidsNext, diverted,
      advanceNia, hrst]

end Fetch1

end Microwatt
