import Microwatt.Mmu.Walk

/-!
# Radix translation without an MMU

What a translation means: a recursion over the tables in memory, with no registers, no caches and
no timing. A table entry is found by putting address bits in the place of the low bits of the
table's base, so the definitions here say bit by bit where each address bit comes from; none of the
functions of the MMU appears. The second half shows that the source's functions agree.

## Main definitions

* `Mmu.tree`, `Mmu.lookup` — the walk down the tables
* `Mmu.permits`, `Mmu.checkLeaf` — what a leaf allows
* `Mmu.translate` — the translation of a request
* `Mmu.AtTable`, `Mmu.AtLeaf` — how far a walk has come
-/

namespace Microwatt

open BitVec Bool

namespace Mmu

/-! ### The recursion -/

/-- The doublewords in memory, by byte address, as the dcache returns them. -/
abbrev Memory := BitVec 64 → BitVec 64

/-- What can go wrong in a translation. -/
inductive Fault
  | invalid | badtree | segerror | permError | rcError
  deriving DecidableEq, Repr

/-- What the address is used for. -/
inductive Access
  | fetch | load | store
  deriving DecidableEq, Repr

structure Request where
  addr : BitVec 64
  access : Access
  priv : Bool
  deriving DecidableEq, Repr

/-- Address bits 61 to 12, which the tree translates. -/
def pageOf (addr : BitVec 64) : BitVec 50 := addr.extractLsb' 12 50

/-- The tables are big-endian. -/
def readTable (mem : Memory) (addr : BitVec 64) : BitVec 64 := byteSwap (mem addr)

/-- Addresses with bit 63 set are those of process 0. -/
def processOf (addr : BitVec 64) (pid : BitVec 12) : BitVec 12 :=
  if 2 ^ 63 ≤ addr.toNat then 0 else pid

/-- The second doubleword of the partition table. -/
def partitionAddr (ptcr : BitVec 64) : BitVec 64 :=
  Lanes.ofBits 64 fun i => i == 3 || decide (12 ≤ i ∧ i < 56) && ptcr.getLsbD i

/-- The table that an entry points to begins at a multiple of 256. -/
def tableBase (entry : BitVec 64) : BitVec 56 :=
  Lanes.ofBits 56 fun i => decide (8 ≤ i) && entry.getLsbD i

/-- The table that an entry points to has `2 ^ indexBits` entries. -/
def indexBits (entry : BitVec 64) : ℕ := entry.toNat % 32

/-- The number of page bits that a tree translates. Its root has it in two parts. -/
def treeBits (root : BitVec 64) : ℕ := root.toNat / 2 ^ 61 % 4 * 8 + root.toNat / 32 % 8 + 19

/-- Entry `pid` of the process table, whose size is in the low bits of `prtbl`. -/
def processAddr (prtbl : BitVec 64) (pid : BitVec 12) : BitVec 64 :=
  Lanes.ofBits 64 fun i =>
    if i < 4 ∨ 56 ≤ i then false
    else if i < 12 ∨ (i < 16 ∧ i < 12 + (prtbl.extractLsb' 0 5).toNat) then pid.getLsbD (i - 4)
    else prtbl.getLsbD i

/-- The entry of the table at `base` with `2 ^ mbits` entries that maps `2 ^ shift` pages around
`page`. -/
def entryAddr (base : BitVec 56) (mbits shift : ℕ) (page : BitVec 50) : BitVec 64 :=
  Lanes.ofBits 64 fun i =>
    if i < 3 then false
    else if i < 3 + mbits then page.getLsbD (shift + (i - 3))
    else base.getLsbD i

/-- Walk the table at `base` with `2 ^ mbits` entries, `shift` being the number of page bits that
it and the tables below translate. The result is a leaf and the number of page bits below it. -/
def tree (mem : Memory) (page : BitVec 50) (base : BitVec 56) (mbits shift : ℕ) :
    Except Fault (BitVec 64 × ℕ) :=
  if mbits < 5 ∨ 16 < mbits ∨ shift < mbits then .error .badtree
  else
    let entry := readTable mem (entryAddr base mbits (shift - mbits) page)
    if !entry.getLsbD 63 then .error .invalid
    else if entry.getLsbD 62 then .ok (entry, shift - mbits)
    else tree mem page (tableBase entry) (indexBits entry) (shift - mbits)
termination_by shift
decreasing_by omega

/-- The process table base, from the partition table. -/
def processTable (mem : Memory) (ptcr : BitVec 64) : BitVec 64 :=
  readTable mem (partitionAddr ptcr)

/-- The root of the tree of a process. -/
def processRoot (mem : Memory) (ptcr : BitVec 64) (pid : BitVec 12) : BitVec 64 :=
  readTable mem (processAddr (processTable mem ptcr) pid)

/-- The leaf for a page in a tree. `quad` says that address bits 63 and 62 are equal. -/
def lookupRoot (mem : Memory) (root : BitVec 64) (quad : Bool) (page : BitVec 50) :
    Except Fault (BitVec 64 × ℕ) :=
  if indexBits root = 0 then .error .invalid
  else if quad = false ∨ page >>> treeBits root ≠ 0 then .error .segerror
  else tree mem page (tableBase root) (indexBits root) (treeBits root)

/-- The leaf for a page of a process. -/
def lookup (mem : Memory) (ptcr : BitVec 64) (pid : BitVec 12) (quad : Bool) (page : BitVec 50) :
    Except Fault (BitVec 64 × ℕ) :=
  lookupRoot mem (processRoot mem ptcr pid) quad page

/-- A leaf has a bit for privileged pages, one for read and write, one for read and one for execute,
and one for pages from which instructions are not fetched. -/
def permits (leaf : BitVec 64) (priv : Bool) (access : Access) : Bool :=
  (priv || !leaf.getLsbD 3) &&
    match access with
    | .fetch => leaf.getLsbD 0 && !leaf.getLsbD 5
    | .load => leaf.getLsbD 1 || leaf.getLsbD 2
    | .store => leaf.getLsbD 1

/-- A leaf must permit the access, have R set, and C for a store. A permission error takes
precedence. -/
def checkLeaf (access : Access) (priv : Bool) (leaf : BitVec 64) : Except Fault Unit :=
  if !permits leaf priv access then .error .permError
  else if leaf.getLsbD 8 && (leaf.getLsbD 7 || access != .store) then .ok ()
  else .error .rcError

/-- The PTE for a 4k page inside the leaf's page. -/
def leafPte (leaf : BitVec 64) (shift : ℕ) (page : BitVec 50) : BitVec 64 :=
  Lanes.ofBits 64 fun i =>
    if 56 ≤ i then false
    else if 12 ≤ i ∧ i < 12 + shift then page.getLsbD (i - 12)
    else leaf.getLsbD i

/-- The outcome for a request on the page of a leaf. -/
def useLeaf (q : Request) (leaf : BitVec 64) (shift : ℕ) : Except Fault (BitVec 64) :=
  match checkLeaf q.access q.priv leaf with
  | .ok _ => .ok (leafPte leaf shift (pageOf q.addr))
  | .error f => .error f

/-- **The reference translation.** -/
def translate (mem : Memory) (ptcr : BitVec 64) (pid : BitVec 12) (q : Request) :
    Except Fault (BitVec 64) :=
  match lookup mem ptcr (processOf q.addr pid) (q.addr.getLsbD 63 == q.addr.getLsbD 62)
    (pageOf q.addr) with
  | .ok (leaf, shift) => useLeaf q leaf shift
  | .error f => .error f

/-- How the MMU reports an outcome to `loadstore1`. -/
def response : Except Fault (BitVec 64) → MmuToLoadstore1
  | .ok _ => { done := true }
  | .error f =>
    { err := true
      invalid := f == .invalid
      badtree := f == .badtree
      segerr := f == .segerror
      permError := f == .permError
      rcError := f == .rcError }

/-! ### The functions of the source -/

theorem toNat_zero_append (m : ℕ) {n : ℕ} (x : BitVec n) : (0#m ++ x).toNat = x.toNat := by
  rw [toNat_append]
  simp

theorem effpid_eq (addr : BitVec 64) (pid : BitVec 12) : effpid addr pid = processOf addr pid := by
  have h : addr.getLsbD 63 = decide (2 ^ 63 ≤ addr.toNat) := msb_eq_decide addr
  simp only [effpid, processOf, h, decide_eq_true_eq]

theorem parttableAddr_eq (ptcr : BitVec 64) : parttableAddr ptcr = partitionAddr ptcr := by
  refine eq_of_getLsbD_eq fun k hk => ?_
  have h8 : 8#12 = twoPow 12 3 := rfl
  simp only [parttableAddr, partitionAddr, Lanes.getLsbD_ofBits, getLsbD_append,
    getLsbD_extractLsb', h8, getLsbD_twoPow, getLsbD_zero]
  grind

theorem baseOf_eq (entry : BitVec 64) : baseOf entry = tableBase entry := by
  refine eq_of_getLsbD_eq fun k hk => ?_
  simp only [baseOf, tableBase, Lanes.getLsbD_ofBits, getLsbD_append, getLsbD_extractLsb']
  grind

theorem mbitsOf_eq (entry : BitVec 64) : (mbitsOf entry).toNat = indexBits entry := by
  rw [mbitsOf, toNat_zero_append, extractLsb'_toNat]
  rfl

theorem mbitsOf_eq_zero_iff {entry : BitVec 64} : mbitsOf entry = 0 ↔ indexBits entry = 0 := by
  rw [← mbitsOf_eq, toNat_eq]
  rfl

theorem rtsOf_eq (root : BitVec 64) : (rtsOf root).toNat + 19 = treeBits root := by
  rw [rtsOf, toNat_append, ← Nat.shiftLeft_add_eq_or_of_lt (isLt _), toNat_zero_append,
    Nat.shiftLeft_eq, extractLsb'_toNat, extractLsb'_toNat, Nat.shiftRight_eq_div_pow,
    Nat.shiftRight_eq_div_pow]
  rfl

theorem checkPermC_eq (leaf : BitVec 64) (priv : Bool) (access : Access) :
    checkPermC leaf priv (access == .fetch) (access == .store) true = permits leaf priv access := by
  cases access <;> simp [checkPermC, permits]

/-- The process table entry the source reads is the one for the PID. -/
theorem prtableAddr_eq (prtbl : BitVec 64) (pid : BitVec 12) :
    prtableAddr prtbl (0#1 ++ prtbl.extractLsb' 0 5) pid = processAddr prtbl pid := by
  have hsh := toNat_zero_append 1 (prtbl.extractLsb' 0 5)
  refine eq_of_getLsbD_eq fun k hk => ?_
  unfold prtableAddr processAddr finalMask
  rw [Lanes.getLsbD_ofBits, hsh]
  generalize (prtbl.extractLsb' 0 5).toNat = prts
  simp only [getLsbD_append, getLsbD_extractLsb', getLsbD_or,
    getLsbD_and, getLsbD_not, Lanes.getLsbD_ofBits]
  by_cases h1 : k < 4
  · simp [h1]
  by_cases h2 : k < 12
  · simp [h1, h2, show ¬56 ≤ k by omega, show k - 4 < 8 by omega, hk]
  by_cases h3 : k < 16
  · have e1 : ¬(k - 4 < 8) := by omega
    have e2 : k - 4 - 8 < 4 := by omega
    have e3 : 12 + (k - 4 - 8) = k := by omega
    have e4 : 8 + (k - 4 - 8) = k - 4 := by omega
    have e5 : k - 4 - 8 < 44 := by omega
    by_cases h4 : k < 12 + prts
    · simp [h1, h2, h3, h4, show ¬56 ≤ k by omega, e1, e2, e3, e4, e5, hk,
        show k - 4 - 8 < prts by omega]
    · simp [h1, h2, h3, h4, show ¬56 ≤ k by omega, e1, e2, e3, e4, e5, hk,
        show ¬k - 4 - 8 < prts by omega]
  · by_cases h4 : k < 56
    · simp [h1, h2, h3, show ¬56 ≤ k by omega, show ¬(k - 4 < 8) by omega,
        show ¬(k - 4 - 8 < 4) by omega, show 16 + (k - 4 - 8 - 4) = k by omega, hk,
        show k - 4 - 8 - 4 < 40 by omega]
    · simp [h1, show 56 ≤ k by omega, show ¬(k - 4 < 8) by omega,
        show ¬(k - 4 - 8 < 4) by omega, show ¬(k - 4 - 8 - 4 < 40) by omega]

/-- The three stages of the shifter make one shift of the page bits. -/
theorem getLsbD_addrShifter (addr : BitVec 64) (shift : BitVec 6) (h : shift.toNat < 48) {k : ℕ}
    (hk : k < 16) :
    (addrShifter addr shift).getLsbD k = (pageOf addr).getLsbD (shift.toNat + k) := by
  have h0 : (shift.extractLsb' 0 2).toNat = shift.toNat % 4 := by simp
  have h1 : (shift.extractLsb' 2 2).toNat = shift.toNat / 4 % 4 := by
    simp [Nat.shiftRight_eq_div_pow]
  have h2 : (shift.extractLsb' 4 2).toNat = shift.toNat / 16 := by
    simp only [extractLsb'_toNat, Nat.shiftRight_eq_div_pow]
    omega
  have e0 : shift.extractLsb' 4 2 = 0 ↔ shift.toNat / 16 = 0 := by
    rw [← h2, toNat_eq]; rfl
  have e1 : shift.extractLsb' 4 2 = 1 ↔ shift.toNat / 16 = 1 := by
    rw [← h2, toNat_eq]; rfl
  unfold addrShifter pageOf
  simp only [e0, e1, h0, h1, getLsbD_extractLsb', hk, decide_true, Bool.true_and]
  have hlt19 : shift.toNat % 4 + k < 19 := by omega
  have hlt31 : 4 * (shift.toNat / 4 % 4) + (shift.toNat % 4 + k) < 31 := by omega
  simp only [hlt19, decide_true, Bool.true_and]
  rcases (by omega : shift.toNat / 16 = 0 ∨ shift.toNat / 16 = 1 ∨ shift.toNat / 16 = 2) with
    hq | hq | hq
  · have hpos : 12 + (4 * (shift.toNat / 4 % 4) + (shift.toNat % 4 + k)) =
        12 + (shift.toNat + k) := by omega
    simp only [hq, if_true, getLsbD_extractLsb', hlt31, decide_true, Bool.true_and, hpos,
      show shift.toNat + k < 50 by omega]
  · have hpos : 28 + (4 * (shift.toNat / 4 % 4) + (shift.toNat % 4 + k)) =
        12 + (shift.toNat + k) := by omega
    simp only [hq, Nat.one_ne_zero, if_false, if_true, getLsbD_extractLsb', hlt31,
      decide_true, Bool.true_and, hpos, show shift.toNat + k < 50 by omega]
  · have hpos : 44 + (4 * (shift.toNat / 4 % 4) + (shift.toNat % 4 + k)) =
        12 + (shift.toNat + k) := by omega
    have hlt : 4 * (shift.toNat / 4 % 4) + (shift.toNat % 4 + k) < 18 ↔
        shift.toNat + k < 50 := by omega
    simp only [hq, Nat.succ_ne_zero, if_false, getLsbD_append,
      getLsbD_extractLsb', hpos, hlt, show ¬(2 = 1) by omega]
    split <;> simp_all

/-- The table entry the source reads is the one for the page. -/
theorem pgtableAddr_eq (pgbase : BitVec 56) (maskSize : BitVec 5) (shift : BitVec 6)
    (addr : BitVec 64) (h5 : 5 ≤ maskSize.toNat) (h16 : maskSize.toNat ≤ 16)
    (hs : shift.toNat < 48) :
    pgtableAddr pgbase maskSize shift addr =
      entryAddr pgbase maskSize.toNat shift.toNat (pageOf addr) := by
  refine eq_of_getLsbD_eq fun k hk => ?_
  unfold pgtableAddr entryAddr addrMask
  simp only [getLsbD_append, getLsbD_extractLsb', getLsbD_or,
    getLsbD_and, getLsbD_not, Lanes.getLsbD_ofBits, hk, decide_true, Bool.true_and]
  by_cases h1 : k < 3
  · simp [h1]
  by_cases h2 : k < 3 + maskSize.toNat
  · have hlt : k - 3 < 16 := by omega
    have hbit := getLsbD_addrShifter addr shift hs hlt
    simp only [h1, h2, hlt, show k - 3 < maskSize.toNat by omega, hbit, decide_true, Bool.or_true,
      Bool.not_true, Bool.and_false, Bool.and_true, Bool.false_or, if_true, if_false]
  · by_cases h3 : k < 19
    · simp [h1, h2, show k - 3 < 16 by omega, show ¬k - 3 < 5 by omega,
        show ¬k - 3 < maskSize.toNat by omega, show 3 + (k - 3) = k by omega]
    · by_cases h4 : k < 56
      · simp [h1, h2, show ¬k - 3 < 16 by omega, show k - 3 - 16 < 37 by omega,
          show 19 + (k - 3 - 16) = k by omega]
      · have hb : pgbase.getLsbD k = false := getLsbD_of_ge _ _ (by omega)
        simp [h1, h2, show ¬k - 3 < 16 by omega, show ¬k - 3 - 16 < 37 by omega, hb]

/-- The PTE the source loads is the one for the page. -/
theorem pteOf_eq (pde : BitVec 64) (shift : BitVec 6) (addr : BitVec 64) :
    pteOf pde shift addr = leafPte pde shift.toNat (pageOf addr) := by
  refine eq_of_getLsbD_eq fun k hk => ?_
  unfold pteOf leafPte finalMask pageOf
  simp only [getLsbD_append, getLsbD_extractLsb', getLsbD_or,
    getLsbD_and, getLsbD_not, Lanes.getLsbD_ofBits, hk, decide_true, Bool.true_and]
  by_cases h1 : k < 12
  · simp [h1, show ¬56 ≤ k by omega, show ¬12 ≤ k by omega]
  by_cases h2 : k < 56
  · have e1 : k - 12 < 44 := by omega
    have e2 : 12 + (k - 12) = k := by omega
    by_cases h3 : k < 12 + shift.toNat
    · simp [h1, h3, e1, e2, show ¬56 ≤ k by omega, show 12 ≤ k by omega,
        show k - 12 < shift.toNat by omega, show k - 12 < 50 by omega]
    · simp [h1, h3, e1, e2, show ¬56 ≤ k by omega, show ¬k - 12 < shift.toNat by omega]
  · simp [h1, show 56 ≤ k by omega, show ¬k - 12 < 44 by omega]

/-- The segment check of the source looks at the page bits above the tree. -/
theorem nonzero_eq (s : State) :
    nonzero s = decide (pageOf s.r.addr >>> (s.r.shift.toNat + 19) ≠ 0) := by
  have hz : (s.r.addr.extractLsb' 31 31 &&& ~~~((finalMask s.r.shift).extractLsb' 0 31) = 0) ↔
      pageOf s.r.addr >>> (s.r.shift.toNat + 19) = 0 := by
    constructor <;> intro h
    · refine eq_of_getLsbD_eq fun k _ => ?_
      have hbit := congrArg (fun x => x.getLsbD (s.r.shift.toNat + k)) h
      simp only [getLsbD_and, getLsbD_not, getLsbD_extractLsb', finalMask,
        Lanes.getLsbD_ofBits] at hbit
      simp only [getLsbD_ushiftRight, pageOf, getLsbD_extractLsb']
      by_cases hk : s.r.shift.toNat + k < 31
      · have hpos : 12 + (s.r.shift.toNat + 19 + k) = 31 + (s.r.shift.toNat + k) := by omega
        rw [hpos]
        have hge : ¬s.r.shift.toNat + k < s.r.shift.toNat := by omega
        simp only [hk, hge, Nat.zero_add, decide_true, decide_false, Bool.and_false,
          Bool.not_false, Bool.and_true, Bool.true_and] at hbit
        simp [hbit]
      · simp [show ¬s.r.shift.toNat + 19 + k < 50 by omega]
    · refine eq_of_getLsbD_eq fun k hk => ?_
      simp only [getLsbD_and, getLsbD_not, getLsbD_extractLsb', finalMask,
        Lanes.getLsbD_ofBits]
      by_cases hlt : k < s.r.shift.toNat
      · simp [hlt, show k < 44 by omega]
      · have hbit := congrArg (fun x => x.getLsbD (k - s.r.shift.toNat)) h
        simp only [getLsbD_ushiftRight, pageOf, getLsbD_extractLsb',
          show s.r.shift.toNat + 19 + (k - s.r.shift.toNat) = k + 19 by omega,
          show k + 19 < 50 by omega, show 12 + (k + 19) = 31 + k by omega] at hbit
        simp_all
  simp only [nonzero, bne, beq_eq_decide_eq, hz, ne_eq, decide_not]

/-! ### How far a walk has come

A level of the walk looks at some bits of the page only, so what is known about one page after a
few levels holds for all pages with the same high bits. The caches depend on that. -/

/-- The pages agree in the bits from `k` on. -/
def Agree (k : ℕ) (p p' : BitVec 50) : Prop := ∀ i, k ≤ i → p.getLsbD i = p'.getLsbD i

theorem Agree.refl (k : ℕ) (p : BitVec 50) : Agree k p p := fun _ _ => rfl

theorem Agree.trans {k : ℕ} {p p' p'' : BitVec 50} (h : Agree k p p') (h' : Agree k p' p'') :
    Agree k p p'' := fun i hi => (h i hi).trans (h' i hi)

theorem Agree.mono {k k' : ℕ} {p p' : BitVec 50} (h : Agree k p p') (hk : k ≤ k') :
    Agree k' p p' := fun i hi => h i (hk.trans hi)

theorem Agree.ushiftRight {k : ℕ} {p p' : BitVec 50} (h : Agree k p p') : p >>> k = p' >>> k := by
  refine eq_of_getLsbD_eq fun i _ => ?_
  simpa using h (k + i) (by omega)

theorem entryAddr_congr (base : BitVec 56) (mbits : ℕ) {shift : ℕ} {p p' : BitVec 50}
    (h : Agree shift p p') : entryAddr base mbits shift p = entryAddr base mbits shift p' := by
  unfold entryAddr
  congr 1
  funext i
  rw [h (shift + (i - 3)) (by omega)]

section

variable (mem : Memory) (root : BitVec 64)

/-- For all pages that agree with `page` from bit `k` on, the walk comes to the same table. -/
def AtTable (page : BitVec 50) (base : BitVec 56) (mbits k : ℕ) : Prop :=
  ∀ p, Agree k p page → lookupRoot mem root true p = tree mem p base mbits k

/-- All pages that agree with `page` from bit `k` on are mapped by one leaf. -/
def AtLeaf (page : BitVec 50) (leaf : BitVec 64) (k : ℕ) : Prop :=
  ∀ p, Agree k p page → lookupRoot mem root true p = .ok (leaf, k)

variable {mem root}

theorem AtTable.congr {page page' : BitVec 50} {base : BitVec 56} {mbits k : ℕ}
    (h : AtTable mem root page base mbits k) (ha : Agree k page' page) :
    AtTable mem root page' base mbits k := fun p hp => h p (hp.trans ha)

theorem AtLeaf.congr {page page' : BitVec 50} {leaf : BitVec 64} {k : ℕ}
    (h : AtLeaf mem root page leaf k) (ha : Agree k page' page) :
    AtLeaf mem root page' leaf k := fun p hp => h p (hp.trans ha)

theorem atTable_root {page : BitVec 50} (hm : mbitsOf root ≠ 0)
    (hp : page >>> ((rtsOf root).toNat + 19) = 0) :
    AtTable mem root page (baseOf root) (mbitsOf root).toNat ((rtsOf root).toNat + 19) := by
  intro p ha
  rw [ne_eq, mbitsOf_eq_zero_iff] at hm
  rw [rtsOf_eq] at hp ha ⊢
  rw [baseOf_eq, mbitsOf_eq, lookupRoot, if_neg hm, if_neg]
  simp [ha.ushiftRight, hp]

theorem AtTable.badtree {page : BitVec 50} {base : BitVec 56} {mbits k : ℕ}
    (h : AtTable mem root page base mbits k) (hbad : mbits < 5 ∨ 16 < mbits ∨ k < mbits) :
    lookupRoot mem root true page = .error .badtree := by
  rw [h page (Agree.refl k page), tree, if_pos hbad]

/-- One level of the walk, unfolded for all pages of the entry read. -/
theorem tree_step {page p : BitVec 50} {base : BitVec 56} {mbits shift : ℕ}
    (h5 : 5 ≤ mbits) (h16 : mbits ≤ 16) (hp : Agree shift p page) :
    tree mem p base mbits (shift + mbits) =
      let entry := readTable mem (entryAddr base mbits shift page)
      if !entry.getLsbD 63 then .error .invalid
      else if entry.getLsbD 62 then .ok (entry, shift)
      else tree mem p (tableBase entry) (indexBits entry) shift := by
  rw [tree, if_neg (by omega), Nat.add_sub_cancel, entryAddr_congr base mbits hp]

variable {page : BitVec 50} {base : BitVec 56} {mbits shift : ℕ} {entry : BitVec 64}

variable (h : AtTable mem root page base mbits (shift + mbits)) (h5 : 5 ≤ mbits) (h16 : mbits ≤ 16)
  (he : entry = readTable mem (entryAddr base mbits shift page)) (hv : entry.getLsbD 63 = true)

include h h5 h16 he in
theorem AtTable.invalid (hv : entry.getLsbD 63 = false) :
    lookupRoot mem root true page = .error .invalid := by
  rw [h page (Agree.refl _ page), tree_step h5 h16 (Agree.refl _ page), ← he]
  simp only [hv, Bool.not_false, if_true]

include h h5 h16 he hv in
theorem AtTable.leaf (hl : entry.getLsbD 62 = true) : AtLeaf mem root page entry shift := by
  intro p hp
  rw [h p (hp.mono (by omega)), tree_step h5 h16 hp, ← he]
  simp only [hv, hl, Bool.not_true, false_eq_true, if_true, if_false]

include h h5 h16 he hv in
theorem AtTable.descend (hl : entry.getLsbD 62 = false) :
    AtTable mem root page (baseOf entry) (mbitsOf entry).toNat shift := by
  intro p hp
  rw [h p (hp.mono (by omega)), tree_step h5 h16 hp, ← he, baseOf_eq, mbitsOf_eq]
  simp only [hv, hl, Bool.not_true, false_eq_true, if_false]

end

end Mmu

end Microwatt
