import Microwatt.Mmu.Reference

/-!
# What the MMU's caches hold

A set of either RAM is four entries spread over eight words: the head with the valid bit and the
PID in word 0, the tag in words 1 to 3, the table entry in words 4 to 7. This file puts an entry
together again (`entryAt`), says how each kind of write changes the entries, and states when the
contents of a cache are right for the tables in memory: every valid entry belongs to some page
(its bits not in the tag are those of the set number) and tells about that page what the walk
would find.

## Main definitions

* `Mmu.Entry`, `Mmu.entryAt` — an entry of a cache
* `Mmu.TlbOk`, `Mmu.PwcOk` — the valid entries agree with the tables in memory

## Main results

* `Mmu.TlbOk.hit`, `Mmu.PwcOk.hit` — what a hit tells
-/

namespace Microwatt

open Lanes
open BitVec (eq_of_getLsbD_eq getLsbD getLsbD_append getLsbD_extractLsb' getLsbD_of_ge getLsbD_xor)

namespace Mmu

/-! ### Entries and writes -/

/-- An entry of a cache. Page walk cache entries of 1G and 512G have their tag in word 3. -/
structure Entry where
  head : BitVec 16
  tag : BitVec 32
  tag3 : BitVec 16
  body : BitVec 64
  deriving DecidableEq, Repr

/-- The word that holds the 32-bit tag of a way. -/
def tagIdx (way : BitVec 2) : BitVec 3 :=
  0#1 ++ way.extractLsb' 1 1 ++ ~~~(way.extractLsb' 1 1)

/-- The enables for the 32-bit tag of a way. -/
def tagWren (way : BitVec 2) : BitVec 4 := if way.getLsbD 0 then 0b1100 else 0b0011

/-- The word that holds the table entry of a way. -/
def bodyIdx (way : BitVec 2) : BitVec 3 := 1#1 ++ way

/-- The entry of a way. -/
def entryAt (words : Words) (set : BitVec 6) (way : BitVec 2) : Entry where
  head := field (words (set ++ 0#3)) way.toNat
  tag := lane 32 (words (set ++ tagIdx way)) (way.toNat % 2)
  tag3 := field (words (set ++ 3#3)) way.toNat
  body := words (set ++ bodyIdx way)

theorem wordAddr_inj {set set' : BitVec 6} {idx idx' : BitVec 3} :
    set ++ idx = set' ++ idx' ↔ set = set' ∧ idx = idx' := by
  refine ⟨fun h => ⟨?_, ?_⟩, fun h => by rw [h.1, h.2]⟩
  · refine eq_of_getLsbD_eq fun k hk => ?_
    have hbit := congrArg (fun x => x.getLsbD (3 + k)) h
    simpa only [getLsbD_append, show ¬3 + k < 3 by omega, if_false,
      Nat.add_sub_cancel_left] using hbit
  · refine eq_of_getLsbD_eq fun k hk => ?_
    have hbit := congrArg (fun x => x.getLsbD k) h
    simpa only [getLsbD_append, hk, if_true] using hbit

theorem tagIdx_ne (way : BitVec 2) : tagIdx way ≠ 0#3 ∧ tagIdx way ≠ 3#3 := by
  revert way; decide

theorem bodyIdx_ne (way : BitVec 2) :
    bodyIdx way ≠ 0#3 ∧ bodyIdx way ≠ 3#3 ∧ ∀ way', bodyIdx way ≠ tagIdx way' := by
  revert way; decide

theorem bodyIdx_inj {way way' : BitVec 2} : bodyIdx way = bodyIdx way' ↔ way = way' := by
  revert way way'; decide

section

variable (words : Words) {op : RamOp} {set0 : BitVec 6}

theorem writeWord_apply {idx0 : BitVec 3} (h : op.wraddr = set0 ++ idx0) (set : BitVec 6)
    (idx : BitVec 3) :
    writeWord words op (set ++ idx) =
      if set = set0 ∧ idx = idx0 then merge 16 op.wren op.wrdata (words (set ++ idx))
      else words (set ++ idx) := by
  simp only [writeWord, h, wordAddr_inj]

theorem merge_none (new old : BitVec 64) : merge 16 (0#4) new old = old :=
  ext_lanes (w := 16) (by omega) ⟨4, rfl⟩ fun i hi => by
    rw [lane_merge _ _ _ hi]
    simp

theorem writeWord_none (h : op.wren = 0) : writeWord words op = words := by
  funext a
  unfold writeWord
  rw [h]
  split
  · exact merge_none _ _
  · rfl

theorem field_merge (wren : BitVec 4) (new old : BitVec 64) (way : BitVec 2) :
    field (merge 16 wren new old) way.toNat =
      if wren.getLsbD way.toNat then field new way.toNat else field old way.toNat :=
  lane_merge _ _ _ (by have := way.isLt; omega)

theorem merge_all (new old : BitVec 64) : merge 16 (0b1111#4) new old = new :=
  ext_lanes (w := 16) (by omega) ⟨4, rfl⟩ fun i hi => by
    have hb : (0b1111#4).getLsbD i = true := by
      rcases (by omega : i = 0 ∨ i = 1 ∨ i = 2 ∨ i = 3) with rfl | rfl | rfl | rfl <;> rfl
    rw [lane_merge _ _ _ hi, hb, if_pos rfl]

theorem lane32_merge {wren : BitVec 4} {j : ℕ} {b : Bool} (new old : BitVec 64) (hj : j < 2)
    (h0 : wren.getLsbD (2 * j) = b) (h1 : wren.getLsbD (2 * j + 1) = b) :
    lane 32 (merge 16 wren new old) j =
      if b then lane 32 new j else lane 32 old j := by
  have half : ∀ (x : BitVec 64) (k : ℕ), k < 32 →
      (lane 32 x j).getLsbD k =
        (lane 16 x (2 * j + k / 16)).getLsbD (k % 16) := by
    intro x k hk
    rw [getLsbD_lane, getLsbD_lane]
    simp [hk, show k % 16 < 16 by omega, show 16 * (2 * j + k / 16) + k % 16 = 32 * j + k by omega]
  refine eq_of_getLsbD_eq fun k hk => ?_
  have hsel : wren.getLsbD (2 * j + k / 16) = b := by
    rcases (by omega : k / 16 = 0 ∨ k / 16 = 1) with h | h
    · rw [h]; exact h0
    · rw [h]; exact h1
  rw [half _ k hk, lane_merge _ _ _ (by omega), hsel]
  cases b
  · simpa using (half old k hk).symm
  · simpa using (half new k hk).symm

theorem lane32_tag (way way' : BitVec 2) (h : tagIdx way' = tagIdx way) (new old : BitVec 64) :
    lane 32 (merge 16 (tagWren way) new old) (way'.toNat % 2) =
      if way' = way then lane 32 new (way'.toNat % 2)
      else lane 32 old (way'.toNat % 2) := by
  have hsel : (tagWren way).getLsbD (2 * (way'.toNat % 2)) = decide (way' = way) ∧
      (tagWren way).getLsbD (2 * (way'.toNat % 2) + 1) = decide (way' = way) := by
    revert way way'; decide
  rw [lane32_merge new old (by omega) hsel.1 hsel.2]
  simp

variable (set : BitVec 6) (way : BitVec 2)

theorem entryAt_writeHead (h : op.wraddr = set0 ++ 0#3) :
    entryAt (writeWord words op) set way =
      if set = set0 ∧ op.wren.getLsbD way.toNat then
        ⟨field op.wrdata way.toNat, (entryAt words set way).tag, (entryAt words set way).tag3,
          (entryAt words set way).body⟩
      else entryAt words set way := by
  have ht := tagIdx_ne way
  have hb := bodyIdx_ne way
  unfold entryAt
  simp only [writeWord_apply words h, ht.1, hb.1, show (3#3 : BitVec 3) ≠ 0#3 by decide, and_false,
    and_true, if_false]
  by_cases hs : set = set0
  · simp only [hs, if_true, field_merge, true_and]
    split <;> rfl
  · simp [hs]

theorem entryAt_writeTag {way0 : BitVec 2} (h : op.wraddr = set0 ++ tagIdx way0)
    (hw : op.wren = tagWren way0) :
    entryAt (writeWord words op) set way =
      if set = set0 ∧ way = way0 then
        ⟨(entryAt words set way).head, lane 32 op.wrdata (way.toNat % 2),
          (entryAt words set way).tag3, (entryAt words set way).body⟩
      else entryAt words set way := by
  have ht := tagIdx_ne way0
  have hb := bodyIdx_ne way
  unfold entryAt
  simp only [writeWord_apply words h, hw, ht.1.symm, ht.2.symm, hb.2.2 way0, and_false, if_false]
  by_cases hs : set = set0
  · by_cases hi : tagIdx way = tagIdx way0
    · simp only [hs, hi, and_self, if_true, true_and, lane32_tag way0 way hi]
      split <;> rfl
    · have hne : way ≠ way0 := fun h => hi (by rw [h])
      simp [hs, hi, hne]
  · simp [hs]

theorem onehot_getLsbD (way way0 : BitVec 2) :
    (onehot way0).getLsbD way.toNat = decide (way = way0) := by
  revert way way0; decide

theorem entryAt_writeTag3 {way0 : BitVec 2} (h : op.wraddr = set0 ++ 3#3)
    (hw : op.wren = onehot way0) :
    entryAt (writeWord words op) set way =
      if set = set0 ∧ way = way0 then
        ⟨(entryAt words set way).head, (entryAt words set way).tag, field op.wrdata way.toNat,
          (entryAt words set way).body⟩
      else entryAt words set way := by
  have ht := tagIdx_ne way
  have hb := bodyIdx_ne way
  unfold entryAt
  simp only [writeWord_apply words h, ht.2, hb.2.1, show (0#3 : BitVec 3) ≠ 3#3 by decide,
    and_false, and_true, if_false]
  by_cases hs : set = set0
  · simp only [hs, if_true, field_merge, hw, onehot_getLsbD, decide_eq_true_eq, true_and]
    split <;> rfl
  · simp [hs]

/-- A write to one of the words 4 to 7 changes the table entry of one way. -/
theorem entryAt_writeBody {way0 : BitVec 2} (h : op.wraddr = set0 ++ bodyIdx way0)
    (hw : op.wren = 0b1111#4) :
    entryAt (writeWord words op) set way =
      if set = set0 ∧ way = way0 then
        ⟨(entryAt words set way).head, (entryAt words set way).tag,
          (entryAt words set way).tag3, op.wrdata⟩
      else entryAt words set way := by
  have hb := bodyIdx_ne way0
  unfold entryAt
  simp only [writeWord_apply words h, hw, hb.1.symm, hb.2.1.symm, (hb.2.2 way).symm, bodyIdx_inj,
    and_false, if_false, merge_all]
  split <;> rfl

end

/-! ### Heads -/

def Entry.valid (e : Entry) : Bool := e.head.getLsbD 15

def Entry.pid (e : Entry) : BitVec 12 := e.head.extractLsb' 0 12

/-- Address bits 19 and 18 in the TLB, the level in the page walk cache. -/
def Entry.level (e : Entry) : BitVec 2 := e.head.extractLsb' 12 2

/-- A head as the state machines write it. -/
def head (b : BitVec 2) (level : BitVec 2) (pid : BitVec 12) : BitVec 16 := b ++ level ++ pid

section

variable (b level : BitVec 2) (pid : BitVec 12) (tag : BitVec 32) (tag3 : BitVec 16)
  (body : BitVec 64)

theorem valid_head : (Entry.mk (head b level pid) tag tag3 body).valid = b.getLsbD 1 := by
  unfold Entry.valid head
  rw [getLsbD_append, getLsbD_append]
  simp

theorem pid_head : (Entry.mk (head b level pid) tag tag3 body).pid = pid := by
  refine eq_of_getLsbD_eq fun k hk => ?_
  unfold Entry.pid head
  rw [getLsbD_extractLsb', getLsbD_append]
  simp [hk]

theorem level_head : (Entry.mk (head b level pid) tag tag3 body).level = level := by
  refine eq_of_getLsbD_eq fun k hk => ?_
  unfold Entry.level head
  rw [getLsbD_extractLsb', getLsbD_append, getLsbD_append]
  simp [hk]

end

theorem field_spread (x : BitVec 16) (way : BitVec 2) : field (spread x) way.toNat = x := by
  refine eq_of_getLsbD_eq fun k hk => ?_
  unfold field spread
  rw [getLsbD_lane]
  have := way.isLt
  rcases (by omega : way.toNat = 0 ∨ way.toNat = 1 ∨ way.toNat = 2 ∨ way.toNat = 3) with
    h | h | h | h <;> rw [h] <;> simp only [getLsbD_append, hk, decide_true, Bool.true_and]
  · simp [hk]
  · simp [hk]
  · simp [hk, show ¬32 + k < 16 by omega, show ¬32 + k - 16 < 16 by omega,
      show 32 + k - 16 - 16 = k by omega]
  · simp [show ¬48 + k < 16 by omega, show ¬48 + k - 16 < 16 by omega,
      show ¬48 + k - 16 - 16 < 16 by omega, show 48 + k - 16 - 16 - 16 = k by omega]

theorem field_zero (way : BitVec 2) : field (0 : BitVec 64) way.toNat = 0 := by
  revert way; decide

theorem lane32_pair (x : BitVec 32) (way : BitVec 2) : lane 32 (x ++ x) (way.toNat % 2) = x := by
  refine eq_of_getLsbD_eq fun k hk => ?_
  rw [getLsbD_lane]
  rcases (by omega : way.toNat % 2 = 0 ∨ way.toNat % 2 = 1) with h | h <;>
    rw [h, getLsbD_append] <;> simp [hk]

/-! ### The 4k TLB -/

/-- `addr_hash_4k`, on address bits 51 to 12. -/
def hash4k (a : BitVec 40) (pid : BitVec 12) : BitVec 6 :=
  a.extractLsb' 0 6 ^^^ a.extractLsb' 6 6 ^^^ a.extractLsb' 34 6 ^^^ pid.extractLsb' 0 6

theorem addrHash4k_eq (ea : BitVec 64) (pid : BitVec 12) :
    addrHash4k ea pid = hash4k (ea.extractLsb' 12 40) pid := by
  refine eq_of_getLsbD_eq fun k hk => ?_
  simp [addrHash4k, hash4k, hk, show k < 40 by omega, show 6 + k < 40 by omega,
    show 34 + k < 40 by omega, show 12 + (6 + k) = 18 + k by omega,
    show 12 + (34 + k) = 46 + k by omega]

/-- The entry is for the page with address bits `a`, in the address space `pid`. -/
structure TlbMatch (e : Entry) (set : BitVec 6) (pid : BitVec 12) (a : BitVec 40) : Prop where
  valid : e.valid = true
  pid_eq : e.pid = pid
  low_eq : e.level = a.extractLsb' 6 2
  tag_eq : e.tag = a.extractLsb' 8 32
  set_eq : hash4k a pid = set

/-- The tag and the set number determine the page. -/
theorem TlbMatch.unique {e : Entry} {set : BitVec 6} {pid : BitVec 12} {a a' : BitVec 40}
    (h : TlbMatch e set pid a) (h' : TlbMatch e set pid a') : a = a' := by
  have hlow : ∀ k, k < 2 → a.getLsbD (6 + k) = a'.getLsbD (6 + k) := by
    intro k hk
    have hbit := congrArg (fun x => x.getLsbD k) (h.low_eq.symm.trans h'.low_eq)
    simpa [hk] using hbit
  have htag : ∀ k, k < 32 → a.getLsbD (8 + k) = a'.getLsbD (8 + k) := by
    intro k hk
    have hbit := congrArg (fun x => x.getLsbD k) (h.tag_eq.symm.trans h'.tag_eq)
    simpa [hk] using hbit
  have hhigh : ∀ k, 6 ≤ k → k < 40 → a.getLsbD k = a'.getLsbD k := by
    intro k h6 h40
    by_cases h8 : k < 8
    · simpa [show 6 + (k - 6) = k by omega] using hlow (k - 6) (by omega)
    · simpa [show 8 + (k - 8) = k by omega] using htag (k - 8) (by omega)
  refine eq_of_getLsbD_eq fun k hk => ?_
  by_cases h6 : k < 6
  · have hbit := congrArg (fun x => x.getLsbD k) (h.set_eq.trans h'.set_eq.symm)
    simp only [hash4k, getLsbD_xor, getLsbD_extractLsb', h6, decide_true,
      Bool.true_and, Nat.zero_add, hhigh (6 + k) (by omega) (by omega),
      hhigh (34 + k) (by omega) (by omega)] at hbit
    simpa using hbit
  · exact hhigh k (by omega) hk

/-- The page with address bits 51 to 12 equal to `a`, in the part of the address space that is
cached. -/
def smallPage (a : BitVec 40) : BitVec 50 := 0#10 ++ a

section

variable (mem : Memory) (ptcr : BitVec 64)

/-- What a TLB entry for the page `a` says: it is the leaf the walk finds, with R set. -/
def TlbFact (pid : BitVec 12) (a : BitVec 40) (pte : BitVec 64) : Prop :=
  AtLeaf mem (processRoot mem ptcr pid) (smallPage a) pte 0 ∧ pte.getLsbD 8 = true

/-- All valid entries, except those in `busy`, agree with the tables. -/
def TlbOk (words : Words) (busy : BitVec 6 → BitVec 2 → Prop) : Prop :=
  ∀ set way, ¬busy set way → (entryAt words set way).valid = true →
    ∃ a, TlbMatch (entryAt words set way) set (entryAt words set way).pid a ∧
      TlbFact mem ptcr (entryAt words set way).pid a (entryAt words set way).body

variable {mem ptcr}

theorem TlbOk.hit {words : Words} {busy : BitVec 6 → BitVec 2 → Prop}
    (h : TlbOk mem ptcr words busy) {set : BitVec 6} {way : BitVec 2} {pid : BitVec 12}
    {a : BitVec 40} (hb : ¬busy set way) (hm : TlbMatch (entryAt words set way) set pid a) :
    TlbFact mem ptcr pid a (entryAt words set way).body := by
  obtain ⟨a', hm', hf⟩ := h set way hb hm.valid
  rw [hm.pid_eq] at hm' hf
  rwa [hm.unique hm']

/-- Writes that change only entries in `busy`, or make entries invalid, are harmless. -/
theorem TlbOk.frame {words words' : Words}
    {busy busy' : BitVec 6 → BitVec 2 → Prop} (h : TlbOk mem ptcr words busy)
    (hw : ∀ set way, ¬busy' set way → (entryAt words' set way).valid = true →
      ¬busy set way ∧ entryAt words' set way = entryAt words set way) :
    TlbOk mem ptcr words' busy' := by
  intro set way hb hv
  obtain ⟨hb', he⟩ := hw set way hb hv
  rw [he] at hv ⊢
  exact h set way hb' hv

end

/-- An entry that is valid after zero has been written to heads is the old one. -/
theorem entryAt_zero_heads {words : Words} {op : RamOp} {set0 set : BitVec 6}
    {way : BitVec 2} (hop : op.wraddr = set0 ++ 0#3) (hdat : op.wrdata = 0)
    (hv : (entryAt (writeWord words op) set way).valid = true) :
    entryAt (writeWord words op) set way = entryAt words set way := by
  rw [entryAt_writeHead _ _ _ hop] at hv ⊢
  split at hv
  · rw [hdat, field_zero] at hv
    exact absurd hv (by simp [Entry.valid])
  · rw [if_neg ‹_›]

/-! ### The page walk cache -/

/-- The three hashes of the page walk cache, on address bits 51 to 21. -/
def hashLevel (level : BitVec 2) (a : BitVec 31) (pid : BitVec 12) : BitVec 6 :=
  if level = 0 then
    a.extractLsb' 0 6 ^^^ a.extractLsb' 6 6 ^^^ a.extractLsb' 25 6 ^^^ pid.extractLsb' 0 6 ^^^
      pid.extractLsb' 6 6 ^^^ 0x09
  else if level = 1 then
    a.extractLsb' 9 6 ^^^ a.extractLsb' 15 6 ^^^ a.extractLsb' 25 6 ^^^ pid.extractLsb' 0 6 ^^^
      pid.extractLsb' 6 6 ^^^ 0x12
  else
    a.extractLsb' 18 6 ^^^ a.extractLsb' 25 6 ^^^ pid.extractLsb' 0 6 ^^^ pid.extractLsb' 6 6 ^^^
      0x24

section

variable (ea : BitVec 64) (pid : BitVec 12)

theorem addrHash2M_eq : addrHash2M ea pid = hashLevel 0 (ea.extractLsb' 21 31) pid := by
  refine eq_of_getLsbD_eq fun k hk => ?_
  simp [addrHash2M, hashLevel, hk, show k < 31 by omega, show 6 + k < 31 by omega,
    show 25 + k < 31 by omega, show 21 + (6 + k) = 27 + k by omega,
    show 21 + (25 + k) = 46 + k by omega]

theorem addrHash1G_eq : addrHash1G ea pid = hashLevel 1 (ea.extractLsb' 21 31) pid := by
  refine eq_of_getLsbD_eq fun k hk => ?_
  simp [addrHash1G, hashLevel, hk, show 9 + k < 31 by omega, show 15 + k < 31 by omega,
    show 25 + k < 31 by omega, show 21 + (9 + k) = 30 + k by omega,
    show 21 + (15 + k) = 36 + k by omega, show 21 + (25 + k) = 46 + k by omega]

theorem addrHash512G_eq : addrHash512G ea pid = hashLevel 2 (ea.extractLsb' 21 31) pid := by
  refine eq_of_getLsbD_eq fun k hk => ?_
  simp [addrHash512G, hashLevel, hk, show 18 + k < 31 by omega,
    show 25 + k < 31 by omega, show 21 + (18 + k) = 39 + k by omega,
    show 21 + (25 + k) = 46 + k by omega]

end

/-- The tag of an entry, by level. No entry has level 3. -/
def PwcTag (e : Entry) (level : BitVec 2) (a : BitVec 31) : Prop :=
  if level = 0 then e.tag.extractLsb' 7 25 = a.extractLsb' 6 25
  else if level = 1 then e.tag3 = a.extractLsb' 15 16
  else if level = 2 then e.tag3.extractLsb' 9 7 = a.extractLsb' 24 7
  else False

/-- The entry is for the region around address bits `a`, in the address space `pid`. -/
structure PwcMatch (e : Entry) (set : BitVec 6) (level : BitVec 2) (pid : BitVec 12)
    (a : BitVec 31) : Prop where
  valid : e.valid = true
  pid_eq : e.pid = pid
  level_eq : e.level = level
  tag_ok : PwcTag e level a
  set_eq : hashLevel level a pid = set

/-- The first page of the 2M page with address bits 51 to 21 equal to `a`. -/
def largePage (a : BitVec 31) : BitVec 50 := 0#10 ++ a ++ 0#9

theorem getLsbD_largePage (a : BitVec 31) {k : ℕ} (hk : 9 ≤ k) :
    (largePage a).getLsbD k = a.getLsbD (k - 9) := by
  unfold largePage
  rw [getLsbD_append, getLsbD_append]
  simp only [show ¬k < 9 by omega, if_false]
  by_cases h : k - 9 < 31
  · simp [h]
  · simp [h, getLsbD_of_ge a (k - 9) (by omega)]

/-- The number of page bits below an entry of the level. -/
def levelShift (level : BitVec 2) : ℕ := 9 * level.toNat + 9

theorem agree_largePage {a a' : BitVec 31} {level : BitVec 2}
    (h : ∀ k, 9 * level.toNat ≤ k → k < 31 → a.getLsbD k = a'.getLsbD k) :
    Agree (levelShift level) (largePage a) (largePage a') := by
  intro i hi
  unfold levelShift at hi
  rw [getLsbD_largePage a (by omega), getLsbD_largePage a' (by omega)]
  by_cases hlt : i - 9 < 31
  · exact h (i - 9) (by omega) hlt
  · rw [getLsbD_of_ge a _ (by omega), getLsbD_of_ge a' _ (by omega)]

/-- The tag and the set number determine the region. -/
theorem PwcMatch.unique {e : Entry} {set : BitVec 6} {level : BitVec 2} {pid : BitVec 12}
    {a a' : BitVec 31} (h : PwcMatch e set level pid a) (h' : PwcMatch e set level pid a') :
    Agree (levelShift level) (largePage a) (largePage a') := by
  have ht := h.tag_ok
  have ht' := h'.tag_ok
  have hs := congrArg getLsbD (h.set_eq.trans h'.set_eq.symm)
  unfold PwcTag at ht ht'
  unfold hashLevel at hs
  by_cases h0 : level = 0
  · subst h0
    simp only [if_true] at ht ht' hs
    have htag := congrArg getLsbD (ht.symm.trans ht')
    have hhigh : ∀ k, 6 ≤ k → k < 31 → a.getLsbD k = a'.getLsbD k := by
      intro k h6 h31
      simpa [show k - 6 < 25 by omega, show 6 + (k - 6) = k by omega] using congrFun htag (k - 6)
    refine agree_largePage fun k _ hk => ?_
    by_cases h6 : k < 6
    · have hbit := congrFun hs k
      simp only [getLsbD_xor, getLsbD_extractLsb', h6, decide_true,
        Bool.true_and, Nat.zero_add, hhigh (6 + k) (by omega) (by omega),
        hhigh (25 + k) (by omega) (by omega)] at hbit
      simpa using hbit
    · exact hhigh k (by omega) hk
  by_cases h1 : level = 1
  · subst h1
    simp only [if_true, show ¬((1 : BitVec 2) = 0) by decide, if_false] at ht ht' hs
    have htag := congrArg getLsbD (ht.symm.trans ht')
    have hhigh : ∀ k, 15 ≤ k → k < 31 → a.getLsbD k = a'.getLsbD k := by
      intro k h15 h31
      simpa [show k - 15 < 16 by omega, show 15 + (k - 15) = k by omega] using
        congrFun htag (k - 15)
    refine agree_largePage fun k hk9 hk => ?_
    replace hk9 : 9 ≤ k := hk9
    by_cases h15 : k < 15
    · have hbit := congrFun hs (k - 9)
      simp only [getLsbD_xor, getLsbD_extractLsb', show k - 9 < 6 by omega,
        decide_true, Bool.true_and, show 9 + (k - 9) = k by omega,
        hhigh (15 + (k - 9)) (by omega) (by omega),
        hhigh (25 + (k - 9)) (by omega) (by omega)] at hbit
      simpa using hbit
    · exact hhigh k (by omega) hk
  by_cases h2 : level = 2
  · subst h2
    simp only [if_true, show ¬((2 : BitVec 2) = 0) by decide,
      show ¬((2 : BitVec 2) = 1) by decide, if_false] at ht ht' hs
    have htag := congrArg getLsbD (ht.symm.trans ht')
    have hhigh : ∀ k, 24 ≤ k → k < 31 → a.getLsbD k = a'.getLsbD k := by
      intro k h24 h31
      simpa [show k - 24 < 7 by omega, show 24 + (k - 24) = k by omega] using
        congrFun htag (k - 24)
    refine agree_largePage fun k hk18 hk => ?_
    replace hk18 : 18 ≤ k := hk18
    by_cases h24 : k < 24
    · have hbit := congrFun hs (k - 18)
      simp only [getLsbD_xor, getLsbD_extractLsb', show k - 18 < 6 by omega,
        decide_true, Bool.true_and, show 18 + (k - 18) = k by omega,
        hhigh (25 + (k - 18)) (by omega) (by omega)] at hbit
      simpa using hbit
    · exact hhigh k (by omega) hk
  · simp only [h0, h1, h2, if_false] at ht

section

variable (mem : Memory) (ptcr : BitVec 64)

/-- What a page walk cache entry for the region around `a` says. A directory entry leads to a
table of 512 entries. A leaf is a 2M page with R set; in a place for larger regions a leaf says
nothing, since the walk ignores it there. -/
structure PwcFact (level : BitVec 2) (pid : BitVec 12) (a : BitVec 31) (pde : BitVec 64) :
    Prop where
  table : pde.getLsbD 62 = false →
    AtTable mem (processRoot mem ptcr pid) (largePage a) (baseOf pde) 9 (levelShift level)
  leaf : level = 0 → pde.getLsbD 62 = true →
    AtLeaf mem (processRoot mem ptcr pid) (largePage a) pde 9 ∧ pde.getLsbD 8 = true

/-- An entry is invalid or agrees with the tables. -/
def PwcEntryOk (e : Entry) (set : BitVec 6) : Prop :=
  e.valid = true → ∃ a, PwcMatch e set e.level e.pid a ∧ PwcFact mem ptcr e.level e.pid a e.body

/-- All entries, except those in `busy`, are invalid or agree with the tables. -/
def PwcOk (words : Words) (busy : BitVec 6 → BitVec 2 → Prop) : Prop :=
  ∀ set way, ¬busy set way → PwcEntryOk mem ptcr (entryAt words set way) set

variable {mem ptcr}

theorem PwcFact.congr {level : BitVec 2} {pid : BitVec 12} {a a' : BitVec 31} {pde : BitVec 64}
    (h : PwcFact mem ptcr level pid a pde)
    (ha : Agree (levelShift level) (largePage a') (largePage a)) :
    PwcFact mem ptcr level pid a' pde where
  table hl := (h.table hl).congr ha
  leaf h0 hl := by
    subst h0
    exact ⟨(h.leaf rfl hl).1.congr ha, (h.leaf rfl hl).2⟩

theorem PwcOk.hit {words : Words} {busy : BitVec 6 → BitVec 2 → Prop}
    (h : PwcOk mem ptcr words busy) {set : BitVec 6} {way level : BitVec 2} {pid : BitVec 12}
    {a : BitVec 31} (hb : ¬busy set way) (hm : PwcMatch (entryAt words set way) set level pid a) :
    PwcFact mem ptcr level pid a (entryAt words set way).body := by
  obtain ⟨a', hm', hf⟩ := h set way hb hm.valid
  rw [hm.pid_eq, hm.level_eq] at hm' hf
  exact hf.congr (hm.unique hm')

theorem PwcOk.frame {words words' : Words}
    {busy busy' : BitVec 6 → BitVec 2 → Prop} (h : PwcOk mem ptcr words busy)
    (hw : ∀ set way, ¬busy' set way → (entryAt words' set way).valid = true →
      ¬busy set way ∧ entryAt words' set way = entryAt words set way) :
    PwcOk mem ptcr words' busy' := by
  intro set way hb hv
  obtain ⟨hb', he⟩ := hw set way hb hv
  rw [he] at hv ⊢
  exact h set way hb' hv

end

end Mmu

end Microwatt
