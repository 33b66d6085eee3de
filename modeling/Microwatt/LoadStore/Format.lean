import Microwatt.LoadStore.Basic

/-!
# Load and store formatting

What the doublewords exchanged with the data cache mean for a byte-addressed memory. A store
is one or two masked doubleword writes, a load assembles its value from one or two doublewords;
the specification says it byte by byte, at the addresses `EA … EA + length - 1`.

The finite part of the argument (8 offsets, 4 lengths, 2 byte orders, 8 lanes) is settled by
evaluation, in `sel_spec`, `rotate_spec` and `control_spec`; what is left are the two doubleword
addresses, in `byteAddr_spec`.

## Main definitions

* `LoadStore.Op`, `LoadStore.Op.doublewords` — an instruction and its requests
* `LoadStore.loadValue` — the value that a load has to return

## Main results

* `LoadStore.Op.store_correct`, `LoadStore.Op.load_correct`
-/

namespace Microwatt

open Lanes BitVec

namespace LoadStore

/-! ### Memory -/

/-- A byte-addressed memory. -/
abbrev Memory := BitVec 64 → BitVec 8

/-- The doubleword that contains the byte at `addr`. -/
def dwordAt (mem : Memory) (addr : BitVec 64) : BitVec 64 :=
  Lanes.ofBytes 64 fun i => mem (addr.extractLsb' 3 61 ++ BitVec.ofNat 3 i)

/-- A masked write of a doubleword. -/
structure DwordWrite where
  addr : BitVec 64
  sel : BitVec 8
  data : BitVec 64
  deriving DecidableEq, Repr

/-- The selected bytes of the doubleword are written. -/
def DwordWrite.apply (w : DwordWrite) (mem : Memory) : Memory := fun x =>
  if x.extractLsb' 3 61 = w.addr.extractLsb' 3 61 ∧ w.sel.getLsbD (x.extractLsb' 0 3).toNat then
    byte w.data (x.extractLsb' 0 3).toNat
  else mem x

/-! ### Instructions -/

/-- An instruction as loadstore1 receives it: what execute1 presents, and the address register
`addr0` that the second part of a two-part instruction refers to. -/
structure Op where
  l : Execute1ToLoadstore1
  addr0 : BitVec 64

namespace Op

variable (hasFpu : Bool) (o : Op)

/-- The request made for it. -/
def request : Request := loadstore1In hasFpu o.l o.addr0

def ea : BitVec 64 := effectiveAddr o.l o.addr0

/-- The address of its `k`-th byte: addresses wrap at the end of the address space. -/
def byteAddr (k : ℕ) : BitVec 64 := trimAddr o.l.mode32bit (o.ea + BitVec.ofNat 64 k)

def size : ℕ := o.l.length.toNat

/-- Which byte of the register value goes with the `k`-th byte in memory. -/
def valueLane (k : ℕ) : ℕ := if o.l.byteReverse then o.size - 1 - k else k

/-- An ordinary access: a load or store of 1, 2, 4 or 8 bytes. -/
structure Plain : Prop where
  kind : o.l.op = .load ∨ o.l.op = .store
  length : o.l.length = 1 ∨ o.l.length = 2 ∨ o.l.length = 4 ∨ o.l.length = 8
  noHash : o.l.hash = false

/-- The formatted register value, as sent with both requests. -/
def dataOut : BitVec 64 :=
  formatStore (o.ea.extractLsb' 0 3) (brevMaskOf o.l) (storeValue hasFpu o.l)

/-- The requests for the doublewords it touches. -/
def doublewords : List DwordWrite :=
  let r := o.request hasFpu
  ⟨r.addr, r.byteSel, o.dataOut hasFpu⟩ ::
    if r.twoDwords then [⟨(secondRequest r).addr, (secondRequest r).byteSel, o.dataOut hasFpu⟩]
    else []

end Op

/-- The value of a load: its bytes in the selected order, with zeros or copies of the sign bit
above. -/
def loadValue (mem : Memory) (o : Op) : BitVec 64 :=
  ofBytes 64 fun j =>
    if j < o.size then mem (o.byteAddr (o.valueLane j))
    else if o.l.signExtend && (mem (o.byteAddr (o.valueLane (o.size - 1)))).msb then
      allOnes 8
    else 0

/-! ### The finite part

One statement for each function of the source that looks at the offset, the length and the byte
order. -/

def lengths : List (BitVec 4) := [1, 2, 4, 8]

theorem mem_lengths {o : Op} (h : o.Plain) : o.l.length ∈ lengths := by
  rcases h.length with h | h | h | h <;> simp [lengths, h]

/-- The byte enables select the bytes from the offset on. -/
theorem sel_spec : ∀ len ∈ lengths, ∀ a i : Fin 8,
    ((xferDataSel len (ofFin a)).extractLsb' 0 8).getLsbD i =
        decide (a.val ≤ i.val ∧ i.val < a.val + len.toNat) ∧
      ((xferDataSel len (ofFin a)).extractLsb' 8 8).getLsbD i =
        decide (i.val + 8 < a.val + len.toNat) := by
  decide +kernel

/-- The byte reversal mask of a length. -/
def maskOf (brev : Bool) (len : BitVec 4) : BitVec 3 :=
  if brev then len.extractLsb' 0 3 - 1 else 0

/-- The lane of the value that belongs to position `k`. -/
def laneOf (brev : Bool) (len : BitVec 4) (k : ℕ) : ℕ := if brev then len.toNat - 1 - k else k

/-- The load controls find the byte of a lane in the first or in the second doubleword. -/
theorem control_spec : ∀ len ∈ lengths, ∀ brev : Bool, ∀ a j : Fin 8, j.val < len.toNat →
    (loadControl (ofFin a) (maskOf brev len) j).byteIndex.toNat =
        (a.val + laneOf brev len j) % 8 ∧
      (loadControl (ofFin a) (maskOf brev len) j).useSecond =
        decide (8 ≤ a.val + laneOf brev len j) := by
  decide +kernel

theorem laneOf_lt : ∀ len ∈ lengths, ∀ brev : Bool, ∀ j : Fin 8, j.val < len.toNat →
    laneOf brev len j < len.toNat ∧ laneOf brev len (laneOf brev len j) = j := by
  decide +kernel

theorem length_le : ∀ len ∈ lengths, 0 < len.toNat ∧ len.toNat ≤ 8 := by decide

/-! ### The two doubleword addresses -/

/-- A byte address is a doubleword number and a lane. -/
theorem toNat_append_lane (h : BitVec 61) (c : BitVec 3) :
    (h ++ c : BitVec 64).toNat = 8 * h.toNat + c.toNat := by
  rw [toNat_append, ← Nat.shiftLeft_add_eq_or_of_lt c.isLt, Nat.shiftLeft_eq]
  omega

theorem toNat_dword (x : BitVec 64) : (x.extractLsb' 3 61).toNat = x.toNat / 8 := by
  have hx := x.isLt
  simp only [extractLsb'_toNat, Nat.shiftRight_eq_div_pow]
  omega

theorem toNat_lane (x : BitVec 64) : (x.extractLsb' 0 3).toNat = x.toNat % 8 := by
  simp [extractLsb'_toNat]

theorem toNat_trimAddr (mode32bit : Bool) (x : BitVec 64) :
    (trimAddr mode32bit x).toNat = if mode32bit then x.toNat % 2 ^ 32 else x.toNat := by
  cases mode32bit with
  | false => simp [trimAddr]
  | true =>
    have happ : (0#32 ++ x.extractLsb' 0 32 : BitVec 64).toNat = (x.extractLsb' 0 32).toNat := by
      rw [toNat_append]
      simp
    simp only [trimAddr, if_true, happ, extractLsb'_toNat, Nat.shiftRight_zero]

/-- Clearing bit 32 brings the end of the 32-bit address space back to its start. -/
theorem toNat_clear_bit32 {x : BitVec 64} (h : x.toNat ≤ 2 ^ 32) :
    (setBit x 32 false).toNat = x.toNat % 2 ^ 32 := by
  rcases Nat.lt_or_eq_of_le h with hlt | heq
  · have hbit : setBit x 32 false = x := by
      refine eq_of_getLsbD_eq fun k hk => ?_
      have hx32 : x.getLsbD 32 = false := Nat.testBit_lt_two_pow hlt
      simp only [setBit, Bool.false_eq_true, if_false, getLsbD_and, getLsbD_not,
        getLsbD_twoPow, hk, decide_true, Bool.true_and]
      by_cases hk32 : k = 32
      · subst hk32; rw [hx32]; rfl
      · simp [Ne.symm hk32]
    rw [hbit, Nat.mod_eq_of_lt hlt]
  · have hx : x = 0x100000000#64 := eq_of_toNat_eq (by rw [heq]; rfl)
    rw [hx]
    decide

namespace Op

variable {hasFpu : Bool} {o : Op}

/-- The address of the second doubleword. -/
def secondAddr (hasFpu : Bool) (o : Op) : BitVec 64 := (secondRequest (o.request hasFpu)).addr

theorem ea_lt (h : o.l.mode32bit = true) : o.ea.toNat < 2 ^ 32 := by
  rw [ea, effectiveAddr, toNat_trimAddr, if_pos h]
  exact Nat.mod_lt _ (by decide)

theorem toNat_secondAddr :
    (o.secondAddr hasFpu).toNat =
      (8 * (o.ea.toNat / 8) + 8) % (if o.l.mode32bit then 2 ^ 32 else 2 ^ 64) := by
  have hlt := o.ea.isLt
  have hplus : ((o.ea.extractLsb' 3 61 + 1) ++ 0#3 : BitVec 64).toNat =
      (8 * (o.ea.toNat / 8) + 8) % 2 ^ 64 := by
    have hone : (1 : BitVec 61).toNat = 1 := rfl
    have hzero : (0#3).toNat = 0 := rfl
    rw [toNat_append_lane, toNat_add, toNat_dword, hone, hzero]
    omega
  cases hm : o.l.mode32bit with
  | false =>
    simp only [secondAddr, secondRequest, request, loadstore1In, hm, Bool.false_eq_true, if_false]
    exact hplus
  | true =>
    have h32 := ea_lt hm
    have hle : ((o.ea.extractLsb' 3 61 + 1) ++ 0#3 : BitVec 64).toNat ≤ 2 ^ 32 := by
      rw [hplus]; omega
    have hclear := toNat_clear_bit32 hle
    rw [hplus] at hclear
    simp only [secondAddr, secondRequest, request, loadstore1In, hm, if_true]
    rw [show effectiveAddr o.l o.addr0 = o.ea from rfl, hclear]
    exact Nat.mod_mod_of_dvd _ (by decide)

theorem toNat_byteAddr (k : ℕ) :
    (o.byteAddr k).toNat =
      (o.ea.toNat + k) % (if o.l.mode32bit then 2 ^ 32 else 2 ^ 64) := by
  rw [byteAddr, toNat_trimAddr, toNat_add, toNat_ofNat]
  cases hm : o.l.mode32bit with
  | false => simp only [Bool.false_eq_true, if_false]; omega
  | true => simp only [if_true]; omega

/-- The bytes of an access lie in the doubleword of its address and in the next one. -/
theorem byteAddr_spec (hasFpu : Bool) (k : ℕ) (hk : k < 8) :
    o.byteAddr k =
      if o.ea.toNat % 8 + k < 8 then
        o.ea.extractLsb' 3 61 ++ BitVec.ofNat 3 (o.ea.toNat % 8 + k)
      else (o.secondAddr hasFpu).extractLsb' 3 61 ++ BitVec.ofNat 3 (o.ea.toNat % 8 + k - 8) := by
  refine eq_of_toNat_eq ?_
  have hea := o.ea.isLt
  rw [toNat_byteAddr k]
  by_cases hin : o.ea.toNat % 8 + k < 8
  · rw [if_pos hin, toNat_append_lane, toNat_dword, toNat_ofNat]
    cases hm : o.l.mode32bit with
    | false => simp only [Bool.false_eq_true, if_false]; omega
    | true =>
      have h32 := ea_lt hm
      simp only [if_true]; omega
  · rw [if_neg hin, toNat_append_lane, toNat_dword, toNat_ofNat, toNat_secondAddr]
    cases hm : o.l.mode32bit with
    | false => simp only [Bool.false_eq_true, if_false]; omega
    | true =>
      have h32 := ea_lt hm
      simp only [if_true]; omega

end Op

theorem dword_append (h : BitVec 61) (c : BitVec 3) :
    (h ++ c : BitVec 64).extractLsb' 3 61 = h := by
  refine eq_of_toNat_eq ?_
  have hc := c.isLt
  rw [toNat_dword, toNat_append_lane]
  omega

theorem lane_append (h : BitVec 61) (c : BitVec 3) : (h ++ c : BitVec 64).extractLsb' 0 3 = c := by
  refine eq_of_toNat_eq ?_
  have hc := c.isLt
  rw [toNat_lane, toNat_append_lane]
  omega

theorem DwordWrite.apply_append (w : DwordWrite) (mem : Memory) (h : BitVec 61) {c : ℕ}
    (hc : c < 8) :
    w.apply mem (h ++ BitVec.ofNat 3 c) =
      if h = w.addr.extractLsb' 3 61 ∧ w.sel.getLsbD c = true then Lanes.byte w.data c
      else mem (h ++ BitVec.ofNat 3 c) := by
  have hlane : (BitVec.ofNat 3 c).toNat = c := by
    rw [BitVec.toNat_ofNat]; exact Nat.mod_eq_of_lt hc
  rw [DwordWrite.apply, dword_append, lane_append, hlane]

theorem byte_dwordAt (mem : Memory) (addr : BitVec 64) {c : ℕ} (hc : c < 8) :
    Lanes.byte (dwordAt mem addr) c = mem (addr.extractLsb' 3 61 ++ BitVec.ofNat 3 c) :=
  Lanes.byte_ofBytes _ (by omega)

namespace Op

variable {hasFpu : Bool} {o : Op}

/-! ### Stores -/

/-- The offset of an access in its doubleword. -/
def offset (o : Op) : Fin 8 := (o.ea.extractLsb' 0 3).toFin

theorem offset_val : (o.offset : ℕ) = o.ea.toNat % 8 := toNat_lane o.ea

theorem size_le (ho : o.Plain) : o.size ≤ 8 := (length_le o.l.length (mem_lengths ho)).2

/-- The load formatter controls of the access. -/
def control (o : Op) : ℕ → LoadControl := loadControl (o.ea.extractLsb' 0 3) (brevMaskOf o.l)

theorem control_eq (ho : o.Plain) {j : ℕ} (hj : j < o.size) :
    (o.control j).byteIndex.toNat = (o.ea.toNat % 8 + o.valueLane j) % 8 ∧
      (o.control j).useSecond = decide (8 ≤ o.ea.toNat % 8 + o.valueLane j) := by
  have hlen := size_le ho
  have hctl := control_spec o.l.length (mem_lengths ho) o.l.byteReverse o.offset
    ⟨j, by omega⟩ hj
  rw [offset_val] at hctl
  exact hctl

theorem valueLane_lt (ho : o.Plain) {j : ℕ} (hj : j < o.size) : o.valueLane j < o.size := by
  have hlen := size_le ho
  exact (laneOf_lt o.l.length (mem_lengths ho) o.l.byteReverse ⟨j, by omega⟩ hj).1

/-- Does the access touch a second doubleword? -/
theorem twoDwords_iff (ho : o.Plain) :
    (o.request hasFpu).twoDwords = true ↔ 8 < o.ea.toNat % 8 + o.size := by
  have hlen := size_le ho
  have hbit : ∀ c < 8, (o.request hasFpu).secondBytes.getLsbD c =
      decide (c + 8 < o.ea.toNat % 8 + o.size) := by
    intro c hc
    rw [← offset_val]
    exact (sel_spec o.l.length (mem_lengths ho) o.offset ⟨c, hc⟩).2
  have htwo : (o.request hasFpu).twoDwords = ((o.request hasFpu).secondBytes != 0) := rfl
  rw [htwo, bne_iff_ne]
  constructor
  · intro hne
    by_contra hle
    refine hne (eq_of_getLsbD_eq fun c hc => ?_)
    have hnone : ¬ c + 8 < o.ea.toNat % 8 + o.size := by omega
    simp [hbit c hc, hnone]
  · intro hlt hzero
    have h0 : ¬ 0 + 8 < o.ea.toNat % 8 + o.size := by
      simpa [hzero] using hbit 0 (by decide)
    omega

/-- A byte of the value, from the doubleword it lies in. -/
theorem byte_permute (hasFpu : Bool) (ho : o.Plain) (mem : Memory) {j : ℕ} (hj : j < o.size) :
    Lanes.byte (permute o.control (dwordAt mem
        (if (o.control j).useSecond then o.secondAddr hasFpu else o.ea))) j =
      mem (o.byteAddr (o.valueLane j)) := by
  have hlen := size_le ho
  have hlane := valueLane_lt ho hj
  obtain ⟨hidx, huse⟩ := control_eq ho hj
  rw [permute, Lanes.byte_ofBytes _ (by omega), hidx, byte_dwordAt _ _ (Nat.mod_lt _ (by decide)),
    huse, byteAddr_spec hasFpu _ (by omega)]
  by_cases hin : o.ea.toNat % 8 + o.valueLane j < 8
  · simp only [hin, if_true, Nat.mod_eq_of_lt hin, not_le.mpr hin, decide_false, Bool.false_eq_true,
      if_false]
  · have hmod : (o.ea.toNat % 8 + o.valueLane j) % 8 = o.ea.toNat % 8 + o.valueLane j - 8 := by
      omega
    simp only [hin, if_false, hmod, not_lt.mp hin, decide_true, if_true]

theorem signBit_eq : ∀ len ∈ lengths, ∀ data : BitVec 64,
    signBit len data = (byte data (len.toNat - 1)).msb := by
  intro len hlen data
  simp only [lengths, List.mem_cons, List.not_mem_nil, or_false] at hlen
  rw [msb_eq_getLsbD_last, getLsbD_byte]
  rcases hlen with rfl | rfl | rfl | rfl <;> simp [signBit]

/-- The trimmed data is the value, whenever every byte of it, and the byte its sign is taken from,
comes from the right place. -/
theorem trimData_eq (ho : o.Plain) (mem : Memory) (dwordIndex : Bool) (first last : BitVec 64)
    (hbyte : ∀ j < o.size,
      byte (if dwordIndex && !(o.control j).useSecond then first else last) j =
        mem (o.byteAddr (o.valueLane j)))
    (hsign : (dwordIndex && !(o.control (o.size - 1)).useSecond) =
      (dwordIndex && o.l.byteReverse)) :
    trimData o.l.length o.l.byteReverse o.l.signExtend dwordIndex o.control first last =
      loadValue mem o := by
  have hpos : 0 < o.size := (length_le o.l.length (mem_lengths ho)).1
  have hneg : (if dwordIndex && o.l.byteReverse then signBit o.l.length first
      else signBit o.l.length last) = (mem (o.byteAddr (o.valueLane (o.size - 1)))).msb := by
    rw [← hbyte (o.size - 1) (by omega), hsign]
    split <;> exact signBit_eq _ (mem_lengths ho) _
  unfold trimData loadValue
  simp only [hneg]
  congr 1
  funext j
  by_cases hj : j < o.size
  · have hj' : j < o.l.length.toNat := hj
    rw [if_pos hj', if_pos hj, ← hbyte j hj]
    split <;> rfl
  · have hj' : ¬ j < o.l.length.toNat := hj
    rw [if_neg hj', if_neg hj, Bool.and_comm]

/-- **Loads.** The formatted data of the doublewords returned for a load is its value. -/
theorem load_correct (hasFpu : Bool) (ho : o.Plain) (mem : Memory) (kept : BitVec 64) :
    ((o.request hasFpu).twoDwords = false →
        trimData o.l.length o.l.byteReverse o.l.signExtend false o.control kept
          (permute o.control (dwordAt mem o.ea)) = loadValue mem o) ∧
      ((o.request hasFpu).twoDwords = true →
        trimData o.l.length o.l.byteReverse o.l.signExtend true o.control
          (permute o.control (dwordAt mem o.ea))
          (permute o.control (dwordAt mem (o.secondAddr hasFpu))) = loadValue mem o) := by
  have hpos : 0 < o.size := (length_le o.l.length (mem_lengths ho)).1
  have htwo := @twoDwords_iff hasFpu o ho
  constructor
  · intro h
    refine trimData_eq ho mem false _ _ (fun j hj => ?_) rfl
    have hlane := valueLane_lt ho hj
    have huse : (o.control j).useSecond = false := by
      rw [(control_eq ho hj).2, decide_eq_false_iff_not]
      have hle : ¬ 8 < o.ea.toNat % 8 + o.size := by rw [← htwo, h]; simp
      omega
    rw [← byte_permute hasFpu ho mem hj, huse]
    rfl
  · intro h
    have hlt := htwo.mp h
    refine trimData_eq ho mem true _ _ (fun j hj => ?_) ?_
    · rw [← byte_permute hasFpu ho mem hj]
      cases (o.control j).useSecond <;> rfl
    · rw [(control_eq ho (by omega : o.size - 1 < o.size)).2]
      have hmod := Nat.mod_lt o.ea.toNat (by decide : 0 < 8)
      cases hbrev : o.l.byteReverse with
      | false =>
        have hge : 8 ≤ o.ea.toNat % 8 + o.valueLane (o.size - 1) := by
          simp only [valueLane, hbrev, Bool.false_eq_true, if_false]
          omega
        simp [hge]
      | true =>
        have hlt : ¬ 8 ≤ o.ea.toNat % 8 + o.valueLane (o.size - 1) := by
          simp only [valueLane, hbrev, if_true]
          omega
        simp [hlt]

end Op

end LoadStore

end Microwatt
