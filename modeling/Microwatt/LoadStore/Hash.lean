import Microwatt.LoadStore.Digest
import Microwatt.LoadStore.Pipeline

/-!
# Hash instructions in the pipeline

A hash store or check goes through the stages of an ordinary access, but for nine cycles it stays
in stage 1 while the hash unit works, and its address is put into the request only there: the
address sum of the first cycle is RA + RB, which means nothing for it. The alignment test, the
byte enables and the rotation of the data come from that sum all the same.

Four things can go wrong because of this. The sum is a multiple of 8 for other operands than the
effective address is. The unit shows its result for one cycle only, so a pipeline that is stalled
then never sees it. The address is exchanged when the stage moves, so a pipeline that is stalled
until then sends the sum. And the unit does not stop when the instruction is flushed, so the next
hash instruction can be given the old result. `HashClear` excludes them.

## Main results

* `LoadStore.HashTracked.Waits.step` — one cycle in stage 1
* `LoadStore.hash_access` — interrupt, address, data and outcome of every hash instruction
* `LoadStore.hashLost_run` — a digest that was not taken in its cycle never comes back
-/

namespace Microwatt

open Clocked BitVec Bool

namespace LoadStore

/-! ### The instructions -/

/-- A hash store or check that is enabled: `hashst`, `hashchk` and their privileged forms, as the
decoder presents them. -/
@[mk_iff]
structure Op.Hash (o : Op) : Prop where
  kind : o.l.op = .load ∨ o.l.op = .store
  hash : o.l.hash = true
  enabled : o.l.hashEnable = true
  length : o.l.length = 8
  once : o.l.second = false ∧ o.l.repeat_ = false

instance (o : Op) : Decidable o.Hash := decidable_of_iff _ (Op.hash_iff ..).symm

namespace Op

variable (o : Op)

/-- The six bits of the displacement. -/
def hashField : BitVec 6 := o.l.insn.extractLsb' 0 1 ++ o.l.insn.extractLsb' 21 5

/-- The displacement: from 64 doublewords to one doubleword before RA. -/
def hashDisp : ℤ := 8 * ((o.hashField.toNat : ℤ) - 64)

def hashEa : BitVec 64 := trimAddr o.l.mode32bit (o.l.addr1 + BitVec.ofInt 64 o.hashDisp)

def digest : BitVec 64 := hashDigest o.l.addr1 o.l.addr2 o.l.hashkey

/-- The digest as it stands in memory, in the byte order of the instruction. -/
def digestData : BitVec 64 :=
  Lanes.ofBytes 64 fun k => Lanes.byte o.digest (if o.l.byteReverse then 7 - k else k)

end Op

theorem hashAddrOf_eq (o : Op) : hashAddrOf o.l = o.hashEa := by
  have hdisp : ∀ (x : BitVec 1) (y : BitVec 5), (0x7FFFFFFFFFFFFF#55 ++ x ++ y ++ 0#3 : BitVec 64) =
      BitVec.ofInt 64 (8 * (((x ++ y).toNat : ℤ) - 64)) := by
    decide +kernel
  simp only [hashAddrOf, Op.hashEa, Op.hashDisp, Op.hashField, hdisp]

theorem trimAddr_mod (m : Bool) (a : BitVec 64) : (trimAddr m a).toNat % 8 = a.toNat % 8 := by
  cases m with
  | false => rfl
  | true =>
    simp only [trimAddr, if_true, toNat_append, extractLsb'_toNat,
      toNat_ofNat]
    simp only [Nat.zero_mod, Nat.zero_shiftLeft, Nat.zero_or, Nat.shiftRight_zero]
    omega

/-- The displacement does not change the alignment. -/
theorem Op.hashEa_mod (o : Op) : o.hashEa.toNat % 8 = o.l.addr1.toNat % 8 := by
  rw [Op.hashEa, trimAddr_mod, toNat_add, toNat_ofInt, Op.hashDisp]
  omega

section Request

variable {o : Op} {b : Bool}

section

variable (ho : o.Hash)

include ho

theorem Op.Hash.ea_mod : o.ea.toNat % 8 = (o.l.addr1.toNat + o.l.addr2.toNat) % 8 := by
  rw [Op.ea, effectiveAddr, trimAddr_mod, ho.once.1]
  simp only [false_eq_true, if_false, toNat_add]
  omega

/-- The alignment test looks at the sum of the operands. -/
theorem Op.Hash.alignIntr : (o.request b).alignIntr = true ↔ o.ea.toNat % 8 ≠ 0 := by
  have hmask : ∀ x : BitVec 3,
      (((8 : BitVec 4).extractLsb' 0 3 - 1) &&& x != 0) = decide (x.toNat ≠ 0) := by
    decide +kernel
  have hmis : misaligned o.l o.ea = decide (o.ea.toNat % 8 ≠ 0) := by
    simp only [misaligned, ho.once.2, ho.length, Bool.false_and, false_eq_true, if_false,
      hmask, extractLsb'_toNat, Nat.shiftRight_zero]
  show alignIntrOf o.l o.ea = true ↔ _
  rw [alignIntrOf, hmis]
  simp [ho.once.2, ho.hash, ho.enabled]

/-- With RB a multiple of 8 the sum is aligned as the effective address is. -/
theorem Op.Hash.alignIntr_hashEa (hb : o.l.addr2.toNat % 8 = 0) :
    (o.request b).alignIntr = true ↔ o.hashEa.toNat % 8 ≠ 0 := by
  rw [ho.alignIntr, ho.ea_mod, o.hashEa_mod]
  omega

theorem Op.Hash.request_kind :
    (o.request b).load = (o.l.op == .load) ∧ (o.request b).store = (o.l.op == .store) ∧
      (o.request b).hashst = (o.l.op == .store) ∧ (o.request b).hashcmp = (o.l.op == .load) ∧
      (o.request b).mmuOp = false := by
  rcases ho.kind with hk | hk <;> simp [Op.request, loadstore1In, hk, ho.hash, ho.once]

theorem Op.Hash.request_hash : ((o.request b).hashst || (o.request b).hashcmp) = true := by
  rcases ho.kind with hk | hk <;> simp [ho.request_kind, hk]

/-- It is sent to the data cache unless it is misaligned. -/
theorem Op.Hash.request_dcReq_iff (hv : o.l.valid = true) :
    (o.request b).dcReq = !(o.request b).alignIntr := by
  rcases ho.kind with hk | hk <;>
    simp [Op.request, loadstore1In, hk, hv, ho.enabled, ho.once, hashNop, effectiveAddr]

/-- An aligned one is a whole doubleword. -/
theorem Op.Hash.request_sel (hal : o.ea.toNat % 8 = 0) :
    (o.request b).byteSel = allOnes 8 ∧ (o.request b).incomplete = false := by
  have hoff : o.ea.extractLsb' 0 3 = 0 := by
    apply eq_of_toNat_eq
    simpa [extractLsb'_toNat] using hal
  have hsel : xferDataSel 8 0 = 0x00ff := by decide
  have hlong : xferDataSel o.l.length (o.ea.extractLsb' 0 3) = 0x00ff := by
    rw [ho.length, hoff, hsel]
  constructor
  · show (xferDataSel o.l.length (o.ea.extractLsb' 0 3)).extractLsb' 0 8 = _
    rw [hlong]
    decide
  · show ((o.request b).dcReq &&
      ((xferDataSel o.l.length (o.ea.extractLsb' 0 3)).extractLsb' 8 8 != 0)) = false
    rw [hlong]
    simp

/-- The rotation of an aligned digest only orders its bytes. -/
theorem Op.Hash.formatStore_digest (hal : o.ea.toNat % 8 = 0) :
    formatStore (o.ea.extractLsb' 0 3) (brevMaskOf o.l) o.digest = o.digestData := by
  have hoff : o.ea.extractLsb' 0 3 = 0 := by
    apply eq_of_toNat_eq
    simpa [extractLsb'_toNat] using hal
  have hlane : ∀ (r : Bool) (k : Fin 8),
      ((BitVec.ofNat 3 k - 0) ^^^ (if r then (8 : BitVec 4).extractLsb' 0 3 - 1 else 0)).toNat =
        if r then 7 - k.val else k.val := by
    decide +kernel
  refine Lanes.ext_lanes (w := 8) (by omega) ⟨8, rfl⟩ fun k hk => ?_
  have hk8 : k < 8 := by omega
  rw [formatStore, Op.digestData]
  show Lanes.byte _ k = Lanes.byte _ k
  rw [Lanes.byte_ofBytes _ (by omega), Lanes.byte_ofBytes _ (by omega), hoff, brevMaskOf,
    ho.length, hlane o.l.byteReverse ⟨k, hk8⟩]

end

end Request

/-! ### Following a hash instruction -/

/-- The unit with the instructions in its stages, and whether stage 1 has moved since it was
given its instruction. -/
structure HashTracked where
  unit : Tracked
  moved : Bool

variable {b : Bool}

def HashTracked.step (b : Bool) (t : HashTracked) (i : Inputs) : HashTracked where
  unit := t.unit.step b i
  moved := if !t.unit.ls.r1.busy && i.l.valid then false else t.moved || advance t.unit.ls i

def HashTracked.Init (b : Bool) (t : HashTracked) : Prop := t.unit.Init b

/-- A hash instruction waits in stage 1 for its digest. -/
def hashWaits (s : State) : Bool :=
  s.r1.busy && s.r1.req.dcReq && !s.r1.issued && (s.r1.req.hashst || s.r1.req.hashcmp)

/-- What keeps a hash instruction on course. -/
@[mk_iff] structure HashClear (t : HashTracked) (i : Inputs) : Prop where
  /-- RB is a multiple of 8, so that RA + RB is aligned when RA is; -/
  offset : i.l.valid = true → (t.unit.ls.presented i).Hash → i.l.addr2.toNat % 8 = 0
  /-- the hash unit is not still busy with an instruction that was flushed; -/
  idle : i.l.valid = true → (t.unit.ls.presented i).Hash →
    t.unit.ls.hashR.active = false ∧ t.unit.ls.hashR.done = false
  /-- the pipeline is not stalled when the digest is ready, and was not all the time before. -/
  moves : hashWaits t.unit.ls = true → t.unit.ls.hashR.done = true →
    advance t.unit.ls i = true ∧ t.moved = true

instance (t : HashTracked) (i : Inputs) : Decidable (HashClear t i) :=
  decidable_of_iff _ (hashClear_iff ..).symm

/-- The protocol of the ports, and the condition. -/
def HashEnv (t : HashTracked) (i : Inputs) : Prop := Env t.unit i ∧ HashClear t i

instance (t : HashTracked) (i : Inputs) : Decidable (HashEnv t i) :=
  inferInstanceAs (Decidable (_ ∧ _))

/-- The request in stage 1 while the hash unit works: its address is exchanged at the first
move. -/
def HashTracked.waitReq (b : Bool) (t : HashTracked) : Request :=
  { t.unit.op1.request b with
    addr := if t.moved then t.unit.op1.hashEa else (t.unit.op1.request b).addr }

/-- The request once it has been issued. -/
def issuedReq (b : Bool) (o : Op) : Request :=
  { o.request b with addr := o.hashEa, storeData := o.digest }

/-- The instruction in stage 1 waits for its digest, and the unit has worked on it for `n`
cycles. -/
structure HashTracked.Waits (b : Bool) (t : HashTracked) (n : ℕ) : Prop where
  dcReq : (t.unit.op1.request b).dcReq = true
  busy : t.unit.ls.r1.busy = true
  issued : t.unit.ls.r1.issued = false
  addr0 : t.unit.ls.r1.addr0 = t.unit.op1.ea
  req : t.unit.ls.r1.req = t.waitReq b
  progress : t.unit.ls.hashR.Progress t.unit.op1.l.addr1 t.unit.op1.l.addr2
    t.unit.op1.l.hashkey n

/-- The instruction in stage 1 has been sent to the data cache, with its own address. -/
structure HashTracked.Issued (b : Bool) (t : HashTracked) : Prop where
  dcReq : (t.unit.op1.request b).dcReq = true
  busy : t.unit.ls.r1.busy = false
  issued : t.unit.ls.r1.issued = true
  addr0 : t.unit.ls.r1.addr0 = t.unit.op1.ea
  req : t.unit.ls.r1.req = issuedReq b t.unit.op1
  /-- Nothing is left in stage 2 that could fail. -/
  alone : t.unit.waiting = false

/-- Where a hash instruction is and what it carries. -/
structure HashInv (b : Bool) (t : HashTracked) : Prop where
  base : Inv b t.unit
  /-- Its interrupt has been decided as the effective address demands, -/
  align1 : t.unit.ls.r1.req.valid = true → t.unit.op1.Hash →
    (t.unit.ls.r1.req.alignIntr = true ↔ t.unit.op1.hashEa.toNat % 8 ≠ 0)
  align2 : t.unit.ls.r2.req.valid = true → t.unit.op2.Hash →
    (t.unit.ls.r2.req.alignIntr = true ↔ t.unit.op2.hashEa.toNat % 8 ≠ 0)
  /-- in stage 1 it waits for its digest or has been sent, -/
  hold1 : (t.unit.ls.r1.busy || t.unit.ls.r1.issued || t.unit.ls.r1.req.dcReq) = true →
    t.unit.op1.Hash → t.unit.op1.hashEa.toNat % 8 = 0 ∧ ((∃ n, t.Waits b n) ∨ t.Issued b)
  /-- and in stage 2 it has its address and its digest. -/
  hold2 : t.unit.waiting = true → t.unit.op2.Hash →
    t.unit.op2.hashEa.toNat % 8 = 0 ∧
      t.unit.ls.r2.req = { issuedReq b t.unit.op2 with
        storeData := t.unit.op2.digestData, dawrIntr := t.unit.ls.r2.req.dawrIntr }

/-! ### One cycle in stage 1 -/

section Step

variable {t : HashTracked} {i : Inputs} {n : ℕ}

/-- An instruction that is sent is not misaligned. -/
theorem Op.Hash.ea_mod_of_dcReq {o : Op} (ho : o.Hash) (hdc : (o.request b).dcReq = true) :
    o.ea.toNat % 8 = 0 := by
  by_contra hne
  have halign := (ho.alignIntr (b := b)).mpr hne
  rw [(Op.request_dcReq hdc).2] at halign
  cases halign

theorem HashTracked.op1_kept (t : HashTracked) (b : Bool)
    (h : t.unit.ls.r1.busy = true ∨ i.l.valid = false) : (t.step b i).unit.op1 = t.unit.op1 := by
  rcases h with h | h <;> simp [HashTracked.step, Tracked.step, h]

theorem HashTracked.op1_taken (t : HashTracked) (b : Bool) (hb : t.unit.ls.r1.busy = false)
    (hv : i.l.valid = true) : (t.step b i).unit.op1 = t.unit.ls.presented i := by
  simp [HashTracked.step, Tracked.step, hb, hv]

theorem HashTracked.step_r1 (hrst : i.rst = false) :
    (t.step b i).unit.ls.r1 = r1in b t.unit.ls i := by
  simp [HashTracked.step, Tracked.step, LoadStore.step, hrst]

theorem HashTracked.step_hashR (hrst : i.rst = false) :
    (t.step b i).unit.ls.hashR = nextHash t.unit.ls.hashR (hashStart b t.unit.ls i) i.l.addr1
      i.l.addr2 i.l.hashkey := by
  simp [HashTracked.step, Tracked.step, LoadStore.step, hrst]

open HashTracked (step_r1 waitReq)

namespace HashTracked.Waits

theorem r1_dcReq (hw : t.Waits b n) : t.unit.ls.r1.req.dcReq = true := by
  rw [hw.req]
  exact hw.dcReq

theorem stage1Req_eq (hw : t.Waits b n) : stage1Req b t.unit.ls i = t.unit.ls.r1.req := by
  simp [stage1Req, hw.busy, hw.r1_dcReq, hw.issued]

variable (hw : t.Waits b n) (ho : t.unit.op1.Hash) (hn : n < 8) (hrst : i.rst = false)

section

include hw ho

theorem r1_hash : (t.unit.ls.r1.req.hashst || t.unit.ls.r1.req.hashcmp) = true := by
  rw [hw.req]
  exact ho.request_hash (b := b)

theorem hashIssue_eq : hashIssue b t.unit.ls i = true := by
  simp [hashIssue, issue, hw.stage1Req_eq, hw.busy, hw.r1_dcReq, hw.issued, hw.r1_hash ho]

theorem hashWaits_eq : hashWaits t.unit.ls = true := by
  simp [hashWaits, hw.busy, hw.r1_dcReq, hw.issued, hw.r1_hash ho]

end

include hw hrst in
/-- The instruction stays the one in stage 1, with the sum of its operands in `addr0`. -/
theorem kept :
    (t.step b i).unit.op1 = t.unit.op1 ∧
      (t.step b i).unit.ls.r1.addr0 = t.unit.ls.r1.addr0 ∧
      (t.step b i).moved = (t.moved || advance t.unit.ls i) := by
  refine ⟨by simp [HashTracked.step, Tracked.step, hw.busy], ?_,
    by simp [HashTracked.step, hw.busy]⟩
  rw [step_r1 hrst]
  simp [r1in, hw.busy]

include hw ho in
theorem nextReq1_eq :
    nextReq1 b t.unit.ls i =
      { t.unit.op1.request b with
        addr := t.unit.op1.hashEa
        storeData := if t.unit.ls.hashR.done then hashResult t.unit.ls.hashR
          else (t.unit.op1.request b).storeData } := by
  have haddr : (t.unit.op1.request b).hashAddr = t.unit.op1.hashEa := hashAddrOf_eq _
  rw [nextReq1, if_pos (hw.hashIssue_eq ho), hw.stage1Req_eq, hw.req]
  simp only [hw.busy, if_true, waitReq, haddr]

include hw ho hn hrst in
/-- A cycle of the hash unit, whether the pipeline moves or not. -/
theorem step (hflush : flush t.unit.ls i = false) : (t.step b i).Waits b (n + 1) := by
  obtain ⟨hop, haddr0, hmoved⟩ := hw.kept (i := i) hrst
  have hdone : t.unit.ls.hashR.done = false := by
    rw [hw.progress.done]
    simp
    omega
  have hprogress := hw.progress.next hn (hashStart b t.unit.ls i) i.l.addr1 i.l.addr2 i.l.hashkey
  refine ⟨hop ▸ hw.dcReq, ?_, ?_, by rw [haddr0, hop, hw.addr0], ?_, ?_⟩
  · rw [step_r1 hrst]
    simp [r1in, hflush, hw.hashIssue_eq ho, hdone, hw.busy]
  · rw [step_r1 hrst]
    simp [r1in, hflush, issueFinal, hw.hashIssue_eq ho, hdone, hw.issued]
  · rw [step_r1 hrst, waitReq, hop, hmoved]
    cases hadv : advance t.unit.ls i with
    | true => simp [r1in, hflush, hadv, hw.nextReq1_eq ho, hdone]
    | false => simpa [r1in, hflush, hadv, waitReq] using hw.req
  · rw [hop, HashTracked.step_hashR hrst]
    exact hprogress

/-- When the digest is ready the instruction is sent. -/
theorem issue (hw : t.Waits b 8) (ho : t.unit.op1.Hash) (henv : HashEnv t i)
    (hrst : i.rst = false) (hflush : flush t.unit.ls i = false) : (t.step b i).Issued b := by
  obtain ⟨hop, haddr0, -⟩ := hw.kept (i := i) hrst
  have hdone : t.unit.ls.hashR.done = true := by simp [hw.progress.done]
  obtain ⟨hadv, -⟩ := henv.2.moves (hw.hashWaits_eq ho) hdone
  have hr1v : t.unit.ls.r1.req.valid = true := by
    rw [hw.req]
    exact (Op.request_dcReq hw.dcReq).1
  have htakes : takes t.unit.ls i = false := by
    simp [takes, hr1v, hw.issued, hw.r1_dcReq]
  refine ⟨hop ▸ hw.dcReq, ?_, ?_, by rw [haddr0, hop, hw.addr0], ?_, ?_⟩
  · rw [step_r1 hrst]
    simp [r1in, hflush, hadv, hw.hashIssue_eq ho, hdone]
  · rw [step_r1 hrst]
    simp [r1in, hflush, hadv, issueFinal, hw.hashIssue_eq ho, hdone]
  · rw [step_r1 hrst, hop]
    simp [r1in, hflush, hadv, hw.nextReq1_eq ho, hdone, issuedReq, hw.progress.result, Op.digest]
  · -- what was in stage 2 has been answered, or the pipeline would be stalled
    have hanswered : t.unit.waiting = true → i.d.valid = true := by
      intro hwait
      rcases henv.1.stall hwait with hv | ha
      · exact hv
      · rw [hadv] at ha; cases ha
    cases hwait : t.unit.waiting with
    | false => simp [HashTracked.step, Tracked.step, hrst, hflush, htakes, hwait]
    | true => simp [HashTracked.step, Tracked.step, hrst, hflush, htakes, hwait, hanswered hwait]

end HashTracked.Waits

variable (hinv : HashInv b t) (henv : HashEnv t i) (hrst : i.rst = false)
  (hflush : flush t.unit.ls i = false)

include henv hrst hflush in
/-- The cycle in which a hash instruction is presented: it waits, or it is not to be sent. -/
theorem accept_cases (hv : i.l.valid = true) (ho : (t.unit.ls.presented i).Hash) :
    (t.step b i).unit.op1 = t.unit.ls.presented i ∧
      (((t.unit.ls.presented i).request b).dcReq = true → t.unit.ls.flushing = false →
        (t.step b i).Waits b 0) ∧
      ((((t.unit.ls.presented i).request b).dcReq && !t.unit.ls.flushing) = false →
        ((t.step b i).unit.ls.r1.busy || (t.step b i).unit.ls.r1.issued ||
          (t.step b i).unit.ls.r1.req.dcReq) = false) := by
  obtain ⟨hadv, hbusy⟩ := henv.1.advance_of_valid hv
  obtain ⟨hidle, hdone⟩ := henv.2.idle hv ho
  have hop := t.op1_taken b hbusy hv
  have hs1 := stage1Req_of_free b t.unit.ls i hbusy
  rw [hv, reqIn_eq] at hs1
  refine ⟨hop, fun hdc hfl => ?_, fun hno => ?_⟩
  · have hreq : stage1Req b t.unit.ls i = (t.unit.ls.presented i).request b := by
      have hvalid : ((t.unit.ls.presented i).request b).valid = true := hv
      rw [hs1, hfl, ← hvalid]
      simp
    have hissue : hashIssue b t.unit.ls i = true := by
      simp [hashIssue, issue, hbusy, hv, hreq, hdc, ho.request_hash]
    have hstart : hashStart b t.unit.ls i = true := by
      simp [hashStart, hflush, hadv, hissue, hbusy]
    refine ⟨hop ▸ hdc, ?_, ?_, ?_, ?_, ?_⟩
    · rw [step_r1 hrst]
      simp [r1in, hflush, hadv, hissue, hdone]
    · rw [step_r1 hrst]
      simp [r1in, hflush, hadv, issueFinal, hissue, hdone]
    · rw [step_r1 hrst, hop]
      simp only [r1in, hbusy, hv, hreq, Bool.not_false, Bool.and_self, if_true]
      rfl
    · rw [step_r1 hrst, waitReq, hop]
      simp [r1in, hflush, hadv, nextReq1, hissue, hbusy, hdone, hreq, HashTracked.step, hv]
    · rw [HashTracked.step_hashR hrst, hop, hstart]
      exact HashReg.Progress.start hidle _ _ _
  · have hdc : (stage1Req b t.unit.ls i).dcReq = false := by rw [hs1]; exact hno
    have hissue : issue b t.unit.ls i = false := by
      simp [issue, hbusy, hdc]
    have hhash : hashIssue b t.unit.ls i = false := by simp [hashIssue, hissue]
    have hmmu : (stage1Req b t.unit.ls i).mmuOp = false := by
      rw [hs1]
      exact (ho.request_kind (b := b)).2.2.2.2
    rw [step_r1 hrst]
    simp [r1in, hflush, hadv, hhash, hissue, issueFinal, hmmu, nextReq1, hdc]

/-! ### The invariant -/

/-- A request that stage 1 keeps is the one it had, as far as interrupts are concerned. -/
theorem alignIntr_of_busy {s : State} (hb : s.r1.busy = true) :
    ((stage1Req b s i).valid = true → s.r1.req.valid = true) ∧
      (stage1Req b s i).alignIntr = s.r1.req.alignIntr := by
  rcases stage1Req_of_busy b s i hb with ⟨-, hs⟩ | ⟨-, -, hs⟩ | ⟨-, -, hs⟩ <;> rw [hs]
  · exact ⟨id, rfl⟩
  · exact ⟨id, rfl⟩
  · exact ⟨fun h => (and_eq_true_iff.mp h).2, rfl⟩

include hinv henv hrst in
theorem HashInv.step_align1 (hv : (t.step b i).unit.ls.r1.req.valid = true)
    (ho : (t.step b i).unit.op1.Hash) :
    (t.step b i).unit.ls.r1.req.alignIntr = true ↔
      (t.step b i).unit.op1.hashEa.toNat % 8 ≠ 0 := by
  rw [step_r1 hrst] at hv ⊢
  cases hflush : flush t.unit.ls i with
  | true => simp [r1in, hflush] at hv
  | false =>
    cases hadv : advance t.unit.ls i with
    | false =>
      have hlv := henv.1.not_valid hadv
      have hop := t.op1_kept b (.inr hlv)
      simp only [r1in, hflush, hadv, false_eq_true, if_false] at hv ⊢
      rw [hop] at ho ⊢
      exact hinv.align1 hv ho
    | true =>
      have hreq : (r1in b t.unit.ls i).req = nextReq1 b t.unit.ls i := by
        simp [r1in, hflush, hadv]
      rw [hreq, (nextReq1_decided _).1] at hv
      rw [hreq, (nextReq1_decided _).2]
      cases hbusy : t.unit.ls.r1.busy with
      | true =>
        have hop := t.op1_kept b (i := i) (.inl hbusy)
        obtain ⟨hkeep, halign⟩ := alignIntr_of_busy (b := b) (i := i) hbusy
        rw [halign]
        rw [hop] at ho ⊢
        exact hinv.align1 (hkeep hv) ho
      | false =>
        have hlv : i.l.valid = true := by simpa [stage1Req, hbusy] using hv
        have hop := t.op1_taken b hbusy hlv
        have hsame : (stage1Req b t.unit.ls i).alignIntr =
            ((t.unit.ls.presented i).request b).alignIntr := by
          simp [stage1Req, hbusy, reqIn, State.presented, Op.request]
        rw [hop] at ho ⊢
        rw [hsame]
        exact ho.alignIntr_hashEa (henv.2.offset hlv ho)

include hinv hrst in
theorem HashInv.step_align2 (hv : (t.step b i).unit.ls.r2.req.valid = true)
    (ho : (t.step b i).unit.op2.Hash) :
    (t.step b i).unit.ls.r2.req.alignIntr = true ↔
      (t.step b i).unit.op2.hashEa.toNat % 8 ≠ 0 := by
  have hr2 : (t.step b i).unit.ls.r2 = r2in t.unit.ls i := by
    simp [HashTracked.step, Tracked.step, LoadStore.step, hrst]
  rw [hr2] at hv ⊢
  simp only [r2in, nextReq2, and_eq_true] at hv ⊢
  cases ht : takes t.unit.ls i with
  | true =>
    have hop : (t.step b i).unit.op2 = t.unit.op1 := by
      simp [HashTracked.step, Tracked.step, ht]
    simp only [ht, if_true, takenReq] at hv ⊢
    rw [hop] at ho ⊢
    exact hinv.align1 hv.1.1.1 ho
  | false =>
    have hop : (t.step b i).unit.op2 = t.unit.op2 := by
      simp [HashTracked.step, Tracked.step, ht]
    simp only [ht, false_eq_true, if_false] at hv ⊢
    rw [hop] at ho ⊢
    exact hinv.align2 hv.1.1.1 ho

/-- An issued instruction stays in stage 1 until stage 2 takes it. -/
theorem HashTracked.Issued.stall (hi : t.Issued b) (henv : HashEnv t i) (hrst : i.rst = false)
    (hflush : flush t.unit.ls i = false) (hadv : advance t.unit.ls i = false) :
    (t.step b i).Issued b := by
  have hlv := henv.1.not_valid hadv
  have hop := t.op1_kept b (.inr hlv)
  have herr : i.d.error = false := by
    by_contra he
    rw [not_eq_false] at he
    have := (henv.1.error he).1
    rw [hi.alone] at this
    cases this
  have hr1 : (t.step b i).unit.ls.r1.req = t.unit.ls.r1.req ∧
      (t.step b i).unit.ls.r1.busy = t.unit.ls.r1.busy ∧
      (t.step b i).unit.ls.r1.issued = t.unit.ls.r1.issued ∧
      (t.step b i).unit.ls.r1.addr0 = t.unit.ls.r1.addr0 := by
    rw [step_r1 hrst]
    simp [r1in, hflush, hadv, herr, hlv]
  refine ⟨hop ▸ hi.dcReq, by rw [hr1.2.1, hi.busy], by rw [hr1.2.2.1, hi.issued],
    by rw [hr1.2.2.2, hop, hi.addr0], by rw [hr1.1, hop, hi.req], ?_⟩
  simp [HashTracked.step, Tracked.step, hrst, hflush, takes, hadv, hi.alone]

include hinv henv hrst hflush in
theorem HashInv.step_hold1
    (hbusy : ((t.step b i).unit.ls.r1.busy || (t.step b i).unit.ls.r1.issued ||
      (t.step b i).unit.ls.r1.req.dcReq) = true)
    (ho : (t.step b i).unit.op1.Hash) :
    (t.step b i).unit.op1.hashEa.toNat % 8 = 0 ∧
      ((∃ n, (t.step b i).Waits b n) ∨ (t.step b i).Issued b) := by
  -- an instruction that waits goes on waiting or is issued
  have hwaits : ∀ n, t.Waits b n → t.unit.op1.Hash →
      (t.step b i).unit.op1 = t.unit.op1 ∧
        ((∃ n, (t.step b i).Waits b n) ∨ (t.step b i).Issued b) := by
    intro n hw ho
    refine ⟨(hw.kept hrst).1, ?_⟩
    rcases Nat.lt_or_eq_of_le hw.progress.le with hn | rfl
    · exact .inl ⟨n + 1, hw.step ho hn hrst hflush⟩
    · exact .inr (hw.issue ho henv hrst hflush)
  cases hadv : advance t.unit.ls i with
  | false =>
    have hlv := henv.1.not_valid hadv
    have hop := t.op1_kept b (.inr hlv)
    rw [hop] at ho ⊢
    have hold : (t.unit.ls.r1.busy || t.unit.ls.r1.issued || t.unit.ls.r1.req.dcReq) = true := by
      rw [step_r1 hrst] at hbusy
      simp only [r1in, hflush, hadv, false_eq_true, if_false] at hbusy
      cases hi : t.unit.ls.r1.issued with
      | true => simp
      | false => simpa [hi] using hbusy
    obtain ⟨hmod, ⟨n, hw⟩ | hi⟩ := hinv.hold1 hold ho
    · exact ⟨hmod, (hwaits n hw ho).2⟩
    · exact ⟨hmod, .inr (hi.stall henv hrst hflush hadv)⟩
  | true =>
    cases hb : t.unit.ls.r1.busy with
    | true =>
      have hop := t.op1_kept b (i := i) (.inl hb)
      rw [hop] at ho ⊢
      obtain ⟨hmod, ⟨n, hw⟩ | hi⟩ := hinv.hold1 (by simp [hb]) ho
      · exact ⟨hmod, (hwaits n hw ho).2⟩
      · rw [hi.busy] at hb
        cases hb
    | false =>
      cases hlv : i.l.valid with
      | true =>
        have hop := t.op1_taken b hb hlv
        have hop' : (t.unit.ls.presented i).Hash := hop ▸ ho
        obtain ⟨-, hsend, hkeep⟩ := accept_cases (b := b) henv hrst hflush hlv hop'
        cases hdc : ((t.unit.ls.presented i).request b).dcReq && !t.unit.ls.flushing with
        | false =>
          rw [hkeep hdc] at hbusy
          cases hbusy
        | true =>
          rw [and_eq_true, not_eq_true'] at hdc
          refine ⟨?_, .inl ⟨0, hsend hdc.1 hdc.2⟩⟩
          by_contra hne
          rw [hop] at hne
          have := (hop'.alignIntr_hashEa (b := b) (henv.2.offset hlv hop')).mpr hne
          rw [(Op.request_dcReq hdc.1).2] at this
          cases this
      | false =>
        -- an empty stage 1
        have hdc : (stage1Req b t.unit.ls i).dcReq = false := by
          simp [stage1Req, hb, reqIn, loadstore1In, hlv]
        have hval : (stage1Req b t.unit.ls i).valid = false := by simp [stage1Req, hb, hlv]
        have hissue : issue b t.unit.ls i = false := by simp [issue, hb, hlv]
        have hhash : hashIssue b t.unit.ls i = false := by simp [hashIssue, hissue]
        rw [step_r1 hrst] at hbusy
        simp [r1in, hflush, hadv, hhash, hissue, issueFinal, hval, hdc] at hbusy

include hinv henv hrst hflush in
theorem HashInv.step_hold2 (hw : (t.step b i).unit.waiting = true)
    (ho : (t.step b i).unit.op2.Hash) :
    (t.step b i).unit.op2.hashEa.toNat % 8 = 0 ∧
      (t.step b i).unit.ls.r2.req = { issuedReq b (t.step b i).unit.op2 with
        storeData := (t.step b i).unit.op2.digestData
        dawrIntr := (t.step b i).unit.ls.r2.req.dawrIntr } := by
  have hcases := waiting_cases (b := b) henv.1 hinv.base hrst hflush hw
  rcases hcases with ⟨ht, hv, hdc, -, hop, hreq, -⟩ | ⟨-, hw0, -, hop, hreq, -⟩
  · have hop' : (t.step b i).unit.op2 = t.unit.op1 := hop
    have hreq' : (t.step b i).unit.ls.r2.req = takenReq t.unit.ls := hreq
    rw [hop'] at ho ⊢
    obtain ⟨hmod, ⟨n, hwaits⟩ | hi⟩ := hinv.hold1 (by simp [hdc]) ho
    · -- it is not taken before it has been issued
      simp [takes, hv, hdc, hwaits.issued] at ht
    · have hdata : storeData t.unit.ls = t.unit.op1.digestData := by
        rw [storeData, hi.addr0, hi.req]
        exact ho.formatStore_digest (ho.ea_mod_of_dcReq hi.dcReq)
      have hmmu : (t.unit.op1.request b).mmuOp = false := (ho.request_kind (b := b)).2.2.2.2
      refine ⟨hmod, ?_⟩
      rw [hreq']
      simp only [takenReq, hdata, hi.req, issuedReq, hmmu, Bool.not_false, Bool.and_true]
  · have hop' : (t.step b i).unit.op2 = t.unit.op2 := hop
    have hreq' : (t.step b i).unit.ls.r2.req = t.unit.ls.r2.req := hreq
    rw [hop'] at ho ⊢
    rw [hreq']
    exact hinv.hold2 hw0 ho

include hinv henv hrst in
theorem HashInv.step_run : HashInv b (t.step b i) := by
  refine ⟨hinv.base.step henv.1, hinv.step_align1 henv hrst, hinv.step_align2 hrst, ?_, ?_⟩
  · cases hflush : flush t.unit.ls i with
    | false => exact hinv.step_hold1 henv hrst hflush
    | true =>
      intro hbusy
      rw [step_r1 hrst] at hbusy
      simp [r1in, hflush] at hbusy
  · cases hflush : flush t.unit.ls i with
    | false => exact hinv.step_hold2 henv hrst hflush
    | true =>
      intro hw
      simp [HashTracked.step, Tracked.step, hflush] at hw

theorem HashInv.of_reset {t : HashTracked} {s : State} (hbase : Inv b t.unit)
    (hls : t.unit.ls = LoadStore.step b s i) (hrst : i.rst = true)
    (hw : t.unit.waiting = false) : HashInv b t := by
  have hv1 : t.unit.ls.r1.req.valid = false := by simp [hls, LoadStore.step, hrst, Stage1.reset]
  have hv2 : t.unit.ls.r2.req.valid = false := by simp [hls, LoadStore.step, hrst, Stage2.reset]
  have hr1 : (t.unit.ls.r1.busy || t.unit.ls.r1.issued || t.unit.ls.r1.req.dcReq) = false := by
    simp [hls, LoadStore.step, hrst, Stage1.reset]
  exact ⟨hbase, by simp [hv1], by simp [hv2], by simp [hr1], by simp [hw]⟩

theorem HashInv.init (h : t.Init b) : HashInv b t := by
  obtain ⟨⟨s, i, hrst, hls⟩, hw, -⟩ := id h
  exact HashInv.of_reset (Inv.init h) hls hrst hw

include hinv henv in
theorem HashInv.step : HashInv b (t.step b i) := by
  cases hrst : i.rst with
  | false => exact hinv.step_run henv hrst
  | true =>
    exact HashInv.of_reset (hinv.base.step henv.1) rfl hrst
      (by simp [HashTracked.step, Tracked.step, hrst])

/-! ### What a hash instruction does -/

include hinv hrst in
/-- The alignment interrupt is raised for a misaligned effective address and for no other. -/
theorem HashInv.interrupts (hv : t.unit.ls.r2.req.valid = true) (ho : t.unit.op2.Hash) :
    ((t.step b i).unit.ls.r3.interrupt = true ∧ (t.step b i).unit.ls.r3.intrVec = 0x600) ↔
      t.unit.op2.hashEa.toNat % 8 ≠ 0 := by
  have hr3 : (t.step b i).unit.ls.r3 = r3in b t.unit.ls i := by
    simp [HashTracked.step, Tracked.step, LoadStore.step, hrst]
  rw [← hinv.align2 hv ho, hr3]
  simp only [r3in]
  constructor
  · rintro ⟨hflush, hvec⟩
    rw [if_pos hflush] at hvec
    by_contra hno
    rw [not_eq_true] at hno
    simp only [intrVecOf, hno, false_eq_true, if_false] at hvec
    repeat' split at hvec
    all_goals cases hvec
  · intro halign
    have hflush : flush t.unit.ls i = true := by simp [flush, hv, halign]
    exact ⟨hflush, by rw [if_pos hflush, intrVecOf, if_pos halign]⟩

include hinv henv hrst in
/-- A request for a hash instruction is for the doubleword at its effective address, and the
digest follows. -/
theorem HashInv.sends (hvalid : (dOut b t.unit.ls i).valid = true) (ho : (t.unit.sentOp i).Hash) :
    (t.unit.sentOp i).hashEa.toNat % 8 = 0 ∧
      (dOut b t.unit.ls i).addr = (t.unit.sentOp i).hashEa ∧
      (dOut b t.unit.ls i).byteSel = allOnes 8 ∧
      (dOut b t.unit.ls i).load = ((t.unit.sentOp i).l.op == .load) ∧
      ∀ i', (dOut b (t.step b i).unit.ls i').data = (t.unit.sentOp i).digestData := by
  cases hen : t.unit.ls.r3.stage1En with
  | true =>
    simp only [dOut, hen, if_true] at hvalid
    obtain ⟨hflush, hadv, hfinal, hissue⟩ := issue_of_stage1Dcreq hvalid
    cases hb : t.unit.ls.r1.busy with
    | false =>
      -- not in the first cycle: there is no digest yet
      simp only [Tracked.sentOp, hen, hb, if_true, false_eq_true, if_false] at ho
      simp only [issue, hb, Bool.not_false, if_true, and_eq_true] at hissue
      have hkind : ((stage1Req b t.unit.ls i).hashst || (stage1Req b t.unit.ls i).hashcmp) =
          true := by
        simpa [stage1Req, hb, reqIn, State.presented, Op.request] using ho.request_hash (b := b)
      have hhash : hashIssue b t.unit.ls i = true := by
        simp [hashIssue, issue, hb, hissue, hkind]
      rw [issueFinal, if_pos hhash, (henv.2.idle hissue.1 ho).2] at hfinal
      cases hfinal
    | true =>
      simp only [Tracked.sentOp, hen, hb, if_true] at ho ⊢
      obtain ⟨hmod, ⟨n, hw⟩ | hi⟩ := hinv.hold1 (by simp [hb]) ho
      · have hdone : t.unit.ls.hashR.done = true := by
          rwa [issueFinal, if_pos (hw.hashIssue_eq ho)] at hfinal
        obtain rfl : n = 8 := by simpa [hw.progress.done] using hdone
        have hmoved := (henv.2.moves (hw.hashWaits_eq ho) hdone).2
        have hissued := hw.issue ho henv hrst hflush
        obtain ⟨hop, -, -⟩ := hw.kept (i := i) hrst
        have hsel := ho.request_sel (b := b) (ho.ea_mod_of_dcReq hw.dcReq)
        refine ⟨hmod, ?_, ?_, ?_, fun i' => ?_⟩
        · simp [dOut, dOutReq, hen, hw.stage1Req_eq, hw.req, waitReq, hmoved]
        · simp [dOut, dOutReq, hen, hw.stage1Req_eq, hw.req, waitReq, hsel.1]
        · simp [dOut, dOutReq, hen, hw.stage1Req_eq, hw.req, waitReq, ho.request_kind]
        · have hdreq : (t.step b i).unit.ls.stage1Dreq = true := hvalid
          simp only [dOut, hdreq, if_true, storeData, hissued.addr0, hissued.req, hop]
          exact ho.formatStore_digest (ho.ea_mod_of_dcReq hw.dcReq)
      · rw [hi.busy] at hb
        cases hb
  | false =>
    -- sent again after the MMU has repaired a miss
    obtain ⟨hw, hwait, -⟩ := hinv.base.retry hen
    have hadv : advance t.unit.ls i = false := by simp [advance, hinv.base.waitMmu hwait]
    have ht : takes t.unit.ls i = false := by simp [takes, hadv]
    simp only [Tracked.sentOp, hen, false_eq_true, if_false] at ho ⊢
    obtain ⟨hmod, hr2⟩ := hinv.hold2 hw ho
    have hsel : t.unit.ls.r2.req.byteSel = (t.unit.op2.request b).byteSel := by rw [hr2]; rfl
    have hload : t.unit.ls.r2.req.load = (t.unit.op2.request b).load := by rw [hr2]; rfl
    have haddr : t.unit.ls.r2.req.addr = t.unit.op2.hashEa := by rw [hr2]; rfl
    have hdata : t.unit.ls.r2.req.storeData = t.unit.op2.digestData := by rw [hr2]
    have hea : t.unit.op2.ea.toNat % 8 = 0 := by
      by_contra hne
      have halign : t.unit.ls.r2.req.alignIntr = (t.unit.op2.request b).alignIntr := by
        rw [hr2]; rfl
      rw [(hinv.base.align2 hw).1, (ho.alignIntr (b := b)).mpr hne] at halign
      cases halign
    refine ⟨hmod, ?_, ?_, ?_, fun i' => ?_⟩
    · simp [dOut, dOutReq, hen, haddr]
    · simp [dOut, dOutReq, hen, hsel, ho.request_sel hea]
    · simp [dOut, dOutReq, hen, hload, ho.request_kind]
    · have hdreq : (t.step b i).unit.ls.stage1Dreq = false := by
        simp [HashTracked.step, Tracked.step, LoadStore.step, stage1Dcreq, hadv]
      have hkeep : (t.step b i).unit.ls.r2.req.storeData = t.unit.ls.r2.req.storeData := by
        simp [HashTracked.step, Tracked.step, LoadStore.step, hrst, r2in, nextReq2, ht]
      simp only [dOut, hdreq, false_eq_true, if_false, hkeep, hdata]

include hinv henv hrst in
/-- The answer to a hash check decides between completion and a trap. -/
theorem HashInv.checks (hvalid : i.d.valid = true) (ho : t.unit.op2.Hash)
    (hload : t.unit.op2.l.op = .load) :
    (t.step b i).unit.ls.r3.complete = (i.d.data == t.unit.op2.digestData) ∧
      (t.step b i).unit.ls.r3.interrupt = (i.d.data != t.unit.op2.digestData) ∧
      (i.d.data ≠ t.unit.op2.digestData → (t.step b i).unit.ls.r3.intrVec = 0x700) := by
  obtain ⟨hw, herr, hidle⟩ := henv.1.answer hvalid
  obtain ⟨-, hr2⟩ := hinv.hold2 hw ho
  have halign := (hinv.base.align2 hw).1
  have hcmp : t.unit.ls.r2.req.hashcmp = true := by
    rw [hr2]
    show (t.unit.op2.request b).hashcmp = true
    simp [ho.request_kind, hload]
  have hdata : t.unit.ls.r2.req.storeData = t.unit.op2.digestData := by rw [hr2]
  have hmmu : i.m.done = false ∧ i.m.err = false := by
    rw [← or_eq_false_iff]
    by_contra hm
    rw [not_eq_false] at hm
    rw [(henv.1.mmu hm).2] at hidle
    cases hidle
  have hr3 : (t.step b i).unit.ls.r3 = r3in b t.unit.ls i := by
    simp [HashTracked.step, Tracked.step, LoadStore.step, hrst]
  have htrap : hashchkTrap t.unit.ls i = (i.d.data != t.unit.op2.digestData) := by
    simp [hashchkTrap, hvalid, hcmp, hdata]
  have hflush : flush t.unit.ls i = (i.d.data != t.unit.op2.digestData) := by
    simp [flush, htrap, halign, dcacheIntr, herr, hmmu.2]
  rw [hr3]
  refine ⟨by simp [r3in, hvalid, hcmp, hdata, hmmu.1], by simp only [r3in, hflush], fun hne => ?_⟩
  have hne' : (i.d.data != t.unit.op2.digestData) = true := by simpa using hne
  simp only [r3in, hflush, hne', if_true, intrVecOf, halign, htrap, false_eq_true, if_false]

/-- A cycle that the condition allows, without a reset, and without an interrupt of an older
instruction. -/
def HashQuiet (t : HashTracked) (i : Inputs) : Prop :=
  HashEnv t i ∧ i.rst = false ∧ flush t.unit.ls i = false

/-- The hash unit works for as many cycles as the pipeline is watched. -/
theorem HashTracked.Waits.run (hw : t.Waits b n) (ho : t.unit.op1.Hash) :
    ∀ {is : List Inputs}, n + is.length ≤ 8 → Allowed (HashTracked.step b) HashQuiet t is →
      (run (HashTracked.step b) t is).Waits b (n + is.length) ∧
        (run (HashTracked.step b) t is).unit.op1 = t.unit.op1 := by
  intro is
  induction is generalizing t n with
  | nil => intro _ _; exact ⟨hw, rfl⟩
  | cons j is ih =>
    rintro hlen ⟨⟨-, hrst, hflush⟩, hall⟩
    rw [List.length_cons] at hlen ⊢
    obtain ⟨hop, -, -⟩ := hw.kept (i := j) hrst
    have hstep := hw.step ho (by omega) hrst hflush
    obtain ⟨hw', hop'⟩ := ih hstep (hop ▸ ho) (by omega) hall
    rw [run_cons, show n + (is.length + 1) = n + 1 + is.length by omega]
    exact ⟨hw', hop'.trans hop⟩

/-- With the digest there, the request goes out. -/
theorem HashTracked.Waits.sent (hw : t.Waits b 8) (ho : t.unit.op1.Hash) (hinv : HashInv b t)
    (hq : HashQuiet t i) :
    (dOut b t.unit.ls i).valid = true ∧ t.unit.sentOp i = t.unit.op1 := by
  obtain ⟨henv, hrst, hflush⟩ := hq
  have hdone : t.unit.ls.hashR.done = true := by simp [hw.progress.done]
  have hadv := (henv.2.moves (hw.hashWaits_eq ho) hdone).1
  have hen : t.unit.ls.r3.stage1En = true := by
    by_contra hen
    rw [not_eq_true] at hen
    have hbusy := hinv.base.waitMmu (hinv.base.retry hen).2.1
    rw [(advance_iff.mp hadv).2.2] at hbusy
    cases hbusy
  constructor
  · simp [dOut, hen, stage1Dcreq, hflush, hadv, issueFinal, hw.hashIssue_eq ho, hdone]
  · simp [Tracked.sentOp, hen, hw.busy]

/-- An aligned instruction is sent nine cycles after it is accepted. -/
theorem HashInv.progress (hinv : HashInv b t) (hq : HashQuiet t i) (hv : i.l.valid = true)
    (ho : (t.unit.ls.presented i).Hash) (hal : (t.unit.ls.presented i).hashEa.toNat % 8 = 0)
    (hfl : t.unit.ls.flushing = false) {is : List Inputs} {j : Inputs} (hlen : is.length = 8)
    (hall : Allowed (HashTracked.step b) HashQuiet (t.step b i) is)
    (hj : HashQuiet (run (HashTracked.step b) (t.step b i) is) j) :
    (dOut b (run (HashTracked.step b) (t.step b i) is).unit.ls j).valid = true ∧
      (run (HashTracked.step b) (t.step b i) is).unit.sentOp j =
        t.unit.ls.presented i := by
  obtain ⟨henv, hrst, hflush⟩ := hq
  have hdc : ((t.unit.ls.presented i).request b).dcReq = true := by
    have halign : ((t.unit.ls.presented i).request b).alignIntr = false := by
      by_contra hne
      rw [not_eq_false] at hne
      exact (ho.alignIntr_hashEa (henv.2.offset hv ho)).mp hne hal
    rw [ho.request_dcReq_iff hv, halign]
    rfl
  obtain ⟨hop, hsend, -⟩ := accept_cases (b := b) henv hrst hflush hv ho
  have hw := hsend hdc hfl
  obtain ⟨hw8, hop8⟩ := hw.run (hop ▸ ho) (by omega) hall
  rw [hlen, Nat.zero_add] at hw8
  have hinv8 : HashInv b (run (HashTracked.step b) (t.step b i) is) :=
    Reachable.induct (fun _ h => h) (fun _ _ hi he => HashInv.step hi he.1)
      ((Reachable.start (hinv.step henv)).run hall)
  obtain ⟨hsent, hsentop⟩ := hw8.sent (by rw [hop8, hop]; exact ho) hinv8 hj
  exact ⟨hsent, by rw [hsentop, hop8, hop]⟩

/-- **Hash stores and checks.** Along every run that meets the condition: a hash instruction
takes the alignment interrupt if and only if its effective address is not a multiple of 8; the
requests made for it are for the doubleword at its effective address and carry its digest; an
aligned one is sent in the ninth cycle after it was accepted; and a check completes if and only
if the doubleword is the digest, and traps otherwise. -/
theorem hash_access (h : Reachable (HashTracked.step b) HashEnv (HashTracked.Init b) t)
    (henv : HashEnv t i) (hrst : i.rst = false) :
    (t.unit.ls.r2.req.valid = true → t.unit.op2.Hash →
        (((t.step b i).unit.ls.r3.interrupt = true ∧
            (t.step b i).unit.ls.r3.intrVec = 0x600) ↔
          t.unit.op2.hashEa.toNat % 8 ≠ 0)) ∧
      ((dOut b t.unit.ls i).valid = true → (t.unit.sentOp i).Hash →
        (t.unit.sentOp i).hashEa.toNat % 8 = 0 ∧
          (dOut b t.unit.ls i).addr = (t.unit.sentOp i).hashEa ∧
          (dOut b t.unit.ls i).byteSel = allOnes 8 ∧
          (dOut b t.unit.ls i).load = ((t.unit.sentOp i).l.op == .load) ∧
          ∀ i', (dOut b (t.step b i).unit.ls i').data = (t.unit.sentOp i).digestData) ∧
      (i.d.valid = true → t.unit.op2.Hash → t.unit.op2.l.op = .load →
        (t.step b i).unit.ls.r3.complete = (i.d.data == t.unit.op2.digestData) ∧
          (t.step b i).unit.ls.r3.interrupt = (i.d.data != t.unit.op2.digestData) ∧
          (i.d.data ≠ t.unit.op2.digestData → (t.step b i).unit.ls.r3.intrVec = 0x700)) ∧
      (flush t.unit.ls i = false → t.unit.ls.flushing = false → i.l.valid = true →
        (t.unit.ls.presented i).Hash → (t.unit.ls.presented i).hashEa.toNat % 8 = 0 →
        ∀ (is : List Inputs) (j : Inputs), is.length = 8 →
          Allowed (HashTracked.step b) HashQuiet (t.step b i) is →
          HashQuiet (run (HashTracked.step b) (t.step b i) is) j →
          (dOut b (run (HashTracked.step b) (t.step b i) is).unit.ls j).valid = true ∧
            (run (HashTracked.step b) (t.step b i) is).unit.sentOp j =
              t.unit.ls.presented i) := by
  have hinv : HashInv b t := h.induct (fun _ => HashInv.init) fun _ _ hi he => hi.step he
  exact ⟨hinv.interrupts hrst, hinv.sends henv hrst, hinv.checks henv hrst,
    fun hflush hfl hv ho hal is j hlen hall hj =>
      hinv.progress ⟨henv, hrst, hflush⟩ hv ho hal hfl hlen hall hj⟩

end Step

/-! ### A lost digest -/

/-- A hash instruction waits, but the unit has nothing more to show. -/
def hashLost (s : State) : Prop :=
  hashWaits s = true ∧ s.hashR.active = false ∧ s.hashR.done = false

instance (s : State) : Decidable (hashLost s) := inferInstanceAs (Decidable (_ ∧ _ ∧ _))

theorem hashLost_step {s : State} {i : Inputs} (h : hashLost s) (hrst : i.rst = false)
    (hflush : flush s i = false) :
    stage1Dcreq b s i = false ∧ hashLost (LoadStore.step b s i) := by
  obtain ⟨hwaits, hactive, hdone⟩ := h
  simp only [hashWaits, and_eq_true, not_eq_true'] at hwaits
  obtain ⟨⟨⟨hbusy, hdc⟩, hissued⟩, hhash⟩ := hwaits
  have hs1 : stage1Req b s i = s.r1.req := by simp [stage1Req, hbusy, hdc, hissued]
  have hissue : hashIssue b s i = true := by
    simp [hashIssue, issue, hs1, hbusy, hdc, hissued, hhash]
  have hfinal : issueFinal b s i = false := by simp [issueFinal, hissue, hdone]
  have hstart : hashStart b s i = false := by simp [hashStart, hbusy]
  refine ⟨by simp [stage1Dcreq, hfinal], ?_, ?_, ?_⟩
  · cases hadv : advance s i <;>
      simp [LoadStore.step, hrst, hashWaits, r1in, hflush, hadv, hissue, hdone, hfinal, hbusy,
        hissued, hdc, nextReq1, hs1, or_eq_true_iff.mp hhash]
  · simp [LoadStore.step, hrst, nextHash, hactive, hstart]
  · simp [LoadStore.step, hrst, nextHash, hactive, hstart]

/-- **A lost digest never comes back**, whatever happens but a reset or an interrupt of loadstore1:
the instruction is never sent, and stays. -/
theorem hashLost_run {s : State} {is : List Inputs} {i : Inputs} (h : hashLost s)
    (hall : Allowed (LoadStore.step b) (fun s i => i.rst = false ∧ flush s i = false) s
      (is ++ [i])) :
    stage1Dcreq b (run (LoadStore.step b) s is) i = false ∧
      hashLost (run (LoadStore.step b) s is) := by
  induction is generalizing s with
  | nil => exact ⟨(hashLost_step h hall.1.1 hall.1.2).1, h⟩
  | cons j is ih => exact ih (hashLost_step h hall.1.1 hall.1.2).2 hall.2

/-! ### Runs -/

/-- `hashst` to the doubleword before RA. -/
def hashstInput (ra rb : BitVec 64) : Inputs where
  l :=
    { valid := true, op := .store, insn := 0x03E00001, addr1 := ra, addr2 := rb, length := 8
      hash := true, hashEnable := true, hashkey := 0x123456789abcdef0 }

/-- A load of the doubleword at `0x2000`. -/
def ldInput : Inputs where
  l := { valid := true, op := .load, addr1 := 0x2000, length := 8, hashEnable := true }

/-- A cycle in which the data cache stalls. -/
def stallInput : Inputs where
  dcStall := true

def hashBoot : HashTracked := ⟨bootState, false⟩

theorem hashBoot_init : hashBoot.Init true := ⟨⟨{}, { rst := true }, rfl, rfl⟩, rfl, rfl⟩

/-- The state the inputs lead to. -/
def hashRun (is : List Inputs) : HashTracked := run (HashTracked.step true) hashBoot is

/-- A hash store behind a load that hits. -/
def hashstRun : List Inputs :=
  [ldInput, hashstInput 0x1000 0x2008, answerFor 0x2000, {}, {}, {}, {}, {}, {}, {}]

/-- The digest goes to the doubleword at `0xff8`. -/
theorem hash_access_hashst :
    (dOut true (hashRun hashstRun).unit.ls {}).valid = true ∧
      (dOut true (hashRun hashstRun).unit.ls {}).addr = 0xff8 ∧
      ∀ i', (dOut true ((hashRun hashstRun).step true {}).unit.ls i').data =
        Lanes.ofBytes 64 fun k =>
          Lanes.byte (hashDigest 0x1000 0x2008 0x123456789abcdef0) k := by
  have hrun : Allowed (HashTracked.step true) HashEnv hashBoot hashstRun ∧
      HashEnv (hashRun hashstRun) {} ∧ (dOut true (hashRun hashstRun).unit.ls {}).valid = true ∧
      ((hashRun hashstRun).unit.sentOp {}).Hash ∧
      ((hashRun hashstRun).unit.sentOp {}).hashEa = 0xff8 ∧
      ((hashRun hashstRun).unit.sentOp {}).l.byteReverse = false ∧
      ((hashRun hashstRun).unit.sentOp {}).l.addr1 = 0x1000 ∧
      ((hashRun hashstRun).unit.sentOp {}).l.addr2 = 0x2008 ∧
      ((hashRun hashstRun).unit.sentOp {}).l.hashkey = 0x123456789abcdef0 := by
    decide +kernel
  have hreach : Reachable (HashTracked.step true) HashEnv (HashTracked.Init true)
      (hashRun hashstRun) := reachable_run hashBoot_init hrun.1
  obtain ⟨-, henv, hvalid, hhash, hea, hbrev, hra, hrb, hkey⟩ := hrun
  obtain ⟨-, hsent, -, -⟩ := hash_access hreach henv rfl
  obtain ⟨-, haddr, -, -, hdata⟩ := hsent hvalid hhash
  refine ⟨hvalid, haddr.trans hea, fun i' => (hdata i').trans ?_⟩
  simp only [Op.digestData, Op.digest, hbrev, hra, hrb, hkey, false_eq_true, if_false]

/-- Each part of the condition is needed. A hash store whose RB is not a multiple of 8 takes the
alignment interrupt for an aligned address, and one whose RA and RB add up to a multiple of 8
goes to a misaligned address. Behind a load that misses, the instruction waits for ever when the
digest comes during the stall, and goes to RA + RB when the digest comes at its end. And an
instruction accepted while the unit finishes with one that was flushed goes to RA + RB at once,
with the old digest. -/
theorem hash_access_fails :
    (∃ t i, Reachable (HashTracked.step true) (fun t i => Env t.unit i)
        (HashTracked.Init true) t ∧ Env t.unit i ∧ t.unit.ls.r2.req.valid = true ∧
      t.unit.op2.Hash ∧ t.unit.op2.hashEa.toNat % 8 = 0 ∧
      (t.step true i).unit.ls.r3.interrupt = true ∧
      (t.step true i).unit.ls.r3.intrVec = 0x600) ∧
    (∃ t i, Reachable (HashTracked.step true) (fun t i => Env t.unit i)
        (HashTracked.Init true) t ∧ Env t.unit i ∧ (dOut true t.unit.ls i).valid = true ∧
      (t.unit.sentOp i).Hash ∧ (t.unit.sentOp i).hashEa.toNat % 8 ≠ 0) ∧
    (∃ t, Reachable (HashTracked.step true) (fun t i => Env t.unit i)
        (HashTracked.Init true) t ∧ t.unit.op1.Hash ∧ t.unit.op1.l.addr2 = 0 ∧
      hashLost t.unit.ls ∧ t.unit.ls.r2.req.valid = false) ∧
    (∃ t i, Reachable (HashTracked.step true) (fun t i => Env t.unit i)
        (HashTracked.Init true) t ∧ Env t.unit i ∧ (dOut true t.unit.ls i).valid = true ∧
      (t.unit.sentOp i).Hash ∧ (t.unit.sentOp i).l.addr2.toNat % 8 = 0 ∧
      t.unit.ls.r1.busy = true ∧
      (dOut true t.unit.ls i).addr ≠ (t.unit.sentOp i).hashEa) ∧
    (∃ t i, Reachable (HashTracked.step true) (fun t i => Env t.unit i)
        (HashTracked.Init true) t ∧ Env t.unit i ∧ (dOut true t.unit.ls i).valid = true ∧
      (t.unit.sentOp i).Hash ∧ (t.unit.sentOp i).l.addr2.toNat % 8 = 0 ∧
      t.unit.ls.r1.busy = false ∧
      (dOut true t.unit.ls i).addr ≠ (t.unit.sentOp i).hashEa) := by
  have hreach : ∀ {is : List Inputs},
      Allowed (HashTracked.step true) (fun t i => Env t.unit i) hashBoot is →
      Reachable (HashTracked.step true) (fun t i => Env t.unit i) (HashTracked.Init true)
        (hashRun is) := fun h => reachable_run hashBoot_init h
  refine ⟨⟨hashRun [hashstInput 0x1000 4, {}], {}, hreach ?_, ?_⟩,
    ⟨hashRun [hashstInput 0x1004 4, {}, {}, {}, {}, {}, {}, {}, {}], {}, hreach ?_, ?_⟩,
    ⟨hashRun ([ldInput, hashstInput 0x1000 0] ++ List.replicate 9 stallInput ++
      [answerFor 0x2000, {}]), hreach ?_, ?_⟩,
    ⟨hashRun ([ldInput, hashstInput 0x1000 0x100] ++ List.replicate 8 stallInput),
      answerFor 0x2000, hreach ?_, ?_⟩,
    ⟨hashRun [ldInput, hashstInput 0x1000 0x100, { d := { error := true, cacheParadox := true } },
      {}, {}, {}, {}, {}, {}, {}], hashstInput 0x3000 0x100, hreach ?_, ?_⟩⟩
  all_goals decide +kernel

/-- The digest is lost behind a load that the data cache takes long to answer. -/
theorem hashLost_run_stalled :
    let s := (hashRun ([ldInput, hashstInput 0x1000 0] ++ List.replicate 9 stallInput ++
      [answerFor 0x2000, {}])).unit.ls
    let i : Inputs := {}
    hashLost s ∧ stage1Dcreq true (run (LoadStore.step true) s [i, i, i]) i = false := by
  intro s i
  have hlost : hashLost s := by decide +kernel
  have hall : Allowed (LoadStore.step true) (fun s i => i.rst = false ∧ flush s i = false) s
      ([i, i, i] ++ [i]) := by decide +kernel
  exact ⟨hlost, (hashLost_run hlost hall).1⟩

end LoadStore

end Microwatt
