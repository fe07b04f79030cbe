import SmuRv32im.Rv32i

/-!
# Equality and Unsigned Comparison

The conditional branches on equality and on the unsigned order, `sltu` and `sltiu`. Equality
is the zero flag of `a + (~b + 1)`; the unsigned order is the carry of a second, 33-bit
subtraction, which keeps the carry of the increment, so a zero `b` needs no exception. The
branch decision makes one for it nevertheless.

## Main results

* `coutSub_iff`: the carry of the 33-bit subtraction.
* `BranchOp.execPC_encode`: where a conditional branch goes on.
* `unsignedCompare`: the comparison law.
-/

namespace SmuRv32im

/-! ### The two comparisons of the ALU -/

/-- **The carry of the 33-bit subtraction** says that it does not borrow. -/
theorem coutSub_iff (a b : Word) : coutSub a b = true ↔ b.toNat ≤ a.toNat := by
  have hsum : (a.setWidth 33 + (~~~b).setWidth 33 + 1#33).toNat = a.toNat + 2 ^ 32 - b.toNat := by
    rw [BitVec.toNat_add, BitVec.toNat_add, BitVec.toNat_setWidth, BitVec.toNat_setWidth,
      BitVec.toNat_not]
    simp only [BitVec.toNat_ofNat]
    omega
  have hmsb : coutSub a b = (a.setWidth 33 + (~~~b).setWidth 33 + 1#33).msb := by
    rw [BitVec.msb_eq_getLsbD_last]
    rfl
  rw [hmsb, BitVec.msb_eq_decide, decide_eq_true_iff, hsum]
  omega

/-- The zero flag of the subtraction says that the operands are equal. -/
theorem aluAdder_z_iff (a b : Word) : (aluAdder 0b00001#5 a b).z = true ↔ a = b := by
  have hb : addSubB 0b00001#5 b = -b := (BitVec.neg_eq_not_add b).symm
  rw [aluAdder, hb, adder_z, adder_sum_false, beq_iff_eq, ← BitVec.sub_eq_add_neg,
    BitVec.sub_eq_iff_eq_add, BitVec.zero_add]

/-- The ALU result of an unsigned set-less-than. -/
theorem alu_sltu (x : XValues) (a b : Word) :
    (alu x a b 0b01001#5).result = if a.toNat < b.toNat then 1#32 else 0#32 := by
  have hres : (alu x a b 0b01001#5).result = if coutSub a b = false then 1#32 else 0#32 := rfl
  have hlt : coutSub a b = false ↔ a.toNat < b.toNat := by
    rw [← Bool.not_eq_true, coutSub_iff, not_le]
  rw [hres]
  simp only [hlt]

/-! ### The instructions -/

/-- The conditional branches. -/
inductive BranchOp
  | beq | bne | blt | bge | bltu | bgeu
deriving DecidableEq

/-- The `funct3` of a conditional branch. -/
def BranchOp.funct3 : BranchOp → BitVec 3
  | beq => 0b000#3
  | bne => 0b001#3
  | blt => 0b100#3
  | bge => 0b101#3
  | bltu => 0b110#3
  | bgeu => 0b111#3

/-- The word of a conditional branch. -/
def BranchOp.encode (o : BranchOp) (r1 r2 : BitVec 5) (off : BitVec 12) : Word :=
  bType off r2 r1 o.funct3 opcBranch

/-- The word of an `sltu`. -/
def sltu (d r1 r2 : BitVec 5) : Word := rType 0b0000000#7 r2 r1 0b011#3 d opcAriRtype

/-- The word of an `sltiu`. -/
def sltiu (d r1 : BitVec 5) (i : BitVec 12) : Word := iType i r1 0b011#3 d opcAriItype

section
variable (x : XValues) (a b pc data : Word)

theorem writesRd_sltu (d r1 r2 : BitVec 5) : WritesRd x (sltu d r1 r2) a b pc data
    (if a.toNat < b.toNat then 1#32 else 0#32) := by
  have hop : opcode (sltu d r1 r2) = opcAriRtype := rType_opcode _ _ _ _ _ _
  rw [writesRd_rType _ _ _ _ _ _ hop, sltu, rType_funct3, rType_funct7]
  exact alu_sltu x a b

/-- An `sltu` writes 1 exactly if the first operand is smaller. -/
theorem writesRd_sltu_one (d r1 r2 : BitVec 5) :
    WritesRd x (sltu d r1 r2) a b pc data 1#32 ↔ a.toNat < b.toNat := by
  have hw := writesRd_sltu x a b pc data d r1 r2
  constructor
  · rintro ⟨-, hone⟩
    obtain ⟨-, hresult⟩ := hw
    by_contra hlt
    rw [hone, if_neg hlt] at hresult
    simp at hresult
  · intro hlt
    rwa [if_pos hlt] at hw

theorem writesRd_sltiu (d r1 : BitVec 5) (i : BitVec 12) :
    WritesRd x (sltiu d r1 i) a b pc data
      (if a.toNat < (i.signExtend 32).toNat then 1#32 else 0#32) := by
  have hop : opcode (sltiu d r1 i) = opcAriItype := rType_opcode _ _ _ _ _ _
  rw [writesRd_iType _ _ _ _ _ _ hop, sltiu, immI_iType, iType, rType_funct3]
  exact alu_sltu x a (i.signExtend 32)

namespace BranchOp
variable (o : BranchOp) (r1 r2 : BitVec 5) (off : BitVec 12)

theorem opcode_encode : opcode (o.encode r1 r2 off) = opcBranch := rType_opcode _ _ _ _ _ _

theorem funct3_encode : SmuRv32im.funct3 (o.encode r1 r2 off) = o.funct3 :=
  rType_funct3 _ _ _ _ _ _

/-- The comparison of a branch, on the flags of the ALU. -/
theorem taken_encode : Taken x (o.encode r1 r2 off) a b pc ↔
    btaken true o.funct3 (alu x a b
      (aludec x opcBranch o.funct3 (funct7 (o.encode r1 r2 off)) 0b01#2)).flags b = true := by
  rw [taken_branch _ _ _ _ _ (o.opcode_encode r1 r2 off), funct3_encode]

theorem taken_beq : Taken x (beq.encode r1 r2 off) a b pc ↔ a = b := by
  rw [taken_encode, ← aluAdder_z_iff]
  rfl

theorem taken_bne : Taken x (bne.encode r1 r2 off) a b pc ↔ a ≠ b := by
  rw [taken_encode, ne_eq, ← aluAdder_z_iff, Bool.not_eq_true, ← Bool.not_eq_true']
  rfl

/-- `bltu`: the exception for zero is the case in which nothing is smaller. -/
theorem taken_bltu : Taken x (bltu.encode r1 r2 off) a b pc ↔ a.toNat < b.toNat := by
  have hflag : ∀ f7, btaken true bltu.funct3
      (alu x a b (aludec x opcBranch bltu.funct3 f7 0b01#2)).flags b =
        (b != 0#32 && !coutSub a b) := fun _ => rfl
  rw [taken_encode, hflag, Bool.and_eq_true, Bool.not_eq_true', ← Bool.not_eq_true, coutSub_iff,
    bne_iff_ne, not_le]
  constructor
  · rintro ⟨-, hlt⟩
    exact hlt
  · intro hlt
    refine ⟨?_, hlt⟩
    rintro rfl
    exact Nat.not_lt_zero _ hlt

/-- `bgeu`: everything is at least zero, with the exception and without it. -/
theorem taken_bgeu : Taken x (bgeu.encode r1 r2 off) a b pc ↔ b.toNat ≤ a.toNat := by
  have hflag : ∀ f7, btaken true bgeu.funct3
      (alu x a b (aludec x opcBranch bgeu.funct3 f7 0b01#2)).flags b =
        (b != 0#32 && coutSub a b || b == 0#32) := fun _ => rfl
  rw [taken_encode, hflag, Bool.or_eq_true, Bool.and_eq_true, coutSub_iff, bne_iff_ne, beq_iff_eq]
  constructor
  · rintro (⟨-, hle⟩ | rfl)
    · exact hle
    · exact Nat.zero_le _
  · intro hle
    by_cases hb : b = 0#32
    · exact Or.inr hb
    · exact Or.inl ⟨hb, hle⟩

/-- **Where a conditional branch goes on.** -/
theorem execPC_encode :
    (Taken x (o.encode r1 r2 off) a b pc →
      execPC x (o.encode r1 r2 off) a b pc = pc + byteOffset off) ∧
    (¬Taken x (o.encode r1 r2 off) a b pc →
      execPC x (o.encode r1 r2 off) a b pc = pc + 4#32) := by
  have hop := o.opcode_encode r1 r2 off
  constructor
  · intro h
    rw [execPC_of_taken x _ a b pc (Or.inl hop) h, immExt_of_branch x _ hop, encode, immB_bType]
  · intro h
    exact execPC_of_not_taken x _ a b pc h

/-- A conditional branch writes no register. -/
theorem regWrite_encode : (execMW x (o.encode r1 r2 off) a b pc data).regWriteW = false := by
  have hop := o.opcode_encode r1 r2 off
  have hwe : (controller x (o.encode r1 r2 off)).regWrite = false := by
    simp [controller, maindec, hop]
  exact hwe

end BranchOp

end

/-- **The law of equality and unsigned comparison**, for all operands, addresses, registers
and offsets. -/
theorem unsignedCompare (x : XValues) (a b pc data : Word) :
    (∀ r1 r2 off,
      (Taken x (BranchOp.beq.encode r1 r2 off) a b pc ↔ a = b) ∧
      (Taken x (BranchOp.bne.encode r1 r2 off) a b pc ↔ a ≠ b) ∧
      (Taken x (BranchOp.bltu.encode r1 r2 off) a b pc ↔ a.toNat < b.toNat) ∧
      (Taken x (BranchOp.bgeu.encode r1 r2 off) a b pc ↔ b.toNat ≤ a.toNat)) ∧
    (∀ d r1 r2, WritesRd x (sltu d r1 r2) a b pc data
      (if a.toNat < b.toNat then 1#32 else 0#32)) ∧
    (∀ d r1 i, WritesRd x (sltiu d r1 i) a b pc data
      (if a.toNat < (i.signExtend 32).toNat then 1#32 else 0#32)) ∧
    (∀ (o : BranchOp) r1 r2 off,
      (Taken x (o.encode r1 r2 off) a b pc →
        execPC x (o.encode r1 r2 off) a b pc = pc + byteOffset off) ∧
      (¬Taken x (o.encode r1 r2 off) a b pc →
        execPC x (o.encode r1 r2 off) a b pc = pc + 4#32) ∧
      (execMW x (o.encode r1 r2 off) a b pc data).regWriteW = false) ∧
    (∀ d r1 r2 off,
      (WritesRd x (sltu d r1 r2) a b pc data 1#32 ↔
        Taken x (BranchOp.bltu.encode r1 r2 off) a b pc) ∧
      (Taken x (BranchOp.bltu.encode r1 r2 off) a b pc ↔
        ¬Taken x (BranchOp.bgeu.encode r1 r2 off) a b pc)) := by
  refine ⟨?_, writesRd_sltu x a b pc data, writesRd_sltiu x a b pc data, ?_, ?_⟩
  · intro r1 r2 off
    exact ⟨BranchOp.taken_beq x a b pc r1 r2 off, BranchOp.taken_bne x a b pc r1 r2 off,
      BranchOp.taken_bltu x a b pc r1 r2 off, BranchOp.taken_bgeu x a b pc r1 r2 off⟩
  · intro o r1 r2 off
    obtain ⟨htaken, hnot⟩ := o.execPC_encode x a b pc r1 r2 off
    exact ⟨htaken, hnot, o.regWrite_encode x a b pc data r1 r2 off⟩
  · intro d r1 r2 off
    rw [writesRd_sltu_one, BranchOp.taken_bltu, BranchOp.taken_bgeu, not_le]
    exact ⟨Iff.rfl, Iff.rfl⟩

end SmuRv32im
