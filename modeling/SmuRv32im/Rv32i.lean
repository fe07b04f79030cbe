import SmuRv32im.Encoding
import SmuRv32im.ProgramCounter
import SmuRv32im.Sequential

/-!
# RV32I: Arithmetic, Upper Immediates and `jal`

The instructions of the base set that compute a register from registers, an immediate or the
program counter, as the instruction set defines them (`Rv32i`): how they are encoded, what
they write and where they go on. The datapath computes the same for all of their words, and
touches neither the memory nor `tohost`.

The decoder looks at bit 5 of `funct7` for both formats, so for `addi`, where it belongs to
the immediate, it has to look at the opcode as well.

## Main results

* `execPC_of_not_taken`, `execPC_of_taken`: the next address.
* `RegOp.alu_result`: the ALU computes `RegOp.eval`.
* `rv32i_semantics`: what an instruction writes and where it goes on.
* `Arch.next_encode`: its effect on the sequential machine, with nothing else changed.
-/

namespace SmuRv32im

/-! ### The instructions -/

/-- The register-register instructions. -/
inductive RegOp
  | add | sub | sll | xor | srl | sra | or | and
deriving DecidableEq

/-- What a register-register instruction makes of its operands. -/
def RegOp.eval (a b : Word) : RegOp → Word
  | add => a + b
  | sub => a - b
  | sll => a <<< (b.toNat % 32)
  | xor => a ^^^ b
  | srl => a >>> (b.toNat % 32)
  | sra => a.sshiftRight (b.toNat % 32)
  | or => a ||| b
  | and => a &&& b

/-- The instructions with a 12-bit immediate. -/
inductive ImmOp
  | addi | xori | ori | andi
deriving DecidableEq

/-- The operation on the operand and the sign-extended immediate. -/
def ImmOp.op : ImmOp → RegOp
  | addi => .add
  | xori => .xor
  | ori => .or
  | andi => .and

/-- The instructions with a shift amount. -/
inductive ShiftOp
  | slli | srli | srai
deriving DecidableEq

/-- The operation on the operand and the shift amount. -/
def ShiftOp.op : ShiftOp → RegOp
  | slli => .sll
  | srli => .srl
  | srai => .sra

/-- An instruction: the destination comes before the sources. -/
inductive Rv32i
  | reg (o : RegOp) (d r1 r2 : BitVec 5)
  | imm (o : ImmOp) (d r1 : BitVec 5) (i : BitVec 12)
  | shift (o : ShiftOp) (d r1 shamt : BitVec 5)
  | lui (d : BitVec 5) (i : BitVec 20)
  | auipc (d : BitVec 5) (i : BitVec 20)
  | jal (d : BitVec 5) (off : BitVec 20)
deriving DecidableEq

/-- The `funct3` of an operation. -/
def RegOp.funct3 : RegOp → BitVec 3
  | add | sub => 0b000#3
  | sll => 0b001#3
  | xor => 0b100#3
  | srl | sra => 0b101#3
  | or => 0b110#3
  | and => 0b111#3

/-- The `funct7` of an operation. -/
def RegOp.funct7 : RegOp → BitVec 7
  | sub | sra => 0b0100000#7
  | _ => 0b0000000#7

namespace Rv32i

/-- The instruction word. -/
def encode : Rv32i → Word
  | reg o d r1 r2 => rType o.funct7 r2 r1 o.funct3 d opcAriRtype
  | imm o d r1 i => iType i r1 o.op.funct3 d opcAriItype
  | shift o d r1 shamt => rType o.op.funct7 shamt r1 o.op.funct3 d opcAriItype
  | lui d i => uType i d opcLui
  | auipc d i => uType i d opcAuipc
  | jal d off => jType off d opcJal

/-- The destination register. -/
def dest : Rv32i → BitVec 5
  | reg _ d _ _ | imm _ d _ _ | shift _ d _ _ | lui d _ | auipc d _ | jal d _ => d

/-- What the instruction at `pc` writes, for the operands `a` and `b`. -/
def rdValue (a b pc : Word) : Rv32i → Word
  | reg o _ _ _ => o.eval a b
  | imm o _ _ i => o.op.eval a (i.signExtend 32)
  | shift o _ _ shamt => o.op.eval a (shamt.setWidth 32)
  | lui _ i => i ++ 0#12
  | auipc _ i => pc + (i ++ 0#12)
  | jal _ _ => pc + 4#32

/-- Where it goes on. -/
def nextPC (pc : Word) : Rv32i → Word
  | jal _ off => pc + byteOffset off
  | _ => pc + 4#32

end Rv32i

/-! ### The next address -/

section
variable (x : XValues) (instr a b pc : Word)

theorem taken_iff_transfers :
    Taken x instr a b pc ↔ (execDE x instr a b pc).Transfers x a b := by
  have hdec : (execDE x instr a b pc).Decoded x := rfl
  exact hdec.pcSrc_iff a b

/-- An instruction that stays in the sequence goes on to the next word. -/
theorem execPC_of_not_taken (h : ¬Taken x instr a b pc) : execPC x instr a b pc = pc + 4#32 := by
  rw [Taken, not_not] at h
  rw [execPC, StageDE.pcNext, h, mux3_00, adder_sum_false]

/-- A taken branch and a `jal` go to their targets. -/
theorem execPC_of_taken (hop : opcode instr = opcBranch ∨ opcode instr = opcJal)
    (h : Taken x instr a b pc) : execPC x instr a b pc = pc + immExt x instr := by
  have hdec : (execDE x instr a b pc).Decoded x := rfl
  exact hdec.pcNext_of_branch_or_jal a b _ hop h

/-- Only branches and jumps leave the sequence. -/
theorem not_taken (hbr : opcode instr ≠ opcBranch) (hjal : opcode instr ≠ opcJal)
    (hjalr : opcode instr ≠ opcJalr) : ¬Taken x instr a b pc := by
  rw [taken_iff_transfers]
  rintro (⟨hop, -⟩ | hop | hop)
  · exact hbr hop
  · exact hjal hop
  · exact hjalr hop

end

/-! ### The ALU -/

namespace RegOp

/-- The `ALUControl` of an operation. -/
def aluControl : RegOp → BitVec 5
  | add => 0b00000#5
  | sub => 0b00001#5
  | sll => 0b00110#5
  | xor => 0b00100#5
  | srl => 0b00111#5
  | sra => 0b01000#5
  | or => 0b00011#5
  | and => 0b00010#5

theorem aludec_rType (x : XValues) (o : RegOp) :
    aludec x opcAriRtype o.funct3 o.funct7 0b10#2 = o.aluControl := by
  cases o <;> rfl

/-- The shift amount of the ALU. -/
theorem shamt_toNat (b : Word) : (b.extractLsb' 0 5).toNat = b.toNat % 32 := by
  rw [BitVec.extractLsb'_toNat, Nat.shiftRight_zero]

/-- **The ALU computes the operation.** -/
theorem alu_result (x : XValues) (o : RegOp) (a b : Word) :
    (alu x a b o.aluControl).result = o.eval a b := by
  cases o with
  | add => exact alu_add x a b
  | sub =>
      have hsub : (alu x a b 0b00001#5).result = (adder a (~~~b + 1#32) false).sum := rfl
      rw [aluControl, hsub, adder_sum_false, ← BitVec.neg_eq_not_add, eval, BitVec.sub_eq_add_neg]
  | sll =>
      rw [eval, ← shamt_toNat]
      rfl
  | xor => rfl
  | srl =>
      rw [eval, ← shamt_toNat]
      rfl
  | sra =>
      rw [eval, ← shamt_toNat]
      rfl
  | or => rfl
  | and => rfl

/-- The shifts look at the shift amount only. -/
theorem eval_shift (o : ShiftOp) (a b : Word) :
    o.op.eval a b = o.op.eval a ((b.extractLsb' 0 5).setWidth 32) := by
  have hlow : ((b.extractLsb' 0 5).setWidth 32).toNat % 32 = b.toNat % 32 := by
    rw [BitVec.toNat_setWidth, shamt_toNat]
    omega
  cases o with
  | slli => rw [ShiftOp.op, eval, eval, hlow]
  | srli => rw [ShiftOp.op, eval, eval, hlow]
  | srai => rw [ShiftOp.op, eval, eval, hlow]

end RegOp

theorem ImmOp.aludec_iType (x : XValues) (o : ImmOp) (f7 : BitVec 7) :
    aludec x opcAriItype o.op.funct3 f7 0b10#2 = o.op.aluControl := by
  cases o <;> rfl

theorem ShiftOp.aludec_iType (x : XValues) (o : ShiftOp) :
    aludec x opcAriItype o.op.funct3 o.op.funct7 0b10#2 = o.op.aluControl := by
  cases o <;> rfl

/-! ### The instructions, executed -/

namespace Rv32i

/-- The opcodes. -/
def op : Rv32i → BitVec 7
  | reg .. => opcAriRtype
  | imm .. | shift .. => opcAriItype
  | lui .. => opcLui
  | auipc .. => opcAuipc
  | jal .. => opcJal

theorem opcode_encode (i : Rv32i) : opcode i.encode = i.op := by
  cases i with
  | reg o d r1 r2 => exact rType_opcode _ _ _ _ _ _
  | imm o d r1 i => exact rType_opcode _ _ _ _ _ _
  | shift o d r1 shamt => exact rType_opcode _ _ _ _ _ _
  | lui d i => exact uType_opcode _ _ _
  | auipc d i => exact uType_opcode _ _ _
  | jal d off => exact uType_opcode _ _ _

theorem rd_encode (i : Rv32i) : rd i.encode = i.dest := by
  cases i with
  | reg o d r1 r2 => exact rType_rd _ _ _ _ _ _
  | imm o d r1 i => exact rType_rd _ _ _ _ _ _
  | shift o d r1 shamt => exact rType_rd _ _ _ _ _ _
  | lui d i => exact uType_rd _ _ _
  | auipc d i => exact uType_rd _ _ _
  | jal d off => exact uType_rd _ _ _

section
variable (x : XValues) (i : Rv32i) (a b pc data : Word)

/-- The value in Writeback is that of the instruction set. -/
theorem writesRd_encode : WritesRd x i.encode a b pc data (i.rdValue a b pc) := by
  have hop := i.opcode_encode
  cases i with
  | reg o d r1 r2 =>
      rw [writesRd_rType _ _ _ _ _ _ hop, encode, rType_funct3, rType_funct7,
        RegOp.aludec_rType, RegOp.alu_result]
      rfl
  | imm o d r1 i =>
      rw [writesRd_iType _ _ _ _ _ _ hop, encode, immI_iType, iType, rType_funct3,
        ImmOp.aludec_iType, RegOp.alu_result]
      rfl
  | shift o d r1 shamt =>
      rw [writesRd_iType _ _ _ _ _ _ hop, encode, rType_funct3, rType_funct7,
        ShiftOp.aludec_iType, RegOp.alu_result, RegOp.eval_shift, immI_shamt, rType_rs2]
      rfl
  | lui d i =>
      rw [writesRd_lui _ _ _ _ _ _ hop, encode, immU_uType]
      rfl
  | auipc d i =>
      rw [writesRd_auipc _ _ _ _ _ _ hop, encode, immU_uType]
      rfl
  | jal d off =>
      rw [writesRd_jal _ _ _ _ _ _ hop]
      rfl

/-- None of the instructions is a branch, a `jalr`, a store or a `SYSTEM` instruction. -/
theorem op_ne (i : Rv32i) :
    i.op ≠ opcBranch ∧ i.op ≠ opcJalr ∧ i.op ≠ opcStore ∧ i.op ≠ opcCsr := by
  cases i <;> simp [op]

/-- The instruction goes on where the instruction set says. -/
theorem execPC_encode : execPC x i.encode a b pc = i.nextPC pc := by
  have hop := i.opcode_encode
  obtain ⟨hbr, hjalr, -, -⟩ := i.op_ne
  by_cases hjal : i.op = opcJal
  · have htaken : Taken x i.encode a b pc :=
      (taken_iff_transfers x i.encode a b pc).mpr (Or.inr (Or.inl (hop.trans hjal)))
    rw [execPC_of_taken x _ a b pc (Or.inr (hop.trans hjal)) htaken,
      immExt_of_jal x _ (hop.trans hjal)]
    cases i with
    | jal d off => rw [encode, immJ_jType, nextPC]
    | _ => simp [op] at hjal
  · rw [execPC_of_not_taken]
    · cases i with
      | jal d off => exact absurd rfl hjal
      | _ => rfl
    · rw [← hop] at hbr hjal hjalr
      exact not_taken x _ a b pc hbr hjal hjalr

/-- The instruction writes neither the memory nor `tohost`. -/
theorem no_write : (execDE x i.encode a b pc).memWriteE = false ∧
    (execDE x i.encode a b pc).csrE = false := by
  obtain ⟨-, -, hstore, hcsr⟩ := i.op_ne
  rw [← i.opcode_encode] at hstore hcsr
  constructor
  · exact eq_false_of_ne_true fun h => hstore ((controller_memWrite x _).mp h)
  · exact eq_false_of_ne_true fun h => hcsr ((controller_csr x _).mp h)

end

end Rv32i

/-- **RV32I execution.** For every word of the eighteen instructions, all operands and all
addresses, the datapath writes to the destination what the instruction set defines and goes on
where it says, and the word writes neither the memory nor `tohost`. -/
theorem rv32i_semantics (x : XValues) (i : Rv32i) (a b pc data : Word) :
    WritesRd x i.encode a b pc data (i.rdValue a b pc) ∧ rd i.encode = i.dest ∧
      execPC x i.encode a b pc = i.nextPC pc ∧
      (execDE x i.encode a b pc).memWriteE = false ∧ (execDE x i.encode a b pc).csrE = false :=
  ⟨i.writesRd_encode x a b pc data, i.rd_encode, i.execPC_encode x a b pc, i.no_write x a b pc⟩

/-! ### On the sequential machine -/

namespace Rv32i

/-- The first source register, 0 if there is none. -/
def source1 : Rv32i → BitVec 5
  | reg _ _ r1 _ | imm _ _ r1 _ | shift _ _ r1 _ => r1
  | _ => 0#5

/-- The second source register, 0 if there is none. -/
def source2 : Rv32i → BitVec 5
  | reg _ _ _ r2 => r2
  | _ => 0#5

/-- The operands are those of the source registers. The word of an instruction without a
source has other bits in the place of the field, but its result does not depend on them. -/
theorem rdValue_sources (rf : RegFile) (pc : Word) (i : Rv32i) :
    i.rdValue (rf.read (rs1 i.encode)) (rf.read (rs2 i.encode)) pc =
      i.rdValue (rf.read i.source1) (rf.read i.source2) pc := by
  cases i with
  | reg o d r1 r2 => rw [encode, rType_rs1, rType_rs2, source1, source2]
  | imm o d r1 i =>
      rw [encode, iType, rType_rs1, source1]
      rfl
  | shift o d r1 shamt =>
      rw [encode, rType_rs1, source1]
      rfl
  | lui d i => rfl
  | auipc d i => rfl
  | jal d off => rfl

end Rv32i

/-- **One instruction of RV32I on the sequential machine** changes its destination register
and the program counter, and nothing else. -/
theorem Arch.next_encode (x : XValues) (d : Defines) (a : Arch) (timer : Word) (i : Rv32i)
    (h : a.instr = i.encode) :
    a.next x d timer =
      { a with
        pc := i.nextPC a.pc
        rf := a.rf.write true i.dest
          (i.rdValue (a.rf.read i.source1) (a.rf.read i.source2) a.pc) } := by
  have hvalue : i.rdValue a.rd1 a.rd2 a.pc =
      i.rdValue (a.rf.read i.source1) (a.rf.read i.source2) a.pc := by
    rw [rd1, rd2, h, i.rdValue_sources]
  have hpc : (a.de x).pcNext x a.rd1 a.rd2 a.pcPlus4 = i.nextPC a.pc := by
    rw [← i.execPC_encode x a.rd1 a.rd2, ← h]
    rfl
  obtain ⟨hwe, hresult⟩ : (a.mw x d timer).regWriteW = true ∧
      (a.mw x d timer).result = i.rdValue a.rd1 a.rd2 a.pc := by
    rw [mw, h]
    exact i.writesRd_encode x a.rd1 a.rd2 a.pc _
  obtain ⟨hmem, hcsr⟩ : (a.busOut x).memWrite = false ∧ (a.de x).csrE = false := by
    have hno := i.no_write x a.rd1 a.rd2 a.pc
    rw [← h] at hno
    exact hno
  rw [next, hpc, hwe, hresult, hvalue, hmem, hcsr, h, i.rd_encode]
  simp [asyncRamDpWbe, Ram.write, tbmanIrqForce, csr]

end SmuRv32im
