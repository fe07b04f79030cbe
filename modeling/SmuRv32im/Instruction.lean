import SmuRv32im.Datapath

/-!
# One Instruction on Its Own

The combinational path of a single instruction through the core: the controller, the
immediate, the operand multiplexers, the ALU, the branch decision and the result
multiplexer, for an instruction word with given operands at a given address. The
sequential machine executes these one after the other; what an instruction computes is
stated here, away from the pipeline.
-/

namespace SmuRv32im

section
variable (x : XValues) (instr a b pc data : Word)

/-- The instruction `instr` at `pc` in Execute, with the operands `a` and `b`. -/
def execDE : StageDE := decodeStage x instr a b pc (adder pc 4#32 false).sum

/-- The instruction in Writeback, after reading `data`. -/
def execMW : StageMW := ((execDE x instr a b pc).toEM x a b).toMW data

/-- The instruction writes `v` to `rd`. -/
def WritesRd (v : Word) : Prop :=
  (execMW x instr a b pc data).regWriteW = true ∧ (execMW x instr a b pc data).result = v

/-- The instruction leaves the sequence. -/
def Taken : Prop := (execDE x instr a b pc).pcSrc x a b ≠ 0b00#2

/-- The address of the next instruction. -/
def execPC : Word := (execDE x instr a b pc).pcNext x a b (adder pc 4#32 false).sum

/-- An instruction whose result is not loaded and not a link writes its ALU result. -/
theorem writesRd_alu (hwe : (controller x instr).regWrite = true)
    (hsrc : (controller x instr).resultSrc = 0b00#2) (v : Word) :
    WritesRd x instr a b pc data v ↔ ((execDE x instr a b pc).aluOut x a b).result = v := by
  rw [WritesRd, execMW, StageMW.result]
  simp only [StageEM.toMW, StageDE.toEM, execDE, decodeStage, hwe, hsrc, mux3_00, true_and]

/-! ### The three formats that use the ALU on both operands -/

/-- A register-register instruction writes what the ALU makes of the two operands. -/
theorem writesRd_rType (h : opcode instr = opcAriRtype) (v : Word) :
    WritesRd x instr a b pc data v ↔
      (alu x a b (aludec x opcAriRtype (funct3 instr) (funct7 instr) 0b10#2)).result = v := by
  have hc : (controller x instr).regWrite = true ∧ (controller x instr).resultSrc = 0b00#2 ∧
      (controller x instr).aluSrcA = 0b00#2 ∧ (controller x instr).aluSrcB = false ∧
      (controller x instr).aluControl =
        aludec x opcAriRtype (funct3 instr) (funct7 instr) 0b10#2 := by
    simp [controller, maindec, h]
  obtain ⟨hwe, hsrc, hA, hB, hctl⟩ := hc
  rw [writesRd_alu x instr a b pc data hwe hsrc]
  simp only [StageDE.aluOut, StageDE.srcA, StageDE.srcB, execDE, decodeStage, hA, hB, hctl,
    mux3_00, mux2_false]

/-- A register-immediate instruction writes what the ALU makes of the first operand and
the immediate. -/
theorem writesRd_iType (h : opcode instr = opcAriItype) (v : Word) :
    WritesRd x instr a b pc data v ↔
      (alu x a (immI instr)
        (aludec x opcAriItype (funct3 instr) (funct7 instr) 0b10#2)).result = v := by
  have hc : (controller x instr).regWrite = true ∧ (controller x instr).resultSrc = 0b00#2 ∧
      (controller x instr).aluSrcA = 0b00#2 ∧ (controller x instr).aluSrcB = true ∧
      (controller x instr).aluControl =
        aludec x opcAriItype (funct3 instr) (funct7 instr) 0b10#2 := by
    simp [controller, maindec, h]
  obtain ⟨hwe, hsrc, hA, hB, hctl⟩ := hc
  have himm := immExt_of_iType x instr (Or.inr (Or.inl h))
  rw [writesRd_alu x instr a b pc data hwe hsrc]
  simp only [StageDE.aluOut, StageDE.srcA, StageDE.srcB, execDE, decodeStage, hA, hB, hctl,
    himm, mux3_00, mux2_true]

/-- A conditional branch compares the two operands. -/
theorem taken_branch (h : opcode instr = opcBranch) :
    Taken x instr a b pc ↔
      btaken true (funct3 instr)
        (alu x a b (aludec x opcBranch (funct3 instr) (funct7 instr) 0b01#2)).flags b = true := by
  have hc : (controller x instr).branch = true ∧ (controller x instr).jal = false ∧
      (controller x instr).jalr = false ∧
      (controller x instr).aluSrcA = 0b00#2 ∧ (controller x instr).aluSrcB = false ∧
      (controller x instr).aluControl =
        aludec x opcBranch (funct3 instr) (funct7 instr) 0b01#2 := by
    simp [controller, maindec, h]
  obtain ⟨hbr, hjal, hjalr, hA, hB, hctl⟩ := hc
  rw [Taken, StageDE.pcSrc, branchLogic_ne_zero]
  simp only [StageDE.aluOut, StageDE.srcA, StageDE.srcB, execDE, decodeStage, hbr, hjal, hjalr,
    hA, hB, hctl, mux3_00, mux2_false, Bool.false_eq_true, or_false]

/-! ### Upper immediates and links -/

/-- `lui` writes its immediate. -/
theorem writesRd_lui (h : opcode instr = opcLui) (v : Word) :
    WritesRd x instr a b pc data v ↔ immU instr = v := by
  have hc : (controller x instr).regWrite = true ∧ (controller x instr).resultSrc = 0b00#2 ∧
      (controller x instr).aluSrcA = 0b10#2 ∧ (controller x instr).aluSrcB = true ∧
      (controller x instr).aluControl = 0b00000#5 := by
    simp [controller, maindec, aludec, h]
  obtain ⟨hwe, hsrc, hA, hB, hctl⟩ := hc
  have himm := immExt_of_upper x instr (Or.inl h)
  rw [writesRd_alu x instr a b pc data hwe hsrc]
  simp only [StageDE.aluOut, StageDE.srcA, StageDE.srcB, execDE, decodeStage, hA, hB, hctl,
    himm, mux3_10, mux2_true, alu_add, BitVec.zero_add]

/-- `auipc` adds its immediate to its address. -/
theorem writesRd_auipc (h : opcode instr = opcAuipc) (v : Word) :
    WritesRd x instr a b pc data v ↔ pc + immU instr = v := by
  have hc : (controller x instr).regWrite = true ∧ (controller x instr).resultSrc = 0b00#2 ∧
      (controller x instr).aluSrcA = 0b01#2 ∧ (controller x instr).aluSrcB = true ∧
      (controller x instr).aluControl = 0b00000#5 := by
    simp [controller, maindec, aludec, h]
  obtain ⟨hwe, hsrc, hA, hB, hctl⟩ := hc
  have himm := immExt_of_upper x instr (Or.inr h)
  rw [writesRd_alu x instr a b pc data hwe hsrc]
  simp only [StageDE.aluOut, StageDE.srcA, StageDE.srcB, execDE, decodeStage, hA, hB, hctl,
    himm, mux3_01, mux2_true, alu_add]

/-- `jal` writes the address behind it. -/
theorem writesRd_jal (h : opcode instr = opcJal) (v : Word) :
    WritesRd x instr a b pc data v ↔ pc + 4#32 = v := by
  have hc : (controller x instr).regWrite = true ∧ (controller x instr).resultSrc = 0b10#2 := by
    simp [controller, maindec, h]
  obtain ⟨hwe, hsrc⟩ := hc
  rw [WritesRd, execMW, StageMW.result]
  simp only [StageEM.toMW, StageDE.toEM, execDE, decodeStage, hwe, hsrc, mux3_10, true_and,
    adder_sum_false]

/-! ### Loads and stores -/

/-- A load goes to Memory with the sum of its base and its I-type immediate. -/
theorem toEM_load (h : opcode instr = opcLoad) :
    ((execDE x instr a b pc).toEM x a b).aluResultM = a + immI instr ∧
      ((execDE x instr a b pc).toEM x a b).memWriteM = false ∧
      ((execDE x instr a b pc).toEM x a b).resultSrcM = 0b01#2 := by
  have hc : (controller x instr).aluControl = 0b00000#5 ∧
      (controller x instr).aluSrcA = 0b00#2 ∧ (controller x instr).aluSrcB = true ∧
      (controller x instr).memWrite = false ∧ (controller x instr).resultSrc = 0b01#2 := by
    simp [controller, maindec, aludec, h]
  obtain ⟨hctl, hA, hB, hmw, hsrc⟩ := hc
  have himm := immExt_of_iType x instr (Or.inl h)
  refine ⟨?_, hmw, hsrc⟩
  simp only [StageDE.toEM, StageDE.aluOut, StageDE.srcA, StageDE.srcB, execDE, decodeStage,
    hctl, hA, hB, himm, mux3_00, mux2_true, alu_add]

/-- A store goes to Memory with the sum of its base and its S-type immediate, and with its
second operand as data. -/
theorem toEM_store (h : opcode instr = opcStore) :
    ((execDE x instr a b pc).toEM x a b).aluResultM = a + immS instr ∧
      ((execDE x instr a b pc).toEM x a b).memWriteM = true ∧
      ((execDE x instr a b pc).toEM x a b).writeDataM = b := by
  have hc : (controller x instr).aluControl = 0b00000#5 ∧
      (controller x instr).aluSrcA = 0b00#2 ∧ (controller x instr).aluSrcB = true ∧
      (controller x instr).memWrite = true := by
    simp [controller, maindec, aludec, h]
  obtain ⟨hctl, hA, hB, hmw⟩ := hc
  have himm := immExt_of_store x instr h
  refine ⟨?_, hmw, rfl⟩
  simp only [StageDE.toEM, StageDE.aluOut, StageDE.srcA, StageDE.srcB, execDE, decodeStage,
    hctl, hA, hB, himm, mux3_00, mux2_true, alu_add]

end

end SmuRv32im
