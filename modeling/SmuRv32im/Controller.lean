import SmuRv32im.Wires

/-!
# Instruction Decoding

`controller` is the main decoder `maindec`, which looks at the opcode alone, together
with the ALU decoder `aludec`; `extend` reassembles the immediate the main decoder asks
for. An opcode the main decoder does not list drives every control signal to zero, and
so does the all-zero word of a flushed slot.

## Main results

* `controller_resultSrc_zero`, `controller_memWrite`, `controller_branch`,
  `controller_jal`, `controller_jalr`, `controller_csr`: which instructions assert
  which control signal.
* `immExt_even`: the branch and `jal` offsets are even.
-/

namespace SmuRv32im

/-! ### Opcodes -/

/-- `OPC_CSR`. -/
@[simp] abbrev opcCsr : BitVec 7 := 0b1110011#7

/-- `OPC_LUI`. -/
@[simp] abbrev opcLui : BitVec 7 := 0b0110111#7

/-- `OPC_AUIPC`. -/
@[simp] abbrev opcAuipc : BitVec 7 := 0b0010111#7

/-- `OPC_JAL`. -/
@[simp] abbrev opcJal : BitVec 7 := 0b1101111#7

/-- `OPC_JALR`. -/
@[simp] abbrev opcJalr : BitVec 7 := 0b1100111#7

/-- `OPC_BRANCH`. -/
@[simp] abbrev opcBranch : BitVec 7 := 0b1100011#7

/-- `OPC_STORE`. -/
@[simp] abbrev opcStore : BitVec 7 := 0b0100011#7

/-- `OPC_LOAD`. -/
@[simp] abbrev opcLoad : BitVec 7 := 0b0000011#7

/-- `OPC_ARI_RTYPE`. -/
@[simp] abbrev opcAriRtype : BitVec 7 := 0b0110011#7

/-- `OPC_ARI_ITYPE`. -/
@[simp] abbrev opcAriItype : BitVec 7 := 0b0010011#7

/-! ### The decoders -/

/-- The concatenation `maindec` assigns, in its order. -/
structure MainDec where
  regWrite : Bool
  immSrc : BitVec 3
  aluSrcA : BitVec 2
  aluSrcB : Bool
  memWrite : Bool
  resultSrc : BitVec 2
  branch : Bool
  aluOp : BitVec 2
  jal : Bool
  jalr : Bool

/-- `maindec`: one row per opcode. -/
def maindec (x : XValues) (op : BitVec 7) : MainDec :=
  if op = opcAriRtype then
    ⟨true, x.immSrc, 0b00#2, false, false, 0b00#2, false, 0b10#2, false, false⟩
  else if op = opcAriItype then
    ⟨true, 0b000#3, 0b00#2, true, false, 0b00#2, false, 0b10#2, false, false⟩
  else if op = opcLoad then
    ⟨true, 0b000#3, 0b00#2, true, false, 0b01#2, false, 0b00#2, false, false⟩
  else if op = opcStore then
    ⟨false, 0b001#3, 0b00#2, true, true, 0b00#2, false, 0b00#2, false, false⟩
  else if op = opcBranch then
    ⟨false, 0b010#3, 0b00#2, false, false, 0b00#2, true, 0b01#2, false, false⟩
  else if op = opcJal then
    ⟨true, 0b011#3, 0b00#2, false, false, 0b10#2, false, 0b00#2, true, false⟩
  else if op = opcJalr then
    ⟨true, 0b000#3, 0b00#2, true, false, 0b10#2, false, 0b10#2, false, true⟩
  else if op = opcLui then
    ⟨true, 0b100#3, 0b10#2, true, false, 0b00#2, false, 0b00#2, false, false⟩
  else if op = opcAuipc then
    ⟨true, 0b100#3, 0b01#2, true, false, 0b00#2, false, 0b00#2, false, false⟩
  else if op = opcCsr then
    ⟨true, 0b101#3, 0b00#2, true, false, 0b00#2, false, 0b10#2, false, false⟩
  else
    ⟨false, 0b000#3, 0b00#2, false, false, 0b00#2, false, 0b00#2, false, false⟩

/-- `aludec`. The main decoder never drives `ALUop` to `11`, the case in which the
source assigns nothing. -/
def aludec (x : XValues) (op : BitVec 7) (f3 : BitVec 3) (f7 : BitVec 7)
    (aluOp : BitVec 2) : BitVec 5 :=
  if aluOp = 0b00#2 then 0b00000#5
  else if aluOp = 0b01#2 then
    if f3 = 0b000#3 ∨ f3 = 0b001#3 ∨ f3 = 0b100#3 ∨ f3 = 0b101#3 then 0b00001#5
    else 0b01010#5
  else if aluOp = 0b10#2 then
    if op = opcAriRtype ∧ f7 = 0b0000001#7 then
      -- RV32M: the eight values of funct3 in order
      if f3 = 0b000#3 then 0b10000#5
      else if f3 = 0b001#3 then 0b10001#5
      else if f3 = 0b010#3 then 0b10010#5
      else if f3 = 0b011#3 then 0b10011#5
      else if f3 = 0b100#3 then 0b10100#5
      else if f3 = 0b101#3 then 0b10101#5
      else if f3 = 0b110#3 then 0b10110#5
      else 0b10111#5
    else if op = opcLui ∨ op = opcJalr then 0b00000#5
    else if f3 = 0b000#3 ∧ ¬(op.getLsbD 5 = true ∧ f7.getLsbD 5 = true) then 0b00000#5
    else if f3 = 0b000#3 ∧ op.getLsbD 5 = true ∧ f7.getLsbD 5 = true then 0b00001#5
    else if f3 = 0b001#3 then 0b00110#5
    else if f3 = 0b010#3 then 0b00101#5
    else if f3 = 0b011#3 then 0b01001#5
    else if f3 = 0b100#3 then 0b00100#5
    else if f3 = 0b101#3 ∧ f7.getLsbD 5 = false then 0b00111#5
    else if f3 = 0b101#3 ∧ f7.getLsbD 5 = true then 0b01000#5
    else if f3 = 0b110#3 then 0b00011#5
    else if f3 = 0b111#3 then 0b00010#5
    else x.aluControl
  else x.aluControl

/-- The outputs of `controller`. -/
structure Controls where
  branch : Bool
  jal : Bool
  jalr : Bool
  resultSrc : BitVec 2
  memWrite : Bool
  aluControl : BitVec 5
  aluSrcA : BitVec 2
  aluSrcB : Bool
  immSrc : BitVec 3
  regWrite : Bool
  csr : Bool

/-- `controller`, applied to the fields of an instruction word. -/
def controller (x : XValues) (instr : Word) : Controls :=
  let m := maindec x (opcode instr)
  { branch := m.branch
    jal := m.jal
    jalr := m.jalr
    resultSrc := m.resultSrc
    memWrite := m.memWrite
    aluControl := aludec x (opcode instr) (funct3 instr) (funct7 instr) m.aluOp
    aluSrcA := m.aluSrcA
    aluSrcB := m.aluSrcB
    immSrc := m.immSrc
    regWrite := m.regWrite
    csr := opcode instr == opcCsr }

/-- `extend`, on the bits `Instr[31:7]`. -/
def extend (immSrc : BitVec 3) (i : BitVec 25) : Word :=
  if immSrc = 0b000#3 then (i.extractLsb' 13 12).signExtend 32
  else if immSrc = 0b001#3 then (i.extractLsb' 18 7 ++ i.extractLsb' 0 5).signExtend 32
  else if immSrc = 0b010#3 then
    (i.extractLsb' 24 1 ++ i.extractLsb' 0 1 ++ i.extractLsb' 18 6 ++ i.extractLsb' 1 4 ++
      0#1).signExtend 32
  else if immSrc = 0b011#3 then
    (i.extractLsb' 24 1 ++ i.extractLsb' 5 8 ++ i.extractLsb' 13 1 ++ i.extractLsb' 14 10 ++
      0#1).signExtend 32
  else if immSrc = 0b100#3 then i.extractLsb' 5 20 ++ 0#12
  else if immSrc = 0b101#3 then (i.extractLsb' 8 5).setWidth 32
  else 0#32

/-- The immediate of an instruction word: `extend` on its upper bits. -/
def immExt (x : XValues) (instr : Word) : Word :=
  extend (controller x instr).immSrc (instr.extractLsb' 7 25)

/-- The I-type immediate of an instruction word. -/
def immI (instr : Word) : Word := (instr.extractLsb' 20 12).signExtend 32

/-- The S-type immediate of an instruction word. -/
def immS (instr : Word) : Word :=
  (instr.extractLsb' 25 7 ++ instr.extractLsb' 7 5).signExtend 32

/-- The B-type immediate of an instruction word. -/
def immB (instr : Word) : Word :=
  (instr.extractLsb' 31 1 ++ instr.extractLsb' 7 1 ++ instr.extractLsb' 25 6 ++
    instr.extractLsb' 8 4 ++ 0#1).signExtend 32

/-- The J-type immediate of an instruction word. -/
def immJ (instr : Word) : Word :=
  (instr.extractLsb' 31 1 ++ instr.extractLsb' 12 8 ++ instr.extractLsb' 20 1 ++
    instr.extractLsb' 21 10 ++ 0#1).signExtend 32

/-- The U-type immediate of an instruction word. -/
def immU (instr : Word) : Word := instr.extractLsb' 12 20 ++ 0#12

/-! ### What the control signals say -/

/-- The opcodes `maindec` has a row for. -/
def listedOpcodes : List (BitVec 7) :=
  [opcAriRtype, opcAriItype, opcLoad, opcStore, opcBranch, opcJal, opcJalr, opcLui,
   opcAuipc, opcCsr]

/-- **Case analysis on the main decoder**: a property of the opcode and its row holds
once it holds of the ten rows and of the default. -/
theorem maindec_cases (x : XValues) {P : BitVec 7 → MainDec → Prop}
    (listed : ∀ op ∈ listedOpcodes, P op (maindec x op))
    (default : ∀ op, op ∉ listedOpcodes →
      P op ⟨false, 0b000#3, 0b00#2, false, false, 0b00#2, false, 0b00#2, false, false⟩)
    (op : BitVec 7) : P op (maindec x op) := by
  by_cases h : op ∈ listedOpcodes
  · exact listed op h
  · have h' := h
    simp only [listedOpcodes, List.mem_cons, List.not_mem_nil, or_false, not_or] at h'
    obtain ⟨h1, h2, h3, h4, h5, h6, h7, h8, h9, h10⟩ := h'
    have hrow := default op h
    rwa [maindec, if_neg h1, if_neg h2, if_neg h3, if_neg h4, if_neg h5, if_neg h6,
      if_neg h7, if_neg h8, if_neg h9, if_neg h10]

/-- Which opcodes assert which signal of the main decoder. -/
structure MainDec.Signals (op : BitVec 7) (m : MainDec) : Prop where
  resultSrc_zero : m.resultSrc.getLsbD 0 = true ↔ op = opcLoad
  resultSrc_01 : m.resultSrc = 0b01#2 ↔ op = opcLoad
  resultSrc_00 : m.resultSrc = 0b00#2 ↔ op ≠ opcLoad ∧ op ≠ opcJal ∧ op ≠ opcJalr
  memWrite : m.memWrite = true ↔ op = opcStore
  branch : m.branch = true ↔ op = opcBranch
  jal : m.jal = true ↔ op = opcJal
  jalr : m.jalr = true ↔ op = opcJalr

theorem maindec_signals (x : XValues) (op : BitVec 7) :
    MainDec.Signals op (maindec x op) := by
  refine maindec_cases x (P := MainDec.Signals) ?_ ?_ op
  · intro op h
    simp only [listedOpcodes, List.mem_cons, List.not_mem_nil, or_false] at h
    rcases h with rfl | rfl | rfl | rfl | rfl | rfl | rfl | rfl | rfl | rfl <;>
      constructor <;> simp [maindec]
  · intro op h
    simp only [listedOpcodes, List.mem_cons, List.not_mem_nil, or_false, not_or] at h
    constructor <;> simp_all

section
variable (x : XValues) (instr : Word)

/-- `ResultSrc[0]`, the bit the hazard unit takes for "is a load", is set by loads and
by nothing else. -/
theorem controller_resultSrc_zero :
    (controller x instr).resultSrc.getLsbD 0 = true ↔ opcode instr = opcLoad :=
  (maindec_signals x (opcode instr)).resultSrc_zero

/-- The result is the loaded word exactly for loads. -/
theorem controller_resultSrc_01 :
    (controller x instr).resultSrc = 0b01#2 ↔ opcode instr = opcLoad :=
  (maindec_signals x (opcode instr)).resultSrc_01

/-- The result is the ALU result for all but loads and the two jumps. -/
theorem controller_resultSrc_00 :
    (controller x instr).resultSrc = 0b00#2 ↔
      opcode instr ≠ opcLoad ∧ opcode instr ≠ opcJal ∧ opcode instr ≠ opcJalr :=
  (maindec_signals x (opcode instr)).resultSrc_00

theorem controller_memWrite :
    (controller x instr).memWrite = true ↔ opcode instr = opcStore :=
  (maindec_signals x (opcode instr)).memWrite

theorem controller_branch :
    (controller x instr).branch = true ↔ opcode instr = opcBranch :=
  (maindec_signals x (opcode instr)).branch

theorem controller_jal : (controller x instr).jal = true ↔ opcode instr = opcJal :=
  (maindec_signals x (opcode instr)).jal

theorem controller_jalr : (controller x instr).jalr = true ↔ opcode instr = opcJalr :=
  (maindec_signals x (opcode instr)).jalr

theorem controller_csr : (controller x instr).csr = true ↔ opcode instr = opcCsr :=
  beq_iff_eq

/-- Stores write no register. -/
theorem controller_regWrite_of_store (h : opcode instr = opcStore) :
    (controller x instr).regWrite = false := by
  simp [controller, maindec, h]

/-- A field of a field is a field of the word: the input `Instr[31:7]` of `extend`
renumbers the bits. -/
theorem extract_extract (s : ℕ) {n len t : ℕ} (h : t + n ≤ len) :
    (instr.extractLsb' s len).extractLsb' t n = instr.extractLsb' (s + t) n := by
  refine BitVec.eq_of_getLsbD_eq ?_
  intro i hi
  have hlt : t + i < len := by omega
  simp only [BitVec.getLsbD_extractLsb', hi, hlt, decide_true, Bool.true_and, Nat.add_assoc]

/-- Loads, register-immediate instructions and `jalr` take the I-type immediate. -/
theorem immExt_of_iType
    (h : opcode instr = opcLoad ∨ opcode instr = opcAriItype ∨ opcode instr = opcJalr) :
    immExt x instr = immI instr := by
  have hsrc : (controller x instr).immSrc = 0b000#3 := by
    rcases h with h | h | h <;> simp [controller, maindec, h]
  rw [immExt, hsrc, extend, if_pos rfl, immI, extract_extract _ _ (by omega)]

/-- Stores take the S-type immediate. -/
theorem immExt_of_store (h : opcode instr = opcStore) : immExt x instr = immS instr := by
  have hsrc : (controller x instr).immSrc = 0b001#3 := by simp [controller, maindec, h]
  rw [immExt, hsrc, immS]
  simp only [extend, BitVec.reduceEq, if_false, if_true]
  rw [extract_extract _ _ (by omega), extract_extract _ _ (by omega)]

/-- Conditional branches take the B-type immediate. -/
theorem immExt_of_branch (h : opcode instr = opcBranch) : immExt x instr = immB instr := by
  have hsrc : (controller x instr).immSrc = 0b010#3 := by simp [controller, maindec, h]
  rw [immExt, hsrc, immB]
  simp only [extend, BitVec.reduceEq, if_false, if_true]
  rw [extract_extract _ _ (by omega), extract_extract _ _ (by omega),
    extract_extract _ _ (by omega), extract_extract _ _ (by omega)]

/-- `jal` takes the J-type immediate. -/
theorem immExt_of_jal (h : opcode instr = opcJal) : immExt x instr = immJ instr := by
  have hsrc : (controller x instr).immSrc = 0b011#3 := by simp [controller, maindec, h]
  rw [immExt, hsrc, immJ]
  simp only [extend, BitVec.reduceEq, if_false, if_true]
  rw [extract_extract _ _ (by omega), extract_extract _ _ (by omega),
    extract_extract _ _ (by omega), extract_extract _ _ (by omega)]

/-- `lui` and `auipc` take the U-type immediate. -/
theorem immExt_of_upper (h : opcode instr = opcLui ∨ opcode instr = opcAuipc) :
    immExt x instr = immU instr := by
  have hsrc : (controller x instr).immSrc = 0b100#3 := by
    rcases h with h | h <;> simp [controller, maindec, h]
  rw [immExt, hsrc, immU]
  simp only [extend, BitVec.reduceEq, if_false, if_true]
  rw [extract_extract _ _ (by omega)]

/-- `SYSTEM` instructions take the zero-extended `rs1` field. -/
theorem immExt_of_csr (h : opcode instr = opcCsr) :
    immExt x instr = (rs1 instr).setWidth 32 := by
  have hsrc : (controller x instr).immSrc = 0b101#3 := by simp [controller, maindec, h]
  rw [immExt, hsrc, rs1]
  simp only [extend, BitVec.reduceEq, if_false, if_true]
  rw [extract_extract _ _ (by omega)]

private theorem getLsbD_signExtend_append_zero {n : ℕ} (v : BitVec n) :
    ((v ++ 0#1).signExtend 32).getLsbD 0 = false := by
  rw [BitVec.getLsbD_signExtend, if_pos (Nat.succ_pos n), BitVec.getLsbD_append,
    if_pos Nat.one_pos]
  simp

/-- The B-type and J-type immediates end in a zero bit. -/
theorem extend_even (i : BitVec 25) :
    (extend 0b010#3 i).getLsbD 0 = false ∧ (extend 0b011#3 i).getLsbD 0 = false := by
  constructor
  · simp only [extend, reduceIte, BitVec.reduceEq]
    exact getLsbD_signExtend_append_zero _
  · simp only [extend, reduceIte, BitVec.reduceEq]
    exact getLsbD_signExtend_append_zero _

/-- The branch offsets and the `jal` offsets are even. -/
theorem immExt_even (h : opcode instr = opcBranch ∨ opcode instr = opcJal) :
    (immExt x instr).getLsbD 0 = false := by
  rcases h with h | h
  · have hsrc : (controller x instr).immSrc = 0b010#3 := by simp [controller, maindec, h]
    rw [immExt, hsrc]
    exact (extend_even _).1
  · have hsrc : (controller x instr).immSrc = 0b011#3 := by simp [controller, maindec, h]
    rw [immExt, hsrc]
    exact (extend_even _).2

end

end SmuRv32im
