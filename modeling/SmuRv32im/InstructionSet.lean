import SmuRv32im.UnsignedCompare

/-!
# The Instruction Set

The instructions of RV32IM, with `csrrw` and `csrrwi` to `tohost`, the one control register
of the design, and with `fence`: their words (`Instr.encode`) and the decoder of a machine
that knows these instructions and no others (`decode`). The controller of the core is
coarser, it executes every word in some way; `decode` says which words mean an instruction.

## Main results

* `decode_eq_some_iff`: the words that decode to an instruction are its encoding, and no
  other.
* `Instr.opcode_encode`: the field that selects what the core does.
-/

namespace SmuRv32im

/-! ### The instructions -/

/-- The comparisons into a register. -/
inductive SetOp
  | slt | sltu
deriving DecidableEq

/-- The loads. -/
inductive LoadOp
  | lb | lh | lw | lbu | lhu
deriving DecidableEq

/-- The stores. -/
inductive StoreOp
  | sb | sh | sw
deriving DecidableEq

/-- The `funct3` of a comparison. -/
def SetOp.funct3 : SetOp → BitVec 3
  | slt => 0b010#3
  | sltu => 0b011#3

/-- The `funct3` of a load. -/
def LoadOp.funct3 : LoadOp → BitVec 3
  | lb => 0b000#3
  | lh => 0b001#3
  | lw => 0b010#3
  | lbu => 0b100#3
  | lhu => 0b101#3

/-- The `funct3` of a store. -/
def StoreOp.funct3 : StoreOp → BitVec 3
  | sb => 0b000#3
  | sh => 0b001#3
  | sw => 0b010#3

/-- An instruction of RV32IM, a write to `tohost`, or a `fence`. -/
inductive Instr
  | compute (i : Rv32i)
  | set (o : SetOp) (d r1 r2 : BitVec 5)
  | setImm (o : SetOp) (d r1 : BitVec 5) (i : BitVec 12)
  | mulDiv (f3 : BitVec 3) (d r1 r2 : BitVec 5)
  | branch (o : BranchOp) (r1 r2 : BitVec 5) (off : BitVec 12)
  | jalr (d r1 : BitVec 5) (i : BitVec 12)
  | load (o : LoadOp) (d r1 : BitVec 5) (i : BitVec 12)
  | store (o : StoreOp) (r2 r1 : BitVec 5) (i : BitVec 12)
  | csrrw (d r1 : BitVec 5)
  | csrrwi (d z : BitVec 5)
  | fence (d r1 : BitVec 5) (i : BitVec 12)
deriving DecidableEq

/-- `OPC_MISC_MEM`, which the main decoder does not list. -/
@[simp] abbrev opcMiscMem : BitVec 7 := 0b0001111#7

/-- The S-type format: the immediate in the places of `funct7` and `rd`. -/
def sType (imm : BitVec 12) (r2 r1 : BitVec 5) (f3 : BitVec 3) (op : BitVec 7) : Word :=
  rType (imm.extractLsb' 5 7) r2 r1 f3 (imm.extractLsb' 0 5) op

namespace Instr

/-- The instruction word. -/
def encode : Instr → Word
  | compute i => i.encode
  | set o d r1 r2 => rType 0b0000000#7 r2 r1 o.funct3 d opcAriRtype
  | setImm o d r1 i => iType i r1 o.funct3 d opcAriItype
  | mulDiv f3 d r1 r2 => rType 0b0000001#7 r2 r1 f3 d opcAriRtype
  | branch o r1 r2 off => o.encode r1 r2 off
  | jalr d r1 i => iType i r1 0b000#3 d opcJalr
  | load o d r1 i => iType i r1 o.funct3 d opcLoad
  | store o r2 r1 i => sType i r2 r1 o.funct3 opcStore
  | csrrw d r1 => iType 0x51E#12 r1 0b001#3 d opcCsr
  | csrrwi d z => iType 0x51E#12 z 0b101#3 d opcCsr
  | fence d r1 i => iType i r1 0b000#3 d opcMiscMem

end Instr

/-! ### The decoder -/

/-- The register-register operation of a pair of fields. -/
def RegOp.ofFields (f3 : BitVec 3) (f7 : BitVec 7) : Option RegOp :=
  [add, sub, sll, xor, srl, sra, or, and].find? fun o => o.funct3 == f3 && o.funct7 == f7

/-- The operation with immediate of a `funct3`. -/
def ImmOp.ofFunct3 (f3 : BitVec 3) : Option ImmOp :=
  [addi, xori, ori, andi].find? fun o => o.op.funct3 == f3

/-- The shift of a pair of fields. -/
def ShiftOp.ofFields (f3 : BitVec 3) (f7 : BitVec 7) : Option ShiftOp :=
  [slli, srli, srai].find? fun o => o.op.funct3 == f3 && o.op.funct7 == f7

/-- The comparison of a `funct3`. -/
def SetOp.ofFunct3 (f3 : BitVec 3) : Option SetOp :=
  [slt, sltu].find? fun o => o.funct3 == f3

/-- The branch of a `funct3`. -/
def BranchOp.ofFunct3 (f3 : BitVec 3) : Option BranchOp :=
  [beq, bne, blt, bge, bltu, bgeu].find? fun o => o.funct3 == f3

/-- The load of a `funct3`. -/
def LoadOp.ofFunct3 (f3 : BitVec 3) : Option LoadOp :=
  [lb, lh, lw, lbu, lhu].find? fun o => o.funct3 == f3

/-- The store of a `funct3`. -/
def StoreOp.ofFunct3 (f3 : BitVec 3) : Option StoreOp :=
  [sb, sh, sw].find? fun o => o.funct3 == f3

/-- The I-type immediate field. -/
def fieldI (w : Word) : BitVec 12 := w.extractLsb' 20 12

/-- The S-type immediate field. -/
def fieldS (w : Word) : BitVec 12 := w.extractLsb' 25 7 ++ w.extractLsb' 7 5

/-- The B-type offset, in half words. -/
def fieldB (w : Word) : BitVec 12 :=
  w.extractLsb' 31 1 ++ w.extractLsb' 7 1 ++ w.extractLsb' 25 6 ++ w.extractLsb' 8 4

/-- The U-type immediate field. -/
def fieldU (w : Word) : BitVec 20 := w.extractLsb' 12 20

/-- The J-type offset, in half words. -/
def fieldJ (w : Word) : BitVec 20 :=
  w.extractLsb' 31 1 ++ w.extractLsb' 12 8 ++ w.extractLsb' 20 1 ++ w.extractLsb' 21 10

/-- The register-register instruction of a word. -/
def decodeReg (w : Word) : Option Instr :=
  if funct7 w = 0b0000001#7 then some (.mulDiv (funct3 w) (rd w) (rs1 w) (rs2 w))
  else match RegOp.ofFields (funct3 w) (funct7 w) with
    | some o => some (.compute (.reg o (rd w) (rs1 w) (rs2 w)))
    | none =>
      if funct7 w = 0b0000000#7 then
        (SetOp.ofFunct3 (funct3 w)).map (.set · (rd w) (rs1 w) (rs2 w))
      else none

/-- The register-immediate instruction of a word. -/
def decodeImm (w : Word) : Option Instr :=
  match ImmOp.ofFunct3 (funct3 w) with
  | some o => some (.compute (.imm o (rd w) (rs1 w) (fieldI w)))
  | none => match SetOp.ofFunct3 (funct3 w) with
    | some o => some (.setImm o (rd w) (rs1 w) (fieldI w))
    | none => (ShiftOp.ofFields (funct3 w) (funct7 w)).map
        fun o => .compute (.shift o (rd w) (rs1 w) (rs2 w))

/-- The write to `tohost` of a word. -/
def decodeCsr (w : Word) : Option Instr :=
  if fieldI w = 0x51E#12 then
    if funct3 w = 0b001#3 then some (.csrrw (rd w) (rs1 w))
    else if funct3 w = 0b101#3 then some (.csrrwi (rd w) (rs1 w))
    else none
  else none

/-- The instruction of a word. -/
def decode (w : Word) : Option Instr :=
  if opcode w = opcAriRtype then decodeReg w
  else if opcode w = opcAriItype then decodeImm w
  else if opcode w = opcLoad then
    (LoadOp.ofFunct3 (funct3 w)).map (.load · (rd w) (rs1 w) (fieldI w))
  else if opcode w = opcStore then
    (StoreOp.ofFunct3 (funct3 w)).map (.store · (rs2 w) (rs1 w) (fieldS w))
  else if opcode w = opcBranch then
    (BranchOp.ofFunct3 (funct3 w)).map (.branch · (rs1 w) (rs2 w) (fieldB w))
  else if opcode w = opcJal then some (.compute (.jal (rd w) (fieldJ w)))
  else if opcode w = opcJalr then
    if funct3 w = 0b000#3 then some (.jalr (rd w) (rs1 w) (fieldI w)) else none
  else if opcode w = opcLui then some (.compute (.lui (rd w) (fieldU w)))
  else if opcode w = opcAuipc then some (.compute (.auipc (rd w) (fieldU w)))
  else if opcode w = opcCsr then decodeCsr w
  else if opcode w = opcMiscMem then
    if funct3 w = 0b000#3 then some (.fence (rd w) (rs1 w) (fieldI w)) else none
  else none

section
variable {w : Word}

theorem decode_reg (h : opcode w = opcAriRtype) : decode w = decodeReg w := if_pos h

theorem decode_imm (h : opcode w = opcAriItype) : decode w = decodeImm w := by
  rw [decode, h]
  rfl

theorem decode_load (h : opcode w = opcLoad) :
    decode w = (LoadOp.ofFunct3 (funct3 w)).map (.load · (rd w) (rs1 w) (fieldI w)) := by
  rw [decode, h]
  rfl

theorem decode_store (h : opcode w = opcStore) :
    decode w = (StoreOp.ofFunct3 (funct3 w)).map (.store · (rs2 w) (rs1 w) (fieldS w)) := by
  rw [decode, h]
  rfl

theorem decode_branch (h : opcode w = opcBranch) :
    decode w = (BranchOp.ofFunct3 (funct3 w)).map (.branch · (rs1 w) (rs2 w) (fieldB w)) := by
  rw [decode, h]
  rfl

theorem decode_jal (h : opcode w = opcJal) :
    decode w = some (.compute (.jal (rd w) (fieldJ w))) := by
  rw [decode, h]
  rfl

theorem decode_jalr (h : opcode w = opcJalr) :
    decode w = if funct3 w = 0b000#3 then some (.jalr (rd w) (rs1 w) (fieldI w)) else none := by
  rw [decode, h]
  rfl

theorem decode_lui (h : opcode w = opcLui) :
    decode w = some (.compute (.lui (rd w) (fieldU w))) := by
  rw [decode, h]
  rfl

theorem decode_auipc (h : opcode w = opcAuipc) :
    decode w = some (.compute (.auipc (rd w) (fieldU w))) := by
  rw [decode, h]
  rfl

theorem decode_csr (h : opcode w = opcCsr) : decode w = decodeCsr w := by
  rw [decode, h]
  rfl

theorem decode_miscMem (h : opcode w = opcMiscMem) :
    decode w = if funct3 w = 0b000#3 then some (.fence (rd w) (rs1 w) (fieldI w)) else none := by
  rw [decode, h]
  rfl

end

/-! ### Tables -/

theorem RegOp.ofFields_eq_some_iff {f3 : BitVec 3} {f7 : BitVec 7} {o : RegOp} :
    ofFields f3 f7 = some o ↔ o.funct3 = f3 ∧ o.funct7 = f7 := by
  refine ⟨fun h => by simpa using List.find?_some h, ?_⟩
  rintro ⟨rfl, rfl⟩
  cases o <;> rfl

theorem ImmOp.ofFunct3_eq_some_iff {f3 : BitVec 3} {o : ImmOp} :
    ofFunct3 f3 = some o ↔ o.op.funct3 = f3 := by
  refine ⟨fun h => by simpa using List.find?_some h, ?_⟩
  rintro rfl
  cases o <;> rfl

theorem ShiftOp.ofFields_eq_some_iff {f3 : BitVec 3} {f7 : BitVec 7} {o : ShiftOp} :
    ofFields f3 f7 = some o ↔ o.op.funct3 = f3 ∧ o.op.funct7 = f7 := by
  refine ⟨fun h => by simpa using List.find?_some h, ?_⟩
  rintro ⟨rfl, rfl⟩
  cases o <;> rfl

theorem SetOp.ofFunct3_eq_some_iff {f3 : BitVec 3} {o : SetOp} :
    ofFunct3 f3 = some o ↔ o.funct3 = f3 := by
  refine ⟨fun h => by simpa using List.find?_some h, ?_⟩
  rintro rfl
  cases o <;> rfl

theorem BranchOp.ofFunct3_eq_some_iff {f3 : BitVec 3} {o : BranchOp} :
    ofFunct3 f3 = some o ↔ o.funct3 = f3 := by
  refine ⟨fun h => by simpa using List.find?_some h, ?_⟩
  rintro rfl
  cases o <;> rfl

theorem LoadOp.ofFunct3_eq_some_iff {f3 : BitVec 3} {o : LoadOp} :
    ofFunct3 f3 = some o ↔ o.funct3 = f3 := by
  refine ⟨fun h => by simpa using List.find?_some h, ?_⟩
  rintro rfl
  cases o <;> rfl

theorem StoreOp.ofFunct3_eq_some_iff {f3 : BitVec 3} {o : StoreOp} :
    ofFunct3 f3 = some o ↔ o.funct3 = f3 := by
  refine ⟨fun h => by simpa using List.find?_some h, ?_⟩
  rintro rfl
  cases o <;> rfl

/-! ### A word is its fields -/

section
variable (w : Word)

theorem rType_fields : rType (funct7 w) (rs2 w) (rs1 w) (funct3 w) (rd w) (opcode w) = w := by
  rw [rType, funct7, rs2, rs1, funct3, rd, opcode,
    BitVec.extractLsb'_append_extractLsb'_eq_extractLsb' (by rfl),
    BitVec.extractLsb'_append_extractLsb'_eq_extractLsb' (by rfl),
    BitVec.extractLsb'_append_extractLsb'_eq_extractLsb' (by rfl),
    BitVec.extractLsb'_append_extractLsb'_eq_extractLsb' (by rfl),
    BitVec.extractLsb'_append_extractLsb'_eq_extractLsb' (by rfl)]
  exact BitVec.extractLsb'_eq_self

/-- A piece of the I-type immediate is a piece of the word. -/
theorem extract_fieldI (t : ℕ) {n : ℕ} (h : t + n ≤ 12) :
    (fieldI w).extractLsb' t n = w.extractLsb' (20 + t) n := extract_extract w 20 h

theorem iType_fields : iType (fieldI w) (rs1 w) (funct3 w) (rd w) (opcode w) = w := by
  rw [iType, extract_fieldI w 5 (by omega), extract_fieldI w 0 (by omega)]
  exact rType_fields w

theorem sType_fields : sType (fieldS w) (rs2 w) (rs1 w) (funct3 w) (opcode w) = w := by
  rw [sType, fieldS, BitVec.extractLsb'_append_eq_left, BitVec.extractLsb'_append_eq_right]
  exact rType_fields w

/-- The pieces of the B-type offset are where the format puts them. -/
theorem extract_fieldB :
    (fieldB w).extractLsb' 11 1 = w.extractLsb' 31 1 ∧
      (fieldB w).extractLsb' 10 1 = w.extractLsb' 7 1 ∧
      (fieldB w).extractLsb' 4 6 = w.extractLsb' 25 6 ∧
      (fieldB w).extractLsb' 0 4 = w.extractLsb' 8 4 := by
  rw [fieldB]
  refine ⟨?_, ?_, ?_, ?_⟩
  · rw [BitVec.extractLsb'_append_eq_of_le (by omega),
      BitVec.extractLsb'_append_eq_of_le (by omega), BitVec.extractLsb'_append_eq_left]
  · rw [BitVec.extractLsb'_append_eq_of_le (by omega),
      BitVec.extractLsb'_append_eq_of_le (by omega), BitVec.extractLsb'_append_eq_right]
  · rw [BitVec.extractLsb'_append_eq_of_le (by omega), BitVec.extractLsb'_append_eq_right]
  · rw [BitVec.extractLsb'_append_eq_right]

theorem bType_fields : bType (fieldB w) (rs2 w) (rs1 w) (funct3 w) (opcode w) = w := by
  obtain ⟨h11, h10, h4, h0⟩ := extract_fieldB w
  rw [bType, h11, h10, h4, h0, BitVec.extractLsb'_append_extractLsb'_eq_extractLsb' (by rfl),
    BitVec.extractLsb'_append_extractLsb'_eq_extractLsb' (by rfl)]
  exact rType_fields w

theorem uType_fields : uType (fieldU w) (rd w) (opcode w) = w := by
  rw [uType, fieldU, rd, opcode,
    BitVec.extractLsb'_append_extractLsb'_eq_extractLsb' (by rfl),
    BitVec.extractLsb'_append_extractLsb'_eq_extractLsb' (by rfl)]
  exact BitVec.extractLsb'_eq_self

/-- The pieces of the J-type offset are where the format puts them. -/
theorem extract_fieldJ :
    (fieldJ w).extractLsb' 19 1 = w.extractLsb' 31 1 ∧
      (fieldJ w).extractLsb' 11 8 = w.extractLsb' 12 8 ∧
      (fieldJ w).extractLsb' 10 1 = w.extractLsb' 20 1 ∧
      (fieldJ w).extractLsb' 0 10 = w.extractLsb' 21 10 := by
  rw [fieldJ]
  refine ⟨?_, ?_, ?_, ?_⟩
  · rw [BitVec.extractLsb'_append_eq_of_le (by omega),
      BitVec.extractLsb'_append_eq_of_le (by omega), BitVec.extractLsb'_append_eq_left]
  · rw [BitVec.extractLsb'_append_eq_of_le (by omega),
      BitVec.extractLsb'_append_eq_of_le (by omega), BitVec.extractLsb'_append_eq_right]
  · rw [BitVec.extractLsb'_append_eq_of_le (by omega), BitVec.extractLsb'_append_eq_right]
  · rw [BitVec.extractLsb'_append_eq_right]

theorem jType_fields : jType (fieldJ w) (rd w) (opcode w) = w := by
  obtain ⟨h19, h11, h10, h0⟩ := extract_fieldJ w
  rw [jType, h19, h11, h10, h0, BitVec.extractLsb'_append_extractLsb'_eq_extractLsb' (by rfl),
    BitVec.extractLsb'_append_extractLsb'_eq_extractLsb' (by rfl),
    BitVec.extractLsb'_append_extractLsb'_eq_extractLsb' (by rfl)]
  exact uType_fields w

end

/-! ### The encoded fields -/

section
variable (imm : BitVec 12) (r2 r1 d : BitVec 5) (f3 : BitVec 3) (op : BitVec 7)

theorem iType_rd : rd (iType imm r1 f3 d op) = d := rType_rd _ _ _ _ _ _

theorem iType_rs1 : rs1 (iType imm r1 f3 d op) = r1 := rType_rs1 _ _ _ _ _ _

theorem iType_funct3 : funct3 (iType imm r1 f3 d op) = f3 := rType_funct3 _ _ _ _ _ _

theorem fieldI_iType : fieldI (iType imm r1 f3 d op) = imm := by
  have hfields : fieldI (iType imm r1 f3 d op) =
      funct7 (iType imm r1 f3 d op) ++ rs2 (iType imm r1 f3 d op) := by
    rw [fieldI, funct7, rs2, BitVec.extractLsb'_append_extractLsb'_eq_extractLsb' (by rfl)]
  rw [hfields, iType, rType_funct7, rType_rs2,
    BitVec.extractLsb'_append_extractLsb'_eq_extractLsb' (by rfl), BitVec.extractLsb'_eq_self]

theorem fieldS_sType : fieldS (sType imm r2 r1 f3 op) = imm := by
  have hfields : fieldS (sType imm r2 r1 f3 op) =
      funct7 (sType imm r2 r1 f3 op) ++ rd (sType imm r2 r1 f3 op) := rfl
  rw [hfields, sType, rType_funct7, rType_rd,
    BitVec.extractLsb'_append_extractLsb'_eq_extractLsb' (by rfl), BitVec.extractLsb'_eq_self]

/-- The immediate of an S-type word is sign-extended. -/
theorem immS_sType : immS (sType imm r2 r1 f3 op) = imm.signExtend 32 :=
  congrArg (·.signExtend 32) (fieldS_sType imm r2 r1 f3 op)

/-- An offset in half words is the offset in bytes without its lowest bit. -/
theorem extract_byteOffset {n : ℕ} (h : n < 32) (off : BitVec n) :
    (byteOffset off).extractLsb' 1 n = off := by
  refine BitVec.eq_of_getLsbD_eq ?_
  intro i hi
  have hsucc : 1 + i < n + 1 := by omega
  have h32 : 1 + i < 32 := by omega
  have h0 : ¬(1 + i < 1) := by omega
  rw [byteOffset, BitVec.getLsbD_extractLsb', BitVec.getLsbD_signExtend, BitVec.getLsbD_append,
    if_pos hsucc, if_neg h0, Nat.add_sub_cancel_left]
  simp only [hi, h32, decide_true, Bool.true_and]

theorem byteOffset_inj {n : ℕ} (h : n < 32) {off off' : BitVec n}
    (heq : byteOffset off = byteOffset off') : off = off' := by
  rw [← extract_byteOffset h off, heq, extract_byteOffset h off']

theorem fieldB_bType : fieldB (bType imm r2 r1 f3 op) = imm :=
  byteOffset_inj (by omega) (immB_bType op r2 r1 f3 imm)

theorem fieldJ_jType (off : BitVec 20) : fieldJ (jType off d op) = off :=
  byteOffset_inj (by omega) (immJ_jType op d off)

end

/-! ### The round trip -/

section
variable {w : Word} {i : Instr}

theorem encode_of_decodeReg (hop : opcode w = opcAriRtype) (h : decodeReg w = some i) :
    i.encode = w := by
  have hw := rType_fields w
  rw [hop] at hw
  rw [decodeReg] at h
  by_cases h7 : funct7 w = 0b0000001#7
  · rw [if_pos h7] at h
    obtain rfl := Option.some.inj h
    rwa [h7] at hw
  · rw [if_neg h7] at h
    split at h
    · rename_i o ho
      obtain ⟨h3, h7'⟩ := RegOp.ofFields_eq_some_iff.mp ho
      obtain rfl := Option.some.inj h
      rwa [← h3, ← h7'] at hw
    · obtain ⟨h0, h⟩ := Option.ite_none_right_eq_some.mp h
      obtain ⟨o, ho, rfl⟩ := Option.map_eq_some_iff.mp h
      rwa [h0, ← SetOp.ofFunct3_eq_some_iff.mp ho] at hw

theorem encode_of_decodeImm (hop : opcode w = opcAriItype) (h : decodeImm w = some i) :
    i.encode = w := by
  have hw := iType_fields w
  rw [hop] at hw
  rw [decodeImm] at h
  split at h
  · rename_i o ho
    obtain rfl := Option.some.inj h
    rwa [← ImmOp.ofFunct3_eq_some_iff.mp ho] at hw
  · split at h
    · rename_i o ho
      obtain rfl := Option.some.inj h
      rwa [← SetOp.ofFunct3_eq_some_iff.mp ho] at hw
    · obtain ⟨o, ho, rfl⟩ := Option.map_eq_some_iff.mp h
      obtain ⟨h3, h7⟩ := ShiftOp.ofFields_eq_some_iff.mp ho
      have hr := rType_fields w
      rwa [hop, ← h3, ← h7] at hr

theorem encode_of_decodeCsr (hop : opcode w = opcCsr) (h : decodeCsr w = some i) :
    i.encode = w := by
  have hw := iType_fields w
  rw [hop] at hw
  rw [decodeCsr] at h
  split_ifs at h with hcsr h1 h5
  · obtain rfl := Option.some.inj h
    rwa [hcsr, h1] at hw
  · obtain rfl := Option.some.inj h
    rwa [hcsr, h5] at hw

/-- What decodes is encoded by what it decodes to. -/
theorem encode_of_decode (h : decode w = some i) : i.encode = w := by
  have hI := iType_fields w
  by_cases hreg : opcode w = opcAriRtype
  · exact encode_of_decodeReg hreg (decode_reg hreg ▸ h)
  by_cases himm : opcode w = opcAriItype
  · exact encode_of_decodeImm himm (decode_imm himm ▸ h)
  by_cases hload : opcode w = opcLoad
  · obtain ⟨o, ho, rfl⟩ := Option.map_eq_some_iff.mp (decode_load hload ▸ h)
    rwa [hload, ← LoadOp.ofFunct3_eq_some_iff.mp ho] at hI
  by_cases hstore : opcode w = opcStore
  · obtain ⟨o, ho, rfl⟩ := Option.map_eq_some_iff.mp (decode_store hstore ▸ h)
    have hS := sType_fields w
    rwa [hstore, ← StoreOp.ofFunct3_eq_some_iff.mp ho] at hS
  by_cases hbranch : opcode w = opcBranch
  · obtain ⟨o, ho, rfl⟩ := Option.map_eq_some_iff.mp (decode_branch hbranch ▸ h)
    have hB := bType_fields w
    rwa [hbranch, ← BranchOp.ofFunct3_eq_some_iff.mp ho] at hB
  by_cases hjal : opcode w = opcJal
  · obtain rfl := Option.some.inj (decode_jal hjal ▸ h)
    have hJ := jType_fields w
    rwa [hjal] at hJ
  by_cases hjalr : opcode w = opcJalr
  · obtain ⟨h3, h⟩ := Option.ite_none_right_eq_some.mp (decode_jalr hjalr ▸ h)
    obtain rfl := Option.some.inj h
    rwa [hjalr, h3] at hI
  by_cases hlui : opcode w = opcLui
  · obtain rfl := Option.some.inj (decode_lui hlui ▸ h)
    have hU := uType_fields w
    rwa [hlui] at hU
  by_cases hauipc : opcode w = opcAuipc
  · obtain rfl := Option.some.inj (decode_auipc hauipc ▸ h)
    have hU := uType_fields w
    rwa [hauipc] at hU
  by_cases hcsr : opcode w = opcCsr
  · exact encode_of_decodeCsr hcsr (decode_csr hcsr ▸ h)
  by_cases hmisc : opcode w = opcMiscMem
  · obtain ⟨h3, h⟩ := Option.ite_none_right_eq_some.mp (decode_miscMem hmisc ▸ h)
    obtain rfl := Option.some.inj h
    rwa [hmisc, h3] at hI
  rw [decode, if_neg hreg, if_neg himm, if_neg hload, if_neg hstore, if_neg hbranch, if_neg hjal,
    if_neg hjalr, if_neg hlui, if_neg hauipc, if_neg hcsr, if_neg hmisc] at h
  cases h

end

/-! ### Encoded instructions -/

namespace Instr

/-- The opcodes. -/
def op : Instr → BitVec 7
  | compute i => i.op
  | set .. | mulDiv .. => opcAriRtype
  | setImm .. => opcAriItype
  | branch .. => opcBranch
  | jalr .. => opcJalr
  | load .. => opcLoad
  | store .. => opcStore
  | csrrw .. | csrrwi .. => opcCsr
  | fence .. => opcMiscMem

theorem opcode_encode (i : Instr) : opcode i.encode = i.op := by
  cases i with
  | compute i => exact i.opcode_encode
  | set o d r1 r2 => exact rType_opcode _ _ _ _ _ _
  | setImm o d r1 i => exact rType_opcode _ _ _ _ _ _
  | mulDiv f3 d r1 r2 => exact rType_opcode _ _ _ _ _ _
  | branch o r1 r2 off => exact rType_opcode _ _ _ _ _ _
  | jalr d r1 i => exact rType_opcode _ _ _ _ _ _
  | load o d r1 i => exact rType_opcode _ _ _ _ _ _
  | store o r2 r1 i => exact rType_opcode _ _ _ _ _ _
  | csrrw d r1 => exact rType_opcode _ _ _ _ _ _
  | csrrwi d z => exact rType_opcode _ _ _ _ _ _
  | fence d r1 i => exact rType_opcode _ _ _ _ _ _

end Instr

/-- Every instruction of `Rv32i` decodes to itself. -/
theorem decode_compute (i : Rv32i) : decode i.encode = some (.compute i) := by
  have hop := i.opcode_encode
  cases i with
  | reg o d r1 r2 =>
      have hm : o.funct7 ≠ 0b0000001#7 := by cases o <;> decide
      have ho : RegOp.ofFields o.funct3 o.funct7 = some o :=
        RegOp.ofFields_eq_some_iff.mpr ⟨rfl, rfl⟩
      rw [decode_reg hop, Rv32i.encode, decodeReg, rType_funct7, rType_funct3, rType_rd,
        rType_rs1, rType_rs2, if_neg hm, ho]
  | imm o d r1 i =>
      have ho : ImmOp.ofFunct3 o.op.funct3 = some o := ImmOp.ofFunct3_eq_some_iff.mpr rfl
      rw [decode_imm hop, Rv32i.encode, decodeImm, iType_funct3, ho, iType_rd, iType_rs1,
        fieldI_iType]
  | shift o d r1 shamt =>
      have himm : ImmOp.ofFunct3 o.op.funct3 = none := by cases o <;> rfl
      have hset : SetOp.ofFunct3 o.op.funct3 = none := by cases o <;> rfl
      have ho : ShiftOp.ofFields o.op.funct3 o.op.funct7 = some o :=
        ShiftOp.ofFields_eq_some_iff.mpr ⟨rfl, rfl⟩
      rw [decode_imm hop, Rv32i.encode, decodeImm, rType_funct3, himm, hset, rType_funct7, ho,
        rType_rd, rType_rs1, rType_rs2]
      rfl
  | lui d i => rw [decode_lui hop, Rv32i.encode, uType_rd, fieldU, uType_upper]
  | auipc d i => rw [decode_auipc hop, Rv32i.encode, uType_rd, fieldU, uType_upper]
  | jal d off => rw [decode_jal hop, Rv32i.encode, fieldJ_jType, jType, uType_rd]

/-- Every instruction decodes to itself. -/
theorem decode_encode (i : Instr) : decode i.encode = some i := by
  have hop := i.opcode_encode
  cases i with
  | compute i => exact decode_compute i
  | set o d r1 r2 =>
      have hm : ¬(0b0000000#7 = 0b0000001#7) := by decide
      have hreg : RegOp.ofFields o.funct3 0b0000000#7 = none := by cases o <;> rfl
      have ho : SetOp.ofFunct3 o.funct3 = some o := SetOp.ofFunct3_eq_some_iff.mpr rfl
      rw [decode_reg hop, Instr.encode, decodeReg, rType_funct7, rType_funct3, rType_rd,
        rType_rs1, rType_rs2, if_neg hm, hreg, ho]
      rfl
  | setImm o d r1 i =>
      have himm : ImmOp.ofFunct3 o.funct3 = none := by cases o <;> rfl
      have ho : SetOp.ofFunct3 o.funct3 = some o := SetOp.ofFunct3_eq_some_iff.mpr rfl
      rw [decode_imm hop, Instr.encode, decodeImm, iType_funct3, himm, ho, iType_rd, iType_rs1,
        fieldI_iType]
  | mulDiv f3 d r1 r2 =>
      rw [decode_reg hop, Instr.encode, decodeReg, rType_funct7, rType_funct3, rType_rd,
        rType_rs1, rType_rs2, if_pos rfl]
  | branch o r1 r2 off =>
      have ho : BranchOp.ofFunct3 o.funct3 = some o := BranchOp.ofFunct3_eq_some_iff.mpr rfl
      rw [decode_branch hop, Instr.encode, o.funct3_encode, ho, BranchOp.encode, fieldB_bType,
        bType, rType_rs1, rType_rs2]
      rfl
  | jalr d r1 i =>
      rw [decode_jalr hop, Instr.encode, iType_funct3, if_pos rfl, iType_rd, iType_rs1,
        fieldI_iType]
  | load o d r1 i =>
      have ho : LoadOp.ofFunct3 o.funct3 = some o := LoadOp.ofFunct3_eq_some_iff.mpr rfl
      rw [decode_load hop, Instr.encode, iType_funct3, ho, iType_rd, iType_rs1, fieldI_iType]
      rfl
  | store o r2 r1 i =>
      have ho : StoreOp.ofFunct3 o.funct3 = some o := StoreOp.ofFunct3_eq_some_iff.mpr rfl
      rw [decode_store hop, Instr.encode, fieldS_sType, sType, rType_funct3, ho, rType_rs1,
        rType_rs2]
      rfl
  | csrrw d r1 =>
      rw [decode_csr hop, Instr.encode, decodeCsr, fieldI_iType, iType_funct3, if_pos rfl,
        if_pos rfl, iType_rd, iType_rs1]
  | csrrwi d z =>
      have h1 : ¬(0b101#3 = 0b001#3) := by decide
      rw [decode_csr hop, Instr.encode, decodeCsr, fieldI_iType, iType_funct3, if_pos rfl,
        if_neg h1, if_pos rfl, iType_rd, iType_rs1]
  | fence d r1 i =>
      rw [decode_miscMem hop, Instr.encode, iType_funct3, if_pos rfl, iType_rd, iType_rs1,
        fieldI_iType]

/-- **The round trip.** A word decodes to an instruction exactly if it is its encoding. -/
theorem decode_eq_some_iff (w : Word) (i : Instr) : decode w = some i ↔ i.encode = w := by
  constructor
  · exact encode_of_decode
  · rintro rfl
    exact decode_encode i

end SmuRv32im
