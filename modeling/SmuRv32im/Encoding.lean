import SmuRv32im.Controller

/-!
# Instruction Encoding

The instruction formats of RV32I as the instruction set defines them: a word is put together
from its fields, and the immediate of a jump or a branch is scattered over it. The decoder
takes the words apart again; the lemmas here say that it finds the fields it was given and
reassembles the immediates.

## Main results

* `rType_opcode`, `rType_rd`, `rType_funct3`, `rType_rs1`, `rType_rs2`, `rType_funct7`: the
  fields of an encoded word.
* `immI_iType`, `immB_bType`, `immU_uType`, `immJ_jType`: its immediates.
-/

namespace SmuRv32im

/-! ### The formats -/

/-- The R-type format. -/
def rType (f7 : BitVec 7) (r2 r1 : BitVec 5) (f3 : BitVec 3) (d : BitVec 5)
    (op : BitVec 7) : Word :=
  f7 ++ r2 ++ r1 ++ f3 ++ d ++ op

/-- The I-type format: a 12-bit immediate in the place of `funct7` and `rs2`. -/
def iType (imm : BitVec 12) (r1 : BitVec 5) (f3 : BitVec 3) (d : BitVec 5)
    (op : BitVec 7) : Word :=
  rType (imm.extractLsb' 5 7) (imm.extractLsb' 0 5) r1 f3 d op

/-- The B-type format: an offset in half words in the places of `funct7` and `rd`. Bit `i`
of `off` is bit `i + 1` of the offset in bytes. -/
def bType (off : BitVec 12) (r2 r1 : BitVec 5) (f3 : BitVec 3) (op : BitVec 7) : Word :=
  rType (off.extractLsb' 11 1 ++ off.extractLsb' 4 6) r2 r1 f3
    (off.extractLsb' 0 4 ++ off.extractLsb' 10 1) op

/-- The U-type format: the upper 20 bits of a word. -/
def uType (imm : BitVec 20) (d : BitVec 5) (op : BitVec 7) : Word := imm ++ d ++ op

/-- The J-type format: an offset in half words. -/
def jType (off : BitVec 20) (d : BitVec 5) (op : BitVec 7) : Word :=
  uType (off.extractLsb' 19 1 ++ off.extractLsb' 0 10 ++ off.extractLsb' 10 1 ++
    off.extractLsb' 11 8) d op

/-- An offset in half words as a number of bytes. -/
def byteOffset {n : ℕ} (off : BitVec n) : Word := (off ++ 0#1).signExtend 32

/-! ### Fields -/

section
variable (f7 op : BitVec 7) (r2 r1 d : BitVec 5) (f3 : BitVec 3)

theorem rType_opcode : opcode (rType f7 r2 r1 f3 d op) = op := by
  rw [opcode, rType, BitVec.extractLsb'_append_eq_right]

theorem rType_rd : rd (rType f7 r2 r1 f3 d op) = d := by
  rw [rd, rType, BitVec.extractLsb'_append_eq_of_le (by omega), BitVec.extractLsb'_append_eq_right]

theorem rType_funct3 : funct3 (rType f7 r2 r1 f3 d op) = f3 := by
  rw [funct3, rType, BitVec.extractLsb'_append_eq_of_le (by omega),
    BitVec.extractLsb'_append_eq_of_le (by omega), BitVec.extractLsb'_append_eq_right]

theorem rType_rs1 : rs1 (rType f7 r2 r1 f3 d op) = r1 := by
  rw [rs1, rType, BitVec.extractLsb'_append_eq_of_le (by omega),
    BitVec.extractLsb'_append_eq_of_le (by omega), BitVec.extractLsb'_append_eq_of_le (by omega),
    BitVec.extractLsb'_append_eq_right]

theorem rType_rs2 : rs2 (rType f7 r2 r1 f3 d op) = r2 := by
  rw [rs2, rType, BitVec.extractLsb'_append_eq_of_le (by omega),
    BitVec.extractLsb'_append_eq_of_le (by omega), BitVec.extractLsb'_append_eq_of_le (by omega),
    BitVec.extractLsb'_append_eq_of_le (by omega), BitVec.extractLsb'_append_eq_right]

theorem rType_funct7 : funct7 (rType f7 r2 r1 f3 d op) = f7 := by
  rw [funct7, rType, BitVec.extractLsb'_append_eq_of_le (by omega),
    BitVec.extractLsb'_append_eq_of_le (by omega), BitVec.extractLsb'_append_eq_of_le (by omega),
    BitVec.extractLsb'_append_eq_of_le (by omega), BitVec.extractLsb'_append_eq_left]

theorem uType_opcode (imm : BitVec 20) : opcode (uType imm d op) = op := by
  rw [opcode, uType, BitVec.extractLsb'_append_eq_right]

theorem uType_rd (imm : BitVec 20) : rd (uType imm d op) = d := by
  rw [rd, uType, BitVec.extractLsb'_append_eq_of_le (by omega), BitVec.extractLsb'_append_eq_right]

theorem uType_upper (imm : BitVec 20) : (uType imm d op).extractLsb' 12 20 = imm := by
  rw [uType, BitVec.extractLsb'_append_eq_of_le (by omega), BitVec.extractLsb'_append_eq_left]

/-! ### Immediates -/

/-- The immediate of an I-type word is sign-extended. -/
theorem immI_iType (imm : BitVec 12) : immI (iType imm r1 f3 d op) = imm.signExtend 32 := by
  have hfields : (iType imm r1 f3 d op).extractLsb' 20 12 =
      funct7 (iType imm r1 f3 d op) ++ rs2 (iType imm r1 f3 d op) := by
    rw [funct7, rs2, BitVec.extractLsb'_append_extractLsb'_eq_extractLsb' (by rfl)]
  rw [immI, hfields, iType, rType_funct7, rType_rs2,
    BitVec.extractLsb'_append_extractLsb'_eq_extractLsb' (by rfl), BitVec.extractLsb'_eq_self]

/-- The low bits of the immediate of a shift are the shift amount. -/
theorem immI_shamt (instr : Word) : (immI instr).extractLsb' 0 5 = rs2 instr := by
  refine BitVec.eq_of_getLsbD_eq ?_
  intro i hi
  have h12 : i < 12 := by omega
  have h32 : i < 32 := by omega
  simp only [immI, rs2, BitVec.getLsbD_extractLsb', BitVec.getLsbD_signExtend, hi, h12, h32,
    decide_true, Bool.true_and, Nat.zero_add, if_true]

/-- The immediate of a U-type word has twelve zeros behind it. -/
theorem immU_uType (imm : BitVec 20) : immU (uType imm d op) = imm ++ 0#12 := by
  rw [immU, uType_upper]

/-- The pieces of a branch offset come back in order. -/
theorem immB_bType (off : BitVec 12) : immB (bType off r2 r1 f3 op) = byteOffset off := by
  have h7 := rType_funct7 (off.extractLsb' 11 1 ++ off.extractLsb' 4 6) op r2 r1
    (off.extractLsb' 0 4 ++ off.extractLsb' 10 1) f3
  have hd := rType_rd (off.extractLsb' 11 1 ++ off.extractLsb' 4 6) op r2 r1
    (off.extractLsb' 0 4 ++ off.extractLsb' 10 1) f3
  have hpieces : ∀ w, immB w =
      ((funct7 w).extractLsb' 6 1 ++ (rd w).extractLsb' 0 1 ++ (funct7 w).extractLsb' 0 6 ++
        (rd w).extractLsb' 1 4 ++ 0#1).signExtend 32 := by
    intro w
    rw [immB, funct7, rd, extract_extract _ _ (by omega), extract_extract _ _ (by omega),
      extract_extract _ _ (by omega), extract_extract _ _ (by omega)]
  have hoff : off.extractLsb' 11 1 ++ off.extractLsb' 10 1 ++ off.extractLsb' 4 6 ++
      off.extractLsb' 0 4 = off := by
    rw [BitVec.extractLsb'_append_extractLsb'_eq_extractLsb' (by rfl),
      BitVec.extractLsb'_append_extractLsb'_eq_extractLsb' (by rfl),
      BitVec.extractLsb'_append_extractLsb'_eq_extractLsb' (by rfl), BitVec.extractLsb'_eq_self]
  rw [hpieces, bType, h7, hd, BitVec.extractLsb'_append_eq_left, BitVec.extractLsb'_append_eq_right,
    BitVec.extractLsb'_append_eq_right, BitVec.extractLsb'_append_eq_left]
  exact congrArg byteOffset hoff

/-- The pieces of a `jal` offset come back in order. -/
theorem immJ_jType (off : BitVec 20) : immJ (jType off d op) = byteOffset off := by
  have hpieces : ∀ w, immJ w =
      ((w.extractLsb' 12 20).extractLsb' 19 1 ++ (w.extractLsb' 12 20).extractLsb' 0 8 ++
        (w.extractLsb' 12 20).extractLsb' 8 1 ++ (w.extractLsb' 12 20).extractLsb' 9 10 ++
        0#1).signExtend 32 := by
    intro w
    rw [immJ, extract_extract _ _ (by omega), extract_extract _ _ (by omega),
      extract_extract _ _ (by omega), extract_extract _ _ (by omega)]
  have hoff : off.extractLsb' 19 1 ++ off.extractLsb' 11 8 ++ off.extractLsb' 10 1 ++
      off.extractLsb' 0 10 = off := by
    rw [BitVec.extractLsb'_append_extractLsb'_eq_extractLsb' (by rfl),
      BitVec.extractLsb'_append_extractLsb'_eq_extractLsb' (by rfl),
      BitVec.extractLsb'_append_extractLsb'_eq_extractLsb' (by rfl), BitVec.extractLsb'_eq_self]
  -- each piece is taken off the layers above it
  rw [hpieces, jType, uType_upper, BitVec.extractLsb'_append_eq_right,
    BitVec.extractLsb'_append_eq_of_le (by omega), BitVec.extractLsb'_append_eq_of_le (by omega),
    BitVec.extractLsb'_append_eq_left, BitVec.extractLsb'_append_eq_of_le (by omega),
    BitVec.extractLsb'_append_eq_right, BitVec.extractLsb'_append_eq_of_le (by omega),
    BitVec.extractLsb'_append_eq_of_le (by omega), BitVec.extractLsb'_append_eq_right]
  exact congrArg byteOffset hoff

end

-- `beq x0, x0, -4` and `jal x1, -4`
example : bType 0xFFE#12 0#5 0#5 0b000#3 opcBranch = 0xFE000EE3#32 := rfl

example : jType 0xFFFFE#20 1#5 opcJal = 0xFFDFF0EF#32 := rfl

end SmuRv32im
