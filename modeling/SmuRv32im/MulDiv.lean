import SmuRv32im.Instruction

/-!
# RV32M

The eight multiply and divide instructions against their definition on integers
(`mulDiv`). The multiplier works modulo `2^64` on extended operands, which is enough: the
slices of a product modulo `2^64` are those of the exact product. The divider screens the
operand pairs on which the operators `/` and `%` are undefined before it evaluates them, so
its results do not depend on what the operators give there.

## Main results

* `high_ofInt`, `low_ofInt`: the two halves of a 64-bit word given by an integer.
* `alu_mulDiv`: the ALU computes `mulDiv`.
* `mulDiv_signed`, `mulDiv_unsigned`: quotient times divisor plus remainder is the dividend.
-/

namespace SmuRv32im

/-! ### The definition -/

/-- The RV32M instructions by their `funct3`, on the integer values of the operands. -/
def mulDiv (f3 : BitVec 3) (a b : Word) : Word :=
  if f3 = 0b000#3 then BitVec.ofInt 32 (a.toInt * b.toInt)
  else if f3 = 0b001#3 then BitVec.ofInt 32 (a.toInt * b.toInt / 2 ^ 32)
  else if f3 = 0b010#3 then BitVec.ofInt 32 (a.toInt * (b.toNat : ℤ) / 2 ^ 32)
  else if f3 = 0b011#3 then BitVec.ofNat 32 (a.toNat * b.toNat / 2 ^ 32)
  else if f3 = 0b100#3 then
    if b = 0#32 then BitVec.allOnes 32
    else if a.toInt = -2 ^ 31 ∧ b.toInt = -1 then BitVec.ofInt 32 (-2 ^ 31)
    else BitVec.ofInt 32 (a.toInt.tdiv b.toInt)
  else if f3 = 0b101#3 then
    if b = 0#32 then BitVec.allOnes 32 else BitVec.ofNat 32 (a.toNat / b.toNat)
  else if f3 = 0b110#3 then
    if b = 0#32 then a
    else if a.toInt = -2 ^ 31 ∧ b.toInt = -1 then 0#32
    else BitVec.ofInt 32 (a.toInt.tmod b.toInt)
  else if b = 0#32 then a
  else BitVec.ofNat 32 (a.toNat % b.toNat)

section
variable (a b : Word)

theorem mulDiv_div : mulDiv 0b100#3 a b =
    if b = 0#32 then BitVec.allOnes 32
    else if a.toInt = -2 ^ 31 ∧ b.toInt = -1 then BitVec.ofInt 32 (-2 ^ 31)
    else BitVec.ofInt 32 (a.toInt.tdiv b.toInt) := rfl

theorem mulDiv_divu : mulDiv 0b101#3 a b =
    if b = 0#32 then BitVec.allOnes 32 else BitVec.ofNat 32 (a.toNat / b.toNat) := rfl

theorem mulDiv_rem : mulDiv 0b110#3 a b =
    if b = 0#32 then a
    else if a.toInt = -2 ^ 31 ∧ b.toInt = -1 then 0#32
    else BitVec.ofInt 32 (a.toInt.tmod b.toInt) := rfl

theorem mulDiv_remu : mulDiv 0b111#3 a b =
    if b = 0#32 then a else BitVec.ofNat 32 (a.toNat % b.toNat) := rfl

end

/-- The overflowing pair, by its integers and by its bits. -/
theorem overflow_iff (a b : Word) :
    (a.toInt = -2 ^ 31 ∧ b.toInt = -1) ↔ (a = 0x80000000#32 ∧ b = 0xFFFFFFFF#32) := by
  constructor
  · rintro ⟨ha, hb⟩
    constructor
    · refine BitVec.eq_of_toInt_eq ?_
      simp [ha]
    · refine BitVec.eq_of_toInt_eq ?_
      simp [hb]
  · rintro ⟨rfl, rfl⟩
    simp

/-! ### The multiplier -/

/-- The low half of a 64-bit word given by an integer. -/
theorem low_ofInt (p : ℤ) : (BitVec.ofInt 64 p).extractLsb' 0 32 = BitVec.ofInt 32 p := by
  refine BitVec.eq_of_toNat_eq ?_
  rw [BitVec.extractLsb'_toNat, BitVec.toNat_ofInt, BitVec.toNat_ofInt, Nat.shiftRight_zero]
  omega

/-- The high half of a 64-bit word given by an integer. -/
theorem high_ofInt (p : ℤ) :
    (BitVec.ofInt 64 p).extractLsb' 32 32 = BitVec.ofInt 32 (p / 2 ^ 32) := by
  refine BitVec.eq_of_toNat_eq ?_
  rw [BitVec.extractLsb'_toNat, BitVec.toNat_ofInt, BitVec.toNat_ofInt,
    Nat.shiftRight_eq_div_pow]
  omega

/-- A zero-extended word is given by its unsigned value. -/
theorem setWidth_eq_ofInt (b : Word) : b.setWidth 64 = BitVec.ofInt 64 b.toNat := by
  rw [BitVec.ofInt_natCast, BitVec.ofNat_toNat]

theorem mulSS_eq (a b : Word) : mulSS a b = BitVec.ofInt 64 (a.toInt * b.toInt) := by
  rw [mulSS, BitVec.ofInt_mul]
  rfl

theorem mulSU_eq (a b : Word) : mulSU a b = BitVec.ofInt 64 (a.toInt * (b.toNat : ℤ)) := by
  rw [mulSU, BitVec.ofInt_mul, setWidth_eq_ofInt]
  rfl

theorem mulUU_eq (a b : Word) : mulUU a b = BitVec.ofInt 64 ((a.toNat * b.toNat : ℕ) : ℤ) := by
  rw [mulUU, Int.natCast_mul, BitVec.ofInt_mul, setWidth_eq_ofInt, setWidth_eq_ofInt]

/-! ### The divider -/

section
variable (x : XValues) (a b : Word)

/-- The signed results of the divider. -/
theorem divider_signed :
    (divider x a b).divS = mulDiv 0b100#3 a b ∧ (divider x a b).remS = mulDiv 0b110#3 a b := by
  rw [mulDiv_div, mulDiv_rem, divider]
  by_cases hb : b = 0#32
  · simp [hb, BitVec.allOnes]
  · by_cases hov : a = 0x80000000#32 ∧ b = 0xFFFFFFFF#32
    · obtain ⟨rfl, rfl⟩ := hov
      exact ⟨rfl, rfl⟩
    · have hdef : ¬signedDivUndefined a b := fun h => h.elim hb hov
      have hne : a ≠ BitVec.intMin 32 ∨ b ≠ -1#32 := by
        by_contra hne
        rw [not_or, not_not, not_not] at hne
        exact hov hne
      have hov' : ¬(a.toInt = -2 ^ 31 ∧ b.toInt = -1) := fun h => hov ((overflow_iff a b).mp h)
      simp only [hb, hov, hov', if_false, signedDiv, signedRem, hdef]
      rw [← BitVec.toInt_sdiv_of_ne_or_ne a b hne, ← BitVec.toInt_srem, BitVec.ofInt_toInt,
        BitVec.ofInt_toInt]
      exact ⟨rfl, rfl⟩

/-- The unsigned results of the divider. -/
theorem divider_unsigned :
    (divider x a b).divU = mulDiv 0b101#3 a b ∧ (divider x a b).remU = mulDiv 0b111#3 a b := by
  rw [mulDiv_divu, mulDiv_remu, divider]
  by_cases hb : b = 0#32
  · simp [hb, BitVec.allOnes]
  · simp only [hb, if_false, unsignedDiv, unsignedRem]
    refine ⟨BitVec.eq_of_toNat_eq ?_, BitVec.eq_of_toNat_eq ?_⟩
    · rw [BitVec.udiv_eq, BitVec.toNat_udiv, BitVec.toNat_ofNat, Nat.mod_eq_of_lt]
      exact lt_of_le_of_lt (Nat.div_le_self _ _) a.isLt
    · rw [BitVec.umod_eq, BitVec.toNat_umod, BitVec.toNat_ofNat, Nat.mod_eq_of_lt (a := _ % _)]
      exact lt_of_le_of_lt (Nat.mod_le a.toNat b.toNat) a.isLt

/-- All results of the divider. The values of `x` do not occur: the operators are never
evaluated where they are undefined. -/
theorem divider_eq_mulDiv : divider x a b =
    ⟨mulDiv 0b100#3 a b, mulDiv 0b110#3 a b, mulDiv 0b101#3 a b, mulDiv 0b111#3 a b⟩ := by
  obtain ⟨hdivS, hremS⟩ := divider_signed x a b
  obtain ⟨hdivU, hremU⟩ := divider_unsigned x a b
  rw [← hdivS, ← hremS, ← hdivU, ← hremU]

/-! ### The ALU -/

/-- The ALU decoder numbers the eight instructions by their `funct3`. -/
theorem aludec_mulDiv (f3 : BitVec 3) :
    aludec x opcAriRtype f3 0b0000001#7 0b10#2 = 0b10#2 ++ f3 := by
  revert f3
  simp only [aludec, BitVec.reduceEq, and_self, if_false, if_true]
  decide

/-- **The ALU computes the RV32M definition.** -/
theorem alu_mulDiv (f3 : BitVec 3) : (alu x a b (0b10#2 ++ f3)).result = mulDiv f3 a b := by
  obtain ⟨hdivS, hremS⟩ := divider_signed x a b
  obtain ⟨hdivU, hremU⟩ := divider_unsigned x a b
  obtain rfl | rfl | rfl | rfl | rfl | rfl | rfl | rfl :
      f3 = 0b000#3 ∨ f3 = 0b001#3 ∨ f3 = 0b010#3 ∨ f3 = 0b011#3 ∨ f3 = 0b100#3 ∨
        f3 = 0b101#3 ∨ f3 = 0b110#3 ∨ f3 = 0b111#3 := by
    revert f3
    decide
  · change (mulSS a b).extractLsb' 0 32 = _
    rw [mulSS_eq, low_ofInt]
    rfl
  · change (mulSS a b).extractLsb' 32 32 = _
    rw [mulSS_eq, high_ofInt]
    rfl
  · change (mulSU a b).extractLsb' 32 32 = _
    rw [mulSU_eq, high_ofInt]
    rfl
  · change (mulUU a b).extractLsb' 32 32 = _
    rw [mulUU_eq, high_ofInt]
    rfl
  · exact hdivS
  · exact hdivU
  · exact hremS
  · exact hremU

end

/-! ### Quotient and remainder -/

/-- The signed quotient and remainder belong together. -/
theorem mulDiv_signed (a b : Word) : mulDiv 0b100#3 a b * b + mulDiv 0b110#3 a b = a := by
  rw [mulDiv_div, mulDiv_rem]
  split_ifs with hb hov
  · rw [hb, BitVec.mul_zero, BitVec.zero_add]
  · obtain ⟨rfl, rfl⟩ := (overflow_iff a b).mp hov
    decide
  · calc BitVec.ofInt 32 (a.toInt.tdiv b.toInt) * b + BitVec.ofInt 32 (a.toInt.tmod b.toInt)
        = BitVec.ofInt 32 (a.toInt.tdiv b.toInt) * BitVec.ofInt 32 b.toInt +
            BitVec.ofInt 32 (a.toInt.tmod b.toInt) := by rw [BitVec.ofInt_toInt]
      _ = BitVec.ofInt 32 (a.toInt.tdiv b.toInt * b.toInt + a.toInt.tmod b.toInt) := by
          rw [BitVec.ofInt_add, BitVec.ofInt_mul]
      _ = a := by rw [Int.tdiv_mul_add_tmod, BitVec.ofInt_toInt]

/-- The unsigned quotient and remainder belong together. -/
theorem mulDiv_unsigned (a b : Word) : mulDiv 0b101#3 a b * b + mulDiv 0b111#3 a b = a := by
  rw [mulDiv_divu, mulDiv_remu]
  split_ifs with hb
  · rw [hb, BitVec.mul_zero, BitVec.zero_add]
  · calc BitVec.ofNat 32 (a.toNat / b.toNat) * b + BitVec.ofNat 32 (a.toNat % b.toNat)
        = BitVec.ofNat 32 (a.toNat / b.toNat) * BitVec.ofNat 32 b.toNat +
            BitVec.ofNat 32 (a.toNat % b.toNat) := by
          rw [BitVec.ofNat_toNat 32 b, BitVec.setWidth_eq]
      _ = BitVec.ofNat 32 (a.toNat / b.toNat * b.toNat + a.toNat % b.toNat) := by
          rw [BitVec.ofNat_add, BitVec.ofNat_mul]
      _ = a := by
          rw [Nat.div_add_mod', BitVec.ofNat_toNat, BitVec.setWidth_eq]

/-- **RV32M.** For all operands, a word with the opcode of the register-register
instructions and `funct7 = 0000001` writes what RV32M defines for its `funct3`; in both
pairs the quotient times the divisor plus the remainder is the dividend; and no result
depends on the value of an undefined division. -/
theorem rv32m_semantics (x : XValues) (a b : Word) :
    (∀ instr pc data, opcode instr = opcAriRtype → funct7 instr = 0b0000001#7 →
      WritesRd x instr a b pc data (mulDiv (funct3 instr) a b)) ∧
    mulDiv 0b100#3 a b * b + mulDiv 0b110#3 a b = a ∧
    mulDiv 0b101#3 a b * b + mulDiv 0b111#3 a b = a ∧
    (∀ x', divider x' a b = divider x a b) := by
  refine ⟨?_, mulDiv_signed a b, mulDiv_unsigned a b, ?_⟩
  · intro instr pc data hop h7
    rw [writesRd_rType x instr a b pc data hop, h7, aludec_mulDiv, alu_mulDiv]
  · intro x'
    rw [divider_eq_mulDiv, divider_eq_mulDiv]

end SmuRv32im
