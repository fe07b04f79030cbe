import SmuRv32im.Instruction

/-!
# Signed Comparison

`slt`, `slti`, `blt` and `bge` are decided by the flags `N` and `V` of `a + (~b + 1)`. The
negation is reduced to 32 bits before the addition, so for `b = -2^31`, whose negation is
`b` itself, the flags speak about `a - 2^31` instead of `a + 2^31`, and each of the three
register comparisons is wrong for every `a`. For all other `b` they are right. The
immediates of `slti` never reach that value.

## Main results

* `negative_iff`: what `N` and `V` tell after the ALU subtraction.
* `signedCompare_iff`: the comparison law holds for `a` and `b` exactly if
  `b` is not `-2^31`.
-/

namespace SmuRv32im

/-- The subtrahend whose negation overflows. -/
def minWord : Word := 0x80000000#32

/-- **The sign of the ALU subtraction.** `N` and `V` differ if `a < b`, and in any case if
`b` is `-2^31`. -/
theorem negative_iff (ctl : BitVec 5) (a b : Word) (hctl : addSubB ctl b = ~~~b + 1#32) :
    ((aluAdder ctl a b).n ^^ (aluAdder ctl a b).v) = true ↔
      b = minWord ∨ a.toInt < b.toInt := by
  have hneg : addSubB ctl b = -b := by rw [hctl, BitVec.neg_eq_not_add]
  rw [aluAdder, hneg, adder_n_xor_v, decide_eq_true_iff, Carry.signedSum_false]
  have ha := a.toInt_lt
  by_cases hb : b = minWord
  · subst hb
    have hmin : (-minWord).toInt = -2 ^ 31 := by simp [minWord]
    rw [hmin]
    simp only [true_or, iff_true]
    omega
  · rw [BitVec.toInt_neg_of_ne_intMin hb]
    simp only [hb, false_or]
    omega

/-! ### The instructions -/

section
variable (x : XValues) (instr a b pc data : Word)

/-- `slt`. -/
def IsSlt : Prop :=
  opcode instr = opcAriRtype ∧ funct3 instr = 0b010#3 ∧ funct7 instr = 0b0000000#7

/-- `slti`. -/
def IsSlti : Prop := opcode instr = opcAriItype ∧ funct3 instr = 0b010#3

/-- `blt`. -/
def IsBlt : Prop := opcode instr = opcBranch ∧ funct3 instr = 0b100#3

/-- `bge`. -/
def IsBge : Prop := opcode instr = opcBranch ∧ funct3 instr = 0b101#3

/-- The ALU result of a signed set-less-than. -/
theorem alu_slt : (alu x a b 0b00101#5).result =
    if b = minWord ∨ a.toInt < b.toInt then 1#32 else 0#32 := by
  have hres : (alu x a b 0b00101#5).result =
      (BitVec.ofBool ((aluAdder 0b00101#5 a b).n ^^ (aluAdder 0b00101#5 a b).v)).setWidth 32 :=
    rfl
  have hneg := negative_iff 0b00101#5 a b rfl
  rw [hres]
  split_ifs with h
  · rw [hneg.mpr h]
    rfl
  · rw [eq_false_of_ne_true fun hn => h (hneg.mp hn)]
    rfl

theorem writesRd_slt (h : IsSlt instr) : WritesRd x instr a b pc data
    (if b = minWord ∨ a.toInt < b.toInt then 1#32 else 0#32) := by
  obtain ⟨hop, h3, h7⟩ := h
  rw [writesRd_rType _ _ _ _ _ _ hop, h3, h7]
  exact alu_slt x a b

/-- `slti` compares with the immediate, which is not `-2^31`. -/
theorem writesRd_slti (h : IsSlti instr) : WritesRd x instr a b pc data
    (if a.toInt < (immI instr).toInt then 1#32 else 0#32) := by
  obtain ⟨hop, h3⟩ := h
  have himm : immI instr ≠ minWord := by
    intro himm
    have hlow : (immI instr).toInt = minWord.toInt := congrArg BitVec.toInt himm
    rw [immI, BitVec.toInt_signExtend_of_le (by omega)] at hlow
    have hle := (instr.extractLsb' 20 12).le_toInt
    simp [hlow, minWord] at hle
  have halu := alu_slt x a (immI instr)
  simp only [himm, false_or] at halu
  rw [writesRd_iType _ _ _ _ _ _ hop, h3]
  exact halu

theorem taken_blt (h : IsBlt instr) :
    Taken x instr a b pc ↔ b = minWord ∨ a.toInt < b.toInt := by
  obtain ⟨hop, h3⟩ := h
  rw [taken_branch _ _ _ _ _ hop, h3, ← negative_iff 0b00001#5 a b rfl]
  have hbt : btaken true 0b100#3
      (alu x a b (aludec x opcBranch 0b100#3 (funct7 instr) 0b01#2)).flags b =
        ((aluAdder 0b00001#5 a b).n ^^ (aluAdder 0b00001#5 a b).v) := rfl
  rw [hbt]

theorem taken_bge (h : IsBge instr) :
    Taken x instr a b pc ↔ ¬(b = minWord ∨ a.toInt < b.toInt) := by
  obtain ⟨hop, h3⟩ := h
  rw [taken_branch _ _ _ _ _ hop, h3, ← negative_iff 0b00001#5 a b rfl]
  have hbt : btaken true 0b101#3
      (alu x a b (aludec x opcBranch 0b101#3 (funct7 instr) 0b01#2)).flags b =
        ((aluAdder 0b00001#5 a b).n == (aluAdder 0b00001#5 a b).v) := rfl
  rw [hbt]
  cases (aluAdder 0b00001#5 a b).n <;> cases (aluAdder 0b00001#5 a b).v <;> simp

end

/-- **The signed comparison law** for the operands `a` and `b`, over all words and
addresses. -/
def SignedCompareLaw (x : XValues) (a b : Word) : Prop :=
  ∀ instr pc data,
    (IsSlt instr → WritesRd x instr a b pc data
      (if a.toInt < b.toInt then 1#32 else 0#32)) ∧
    (IsSlti instr → WritesRd x instr a b pc data
      (if a.toInt < (immI instr).toInt then 1#32 else 0#32)) ∧
    (IsBlt instr → (Taken x instr a b pc ↔ a.toInt < b.toInt)) ∧
    (IsBge instr → (Taken x instr a b pc ↔ b.toInt ≤ a.toInt))

/-- No word is below `-2^31`. -/
theorem not_lt_minWord (a : Word) : ¬a.toInt < minWord.toInt := by
  have hle := a.le_toInt
  have hmin : minWord.toInt = -2 ^ 31 := by simp [minWord]
  omega

/-- **When signed comparison is right**: the law holds for `a` and `b` exactly if `b` is not
`-2^31`. -/
theorem signedCompare_iff (x : XValues) (a b : Word) :
    SignedCompareLaw x a b ↔ b ≠ minWord := by
  constructor
  · rintro h rfl
    -- `blt x1, x2, 0`
    have hblt : IsBlt 0x0020C063#32 := by simp [IsBlt, opcode, funct3]
    obtain ⟨-, -, hlaw, -⟩ := h 0x0020C063#32 0#32 0#32
    have htaken := (taken_blt x 0x0020C063#32 a minWord 0#32 hblt).mpr (Or.inl rfl)
    exact not_lt_minWord a ((hlaw hblt).mp htaken)
  · intro hb instr pc data
    refine ⟨?_, ?_, ?_, ?_⟩
    · intro h
      have hslt := writesRd_slt x instr a b pc data h
      simp only [hb, false_or] at hslt
      exact hslt
    · intro h
      exact writesRd_slti x instr a b pc data h
    · intro h
      rw [taken_blt x instr a b pc h]
      simp only [hb, false_or]
    · intro h
      rw [taken_bge x instr a b pc h]
      simp only [hb, false_or, not_lt]

/-- `slt x3, x1, x2` finds zero below `-2^31`. -/
theorem slt_zero_minWord :
    ¬SignedCompareLaw ⟨0#3, 0#5, 0#32, 0#32, 0#32⟩ 0#32 minWord := by
  intro h
  have hslt : IsSlt 0x0020A1B3#32 := by simp [IsSlt, opcode, funct3, funct7]
  obtain ⟨hlaw, -⟩ := h 0x0020A1B3#32 0#32 0#32
  obtain ⟨-, hzero⟩ := hlaw hslt
  obtain ⟨-, hone⟩ :=
    writesRd_slt ⟨0#3, 0#5, 0#32, 0#32, 0#32⟩ 0x0020A1B3#32 0#32 minWord 0#32 0#32 hslt
  rw [if_neg (not_lt_minWord 0#32)] at hzero
  rw [if_pos (Or.inl rfl), hzero] at hone
  simp at hone

end SmuRv32im
