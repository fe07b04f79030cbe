import SmuRv32im.Adder
import SmuRv32im.Controller

/-!
# The ALU and the Branch Decision

`alu` computes all of its results side by side and selects one by `ALUControl`: the
structural adder (on `b` or on its two's complement `~b + 1`), the bitwise operations,
the shifts, the comparisons and the RV32M multiplier and divider. Its flags feed
`branchLogic`, which turns them into `PCSrc`.

Two signals of the source feed each other: `SLT_result` is read off the flags, and the
flags of the RV32M operations are read off `result`. No value of `ALUControl` closes
the loop, so `alu` settles in one round from `SLT_result = 0`; `alu_settled` states that
the settled values satisfy both equations of the source.
-/

namespace SmuRv32im

/-! ### RV32M: multiplier and divider -/

/-- `mul_ss`: signed by signed. -/
def mulSS (a b : Word) : BitVec 64 := a.signExtend 64 * b.signExtend 64

/-- `mul_su`: signed by unsigned. -/
def mulSU (a b : Word) : BitVec 64 := a.signExtend 64 * b.setWidth 64

/-- `mul_uu`: unsigned by unsigned. -/
def mulUU (a b : Word) : BitVec 64 := a.setWidth 64 * b.setWidth 64

/-- The operand pairs on which signed division is undefined: a zero divisor, and the
quotient `-2^31 / -1`. -/
def signedDivUndefined (a b : Word) : Prop :=
  b = 0#32 ∨ (a = 0x80000000#32 ∧ b = 0xFFFFFFFF#32)

instance (a b : Word) : Decidable (signedDivUndefined a b) :=
  inferInstanceAs (Decidable (_ ∨ _))

/-- The operator `/` on signed operands. -/
def signedDiv (x : XValues) (a b : Word) : Word :=
  if signedDivUndefined a b then x.quotient else a.sdiv b

/-- The operator `%` on signed operands. -/
def signedRem (x : XValues) (a b : Word) : Word :=
  if signedDivUndefined a b then x.remainder else a.srem b

/-- The operator `/` on unsigned operands. -/
def unsignedDiv (x : XValues) (a b : Word) : Word :=
  if b = 0#32 then x.quotient else a.udiv b

/-- The operator `%` on unsigned operands. -/
def unsignedRem (x : XValues) (a b : Word) : Word :=
  if b = 0#32 then x.remainder else a.umod b

/-- The results of the divider block. -/
structure Divider where
  divS : Word
  remS : Word
  divU : Word
  remU : Word

/-- The divider block: the special cases, and the operators elsewhere. -/
def divider (x : XValues) (a b : Word) : Divider :=
  let s : Word × Word :=
    if b = 0#32 then (0xFFFFFFFF#32, a)
    else if a = 0x80000000#32 ∧ b = 0xFFFFFFFF#32 then (0x80000000#32, 0#32)
    else (signedDiv x a b, signedRem x a b)
  let u : Word × Word :=
    if b = 0#32 then (0xFFFFFFFF#32, a)
    else (unsignedDiv x a b, unsignedRem x a b)
  { divS := s.1, remS := s.2, divU := u.1, remU := u.2 }

/-! ### The ALU -/

/-- `cout_sub`: the carry out of the 33-bit subtraction `a + ~b + 1`. -/
def coutSub (a b : Word) : Bool :=
  (a.setWidth 33 + (~~~b).setWidth 33 + 1#33).getLsbD 32

/-- `add_sub_b`: the second adder input. -/
def addSubB (ctl : BitVec 5) (b : Word) : Word :=
  if ctl = 0b00001#5 ∨ ctl = 0b00101#5 ∨ ctl = 0b01001#5 ∨ ctl = 0b01010#5 then
    ~~~b + 1#32
  else b

/-- `u_add_32bit_add`. -/
def aluAdder (ctl : BitVec 5) (a b : Word) : Adder :=
  adder a (addSubB ctl b) false

/-- `SLTU_result`. -/
def sltuResult (a b : Word) : Word :=
  if coutSub a b = false then 1#32 else 0#32

/-- `result`, given `SLT_result`. -/
def aluResult (x : XValues) (ctl : BitVec 5) (a b sltResult : Word) : Word :=
  if ctl = 0b00000#5 then (aluAdder ctl a b).sum
  else if ctl = 0b00001#5 then (aluAdder ctl a b).sum
  else if ctl = 0b00010#5 then a &&& b
  else if ctl = 0b00011#5 then a ||| b
  else if ctl = 0b00100#5 then a ^^^ b
  else if ctl = 0b00101#5 then sltResult
  else if ctl = 0b00110#5 then a <<< b.extractLsb' 0 5
  else if ctl = 0b00111#5 then a >>> b.extractLsb' 0 5
  else if ctl = 0b01000#5 then a.sshiftRight' (b.extractLsb' 0 5)
  else if ctl = 0b01001#5 then sltuResult a b
  else if ctl = 0b10000#5 then (mulSS a b).extractLsb' 0 32
  else if ctl = 0b10001#5 then (mulSS a b).extractLsb' 32 32
  else if ctl = 0b10010#5 then (mulSU a b).extractLsb' 32 32
  else if ctl = 0b10011#5 then (mulUU a b).extractLsb' 32 32
  else if ctl = 0b10100#5 then (divider x a b).divS
  else if ctl = 0b10101#5 then (divider x a b).divU
  else if ctl = 0b10110#5 then (divider x a b).remS
  else if ctl = 0b10111#5 then (divider x a b).remU
  else x.result

/-- The flags `aN`, `aZ`, `aC`, `aV`. -/
structure Flags where
  aN : Bool
  aZ : Bool
  aC : Bool
  aV : Bool

/-- The flags of a result without carry and overflow. -/
def Flags.ofResult (r : Word) : Flags :=
  ⟨r.getLsbD 31, r == 0#32, false, false⟩

/-- The flags, given `result`. The branch for `SLTU` is shadowed by the first one, as
it is in the source. -/
def aluFlags (ctl : BitVec 5) (a b result : Word) : Flags :=
  let s := aluAdder ctl a b
  if ctl = 0b00000#5 ∨ ctl = 0b00001#5 ∨ ctl = 0b00101#5 ∨ ctl = 0b01001#5 then
    ⟨s.n, s.z, s.c, s.v⟩
  else if ctl = 0b00010#5 then Flags.ofResult (a &&& b)
  else if ctl = 0b00011#5 then Flags.ofResult (a ||| b)
  else if ctl = 0b00100#5 then Flags.ofResult (a ^^^ b)
  else if ctl = 0b00110#5 then Flags.ofResult (a <<< b.extractLsb' 0 5)
  else if ctl = 0b00111#5 then Flags.ofResult (a >>> b.extractLsb' 0 5)
  else if ctl = 0b01000#5 then Flags.ofResult (a.sshiftRight' (b.extractLsb' 0 5))
  else if ctl = 0b01010#5 then ⟨s.n, s.z, coutSub a b, s.v⟩
  else if ctl = 0b01001#5 then ⟨false, sltuResult a b == 0#32, coutSub a b, false⟩
  else if ctl.getLsbD 4 = true then Flags.ofResult result
  else ⟨false, false, false, false⟩

/-- `SLT_result`: the exclusive or of `aN` and `aV`, zero-extended. -/
def sltResult (f : Flags) : Word :=
  (BitVec.ofBool (f.aN ^^ f.aV)).setWidth 32

/-- The outputs of `alu`. -/
structure Alu where
  result : Word
  flags : Flags

/-- `alu`. -/
def alu (x : XValues) (a b : Word) (ctl : BitVec 5) : Alu :=
  let f := aluFlags ctl a b (aluResult x ctl a b 0#32)
  { result := aluResult x ctl a b (sltResult f), flags := f }

/-- **The ALU settles**: its outputs satisfy the two equations of the source that feed
each other. -/
theorem alu_settled (x : XValues) (a b : Word) (ctl : BitVec 5) :
    (alu x a b ctl).result = aluResult x ctl a b (sltResult (alu x a b ctl).flags) ∧
      (alu x a b ctl).flags = aluFlags ctl a b (alu x a b ctl).result := by
  refine ⟨rfl, ?_⟩
  by_cases h : ctl = 0b00101#5
  · subst h
    simp [alu, aluFlags]
  · simp only [alu, aluResult, h, if_false]

/-- `ALUControl = 00000` adds. -/
theorem alu_add (x : XValues) (a b : Word) : (alu x a b 0b00000#5).result = a + b :=
  adder_sum_false a b

/-! ### The branch decision -/

/-- `Btaken`. -/
def btaken (branch : Bool) (f3 : BitVec 3) (f : Flags) (srcB : Word) : Bool :=
  if f3 = 0b000#3 ∧ branch = true then f.aZ
  else if f3 = 0b001#3 ∧ branch = true then !f.aZ
  else if f3 = 0b100#3 ∧ branch = true then f.aN != f.aV
  else if f3 = 0b110#3 ∧ branch = true then srcB != 0#32 && !f.aC
  else if f3 = 0b111#3 ∧ branch = true then srcB != 0#32 && f.aC || srcB == 0#32
  else if f3 = 0b101#3 ∧ branch = true then f.aN == f.aV
  else false

/-- `Branch_Logic`: the selection `PCSrc` of the next program counter. -/
def branchLogic (branch jal jalr : Bool) (f3 : BitVec 3) (f : Flags) (srcB : Word) :
    BitVec 2 :=
  if btaken branch f3 f srcB = true then 0b01#2
  else if jal = true then 0b01#2
  else if jalr = true then 0b10#2
  else 0b00#2

/-- Only a branch can be a taken branch. -/
theorem btaken_false (f3 : BitVec 3) (f : Flags) (srcB : Word) :
    btaken false f3 f srcB = false := by
  simp [btaken]

/-- The program counter leaves the sequence exactly for a taken branch or a jump. -/
theorem branchLogic_ne_zero {branch jal jalr : Bool} {f3 : BitVec 3} {f : Flags}
    {srcB : Word} :
    branchLogic branch jal jalr f3 f srcB ≠ 0b00#2 ↔
      btaken branch f3 f srcB = true ∨ jal = true ∨ jalr = true := by
  unfold branchLogic
  cases btaken branch f3 f srcB <;> cases jal <;> cases jalr <;> simp

end SmuRv32im
