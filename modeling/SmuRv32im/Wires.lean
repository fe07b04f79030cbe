import Mathlib.Data.Nat.Notation
import Mathlib.Logic.Function.Basic

/-!
# Words, Instruction Fields, Multiplexers and Flip-Flops

The vocabulary the modules of the design are written in. A bus is a `BitVec`, a single
wire a `Bool`. The flip-flops of the design are clocked by one clock; their
asynchronous reset is active before cycle `0` only, so a flip-flop is its reset value
together with the function below that gives its next value.

Where the source assigns an `x` literal, or leaves a value undefined, the hardware and
a simulator may put any value there. `XValues` carries these choices: every definition
that meets an `x` takes one, and the results hold for all of them.
-/

namespace SmuRv32im

/-- A 32-bit bus. -/
abbrev Word := BitVec 32

/-- What stands in for the `x` values of the source: the don't-care `ImmSrc` of an
R-type instruction, the undecoded `ALUControl`, the undefined ALU `result`, and the
quotient and remainder of an undefined division. -/
structure XValues where
  immSrc : BitVec 3
  aluControl : BitVec 5
  result : Word
  quotient : Word
  remainder : Word

/-! ### Instruction fields -/

/-- `Instr[6:0]`. -/
def opcode (instr : Word) : BitVec 7 := instr.extractLsb' 0 7

/-- `Instr[11:7]`. -/
def rd (instr : Word) : BitVec 5 := instr.extractLsb' 7 5

/-- `Instr[14:12]`. -/
def funct3 (instr : Word) : BitVec 3 := instr.extractLsb' 12 3

/-- `Instr[19:15]`. -/
def rs1 (instr : Word) : BitVec 5 := instr.extractLsb' 15 5

/-- `Instr[24:20]`. -/
def rs2 (instr : Word) : BitVec 5 := instr.extractLsb' 20 5

/-- `Instr[31:25]`. -/
def funct7 (instr : Word) : BitVec 7 := instr.extractLsb' 25 7

/-! ### Multiplexers and flip-flops -/

/-- `mux2`. -/
def mux2 (in0 in1 : Word) (sel : Bool) : Word :=
  if sel then in1 else in0

/-- `mux3`: the fourth selection gives zero. -/
def mux3 (in0 in1 in2 : Word) (sel : BitVec 2) : Word :=
  if sel = 0b00#2 then in0
  else if sel = 0b01#2 then in1
  else if sel = 0b10#2 then in2
  else 0#32

@[simp] theorem mux2_false (in0 in1 : Word) : mux2 in0 in1 false = in0 := rfl

@[simp] theorem mux2_true (in0 in1 : Word) : mux2 in0 in1 true = in1 := rfl

@[simp] theorem mux3_00 (in0 in1 in2 : Word) : mux3 in0 in1 in2 0b00#2 = in0 := rfl

@[simp] theorem mux3_01 (in0 in1 in2 : Word) : mux3 in0 in1 in2 0b01#2 = in1 := rfl

@[simp] theorem mux3_10 (in0 in1 in2 : Word) : mux3 in0 in1 in2 0b10#2 = in2 := rfl

variable {α : Type*}

/-- `flopenr` out of reset: the next value of an enabled flip-flop holding `q`. -/
def flopenr (en : Bool) (d q : α) : α :=
  if en then d else q

/-- `flopr` out of reset: the flip-flop takes its input in every cycle. -/
def flopr (d : α) : α := d

@[simp] theorem flopenr_true (d q : α) : flopenr true d q = d := rfl

@[simp] theorem flopenr_false (d q : α) : flopenr false d q = q := rfl

@[simp] theorem flopr_eq (d : α) : flopr d = d := rfl

end SmuRv32im
