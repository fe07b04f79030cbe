import SmuRv32im.Lib.Partial
import SmuRv32im.InstructionSet
import SmuRv32im.MemoryAccess
import SmuRv32im.MulDiv
import SmuRv32im.ProgramCounter
import SmuRv32im.SignedCompare

/-!
# The RV32IM Machine

What software is written for: a hart with a program counter, thirty-two registers of which
register 0 is zero, a memory of bytes and the register `tohost`. `Hart.step` executes the
instruction its memory holds at the program counter. It has no next state where the
instruction set asks for an exception: for a word that is no instruction, and for a fetch,
a load or a store at a misaligned or unmapped address. The machine knows nothing of words,
lanes or cycles.

The peripherals are outside the hart: what a load from one of them finds is an input of the
step.
-/

namespace SmuRv32im

open ByteMemory (Mem load store)

/-! ### State -/

/-- The state of the hart. -/
@[ext]
structure Hart where
  pc : Word
  regs : RegFile
  mem : Mem 32
  tohost : Word
  zero : regs 0#5 = 0#32

/-- The pages of the timer and of the testbench manager. -/
def InDevice (addr : Word) : Prop :=
  addr.extractLsb' 12 20 = 0x80001#20 ∨ addr.extractLsb' 12 20 = 0x8000F#20

instance (addr : Word) : Decidable (InDevice addr) := inferInstanceAs (Decidable (_ ∨ _))

/-- The peripherals are outside the addresses of the RAM. -/
theorem InDevice.outside {addr : Word} (h : InDevice addr) : addr.extractLsb' 28 4 ≠ 0x1#4 := by
  have hnib : addr.extractLsb' 28 4 = (addr.extractLsb' 12 20).extractLsb' 16 4 := by
    rw [extract_extract addr 12 (by omega)]
  rw [hnib]
  obtain h | h := h
  · rw [h]
    decide
  · rw [h]
    decide

/-- An access of `n` bytes that raises no exception. -/
def Accessible (addr : Word) (n : ℕ) : Prop :=
  addr.toNat % n = 0 ∧ (InRam addr ∨ InDevice addr)

instance (addr : Word) (n : ℕ) : Decidable (Accessible addr n) :=
  inferInstanceAs (Decidable (_ ∧ _))

namespace Hart
variable (s : Hart) (io : Word)

/-- The hart at reset release: the registers and the memory are what they happen to be. -/
def reset (image : Ram) (rf : RegFile) : Hart :=
  ⟨0x10000000#32, rf.read, ramBytes image, 0#32, rfl⟩

/-- The registers after a write. -/
def setReg (d : BitVec 5) (v : Word) : RegFile :=
  fun i => if i = d ∧ d ≠ 0#5 then v else s.regs i

theorem setReg_zero (d : BitVec 5) (v : Word) : s.setReg d v 0#5 = 0#32 := by
  rw [setReg, if_neg, s.zero]
  rintro ⟨rfl, hd⟩
  exact hd rfl

/-- The value of a load: the bytes of the memory, or those of the word a device shows. -/
def loaded (o : LoadOp) (addr : Word) : Word :=
  extendLoad o.funct3
    (if InRam addr then load s.mem addr (accessBytes o.funct3)
    else (io.extractLsb' (8 * (addr.toNat % 4)) (8 * accessBytes o.funct3)).toNat)

/-- The word at the program counter. -/
def fetch : Word := BitVec.ofNat 32 (load s.mem s.pc 4)

end Hart

/-! ### Instructions -/

/-- What a comparison writes. -/
def SetOp.eval (a b : Word) : SetOp → Word
  | slt => if a.toInt < b.toInt then 1#32 else 0#32
  | sltu => if a.toNat < b.toNat then 1#32 else 0#32

/-- The condition of a branch. -/
def BranchOp.Holds (a b : Word) : BranchOp → Prop
  | beq => a = b
  | bne => a ≠ b
  | blt => a.toInt < b.toInt
  | bge => b.toInt ≤ a.toInt
  | bltu => a.toNat < b.toNat
  | bgeu => b.toNat ≤ a.toNat

instance (a b : Word) : (o : BranchOp) → Decidable (o.Holds a b)
  | .beq => inferInstanceAs (Decidable (a = b))
  | .bne => inferInstanceAs (Decidable (a ≠ b))
  | .blt => inferInstanceAs (Decidable (a.toInt < b.toInt))
  | .bge => inferInstanceAs (Decidable (b.toInt ≤ a.toInt))
  | .bltu => inferInstanceAs (Decidable (a.toNat < b.toNat))
  | .bgeu => inferInstanceAs (Decidable (b.toNat ≤ a.toNat))

namespace Instr
variable (s : Hart) (io : Word)

/-- The effective address of a load or store. -/
def addr (r1 : BitVec 5) (i : BitVec 12) : Word := s.regs r1 + i.signExtend 32

/-- The access of the instruction raises no exception. -/
def Permitted : Instr → Prop
  | load o _ r1 i => Accessible (addr s r1 i) (accessBytes o.funct3)
  | store o _ r1 i => Accessible (addr s r1 i) (accessBytes o.funct3)
  | _ => True

instance : (i : Instr) → Decidable (i.Permitted s)
  | load o _ r1 i => inferInstanceAs (Decidable (Accessible (addr s r1 i) (accessBytes o.funct3)))
  | store o _ r1 i => inferInstanceAs (Decidable (Accessible (addr s r1 i) (accessBytes o.funct3)))
  | compute .. | set .. | setImm .. | mulDiv .. | branch .. | jalr .. | csrrw .. | csrrwi ..
  | fence .. => inferInstanceAs (Decidable True)

/-- The registers after the instruction. -/
def regsAfter : Instr → RegFile
  | compute i => s.setReg i.dest (i.rdValue (s.regs i.source1) (s.regs i.source2) s.pc)
  | set o d r1 r2 => s.setReg d (o.eval (s.regs r1) (s.regs r2))
  | setImm o d r1 i => s.setReg d (o.eval (s.regs r1) (i.signExtend 32))
  | mulDiv f3 d r1 r2 => s.setReg d (SmuRv32im.mulDiv f3 (s.regs r1) (s.regs r2))
  | jalr d _ _ => s.setReg d (s.pc + 4#32)
  | load o d r1 i => s.setReg d (s.loaded io o (addr s r1 i))
  | csrrw d _ | csrrwi d _ => s.setReg d s.tohost
  | branch .. | store .. | fence .. => s.regs

/-- The address of the next instruction. -/
def pcAfter : Instr → Word
  | compute i => i.nextPC s.pc
  | branch o r1 r2 off =>
    if o.Holds (s.regs r1) (s.regs r2) then s.pc + byteOffset off else s.pc + 4#32
  | jalr _ r1 i => clearBit0 (s.regs r1 + i.signExtend 32)
  | _ => s.pc + 4#32

/-- The memory after the instruction. A device keeps what is stored to it for itself. -/
def memAfter : Instr → Mem 32
  | store o r2 r1 i =>
    if InRam (addr s r1 i) then
      ByteMemory.store s.mem (addr s r1 i) (accessBytes o.funct3) (s.regs r2)
    else s.mem
  | _ => s.mem

/-- The register `tohost` after the instruction. -/
def tohostAfter : Instr → Word
  | csrrw _ r1 => s.regs r1
  | csrrwi _ z => z.setWidth 32
  | _ => s.tohost

theorem regsAfter_zero (i : Instr) : i.regsAfter s io 0#5 = 0#32 := by
  cases i <;> first | exact s.setReg_zero _ _ | exact s.zero

end Instr

namespace Hart
variable (s : Hart) (io : Word)

/-- The hart after an instruction. -/
def exec (i : Instr) : Hart :=
  ⟨i.pcAfter s, i.regsAfter s io, i.memAfter s, i.tohostAfter s, i.regsAfter_zero s io⟩

/-- The instruction at the program counter, if there is one. -/
def instr? : Option Instr :=
  if InRam s.pc ∧ s.pc.toNat % 4 = 0 then decode s.fetch else none

/-- It is a matter of the program counter and the memory. -/
theorem instr?_congr {s s' : Hart} (hpc : s.pc = s'.pc) (hmem : s.mem = s'.mem) :
    s.instr? = s'.instr? := by
  rw [instr?, instr?, fetch, fetch, hpc, hmem]

/-- One instruction, if it raises no exception. -/
def step : Option Hart :=
  s.instr?.bind fun i => if i.Permitted s then some (s.exec io i) else none

theorem step_eq_some_iff {s' : Hart} :
    s.step io = some s' ↔ ∃ i, s.instr? = some i ∧ i.Permitted s ∧ s.exec io i = s' := by
  rw [step, Option.bind_eq_some_iff]
  simp only [Option.ite_none_right_eq_some, Option.some.injEq]

end Hart

/-! ### Devices -/

/-- The instruction keeps nothing of what a device shows. -/
def Instr.DeviceFree (s : Hart) : Instr → Prop
  | load _ d r1 i => InRam (addr s r1 i) ∨ d = 0#5
  | _ => True

instance (s : Hart) : (i : Instr) → Decidable (i.DeviceFree s)
  | .load _ d r1 i => inferInstanceAs (Decidable (InRam (Instr.addr s r1 i) ∨ d = 0#5))
  | .compute .. | .set .. | .setImm .. | .mulDiv .. | .branch .. | .jalr .. | .store ..
  | .csrrw .. | .csrrwi .. | .fence .. => inferInstanceAs (Decidable True)

theorem Instr.regsAfter_congr (s : Hart) {i : Instr} (h : i.DeviceFree s) (io io' : Word) :
    i.regsAfter s io = i.regsAfter s io' := by
  cases i with
  | load o d r1 imm =>
      obtain hin | hd : InRam (addr s r1 imm) ∨ d = 0#5 := h
      · rw [regsAfter, regsAfter, Hart.loaded, Hart.loaded, if_pos hin, if_pos hin]
      · funext r
        rw [regsAfter, regsAfter, Hart.setReg, Hart.setReg, if_neg fun h => h.2 hd,
          if_neg fun h => h.2 hd]
  | _ => rfl

/-- What the devices show matters to an instruction that keeps some of it, and to no other. -/
theorem Hart.step_congr (s : Hart) (h : ∀ i ∈ s.instr?, i.DeviceFree s) (io io' : Word) :
    s.step io = s.step io' := by
  rw [step, step]
  cases hi : s.instr? with
  | none => rfl
  | some i =>
      have hexec : s.exec io i = s.exec io' i := by
        simp only [exec, i.regsAfter_congr s (h i hi) io io']
      rw [Option.bind_some, Option.bind_some, hexec]

end SmuRv32im
