import SmuRv32im.Forwarding
import SmuRv32im.Instruction

/-!
# The Sequential Machine

What the pipeline implements: a machine that executes one instruction at a time through
the same combinational blocks, with no overlap. Its state `Arch` is what software can
observe. The one value it cannot compute is what the timer shows to a load, which depends
on the cycle; that value is an input of the step.

The pipeline fetches an instruction before the ones ahead of it have written memory.
`Shadowed S i j` says which instructions `i` are too close to `j` for their stores to be
seen by the fetch of `j`, and `FreshFetch S j` that none of these stores hits the word of
`j`. The instruction set has no `fence.i` to keep them apart.
-/

namespace SmuRv32im

/-- The state of the sequential machine. -/
structure Arch where
  pc : Word
  rf : RegFile
  mem : Ram
  irqForce : BitVec 16
  tohost : Word

namespace Arch
variable (x : XValues) (d : Defines) (a : Arch) (timer : Word)

/-- The machine at reset release. -/
def reset (image : Ram) (rf : RegFile) : Arch := ⟨0x10000000#32, rf, image, 0#16, 0#32⟩

/-- The instruction word. -/
def instr : Word := a.mem (ramAddr a.pc)

/-- The sequential next address. -/
def pcPlus4 : Word := (adder a.pc 4#32 false).sum

/-- The first source register. -/
def rd1 : Word := a.rf.read (rs1 a.instr)

/-- The second source register. -/
def rd2 : Word := a.rf.read (rs2 a.instr)

/-- The decoded instruction. -/
def de : StageDE := execDE x a.instr a.rd1 a.rd2 a.pc

/-- What execution hands to the memory access. -/
def em : StageEM := (a.de x).toEM x a.rd1 a.rd2

/-- The memory bus. -/
def busOut : BusOut := (a.em x).busOut

/-- The chip selects. -/
def select : ChipSelect := addrDecoder (a.busOut x).addr

/-- The word on the read bus, given what the timer shows. -/
def readData : Word :=
  dataMux (a.select x).csTimerN (a.select x).csTbmanN timer
    (tbmanRdata d a.irqForce ((a.busOut x).addr.extractLsb' 0 16))
    (a.mem (ramAddr (a.busOut x).addr))

/-- What the memory access hands to the register write. -/
def mw : StageMW := execMW x a.instr a.rd1 a.rd2 a.pc (a.readData x d timer)

/-- One instruction. -/
def next : Arch :=
  { pc := (a.de x).pcNext x a.rd1 a.rd2 a.pcPlus4
    rf := a.rf.write (a.mw x d timer).regWriteW (rd a.instr) (a.mw x d timer).result
    mem := asyncRamDpWbe a.mem ((a.busOut x).memWrite && !(a.select x).csMemN)
      (ramAddr (a.busOut x).addr) (a.busOut x).byteEnable (a.busOut x).writeData
    irqForce := tbmanIrqForce (!(a.select x).csTbmanN) (a.busOut x).memWrite
      ((a.busOut x).addr.extractLsb' 0 16) (a.busOut x).writeData a.irqForce
    tohost := csr (a.de x).csrE a.rd1 (a.de x).immExtE a.instr a.tohost }

/-- The instruction is a taken branch or a jump. -/
def Transfers : Prop := (a.de x).Transfers x a.rd1 a.rd2

/-- The bus write of the instruction. -/
def busWrite : Option (Word × Word × BitVec 4) :=
  if (a.busOut x).memWrite = true then
    some ((a.busOut x).addr, (a.busOut x).writeData, (a.busOut x).byteEnable)
  else none

/-- The write of the instruction to `tohost`. -/
def tohostWrite : Option Word :=
  if (a.de x).csrE = true then
    some (csr true a.rd1 (a.de x).immExtE a.instr a.tohost)
  else none

theorem decoded : (a.de x).Decoded x := rfl

/-- Without a transfer of control the machine goes on to the next word. -/
theorem next_pc_of_not_transfers (h : ¬a.Transfers x) :
    (a.next x d timer).pc = a.pcPlus4 := by
  have hp : (a.de x).pcSrc x a.rd1 a.rd2 = 0b00#2 := by
    by_contra hp
    exact h (((a.decoded x).pcSrc_iff _ _).mp hp)
  rw [next, StageDE.pcNext, hp, mux3_00]

/-- What the timer shows matters to an instruction that addresses it, and to no other. -/
theorem next_eq_of_csTimerN (h : (a.select x).csTimerN = true) (timer timer' : Word) :
    a.next x d timer = a.next x d timer' := by
  have hread : a.readData x d timer = a.readData x d timer' := by
    rw [readData, readData, h, dataMux, dataMux, if_neg Bool.true_eq_false.mp,
      if_neg Bool.true_eq_false.mp]
  rw [next, next, mw, mw, hread]

end Arch

/-- The states of the sequential machine, given what the timer shows to each instruction. -/
def Boot.arch (b : Boot) (timer : ℕ → Word) : ℕ → Arch :=
  Clocked.run (fun k a => a.next b.x b.defines (timer k)) (Arch.reset b.image b.rf)

theorem Boot.arch_succ (b : Boot) (timer : ℕ → Word) (k : ℕ) :
    b.arch timer (k + 1) = (b.arch timer k).next b.x b.defines (timer k) := rfl

/-- A sequential run that leaves the timer alone does not depend on what it shows. -/
theorem Boot.arch_eq_of_csTimerN (b : Boot) (timer timer' : ℕ → Word) {n : ℕ}
    (h : ∀ k, k < n → ((b.arch timer' k).select b.x).csTimerN = true) :
    b.arch timer n = b.arch timer' n := by
  induction n with
  | zero => rfl
  | succ n ih =>
      rw [b.arch_succ, b.arch_succ, ih fun k hk => h k (Nat.lt_succ_of_lt hk)]
      exact Arch.next_eq_of_csTimerN _ _ _ (h n (Nat.lt_succ_self n)) _ _

/-! ### Stores to the instructions ahead -/

section
variable (x : XValues) (S : ℕ → Arch) (i j : ℕ)

/-- Instruction `j` is fetched before the store of instruction `i` is in memory: `j` is the
next instruction, or one of the two after it if no transfer of control comes between them
and, for the second of these, no load-use stall. -/
def Shadowed : Prop :=
  j = i + 1 ∨
  (j = i + 2 ∧ ¬(S (i + 1)).Transfers x) ∨
  (j = i + 3 ∧ ¬(S (i + 1)).Transfers x ∧ ¬(S (i + 2)).Transfers x ∧
    ¬LoadUse (S (i + 1)).instr (S (i + 2)).instr)

/-- No instruction in whose shadow `j` is fetched changes the word of `j`. -/
def FreshFetch : Prop :=
  ∀ i, Shadowed x S i j → (S (i + 1)).mem (ramAddr (S j).pc) = (S i).mem (ramAddr (S j).pc)

end

end SmuRv32im
