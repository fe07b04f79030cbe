import SmuRv32im.Alu
import SmuRv32im.BeLogic

/-!
# The Pipelined Core

The five-stage core `rv32im_cpu`: the controller and the datapath with its four pipeline
registers, the register file, the `tohost` register and the hazard unit. `Cpu` is the
content of all its flip-flops, `Cpu.step` one clock cycle out of reset. The core reads two
buses in a cycle, the fetched word and the word read from memory (`BusIn`), and drives the
fetch address and the memory bus (`Cpu.pc`, `Cpu.busOut`).

The combinational part of each stage is a function of its pipeline register: `StageDE` for
Execute, given the two forwarded operands, `StageEM` for Memory, `StageMW` for Writeback.
The sequential machine of `SmuRv32im.Sequential` is built from the same functions.
-/

namespace SmuRv32im

/-! ### Register file and tohost register -/

/-- The content of the register file. -/
abbrev RegFile := BitVec 5 → Word

/-- A read port of `reg_file_async`: register 0 reads as zero. -/
def RegFile.read (rf : RegFile) (ra : BitVec 5) : Word :=
  if ra ≠ 0#5 then rf ra else 0#32

/-- The write port of `reg_file_async`: there is no flip-flop for register 0. -/
def RegFile.write (rf : RegFile) (we : Bool) (wa : BitVec 5) (wd : Word) : RegFile :=
  fun i => if i ≠ 0#5 ∧ i = wa ∧ we = true then wd else rf i

/-- The next value of `tohost_csr`: any `SYSTEM` instruction writes it, `csrrw` with
the operand, `csrrwi` with the immediate and every other with zero. -/
def csr (enable : Bool) (rd1 immExt instr tohost : Word) : Word :=
  if enable = true then
    if funct3 instr = 0b001#3 then rd1
    else if funct3 instr = 0b101#3 then immExt
    else 0#32
  else tohost

/-! ### Pipeline registers -/

/-- `stage_F_D`. -/
structure StageFD where
  instrD : Word
  pcD : Word
  pcPlus4D : Word

/-- `stage_D_E`. -/
structure StageDE where
  branchE : Bool
  jalE : Bool
  jalrE : Bool
  resultSrcE : BitVec 2
  memWriteE : Bool
  aluControlE : BitVec 5
  aluSrcAE : BitVec 2
  aluSrcBE : Bool
  regWriteE : Bool
  csrE : Bool
  instrE : Word
  rd1E : Word
  rd2E : Word
  pcE : Word
  immExtE : Word
  pcPlus4E : Word

/-- `stage_E_M`. -/
structure StageEM where
  resultSrcM : BitVec 2
  memWriteM : Bool
  regWriteM : Bool
  instrM : Word
  aluResultM : Word
  writeDataM : Word
  pcPlus4M : Word

/-- `stage_M_W`. -/
structure StageMW where
  resultSrcW : BitVec 2
  regWriteW : Bool
  aluResultW : Word
  readDataW : Word
  pcPlus4W : Word
  instrW : Word

/-- The reset values of `stage_F_D`: the word `add x0, x0, x0`. -/
def StageFD.reset : StageFD := ⟨0x00000033#32, 0x10000000#32, 0#32⟩

/-- The reset values of `stage_D_E`. -/
def StageDE.reset : StageDE :=
  ⟨false, false, false, 0#2, false, 0#5, 0#2, false, false, false, 0x00000033#32, 0#32,
    0#32, 0x10000000#32, 0#32, 0#32⟩

/-- The reset values of `stage_E_M`. -/
def StageEM.reset : StageEM := ⟨0#2, false, false, 0x00000033#32, 0#32, 0#32, 0#32⟩

/-- The reset values of `stage_M_W`. -/
def StageMW.reset : StageMW := ⟨0#2, false, 0#32, 0#32, 0#32, 0x00000033#32⟩

/-- `stage_F_D` with its enable and clear: the clear acts on the input, so only when
the stage is enabled. -/
def stageFD (en clr : Bool) (instrF pcF pcPlus4F : Word) (q : StageFD) : StageFD :=
  flopenr en (if clr = true then ⟨0#32, 0#32, 0#32⟩ else ⟨instrF, pcF, pcPlus4F⟩) q

/-- What Decode hands to `stage_D_E`: the control signals of the word, its operands and
its immediate. -/
def decodeStage (x : XValues) (instrD rd1D rd2D pcD pcPlus4D : Word) : StageDE :=
  let c := controller x instrD
  { branchE := c.branch
    jalE := c.jal
    jalrE := c.jalr
    resultSrcE := c.resultSrc
    memWriteE := c.memWrite
    aluControlE := c.aluControl
    aluSrcAE := c.aluSrcA
    aluSrcBE := c.aluSrcB
    regWriteE := c.regWrite
    csrE := c.csr
    instrE := instrD
    rd1E := rd1D
    rd2E := rd2D
    pcE := pcD
    immExtE := immExt x instrD
    pcPlus4E := pcPlus4D }

/-- The cleared input of `stage_D_E`: a bubble. -/
def StageDE.bubble : StageDE :=
  ⟨false, false, false, 0#2, false, 0#5, 0#2, false, false, false, 0#32, 0#32, 0#32, 0#32,
    0#32, 0#32⟩

/-- `stage_D_E` with its clear. -/
def stageDE (clr : Bool) (d : StageDE) : StageDE :=
  flopr (if clr = true then StageDE.bubble else d)

/-! ### Execute -/

namespace StageDE
variable (x : XValues) (de : StageDE) (rd1EH rd2EH : Word)

/-- `SrcA`, from the forwarded first operand. -/
def srcA : Word := mux3 rd1EH de.pcE 0#32 de.aluSrcAE

/-- `SrcB`, from the forwarded second operand. -/
def srcB : Word := mux2 rd2EH de.immExtE de.aluSrcBE

/-- `u_ALU`. -/
def aluOut : Alu := alu x (de.srcA rd1EH) (de.srcB rd2EH) de.aluControlE

/-- `PC_target`. -/
def pcTarget : Word := (adder de.pcE de.immExtE false).sum

/-- `PCSrc`. -/
def pcSrc : BitVec 2 :=
  branchLogic de.branchE de.jalE de.jalrE (funct3 de.instrE)
    (de.aluOut x rd1EH rd2EH).flags (de.srcB rd2EH)

/-- `PCNext`, given the sequential next address. -/
def pcNext (pcPlus4 : Word) : Word :=
  mux3 pcPlus4 de.pcTarget (de.aluOut x rd1EH rd2EH).result (de.pcSrc x rd1EH rd2EH)

/-- What Execute hands to `stage_E_M`. -/
def toEM : StageEM :=
  { resultSrcM := de.resultSrcE
    memWriteM := de.memWriteE
    regWriteM := de.regWriteE
    instrM := de.instrE
    aluResultM := (de.aluOut x rd1EH rd2EH).result
    writeDataM := rd2EH
    pcPlus4M := de.pcPlus4E }

end StageDE

/-! ### Memory and Writeback -/

/-- What the core drives on the memory bus: `ALUResult`, `MemWrite_out`, `WriteData` and
`ByteEnable`. -/
structure BusOut where
  addr : Word
  memWrite : Bool
  writeData : Word
  byteEnable : BitVec 4
deriving DecidableEq

/-- The memory bus in Memory. -/
def StageEM.busOut (em : StageEM) : BusOut :=
  { addr := em.aluResultM
    memWrite := em.memWriteM
    writeData := beWd (em.aluResultM.extractLsb' 0 2) (funct3 em.instrM) em.writeDataM
    byteEnable := byteEnable (em.aluResultM.extractLsb' 0 2) (funct3 em.instrM) }

/-- What Memory hands to `stage_M_W`. -/
def StageEM.toMW (em : StageEM) (readData : Word) : StageMW :=
  { resultSrcW := em.resultSrcM
    regWriteW := em.regWriteM
    aluResultW := em.aluResultM
    readDataW := readData
    pcPlus4W := em.pcPlus4M
    instrW := em.instrM }

/-- `Result`: what Writeback writes to the register file. -/
def StageMW.result (mw : StageMW) : Word :=
  mux3 mw.aluResultW (beRd (mw.aluResultW.extractLsb' 0 2) (funct3 mw.instrW) mw.readDataW)
    mw.pcPlus4W mw.resultSrcW

/-! ### Hazard unit -/

/-- The four forwarding selections of `hazard_unit`: for the source register `rs` the
Memory stage comes before the Writeback stage, and register 0 is never forwarded. -/
def forward (rs rdM : BitVec 5) (regWriteM : Bool) (rdW : BitVec 5) (regWriteW : Bool) :
    BitVec 2 :=
  if (rs = rdM ∧ regWriteM = true) ∧ rs ≠ 0#5 then 0b10#2
  else if (rs = rdW ∧ regWriteW = true) ∧ rs ≠ 0#5 then 0b01#2
  else 0b00#2

/-- `lwStall`: the word in Decode names the destination of a load in Execute. -/
def lwStall (instrD instrE : Word) (resultSrcE0 : Bool) : Bool :=
  (rs1 instrD == rd instrE || rs2 instrD == rd instrE) && resultSrcE0

/-! ### The core -/

/-- The flip-flops of `rv32im_cpu`. -/
structure Cpu where
  pc : Word
  fd : StageFD
  de : StageDE
  em : StageEM
  mw : StageMW
  rf : RegFile
  tohost : Word

/-- What the core reads in a cycle: `Instr` and `ReadData`. -/
structure BusIn where
  instr : Word
  readData : Word

namespace Cpu
variable (x : XValues) (s : Cpu)

/-- The core at reset release; the register file is not reset. -/
def reset (rf : RegFile) : Cpu :=
  ⟨0x10000000#32, StageFD.reset, StageDE.reset, StageEM.reset, StageMW.reset, rf, 0#32⟩

/-- `Result`. -/
def result : Word := s.mw.result

/-- The forwarding selection for the source register `rs`. -/
def forwardSel (rs : BitVec 5) : BitVec 2 :=
  forward rs (rd s.em.instrM) s.em.regWriteM (rd s.mw.instrW) s.mw.regWriteW

/-- `ForwardA`. -/
def forwardA : BitVec 2 := s.forwardSel (rs1 s.de.instrE)

/-- `ForwardB`. -/
def forwardB : BitVec 2 := s.forwardSel (rs2 s.de.instrE)

/-- `ForwardAD`. -/
def forwardAD : BitVec 2 := s.forwardSel (rs1 s.fd.instrD)

/-- `ForwardBD`. -/
def forwardBD : BitVec 2 := s.forwardSel (rs2 s.fd.instrD)

/-- `RD1E_H`. -/
def rd1EH : Word := mux3 s.de.rd1E s.result s.em.aluResultM s.forwardA

/-- `RD2E_H`. -/
def rd2EH : Word := mux3 s.de.rd2E s.result s.em.aluResultM s.forwardB

/-- `RD1D_H`. -/
def rd1DH : Word :=
  mux3 (s.rf.read (rs1 s.fd.instrD)) s.result s.em.aluResultM s.forwardAD

/-- `RD2D_H`. -/
def rd2DH : Word :=
  mux3 (s.rf.read (rs2 s.fd.instrD)) s.result s.em.aluResultM s.forwardBD

/-- `PCSrc`. -/
def pcSrc : BitVec 2 := s.de.pcSrc x s.rd1EH s.rd2EH

/-- `PC_Plus4_F`. -/
def pcPlus4F : Word := (adder s.pc 4#32 false).sum

/-- `PCNext`. -/
def pcNext : Word := s.de.pcNext x s.rd1EH s.rd2EH s.pcPlus4F

/-- `StallF`, which is also `StallD`. -/
def stall : Bool := lwStall s.fd.instrD s.de.instrE (s.de.resultSrcE.getLsbD 0)

/-- `FlushD`. -/
def flushD : Bool := if s.pcSrc x = 0b00#2 then false else true

/-- `FlushE`. -/
def flushE : Bool := s.stall || s.pcSrc x != 0b00#2

/-- The memory bus. -/
def busOut : BusOut := s.em.busOut

/-- One clock cycle of `rv32im_cpu`. -/
def step (i : BusIn) : Cpu :=
  { pc := flopenr (!s.stall) (s.pcNext x) s.pc
    fd := stageFD (!s.stall) (s.flushD x) i.instr s.pc s.pcPlus4F s.fd
    de := stageDE (s.flushE x)
      (decodeStage x s.fd.instrD s.rd1DH s.rd2DH s.fd.pcD s.fd.pcPlus4D)
    em := flopr (s.de.toEM x s.rd1EH s.rd2EH)
    mw := flopr (s.em.toMW i.readData)
    rf := s.rf.write s.mw.regWriteW (rd s.mw.instrW) s.result
    tohost := csr s.de.csrE s.rd1EH s.de.immExtE s.de.instrE s.tohost }

/-! ### Writes -/

/-- The register write in Writeback: the register and the value. -/
def regWrite : Option (BitVec 5 × Word) :=
  if s.mw.regWriteW = true ∧ rd s.mw.instrW ≠ 0#5 then some (rd s.mw.instrW, s.result)
  else none

/-- The bus write in Memory: the address, the data and the strobes. -/
def busWrite : Option (Word × Word × BitVec 4) :=
  if s.busOut.memWrite = true then
    some (s.busOut.addr, s.busOut.writeData, s.busOut.byteEnable)
  else none

/-- The write to `tohost` in Execute. -/
def tohostWrite : Option Word :=
  if s.de.csrE = true then some (csr true s.rd1EH s.de.immExtE s.de.instrE s.tohost)
  else none

end Cpu

end SmuRv32im
