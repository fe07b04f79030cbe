import SmuRv32im.Lib.Clocked
import SmuRv32im.Datapath
import SmuRv32im.Peripherals

/-!
# The System in its Two Builds

`SMU_RV32IM_System` wires the core to the RAM, the timer and the testbench manager. The
build without `FPGA` reads RAM and peripherals in the cycle of the address
(`System.step`). The build with `FPGA` reads a RAM with registered ports and a read-data
multiplexer that delays the peripherals and the selects by a cycle (`FpgaSystem.step`).
Both share the core, the writes and the peripherals (`System.advance`).

A run starts at reset release from a RAM image and a register file (`Boot`). `Run` is a
run of the core alone, on arbitrary buses: whatever the memory system does, the core of
a system run is such a run (`Boot.systemRun_cpu`).
-/

namespace SmuRv32im

/-! ### The wiring -/

/-- The state of the system apart from the registers of the `FPGA` build. -/
structure System where
  cpu : Cpu
  mem : Ram
  timer : TimerCounter
  irqForce : BitVec 16

namespace System
variable (x : XValues) (d : Defines) (s : System)

/-- The system at reset release. -/
def reset (image : Ram) (rf : RegFile) : System :=
  ⟨Cpu.reset rf, image, TimerCounter.reset, 0#16⟩

/-- The chip selects. -/
def select : ChipSelect := addrDecoder s.cpu.busOut.addr

/-- `data_we`. -/
def dataWe : Bool := s.cpu.busOut.memWrite

/-- `data_re`, which is `~data_we`. -/
def dataRe : Bool := !s.dataWe

/-- The bus of the timer. -/
def timerBus : TimerBus :=
  { csN := s.select.csTimerN
    rdN := !s.dataRe
    wrN := !s.dataWe
    addr := s.cpu.busOut.addr.extractLsb' 0 12
    dataIn := s.cpu.busOut.writeData }

/-- The word at the fetch address. -/
def fetchWord : Word := s.mem (ramAddr s.cpu.pc)

/-- `read_data_timer`. -/
def readDataTimer : Word := s.timer.dataOut s.timerBus

/-- `read_data_tbman`. -/
def readDataTbman : Word :=
  tbmanRdata d s.irqForce (s.cpu.busOut.addr.extractLsb' 0 16)

/-- The RAM word at the data address. -/
def readDataMem : Word := s.mem (ramAddr s.cpu.busOut.addr)

/-- `read_data` of the build without `FPGA`. -/
def readData : Word :=
  dataMux s.select.csTimerN s.select.csTbmanN s.readDataTimer (s.readDataTbman d)
    s.readDataMem

/-- What the core reads in the build without `FPGA`. -/
def busIn : BusIn := ⟨s.fetchWord, s.readData d⟩

/-- The write enable of the RAM: `data_we & ~cs_dmem_n`. -/
def ramWe : Bool := s.dataWe && !s.select.csMemN

/-- One clock cycle of what the builds share, given the buses the core reads and the
RAM after the edge. -/
def advance (i : BusIn) (mem : Ram) : System :=
  { cpu := s.cpu.step x i
    mem := mem
    timer := s.timer.step false s.timerBus
    irqForce := tbmanIrqForce (!s.select.csTbmanN) s.dataWe
      (s.cpu.busOut.addr.extractLsb' 0 16) s.cpu.busOut.writeData s.irqForce }

/-- One clock cycle of the build without `FPGA`. -/
def step : System :=
  s.advance x (s.busIn d)
    (asyncRamDpWbe s.mem s.ramWe (ramAddr s.cpu.busOut.addr) s.cpu.busOut.byteEnable
      s.cpu.busOut.writeData)

end System

/-- The registers the `FPGA` build adds: the two read ports of the RAM, and the delayed
inputs of the read-data multiplexer. -/
structure FpgaRegs where
  dataReg1 : Word
  dataReg2 : Word
  readDataTimer1d : Word
  readDataTbman1d : Word
  csTimerN1d : Bool
  csTbmanN1d : Bool

/-- What these registers take at a clock edge. -/
def FpgaRegs.sample (d : Defines) (s : System) : FpgaRegs :=
  { dataReg1 := s.fetchWord
    dataReg2 := s.readDataMem
    readDataTimer1d := s.readDataTimer
    readDataTbman1d := s.readDataTbman d
    csTimerN1d := s.select.csTimerN
    csTbmanN1d := s.select.csTbmanN }

/-- The state of the `FPGA` build. -/
structure FpgaSystem where
  sys : System
  regs : FpgaRegs

namespace FpgaSystem
variable (x : XValues) (d : Defines) (f : FpgaSystem)

/-- The `FPGA` build at reset release. Its registers have no reset; the clock runs during
reset, so they hold what they sample there. -/
def reset (image : Ram) (rf : RegFile) : FpgaSystem :=
  ⟨System.reset image rf, FpgaRegs.sample d (System.reset image rf)⟩

/-- `read_data` of the `FPGA` build. -/
def readData : Word :=
  dataMux f.regs.csTimerN1d f.regs.csTbmanN1d f.regs.readDataTimer1d
    f.regs.readDataTbman1d f.regs.dataReg2

/-- What the core reads in the `FPGA` build. -/
def busIn : BusIn := ⟨f.regs.dataReg1, f.readData⟩

/-- One clock cycle of the `FPGA` build. -/
def step : FpgaSystem :=
  { sys := f.sys.advance x f.busIn
      (dualportMemSynchRwDualclk f.sys.mem f.sys.ramWe (ramAddr f.sys.cpu.busOut.addr)
        f.sys.cpu.busOut.byteEnable f.sys.cpu.busOut.writeData)
    regs := FpgaRegs.sample d f.sys }

end FpgaSystem

/-! ### Runs -/

/-- A run of the core: the values of `x`, the register file at reset release, and what the
two buses carry in each cycle. -/
structure Run where
  x : XValues
  rf : RegFile
  bus : ℕ → BusIn

/-- The core in cycle `t` of a run. -/
def Run.cpu (r : Run) : ℕ → Cpu :=
  Clocked.run (fun t s => s.step r.x (r.bus t)) (Cpu.reset r.rf)

@[simp] theorem Run.cpu_zero (r : Run) : r.cpu 0 = Cpu.reset r.rf := rfl

theorem Run.cpu_succ (r : Run) (t : ℕ) : r.cpu (t + 1) = (r.cpu t).step r.x (r.bus t) :=
  rfl

/-- A sequence of states that starts and goes on like the run is the run. -/
theorem Run.cpu_eq (r : Run) {S : ℕ → Cpu} (start : S 0 = Cpu.reset r.rf)
    (step : ∀ t, S (t + 1) = (S t).step r.x (r.bus t)) (t : ℕ) : r.cpu t = S t := by
  induction t with
  | zero => rw [Run.cpu_zero, start]
  | succ t ih => rw [Run.cpu_succ, ih, step]

/-- What a run of the system starts from: the values of `x`, the RAM image, the register
file, and whether `SIM` is defined. -/
structure Boot where
  x : XValues
  image : Ram
  rf : RegFile
  sim : Bool

namespace Boot
variable (b : Boot)

/-- The macros of the build without `FPGA`. -/
def defines : Defines := ⟨b.sim, false⟩

/-- The macros of the `FPGA` build. -/
def fpgaDefines : Defines := ⟨b.sim, true⟩

/-- The build without `FPGA` in cycle `t` after reset release. -/
def system : ℕ → System :=
  Clocked.run (fun _ s => s.step b.x b.defines) (System.reset b.image b.rf)

/-- The `FPGA` build in cycle `t` after reset release. -/
def fpga : ℕ → FpgaSystem :=
  Clocked.run (fun _ f => f.step b.x b.fpgaDefines)
    (FpgaSystem.reset b.fpgaDefines b.image b.rf)

@[simp] theorem system_zero : b.system 0 = System.reset b.image b.rf := rfl

theorem system_succ (t : ℕ) : b.system (t + 1) = (b.system t).step b.x b.defines := rfl

@[simp] theorem fpga_zero : b.fpga 0 = FpgaSystem.reset b.fpgaDefines b.image b.rf := rfl

theorem fpga_succ (t : ℕ) : b.fpga (t + 1) = (b.fpga t).step b.x b.fpgaDefines := rfl

/-- The core's view of a run of the build without `FPGA`. -/
def systemRun : Run := ⟨b.x, b.rf, fun t => (b.system t).busIn b.defines⟩

/-- The core's view of a run of the `FPGA` build. -/
def fpgaRun : Run := ⟨b.x, b.rf, fun t => (b.fpga t).busIn⟩

/-- The system in cycle `t` of the build with or without `FPGA`. -/
def inBuild (fpga : Bool) (t : ℕ) : System :=
  if fpga = true then (b.fpga t).sys else b.system t

/-- The core's view of that run. -/
def buildRun (fpga : Bool) : Run := if fpga = true then b.fpgaRun else b.systemRun

/-- The core of a system run is the core running on the buses of that run. -/
theorem systemRun_cpu (t : ℕ) : b.systemRun.cpu t = (b.system t).cpu :=
  b.systemRun.cpu_eq (S := fun t => (b.system t).cpu) rfl (fun _ => rfl) t

/-- The same for the `FPGA` build. -/
theorem fpgaRun_cpu (t : ℕ) : b.fpgaRun.cpu t = (b.fpga t).sys.cpu :=
  b.fpgaRun.cpu_eq (S := fun t => (b.fpga t).sys.cpu) rfl (fun _ => rfl) t

end Boot

end SmuRv32im
