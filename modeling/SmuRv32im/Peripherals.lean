import SmuRv32im.Wires

/-!
# Memory, Address Decoding and Peripherals

What hangs on the memory bus of the core: the dual-port RAM in its two versions, the
address decoder, the read-data multiplexer, the timer and the register block of the
testbench manager. Of the testbench manager the model has what a program can read; the
print and exit strobes only drive the simulator console.
-/

namespace SmuRv32im

/-! ### RAM -/

/-- The content of the RAM: `2 ^ 17` words. -/
abbrev Ram := BitVec 17 → Word

/-- The word address of a bus address: `addr[AWIDTH+2-1:2]`. -/
def ramAddr (addr : Word) : BitVec 17 := addr.extractLsb' 2 17

/-- A RAM word after a write with byte strobes. -/
def writeBytes (be : BitVec 4) (d old : Word) : Word :=
  (if be.getLsbD 3 = true then d.extractLsb' 24 8 else old.extractLsb' 24 8) ++
  (if be.getLsbD 2 = true then d.extractLsb' 16 8 else old.extractLsb' 16 8) ++
  (if be.getLsbD 1 = true then d.extractLsb' 8 8 else old.extractLsb' 8 8) ++
  (if be.getLsbD 0 = true then d.extractLsb' 0 8 else old.extractLsb' 0 8)

/-- A RAM after the clock edge of a port with write enable `we`. -/
def Ram.write (mem : Ram) (we : Bool) (addr : BitVec 17) (be : BitVec 4) (d : Word) : Ram :=
  if we = true then Function.update mem addr (writeBytes be d (mem addr)) else mem

/-- The data port of `ASYNC_RAM_DP_WBE`. Its reads are the content of the RAM in the same
cycle; the other port, tied to `wen0 = 0`, writes nothing. -/
def asyncRamDpWbe (mem : Ram) (wen1 : Bool) (addr1 : BitVec 17) (wbe1 : BitVec 4)
    (d1 : Word) : Ram :=
  mem.write wen1 addr1 wbe1 d1

/-- The data port of `dualport_mem_synch_rw_dualclk`. Its reads are registered: they are
the content of the RAM, before the write, at the address of the cycle before. -/
def dualportMemSynchRwDualclk (mem : Ram) (we2 : Bool) (addr2 : BitVec 17)
    (be2 : BitVec 4) (dataIn2 : Word) : Ram :=
  mem.write we2 addr2 be2 dataIn2

/-! ### Address decoder and read-data multiplexer -/

/-- The chip selects, active low. -/
structure ChipSelect where
  csMemN : Bool
  csTimerN : Bool
  csTbmanN : Bool

/-- `Addr_Decoder`. -/
def addrDecoder (addr : Word) : ChipSelect :=
  if addr.extractLsb' 28 4 = 0x1#4 then ⟨false, true, true⟩
  else if addr.extractLsb' 12 20 = 0x80001#20 then ⟨true, false, true⟩
  else if addr.extractLsb' 12 20 = 0x8000F#20 then ⟨true, true, false⟩
  else ⟨true, true, true⟩

/-- The selection of `data_mux`, the same in both builds: what no peripheral claims is
read from the RAM. -/
def dataMux (csTimerN csTbmanN : Bool) (readDataTimer readDataTbman readDataMem : Word) :
    Word :=
  if csTimerN = false then readDataTimer
  else if csTbmanN = false then readDataTbman
  else readDataMem

/-! ### Timer -/

/-- The registers of `TimerCounter`. -/
structure TimerCounter where
  compareR : Word
  counterR : Word
  statusR : Word

/-- The bus of `TimerCounter`, with its active-low strobes. -/
structure TimerBus where
  csN : Bool
  rdN : Bool
  wrN : Bool
  addr : BitVec 12
  dataIn : Word

namespace TimerBus
variable (b : TimerBus)

/-- The bus writes the compare register. -/
def writesCompare : Prop := b.csN = false ∧ b.wrN = false ∧ b.addr = 0x000#12

/-- The bus reads the status register. -/
def readsStatus : Prop := b.csN = false ∧ b.rdN = false ∧ b.addr = 0x200#12

instance : Decidable b.writesCompare := inferInstanceAs (Decidable (_ ∧ _))

instance : Decidable b.readsStatus := inferInstanceAs (Decidable (_ ∧ _))

end TimerBus

namespace TimerCounter

/-- The registers after a clock edge with `reset` high. -/
def reset : TimerCounter := ⟨0xFFFFFFFF#32, 0#32, 0#32⟩

/-- The pending flag `StatusR[0]`. -/
def flag (s : TimerCounter) : Bool := s.statusR.getLsbD 0

/-- One clock edge of `TimerCounter`. The three processes read the registers of the
cycle; a compare match comes before a status read. -/
def step (rst : Bool) (b : TimerBus) (s : TimerCounter) : TimerCounter :=
  { compareR :=
      if rst = true then 0xFFFFFFFF#32
      else if b.writesCompare then b.dataIn
      else s.compareR
    statusR :=
      if rst = true then 0#32
      else if s.compareR = s.counterR then s.statusR ||| 1#32
      else if b.readsStatus then s.statusR &&& ~~~1#32
      else s.statusR
    counterR :=
      if rst = true ∨ s.flag = true then 0#32
      else s.counterR + 1#32 }

/-- `DataOut`. -/
def dataOut (b : TimerBus) (s : TimerCounter) : Word :=
  if b.csN = false ∧ b.rdN = false then
    if b.addr = 0x000#12 then s.compareR
    else if b.addr = 0x100#12 then s.counterR
    else if b.addr = 0x200#12 then s.statusR
    else 0#32
  else 0#32

end TimerCounter

/-! ### Testbench manager -/

/-- The macros a build defines. -/
structure Defines where
  sim : Bool
  fpga : Bool

/-- `tbman_addr & 16'h1c`: the register a bus address selects. -/
def tbmanReg (addr : BitVec 16) : BitVec 16 := addr &&& 0x001C#16

/-- `tbman_rdata`. The print, putint, exit and stub registers read as zero. -/
def tbmanRdata (d : Defines) (irqForce : BitVec 16) (addr : BitVec 16) : Word :=
  if tbmanReg addr = 12#16 then 0#30 ++ BitVec.ofBool d.fpga ++ BitVec.ofBool d.sim
  else if tbmanReg addr = 20#16 then irqForce.setWidth 32
  else 0#32

/-- The next value of `irq_force_o`. -/
def tbmanIrqForce (sel write : Bool) (addr : BitVec 16) (wdata : Word)
    (irqForce : BitVec 16) : BitVec 16 :=
  if sel = true ∧ write = true ∧ tbmanReg addr = 20#16 then wdata.setWidth 16
  else irqForce

end SmuRv32im
