import SmuRv32im.ProgramCounter
import SmuRv32im.Tohost
import SmuRv32im.Refinement
import SmuRv32im.SignedCompare
import SmuRv32im.UnsignedCompare
import SmuRv32im.MulDiv
import SmuRv32im.MemoryAccess
import SmuRv32im.StatusRead
import SmuRv32im.TimerEvents
import SmuRv32im.FpgaBuild
import SmuRv32im.Testbench
import SmuRv32im.Reset
import SmuRv32im.Console
import SmuRv32im.Devices
import SmuRv32im.MachineCode
import SmuRv32im.StringRoutines
import SmuRv32im.RiscvTest
import SmuRv32im.OutputRoutines
import SmuRv32im.DontCare
import SmuRv32im.Fibonacci
import SmuRv32im.PrefixSums
import SmuRv32im.TimerHistory
import SmuRv32im.DataMemory
