import Mathlib.Tactic.IntervalCases
import SmuRv32im.HartTiming
import SmuRv32im.Timer

/-!
# What the Devices Show

To the hart the devices are outside: what a load from one of them finds is an input of the
step. In a run of the pipeline these inputs are the read bus in the cycle in which the load
is in Memory (`Boot.deviceReads_eq`), where every store before it has been made and no store
behind it. So a load from a register that only software writes finds what the program last
stored there, in program order, and the timer's counter shows that cycle. Programs that take
the time with two loads get the number of cycles between them.

## Main results

* `Boot.deviceReads_tbman`, `Boot.deviceReads_compare`: the registers of the testbench manager
  and the compare register of the timer.
* `Boot.counter_load`: what a load of the counter delivers.
* `Boot.execution_cycles`: the time between two of them.
-/

namespace SmuRv32im

/-! ### Registers on the bus -/

/-- The value a write on the memory bus gives `irq_force`. -/
def irqForceWrite (w : Word × Word × BitVec 4) : Option (BitVec 16) :=
  if (addrDecoder w.1).csTbmanN = false ∧ tbmanReg (w.1.extractLsb' 0 16) = 20#16 then
    some (w.2.1.setWidth 16)
  else none

/-- The value a write on the memory bus gives the compare register. -/
def compareWrite (w : Word × Word × BitVec 4) : Option Word :=
  if (addrDecoder w.1).csTimerN = false ∧ w.1.extractLsb' 0 12 = 0x000#12 then some w.2.1
  else none

namespace Boot
variable (b : Boot)

theorem irqForce_succ (t : ℕ) : (b.system (t + 1)).irqForce =
    ((b.system t).cpu.busWrite.bind irqForceWrite).getD (b.system t).irqForce := by
  have hstep : (b.system (t + 1)).irqForce =
      tbmanIrqForce (!(addrDecoder (b.system t).cpu.busOut.addr).csTbmanN)
        (b.system t).cpu.busOut.memWrite ((b.system t).cpu.busOut.addr.extractLsb' 0 16)
        (b.system t).cpu.busOut.writeData (b.system t).irqForce := rfl
  rw [hstep, Cpu.busWrite, tbmanIrqForce]
  cases (b.system t).cpu.busOut.memWrite with
  | false => simp
  | true =>
      rw [if_pos rfl, Option.bind_some, irqForceWrite]
      simp only [Bool.not_eq_true', true_and]
      split_ifs <;> rfl

theorem irqForce_eq (t : ℕ) : (b.system t).irqForce =
    (Clocked.log (fun u => (b.system u).cpu.busWrite.bind irqForceWrite) t).getLastD 0#16 :=
  Clocked.register_eq_getLastD_log (r := fun t => (b.system t).irqForce) b.irqForce_succ t

theorem compareR_succ (t : ℕ) : (b.system (t + 1)).timer.compareR =
    ((b.system t).cpu.busWrite.bind compareWrite).getD (b.system t).timer.compareR := by
  have hstep : (b.system (t + 1)).timer.compareR =
      if (b.system t).timerBus.writesCompare then (b.system t).cpu.busOut.writeData
      else (b.system t).timer.compareR := rfl
  have hwrites : (b.system t).timerBus.writesCompare ↔
      (addrDecoder (b.system t).cpu.busOut.addr).csTimerN = false ∧
        (!(b.system t).cpu.busOut.memWrite) = false ∧
        (b.system t).cpu.busOut.addr.extractLsb' 0 12 = 0x000#12 := Iff.rfl
  rw [hstep, if_congr hwrites rfl rfl, Cpu.busWrite]
  cases (b.system t).cpu.busOut.memWrite with
  | false => simp
  | true =>
      rw [if_pos rfl, Option.bind_some, compareWrite]
      simp only [Bool.not_true, true_and]
      split_ifs <;> rfl

theorem compareR_eq (t : ℕ) : (b.system t).timer.compareR =
    (Clocked.log (fun u => (b.system u).cpu.busWrite.bind compareWrite) t).getLastD
      0xFFFFFFFF#32 :=
  Clocked.register_eq_getLastD_log (r := fun t => (b.system t).timer.compareR) b.compareR_succ t

/-- The timer of the system is `TimerCounter` on its bus. -/
theorem timer_eq (t : ℕ) :
    (b.system t).timer = TimerCounter.run (fun u => (b.system u).timerBus) t := by
  induction t with
  | zero => rfl
  | succ t ih =>
      rw [TimerCounter.run_succ, ← ih]
      rfl

/-- **The first period of the timer** in a system whose program leaves the compare register
alone: the counter is the cycle. -/
theorem counterR_eq {t : ℕ} (ht : t < 2 ^ 32)
    (hkeep : ∀ u, u < t → (b.system u).cpu.busWrite.bind compareWrite = none) :
    (b.system t).timer.counterR = BitVec.ofNat 32 t := by
  have hwrites : ∀ u, u < t → ¬(b.system u).timerBus.writesCompare := by
    rintro u hu ⟨hcs, hwr, haddr⟩
    have hmw : (b.system u).cpu.busOut.memWrite = true := by
      have hbus : (!(b.system u).cpu.busOut.memWrite) = false := hwr
      simpa using hbus
    have hnone := hkeep u hu
    rw [Cpu.busWrite, if_pos hmw, Option.bind_some, compareWrite, if_pos ⟨hcs, haddr⟩] at hnone
    cases hnone
  -- what the bus does from cycle `t` on makes no difference to cycle `t`
  let bus : ℕ → TimerBus := fun u =>
    if u < t then (b.system u).timerBus else TimerCounter.counterBus
  have hbus : TimerCounter.KeepsCompare bus := by
    intro u
    by_cases hu : u < t
    · rw [show bus u = (b.system u).timerBus from if_pos hu]
      exact hwrites u hu
    · rw [show bus u = TimerCounter.counterBus from if_neg hu]
      exact (TimerCounter.counterBus_unattended u).1
  have hsame : TimerCounter.run (fun u => (b.system u).timerBus) t = TimerCounter.run bus t := by
    refine Clocked.run_congr ?_
    intro u hu s
    rw [show bus u = (b.system u).timerBus from if_pos hu]
  rw [b.timer_eq, hsame]
  exact (TimerCounter.run_first hbus ⟨TimerCounter.flag_reset, rfl⟩
    (Nat.le_of_lt_succ ht : t ≤ TimerCounter.reset.compareR.toNat)).2

end Boot

/-! ### Registers in program order -/

namespace Boot
variable (b : Boot)

/-- The last value the first `k` instructions write to a register, `v` if there is none. -/
noncomputable def lastWrite {α : Type} (write : Word × Word × BitVec 4 → Option α) (k : ℕ)
    (v : α) : α :=
  (Clocked.log (fun j => (b.hart j).bind fun s => s.busWrite.bind write) k).getLastD v

/-- The cycle in which the `k`-th instruction is in Memory. -/
noncomputable def access (k : ℕ) : ℕ := b.systemRun.entry k + 1

theorem countE_access (k : ℕ) : b.systemRun.countE (b.access k) = k + 1 :=
  b.countE_entry_succ k

theorem occ_access (k : ℕ) : (b.systemRun.occ (b.access k)).m = true := b.systemRun.occ_entry k

theorem countM_access (k : ℕ) : b.systemRun.countM (b.access k) = k := b.countM_entry_succ k

section
variable {b} {n k : ℕ} (h : b.Conforms n) (hk : k < n)
include h hk

/-- The writes before the access of the `k`-th instruction are those of the instructions
before it. -/
theorem log_access {α : Type} (write : Word × Word × BitVec 4 → Option α) :
    Clocked.log (fun u => (b.system u).cpu.busWrite.bind write) (b.access k) =
      Clocked.log (fun j => (b.hart j).bind fun s => s.busWrite.bind write) k := by
  have hhart : (fun j => (b.hart j).bind fun s => s.busWrite.bind write) =
      fun j => ((b.hart j).bind Hart.busWrite).bind write :=
    funext fun j => (Option.bind_assoc _ _ _).symm
  rw [Clocked.log_bind, access, log_busWrite_entry h hk, hartStores, hhart,
    Clocked.log_bind fun j => (b.hart j).bind Hart.busWrite]

/-- If no instruction before writes a register, no cycle before does. -/
theorem busWrite_before_access {α : Type} (write : Word × Word × BitVec 4 → Option α)
    (hkeep : ∀ j, j < k → ∀ s ∈ b.hart j, s.busWrite.bind write = none) {u : ℕ}
    (hu : u < b.access k) : (b.system u).cpu.busWrite.bind write = none := by
  have hnil : Clocked.log (fun u => (b.system u).cpu.busWrite.bind write) (b.access k) = [] := by
    rw [log_access h hk, Clocked.log_eq_nil_iff]
    intro j hj
    cases hs : b.hart j with
    | none => rfl
    | some s => exact hkeep j hj s hs
  exact Clocked.log_eq_nil_iff.mp hnil u hu

/-- The memory bus in the cycle of the access. -/
theorem busOut_access : (b.system (b.access k)).cpu.busOut = (b.sequential k).busOut b.x := by
  have hbus := (h.matchesMemory ((b.countE_access k).trans_le hk)).busOut (b.occ_access k)
  rwa [b.systemRun.idxM_eq, b.countM_access] at hbus

/-- **What a device shows to an instruction** is what is on the read bus in the cycle of its
access. -/
theorem deviceReads_eq : b.deviceReads k = (b.system (b.access k)).readData b.defines := by
  have hmatch := h.matchesMemory ((b.countE_access k).trans_le hk)
  have hmem := hmatch.mem
  have hirq := hmatch.irqForce
  have htimer := b.timerReads_idxM (b.occ_access k)
  rw [b.systemRun.idxM_eq, b.countM_access] at hmem hirq htimer
  rw [deviceReads, Arch.readData, Arch.select, System.readData, System.select,
    System.readDataTbman, System.readDataMem, busOut_access h hk, hmem, hirq, htimer]

variable {s : Hart} (hs : b.hart k = some s) {o : LoadOp} {d r1 : BitVec 5} {i : BitVec 12}
  (hi : s.instr? = some (.load o d r1 i))
include hs hi

/-- A load in Memory addresses the bus without writing. -/
theorem busOut_load : (b.system (b.access k)).cpu.busOut.addr = Instr.addr s r1 i ∧
    (b.system (b.access k)).cpu.busOut.memWrite = false := by
  obtain ⟨t, ht, himp⟩ := h.sequential_implements (k := k) (by omega)
  obtain rfl : s = t := Option.some.inj (hs.symm.trans ht)
  have henc := himp.instr_of_instr? hi
  have hop : opcode (b.sequential k).instr = opcLoad := henc ▸ Instr.opcode_encode _
  have h1 : rs1 (Instr.load o d r1 i).encode = r1 := iType_rs1 _ _ _ _ _
  have himm : immI (Instr.load o d r1 i).encode = i.signExtend 32 := immI_iType _ _ _ _ _
  obtain ⟨haddr, hmw, -⟩ := toEM_load b.x (b.sequential k).instr (b.sequential k).rd1
    (b.sequential k).rd2 (b.sequential k).pc hop
  rw [busOut_access h hk]
  refine ⟨haddr.trans ?_, hmw⟩
  rw [Arch.rd1, henc, h1, himm, himp.regs, Instr.addr]

/-- **The registers of the testbench manager**: a load finds what the defines say, and in
`irq_force` the low half of the last store there. -/
theorem deviceReads_tbman (hcs : (addrDecoder (Instr.addr s r1 i)).csTbmanN = false) :
    b.deviceReads k = tbmanRdata b.defines (b.lastWrite irqForceWrite k 0#16)
      ((Instr.addr s r1 i).extractLsb' 0 16) := by
  have htimer : (addrDecoder (Instr.addr s r1 i)).csTimerN = true := by
    revert hcs
    rw [addrDecoder]
    split_ifs <;> simp
  have hirq := b.irqForce_eq (b.access k)
  rw [log_access h hk] at hirq
  rw [deviceReads_eq h hk, System.readData, System.select, (busOut_load h hk hs hi).1, dataMux,
    htimer, hcs, if_neg Bool.true_eq_false.mp, if_pos rfl, System.readDataTbman,
    (busOut_load h hk hs hi).1, hirq]
  rfl

/-- What a load from the page of the timer finds. -/
theorem deviceReads_timer (hcs : (addrDecoder (Instr.addr s r1 i)).csTimerN = false) :
    b.deviceReads k =
      (b.system (b.access k)).timer.dataOut
        ⟨false, false, true, (Instr.addr s r1 i).extractLsb' 0 12,
          (b.system (b.access k)).cpu.busOut.writeData⟩ := by
  obtain ⟨haddr, hmw⟩ := busOut_load h hk hs hi
  rw [deviceReads_eq h hk, System.readData, System.select, haddr, dataMux, hcs, if_pos rfl,
    System.readDataTimer, System.timerBus, System.select, System.dataRe, System.dataWe, haddr,
    hcs, hmw]
  rfl

/-- **The compare register**: a load finds the last value stored there, all ones if there is
none. -/
theorem deviceReads_compare (haddr : Instr.addr s r1 i = 0x80001000#32) :
    b.deviceReads k = b.lastWrite compareWrite k 0xFFFFFFFF#32 := by
  have hcs : (addrDecoder (Instr.addr s r1 i)).csTimerN = false := by
    rw [haddr]
    decide
  have hreg := b.compareR_eq (b.access k)
  rw [log_access h hk] at hreg
  rw [deviceReads_timer h hk hs hi hcs, haddr]
  exact hreg

/-- **The counter**: a load finds the cycle of its access, until the first match. -/
theorem deviceReads_counter (haddr : Instr.addr s r1 i = 0x80001100#32)
    (hsoon : b.access k < 2 ^ 32)
    (hkeep : ∀ j, j < k → ∀ s ∈ b.hart j, s.busWrite.bind compareWrite = none) :
    b.deviceReads k = BitVec.ofNat 32 (b.access k) := by
  have hcs : (addrDecoder (Instr.addr s r1 i)).csTimerN = false := by
    rw [haddr]
    decide
  rw [deviceReads_timer h hk hs hi hcs, haddr]
  exact b.counterR_eq hsoon fun u hu => busWrite_before_access h hk compareWrite hkeep hu

end

end Boot

/-! ### Loads in the program -/

/-- A word is loaded from a device as it is. -/
theorem Hart.loaded_device (s : Hart) (io : Word) {addr : Word} (hout : ¬InRam addr)
    (hal : addr.toNat % 4 = 0) : s.loaded io .lw addr = io := by
  have hlw : ∀ v, extendLoad LoadOp.lw.funct3 v = BitVec.ofNat 32 v := fun _ => rfl
  have hbytes : accessBytes LoadOp.lw.funct3 = 4 := rfl
  rw [loaded, if_neg hout, hlw, hal, hbytes, BitVec.ofNat_toNat, Nat.mul_zero]
  ext i hi
  simp

namespace Boot
variable {b : Boot} {n k : ℕ} (h : b.Conforms n)

/-- The register a word of a device is loaded into. -/
theorem regs_of_device_load {s s' : Hart} {d r1 : BitVec 5} {i : BitVec 12}
    (hs : b.hart k = some s) (hs' : b.hart (k + 1) = some s')
    (hi : s.instr? = some (.load .lw d r1 i)) (hd : d ≠ 0#5)
    (hout : ¬InRam (Instr.addr s r1 i)) : s'.regs d = b.deviceReads k := by
  obtain ⟨t, ht, hstep⟩ := Partial.run_succ_eq_some_iff.mp hs'
  obtain rfl : s = t := Option.some.inj (hs.symm.trans ht)
  obtain ⟨j, hj, hperm, rfl⟩ := (s.step_eq_some_iff _).mp hstep
  obtain rfl : .load .lw d r1 i = j := Option.some.inj (hi.symm.trans hj)
  have hal : (Instr.addr s r1 i).toNat % 4 = 0 := hperm.1
  have hreg : (s.exec (b.deviceReads k) (.load .lw d r1 i)).regs d =
      if d = d ∧ d ≠ 0#5 then s.loaded (b.deviceReads k) .lw (Instr.addr s r1 i)
      else s.regs d := rfl
  rw [hreg, if_pos ⟨rfl, hd⟩, s.loaded_device _ hout hal]

include h

/-- **A load of the counter** delivers the cycle it is in Memory. -/
theorem counter_load (hk : k < n) {s s' : Hart} {d r1 : BitVec 5} {i : BitVec 12}
    (hs : b.hart k = some s) (hs' : b.hart (k + 1) = some s')
    (hi : s.instr? = some (.load .lw d r1 i)) (hd : d ≠ 0#5)
    (haddr : Instr.addr s r1 i = 0x80001100#32) (hsoon : b.access k < 2 ^ 32)
    (hkeep : ∀ j, j < k → ∀ s ∈ b.hart j, s.busWrite.bind compareWrite = none) :
    s'.regs d = BitVec.ofNat 32 (b.access k) := by
  have hout : ¬InRam (Instr.addr s r1 i) := by
    rw [haddr]
    decide
  rw [regs_of_device_load hs hs' hi hd hout, deviceReads_counter h hk hs hi haddr hsoon hkeep]

/-- **The time between two loads of the counter** is the sum of the costs of the instructions
from the first to the second. -/
theorem execution_cycles {j : ℕ} (hjk : j ≤ k) (hk : k < n) {s s' u u' : Hart}
    {d r1 d' r1' : BitVec 5} {i i' : BitVec 12}
    (hs : b.hart j = some s) (hs' : b.hart (j + 1) = some s')
    (hi : s.instr? = some (.load .lw d r1 i)) (hd : d ≠ 0#5)
    (haddr : Instr.addr s r1 i = 0x80001100#32)
    (hu : b.hart k = some u) (hu' : b.hart (k + 1) = some u')
    (hi' : u.instr? = some (.load .lw d' r1' i')) (hd' : d' ≠ 0#5)
    (haddr' : Instr.addr u r1' i' = 0x80001100#32) (hsoon : b.access k < 2 ^ 32)
    (hkeep : ∀ j, j < k → ∀ s ∈ b.hart j, s.busWrite.bind compareWrite = none) :
    u'.regs d' - s'.regs d = BitVec.ofNat 32 (∑ l ∈ Finset.Ico j k, b.cost l) := by
  have hentry : b.access k = b.access j + ∑ l ∈ Finset.Ico j k, b.cost l := by
    rw [access, access, entry_between h hjk (by omega)]
    omega
  rw [counter_load h hk hu hu' hi' hd' haddr' hsoon hkeep,
    counter_load h (by omega) hs hs' hi hd haddr (by omega)
      fun l hl => hkeep l (lt_of_lt_of_le hl hjk), hentry, BitVec.ofNat_add, BitVec.add_comm]
  exact BitVec.add_sub_cancel _ _

end Boot

/-! ### Two programs -/

/-- `lui x1, 0x80001`, `addi x2, x0, 100`, `sw x2, 0(x1)` and `lw x0, 0(x1)`, the same with
`20(x4)` after `lui x4, 0x8000F`, and `j .`. -/
def deviceBoot : Boot :=
  { x := ⟨0#3, 0#5, 0#32, 0#32, 0#32⟩
    image := fun a => if a = 0#17 then 0x800010B7#32 else if a = 1#17 then 0x06400113#32
      else if a = 2#17 then 0x0020A023#32 else if a = 3#17 then 0x0000A003#32
      else if a = 4#17 then 0x8000F237#32 else if a = 5#17 then 0x00222A23#32
      else if a = 6#17 then 0x01422003#32 else if a = 7#17 then 0x0000006F#32 else 0#32
    rf := fun _ => 0#32
    sim := true }

theorem deviceBoot_freeRun : deviceBoot.FreeRun (fun _ => 0#32) 8 := by
  decide +kernel

theorem deviceBoot_reads_compare :
    deviceBoot.deviceReads 3 = deviceBoot.lastWrite compareWrite 3 0xFFFFFFFF#32 := by
  obtain ⟨s, hs, hi, haddr⟩ := deviceBoot_freeRun.exists_hart (k := 3) (by omega)
    (P := fun s => s.instr? = some (.load .lw 0#5 1#5 0#12) ∧
      Instr.addr s 1#5 0#12 = 0x80001000#32) (by decide +kernel)
  exact deviceBoot.deviceReads_compare deviceBoot_freeRun.conforms (by omega) hs hi haddr

theorem deviceBoot_reads_tbman : ∃ s, deviceBoot.hart 6 = some s ∧ deviceBoot.deviceReads 6 =
    tbmanRdata deviceBoot.defines (deviceBoot.lastWrite irqForceWrite 6 0#16)
      ((Instr.addr s 4#5 20#12).extractLsb' 0 16) := by
  obtain ⟨s, hs, hi, hcs⟩ := deviceBoot_freeRun.exists_hart (k := 6) (by omega)
    (P := fun s => s.instr? = some (.load .lw 0#5 4#5 20#12) ∧
      (addrDecoder (Instr.addr s 4#5 20#12)).csTbmanN = false) (by decide +kernel)
  exact ⟨s, hs, deviceBoot.deviceReads_tbman deviceBoot_freeRun.conforms (by omega) hs hi hcs⟩

/-- `lui x1, 0x80001`, `lw x2, 0x100(x1)`, `lw x3, 0x100(x1)` and `j .`. -/
def stopwatchBoot : Boot :=
  { x := ⟨0#3, 0#5, 0#32, 0#32, 0#32⟩
    image := fun a => if a = 0#17 then 0x800010B7#32 else if a = 1#17 then 0x1000A103#32
      else if a = 2#17 then 0x1000A183#32 else if a = 3#17 then 0x0000006F#32 else 0#32
    rf := fun _ => 0#32
    sim := true }

/-- The program. -/
def stopwatchInstr : ℕ → Instr
  | 0 => .compute (.lui 1#5 0x80001#20)
  | 1 => .load .lw 2#5 1#5 0x100#12
  | 2 => .load .lw 3#5 1#5 0x100#12
  | _ => .compute (.jal 0#5 0#20)

/-- Its states, for what the devices show. -/
def stopwatchState (io : ℕ → Word) : ℕ → Hart
  | 0 => Hart.reset stopwatchBoot.image stopwatchBoot.rf
  | k + 1 => (stopwatchState io k).exec (io k) (stopwatchInstr k)

theorem stopwatchState_mem (io : ℕ → Word) (k : ℕ) :
    (stopwatchState io k).mem = ramBytes stopwatchBoot.image := by
  induction k with
  | zero => rfl
  | succ k ih =>
      rw [← ih]
      obtain _ | _ | _ | k := k <;> rfl

theorem stopwatchState_instr? (io : ℕ → Word) {k : ℕ} (hk : k < 4) :
    (stopwatchState io k).instr? = some (stopwatchInstr k) := by
  have hat : ∀ k, k < 4 → Hart.instr? { Hart.reset stopwatchBoot.image stopwatchBoot.rf with
      pc := 0x10000000#32 + BitVec.ofNat 32 (4 * k) } = some (stopwatchInstr k) := by
    decide +kernel
  rw [← hat k hk]
  refine Hart.instr?_congr ?_ (stopwatchState_mem io k)
  interval_cases k <;> rfl

theorem stopwatchState_addr (io : ℕ → Word) {k : ℕ} (hk : k = 1 ∨ k = 2) :
    Instr.addr (stopwatchState io k) 1#5 0x100#12 = 0x80001100#32 := by
  obtain rfl | rfl := hk <;> rfl

theorem stopwatch_hart {k : ℕ} (hk : k ≤ 4) :
    stopwatchBoot.hart k = some (stopwatchState stopwatchBoot.deviceReads k) := by
  induction k with
  | zero => rfl
  | succ k ih =>
      refine Partial.run_succ_eq_some_iff.mpr ⟨_, ih (by omega), ?_⟩
      refine (Hart.step_eq_some_iff _ _).mpr ⟨_, stopwatchState_instr? _ (by omega), ?_, rfl⟩
      obtain rfl | rfl | rfl | rfl : k = 0 ∨ k = 1 ∨ k = 2 ∨ k = 3 := by omega
      · trivial
      · have haddr := stopwatchState_addr stopwatchBoot.deviceReads (Or.inl rfl)
        change Accessible (Instr.addr (stopwatchState _ 1) 1#5 0x100#12) 4
        rw [haddr]
        decide
      · have haddr := stopwatchState_addr stopwatchBoot.deviceReads (Or.inr rfl)
        change Accessible (Instr.addr (stopwatchState _ 2) 1#5 0x100#12) 4
        rw [haddr]
        decide
      · trivial

theorem stopwatch_conforms : stopwatchBoot.Conforms 4 where
  runs := ⟨_, stopwatch_hart le_rfl⟩
  regular k hk s hs i hi := by
    obtain rfl := Option.some.inj ((stopwatch_hart hk.le).symm.trans hs)
    obtain rfl := Option.some.inj ((stopwatchState_instr? _ hk).symm.trans hi)
    interval_cases k <;> trivial
  stores j hj i hij _ u _ s hs s' hs' := by
    obtain rfl := Option.some.inj ((stopwatch_hart (by omega)).symm.trans hs)
    obtain rfl := Option.some.inj ((stopwatch_hart (by omega)).symm.trans hs')
    rw [stopwatchState_mem, stopwatchState_mem]

/-- The two loads are one cycle apart. -/
theorem stopwatch_cycles :
    (stopwatchState stopwatchBoot.deviceReads 3).regs 3#5 -
        (stopwatchState stopwatchBoot.deviceReads 2).regs 2#5 =
      BitVec.ofNat 32 (∑ l ∈ Finset.Ico 1 2, stopwatchBoot.cost l) := by
  have hsoon : stopwatchBoot.access 2 < 2 ^ 32 := by
    have hle := stopwatchBoot.entry_le 2
    rw [Boot.access]
    omega
  refine stopwatchBoot.execution_cycles stopwatch_conforms (by omega) (by omega)
    (stopwatch_hart (by omega)) (stopwatch_hart (by omega)) (stopwatchState_instr? _ (by omega))
    (by decide) (stopwatchState_addr _ (Or.inl rfl)) (stopwatch_hart (by omega))
    (stopwatch_hart (by omega)) (stopwatchState_instr? _ (by omega)) (by decide)
    (stopwatchState_addr _ (Or.inr rfl)) hsoon ?_
  intro j hj s hs
  obtain rfl := Option.some.inj ((stopwatch_hart (by omega)).symm.trans hs)
  rw [Hart.busWrite, stopwatchState_instr? _ (by omega)]
  interval_cases j <;> rfl

end SmuRv32im
