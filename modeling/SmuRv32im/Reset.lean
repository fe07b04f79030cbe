import SmuRv32im.System

/-!
# Reset

The reset button goes through one flip-flop, `reset_ff`, which is the reset of the whole
board: asynchronous for the flip-flops of the core and of the testbench manager, synchronous
for the timer, and none for the register file and the RAM. A board (`Board`) in reset has
its core in the reset state, which is a field of the structure, so that nothing is written
while the button is down and what registers and RAM hold survives.

Whatever was running before, and however short the button was pressed, every cycle after
the release is a cycle of a run from reset release (`Boot`): what holds of all of these runs
holds of the board after every reset.

## Main results

* `System.heldStep_eq`: a clock edge in reset.
* `Board.system_after_reset`, `FpgaBoard.fpga_after_reset`: the cycles after a reset, in the
  two builds.
-/

namespace SmuRv32im

namespace System
variable (s : System)

/-- The flip-flops with asynchronous reset, while it is active. -/
def clear : System := { s with cpu := Cpu.reset s.cpu.rf, irqForce := 0#16 }

/-- A clock edge in reset: the register file and the RAM have no reset, and the reset of the
timer is synchronous. -/
def heldStep : System :=
  { cpu := Cpu.reset (s.cpu.rf.write s.cpu.mw.regWriteW (rd s.cpu.mw.instrW) s.cpu.result)
    mem := s.mem.write s.ramWe (ramAddr s.cpu.busOut.addr) s.cpu.busOut.byteEnable
      s.cpu.busOut.writeData
    timer := s.timer.step true s.timerBus
    irqForce := 0#16 }

theorem clear_reset (image : Ram) (rf : RegFile) :
    (System.reset image rf).clear = System.reset image rf := rfl

variable {s}

/-- In reset no write is on the buses. -/
theorem writes_of_held (h : s.clear = s) :
    s.cpu.busWrite = none ∧ s.cpu.regWrite = none ∧ s.cpu.tohostWrite = none ∧
      s.cpu.tohost = 0#32 := by
  rw [← h]
  exact ⟨rfl, rfl, rfl, rfl⟩

/-- **A clock edge in reset** leaves the state of reset release, with the registers and the
RAM as they were. -/
theorem heldStep_eq (h : s.clear = s) : s.heldStep = System.reset s.mem s.cpu.rf := by
  have hrf : s.cpu.rf.write s.cpu.mw.regWriteW (rd s.cpu.mw.instrW) s.cpu.result = s.cpu.rf := by
    rw [← h]
    funext i
    exact if_neg fun hi => Bool.false_ne_true hi.2.2
  have hmem : s.ramWe = false := by
    rw [← h]
    rfl
  rw [heldStep, hrf, hmem]
  rfl

end System

/-! ### The build without `FPGA` -/

/-- The board: the system and its reset flip-flop. In reset the core is in its reset state,
whatever the clock does. -/
structure Board where
  resetFf : Bool
  sys : System
  held : resetFf = false → sys.clear = sys

namespace Board
variable (x : XValues) (d : Defines) (b : Board)

/-- The system after the clock edge, before the asynchronous reset takes effect. -/
def edge : System := if b.resetFf = true then b.sys.step x d else b.sys.heldStep

/-- One clock cycle, with `BUTTON[0]`, which is low when pressed. -/
def step (button : Bool) : Board :=
  { resetFf := button
    sys := if button = true then b.edge x d else (b.edge x d).clear
    held := by
      rintro rfl
      rfl }

/-- The board in cycle `t`. -/
def run (button : ℕ → Bool) : ℕ → Board :=
  Clocked.run (fun t b => b.step x d (button t)) b

section
variable {x d b} {button : ℕ → Bool}

/-- A cycle out of reset. -/
theorem step_of_released (hff : b.resetFf = true) :
    (b.step x d true).sys = b.sys.step x d := if_pos hff

/-- A cycle in reset, whether the button is still down or not. -/
theorem step_of_held (hff : b.resetFf = false) (button : Bool) :
    (b.step x d button).sys = System.reset b.sys.mem b.sys.cpu.rf := by
  have hedge : b.edge x d = b.sys.heldStep := if_neg fun h => Bool.false_ne_true (hff.symm.trans h)
  have hstep : (b.step x d button).sys =
      if button = true then b.edge x d else (b.edge x d).clear := rfl
  rw [hstep, hedge, System.heldStep_eq (b.held hff), System.clear_reset, ite_self]

/-- While the button is down, registers and RAM stay as they are. -/
theorem held_keeps {p u : ℕ} (hpu : p < u) (hpressed : ∀ v, p ≤ v → v < u → button v = false) :
    (b.run x d button u).resetFf = false ∧
      (b.run x d button u).sys.mem = (b.run x d button (p + 1)).sys.mem ∧
      (b.run x d button u).sys.cpu.rf = (b.run x d button (p + 1)).sys.cpu.rf := by
  induction u, hpu using Nat.le_induction with
  | base => exact ⟨hpressed p le_rfl (Nat.lt_succ_self p), rfl, rfl⟩
  | succ u hu ih =>
      obtain ⟨hff, hmem, hrf⟩ := ih fun v hpv hvu => hpressed v hpv (Nat.lt_succ_of_lt hvu)
      have hstep : (b.run x d button (u + 1)).sys =
          System.reset (b.run x d button u).sys.mem (b.run x d button u).sys.cpu.rf :=
        step_of_held hff (button u)
      refine ⟨hpressed u (by omega) (Nat.lt_succ_self u), ?_, ?_⟩
      · rw [hstep, ← hmem]
        rfl
      · rw [hstep, ← hrf]
        rfl

end

/-- **The cycles after a reset.** The button is pressed from cycle `p` to cycle `r` and
released up to cycle `t`. In between nothing is written, and after the release the board is
in the run from reset release on the RAM and the registers it had when it was pressed. -/
theorem system_after_reset (sim : Bool) (button : ℕ → Bool) {p r t : ℕ} (hpr : p < r) (hrt : r ≤ t)
    (hpressed : ∀ u, p ≤ u → u < r → button u = false)
    (hreleased : ∀ u, r ≤ u → u ≤ t → button u = true) :
    (∀ u, p < u → u ≤ r → (b.run x ⟨sim, false⟩ button u).sys.cpu.busWrite = none ∧
      (b.run x ⟨sim, false⟩ button u).sys.cpu.regWrite = none ∧
      (b.run x ⟨sim, false⟩ button u).sys.cpu.tohost = 0#32) ∧
    (b.run x ⟨sim, false⟩ button (t + 1)).sys =
      (Boot.mk x (b.run x ⟨sim, false⟩ button (p + 1)).sys.mem
        (b.run x ⟨sim, false⟩ button (p + 1)).sys.cpu.rf sim).system (t - r) := by
  have hheld : ∀ u, p < u → u ≤ r → (b.run x ⟨sim, false⟩ button u).resetFf = false :=
    fun u hpu hur => (held_keeps hpu fun v hpv hvu => hpressed v hpv (by omega)).1
  constructor
  · intro u hpu hur
    obtain ⟨hbus, hreg, -, htohost⟩ :=
      System.writes_of_held ((b.run x ⟨sim, false⟩ button u).held (hheld u hpu hur))
    exact ⟨hbus, hreg, htohost⟩
  · induction t, hrt using Nat.le_induction with
    | base =>
        obtain ⟨hff, hmem, hrf⟩ := held_keeps (b := b) (x := x) (d := ⟨sim, false⟩) hpr hpressed
        rw [Nat.sub_self, Boot.system_zero, ← hmem, ← hrf]
        exact step_of_held hff (button r)
    | succ t hrt ih =>
        have hprev := ih fun u hru hut => hreleased u hru (Nat.le_succ_of_le hut)
        have hff : (b.run x ⟨sim, false⟩ button (t + 1)).resetFf = true :=
          hreleased t hrt (Nat.le_succ t)
        have hstep : (b.run x ⟨sim, false⟩ button (t + 1 + 1)).sys =
            (b.run x ⟨sim, false⟩ button (t + 1)).sys.step x ⟨sim, false⟩ := by
          rw [run, Clocked.run_succ, ← run, hreleased (t + 1) (by omega) le_rfl]
          exact step_of_released hff
        rw [hstep, hprev, Nat.succ_sub hrt, Boot.system_succ]
        rfl

end Board

/-- All `x` values zero. -/
def XValues.zeros : XValues := ⟨0#3, 0#5, 0#32, 0#32, 0#32⟩

/-- A board out of reset, with registers and RAM of zeros. -/
def Board.zeros : Board :=
  { resetFf := true
    sys := System.reset (fun _ => 0#32) fun _ => 0#32
    held := fun _ => rfl }

/-- A reset of one cycle. -/
theorem zeros_system_after_reset :
    (∀ u, 4 < u → u ≤ 5 →
      (Board.zeros.run .zeros ⟨true, false⟩ (fun v => v != 4) u).sys.cpu.busWrite = none ∧
      (Board.zeros.run .zeros ⟨true, false⟩ (fun v => v != 4) u).sys.cpu.regWrite = none ∧
      (Board.zeros.run .zeros ⟨true, false⟩ (fun v => v != 4) u).sys.cpu.tohost = 0#32) ∧
    (Board.zeros.run .zeros ⟨true, false⟩ (fun v => v != 4) (8 + 1)).sys =
      (Boot.mk .zeros (Board.zeros.run .zeros ⟨true, false⟩ (fun v => v != 4) (4 + 1)).sys.mem
        (Board.zeros.run .zeros ⟨true, false⟩ (fun v => v != 4) (4 + 1)).sys.cpu.rf true).system
        (8 - 5) :=
  Board.zeros.system_after_reset XValues.zeros true (fun v => v != 4) (by omega) (by omega)
    (fun u hpu hur => by
      obtain rfl : u = 4 := by omega
      rfl)
    fun u hru _ => bne_iff_ne.mpr (by omega)

/-! ### The `FPGA` build -/

/-- The board with the `FPGA` build. The registers this build adds have no reset. -/
structure FpgaBoard where
  resetFf : Bool
  sys : FpgaSystem
  held : resetFf = false → sys.sys.clear = sys.sys

namespace FpgaBoard
variable (x : XValues) (d : Defines) (b : FpgaBoard)

/-- The system after the clock edge, before the asynchronous reset takes effect. -/
def edge : FpgaSystem :=
  if b.resetFf = true then b.sys.step x d else ⟨b.sys.sys.heldStep, FpgaRegs.sample d b.sys.sys⟩

/-- One clock cycle, with `BUTTON[0]`. -/
def step (button : Bool) : FpgaBoard :=
  { resetFf := button
    sys := if button = true then b.edge x d else { b.edge x d with sys := (b.edge x d).sys.clear }
    held := by
      rintro rfl
      rfl }

/-- The board in cycle `t`. -/
def run (button : ℕ → Bool) : ℕ → FpgaBoard :=
  Clocked.run (fun t b => b.step x d (button t)) b

section
variable {x d b} {button : ℕ → Bool}

/-- A cycle out of reset. -/
theorem step_of_released (hff : b.resetFf = true) :
    (b.step x d true).sys = b.sys.step x d := if_pos hff

/-- What the added registers sample in reset is what they sample at reset release: the
address bus is zero, whatever the timer holds. -/
theorem sample_of_held {s : System} (h : s.clear = s) :
    FpgaRegs.sample d s = FpgaRegs.sample d (System.reset s.mem s.cpu.rf) := by
  have htimer : ∀ timer : TimerCounter,
      System.readDataTimer ⟨Cpu.reset s.cpu.rf, s.mem, timer, 0#16⟩ = 0#32 := by
    intro timer
    have hsel : System.select ⟨Cpu.reset s.cpu.rf, s.mem, timer, 0#16⟩ = addrDecoder 0#32 := rfl
    have hcs : (addrDecoder 0#32).csTimerN = true := by decide
    rw [System.readDataTimer, TimerCounter.dataOut, System.timerBus, hsel, hcs]
    exact if_neg fun hrd => Bool.true_eq_false.mp hrd.1
  have hread : s.readDataTimer = (System.reset s.mem s.cpu.rf).readDataTimer := by
    rw [← h]
    exact (htimer s.timer).trans (htimer TimerCounter.reset).symm
  rw [FpgaRegs.sample, hread, ← h]
  rfl

/-- A cycle in reset, whether the button is still down or not. -/
theorem step_of_held (hff : b.resetFf = false) (button : Bool) :
    (b.step x d button).sys = FpgaSystem.reset d b.sys.sys.mem b.sys.sys.cpu.rf := by
  have hedge : b.edge x d = FpgaSystem.reset d b.sys.sys.mem b.sys.sys.cpu.rf := by
    rw [edge, if_neg fun h => Bool.false_ne_true (hff.symm.trans h),
      System.heldStep_eq (b.held hff), sample_of_held (b.held hff)]
    rfl
  have hstep : (b.step x d button).sys = if button = true then b.edge x d
      else { b.edge x d with sys := (b.edge x d).sys.clear } := rfl
  rw [hstep, hedge]
  exact ite_self _

/-- While the button is down, registers and RAM stay as they are. -/
theorem held_keeps {p u : ℕ} (hpu : p < u) (hpressed : ∀ v, p ≤ v → v < u → button v = false) :
    (b.run x d button u).resetFf = false ∧
      (b.run x d button u).sys.sys.mem = (b.run x d button (p + 1)).sys.sys.mem ∧
      (b.run x d button u).sys.sys.cpu.rf = (b.run x d button (p + 1)).sys.sys.cpu.rf := by
  induction u, hpu using Nat.le_induction with
  | base => exact ⟨hpressed p le_rfl (Nat.lt_succ_self p), rfl, rfl⟩
  | succ u hu ih =>
      obtain ⟨hff, hmem, hrf⟩ := ih fun v hpv hvu => hpressed v hpv (Nat.lt_succ_of_lt hvu)
      have hstep : (b.run x d button (u + 1)).sys = FpgaSystem.reset d
          (b.run x d button u).sys.sys.mem (b.run x d button u).sys.sys.cpu.rf :=
        step_of_held hff (button u)
      refine ⟨hpressed u (by omega) (Nat.lt_succ_self u), ?_, ?_⟩
      · rw [hstep, ← hmem]
        rfl
      · rw [hstep, ← hrf]
        rfl

end

/-- **The cycles after a reset of the `FPGA` build.** One cycle in reset is enough for the
registers that have none. -/
theorem fpga_after_reset (sim : Bool) (button : ℕ → Bool) {p r t : ℕ} (hpr : p < r) (hrt : r ≤ t)
    (hpressed : ∀ u, p ≤ u → u < r → button u = false)
    (hreleased : ∀ u, r ≤ u → u ≤ t → button u = true) :
    (∀ u, p < u → u ≤ r → (b.run x ⟨sim, true⟩ button u).sys.sys.cpu.busWrite = none ∧
      (b.run x ⟨sim, true⟩ button u).sys.sys.cpu.regWrite = none ∧
      (b.run x ⟨sim, true⟩ button u).sys.sys.cpu.tohost = 0#32) ∧
    (b.run x ⟨sim, true⟩ button (t + 1)).sys =
      (Boot.mk x (b.run x ⟨sim, true⟩ button (p + 1)).sys.sys.mem
        (b.run x ⟨sim, true⟩ button (p + 1)).sys.sys.cpu.rf sim).fpga (t - r) := by
  have hheld : ∀ u, p < u → u ≤ r → (b.run x ⟨sim, true⟩ button u).resetFf = false :=
    fun u hpu hur => (held_keeps hpu fun v hpv hvu => hpressed v hpv (by omega)).1
  constructor
  · intro u hpu hur
    obtain ⟨hbus, hreg, -, htohost⟩ :=
      System.writes_of_held ((b.run x ⟨sim, true⟩ button u).held (hheld u hpu hur))
    exact ⟨hbus, hreg, htohost⟩
  · induction t, hrt using Nat.le_induction with
    | base =>
        obtain ⟨hff, hmem, hrf⟩ := held_keeps (b := b) (x := x) (d := ⟨sim, true⟩) hpr hpressed
        rw [Nat.sub_self, Boot.fpga_zero, ← hmem, ← hrf]
        exact step_of_held hff (button r)
    | succ t hrt ih =>
        have hprev := ih fun u hru hut => hreleased u hru (Nat.le_succ_of_le hut)
        have hff : (b.run x ⟨sim, true⟩ button (t + 1)).resetFf = true :=
          hreleased t hrt (Nat.le_succ t)
        have hstep : (b.run x ⟨sim, true⟩ button (t + 1 + 1)).sys =
            (b.run x ⟨sim, true⟩ button (t + 1)).sys.step x ⟨sim, true⟩ := by
          rw [run, Clocked.run_succ, ← run, hreleased (t + 1) (by omega) le_rfl]
          exact step_of_released hff
        rw [hstep, hprev, Nat.succ_sub hrt, Boot.fpga_succ]
        rfl

end FpgaBoard

/-- The same board with the `FPGA` build, whose added registers hold something else. -/
def FpgaBoard.zeros : FpgaBoard :=
  { resetFf := true
    sys := ⟨System.reset (fun _ => 0#32) fun _ => 0#32, ⟨1#32, 2#32, 3#32, 4#32, false, false⟩⟩
    held := fun _ => rfl }

/-- A reset of one cycle. -/
theorem zeros_fpga_after_reset :
    (∀ u, 4 < u → u ≤ 5 →
      (FpgaBoard.zeros.run .zeros ⟨true, true⟩ (fun v => v != 4) u).sys.sys.cpu.busWrite = none ∧
      (FpgaBoard.zeros.run .zeros ⟨true, true⟩ (fun v => v != 4) u).sys.sys.cpu.regWrite = none ∧
      (FpgaBoard.zeros.run .zeros ⟨true, true⟩ (fun v => v != 4) u).sys.sys.cpu.tohost = 0#32) ∧
    (FpgaBoard.zeros.run .zeros ⟨true, true⟩ (fun v => v != 4) (8 + 1)).sys =
      (Boot.mk .zeros (FpgaBoard.zeros.run .zeros ⟨true, true⟩ (fun v => v != 4) (4 + 1)).sys.sys.mem
        (FpgaBoard.zeros.run .zeros ⟨true, true⟩ (fun v => v != 4) (4 + 1)).sys.sys.cpu.rf true).fpga
        (8 - 5) :=
  FpgaBoard.zeros.fpga_after_reset XValues.zeros true (fun v => v != 4) (by omega) (by omega)
    (fun u hpu hur => by
      obtain rfl : u = 4 := by omega
      rfl)
    fun u hru _ => bne_iff_ne.mpr (by omega)

end SmuRv32im
