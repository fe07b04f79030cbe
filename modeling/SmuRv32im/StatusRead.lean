import SmuRv32im.Occupancy
import SmuRv32im.Timer

/-!
# Reads of the Timer Status

Reading the status register of the timer clears its flag. The read strobe of the system is
the absence of a write (`data_re = ~data_we`), and the address bus carries the ALU result of
whatever is in Memory. A bubble has the ALU result zero and does no harm; any other
instruction that is not a store reads the status register if its ALU result happens to be
the address of that register.

## Main results

* `System.readsStatus_iff`: when the timer sees a status read.
* `Boot.flagCleared_iff`: when the flag is cleared.
* `Boot.readOnPurpose_iff`: the flag is cleared by loads of the status register
  only, exactly in the runs without a stray address.
-/

namespace SmuRv32im

/-- The address of the timer status register. -/
def statusAddr : Word := 0x80001200#32

/-- The timer is selected exactly in its page. -/
theorem csTimerN_iff (addr : Word) :
    (addrDecoder addr).csTimerN = false ↔ addr.extractLsb' 12 20 = 0x80001#20 := by
  rw [addrDecoder]
  constructor
  · intro h
    split_ifs at h with hmem htimer htbman
    · exact htimer
  · intro h
    have hmem : addr.extractLsb' 28 4 ≠ 0x1#4 := by
      intro hmem
      have h1 := congrArg BitVec.toNat h
      have h2 := congrArg BitVec.toNat hmem
      rw [BitVec.extractLsb'_toNat, Nat.shiftRight_eq_div_pow, BitVec.toNat_ofNat] at h1 h2
      omega
    rw [if_neg hmem, if_pos h]

/-- **When the timer sees a status read**: whenever no write is on the bus and the address is
that of the status register. -/
theorem System.readsStatus_iff (s : System) :
    s.timerBus.readsStatus ↔
      s.cpu.em.memWriteM = false ∧ s.cpu.em.aluResultM = statusAddr := by
  have hbus : s.timerBus.readsStatus ↔
      (addrDecoder s.cpu.em.aluResultM).csTimerN = false ∧
        (!(!s.cpu.em.memWriteM)) = false ∧
        s.cpu.em.aluResultM.extractLsb' 0 12 = 0x200#12 := Iff.rfl
  rw [hbus, csTimerN_iff, Bool.not_not]
  constructor
  · rintro ⟨hpage, hmw, hreg⟩
    refine ⟨hmw, BitVec.eq_of_toNat_eq ?_⟩
    have hpage' := congrArg BitVec.toNat hpage
    have hreg' := congrArg BitVec.toNat hreg
    rw [BitVec.extractLsb'_toNat, Nat.shiftRight_eq_div_pow, BitVec.toNat_ofNat] at hpage'
    rw [BitVec.extractLsb'_toNat, Nat.shiftRight_zero, BitVec.toNat_ofNat] at hreg'
    rw [statusAddr, BitVec.toNat_ofNat]
    have hlt := s.cpu.em.aluResultM.isLt
    omega
  · rintro ⟨hmw, haddr⟩
    rw [haddr]
    exact ⟨by decide, hmw, by decide⟩

namespace Boot
variable (b : Boot) (fpga : Bool)

/-- The timer flag in cycle `t` of a build. -/
def timerFlag (t : ℕ) : Bool := (b.inBuild fpga t).timer.flag

/-- The timer flag is set in cycle `t` and clear in the next. -/
def FlagCleared (t : ℕ) : Prop := b.timerFlag fpga t = true ∧ b.timerFlag fpga (t + 1) = false

/-- The timer matches in cycle `t`. -/
def TimerMatch (t : ℕ) : Prop :=
  (b.inBuild fpga t).timer.compareR = (b.inBuild fpga t).timer.counterR

/-- **When the flag is cleared**: by a status read that does not meet a match. -/
theorem flagCleared_iff (t : ℕ) :
    b.FlagCleared fpga t ↔ b.timerFlag fpga t = true ∧ ¬b.TimerMatch fpga t ∧
      (b.inBuild fpga t).cpu.em.memWriteM = false ∧
        (b.inBuild fpga t).cpu.em.aluResultM = statusAddr := by
  have hnext : b.timerFlag fpga (t + 1) =
      ((b.inBuild fpga t).timer.step false (b.inBuild fpga t).timerBus).flag := by
    cases fpga <;> rfl
  rw [FlagCleared, hnext, TimerCounter.flag_step, ← System.readsStatus_iff, TimerMatch]
  constructor
  · rintro ⟨hflag, hcleared⟩
    split_ifs at hcleared with hmatch hread
    · exact ⟨hflag, hmatch, hread⟩
    · simp [timerFlag, hcleared] at hflag
  · rintro ⟨hflag, hmatch, hread⟩
    refine ⟨hflag, ?_⟩
    rw [if_neg hmatch, if_pos hread]

/-- What is expected of the first `T` cycles: the flag is cleared by loads of the status
register only. -/
def ReadOnPurpose (T : ℕ) : Prop :=
  ∀ t, t < T → b.FlagCleared fpga t →
    ((b.buildRun fpga).occ t).m = true ∧ opcode (b.inBuild fpga t).cpu.em.instrM = opcLoad ∧
      (b.inBuild fpga t).cpu.em.aluResultM = statusAddr

/-- An instruction in Memory that is neither a load nor a store has the status address for
its ALU result, while the flag is set and the timer does not match. -/
def StrayAddress (t : ℕ) : Prop :=
  ((b.buildRun fpga).occ t).m = true ∧ opcode (b.inBuild fpga t).cpu.em.instrM ≠ opcLoad ∧
    opcode (b.inBuild fpga t).cpu.em.instrM ≠ opcStore ∧
    (b.inBuild fpga t).cpu.em.aluResultM = statusAddr ∧ b.timerFlag fpga t = true ∧
    ¬b.TimerMatch fpga t

/-- In an occupied Memory slot the write strobe is that of a store. -/
theorem memWriteM_iff {t : ℕ} (hm : ((b.buildRun fpga).occ t).m = true) :
    (b.inBuild fpga t).cpu.em.memWriteM = true ↔
      opcode (b.inBuild fpga t).cpu.em.instrM = opcStore := by
  rw [((b.inBuild_slots fpga t).decodedM hm).memWriteM]
  exact controller_memWrite _ _

/-- A bubble in Memory does not read the status register. -/
theorem occ_of_statusAddr {t : ℕ} (h : (b.inBuild fpga t).cpu.em.aluResultM = statusAddr) :
    ((b.buildRun fpga).occ t).m = true := by
  by_contra hm
  have hzero := ((b.inBuild_slots fpga t).idleM (eq_false_of_ne_true hm)).aluResultM
  simp [h, statusAddr] at hzero

/-- **When the timer status is read on purpose.** In the first `T` cycles of a run of either
build the flag is cleared by loads of the status register only, exactly if no stray address
occurs in them. -/
theorem readOnPurpose_iff (T : ℕ) :
    b.ReadOnPurpose fpga T ↔ ∀ t, t < T → ¬b.StrayAddress fpga t := by
  constructor
  · rintro h t ht ⟨hm, hload, hstore, haddr, hflag, hmatch⟩
    have hmw : (b.inBuild fpga t).cpu.em.memWriteM = false :=
      eq_false_of_ne_true fun hmw => hstore ((b.memWriteM_iff fpga hm).mp hmw)
    have hcleared := (b.flagCleared_iff fpga t).mpr ⟨hflag, hmatch, hmw, haddr⟩
    exact hload (h t ht hcleared).2.1
  · intro h t ht hcleared
    obtain ⟨hflag, hmatch, hmw, haddr⟩ := (b.flagCleared_iff fpga t).mp hcleared
    have hm := b.occ_of_statusAddr fpga haddr
    refine ⟨hm, ?_, haddr⟩
    by_contra hload
    refine h t ht ⟨hm, hload, ?_, haddr, hflag, hmatch⟩
    intro hstore
    simp [(b.memWriteM_iff fpga hm).mpr hstore] at hmw

end Boot

/-! ### A program that loses a timer event -/

/-- `sw x2, 0(x1)`, two `nop`, `addi x5, x1, 0x200`, with `x1` pointing to the compare
register and `5` in `x2`. -/
def strayBoot : Boot :=
  { x := ⟨0#3, 0#5, 0#32, 0#32, 0#32⟩
    image := fun a => if a = 0#17 then 0x0020A023#32 else if a = 3#17 then 0x20008293#32
      else 0x00000013#32
    rf := fun i => if i = 1#5 then 0x80001000#32 else if i = 2#5 then 5#32 else 0#32
    sim := true }

/-- The `addi` of this run clears the flag in cycle 6. -/
theorem stray_clears_flag : ¬∀ T, strayBoot.ReadOnPurpose false T := by
  intro h
  have hflag : strayBoot.timerFlag false 6 = true := by decide +kernel
  have hcleared : strayBoot.timerFlag false 7 = false := by decide +kernel
  have haddi : opcode (strayBoot.system 6).cpu.em.instrM = opcAriItype := by decide +kernel
  obtain ⟨-, hload, -⟩ := h 7 6 (by omega) ⟨hflag, hcleared⟩
  have hload' : opcode (strayBoot.system 6).cpu.em.instrM = opcLoad := hload
  simp [haddi] at hload'

end SmuRv32im
