import SmuRv32im.Lib.Clocked
import SmuRv32im.Peripherals

/-!
# The Timer

`TimerCounter` out of reset, under an arbitrary sequence of bus cycles. The counter is held
at zero as long as the status flag is set, not only in the cycle of a compare match, and the
flag stays set until it is read. Software that measures time with the counter and never
reads the status loses the counter at the first match: with the reset value of the compare
register, after `2 ^ 32` cycles.

## Main results

* `TimerCounter.flag_step`, `TimerCounter.counterR_step`: what one clock edge does.
* `TimerCounter.run_first`, `TimerCounter.match_first`: the first period from a given state.
* `TimerCounter.counterR_run`: the counter when it is left alone.
* `TimerCounter.elapsed_iff`: which differences of the counter are elapsed times.
-/

namespace SmuRv32im

namespace TimerCounter

/-! ### One clock edge -/

section
variable (b : TimerBus) (s : TimerCounter)

theorem compareR_step (h : ¬b.writesCompare) : (s.step false b).compareR = s.compareR := by
  rw [step, if_neg Bool.false_ne_true, if_neg h]

/-- The flag: a match sets it, a status read clears it, and a match comes first. -/
theorem flag_step : (s.step false b).flag =
    if s.compareR = s.counterR then true else if b.readsStatus then false else s.flag := by
  have hstep : (s.step false b).flag =
      (if s.compareR = s.counterR then s.statusR ||| 1#32
        else if b.readsStatus then s.statusR &&& ~~~1#32
        else s.statusR).getLsbD 0 := rfl
  rw [hstep]
  split_ifs
  · rw [BitVec.getLsbD_or, BitVec.getLsbD_one]
    exact Bool.or_true _
  · rw [BitVec.getLsbD_and, BitVec.getLsbD_not, BitVec.getLsbD_one]
    exact Bool.and_false _
  · rfl

/-- The counter: held at zero by the flag, counting otherwise. -/
theorem counterR_step :
    (s.step false b).counterR = if s.flag = true then 0#32 else s.counterR + 1#32 := by
  simp [step]

end

theorem flag_reset : reset.flag = false := by
  simp [flag, reset]

/-! ### From a state -/

/-- The timer from the state `s` under the bus cycles `bus`. -/
def runFrom (s : TimerCounter) (bus : ℕ → TimerBus) : ℕ → TimerCounter :=
  Clocked.run (fun t s => s.step false (bus t)) s

/-- Bus cycles that do not write the compare register. -/
def KeepsCompare (bus : ℕ → TimerBus) : Prop := ∀ t, ¬(bus t).writesCompare

/-- The state at the start of a period. -/
structure PeriodStart (s : TimerCounter) : Prop where
  flag : s.flag = false
  counterR : s.counterR = 0#32

section
variable (s : TimerCounter) (bus : ℕ → TimerBus) (t : ℕ)

theorem runFrom_succ : runFrom s bus (t + 1) = (runFrom s bus t).step false (bus t) := rfl

/-- A compare match in cycle `t`. -/
def Match : Prop := (runFrom s bus t).compareR = (runFrom s bus t).counterR

instance : DecidablePred (Match s bus) := fun _ => inferInstanceAs (Decidable (_ = _))

/-- The flag after a cycle: set by a match, kept until a status read. -/
theorem flag_succ_iff : (runFrom s bus (t + 1)).flag = true ↔
    Match s bus t ∨ ((runFrom s bus t).flag = true ∧ ¬(bus t).readsStatus) := by
  rw [runFrom_succ, flag_step, Match]
  by_cases hmatch : (runFrom s bus t).compareR = (runFrom s bus t).counterR
  · simp [hmatch]
  · by_cases hread : (bus t).readsStatus
    · simp [hmatch, hread]
    · simp [hmatch, hread]

end

section
variable {s : TimerCounter} {bus : ℕ → TimerBus} (hbus : KeepsCompare bus)
include hbus

theorem compareR_runFrom (t : ℕ) : (runFrom s bus t).compareR = s.compareR := by
  refine Clocked.run_invariant (fun _ (q : TimerCounter) => q.compareR = s.compareR) rfl ?_ t
  intro u q hq
  rw [compareR_step _ _ (hbus u), hq]

variable (hs : PeriodStart s)
include hs

/-- **The first period**: up to the match the flag is clear and the counter counts. -/
theorem run_first {t : ℕ} (ht : t ≤ s.compareR.toNat) :
    (runFrom s bus t).flag = false ∧ (runFrom s bus t).counterR = BitVec.ofNat 32 t := by
  induction t with
  | zero => exact ⟨hs.flag, hs.counterR⟩
  | succ t ih =>
      obtain ⟨hflag, hcount⟩ := ih (by omega)
      have hmatch : ¬Match s bus t := by
        rw [Match, compareR_runFrom hbus, hcount]
        intro heq
        have hnat := congrArg BitVec.toNat heq
        rw [BitVec.toNat_ofNat] at hnat
        omega
      constructor
      · refine eq_false_of_ne_true ?_
        intro hset
        obtain hm | ⟨hset, -⟩ := (flag_succ_iff s bus t).mp hset
        · exact hmatch hm
        · exact Bool.false_ne_true (hflag.symm.trans hset)
      · rw [runFrom_succ, counterR_step, hflag, if_neg Bool.false_ne_true, hcount,
          BitVec.ofNat_add]

/-- It ends with the match in the cycle of the compare value. -/
theorem match_first : Match s bus s.compareR.toNat := by
  obtain ⟨-, hcount⟩ := run_first hbus hs le_rfl
  rw [Match, compareR_runFrom hbus, hcount, BitVec.ofNat_toNat, BitVec.setWidth_eq]

/-- In the cycle behind the match the counter is behind the compare value. -/
theorem counterR_behind : (runFrom s bus (s.compareR.toNat + 1)).counterR = s.compareR + 1#32 := by
  obtain ⟨hflag, hcount⟩ := run_first hbus hs le_rfl
  rw [runFrom_succ, counterR_step, hflag, if_neg Bool.false_ne_true, hcount, BitVec.ofNat_toNat,
    BitVec.setWidth_eq]

end

/-! ### Left alone -/

/-- The timer from reset under the bus cycles `bus`. -/
def run (bus : ℕ → TimerBus) : ℕ → TimerCounter :=
  Clocked.run (fun t s => s.step false (bus t)) reset

theorem run_succ (bus : ℕ → TimerBus) (t : ℕ) :
    run bus (t + 1) = (run bus t).step false (bus t) := rfl

/-- Bus cycles that neither write the compare register nor read the status register. -/
def Unattended (bus : ℕ → TimerBus) : Prop :=
  ∀ t, ¬(bus t).writesCompare ∧ ¬(bus t).readsStatus

section
variable {bus : ℕ → TimerBus} (h : Unattended bus)
include h

theorem compareR_run (t : ℕ) : (run bus t).compareR = 0xFFFFFFFF#32 :=
  compareR_runFrom (fun u => (h u).1) t

/-- The first period: the counter counts the cycles. -/
theorem run_of_lt {t : ℕ} (ht : t < 2 ^ 32) :
    (run bus t).flag = false ∧ (run bus t).counterR = BitVec.ofNat 32 t :=
  run_first (fun u => (h u).1) ⟨flag_reset, rfl⟩ (Nat.le_of_lt_succ ht)

/-- After the first match: the flag is never cleared and holds the counter at zero. -/
theorem run_of_ge {t : ℕ} (ht : 2 ^ 32 ≤ t) :
    (run bus t).flag = true ∧ (run bus t).counterR = 0#32 := by
  induction t, ht using Nat.le_induction with
  | base =>
      obtain ⟨hflag, hcount⟩ := run_of_lt h (t := 2 ^ 32 - 1) (by omega)
      have hsucc : run bus (2 ^ 32) =
          (run bus (2 ^ 32 - 1)).step false (bus (2 ^ 32 - 1)) := run_succ bus (2 ^ 32 - 1)
      constructor
      · rw [hsucc, flag_step, if_pos]
        rw [compareR_run h, hcount]
        rfl
      · rw [hsucc, counterR_step, hflag, if_neg Bool.false_ne_true, hcount]
        rfl
  | succ t _ ih =>
      obtain ⟨hflag, hcount⟩ := ih
      have hne : ¬(run bus t).compareR = (run bus t).counterR := by
        simp [compareR_run h, hcount]
      constructor
      · rw [run_succ, flag_step, if_neg hne, if_neg (h t).2, hflag]
      · rw [run_succ, counterR_step, hflag, if_pos rfl]

/-- **The counter of a timer left alone**: the cycle for `2 ^ 32` cycles, zero from then on. -/
theorem counterR_run (t : ℕ) :
    (run bus t).counterR.toNat = if t < 2 ^ 32 then t else 0 := by
  split_ifs with ht
  · obtain ⟨-, hcount⟩ := run_of_lt h ht
    rw [hcount, BitVec.toNat_ofNat, Nat.mod_eq_of_lt ht]
  · obtain ⟨-, hcount⟩ := run_of_ge h (Nat.le_of_not_lt ht)
    rw [hcount, BitVec.toNat_ofNat, Nat.zero_mod]

/-- The difference of two counter values, as a number. -/
theorem counterR_sub (i j : ℕ) :
    ((run bus j).counterR - (run bus i).counterR).toNat =
      (2 ^ 32 - (if i < 2 ^ 32 then i else 0) + (if j < 2 ^ 32 then j else 0)) % 2 ^ 32 := by
  rw [BitVec.toNat_sub, counterR_run h, counterR_run h]

/-- **When the counter measures time.** The difference of the counter between two cycles is
the elapsed time modulo `2 ^ 32` exactly if the counter was not stopped in between, or was
stopped for a multiple of `2 ^ 32` cycles. -/
theorem elapsed_iff {i j : ℕ} (hij : i ≤ j) :
    (run bus j).counterR - (run bus i).counterR = BitVec.ofNat 32 (j - i) ↔
      j ≤ 2 ^ 32 ∨ (j - max i (2 ^ 32)) % 2 ^ 32 = 0 := by
  rw [← BitVec.toNat_inj, counterR_sub h, BitVec.toNat_ofNat]
  split_ifs with hi hj hj
  · omega
  · omega
  · omega
  · omega

end

/-- A bus that reads the counter register in every cycle. -/
def counterBus : TimerBus := ⟨false, false, true, 0x100#12, 0#32⟩

theorem counterBus_unattended : Unattended fun _ => counterBus := by
  intro _
  simp [counterBus, TimerBus.writesCompare, TimerBus.readsStatus]

/-- Seven cycles of the first period. -/
theorem elapsed_seven :
    (run (fun _ => counterBus) 10).counterR - (run (fun _ => counterBus) 3).counterR = 7#32 :=
  (elapsed_iff counterBus_unattended (i := 3) (j := 10) (by omega)).mpr (Or.inl (by omega))

/-- The cycle after the wrap is not counted. -/
theorem elapsed_after_wrap :
    Unattended (fun _ => counterBus) ∧
      (run (fun _ => counterBus) (2 ^ 32 + 1)).counterR -
        (run (fun _ => counterBus) (2 ^ 32)).counterR ≠
          BitVec.ofNat 32 (2 ^ 32 + 1 - 2 ^ 32) := by
  refine ⟨counterBus_unattended, ?_⟩
  obtain ⟨-, hi⟩ := run_of_ge counterBus_unattended (t := 2 ^ 32) le_rfl
  obtain ⟨-, hj⟩ := run_of_ge counterBus_unattended (t := 2 ^ 32 + 1) (by omega)
  rw [hi, hj]
  simp

end TimerCounter

end SmuRv32im
