import SmuRv32im.Devices
import SmuRv32im.TimerEvents

/-!
# The Timer under Any Bus

`TimerCounter` out of reset, under bus cycles of every kind. What its registers hold can be
read off the bus: the compare register the last value written to it, the flag whether there was
a match since the last status read, and the counter the cycles since the flag was last set.

The compare register may be written while the counter runs. The next match then comes as soon
as the counter gets there, which is one round of the counter later if it is already past the
value. Zero is a value of its own. The counter is at zero in every other cycle, so each of
them is a match, and the flag has to be read in the cycle between. If it is once not, it is
set for ever, and no read clears it any more.

## Main results

* `TimerCounter.history`: what the registers hold, under any bus.
* `TimerCounter.set_compare`: what follows a write of the compare register.
* `TimerCounter.zero_compare`: the flag under the compare value zero.
* `Boot.deviceReads_status`: what a load of the status register finds.
-/

namespace SmuRv32im

/-- The value a bus cycle gives the compare register. -/
def TimerBus.compareValue (b : TimerBus) : Option Word :=
  if b.writesCompare then some b.dataIn else none

namespace TimerCounter

/-! ### The registers -/

/-- The counter is at zero in cycle `m`, out of reset or by the flag. -/
def Restart (bus : ℕ → TimerBus) (m : ℕ) : Prop :=
  m = 0 ∨ ∃ u, m = u + 1 ∧ (run bus u).flag = true

/-- What the registers hold in cycle `t`, in terms of the cycles before. -/
structure History (bus : ℕ → TimerBus) (t : ℕ) : Prop where
  compareR : (run bus t).compareR =
    (Clocked.log (fun u => (bus u).compareValue) t).getLastD 0xFFFFFFFF#32
  statusR : (run bus t).statusR = if (run bus t).flag = true then 1#32 else 0#32
  flag : (run bus t).flag = true ↔
    ∃ m, m < t ∧ Match reset bus m ∧ ∀ u, m < u → u < t → ¬StatusRead bus u
  counterR : ∃ m, m ≤ t ∧ Restart bus m ∧ (∀ u, m ≤ u → u < t → (run bus u).flag = false) ∧
    (run bus t).counterR = BitVec.ofNat 32 (t - m)

section
variable (bus : ℕ → TimerBus) (t : ℕ)

theorem compareR_eq_getLastD : (run bus t).compareR =
    (Clocked.log (fun u => (bus u).compareValue) t).getLastD 0xFFFFFFFF#32 := by
  refine Clocked.register_eq_getLastD_log (r := fun t => (run bus t).compareR) ?_ t
  intro t
  rw [run_succ, TimerBus.compareValue]
  by_cases hw : (bus t).writesCompare
  · simp [step, hw]
  · simp [step, hw]

theorem flag_iff : (run bus t).flag = true ↔
    ∃ m, m < t ∧ Match reset bus m ∧ ∀ u, m < u → u < t → ¬StatusRead bus u := by
  refine full_iff_exists_set (fun t => (run bus t).flag = true) ?_ (flag_succ_iff reset bus) t
  intro hset
  exact Bool.false_ne_true (flag_reset.symm.trans hset)

/-- The counter counts the cycles since it was last at zero by the flag. -/
theorem counterR_eq_ofNat : ∃ m, m ≤ t ∧ Restart bus m ∧
    (∀ u, m ≤ u → u < t → (run bus u).flag = false) ∧
      (run bus t).counterR = BitVec.ofNat 32 (t - m) := by
  induction t with
  | zero =>
      refine ⟨0, le_rfl, Or.inl rfl, ?_, rfl⟩
      intro u _ hu
      exact absurd hu (Nat.not_lt_zero u)
  | succ t ih =>
      rw [run_succ, counterR_step]
      cases hflag : (run bus t).flag with
      | true =>
          refine ⟨t + 1, le_rfl, Or.inr ⟨t, rfl, hflag⟩, ?_, ?_⟩
          · intro u hu hut
            omega
          · rw [if_pos rfl, Nat.sub_self]
      | false =>
          obtain ⟨m, hm, hstart, hclear, hcount⟩ := ih
          refine ⟨m, Nat.le_succ_of_le hm, hstart, ?_, ?_⟩
          · intro u hmu hut
            obtain hlt | rfl := Nat.lt_succ_iff_lt_or_eq.mp hut
            · exact hclear u hmu hlt
            · exact hflag
          · rw [if_neg Bool.false_ne_true, hcount, Nat.succ_sub hm, Nat.succ_eq_add_one,
              BitVec.ofNat_add]

/-- **The registers of the timer** are functions of what has been on its bus. -/
theorem history : History bus t where
  compareR := compareR_eq_getLastD bus t
  statusR := statusR_run flag_reset bus t
  flag := flag_iff bus t
  counterR := counterR_eq_ofNat bus t

end

/-! ### Setting the timer -/

/-- The cycles from the state to the next match, if nothing interferes. -/
def toMatch (s : TimerCounter) : ℕ := (s.compareR - s.counterR).toNat

section
variable {s : TimerCounter} {bus : ℕ → TimerBus} (hbus : KeepsCompare bus)
  (hclear : s.flag = false)
include hbus hclear

/-- Up to the next match the flag is clear and the counter counts on. -/
theorem run_toMatch {t : ℕ} (ht : t ≤ s.toMatch) : (runFrom s bus t).flag = false ∧
    (runFrom s bus t).counterR = s.counterR + BitVec.ofNat 32 t := by
  induction t with
  | zero => exact ⟨hclear, (BitVec.add_zero _).symm⟩
  | succ t ih =>
      obtain ⟨hflag, hcount⟩ := ih (by omega)
      have hmatch : ¬Match s bus t := by
        rw [Match, compareR_runFrom hbus, hcount, BitVec.add_comm]
        intro heq
        have hlt := (s.compareR - s.counterR).isLt
        rw [toMatch, BitVec.eq_sub_iff_add_eq.mpr heq.symm |>.symm, BitVec.toNat_ofNat] at ht
        have hle := Nat.mod_le t (2 ^ 32)
        omega
      constructor
      · refine eq_false_of_ne_true ?_
        intro hset
        obtain hm | ⟨hset, -⟩ := (flag_succ_iff s bus t).mp hset
        · exact hmatch hm
        · exact Bool.false_ne_true (hflag.symm.trans hset)
      · rw [runFrom_succ, counterR_step, hflag, if_neg Bool.false_ne_true, hcount,
          BitVec.ofNat_add, BitVec.add_assoc]

theorem match_toMatch : Match s bus s.toMatch := by
  obtain ⟨-, hcount⟩ := run_toMatch hbus hclear le_rfl
  rw [Match, compareR_runFrom hbus, hcount, toMatch, BitVec.ofNat_toNat, BitVec.setWidth_eq,
    BitVec.add_comm, BitVec.sub_add_cancel]

end

/-- What follows a write of the compare register in cycle `w`, if there is none after it. -/
structure Alarm (bus : ℕ → TimerBus) (w : ℕ) : Prop where
  /-- The flag stays clear up to the match, and the counter counts on to the value. -/
  quiet : ∀ t, t ≤ (run bus (w + 1)).toMatch → (run bus (w + 1 + t)).flag = false ∧
    (run bus (w + 1 + t)).counterR = (run bus (w + 1)).counterR + BitVec.ofNat 32 t
  arrives : (run bus (w + 1 + (run bus (w + 1)).toMatch)).counterR = (bus w).dataIn
  /-- From the next cycle on it is set, until it is read. -/
  pending : ∀ t, (run bus (w + 1)).toMatch < t →
    (∀ u, (run bus (w + 1)).toMatch < u → u < t → ¬StatusRead bus (w + 1 + u)) →
      (run bus (w + 1 + t)).flag = true
  /-- The first read starts a period of the value that was written. -/
  read : ∀ r, FirstRead (fun u => StatusRead bus (w + 1 + u)) (run bus (w + 1)).toMatch r →
    PeriodStart (run bus (w + 1 + (r + 1))) ∧
      (run bus (w + 1 + (r + 1))).compareR = (bus w).dataIn

section
variable {bus : ℕ → TimerBus} {w : ℕ} (hw : (bus w).writesCompare)
include hw

theorem compareR_of_write : (run bus (w + 1)).compareR = (bus w).dataIn := by
  rw [run_succ, step, if_neg Bool.false_ne_true, if_pos hw]

/-- **Setting the compare register** of a timer that is running. The match is in the cycle in
which the counter has the value, and from the first status read behind it on the timer runs in
periods of the value. -/
theorem set_compare (hkeep : ∀ u, w < u → ¬(bus u).writesCompare)
    (hclear : (run bus (w + 1)).flag = false) (hne : (bus w).dataIn ≠ 0#32) : Alarm bus w := by
  have hbus : KeepsCompare fun u => bus (w + 1 + u) := fun u => hkeep _ (by omega)
  have hrun : ∀ t, run bus (w + 1 + t) =
      runFrom (run bus (w + 1)) (fun u => bus (w + 1 + u)) t :=
    fun t => Clocked.run_add _ _ (w + 1) t
  have hC := compareR_of_write hw
  have hlatch := latch hbus hclear (hC ▸ hne)
  have hmatch := match_toMatch hbus hclear
  constructor
  · intro t ht
    rw [hrun]
    exact run_toMatch hbus hclear ht
  · rw [hrun, ← hC, ← compareR_runFrom hbus]
    exact hmatch.symm
  · intro t ht hunread
    rw [hrun]
    exact hlatch.full_of_set hmatch ht hunread
  · intro r hfirst
    rw [hrun, ← hC]
    have hset := hlatch.full_of_firstRead hmatch hfirst
    exact ⟨periodStart_of_read hbus hclear (hC ▸ hne) hfirst.2.1 hset, compareR_runFrom hbus _⟩

end

/-- Setting the compare register to 5 when the counter is at 2. -/
def setBus (t : ℕ) : TimerBus := ⟨false, t = 2, t ≠ 2, 0x000#12, 5#32⟩

theorem setBus_alarm : (run setBus 3).toMatch = 2 ∧ Alarm setBus 2 := by
  refine ⟨rfl, set_compare ⟨rfl, rfl, rfl⟩ ?_ rfl (by decide)⟩
  rintro u hu ⟨-, hwr, -⟩
  have hne : u ≠ 2 := by omega
  simp [setBus, hne] at hwr

/-! ### The compare value zero -/

section
variable {s : TimerCounter} {bus : ℕ → TimerBus} (hbus : KeepsCompare bus) (hs : PeriodStart s)
  (hC : s.compareR = 0#32)
include hbus hs hC

/-- In every other cycle the counter is at zero, and the flag is clear only if all cycles
between read it. -/
theorem zero_compare_even (n : ℕ) : (runFrom s bus (2 * n)).counterR = 0#32 ∧
    ((runFrom s bus (2 * n)).flag = true ↔ ∃ j, j < n ∧ ¬StatusRead bus (2 * j + 1)) := by
  induction n with
  | zero =>
      refine ⟨hs.counterR, iff_of_false ?_ ?_⟩
      · intro hset
        exact Bool.false_ne_true (hs.flag.symm.trans hset)
      · rintro ⟨j, hj, -⟩
        exact Nat.not_lt_zero j hj
  | succ n ih =>
      obtain ⟨hcount, hflag⟩ := ih
      have hset : (runFrom s bus (2 * n + 1)).flag = true := by
        refine (flag_succ_iff s bus (2 * n)).mpr (Or.inl ?_)
        rw [Match, compareR_runFrom hbus, hC, hcount]
      have hmatch : Match s bus (2 * n + 1) ↔ (runFrom s bus (2 * n)).flag = true := by
        rw [Match, compareR_runFrom hbus, hC, runFrom_succ, counterR_step, hcount]
        cases (runFrom s bus (2 * n)).flag <;> simp
      have hsucc : 2 * (n + 1) = 2 * n + 1 + 1 := by omega
      rw [hsucc]
      constructor
      · rw [runFrom_succ, counterR_step, if_pos hset]
      · rw [flag_succ_iff, hmatch, hflag]
        constructor
        · rintro (⟨j, hj, hunread⟩ | ⟨-, hunread⟩)
          · exact ⟨j, Nat.lt_succ_of_lt hj, hunread⟩
          · exact ⟨n, Nat.lt_succ_self n, hunread⟩
        · rintro ⟨j, hj, hunread⟩
          obtain hlt | rfl := Nat.lt_succ_iff_lt_or_eq.mp hj
          · exact Or.inl ⟨j, hlt, hunread⟩
          · exact Or.inr ⟨hset, hunread⟩

/-- **The compare value zero.** The flag is set in every odd cycle, and in every cycle behind
an odd one that does not read it. -/
theorem zero_compare (t : ℕ) : (runFrom s bus t).flag = true ↔
    t % 2 = 1 ∨ ∃ j, 2 * j + 1 < t ∧ ¬StatusRead bus (2 * j + 1) := by
  obtain ⟨n, rfl | rfl⟩ := t.even_or_odd'
  · obtain ⟨-, hflag⟩ := zero_compare_even hbus hs hC n
    rw [hflag]
    constructor
    · rintro ⟨j, hj, hunread⟩
      exact Or.inr ⟨j, by omega, hunread⟩
    · rintro (hodd | ⟨j, hj, hunread⟩)
      · omega
      · exact ⟨j, by omega, hunread⟩
  · obtain ⟨hcount, -⟩ := zero_compare_even hbus hs hC n
    refine iff_of_true ((flag_succ_iff s bus (2 * n)).mpr (Or.inl ?_)) (Or.inl (by omega))
    rw [Match, compareR_runFrom hbus, hC, hcount]

end

/-- Status reads in cycles 1 and 5: the one in cycle 3 is missing, and the flag is set in
cycle 6, behind a read. -/
def missBus (t : ℕ) : TimerBus := ⟨false, t ≠ 1 ∧ t ≠ 5, true, 0x200#12, 0#32⟩

theorem missBus_stuck : (runFrom ⟨0#32, 0#32, 0#32⟩ missBus 6).flag = true ↔
    6 % 2 = 1 ∨ ∃ j, 2 * j + 1 < 6 ∧ ¬StatusRead missBus (2 * j + 1) := by
  refine zero_compare ?_ ⟨rfl, rfl⟩ rfl 6
  rintro u ⟨-, hwr, -⟩
  cases hwr

end TimerCounter

/-! ### The status register on the pipeline -/

namespace Boot
variable {b : Boot} {n k : ℕ}

/-- **The status register**: a load finds 1 if there was a match since the bus last addressed
the register, and 0 otherwise. -/
theorem deviceReads_status (h : b.Conforms n) (hk : k < n) {s : Hart}
    (hs : b.hart k = some s) {o : LoadOp} {d r1 : BitVec 5} {i : BitVec 12}
    (hi : s.instr? = some (.load o d r1 i)) (haddr : Instr.addr s r1 i = 0x80001200#32) :
    (b.deviceReads k = 0#32 ∨ b.deviceReads k = 1#32) ∧
      (b.deviceReads k = 1#32 ↔ ∃ m, m < b.access k ∧
        (b.system m).timer.compareR = (b.system m).timer.counterR ∧
        ∀ u, m < u → u < b.access k → ¬(b.system u).timerBus.readsStatus) := by
  have hcs : (addrDecoder (Instr.addr s r1 i)).csTimerN = false := by
    rw [haddr]
    decide
  have hstatus : b.deviceReads k = (b.system (b.access k)).timer.statusR := by
    rw [deviceReads_timer h hk hs hi hcs, haddr]
    rfl
  have hvalue : (b.system (b.access k)).timer.statusR =
      if (b.system (b.access k)).timer.flag = true then 1#32 else 0#32 := by
    rw [b.timer_eq]
    exact TimerCounter.statusR_run TimerCounter.flag_reset _ (b.access k)
  have hone : b.deviceReads k = 1#32 ↔ (b.system (b.access k)).timer.flag = true := by
    rw [hstatus, hvalue]
    split_ifs with hset
    · exact iff_of_true rfl hset
    · exact iff_of_false (by decide) hset
  constructor
  · rw [hstatus, hvalue]
    split_ifs
    · exact Or.inr rfl
    · exact Or.inl rfl
  · rw [hone, b.timer_eq, TimerCounter.flag_iff]
    simp only [b.timer_eq]
    rfl

end Boot

/-- `lui x1, 0x80001`, `lw x0, 0x200(x1)` and `j .`. -/
def statusBoot : Boot :=
  { x := ⟨0#3, 0#5, 0#32, 0#32, 0#32⟩
    image := fun a => if a = 0#17 then 0x800010B7#32 else if a = 1#17 then 0x2000A003#32
      else if a = 2#17 then 0x0000006F#32 else 0#32
    rf := fun _ => 0#32
    sim := true }

theorem statusBoot_reads_status :
    (statusBoot.deviceReads 1 = 0#32 ∨ statusBoot.deviceReads 1 = 1#32) ∧
      (statusBoot.deviceReads 1 = 1#32 ↔ ∃ m, m < statusBoot.access 1 ∧
        (statusBoot.system m).timer.compareR = (statusBoot.system m).timer.counterR ∧
        ∀ u, m < u → u < statusBoot.access 1 → ¬(statusBoot.system u).timerBus.readsStatus) := by
  have hrun : statusBoot.FreeRun (fun _ => 0#32) 3 := by
    decide +kernel
  obtain ⟨s, hs, hi, haddr⟩ := hrun.exists_hart (k := 1) (by omega)
    (P := fun s => s.instr? = some (.load .lw 0#5 1#5 0x200#12) ∧
      Instr.addr s 1#5 0x200#12 = 0x80001200#32) (by decide +kernel)
  exact Boot.deviceReads_status hrun.conforms (by omega) hs hi haddr

end SmuRv32im
