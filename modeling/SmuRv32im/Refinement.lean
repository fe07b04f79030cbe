import SmuRv32im.Simulation

/-!
# The Pipeline Refines the Sequential Machine

The simulation, lifted to runs. The positions of the relation are the numbers of
instructions that have left Writeback, Memory and Execute, so what the pipeline shows in
cycle `t` is the sequential run at these numbers.

## Main results

* `Boot.matches_of_freshFetch`, `Boot.matchesBack_of_freshFetch`: the simulation, for runs.
* `Boot.pipeline_refines`: the refinement, for all runs.
* `selfModify_not_refines`: a program that overwrites its next instruction.
-/

namespace SmuRv32im

/-! ### Runs -/

namespace Run
variable (r : Run)

/-- The instructions that have left Execute before cycle `t`. -/
def countE (t : ℕ) : ℕ := Nat.count (fun u => (r.occ u).e = true) t

/-- The instructions that have left Memory before cycle `t`. -/
def countM (t : ℕ) : ℕ := Nat.count (fun u => (r.occ u).m = true) t

/-- The instructions that have left Writeback before cycle `t`. -/
def countW (t : ℕ) : ℕ := Nat.count (fun u => (r.occ u).w = true) t

theorem countM_succ (t : ℕ) : r.countM (t + 1) = r.countE t :=
  Clocked.count_succ_of_shift (q := fun u => (r.occ u).m = true) Bool.false_ne_true
    (fun _ => Iff.rfl) t

theorem countW_succ (t : ℕ) : r.countW (t + 1) = r.countM t :=
  Clocked.count_succ_of_shift (q := fun u => (r.occ u).w = true) Bool.false_ne_true
    (fun _ => Iff.rfl) t

private theorem count_succ_toNat (f : ℕ → Bool) (t : ℕ) :
    Nat.count (fun u => f u = true) (t + 1) =
      Nat.count (fun u => f u = true) t + (f t).toNat := by
  rw [Nat.count_succ]
  cases f t <;> rfl

/-- The four positions of the simulation relation are the numbers of instructions that
have passed. -/
theorem idxM_eq (t : ℕ) : (r.occ t).idxM (r.countW t) = r.countM t := by
  rw [← r.countW_succ, countW, countW, count_succ_toNat fun u => (r.occ u).w]
  rfl

theorem idxE_eq (t : ℕ) : (r.occ t).idxE (r.countW t) = r.countE t := by
  rw [Occupancy.idxE, idxM_eq, ← r.countM_succ, countM, countM,
    count_succ_toNat fun u => (r.occ u).m]

theorem countE_succ (t : ℕ) : r.countE (t + 1) = r.countE t + (r.occ t).e.toNat :=
  count_succ_toNat (fun u => (r.occ u).e) t

theorem idxD_eq (t : ℕ) : (r.occ t).idxD (r.countW t) = r.countE (t + 1) := by
  rw [Occupancy.idxD, idxE_eq, r.countE_succ]

theorem countE_mono {t u : ℕ} (h : t ≤ u) : r.countE t ≤ r.countE u := Nat.count_monotone _ h

/-- The first instruction leaves Execute in cycle 2. -/
theorem countE_le (t : ℕ) : r.countE (t + 2) ≤ t := by
  have he1 : (r.occ 1).e = false := (r.occ_succ_of_empty rfl).2
  have h2 : r.countE 2 = 0 := by
    rw [countE]
    simp [Nat.count_succ, he1]
  have hadd : r.countE (2 + t) =
      r.countE 2 + Nat.count (fun u => (r.occ (2 + u)).e = true) t := Nat.count_add _ 2 t
  have hle : Nat.count (fun u => (r.occ (2 + u)).e = true) t ≤ t := Nat.count_le _
  rw [Nat.add_comm t 2]
  omega

end Run

namespace Boot
variable (b : Boot)

/-- What the timer shows to the `k`-th instruction in Memory. -/
noncomputable def timerReads (k : ℕ) : Word :=
  (b.system (Nat.nth (fun t => (b.systemRun.occ t).m = true) k)).readDataTimer

/-- The sequential run of the program. -/
noncomputable def sequential : ℕ → Arch := b.arch b.timerReads

/-- The number of instructions whose effects registers and RAM show in cycle `t`: those
that have left Writeback, and the store in Writeback, which has written the RAM. -/
def committed (t : ℕ) : ℕ :=
  b.systemRun.countW t +
    if (b.systemRun.occ t).w = true ∧ opcode (b.system t).cpu.mw.instrW = opcStore then 1
    else 0

/-- **The refinement** in cycle `t`: what Execute holds, what registers and RAM hold, and
the writes made so far, in terms of the sequential run. -/
structure RefinesAt (t : ℕ) : Prop where
  execute : (b.systemRun.occ t).e = true →
    (b.system t).cpu.de.pcE = (b.sequential (b.systemRun.countE t)).pc ∧
      (b.system t).cpu.de.instrE = (b.sequential (b.systemRun.countE t)).instr
  rf : ∀ i, i ≠ 0#5 → (b.system t).cpu.rf i = (b.sequential (b.committed t)).rf i
  mem : (b.system t).mem = (b.sequential (b.committed t)).mem
  busWrites : Clocked.log (fun u => (b.system u).cpu.busWrite) t =
    Clocked.log (fun k => (b.sequential k).busWrite b.x) (b.systemRun.countM t)
  tohostWrites : Clocked.log (fun u => (b.system u).cpu.tohostWrite) t =
    Clocked.log (fun k => (b.sequential k).tohostWrite b.x) (b.systemRun.countE t)

theorem forwarding (t : ℕ) : Forwarding (b.system t).cpu (b.systemRun.occ t) := by
  rw [← b.systemRun_cpu]
  exact b.systemRun.forwarding t

theorem occ_succ (t : ℕ) :
    b.systemRun.occ (t + 1) = (b.systemRun.occ t).next b.x (b.system t).cpu := by
  rw [Run.occ_succ, b.systemRun_cpu]
  rfl

/-- The simulation relation holds at reset release. -/
theorem matches_reset (timer : ℕ → Word) :
    Matches b.x b.defines timer (b.arch timer) (b.system 0) ⟨false, false, false, false⟩ 0 where
  rf := rfl
  mem := rfl
  irqForce := rfl
  tohost := rfl
  slotW h := absurd h Bool.false_ne_true
  slotM h := absurd h Bool.false_ne_true
  slotE h := absurd h Bool.false_ne_true
  slotD _ h := absurd h Bool.false_ne_true
  fetch _ _ := rfl

/-- The timer shows the instruction in Memory what it shows the sequential machine. -/
theorem timerReads_idxM {t : ℕ} (hm : (b.systemRun.occ t).m = true) :
    b.timerReads ((b.systemRun.occ t).idxM (b.systemRun.countW t)) =
      (b.system t).readDataTimer := by
  rw [Run.idxM_eq, timerReads, Run.countM,
    Nat.nth_count (p := fun u => (b.systemRun.occ u).m = true) hm]

theorem countW_succ (t : ℕ) : b.systemRun.countW (t + 1) =
    (b.systemRun.occ t).idxM (b.systemRun.countW t) := by
  rw [Run.countW_succ, Run.idxM_eq]

/-- **The simulation.** The relation holds in cycle `t` if the instructions up to the one
Decode is about to hand on are fetched clear of the stores to their words. -/
theorem matches_of_freshFetch (t : ℕ)
    (h : ∀ j, j ≤ b.systemRun.countE (t + 1) → FreshFetch b.x b.sequential j) :
    Matches b.x b.defines b.timerReads b.sequential (b.system t) (b.systemRun.occ t)
      (b.systemRun.countW t) := by
  induction t with
  | zero => exact b.matches_reset b.timerReads
  | succ t ih =>
      have hmatch := ih fun j hj => h j (hj.trans (b.systemRun.countE_mono (Nat.le_succ _)))
      have hfresh := h _ (b.systemRun.idxD_eq (t + 1)).le
      rw [b.countW_succ, b.occ_succ] at hfresh
      rw [b.system_succ, b.countW_succ, b.occ_succ]
      exact hmatch.step (b.arch_succ b.timerReads) (b.system_slots t) (b.forwarding t)
        b.timerReads_idxM hfresh

/-- From Execute on the instruction in Decode does not matter. -/
theorem matchesBack_of_freshFetch (t : ℕ)
    (h : ∀ j, j < b.systemRun.countE (t + 1) → FreshFetch b.x b.sequential j) :
    MatchesBack b.x b.defines b.timerReads b.sequential (b.system t) (b.systemRun.occ t)
      (b.systemRun.countW t) := by
  induction t with
  | zero => exact (b.matches_reset b.timerReads).toMatchesBack
  | succ t ih =>
      have hcount := b.systemRun.countE_succ (t + 1)
      rw [b.system_succ, b.countW_succ, b.occ_succ]
      rw [b.occ_succ] at hcount
      cases he : ((b.systemRun.occ t).next b.x (b.system t).cpu).e with
      | true =>
          rw [he, Bool.toNat_true] at hcount
          have hmatch := b.matches_of_freshFetch t fun j hj => h j (by omega)
          exact hmatch.step_back (b.arch_succ b.timerReads) (b.system_slots t)
            (b.forwarding t) b.timerReads_idxM
      | false =>
          have hback := ih fun j hj => h j (by omega)
          refine hback.step (b.arch_succ b.timerReads) (b.system_slots t) (b.forwarding t)
            b.timerReads_idxM ?_
          intro he'
          simp [he] at he'

/-- From Memory on the instruction in Execute does not matter. -/
theorem matchesMemory_of_freshFetch (t : ℕ)
    (h : ∀ j, j < b.systemRun.countE t → FreshFetch b.x b.sequential j) :
    MatchesMemory b.x b.defines b.timerReads b.sequential (b.system t) (b.systemRun.occ t)
      (b.systemRun.countW t) := by
  cases t with
  | zero => exact (b.matches_reset b.timerReads).memory
  | succ t =>
      rw [b.system_succ, b.countW_succ, b.occ_succ]
      exact (b.matchesBack_of_freshFetch t h).step_memory (b.arch_succ b.timerReads)
        (b.system_slots t) (b.forwarding t) b.timerReads_idxM

/-- The bus writes of an occupied Memory slot are those of its instruction. -/
theorem matches_busWrite {b : Boot} {t : ℕ} (h : MatchesMemory b.x b.defines b.timerReads
    b.sequential (b.system t) (b.systemRun.occ t) (b.systemRun.countW t))
    (hm : (b.systemRun.occ t).m = true) :
    (b.system t).cpu.busWrite = (b.sequential (b.systemRun.countM t)).busWrite b.x := by
  rw [← Run.idxM_eq, Cpu.busWrite, h.busOut hm]
  rfl

section
variable {b} {t : ℕ}
variable (h : MatchesBack b.x b.defines b.timerReads b.sequential (b.system t)
  (b.systemRun.occ t) (b.systemRun.countW t))
include h

/-- The instruction in Writeback stores exactly if it does in the sequential run; other
instructions do not change the RAM, and stores do not change the registers. -/
theorem matches_committed :
    (b.system t).cpu.rf = (b.sequential (b.committed t)).rf ∧
      (b.system t).mem = (b.sequential (b.committed t)).mem := by
  have hmem := h.mem
  cases hw : (b.systemRun.occ t).w with
  | false =>
      have hn : b.committed t = b.systemRun.countW t := by
        rw [committed, hw, if_neg fun hst => Bool.false_ne_true hst.1, Nat.add_zero]
      rw [Occupancy.idxM_of_empty _ _ hw] at hmem
      rw [hn]
      exact ⟨h.rf, hmem⟩
  | true =>
      rw [Occupancy.idxM_of_occupied _ _ hw] at hmem
      have hnext := b.arch_succ b.timerReads (b.systemRun.countW t)
      have hinstr : (b.system t).cpu.mw.instrW =
          (b.sequential (b.systemRun.countW t)).instr := by
        rw [h.slotW hw]
        rfl
      by_cases hst : opcode (b.system t).cpu.mw.instrW = opcStore
      · have hn : b.committed t = b.systemRun.countW t + 1 := by
          rw [committed, if_pos ⟨hw, hst⟩]
        have hwe : ((b.sequential (b.systemRun.countW t)).mw b.x b.defines
            (b.timerReads (b.systemRun.countW t))).regWriteW = false :=
          controller_regWrite_of_store b.x _ (hinstr ▸ hst)
        have hrf : (b.sequential (b.systemRun.countW t + 1)).rf =
            (b.sequential (b.systemRun.countW t)).rf := by
          rw [sequential, hnext, Arch.next, ← sequential, hwe]
          funext i
          exact if_neg fun hi => Bool.false_ne_true hi.2.2
        rw [hn, hrf]
        exact ⟨h.rf, hmem⟩
      · have hn : b.committed t = b.systemRun.countW t := by
          rw [committed, if_neg fun hst' => hst hst'.2, Nat.add_zero]
        have hwe : ((b.sequential (b.systemRun.countW t)).busOut b.x).memWrite = false := by
          refine eq_false_of_ne_true ?_
          intro hmw
          rw [hinstr] at hst
          exact hst ((controller_memWrite b.x _).mp hmw)
        have hram : (b.sequential (b.systemRun.countW t + 1)).mem =
            (b.sequential (b.systemRun.countW t)).mem := by
          rw [sequential, hnext, Arch.next, ← sequential, hwe]
          rfl
        rw [hn, ← hram]
        exact ⟨h.rf, hmem⟩

/-- The writes of an occupied Execute slot to `tohost` are those of its instruction. -/
theorem matches_tohostWrite (he : (b.systemRun.occ t).e = true) :
    (b.system t).cpu.tohostWrite =
      (b.sequential (b.systemRun.countE t)).tohostWrite b.x := by
  obtain ⟨h1, -⟩ :=
    h.operands (b.arch_succ b.timerReads) (b.system_slots t) (b.forwarding t) he
  rw [← Run.idxE_eq, Cpu.tohostWrite, h1, h.tohost, h.slotE he]
  rfl

end

/-- Empty slots write nothing. -/
theorem busWrite_of_empty {t : ℕ} (hm : (b.systemRun.occ t).m = false) :
    (b.system t).cpu.busWrite = none := by
  have hw : (b.system t).cpu.busOut.memWrite = false := ((b.system_slots t).idleM hm).memWriteM
  simp [Cpu.busWrite, hw]

theorem tohostWrite_of_empty {t : ℕ} (he : (b.systemRun.occ t).e = false) :
    (b.system t).cpu.tohostWrite = none := by
  have hw := ((b.system_slots t).idleE he).csrE
  simp [Cpu.tohostWrite, hw]

/-- **The pipeline refines the sequential machine**, in all cycles until an instruction
enters Execute that was fetched in the shadow of a store that changes its word. -/
theorem pipeline_refines (t : ℕ)
    (h : ∀ j, j < b.systemRun.countE (t + 1) → FreshFetch b.x b.sequential j) :
    b.RefinesAt t := by
  have hmatch : ∀ u, u ≤ t → MatchesBack b.x b.defines b.timerReads b.sequential (b.system u)
      (b.systemRun.occ u) (b.systemRun.countW u) := by
    intro u hu
    have hcount := b.systemRun.countE_mono (Nat.succ_le_succ hu)
    exact b.matchesBack_of_freshFetch u fun j hj => h j (lt_of_lt_of_le hj hcount)
  obtain ⟨hrf, hmem⟩ := matches_committed (hmatch t le_rfl)
  refine ⟨?_, ?_, hmem, ?_, ?_⟩
  · intro he
    rw [(hmatch t le_rfl).slotE he, Run.idxE_eq]
    exact ⟨rfl, rfl⟩
  · intro i _
    exact congrFun hrf i
  · refine Clocked.log_eq_log_count (p := fun u => (b.systemRun.occ u).m = true) ?_ ?_
    · intro u hu hm
      exact matches_busWrite (hmatch u hu.le).memory hm
    · intro u _ hm
      exact b.busWrite_of_empty (eq_false_of_ne_true hm)
  · refine Clocked.log_eq_log_count (p := fun u => (b.systemRun.occ u).e = true) ?_ ?_
    · intro u hu he
      exact matches_tohostWrite (hmatch u hu.le) he
    · intro u _ he
      exact b.tohostWrite_of_empty (eq_false_of_ne_true he)

end Boot

/-! ### Two programs -/

/-- `addi x1, x0, 7`, `sw x1, 0(x2)`, `lw x3, 0(x2)`, `add x4, x3, x1`, with `x2` pointing
behind the program. -/
def storeLoadBoot : Boot :=
  { x := ⟨0#3, 0#5, 0#32, 0#32, 0#32⟩
    image := fun a => if a = 0#17 then 0x00700093#32 else if a = 1#17 then 0x00112023#32
      else if a = 2#17 then 0x00012183#32 else if a = 3#17 then 0x00118233#32 else 0#32
    rf := fun i => if i = 2#5 then 0x10000100#32 else 0#32
    sim := true }

/-- The program is done in cycle 9, with the sum in `x4`, and has been executed as the
sequential machine executes it. -/
theorem storeLoad_refines :
    (storeLoadBoot.system 9).cpu.rf 4#5 = 14#32 ∧ storeLoadBoot.RefinesAt 9 := by
  refine ⟨by decide +kernel, storeLoadBoot.pipeline_refines 9 ?_⟩
  intro j hj i hij
  have hcount : storeLoadBoot.systemRun.countE (9 + 1) ≤ 8 :=
    storeLoadBoot.systemRun.countE_le 8
  replace hj : j < 9 := by omega
  have hij' : i < j := by
    rcases hij with h | ⟨h, -⟩ | ⟨h, -⟩ <;> omega
  have harch : ∀ k, k < 10 → storeLoadBoot.sequential k = storeLoadBoot.arch (fun _ => 0#32) k := by
    intro k hk
    refine storeLoadBoot.arch_eq_of_csTimerN _ _ ?_
    intro l hl
    have htimer : ∀ l, l < 10 →
        ((storeLoadBoot.arch (fun _ => 0#32) l).select storeLoadBoot.x).csTimerN = true := by
      decide +kernel
    exact htimer l (by omega)
  have hmem : ∀ j, j < 9 → ∀ i, i < j →
      (storeLoadBoot.arch (fun _ => 0#32) (i + 1)).mem
          (ramAddr (storeLoadBoot.arch (fun _ => 0#32) j).pc) =
        (storeLoadBoot.arch (fun _ => 0#32) i).mem
          (ramAddr (storeLoadBoot.arch (fun _ => 0#32) j).pc) := by
    decide +kernel
  rw [harch j (by omega), harch i (by omega), harch (i + 1) (by omega)]
  exact hmem j hj i hij'

/-- `sw x2, 0(x1)` at the reset address, with `x1` pointing to the next word and
`addi x3, x0, 1` in `x2`. -/
def selfModifyBoot : Boot :=
  { x := ⟨0#3, 0#5, 0#32, 0#32, 0#32⟩
    image := fun a => if a = 0#17 then 0x0020A023#32 else 0#32
    rf := fun i =>
      if i = 1#5 then 0x10000004#32 else if i = 2#5 then 0x00100193#32 else 0#32
    sim := true }

/-- The second instruction of the sequential run is the stored word, but the pipeline
executes the word that was there before. -/
theorem selfModify_not_refines : ¬∀ t, selfModifyBoot.RefinesAt t := by
  intro h
  have he : (selfModifyBoot.systemRun.occ 3).e = true := by decide +kernel
  have hcount : selfModifyBoot.systemRun.countE 3 = 1 := by decide +kernel
  obtain ⟨-, hinstr⟩ := (h 3).execute he
  have hpipe : (selfModifyBoot.system 3).cpu.de.instrE = 0#32 := by decide +kernel
  have harch : selfModifyBoot.sequential 1 = selfModifyBoot.arch (fun _ => 0#32) 1 := by
    refine selfModifyBoot.arch_eq_of_csTimerN _ _ ?_
    intro k hk
    obtain rfl : k = 0 := by omega
    decide +kernel
  have hseq : (selfModifyBoot.arch (fun _ => 0#32) 1).instr = 0x00100193#32 := by
    decide +kernel
  simp [hcount, harch, hseq, hpipe] at hinstr

end SmuRv32im
