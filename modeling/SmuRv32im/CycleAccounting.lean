import Mathlib.Order.Interval.Set.Infinite
import SmuRv32im.Occupancy

/-!
# Cycle Accounting

Every instruction that is not squashed spends exactly one cycle in Execute.
`Run.entry r k` is the cycle of the `k`-th of them, and the distance between two of them
depends on the two instructions alone: one cycle, one more behind a load whose `rd` the
later word names, and two more behind a transfer of control.

## Main results

* `Run.next_entry`: from an occupied Execute slot, the cycle of the next one and the word
  it holds.
* `Run.cycle_accounting`: the distance law for all instructions of a run, with the absence
  of deadlock.
-/

namespace SmuRv32im

/-- `instr` is a load and `next` has its `rd` in the bits of `rs1` or `rs2`. -/
def LoadUse (instr next : Word) : Prop :=
  opcode instr = opcLoad ∧ (rs1 next = rd instr ∨ rs2 next = rd instr)

instance (instr next : Word) : Decidable (LoadUse instr next) :=
  inferInstanceAs (Decidable (_ ∧ _))

/-- The instruction in Execute is a taken conditional branch, a `jal` or a `jalr`. -/
def StageDE.Transfers (x : XValues) (de : StageDE) (rd1EH rd2EH : Word) : Prop :=
  (opcode de.instrE = opcBranch ∧
    btaken true (funct3 de.instrE) (de.aluOut x rd1EH rd2EH).flags (de.srcB rd2EH) = true) ∨
  opcode de.instrE = opcJal ∨ opcode de.instrE = opcJalr

instance (x : XValues) (de : StageDE) (rd1EH rd2EH : Word) :
    Decidable (de.Transfers x rd1EH rd2EH) :=
  inferInstanceAs (Decidable (_ ∨ _))

/-- The same in a state of the core. -/
def Cpu.Transfers (x : XValues) (s : Cpu) : Prop := s.de.Transfers x s.rd1EH s.rd2EH

instance (x : XValues) (s : Cpu) : Decidable (s.Transfers x) :=
  inferInstanceAs (Decidable (StageDE.Transfers _ _ _ _))

/-! ### Stalls and redirections, read off the instructions -/

/-- A decoded instruction redirects the program counter exactly if it transfers control. -/
theorem StageDE.Decoded.pcSrc_iff {x : XValues} {de : StageDE} (h : de.Decoded x)
    (rd1EH rd2EH : Word) :
    de.pcSrc x rd1EH rd2EH ≠ 0b00#2 ↔ de.Transfers x rd1EH rd2EH := by
  have hbr : btaken de.branchE (funct3 de.instrE) (de.aluOut x rd1EH rd2EH).flags
        (de.srcB rd2EH) = true ↔
      opcode de.instrE = opcBranch ∧
        btaken true (funct3 de.instrE) (de.aluOut x rd1EH rd2EH).flags
          (de.srcB rd2EH) = true := by
    rw [← h.branchE]
    cases de.branchE with
    | false => simp [btaken_false]
    | true => simp
  rw [StageDE.pcSrc, branchLogic_ne_zero, hbr, h.jalE, h.jalrE]
  rfl

namespace Slots
variable {x : XValues} {s : Cpu} {o : Occupancy}

theorem pcSrc_iff (h : Slots x s o) (he : o.e = true) :
    s.pcSrc x ≠ 0b00#2 ↔ s.Transfers x :=
  (h.decodedE he).pcSrc_iff _ _

/-- Decode stalls exactly behind a load whose `rd` its word names. -/
theorem stall_iff (h : Slots x s o) (he : o.e = true) :
    s.stall = true ↔ LoadUse s.de.instrE s.fd.instrD := by
  rw [Cpu.stall, lwStall, Bool.and_eq_true, Bool.or_eq_true, beq_iff_eq, beq_iff_eq,
    (h.decodedE he).resultSrcE_zero]
  exact and_comm

end Slots

/-- A load transfers no control. -/
theorem not_loadUse_and_transfers (x : XValues) (s : Cpu) (next : Word) :
    ¬(LoadUse s.de.instrE next ∧ s.Transfers x) := by
  rintro ⟨⟨hload, -⟩, ⟨hb, -⟩ | hj | hj⟩
  · simp [hload] at hb
  · simp [hload] at hj
  · simp [hload] at hj

/-! ### The distance to the next instruction -/

namespace Run
variable (r : Run)

/-- The cycles the instruction in Execute adds before `next` enters it. -/
def delay (t : ℕ) (next : Word) : ℕ :=
  (if LoadUse (r.cpu t).de.instrE next then 1 else 0) +
    2 * (if (r.cpu t).Transfers r.x then 1 else 0)

/-- With Execute empty the pipeline goes straight on. -/
theorem occ_succ_of_empty {t : ℕ} (he : (r.occ t).e = false) :
    (r.occ (t + 1)).d = true ∧ (r.occ (t + 1)).e = (r.occ t).d := by
  have hidle := (r.slots t).idleE he
  rw [r.occ_succ, Occupancy.next_of_straight _ (Cpu.not_stall_of_idle _ hidle)
    (Cpu.pcSrc_of_idle r.x _ hidle)]
  exact ⟨rfl, rfl⟩

/-- With Execute empty the word in Decode moves to Execute. -/
theorem instrE_succ_of_empty {t : ℕ} (he : (r.occ t).e = false) :
    (r.cpu (t + 1)).de.instrE = (r.cpu t).fd.instrD := by
  have hidle := (r.slots t).idleE he
  obtain ⟨-, -, hde⟩ := Cpu.step_of_straight (r.bus t) (Cpu.not_stall_of_idle _ hidle)
    (Cpu.pcSrc_of_idle r.x _ hidle)
  rw [r.cpu_succ, hde]
  rfl

/-- **The next instruction.** After an instruction in Execute the slot is empty for
`delay` cycles, and then holds the next one; unless control is transferred, that is the
word now in Decode. -/
theorem next_entry {t : ℕ} (he : (r.occ t).e = true) :
    ∃ u, t < u ∧ (r.occ u).e = true ∧ (∀ v, t < v → v < u → (r.occ v).e = false) ∧
      u = t + 1 + r.delay t (r.cpu u).de.instrE := by
  have hslots := r.slots t
  have hd : (r.occ t).d = true := hslots.behindE he
  by_cases hT : (r.cpu t).Transfers r.x
  · -- two empty cycles: the squashed words, then the target
    have hp := (hslots.pcSrc_iff he).mpr hT
    have hs := hslots.not_stall_of_pcSrc hp
    have h1 : r.occ (t + 1) = ⟨false, false, (r.occ t).e, (r.occ t).m⟩ := by
      rw [r.occ_succ, Occupancy.next_of_pcSrc _ hs hp]
    have he1 : (r.occ (t + 1)).e = false := by rw [h1]
    obtain ⟨hd2, he2⟩ := r.occ_succ_of_empty he1
    rw [h1] at he2
    obtain ⟨-, he3⟩ := r.occ_succ_of_empty he2
    refine ⟨t + 3, by omega, he3.trans hd2, ?_, ?_⟩
    · intro v hv hvu
      obtain rfl | rfl : v = t + 1 ∨ v = t + 2 := by omega
      · exact he1
      · exact he2
    · have hL : ¬LoadUse (r.cpu t).de.instrE (r.cpu (t + 3)).de.instrE :=
        fun hL => not_loadUse_and_transfers r.x _ _ ⟨hL, hT⟩
      rw [delay, if_neg hL, if_pos hT]
  · have hp : (r.cpu t).pcSrc r.x = 0b00#2 := by
      by_contra hp
      exact hT ((hslots.pcSrc_iff he).mp hp)
    by_cases hL : LoadUse (r.cpu t).de.instrE (r.cpu t).fd.instrD
    · -- one empty cycle: the bubble of the stall
      have hs := (hslots.stall_iff he).mpr hL
      have h1 : r.occ (t + 1) = ⟨(r.occ t).d, false, (r.occ t).e, (r.occ t).m⟩ := by
        rw [r.occ_succ, Occupancy.next_of_stall _ hs]
      have he1 : (r.occ (t + 1)).e = false := by rw [h1]
      obtain ⟨-, he2⟩ := r.occ_succ_of_empty he1
      rw [h1] at he2
      obtain ⟨-, hfd, -⟩ := Cpu.step_of_stall (x := r.x) (r.bus t) hs
      have hword : (r.cpu (t + 2)).de.instrE = (r.cpu t).fd.instrD := by
        rw [r.instrE_succ_of_empty he1, r.cpu_succ, hfd]
      refine ⟨t + 2, by omega, he2.trans hd, ?_, ?_⟩
      · intro v hv hvu
        obtain rfl : v = t + 1 := by omega
        exact he1
      · rw [delay, hword, if_pos hL, if_neg hT]
    · have hs : (r.cpu t).stall = false :=
        eq_false_of_ne_true fun hs => hL ((hslots.stall_iff he).mp hs)
      have h1 : r.occ (t + 1) = ⟨true, (r.occ t).d, (r.occ t).e, (r.occ t).m⟩ := by
        rw [r.occ_succ, Occupancy.next_of_straight _ hs hp]
      obtain ⟨-, -, hde⟩ := Cpu.step_of_straight (r.bus t) hs hp
      have hword : (r.cpu (t + 1)).de.instrE = (r.cpu t).fd.instrD := by
        rw [r.cpu_succ, hde]
        rfl
      refine ⟨t + 1, by omega, by rw [h1, hd], ?_, ?_⟩
      · intro v hv hvu
        omega
      · rw [delay, hword, if_neg hL, if_neg hT]

/-- An instruction in Decode is squashed by the one in Execute or is in Execute at most
two cycles later. -/
theorem decode_leaves {t : ℕ} (hd : (r.occ t).d = true) :
    ((r.occ t).e = true ∧ (r.cpu t).Transfers r.x) ∨
      ∃ u, t < u ∧ u ≤ t + 2 ∧ (r.occ u).e = true ∧
        (r.cpu u).de.pcE = (r.cpu t).fd.pcD ∧
        (r.cpu u).de.instrE = (r.cpu t).fd.instrD := by
  by_cases hs : (r.cpu t).stall = true
  · right
    obtain ⟨-, hfd, hde⟩ := Cpu.step_of_stall (x := r.x) (r.bus t) hs
    have hidle : (r.cpu (t + 1)).de.Idle := by
      rw [r.cpu_succ, hde]
      exact StageDE.Idle.bubble
    have h1 : r.occ (t + 1) = ⟨true, false, (r.occ t).e, (r.occ t).m⟩ := by
      rw [r.occ_succ, Occupancy.next_of_stall _ hs, hd]
    have he1 : (r.occ (t + 1)).e = false := by rw [h1]
    obtain ⟨-, he2⟩ := r.occ_succ_of_empty he1
    obtain ⟨-, -, hde2⟩ := Cpu.step_of_straight (r.bus (t + 1))
      (Cpu.not_stall_of_idle _ hidle) (Cpu.pcSrc_of_idle r.x _ hidle)
    refine ⟨t + 2, by omega, le_rfl, ?_, ?_, ?_⟩
    · rw [he2, h1]
    · rw [r.cpu_succ, hde2, r.cpu_succ, hfd]
      rfl
    · rw [r.cpu_succ, hde2, r.cpu_succ, hfd]
      rfl
  · replace hs := eq_false_of_ne_true hs
    by_cases hp : (r.cpu t).pcSrc r.x = 0b00#2
    · right
      obtain ⟨-, -, hde⟩ := Cpu.step_of_straight (r.bus t) hs hp
      refine ⟨t + 1, by omega, by omega, ?_, ?_, ?_⟩
      · rw [r.occ_succ, Occupancy.next_of_straight _ hs hp]
        exact hd
      · rw [r.cpu_succ, hde]
        rfl
      · rw [r.cpu_succ, hde]
        rfl
    · left
      have he := (r.slots t).e_of_pcSrc hp
      exact ⟨he, ((r.slots t).pcSrc_iff he).mp hp⟩

/-- Execute is never empty for three cycles in a row. -/
theorem exists_entry (t : ℕ) : ∃ u, t < u ∧ u ≤ t + 3 ∧ (r.occ u).e = true := by
  cases he : (r.occ t).e with
  | true =>
      obtain ⟨u, hu, hue, -, hdist⟩ := r.next_entry he
      refine ⟨u, hu, ?_, hue⟩
      have hLT := not_loadUse_and_transfers r.x (r.cpu t) (r.cpu u).de.instrE
      rw [hdist, delay]
      split_ifs <;> first | omega | exact absurd ⟨‹_›, ‹_›⟩ hLT
  | false =>
      obtain ⟨hd1, he1⟩ := r.occ_succ_of_empty he
      cases hd : (r.occ t).d with
      | true => exact ⟨t + 1, by omega, by omega, he1.trans hd⟩
      | false =>
          obtain ⟨-, he2⟩ := r.occ_succ_of_empty (he1.trans hd)
          exact ⟨t + 2, by omega, by omega, he2.trans hd1⟩

/-! ### The sequence of instructions -/

/-- The cycle in which the `k`-th instruction that is not squashed is in Execute. -/
noncomputable def entry (k : ℕ) : ℕ := Nat.nth (fun t => (r.occ t).e = true) k

theorem infinite_entries : {t | (r.occ t).e = true}.Infinite := by
  refine Set.infinite_of_forall_exists_gt ?_
  intro t
  obtain ⟨u, hu, -, hue⟩ := r.exists_entry t
  exact ⟨u, hue, hu⟩

theorem occ_entry (k : ℕ) : (r.occ (r.entry k)).e = true :=
  Nat.nth_mem_of_infinite r.infinite_entries k

/-- Every occupied Execute slot is the entry of some instruction. -/
theorem entry_count {t : ℕ} (he : (r.occ t).e = true) :
    r.entry (Nat.count (fun t => (r.occ t).e = true) t) = t :=
  Nat.nth_count (p := fun t => (r.occ t).e = true) he

/-- The first instruction enters Execute two cycles after reset release. -/
theorem entry_zero : r.entry 0 = 2 := by
  have he1 : (r.occ 1).e = false := (r.occ_succ_of_empty rfl).2
  have he2 : (r.occ 2).e = true := by
    rw [(r.occ_succ_of_empty he1).2]
    exact (r.occ_succ_of_empty rfl).1
  have hcount : Nat.count (fun t => (r.occ t).e = true) 2 = 0 := by
    simp [Nat.count_succ, he1]
  rw [← r.entry_count he2, hcount]

theorem entry_succ (k : ℕ) :
    r.entry (k + 1) = r.entry k + 1 +
      r.delay (r.entry k) (r.cpu (r.entry (k + 1))).de.instrE := by
  have he := r.occ_entry k
  obtain ⟨u, hu, hue, hnone, hdist⟩ := r.next_entry he
  have hnext := Clocked.nth_count_succ (p := fun t => (r.occ t).e = true) he hue hu
    (fun v hv hvu => by simp [hnone v hv hvu])
  have hcount : Nat.count (fun t => (r.occ t).e = true) (r.entry k) = k :=
    Nat.count_nth_of_infinite r.infinite_entries k
  rw [hcount] at hnext
  have hentry : r.entry (k + 1) = u := hnext
  rw [hentry]
  exact hdist

/-- **Exact cycle accounting and absence of deadlock.** The instructions that are not
squashed are the occupants of Execute, in the cycles `entry 0 < entry 1 < …`, whose
distances are `1 + L + 2T`. Stall and flush of Decode never meet, a stall lasts one cycle,
Execute is never empty for three cycles in a row, and no instruction is held in Decode. -/
theorem cycle_accounting :
    (∀ t, (r.occ t).e = true ↔ ∃ k, r.entry k = t) ∧
    (∀ k, r.entry (k + 1) = r.entry k +
      (1 + (if LoadUse (r.cpu (r.entry k)).de.instrE (r.cpu (r.entry (k + 1))).de.instrE
            then 1 else 0) +
        2 * (if (r.cpu (r.entry k)).Transfers r.x then 1 else 0))) ∧
    (∀ k, ¬(LoadUse (r.cpu (r.entry k)).de.instrE (r.cpu (r.entry (k + 1))).de.instrE ∧
      (r.cpu (r.entry k)).Transfers r.x)) ∧
    (∀ t, ¬((r.cpu t).stall = true ∧ (r.cpu t).flushD r.x = true)) ∧
    (∀ t, ¬((r.cpu t).stall = true ∧ (r.cpu (t + 1)).stall = true)) ∧
    (∀ t, ∃ u, t < u ∧ u ≤ t + 3 ∧ (r.occ u).e = true) ∧
    (∀ t, (r.occ t).d = true →
      ((r.occ t).e = true ∧ (r.cpu t).Transfers r.x) ∨
        ∃ u, t < u ∧ u ≤ t + 2 ∧ (r.occ u).e = true ∧
          (r.cpu u).de.pcE = (r.cpu t).fd.pcD ∧
          (r.cpu u).de.instrE = (r.cpu t).fd.instrD) := by
  refine ⟨?_, ?_, ?_, r.not_stall_and_flushD, ?_, r.exists_entry, ?_⟩
  · intro t
    constructor
    · intro he
      exact ⟨_, r.entry_count he⟩
    · rintro ⟨k, rfl⟩
      exact r.occ_entry k
  · intro k
    have h := r.entry_succ k
    rw [delay] at h
    omega
  · intro k
    exact not_loadUse_and_transfers r.x _ _
  · rintro t ⟨hs, hs'⟩
    simp [r.not_stall_succ t hs] at hs'
  · intro t hd
    exact r.decode_leaves hd

end Run

end SmuRv32im
