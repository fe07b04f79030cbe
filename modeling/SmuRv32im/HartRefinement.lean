import SmuRv32im.HartSimulation
import SmuRv32im.Refinement

/-!
# The Pipeline Implements the Hart

The last step from the gates to the instruction set: what registers, RAM, `tohost` and the
memory bus of the pipeline show in a cycle is a state of the hart that runs the program one
instruction at a time. It holds for every program whose run raises no exception, keeps to
the regular instructions (`Boot.RegularRun`), and does not store to one of the next three
instructions (`Boot.StoresAhead`); these are conditions on the hart alone.

## Main results

* `Conforms.sequential_implements`: the sequential run shows the run of the hart.
* `Boot.refines_hart`: so does the pipeline, in every cycle.
* `Boot.executes_hart`: every instruction of the hart is executed, in bounded time.
-/

namespace SmuRv32im

open ByteMemory (Mem load)

/-! ### What the hart writes -/

namespace Hart
variable (s : Hart)

/-- The store of the hart as the memory bus carries it: the address, the data in its lane
and the strobes. -/
def busWrite : Option (Word × Word × BitVec 4) :=
  s.instr?.bind fun
    | .store o r2 r1 i => some (Instr.addr s r1 i,
        beWd ((Instr.addr s r1 i).extractLsb' 0 2) o.funct3 (s.regs r2),
        byteEnable ((Instr.addr s r1 i).extractLsb' 0 2) o.funct3)
    | _ => none

/-- The value the hart writes to `tohost`. -/
def tohostWrite : Option Word :=
  s.instr?.bind fun
    | .csrrw _ r1 => some (s.regs r1)
    | .csrrwi _ z => some (z.setWidth 32)
    | _ => none

end Hart

namespace Implements
variable {a : Arch} {s : Hart} (h : Implements a s)
include h

/-- The machine is at the instruction of the hart. -/
theorem instr_of_instr? {i : Instr} (hi : s.instr? = some i) : a.instr = i.encode := by
  obtain ⟨⟨hin, hal⟩, hdec⟩ := Option.ite_none_right_eq_some.mp hi
  rw [h.instr_eq hin hal, encode_of_decode hdec]

/-- The store of the hart is on the memory bus. -/
theorem busWrite_eq (x : XValues) {i : Instr} (hi : s.instr? = some i) :
    a.busWrite x = s.busWrite := by
  have henc := h.instr_of_instr? hi
  have hnone : i.op ≠ opcStore → a.busWrite x = none := by
    intro hop
    refine if_neg fun hmw => hop ?_
    rw [← i.opcode_encode, ← henc]
    exact (controller_memWrite x _).mp hmw
  rw [Hart.busWrite, hi, Option.bind_some]
  cases i with
  | store o r2 r1 imm =>
      have hop : opcode a.instr = opcStore := henc ▸ Instr.opcode_encode _
      have hf3 : funct3 a.instr = o.funct3 := by
        rw [henc]
        exact rType_funct3 _ _ _ _ _ _
      have h1 : rs1 (Instr.store o r2 r1 imm).encode = r1 := rType_rs1 _ _ _ _ _ _
      have h2 : rs2 (Instr.store o r2 r1 imm).encode = r2 := rType_rs2 _ _ _ _ _ _
      have himm : immS (Instr.store o r2 r1 imm).encode = imm.signExtend 32 :=
        immS_sType _ _ _ _ _
      obtain ⟨haddr, hmw, hdata⟩ := toEM_store x a.instr a.rd1 a.rd2 a.pc hop
      have hto : (a.em x).aluResultM = Instr.addr s r1 imm := by
        refine haddr.trans ?_
        rw [Arch.rd1, henc, h1, himm, h.regs, Instr.addr]
      have hwd : (a.em x).writeDataM = s.regs r2 := by
        refine hdata.trans ?_
        rw [Arch.rd2, henc, h2, h.regs]
      have hbus : a.busOut x = ⟨Instr.addr s r1 imm, true,
          beWd ((Instr.addr s r1 imm).extractLsb' 0 2) o.funct3 (s.regs r2),
          byteEnable ((Instr.addr s r1 imm).extractLsb' 0 2) o.funct3⟩ := by
        rw [← hto, ← hwd, ← hf3, ← hmw]
        rfl
      rw [Arch.busWrite, hbus, if_pos rfl]
  | compute i => exact hnone (by simp [Instr.op, i.op_ne])
  | _ => exact hnone (by simp [Instr.op])

/-- The write of the hart to `tohost` is that of the machine. -/
theorem tohostWrite_eq (x : XValues) {i : Instr} (hi : s.instr? = some i) :
    a.tohostWrite x = s.tohostWrite := by
  have henc := h.instr_of_instr? hi
  have hnone : i.op ≠ opcCsr → a.tohostWrite x = none := by
    intro hop
    refine if_neg fun hcsr => hop ?_
    rw [← i.opcode_encode, ← henc]
    exact (controller_csr x _).mp hcsr
  have hsome : i.op = opcCsr → a.tohostWrite x = some (systemValue a.instr a.rd1) := by
    intro hop
    have hop' : opcode a.instr = opcCsr := by rw [henc, i.opcode_encode, hop]
    have hcsr : (a.de x).csrE = true := (controller_csr x _).mpr hop'
    have himm : (a.de x).immExtE = (rs1 a.instr).setWidth 32 := immExt_of_csr x _ hop'
    rw [Arch.tohostWrite, if_pos hcsr, himm]
    rfl
  rw [Hart.tohostWrite, hi, Option.bind_some]
  cases i with
  | csrrw dst r1 =>
      have h1 : rs1 (Instr.csrrw dst r1).encode = r1 := iType_rs1 _ _ _ _ _
      have h3 : funct3 (Instr.csrrw dst r1).encode = 0b001#3 := iType_funct3 _ _ _ _ _
      rw [hsome rfl, systemValue, henc, h3, if_pos rfl, Arch.rd1, henc, h1, h.regs]
  | csrrwi dst z =>
      have h1 : rs1 (Instr.csrrwi dst z).encode = z := iType_rs1 _ _ _ _ _
      have h3 : funct3 (Instr.csrrwi dst z).encode = 0b101#3 := iType_funct3 _ _ _ _ _
      rw [hsome rfl, systemValue, henc, h3, h1]
      rfl
  | compute i => exact hnone (by simp [Instr.op, i.op_ne])
  | _ => exact hnone (by simp [Instr.op])

end Implements

/-! ### Runs -/

namespace Boot
variable (b : Boot)

/-- What the read bus shows to the `k`-th instruction. -/
noncomputable def deviceReads (k : ℕ) : Word :=
  (b.sequential k).readData b.x b.defines (b.timerReads k)

/-- The run of the hart on the program, given what the devices show to each instruction. -/
def hartWith (io : ℕ → Word) : ℕ → Option Hart :=
  Partial.run (fun k s => s.step (io k)) (Hart.reset b.image b.rf)

/-- The run of the hart on the program. -/
noncomputable def hart : ℕ → Option Hart := b.hartWith b.deviceReads

/-- The first `n` instructions are regular. -/
def RegularRun (n : ℕ) : Prop :=
  ∀ k, k < n → ∀ s ∈ b.hart k, ∀ i ∈ s.instr?, i.Regular s

/-- No store among the first `n` instructions changes one of the three instructions
after it. -/
def StoresAhead (n : ℕ) : Prop :=
  ∀ j, j < n → ∀ i, i < j → j ≤ i + 3 → ∀ u ∈ b.hart j, ∀ s ∈ b.hart i, ∀ s' ∈ b.hart (i + 1),
    load s'.mem u.pc 4 = load s.mem u.pc 4

/-- A program in the domain of the refinement: its first `n` instructions raise no exception,
are regular, and store ahead of what is fetched. -/
structure Conforms (n : ℕ) : Prop where
  runs : ∃ s, b.hart n = some s
  regular : b.RegularRun n
  stores : b.StoresAhead n

namespace Conforms
variable {b : Boot} {n : ℕ} (h : b.Conforms n)
include h

theorem exists_hart {k : ℕ} (hk : k ≤ n) : ∃ s, b.hart k = some s := by
  obtain ⟨s, hs⟩ := h.runs
  exact Partial.exists_run_of_le hs hk

/-- **The sequential run shows the run of the hart.** -/
theorem sequential_implements {k : ℕ} (hk : k ≤ n) :
    ∃ s, b.hart k = some s ∧ Implements (b.sequential k) s := by
  induction k with
  | zero => exact ⟨_, rfl, Implements.reset b.image b.rf⟩
  | succ k ih =>
      obtain ⟨s, hs, himp⟩ := ih (by omega)
      obtain ⟨s', hs'⟩ := h.exists_hart hk
      obtain ⟨t, ht, hstep⟩ := Partial.run_succ_eq_some_iff.mp hs'
      obtain rfl : s = t := Option.some.inj (hs.symm.trans ht)
      refine ⟨s', hs', ?_⟩
      exact himp.step b.x b.defines (b.timerReads k) (h.regular k (by omega) s hs) hstep

/-- An instruction that is executed. -/
theorem exists_instr {k : ℕ} (hk : k < n) :
    ∃ s i, b.hart k = some s ∧ s.instr? = some i ∧ Implements (b.sequential k) s := by
  obtain ⟨s', hs'⟩ := h.exists_hart (Nat.succ_le_of_lt hk)
  obtain ⟨s, hs, hstep⟩ := Partial.run_succ_eq_some_iff.mp hs'
  obtain ⟨i, hi, -⟩ := (s.step_eq_some_iff _).mp hstep
  obtain ⟨t, ht, himp⟩ := h.sequential_implements hk.le
  obtain rfl : s = t := Option.some.inj (hs.symm.trans ht)
  exact ⟨s, i, hs, hi, himp⟩

/-- Storing ahead is what the pipeline needs to fetch what is executed. -/
theorem freshFetch {j : ℕ} (hj : j < n) : FreshFetch b.x b.sequential j := by
  intro i hshadow
  have hij : i < j ∧ j ≤ i + 3 := by
    obtain hij | ⟨hij, -⟩ | ⟨hij, -⟩ := hshadow <;> omega
  obtain ⟨u, iu, hu, hiu, himpu⟩ := h.exists_instr hj
  obtain ⟨⟨hin, hal⟩, -⟩ := Option.ite_none_right_eq_some.mp hiu
  obtain ⟨s, hs, himp⟩ := h.sequential_implements (k := i) (by omega)
  obtain ⟨s', hs', himp'⟩ := h.sequential_implements (k := i + 1) (by omega)
  rw [himpu.pc, himp'.mem.word hin hal, himp.mem.word hin hal,
    h.stores j hj i hij.1 hij.2 u hu s hs s' hs']

/-- The pipeline is where the sequential run is. -/
theorem matchesBack {t : ℕ} (ht : b.systemRun.countE (t + 1) ≤ n) :
    MatchesBack b.x b.defines b.timerReads b.sequential (b.system t) (b.systemRun.occ t)
      (b.systemRun.countW t) :=
  b.matchesBack_of_freshFetch t fun _ hj => h.freshFetch (lt_of_lt_of_le hj ht)

/-- From Memory on it is so until the first instruction behind them leaves Execute. -/
theorem matchesMemory {t : ℕ} (ht : b.systemRun.countE t ≤ n) :
    MatchesMemory b.x b.defines b.timerReads b.sequential (b.system t) (b.systemRun.occ t)
      (b.systemRun.countW t) :=
  b.matchesMemory_of_freshFetch t fun _ hj => h.freshFetch (lt_of_lt_of_le hj ht)

end Conforms

/-! ### The pipeline -/

/-- The stores of the first `k` instructions, as the memory bus carries them. -/
noncomputable def hartStores (k : ℕ) : List (Word × Word × BitVec 4) :=
  Clocked.log (fun j => (b.hart j).bind Hart.busWrite) k

/-- What cycle `t` shows of the hart: the registers and the RAM after the instructions that
are committed, `tohost` after those that have left Execute, the instruction Execute works
on, and the writes made so far. -/
structure ShowsHart (t : ℕ) : Prop where
  memory : ∃ s, b.hart (b.committed t) = some s ∧
    (∀ r, (b.system t).cpu.rf.read r = s.regs r) ∧ Holds (b.system t).mem s.mem
  execute : ∃ s, b.hart (b.systemRun.countE t) = some s ∧ (b.system t).cpu.tohost = s.tohost ∧
    ((b.systemRun.occ t).e = true → (b.system t).cpu.de.pcE = s.pc ∧
      s.instr? = decode (b.system t).cpu.de.instrE)
  busWrites : Clocked.log (fun u => (b.system u).cpu.busWrite) t =
    b.hartStores (b.systemRun.countM t)
  tohostWrites : Clocked.log (fun u => (b.system u).cpu.tohostWrite) t =
    Clocked.log (fun k => (b.hart k).bind Hart.tohostWrite) (b.systemRun.countE t)

/-- Instructions are committed only after they have left Execute. -/
theorem committed_le (t : ℕ) : b.committed t ≤ b.systemRun.countE t := by
  have hM := b.systemRun.idxM_eq t
  have hE := b.systemRun.idxE_eq t
  rw [Occupancy.idxE, hM] at hE
  rw [committed]
  split_ifs with hw
  · rw [Occupancy.idxM_of_occupied _ _ hw.1] at hM
    omega
  · rw [Occupancy.idxM] at hM
    omega

theorem countM_le (t : ℕ) : b.systemRun.countM t ≤ b.systemRun.countE t := by
  have hE := b.systemRun.idxE_eq t
  rw [Occupancy.idxE, b.systemRun.idxM_eq t] at hE
  omega

theorem countW_le (t : ℕ) : b.systemRun.countW t ≤ b.systemRun.countE (t - 1) := by
  cases t with
  | zero => exact le_rfl
  | succ t =>
      rw [Run.countW_succ]
      exact b.countM_le t

/-- The memory bus in a cycle: the write of the instruction in Memory. -/
theorem busWrite_hart {n : ℕ} (h : b.Conforms n) {t : ℕ}
    (ht : b.systemRun.countE t ≤ n) : (b.system t).cpu.busWrite =
      if (b.systemRun.occ t).m = true then (b.hart (b.systemRun.countM t)).bind Hart.busWrite
      else none := by
  split_ifs with hm
  · have hlt : b.systemRun.countM t < n := by
      have hE := b.systemRun.idxE_eq t
      rw [Occupancy.idxE, b.systemRun.idxM_eq t, hm, Bool.toNat_true] at hE
      omega
    obtain ⟨s, i, hs, hi, himp⟩ := h.exists_instr hlt
    rw [matches_busWrite (h.matchesMemory ht) hm, himp.busWrite_eq b.x hi, hs, Option.bind_some]
  · exact b.busWrite_of_empty (eq_false_of_ne_true hm)

/-- The writes on the memory bus so far. -/
theorem log_busWrite {n : ℕ} (h : b.Conforms n) {t : ℕ}
    (ht : b.systemRun.countE (t - 1) ≤ n) :
    Clocked.log (fun u => (b.system u).cpu.busWrite) t =
      b.hartStores (b.systemRun.countM t) := by
  have hbus : ∀ u, u < t → (b.system u).cpu.busWrite =
      if (b.systemRun.occ u).m = true then (b.hart (b.systemRun.countM u)).bind Hart.busWrite
      else none := by
    intro u hu
    exact b.busWrite_hart h ((b.systemRun.countE_mono (Nat.le_sub_one_of_lt hu)).trans ht)
  refine Clocked.log_eq_log_count (p := fun u => (b.systemRun.occ u).m = true) ?_ ?_
  · intro u hu hm
    rw [hbus u hu, if_pos hm]
    rfl
  · intro u hu hm
    rw [hbus u hu, if_neg hm]

/-- The registers and the RAM. -/
theorem memory_hart {n : ℕ} (h : b.Conforms n) {t : ℕ} (ht : b.systemRun.countE (t + 1) ≤ n) :
    ∃ s, b.hart (b.committed t) = some s ∧ (∀ r, (b.system t).cpu.rf.read r = s.regs r) ∧
      Holds (b.system t).mem s.mem := by
  have hle := (b.committed_le t).trans (b.systemRun.countE_mono (Nat.le_succ t))
  obtain ⟨s, hs, himp⟩ := h.sequential_implements (hle.trans ht)
  obtain ⟨hrf, hmem⟩ := matches_committed (h.matchesBack ht)
  refine ⟨s, hs, ?_, ?_⟩
  · intro r
    rw [hrf, himp.regs]
  · rw [hmem]
    exact himp.mem

/-- The registers alone are those after the instructions that have left Writeback. -/
theorem regs_hart {n : ℕ} (h : b.Conforms n) {t : ℕ} (ht : b.systemRun.countE (t - 1) ≤ n) :
    ∃ s, b.hart (b.systemRun.countW t) = some s ∧
      ∀ r, (b.system t).cpu.rf.read r = s.regs r := by
  have hrf : (b.system t).cpu.rf = (b.sequential (b.systemRun.countW t)).rf := by
    cases t with
    | zero => rfl
    | succ t =>
        rw [b.system_succ, b.countW_succ]
        exact (h.matchesMemory ht).step_rf (b.arch_succ b.timerReads) (b.system_slots t)
  obtain ⟨s, hs, himp⟩ := h.sequential_implements ((b.countW_le t).trans ht)
  refine ⟨s, hs, ?_⟩
  intro r
  rw [hrf, himp.regs]

/-- The RAM alone is that after the instructions that have left Memory. -/
theorem ram_hart {n : ℕ} (h : b.Conforms n) {t : ℕ} (ht : b.systemRun.countE t ≤ n) :
    ∃ s, b.hart (b.systemRun.countM t) = some s ∧ Holds (b.system t).mem s.mem := by
  obtain ⟨s, hs, himp⟩ := h.sequential_implements ((b.countM_le t).trans ht)
  have hmem := (h.matchesMemory ht).mem
  rw [b.systemRun.idxM_eq] at hmem
  refine ⟨s, hs, ?_⟩
  rw [hmem]
  exact himp.mem

/-- Execute and `tohost`. -/
theorem execute_hart {n : ℕ} (h : b.Conforms n) {t : ℕ} (ht : b.systemRun.countE (t + 1) ≤ n) :
    ∃ s, b.hart (b.systemRun.countE t) = some s ∧ (b.system t).cpu.tohost = s.tohost ∧
      ((b.systemRun.occ t).e = true → (b.system t).cpu.de.pcE = s.pc ∧
        s.instr? = decode (b.system t).cpu.de.instrE) := by
  have hback := h.matchesBack ht
  obtain ⟨s, hs, himp⟩ := h.sequential_implements
    ((b.systemRun.countE_mono (Nat.le_succ t)).trans ht)
  have htohost := hback.tohost
  rw [Run.idxE_eq, himp.tohost] at htohost
  refine ⟨s, hs, htohost, ?_⟩
  intro he
  have hslot := hback.slotE he
  rw [Run.idxE_eq] at hslot
  have hlt : b.systemRun.countE t < n := by
    have hsucc := b.systemRun.countE_succ t
    rw [he, Bool.toNat_true] at hsucc
    omega
  obtain ⟨s', i, hs', hi, -⟩ := h.exists_instr hlt
  obtain rfl : s = s' := Option.some.inj (hs.symm.trans hs')
  rw [hslot]
  refine ⟨himp.pc, ?_⟩
  have hinstr : (decodeStage b.x (b.sequential (b.systemRun.countE t)).instr
      (b.system t).cpu.de.rd1E (b.system t).cpu.de.rd2E (b.sequential (b.systemRun.countE t)).pc
      (b.sequential (b.systemRun.countE t)).pcPlus4).instrE = i.encode :=
    himp.instr_of_instr? hi
  rw [hinstr, hi, decode_encode]

/-- The writes to `tohost` so far. -/
theorem log_tohostWrite {n : ℕ} (h : b.Conforms n) {t : ℕ} (ht : b.systemRun.countE t ≤ n) :
    Clocked.log (fun u => (b.system u).cpu.tohostWrite) t =
      Clocked.log (fun k => (b.hart k).bind Hart.tohostWrite) (b.systemRun.countE t) := by
  have hlog : Clocked.log (fun u => (b.system u).cpu.tohostWrite) t =
      Clocked.log (fun k => (b.sequential k).tohostWrite b.x) (b.systemRun.countE t) := by
    refine Clocked.log_eq_log_count (p := fun u => (b.systemRun.occ u).e = true) ?_ ?_
    · intro u hu he
      exact matches_tohostWrite (h.matchesBack ((b.systemRun.countE_mono hu).trans ht)) he
    · intro u _ he
      exact b.tohostWrite_of_empty (eq_false_of_ne_true he)
  rw [hlog]
  refine Clocked.log_congr ?_
  intro k hk
  obtain ⟨s, i, hs, hi, himp⟩ := h.exists_instr (lt_of_lt_of_le hk ht)
  rw [himp.tohostWrite_eq b.x hi, hs, Option.bind_some]

/-- **The pipeline implements the hart**, in every cycle until an instruction enters Execute
that is not among the first `n`. -/
theorem refines_hart {n : ℕ} (h : b.Conforms n) {t : ℕ}
    (ht : b.systemRun.countE (t + 1) ≤ n) : b.ShowsHart t := by
  have hle : b.systemRun.countE t ≤ n := (b.systemRun.countE_mono (Nat.le_succ t)).trans ht
  have hbus := b.log_busWrite h ((b.systemRun.countE_mono (Nat.sub_le t 1)).trans hle)
  exact ⟨b.memory_hart h ht, b.execute_hart h ht, hbus, b.log_tohostWrite h hle⟩

/-! ### Progress -/

/-- An instruction is at most three cycles behind the one before it. -/
theorem entry_add_le (k m : ℕ) :
    b.systemRun.entry (k + m) ≤ b.systemRun.entry k + 3 * m := by
  induction m with
  | zero => exact le_rfl
  | succ m ih =>
      have hnot := not_loadUse_and_transfers b.systemRun.x
        (b.systemRun.cpu (b.systemRun.entry (k + m)))
        (b.systemRun.cpu (b.systemRun.entry (k + m + 1))).de.instrE
      rw [← Nat.add_assoc, b.systemRun.entry_succ, Run.delay]
      split_ifs <;> first | omega | exact absurd ⟨‹_›, ‹_›⟩ hnot

theorem entry_le (k : ℕ) : b.systemRun.entry k ≤ 3 * k + 2 := by
  have hle := b.entry_add_le 0 k
  rw [Nat.zero_add, b.systemRun.entry_zero] at hle
  omega

/-- An instruction needs a cycle. -/
theorem le_entry (k : ℕ) : k + 2 ≤ b.systemRun.entry k := by
  induction k with
  | zero => rw [b.systemRun.entry_zero]
  | succ k ih =>
      rw [b.systemRun.entry_succ]
      omega

theorem countE_entry (k : ℕ) : b.systemRun.countE (b.systemRun.entry k) = k :=
  Nat.count_nth_of_infinite b.systemRun.infinite_entries k

theorem countE_entry_succ (k : ℕ) : b.systemRun.countE (b.systemRun.entry k + 1) = k + 1 := by
  rw [b.systemRun.countE_succ, b.countE_entry, b.systemRun.occ_entry, Bool.toNat_true]

theorem countM_entry_succ (k : ℕ) : b.systemRun.countM (b.systemRun.entry k + 1) = k := by
  rw [Run.countM_succ, b.countE_entry]

section
variable {b} {n k : ℕ} (h : b.Conforms n)
include h

/-- When an instruction is in Memory, the stores of those before it have been made. -/
theorem log_busWrite_entry (hk : k < n) :
    Clocked.log (fun u => (b.system u).cpu.busWrite) (b.systemRun.entry k + 1) =
      b.hartStores k := by
  rw [b.log_busWrite h ((b.countE_entry k).trans_le hk.le), b.countM_entry_succ]

/-- The cycle in which an instruction is in Execute. -/
theorem execute_entry (hk : k < n) : ∃ s, b.hart k = some s ∧
    (b.system (b.systemRun.entry k)).cpu.tohost = s.tohost ∧
    (b.system (b.systemRun.entry k)).cpu.de.pcE = s.pc ∧
    s.instr? = decode (b.system (b.systemRun.entry k)).cpu.de.instrE := by
  obtain ⟨s, hs, htohost, hslot⟩ := b.execute_hart h (t := b.systemRun.entry k)
    (by rw [b.countE_entry_succ]; exact hk)
  rw [b.countE_entry] at hs
  exact ⟨s, hs, htohost, hslot (b.systemRun.occ_entry k)⟩

/-- Two cycles later the registers are those before the instruction. -/
theorem regs_entry (hk : k < n) {s : Hart} (hs : b.hart k = some s) (r : BitVec 5) :
    (b.system (b.systemRun.entry k + 2)).cpu.rf.read r = s.regs r := by
  obtain ⟨u, hu, hregs⟩ := b.regs_hart h (t := b.systemRun.entry k + 2)
    ((b.countE_entry_succ k).trans_le hk)
  rw [Run.countW_succ, Run.countM_succ, b.countE_entry] at hu
  obtain rfl : s = u := Option.some.inj (hs.symm.trans hu)
  exact hregs r

/-- **Every instruction of the hart is executed**, once, in program order, and within three
cycles each; two cycles later the registers are those before it. -/
theorem executes_hart (hk : k < n) :
    ∃ t s, t ≤ 3 * k + 2 ∧ b.hart k = some s ∧
      (∀ u, (b.systemRun.occ u).e = true ∧ b.systemRun.countE u = k ↔ u = t) ∧
      (b.system t).cpu.de.pcE = s.pc ∧ s.instr? = decode (b.system t).cpu.de.instrE ∧
      (b.system t).cpu.tohost = s.tohost ∧
      ∀ r, (b.system (t + 2)).cpu.rf.read r = s.regs r := by
  obtain ⟨s, hs, htohost, hpc, hinstr⟩ := execute_entry h hk
  refine ⟨b.systemRun.entry k, s, b.entry_le k, hs, ?_, hpc, hinstr, htohost, ?_⟩
  · intro u
    constructor
    · rintro ⟨heu, hcount⟩
      rw [← hcount]
      exact (b.systemRun.entry_count heu).symm
    · rintro rfl
      exact ⟨b.systemRun.occ_entry k, b.countE_entry k⟩
  · exact regs_entry h hk hs

end

/-! ### Programs without devices -/

/-- A run that loads from no device does not depend on what the devices show. -/
theorem hartWith_congr {io io' : ℕ → Word} {n : ℕ} {s : Hart} (h : b.hartWith io n = some s)
    (hfree : ∀ k, k < n → ∀ s ∈ b.hartWith io k, ∀ i ∈ s.instr?, i.DeviceFree s) :
    b.hartWith io' n = some s := by
  refine Partial.run_congr h ?_
  intro k t hk ht
  exact t.step_congr (hfree k hk t ht) _ _

/-- With the reads `io` the hart executes `n` instructions, keeps nothing of what a device
shows, and is in the domain of the refinement. -/
def FreeRun (io : ℕ → Word) (n : ℕ) : Prop :=
  (b.hartWith io n).isSome = true ∧
    (∀ k, k < n → ∀ s ∈ b.hartWith io k, ∀ i ∈ s.instr?, i.DeviceFree s ∧ i.Regular s) ∧
    ∀ j, j < n → ∀ i, i < j → j ≤ i + 3 → ∀ u ∈ b.hartWith io j, ∀ s ∈ b.hartWith io i,
      ∀ s' ∈ b.hartWith io (i + 1), load s'.mem u.pc 4 = load s.mem u.pc 4

instance (io : ℕ → Word) (n : ℕ) : Decidable (b.FreeRun io n) :=
  inferInstanceAs (Decidable (_ ∧ _ ∧ _))

namespace FreeRun
variable {b} {io : ℕ → Word} {n : ℕ} (h : b.FreeRun io n)
include h

theorem exists_hartWith {k : ℕ} (hk : k ≤ n) : ∃ s, b.hartWith io k = some s := by
  obtain ⟨s, hs⟩ := Option.isSome_iff_exists.mp h.1
  exact Partial.exists_run_of_le hs hk

/-- It is the run of the program, whatever the devices show. -/
theorem hart_eq {k : ℕ} (hk : k ≤ n) : b.hart k = b.hartWith io k := by
  obtain ⟨t, ht⟩ := h.exists_hartWith hk
  rw [ht]
  exact b.hartWith_congr ht fun l hl s hs i hi => (h.2.1 l (by omega) s hs i hi).1

/-- A program that leaves the devices alone conforms if its run does. -/
theorem conforms : b.Conforms n where
  runs := by
    rw [h.hart_eq le_rfl]
    exact h.exists_hartWith le_rfl
  regular k hk := by
    rw [h.hart_eq hk.le]
    exact fun s hs i hi => (h.2.1 k hk s hs i hi).2
  stores j hj i hij hji := by
    rw [h.hart_eq hj.le, h.hart_eq (by omega : i ≤ n), h.hart_eq (by omega : i + 1 ≤ n)]
    exact h.2.2 j hj i hij hji

/-- A state of the program, with what a check has found of it. -/
theorem exists_hart {k : ℕ} (hk : k ≤ n) {P : Hart → Prop} (hP : ∀ s ∈ b.hartWith io k, P s) :
    ∃ s, b.hart k = some s ∧ P s := by
  obtain ⟨s, hs⟩ := h.exists_hartWith hk
  exact ⟨s, (h.hart_eq hk).trans hs, hP s hs⟩

end FreeRun

end Boot

theorem storeLoad_freeRun : storeLoadBoot.FreeRun (fun _ => 0#32) 4 := by
  decide +kernel

theorem storeLoad_conforms : storeLoadBoot.Conforms 4 := storeLoad_freeRun.conforms

/-- The pipeline has executed the store of this program in cycle 6. -/
theorem storeLoad_shows_hart : storeLoadBoot.ShowsHart 6 :=
  storeLoadBoot.refines_hart storeLoad_conforms (by decide +kernel)

/-- Its first store. -/
theorem storeLoad_executes_hart : ∃ t s, t ≤ 5 ∧ storeLoadBoot.hart 1 = some s ∧
    (∀ u, (storeLoadBoot.systemRun.occ u).e = true ∧ storeLoadBoot.systemRun.countE u = 1 ↔
      u = t) ∧
    (storeLoadBoot.system t).cpu.de.pcE = s.pc ∧
    s.instr? = decode (storeLoadBoot.system t).cpu.de.instrE ∧
    (storeLoadBoot.system t).cpu.tohost = s.tohost ∧
    ∀ r, (storeLoadBoot.system (t + 2)).cpu.rf.read r = s.regs r :=
  storeLoadBoot.executes_hart (k := 1) storeLoad_conforms (by decide)

end SmuRv32im
