import SmuRv32im.CycleAccounting

/-!
# Alignment of the Program Counter

The next program counter has three sources. Two of them, `PC + 4` and the target of a
branch or a `jal`, keep the program counter even; the third, the target of a `jalr`,
comes from the ALU as it is. So the program counter and all that is derived from it is
even as long as every `jalr` adds up to an even address, and no longer.

## Main results

* `Slots.pcNext_of_pcSrc`: the targets of the three kinds of transfers.
* `Run.evenPCs`: the alignment invariant, as far as the `jalr` targets are even.
* `Run.jalrLaw_iff`: the RISC-V definition of `jalr`, which clears bit 0, is met exactly by
  these runs.
-/

namespace SmuRv32im

/-! ### Even addresses -/

/-- An address with bit 0 clear. -/
def EvenAddr (w : Word) : Prop := w.getLsbD 0 = false

instance (w : Word) : Decidable (EvenAddr w) := inferInstanceAs (Decidable (_ = _))

theorem EvenAddr.zero : EvenAddr 0#32 := rfl

theorem EvenAddr.base : EvenAddr 0x10000000#32 := rfl

theorem EvenAddr.add {a b : Word} (ha : EvenAddr a) (hb : EvenAddr b) : EvenAddr (a + b) := by
  rw [EvenAddr, BitVec.getLsbD_add (by omega), ha, hb, BitVec.carry_zero]
  rfl

theorem EvenAddr.add_four {a : Word} (ha : EvenAddr a) : EvenAddr (a + 4#32) :=
  ha.add rfl

/-- An address with its bit 0 cleared. -/
def clearBit0 (w : Word) : Word := w &&& ~~~1#32

/-- Clearing bit 0 of an address changes nothing exactly if the address is even. -/
theorem clearBit0_eq_iff {w : Word} : w = clearBit0 w ↔ EvenAddr w := by
  constructor
  · intro h
    rw [EvenAddr, h, clearBit0, BitVec.getLsbD_and]
    exact Bool.and_false _
  · intro h
    refine BitVec.eq_of_getLsbD_eq ?_
    intro i hi
    rw [clearBit0, BitVec.getLsbD_and, BitVec.getLsbD_not, BitVec.getLsbD_one]
    cases i with
    | zero => rw [show w.getLsbD 0 = false from h, Bool.false_and]
    | succ i => simp [hi]

/-! ### Targets -/

namespace StageDE.Decoded
variable {x : XValues} {de : StageDE} (h : de.Decoded x) (rd1EH rd2EH pcPlus4 : Word)
include h

/-- A taken branch and a `jal` go to `PC` plus the immediate. -/
theorem pcNext_of_branch_or_jal (hop : opcode de.instrE = opcBranch ∨
    opcode de.instrE = opcJal) (hp : de.pcSrc x rd1EH rd2EH ≠ 0b00#2) :
    de.pcNext x rd1EH rd2EH pcPlus4 = de.pcE + immExt x de.instrE := by
  have hjalr : de.jalrE = false := by
    refine eq_false_of_ne_true ?_
    intro hj
    simp [h.jalrE.mp hj] at hop
  have hsrc : de.pcSrc x rd1EH rd2EH = 0b01#2 := by
    rw [pcSrc, hjalr] at hp ⊢
    rcases branchLogic_ne_zero.mp hp with hb | hj | hj
    · rw [branchLogic, if_pos hb]
    · rw [branchLogic, if_pos hj, ite_self]
    · exact absurd hj Bool.false_ne_true
  rw [pcNext, hsrc, mux3_01, pcTarget, adder_sum_false, h.immExtE]

/-- A `jalr` goes to the sum of its base and its immediate. -/
theorem pcNext_of_jalr (hop : opcode de.instrE = opcJalr) :
    de.pcNext x rd1EH rd2EH pcPlus4 = rd1EH + immI de.instrE := by
  have hbranch : de.branchE = false := by
    refine eq_false_of_ne_true ?_
    intro hb
    simp [h.branchE.mp hb] at hop
  have hjal : de.jalE = false := by
    refine eq_false_of_ne_true ?_
    intro hj
    simp [h.jalE.mp hj] at hop
  have hsrc : de.pcSrc x rd1EH rd2EH = 0b10#2 := by
    rw [pcSrc, hbranch, hjal, h.jalrE.mpr hop, branchLogic, btaken_false]
    rfl
  have hctl : de.aluControlE = 0b00000#5 ∧ de.aluSrcAE = 0b00#2 ∧ de.aluSrcBE = true := by
    rw [h]
    simp [decodeStage, controller, maindec, aludec, hop]
  obtain ⟨hctl, hA, hB⟩ := hctl
  have himm : de.immExtE = immI de.instrE := by
    rw [h.immExtE, immExt_of_iType x _ (Or.inr (Or.inr hop))]
  rw [pcNext, hsrc, mux3_10, aluOut, srcA, srcB, hctl, hA, hB, mux3_00, mux2_true, himm,
    alu_add]

end StageDE.Decoded

/-- **The targets of the transfers of control.** -/
theorem Slots.pcNext_of_pcSrc {x : XValues} {s : Cpu} {o : Occupancy} (h : Slots x s o)
    (hp : s.pcSrc x ≠ 0b00#2) :
    ((opcode s.de.instrE = opcBranch ∨ opcode s.de.instrE = opcJal) ∧
      s.pcNext x = s.de.pcE + immExt x s.de.instrE) ∨
    (opcode s.de.instrE = opcJalr ∧ s.pcNext x = s.rd1EH + immI s.de.instrE) := by
  have hdec := h.decodedE (h.e_of_pcSrc hp)
  rcases h.opcode_of_pcSrc hp with hop | hop | hop
  · exact Or.inl ⟨Or.inl hop, hdec.pcNext_of_branch_or_jal _ _ _ (Or.inl hop) hp⟩
  · exact Or.inl ⟨Or.inr hop, hdec.pcNext_of_branch_or_jal _ _ _ (Or.inr hop) hp⟩
  · exact Or.inr ⟨hop, hdec.pcNext_of_jalr _ _ _ hop⟩

/-! ### The invariant -/

/-- **The alignment invariant**: the program counter, its copies down the pipeline, which
are the bases of branches and `auipc`, and the link values are even. -/
structure Cpu.EvenPCs (s : Cpu) : Prop where
  pc : EvenAddr s.pc
  pcD : EvenAddr s.fd.pcD
  pcPlus4D : EvenAddr s.fd.pcPlus4D
  pcE : EvenAddr s.de.pcE
  pcPlus4E : EvenAddr s.de.pcPlus4E
  pcPlus4M : EvenAddr s.em.pcPlus4M
  pcPlus4W : EvenAddr s.mw.pcPlus4W

theorem Cpu.EvenPCs.reset (rf : RegFile) : (Cpu.reset rf).EvenPCs where
  pc := EvenAddr.base
  pcD := EvenAddr.base
  pcPlus4D := EvenAddr.zero
  pcE := EvenAddr.base
  pcPlus4E := EvenAddr.zero
  pcPlus4M := EvenAddr.zero
  pcPlus4W := EvenAddr.zero

/-- A clock cycle keeps the alignment if it does not load an odd `jalr` target. -/
theorem Cpu.EvenPCs.step {x : XValues} {s : Cpu} {o : Occupancy} (h : s.EvenPCs)
    (hslots : Slots x s o) (i : BusIn)
    (hjalr : o.e = true → opcode s.de.instrE = opcJalr → EvenAddr (s.rd1EH + immI s.de.instrE)) :
    (s.step x i).EvenPCs := by
  have hM : EvenAddr (s.step x i).em.pcPlus4M := h.pcPlus4E
  have hW : EvenAddr (s.step x i).mw.pcPlus4W := h.pcPlus4M
  by_cases hs : s.stall = true
  · obtain ⟨hpc, hfd, hde⟩ := Cpu.step_of_stall (x := x) i hs
    refine ⟨?_, ?_, ?_, ?_, ?_, hM, hW⟩
    · rw [hpc]
      exact h.pc
    · rw [hfd]
      exact h.pcD
    · rw [hfd]
      exact h.pcPlus4D
    · rw [hde]
      exact EvenAddr.zero
    · rw [hde]
      exact EvenAddr.zero
  · replace hs := eq_false_of_ne_true hs
    by_cases hp : s.pcSrc x = 0b00#2
    · obtain ⟨hpc, hfd, hde⟩ := Cpu.step_of_straight i hs hp
      refine ⟨?_, ?_, ?_, ?_, ?_, hM, hW⟩
      · rw [hpc]
        exact h.pc.add_four
      · rw [hfd]
        exact h.pc
      · rw [hfd]
        exact h.pc.add_four
      · rw [hde]
        exact h.pcD
      · rw [hde]
        exact h.pcPlus4D
    · obtain ⟨hpc, hfd, hde⟩ := Cpu.step_of_pcSrc i hs hp
      refine ⟨?_, ?_, ?_, ?_, ?_, hM, hW⟩
      · rw [hpc]
        rcases hslots.pcNext_of_pcSrc hp with ⟨hop, hnext⟩ | ⟨hop, hnext⟩
        · rw [hnext]
          exact h.pcE.add (immExt_even x _ hop)
        · rw [hnext]
          exact hjalr (hslots.e_of_pcSrc hp) hop
      · rw [hfd]
        exact EvenAddr.zero
      · rw [hfd]
        exact EvenAddr.zero
      · rw [hde]
        exact EvenAddr.zero
      · rw [hde]
        exact EvenAddr.zero

/-! ### Runs -/

namespace Run
variable (r : Run)

/-- A `jalr` that is not squashed is in Execute. -/
def jalrAt (t : ℕ) : Prop :=
  (r.occ t).e = true ∧ opcode (r.cpu t).de.instrE = opcJalr

/-- The base value of the instruction in Execute plus its sign-extended immediate. -/
def jalrSum (t : ℕ) : Word := (r.cpu t).rd1EH + immI (r.cpu t).de.instrE

/-- What the RISC-V definition of `jalr` asks of the first `T` cycles, and what follows
from it: each `jalr` continues at its sum with bit 0 cleared, and all the addresses of the
pipeline are even. -/
def JalrLaw (T : ℕ) : Prop :=
  (∀ t, t < T → r.jalrAt t → (r.cpu (t + 1)).pc = clearBit0 (r.jalrSum t)) ∧
    ∀ t, t ≤ T → (r.cpu t).EvenPCs

/-- After a `jalr` the program counter is its sum. -/
theorem pc_succ_of_jalrAt {t : ℕ} (h : r.jalrAt t) : (r.cpu (t + 1)).pc = r.jalrSum t := by
  obtain ⟨he, hop⟩ := h
  have hslots := r.slots t
  have hp : (r.cpu t).pcSrc r.x ≠ 0b00#2 :=
    (hslots.pcSrc_iff he).mpr (Or.inr (Or.inr hop))
  obtain ⟨hpc, -, -⟩ := Cpu.step_of_pcSrc (r.bus t) (hslots.not_stall_of_pcSrc hp) hp
  rw [r.cpu_succ, hpc]
  exact (hslots.decodedE he).pcNext_of_jalr _ _ _ hop

/-- **The program counter is even** as long as the sums of the `jalr` are. -/
theorem evenPCs {T : ℕ} (h : ∀ t, t < T → r.jalrAt t → EvenAddr (r.jalrSum t)) {t : ℕ}
    (ht : t ≤ T) : (r.cpu t).EvenPCs := by
  induction t with
  | zero => exact Cpu.EvenPCs.reset r.rf
  | succ t ih =>
      rw [r.cpu_succ]
      refine (ih (by omega)).step (r.slots t) (r.bus t) ?_
      intro he hop
      exact h t (by omega) ⟨he, hop⟩

/-- **When `jalr` is what RISC-V defines.** The law holds for the first `T` cycles of a run
exactly if every `jalr` executed in them has an even sum. -/
theorem jalrLaw_iff (T : ℕ) :
    r.JalrLaw T ↔ ∀ t, t < T → r.jalrAt t → EvenAddr (r.jalrSum t) := by
  constructor
  · rintro ⟨hjalr, -⟩ t ht hat
    have hpc := hjalr t ht hat
    rw [r.pc_succ_of_jalrAt hat] at hpc
    exact clearBit0_eq_iff.mp hpc
  · intro h
    constructor
    · intro t ht hat
      rw [r.pc_succ_of_jalrAt hat]
      exact clearBit0_eq_iff.mpr (h t ht hat)
    · intro t ht
      exact r.evenPCs h ht

end Run

/-! ### A program with an odd target -/

/-- `jalr x0, 1(x0)` at the reset address, on a register file of zeros. -/
def oddJalrBoot : Boot :=
  { x := ⟨0#3, 0#5, 0#32, 0#32, 0#32⟩
    image := fun a => if a = 0#17 then 0x00100067#32 else 0#32
    rf := fun _ => 0#32
    sim := true }

/-- The program counter of this run is odd in cycle 3. -/
theorem oddJalr_pc : (oddJalrBoot.system 3).cpu.pc = 1#32 := by decide +kernel

/-- The law fails for this run. -/
theorem oddJalr_not_jalrLaw : ¬∀ T, oddJalrBoot.systemRun.JalrLaw T := by
  intro h
  have heven := ((h 3).2 3 le_rfl).pc
  rw [oddJalrBoot.systemRun_cpu, oddJalr_pc] at heven
  simp [EvenAddr] at heven

end SmuRv32im
