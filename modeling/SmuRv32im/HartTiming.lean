import Mathlib.Algebra.BigOperators.Intervals
import SmuRv32im.HartRefinement

/-!
# The Cycles of a Program

How long the pipeline takes is a matter of the instructions alone. Each costs one cycle, a
taken branch or a jump two more, and a load one more if the next instruction has its
destination in the bits of `rs1` or `rs2`, read or not. So the cycle in which an instruction
is in Execute is a sum over the run of the hart (`Boot.entry_hart`), with two cycles at the
start for Fetch and Decode; nothing a device shows and nothing in the memory system adds to it.

## Main results

* `Implements.transfers_iff`: the machine redirects where the hart takes a branch or jumps.
* `Boot.entry_hart`: the cycle of each instruction.
-/

namespace SmuRv32im

/-! ### The cost of an instruction -/

namespace Instr

/-- The instruction is a taken branch or a jump. -/
def Transfers (s : Hart) : Instr → Prop
  | compute (.jal _ _) => True
  | branch o r1 r2 _ => o.Holds (s.regs r1) (s.regs r2)
  | jalr _ _ _ => True
  | _ => False

instance (s : Hart) : (i : Instr) → Decidable (i.Transfers s)
  | compute (.jal _ _) => inferInstanceAs (Decidable True)
  | compute (.reg ..) | compute (.imm ..) | compute (.shift ..) | compute (.lui ..)
  | compute (.auipc ..) => inferInstanceAs (Decidable False)
  | branch o r1 r2 _ => inferInstanceAs (Decidable (o.Holds (s.regs r1) (s.regs r2)))
  | jalr _ _ _ => inferInstanceAs (Decidable True)
  | set .. | setImm .. | mulDiv .. | load .. | store .. | csrrw .. | csrrwi .. | fence .. =>
    inferInstanceAs (Decidable False)

/-- The instruction is a load into a register that the next one has in the bits of a source. -/
def LoadUse : Instr → Instr → Prop
  | load _ d _ _, next => rs1 next.encode = d ∨ rs2 next.encode = d
  | _, _ => False

instance : (i next : Instr) → Decidable (i.LoadUse next)
  | load _ d _ _, next =>
    inferInstanceAs (Decidable (rs1 next.encode = d ∨ rs2 next.encode = d))
  | compute .., _ | set .., _ | setImm .., _ | mulDiv .., _ | branch .., _ | jalr .., _
  | store .., _ | csrrw .., _ | csrrwi .., _ | fence .., _ => inferInstanceAs (Decidable False)

/-- The cycles from the instruction to the next one. -/
def cost (s : Hart) (i next : Instr) : ℕ :=
  1 + (if i.LoadUse next then 1 else 0) + 2 * (if i.Transfers s then 1 else 0)

theorem loadUse_iff (i next : Instr) :
    SmuRv32im.LoadUse i.encode next.encode ↔ i.LoadUse next := by
  rw [SmuRv32im.LoadUse, i.opcode_encode]
  cases i with
  | load o d r1 imm =>
      have hrd : rd (load o d r1 imm).encode = d := iType_rd _ _ _ _ _
      rw [hrd]
      exact and_iff_right rfl
  | compute i =>
      have hop : (compute i).op ≠ opcLoad := by
        cases i <;> simp [op, Rv32i.op]
      exact iff_of_false (fun h => hop h.1) not_false
  | _ => simp [op, LoadUse]

end Instr

/-- The cycles from the instruction of a state to that of the next state. -/
def Hart.cost (s s' : Hart) : ℕ :=
  match s.instr?, s'.instr? with
  | some i, some next => i.cost s next
  | _, _ => 0

/-! ### The pipeline -/

/-- **Transfers of control**, on both sides. -/
theorem Implements.transfers_iff {a : Arch} {s : Hart} (h : Implements a s) (x : XValues)
    {i : Instr} (hi : s.instr? = some i) (hreg : i.Regular s) :
    a.Transfers x ↔ i.Transfers s := by
  have henc := h.instr_of_instr? hi
  have htaken : a.Transfers x ↔ Taken x i.encode a.rd1 a.rd2 a.pc := by
    rw [taken_iff_transfers, ← henc]
    rfl
  have hnot : (i.op ≠ opcBranch ∧ i.op ≠ opcJal ∧ i.op ≠ opcJalr) → ¬a.Transfers x := by
    rw [htaken, ← i.opcode_encode]
    rintro ⟨hbr, hjal, hjalr⟩
    exact not_taken x _ _ _ _ hbr hjal hjalr
  have hjump : (i.op = opcJal ∨ i.op = opcJalr) → a.Transfers x := by
    rw [htaken, taken_iff_transfers, ← i.opcode_encode]
    exact Or.inr
  cases i with
  | compute i =>
      cases i with
      | jal d off => exact iff_of_true (hjump (Or.inl rfl)) trivial
      | _ => exact iff_of_false (hnot (by simp [Instr.op, Rv32i.op])) not_false
  | branch o r1 r2 off =>
      have h1 : rs1 (o.encode r1 r2 off) = r1 := rType_rs1 _ _ _ _ _ _
      have h2 : rs2 (o.encode r1 r2 off) = r2 := rType_rs2 _ _ _ _ _ _
      have hrd1 : a.rd1 = s.regs r1 := by
        rw [Arch.rd1, henc, Instr.encode, h1, h.regs]
      have hrd2 : a.rd2 = s.regs r2 := by
        rw [Arch.rd2, henc, Instr.encode, h2, h.regs]
      rw [htaken, hrd1, hrd2, Instr.encode]
      refine BranchOp.taken_iff_holds x _ _ _ o r1 r2 off ?_
      rintro (rfl | rfl)
      · exact hreg
      · exact hreg
  | jalr d r1 imm => exact iff_of_true (hjump (Or.inr rfl)) trivial
  | _ => exact iff_of_false (hnot (by simp [Instr.op])) not_false

namespace Boot
variable (b : Boot)

/-- The cycles from the `k`-th instruction to the next. -/
noncomputable def cost (k : ℕ) : ℕ :=
  match b.hart k, b.hart (k + 1) with
  | some s, some s' => s.cost s'
  | _, _ => 0

section
variable {b} {n k : ℕ} (h : b.Conforms n) (hk : k < n)
include h hk

/-- The instruction that is in Execute in its cycle. -/
theorem instrE_entry {s : Hart} {i : Instr} (hs : b.hart k = some s) (hi : s.instr? = some i) :
    (b.systemRun.cpu (b.systemRun.entry k)).de.instrE = i.encode := by
  rw [b.systemRun_cpu]
  have hback := h.matchesBack ((b.countE_entry_succ k).trans_le hk)
  have hslot := hback.slotE (b.systemRun.occ_entry k)
  rw [b.systemRun.idxE_eq, b.countE_entry] at hslot
  obtain ⟨t, ht, himp⟩ := h.sequential_implements hk.le
  obtain rfl : s = t := Option.some.inj (hs.symm.trans ht)
  rw [hslot]
  exact himp.instr_of_instr? hi

theorem transfers_entry {s : Hart} {i : Instr} (hs : b.hart k = some s)
    (hi : s.instr? = some i) :
    (b.systemRun.cpu (b.systemRun.entry k)).Transfers b.systemRun.x ↔ i.Transfers s := by
  rw [b.systemRun_cpu]
  have hback := h.matchesBack ((b.countE_entry_succ k).trans_le hk)
  have hslots := b.system_slots (b.systemRun.entry k)
  have he := b.systemRun.occ_entry k
  have hiff := hback.transfers_iff (b.arch_succ b.timerReads) hslots (b.forwarding _) he
  rw [hslots.pcSrc_iff he, b.systemRun.idxE_eq, b.countE_entry] at hiff
  obtain ⟨t, ht, himp⟩ := h.sequential_implements hk.le
  obtain rfl : s = t := Option.some.inj (hs.symm.trans ht)
  exact hiff.trans (himp.transfers_iff b.x hi (h.regular k hk s hs i hi))

end

variable {b} {n : ℕ} (h : b.Conforms n)
include h

/-- An instruction and the next. -/
theorem entry_succ_hart {k : ℕ} (hk : k + 1 < n) :
    b.systemRun.entry (k + 1) = b.systemRun.entry k + b.cost k := by
  have hk' : k < n := Nat.lt_of_succ_lt hk
  obtain ⟨s, i, hs, hi, -⟩ := h.exists_instr hk'
  obtain ⟨s', i', hs', hi', -⟩ := h.exists_instr hk
  have hcost : b.cost k = i.cost s i' := by
    rw [cost, hs, hs']
    change s.cost s' = _
    rw [Hart.cost, hi, hi']
  have hdelay : b.systemRun.delay (b.systemRun.entry k)
      (b.systemRun.cpu (b.systemRun.entry (k + 1))).de.instrE + 1 = i.cost s i' := by
    rw [Run.delay, instrE_entry h hk hs' hi', instrE_entry h hk' hs hi,
      if_congr (i.loadUse_iff i') rfl rfl, if_congr (transfers_entry h hk' hs hi) rfl rfl,
      Instr.cost]
    omega
  rw [b.systemRun.entry_succ, hcost]
  omega

/-- The cycles between two instructions. -/
theorem entry_between {j k : ℕ} (hjk : j ≤ k) (hk : k < n) :
    b.systemRun.entry k = b.systemRun.entry j + ∑ l ∈ Finset.Ico j k, b.cost l := by
  induction k, hjk using Nat.le_induction with
  | base => rw [Finset.Ico_self, Finset.sum_empty, Nat.add_zero]
  | succ k hjk ih =>
      rw [entry_succ_hart h hk, ih (Nat.lt_of_succ_lt hk), Finset.sum_Ico_succ_top hjk,
        Nat.add_assoc]

/-- **The cycle of each instruction** is the sum of the costs of those before it. -/
theorem entry_hart {k : ℕ} (hk : k < n) :
    b.systemRun.entry k = 2 + ∑ j ∈ Finset.range k, b.cost j := by
  rw [entry_between h (Nat.zero_le k) hk, b.systemRun.entry_zero, Finset.range_eq_Ico]

end Boot

theorem storeLoad_entry :
    storeLoadBoot.systemRun.entry 3 = 2 + ∑ j ∈ Finset.range 3, storeLoadBoot.cost j :=
  Boot.entry_hart storeLoad_conforms (by decide)

end SmuRv32im
