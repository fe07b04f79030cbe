import SmuRv32im.HartTiming

/-!
# Don't-Care Values

Where the source leaves a value undefined, the hardware may put any value there, and the
simulator another (`XValues`). A program that leaves the devices alone cannot tell: registers,
RAM, `tohost` and the stores are the same in every cycle, and each instruction is in Execute in
the same cycle. So is the choice of the `SIM` build no matter to it.

This is for the programs of the refinement. A device shows the difference: the timer takes an
address on the bus for a read whatever the instruction, and the address of an instruction that
is no access may be a don't-care value.

## Main results

* `Boot.entry_congr`: the cycles do not depend on the don't-care values.
* `Boot.dontCare`: nor does anything the program writes.
-/

namespace SmuRv32im

namespace Boot

/-- Two boots with the same program and the same registers. -/
structure SameProgram (b b' : Boot) : Prop where
  image : b'.image = b.image
  rf : b'.rf = b.rf

/-- Two boots show the same in cycle `t`. -/
structure ShowsSame (b b' : Boot) (t : ℕ) : Prop where
  regs : ∀ r, (b'.system t).cpu.rf.read r = (b.system t).cpu.rf.read r
  ram : (b'.system t).mem = (b.system t).mem
  tohost : (b'.system t).cpu.tohost = (b.system t).cpu.tohost
  stores : Clocked.log (fun u => (b'.system u).cpu.busWrite) t =
    Clocked.log (fun u => (b.system u).cpu.busWrite) t

section
variable {b b' : Boot} (hsame : SameProgram b b') {io : ℕ → Word} {n : ℕ} (h : b.FreeRun io n)
include hsame h

theorem FreeRun.congr : b'.FreeRun io n := by
  have hrun : b'.hartWith io = b.hartWith io := by
    rw [hartWith, hsame.image, hsame.rf, hartWith]
  rw [FreeRun, hrun]
  exact h

theorem hart_congr {k : ℕ} (hk : k ≤ n) : b'.hart k = b.hart k := by
  rw [(FreeRun.congr hsame h).hart_eq hk, h.hart_eq hk, hartWith, hsame.image, hsame.rf, hartWith]

/-- **The cycles do not depend on the don't-care values.** -/
theorem entry_congr {k : ℕ} (hk : k < n) : b'.systemRun.entry k = b.systemRun.entry k := by
  have hcost : ∀ j, j < k → b'.cost j = b.cost j := by
    intro j hj
    rw [cost, cost, hart_congr hsame h (by omega), hart_congr hsame h (by omega)]
  rw [entry_between (FreeRun.congr hsame h).conforms (Nat.zero_le k) hk,
    entry_between h.conforms (Nat.zero_le k) hk, b'.systemRun.entry_zero, b.systemRun.entry_zero,
    Finset.sum_congr rfl fun j hj => hcost j (Finset.mem_Ico.mp hj).2]

/-- So as many instructions have passed Execute. -/
theorem countE_congr {k t : ℕ} (hk : k < n) (ht : t ≤ b.systemRun.entry k) :
    b'.systemRun.countE t = b.systemRun.countE t := by
  have hentry : ∀ j, j ≤ k → b.systemRun.entry j = b'.systemRun.entry j := by
    intro j hj
    exact (entry_congr hsame h (lt_of_le_of_lt hj hk)).symm
  exact (Clocked.count_eq_of_nth_eq b.systemRun.infinite_entries b'.systemRun.infinite_entries
    hentry ht).symm

theorem countM_congr {k t : ℕ} (hk : k < n) (ht : t ≤ b.systemRun.entry k) :
    b'.systemRun.countM t = b.systemRun.countM t := by
  cases t with
  | zero => exact (Nat.count_zero _).trans (Nat.count_zero _).symm
  | succ t => rw [Run.countM_succ, Run.countM_succ, countE_congr hsame h hk (by omega)]

theorem countW_congr {k t : ℕ} (hk : k < n) (ht : t ≤ b.systemRun.entry k) :
    b'.systemRun.countW t = b.systemRun.countW t := by
  cases t with
  | zero => exact (Nat.count_zero _).trans (Nat.count_zero _).symm
  | succ t => rw [Run.countW_succ, Run.countW_succ, countM_congr hsame h hk (by omega)]

/-- **A program that leaves the devices alone cannot tell** what stands in for the values the
source leaves undefined: up to the cycle of its last instruction, all it writes is the same. -/
theorem dontCare {k t : ℕ} (hk : k < n) (ht : t ≤ b.systemRun.entry k) :
    ShowsSame b b' t := by
  have hb := h.conforms
  have hb' := (FreeRun.congr hsame h).conforms
  have hn : b.systemRun.countE (t + 1) ≤ n :=
    (b.systemRun.countE_mono (Nat.succ_le_succ ht)).trans ((b.countE_entry_succ k).trans_le hk)
  have hn' : b'.systemRun.countE (t + 1) ≤ n := by
    rw [← entry_congr hsame h hk] at ht
    exact (b'.systemRun.countE_mono (Nat.succ_le_succ ht)).trans
      ((b'.countE_entry_succ k).trans_le hk)
  have hE := countE_congr hsame h hk ht
  have hM := countM_congr hsame h hk ht
  have hW := countW_congr hsame h hk ht
  have hle := (b.systemRun.countE_mono (Nat.le_succ t)).trans hn
  have hMn := (b.countM_le t).trans hle
  have hpred := (b.systemRun.countE_mono (Nat.sub_le t 1)).trans hle
  have hpred' := (b'.systemRun.countE_mono (Nat.sub_le t 1)).trans (hE.trans_le hle)
  have hWn := (b.countW_le t).trans hpred
  refine ⟨?_, ?_, ?_, ?_⟩
  · obtain ⟨s, hs, hregs⟩ := b.regs_hart hb hpred
    obtain ⟨s', hs', hregs'⟩ := b'.regs_hart hb' hpred'
    rw [hW, hart_congr hsame h hWn] at hs'
    obtain rfl : s = s' := Option.some.inj (hs.symm.trans hs')
    exact fun r => (hregs' r).trans (hregs r).symm
  · obtain ⟨s, hs, hmem⟩ := b.ram_hart hb hle
    obtain ⟨s', hs', hmem'⟩ := b'.ram_hart hb' (hE.trans_le hle)
    rw [hM, hart_congr hsame h hMn] at hs'
    obtain rfl : s = s' := Option.some.inj (hs.symm.trans hs')
    exact hmem'.unique hmem
  · obtain ⟨s, hs, htohost, -⟩ := b.execute_hart hb hn
    obtain ⟨s', hs', htohost', -⟩ := b'.execute_hart hb' hn'
    rw [hE, hart_congr hsame h hle] at hs'
    obtain rfl : s = s' := Option.some.inj (hs.symm.trans hs')
    rw [htohost', htohost]
  · rw [b.log_busWrite hb hpred, b'.log_busWrite hb' hpred', hM, hartStores, hartStores]
    refine Clocked.log_congr ?_
    intro j hj
    rw [hart_congr hsame h (by omega)]

end

end Boot

/-- The store of this program with other don't-care values. -/
theorem storeLoad_dontCare : Boot.ShowsSame storeLoadBoot
    { storeLoadBoot with x := ⟨5#3, 9#5, 0x80001200#32, 1#32, 2#32⟩, sim := false } 5 := by
  have hsame : Boot.SameProgram storeLoadBoot
      { storeLoadBoot with x := ⟨5#3, 9#5, 0x80001200#32, 1#32, 2#32⟩, sim := false } := ⟨rfl, rfl⟩
  exact Boot.dontCare hsame storeLoad_freeRun (k := 3) (by omega) (storeLoadBoot.le_entry 3)

end SmuRv32im
