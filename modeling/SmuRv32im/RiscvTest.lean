import SmuRv32im.MachineCode
import SmuRv32im.Testbench

/-!
# The Pass and Fail Macros

The instruction set tests end in `RVTEST_PASS` or in `RVTEST_FAIL`, with the number of the
test in `TESTNUM`. What `isa_testbench` displays is `passed`, or `failed` with that number: the
macros and the testbench agree on how the number is put into `tohost`. The one number they
do not tell from a success is zero.

## Main results

* `Boot.rvtestPass_verdict`, `Boot.rvtestFail_verdict`: the outcome of the two macros.
-/

namespace SmuRv32im

open Partial (leads_zero)

/-- `RVTEST_PASS`, with `TESTNUM` in `x3`. -/
def rvtestPass : List Instr :=
  [.compute (.imm .addi 3#5 0#5 1#12), .csrrw 0#5 3#5, .compute (.jal 0#5 0#20)]

/-- `RVTEST_FAIL`. -/
def rvtestFail : List Instr :=
  [.compute (.shift .slli 3#5 3#5 1#5), .compute (.imm .ori 3#5 3#5 1#12), .csrrw 0#5 3#5,
    .compute (.jal 0#5 0#20)]

example : rvtestPass.map Instr.encode = [0x00100193#32, 0x51e19073#32, 0x0000006f#32] ∧
    rvtestFail.map Instr.encode =
      [0x00119193#32, 0x0011e193#32, 0x51e19073#32, 0x0000006f#32] := by
  decide

namespace Boot
variable (b : Boot)

/-- A computation of the code writes nothing to `tohost`. -/
theorem WritesBefore.compute {b : Boot} {k l : ℕ} {P : Word → Prop} (hw : b.WritesBefore k P)
    {s : Hart} (hs : b.hart k = some s) {base : Word} {code : List Instr}
    (hat : s.At base code l) {i : Rv32i} (hi : code[l]? = some (.compute i)) :
    b.WritesBefore (k + 1) P := by
  intro j hj t ht v hv
  obtain hlt | rfl := Nat.lt_succ_iff_lt_or_eq.mp hj
  · exact hw j hlt t ht v hv
  · obtain rfl := Option.some.inj (hs.symm.trans ht)
    rw [Hart.tohostWrite, hat.instr? hi] at hv
    cases hv

/-- The verdict of an odd value that `TESTNUM` holds at a `csrw`. -/
theorem verdict_of_csrw {n k l : ℕ} (h : b.Conforms n) (hk : k < n)
    (hsoon : b.systemRun.entry k < 968) (hw : b.WritesBefore k fun v => v.getLsbD 0 = false)
    {s : Hart} (hs : b.hart k = some s) {base : Word} {code : List Instr}
    (hat : s.At base code l) (hi : code[l]? = some (.csrrw 0#5 3#5))
    (hodd : (s.regs 3#5).getLsbD 0 = true) :
    isaTestbench (fun t => (b.system t).cpu.tohost) =
      if s.regs 3#5 = 1#32 then .passed (b.systemRun.entry k + 2)
      else .failed ((s.regs 3#5).extractLsb' 1 31) := by
  have hv : s.tohostWrite = some (s.regs 3#5) := by
    rw [Hart.tohostWrite, hat.instr? hi]
    rfl
  obtain ⟨hbefore, hout⟩ := tohost_entry h hk (P := fun v => v.getLsbD 0 = false) rfl hw hs hv
  rw [← hout] at hodd ⊢
  exact isaTestbench_eq (by omega) hodd fun u hu => hbefore u (by omega)

/-- **A test that ends in `RVTEST_PASS`** has passed. -/
theorem rvtestPass_verdict {n k : ℕ} (h : b.Conforms n) (hk : k + 1 < n)
    (hsoon : b.systemRun.entry (k + 1) < 968)
    (hw : b.WritesBefore k fun v => v.getLsbD 0 = false) {s : Hart} (hs : b.hart k = some s)
    {base : Word} (hat : s.At base rvtestPass 0) :
    isaTestbench (fun t => (b.system t).cpu.tohost) = .passed (b.systemRun.entry (k + 1) + 2) := by
  have hli : Hart.Runs base rvtestPass 1 s fun t =>
      t.At base rvtestPass 1 ∧ t.regs 3#5 = 1#32 := by
    refine hat.addi rfl fun t ht e => leads_zero ⟨ht, ?_⟩
    simp [e.regs, Hart.setReg, s.zero]
  obtain ⟨t, ht, -, hat', h3⟩ := b.hart_runs hs hli
  have hverdict :=
    b.verdict_of_csrw h hk hsoon (hw.compute hs hat rfl) ht hat' rfl (by rw [h3]; rfl)
  rw [hverdict, if_pos h3]

/-- What `RVTEST_FAIL` makes of the number of the test. -/
theorem failCode_eq (testnum : Word) : (testnum <<< 1 ||| 1#32).getLsbD 0 = true ∧
    (testnum <<< 1 ||| 1#32).extractLsb' 1 31 = testnum.setWidth 31 := by
  constructor
  · simp
  · ext i hi
    simp
    omega

/-- **A test that ends in `RVTEST_FAIL`** has failed, under its number. -/
theorem rvtestFail_verdict {n k : ℕ} (h : b.Conforms n) (hk : k + 2 < n)
    (hsoon : b.systemRun.entry (k + 2) < 968)
    (hw : b.WritesBefore k fun v => v.getLsbD 0 = false) {s : Hart} (hs : b.hart k = some s)
    {base : Word} (hat : s.At base rvtestFail 0) :
    isaTestbench (fun t => (b.system t).cpu.tohost) =
      if (s.regs 3#5).setWidth 31 = 0#31 then .passed (b.systemRun.entry (k + 2) + 2)
      else .failed ((s.regs 3#5).setWidth 31) := by
  have hsll : Hart.Runs base rvtestFail 1 s fun t =>
      t.At base rvtestFail 1 ∧ t.regs 3#5 = s.regs 3#5 <<< 1 := by
    refine hat.compute rfl rfl fun t ht e => leads_zero ⟨ht, ?_⟩
    simp [e.regs, Hart.setReg, Rv32i.dest, Rv32i.rdValue, Rv32i.source1, ShiftOp.op, RegOp.eval]
  obtain ⟨t, ht, -, hat1, h3⟩ := b.hart_runs hs hsll
  have hor : Hart.Runs base rvtestFail 1 t fun u =>
      u.At base rvtestFail 2 ∧ u.regs 3#5 = s.regs 3#5 <<< 1 ||| 1#32 := by
    refine hat1.compute rfl rfl fun u hu e => leads_zero ⟨hu, ?_⟩
    simp [e.regs, Hart.setReg, Rv32i.dest, Rv32i.rdValue, Rv32i.source1, ImmOp.op, RegOp.eval, h3]
  obtain ⟨u, hu, -, hat2, h3'⟩ := b.hart_runs ht hor
  obtain ⟨hodd, hhigh⟩ := failCode_eq (s.regs 3#5)
  have hw2 := (hw.compute hs hat rfl).compute ht hat1 rfl
  have hverdict := b.verdict_of_csrw h hk hsoon hw2 hu hat2 rfl (by rw [h3', hodd])
  have hone : s.regs 3#5 <<< 1 ||| 1#32 = 1#32 ↔ (s.regs 3#5).setWidth 31 = 0#31 := by
    rw [← eq_one_iff, hhigh]
    exact and_iff_right hodd
  rw [hverdict, h3', hhigh, if_congr hone rfl rfl]

end Boot

/-! ### Two tests -/

/-- Test 7 with its outcome: `li x3, 7` and the code of a macro. -/
def outcomeBoot (code : List Instr) : Boot :=
  { x := ⟨0#3, 0#5, 0#32, 0#32, 0#32⟩
    image := fun a => if a = 0#17 then 0x00700193#32
      else ((code.map Instr.encode)[a.toNat - 1]?).getD 0#32
    rf := fun _ => 0#32
    sim := true }

/-- The start of the tests. -/
theorem outcomeBoot_start {code : List Instr}
    (hi : (Hart.reset (outcomeBoot code).image (outcomeBoot code).rf).instr? =
      some (.compute (.imm .addi 3#5 0#5 7#12))) :
    (outcomeBoot code).WritesBefore 1 fun v => v.getLsbD 0 = false := by
  intro j hj s hs v hv
  obtain rfl : j = 0 := by omega
  obtain rfl := Option.some.inj hs
  rw [Hart.tohostWrite, hi] at hv
  cases hv

theorem outcomeBoot_passed :
    isaTestbench (fun t => ((outcomeBoot rvtestPass).system t).cpu.tohost) =
      .passed ((outcomeBoot rvtestPass).systemRun.entry 2 + 2) := by
  have hrun : (outcomeBoot rvtestPass).FreeRun (fun _ => 0#32) 4 := by
    decide +kernel
  obtain ⟨s, hs, hat⟩ := hrun.exists_hart (k := 1) (by omega)
    (P := fun s => s.At 0x10000004#32 rvtestPass 0) (by decide +kernel)
  have hsoon : (outcomeBoot rvtestPass).systemRun.entry (1 + 1) < 968 :=
    ((outcomeBoot rvtestPass).entry_le 2).trans_lt (by omega)
  exact Boot.rvtestPass_verdict _ hrun.conforms (k := 1) (by omega) hsoon
    (outcomeBoot_start (by decide +kernel)) hs hat

theorem outcomeBoot_failed : ∃ s, (outcomeBoot rvtestFail).hart 1 = some s ∧
    isaTestbench (fun t => ((outcomeBoot rvtestFail).system t).cpu.tohost) =
      if (s.regs 3#5).setWidth 31 = 0#31 then
        .passed ((outcomeBoot rvtestFail).systemRun.entry 3 + 2)
      else .failed ((s.regs 3#5).setWidth 31) := by
  have hrun : (outcomeBoot rvtestFail).FreeRun (fun _ => 0#32) 4 := by
    decide +kernel
  obtain ⟨s, hs, hat⟩ := hrun.exists_hart (k := 1) (by omega)
    (P := fun s => s.At 0x10000004#32 rvtestFail 0) (by decide +kernel)
  have hsoon : (outcomeBoot rvtestFail).systemRun.entry (1 + 2) < 968 :=
    ((outcomeBoot rvtestFail).entry_le 3).trans_lt (by omega)
  exact ⟨s, hs, Boot.rvtestFail_verdict _ hrun.conforms (k := 1) (by omega) hsoon
    (outcomeBoot_start (by decide +kernel)) hs hat⟩

end SmuRv32im
