import Mathlib.Data.Nat.Fib.Basic
import SmuRv32im.Programs

/-!
# The Program fib

`fib.c` fills an array of 150 words with Fibonacci numbers and compares one of them with a
constant. From the disassembly of its `main`, for every content of the registers and of the
rest of the RAM: the pipeline stores the Fibonacci numbers modulo `2 ^ 32`, in order and nothing
else, and `c_tests_tb` reports the test as passed.

## Main results

* `Hart.fib_round`, `Hart.fib_loop`: the loop of `main` and its invariant.
* `fib_passed`: the program on the pipeline.
-/

namespace SmuRv32im

open ByteMemory (Mem storeArray toNat_element)
open Partial (emits_zero)

/-- `main` of `fib.c`. -/
def fibMain : List Instr :=
  [addi 15#5 0#5 0#12, .csrrw 0#5 15#5, .compute (.auipc 15#5 0#20),
    .store .sw 0#5 15#5 132#12, addi 15#5 0#5 1#12, .compute (.auipc 14#5 0#20),
    .store .sw 15#5 14#5 124#12, .compute (.auipc 12#5 0#20), addi 12#5 12#5 708#12,
    .compute (.auipc 15#5 0#20), addi 15#5 15#5 112#12, addi 13#5 0#5 0#12,
    addi 14#5 0#5 1#12, .compute (.jal 0#5 6#20), .load .lw 13#5 15#5 0xFFC#12,
    addi 15#5 15#5 4#12, .compute (.reg .add 14#5 14#5 13#5), .store .sw 14#5 15#5 0#12,
    .branch .bne 15#5 12#5 0xFF8#12, .compute (.auipc 15#5 0#20), addi 15#5 15#5 64#12,
    .load .lw 14#5 15#5 140#12, .compute (.lui 15#5 0x8CD#20), addi 15#5 15#5 0xCC9#12,
    .branch .beq 14#5 15#5 12#12, addi 15#5 0#5 2#12, .csrrw 0#5 15#5, addi 0#5 0#5 0#12,
    addi 0#5 0#5 0#12, .compute (.jal 0#5 0xFFFFC#20), addi 15#5 0#5 1#12, .csrrw 0#5 15#5,
    addi 0#5 0#5 0#12, .compute (.jal 0#5 0xFFFF6#20)]

example : fibMain.map Instr.encode =
    [0x00000793#32, 0x51e79073#32, 0x00000797#32, 0x0807a223#32, 0x00100793#32, 0x00000717#32,
      0x06f72e23#32, 0x00000617#32, 0x2c460613#32, 0x00000797#32, 0x07078793#32, 0x00000693#32,
      0x00100713#32, 0x00c0006f#32, 0xffc7a683#32, 0x00478793#32, 0x00d70733#32, 0x00e7a023#32,
      0xfec798e3#32, 0x00000797#32, 0x04078793#32, 0x08c7a703#32, 0x008cd7b7#32, 0xcc978793#32,
      0x00f70c63#32, 0x00200793#32, 0x51e79073#32, 0x00000013#32, 0x00000013#32, 0xff9ff06f#32,
      0x00100793#32, 0x51e79073#32, 0x00000013#32, 0xfedff06f#32] := by
  decide

/-- The program `fib`. -/
def fib : Program := ⟨0x292#20, fibMain⟩

theorem fib_base : fib.base = 0x1000052C#32 := by decide

/-! ### The array -/

/-- The array `x`. -/
def fibArray : Word := 0x100005B8#32

/-- What its elements are to be. -/
def fibWord (i : ℕ) : Word := BitVec.ofNat 32 (Nat.fib i)

theorem fibWord_add_two (i : ℕ) : fibWord (i + 2) = fibWord (i + 1) + fibWord i := by
  rw [fibWord, Nat.fib_add_two, BitVec.ofNat_add, BitVec.add_comm]
  rfl

/-- The store of an element. -/
abbrev fibStore : ℕ → Word × Word × BitVec 4 := elementStore fibArray fibWord

theorem toNat_fibArray {i : ℕ} (hi : i < 150) :
    (fibArray + BitVec.ofNat 32 (4 * i)).toNat = 0x100005B8 + 4 * i :=
  toNat_element (a := fibArray) (l := 4) (by change 0x100005B8 + 4 * i < 2 ^ 32; omega)

namespace Hart

/-- After `k` rounds of the loop: the elements up to `k + 2` are stored, the last one is in
`x14` and its address in `x15`. -/
structure FibLoop (m : Mem 32) (k : ℕ) (s : Hart) : Prop where
  pos : s.At fib.base fibMain (if k = 147 then 19 else 14)
  mem : s.mem = storeArray m fibArray 4 fibWord (k + 3)
  last : s.regs 14#5 = fibWord (k + 2)
  addr : s.regs 15#5 = fibArray + BitVec.ofNat 32 (4 * (k + 2))
  bound : s.regs 12#5 = fibArray + BitVec.ofNat 32 (4 * 149)

section
variable {m : Mem 32} {s : Hart} {k : ℕ}

/-- The part of the loop that computes and stores an element. -/
theorem fib_element (h : s.At fib.base fibMain 16) (hk : k + 2 < 150)
    (hmem : s.mem = storeArray m fibArray 4 fibWord (k + 2)) (h14 : s.regs 14#5 = fibWord (k + 1))
    (h13 : s.regs 13#5 = fibWord k)
    (h15 : s.regs 15#5 = fibArray + BitVec.ofNat 32 (4 * (k + 2)))
    (h12 : s.regs 12#5 = fibArray + BitVec.ofNat 32 (4 * 149)) :
    Outputs fib.base fibMain 3 s fun ws t =>
      ws = [.store (fibStore (k + 2))] ∧ FibLoop m k t := by
  have haddr := toNat_fibArray hk
  refine h.add rfl fun t1 h1 e1 => ?_
  rw [h14, h13, ← fibWord_add_two] at e1
  have h15' : Instr.addr t1 15#5 0#12 = fibArray + BitVec.ofNat 32 (4 * (k + 2)) := by
    rw [Instr.addr, signExtend_zero, BitVec.add_zero, e1.regs_of_ne, h15]
  refine h1.sw_ram rfl h15' (by omega) ⟨by omega, by omega⟩ ?_ fun t2 h2 e2 => ?_
  · refine Or.inr ?_
    rw [haddr, fib_base]
    change 0x1000052C + 4 * 34 ≤ 0x100005B8 + 4 * (k + 2)
    omega
  refine h2.branch rfl 14 (by decide) fun t3 h3 e3 => ?_
  have hcond : BranchOp.bne.Holds (t2.regs 15#5) (t2.regs 12#5) ↔ ¬k = 147 := by
    rw [e2.regs, e1.regs_of_ne, e1.regs_of_ne, h15, h12]
    refine not_congr ?_
    rw [← BitVec.toNat_inj, haddr, toNat_fibArray (by omega)]
    omega
  rw [if_congr hcond rfl rfl, ite_not] at h3
  refine emits_zero ⟨?_, h3, ?_, ?_, ?_, ?_⟩
  · rw [e1.regs_same]
    rfl
  · rw [e3.mem, e2.mem, e1.mem, e1.regs_same, hmem]
    rfl
  · rw [e3.regs _ List.not_mem_nil, e2.regs, e1.regs_same]
  · rw [e3.regs _ List.not_mem_nil, e2.regs, e1.regs_of_ne, h15]
  · rw [e3.regs _ List.not_mem_nil, e2.regs, e1.regs_of_ne, h12]

/-- A round of the loop. -/
theorem fib_round (hk : k < 147) (h : FibLoop m k s) :
    Outputs fib.base fibMain 5 s fun ws t =>
      ws = [.store (fibStore (k + 3))] ∧ FibLoop m (k + 1) t := by
  have hpos := h.pos
  rw [if_neg (by omega)] at hpos
  have haddr := toNat_fibArray (i := k + 1) (by omega)
  have hpred : Instr.addr s 15#5 0xFFC#12 = fibArray + BitVec.ofNat 32 (4 * (k + 1)) := by
    rw [Instr.addr, h.addr, element_pred]
  refine hpos.lw rfl hpred (by omega) ⟨by omega, by omega⟩ fun t1 h1 e1 => ?_
  have hfit : fibArray.toNat + 4 * (k + 3) < 2 ^ 32 := by
    change 0x100005B8 + 4 * (k + 3) < 2 ^ 32
    omega
  rw [h.mem, load_element (by omega) hfit] at e1
  refine h1.addi rfl fun t2 h2 e2 => ?_
  refine fib_element h2 (by omega) ?_ ?_ ?_ ?_ ?_
  · rw [e2.mem, e1.mem, h.mem]
  · rw [e2.regs_of_ne, e1.regs_of_ne, h.last]
  · rw [e2.regs_of_ne, e1.regs_same]
  · rw [e2.regs_same, e1.regs_of_ne, h.addr, element_succ]
  · rw [e2.regs_of_ne, e1.regs_of_ne, h.bound]

/-- **The loop** stores the elements from the third on. -/
theorem fib_loop (h : FibLoop m 0 s) :
    Outputs fib.base fibMain (∑ _k ∈ Finset.range 147, 5) s fun ws t =>
      ws = (List.range 147).flatMap (fun k => [.store (fibStore (k + 3))]) ∧ FibLoop m 147 t :=
  Partial.Emits.loop h fun _ _ hk hloop => fib_round hk hloop

/-- Up to the jump into the loop. -/
theorem fib_enter (h : s.At fib.base fibMain 0) :
    Outputs fib.base fibMain 14 s fun ws t =>
      ws = [.tohost 0#32, .store (fibStore 0), .store (fibStore 1)] ∧
      t.At fib.base fibMain 16 ∧ t.mem = storeArray s.mem fibArray 4 fibWord 2 ∧
      t.regs 14#5 = fibWord 1 ∧ t.regs 13#5 = fibWord 0 ∧
      t.regs 15#5 = fibArray + BitVec.ofNat 32 (4 * 2) ∧
      t.regs 12#5 = fibArray + BitVec.ofNat 32 (4 * 149) := by
  refine h.addi rfl fun t0 h0 e0 => ?_
  refine h0.csrw rfl fun t1 h1 hm1 hr1 => ?_
  refine h1.auipc rfl fun t2 h2 e2 => ?_
  have haddr0 : Instr.addr t2 15#5 132#12 = fibArray + BitVec.ofNat 32 (4 * 0) := by
    rw [Instr.addr, e2.regs_same]
    decide
  refine h2.sw_ram rfl haddr0 (by decide) (by decide) (by decide) fun t3 h3 e3 => ?_
  refine h3.addi rfl fun t4 h4 e4 => ?_
  refine h4.auipc rfl fun t5 h5 e5 => ?_
  have haddr1 : Instr.addr t5 14#5 124#12 = fibArray + BitVec.ofNat 32 (4 * 1) := by
    rw [Instr.addr, e5.regs_same]
    decide
  refine h5.sw_ram rfl haddr1 (by decide) (by decide) (by decide) fun t6 h6 e6 => ?_
  refine h6.auipc rfl fun t7 h7 e7 => ?_
  refine h7.addi rfl fun t8 h8 e8 => ?_
  refine h8.auipc rfl fun t9 h9 e9 => ?_
  refine h9.addi rfl fun t10 h10 e10 => ?_
  refine h10.addi rfl fun t11 h11 e11 => ?_
  refine h11.addi rfl fun t12 h12 e12 => ?_
  refine h12.jump rfl 16 (by decide) fun t13 h13 e13 => ?_
  have hzero : t0.regs 15#5 = 0#32 := by
    rw [e0.regs_same, s.zero]
    rfl
  have hone : t5.regs 15#5 = 1#32 := by
    rw [e5.regs_of_ne, e4.regs_same, t3.zero]
    rfl
  refine emits_zero ⟨?_, h13, ?_, ?_, ?_, ?_, ?_⟩
  · rw [hzero, t2.zero, hone]
    rfl
  · rw [e13.mem, e12.mem, e11.mem, e10.mem, e9.mem, e8.mem, e7.mem, e6.mem, e5.mem, e4.mem,
      e3.mem, e2.mem, hm1, e0.mem, t2.zero, hone]
    rfl
  · rw [e13.regs _ List.not_mem_nil, e12.regs_same, t11.zero]
    rfl
  · rw [e13.regs _ List.not_mem_nil, e12.regs_of_ne, e11.regs_same, t10.zero]
    rfl
  · rw [e13.regs _ List.not_mem_nil, e12.regs_of_ne, e11.regs_of_ne, e10.regs_same, e9.regs_same]
    decide
  · rw [e13.regs _ List.not_mem_nil, e12.regs_of_ne, e11.regs_of_ne, e10.regs_of_ne,
      e9.regs_of_ne, e8.regs_same, e7.regs_same]
    decide

/-- From the end of the loop to the report. -/
theorem fib_check (h : s.At fib.base fibMain 19)
    (hmem : s.mem = storeArray m fibArray 4 fibWord 150) :
    Runs fib.base fibMain 7 s fun t => t.At fib.base fibMain 31 ∧ t.regs 15#5 = 1#32 := by
  refine h.auipc rfl fun t1 h1 e1 => ?_
  refine h1.addi rfl fun t2 h2 e2 => ?_
  have haddr : Instr.addr t2 15#5 140#12 = fibArray + BitVec.ofNat 32 (4 * 35) := by
    rw [Instr.addr, e2.regs_same, e1.regs_same]
    decide
  refine h2.lw rfl haddr (by decide) (by decide) fun t3 h3 e3 => ?_
  rw [e2.mem, e1.mem, hmem, load_element (by omega) (by decide)] at e3
  refine h3.lui rfl fun t4 h4 e4 => ?_
  refine h4.addi rfl fun t5 h5 e5 => ?_
  refine h5.branch rfl 30 (by decide) fun t6 h6 e6 => ?_
  have hholds : BranchOp.beq.Holds (t5.regs 14#5) (t5.regs 15#5) := by
    rw [e5.regs_of_ne, e4.regs_of_ne, e3.regs_same, e5.regs_same, e4.regs_same]
    change fibWord 35 = _
    decide +kernel
  rw [if_pos hholds] at h6
  refine h6.addi rfl fun t7 h7 e7 => Partial.leads_zero ⟨h7, ?_⟩
  rw [e7.regs_same, t6.zero]
  rfl

/-- **`main`** stores the Fibonacci numbers and reports 1. -/
theorem fib_reports (h : s.At fib.base fibMain 0) :
    Outputs fib.base fibMain 759 s (Reports fib
      (.tohost 0#32 :: ((List.range 150).map fibStore).map .store) 1#32) := by
  have hsteps : 759 = 14 + (3 + ((∑ _k ∈ Finset.range 147, 5) + 7)) := by
    rw [Finset.sum_const, Finset.card_range, smul_eq_mul]
  rw [hsteps]
  refine (fib_enter h).trans ?_
  rintro ws t ⟨rfl, ht, hmem, h14, h13, h15, h12⟩
  refine (fib_element (k := 0) ht (by omega) hmem h14 h13 h15 h12).trans ?_
  rintro ws u ⟨rfl, hu⟩
  refine (fib_loop hu).trans ?_
  rintro ws v ⟨rfl, hv⟩
  refine Partial.Emits.mono (fib_check hv.pos hv.mem) ?_
  rintro ws w ⟨rfl, hw, h15'⟩
  exact ⟨rfl, 31, 15#5, hw, rfl, h15'⟩

end

end Hart

/-- **The program fib on the pipeline**: it stores the first 150 Fibonacci numbers modulo
`2 ^ 32` and passes. -/
theorem fib_passed {b : Boot} (h : b.Has fib) :
    cTestsTb (fun t => (b.system t).cpu.tohost) = .passed (b.systemRun.entry 762 + 2) ∧
      Clocked.log (fun u => (b.system u).cpu.busWrite) (b.systemRun.entry 762 + 1) =
        (List.range 150).map fibStore := by
  have hzero : ∀ w, .tohost w ∈
      (.tohost 0#32 :: ((List.range 150).map fibStore).map .store : List Output) → w = 0#32 := by
    intro w hw
    simpa using hw
  obtain ⟨hverdict, hstores⟩ := h.reports (by decide) (fun s hat _ => Hart.fib_reports hat) hzero
    (by decide) (by omega) (by omega)
  rw [if_pos rfl] at hverdict
  refine ⟨hverdict, hstores.trans ?_⟩
  rw [List.filterMap_cons_none rfl, Output.filterMap_store]

theorem fib_boot_passed :
    cTestsTb (fun t => (fib.boot.system t).cpu.tohost) =
        .passed (fib.boot.systemRun.entry 762 + 2) ∧
      Clocked.log (fun u => (fib.boot.system u).cpu.busWrite)
          (fib.boot.systemRun.entry 762 + 1) = (List.range 150).map fibStore :=
  fib_passed ⟨by decide +kernel, by decide +kernel⟩

end SmuRv32im
