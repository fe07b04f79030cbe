import Mathlib.Algebra.BigOperators.Group.Finset.Basic
import SmuRv32im.Programs

/-!
# The Program sum

`sum.c` fills an array with the numbers from 1 on and a second one with its prefix sums, each
computed anew in an inner loop, and compares the last of them with a constant. From the
disassembly of its `main`, for every content of the registers and of the rest of the RAM: the
pipeline stores the two arrays, in order and nothing else, and `c_tests_tb` reports the test as
passed.

## Main results

* `Hart.sum_row`: a round of the outer loop computes and stores a prefix sum.
* `sum_passed`: the program on the pipeline.
-/

namespace SmuRv32im

open ByteMemory (Mem storeArray toNat_element load_storeArray_of_apart)
open Partial (Emits Leads emits_zero leads_zero)

/-- `main` of `sum.c`. -/
def sumMain : List Instr :=
  [addi 15#5 0#5 0#12, .csrrw 0#5 15#5, .compute (.auipc 10#5 0#20), addi 10#5 10#5 156#12,
    addi 14#5 10#5 0#12, addi 13#5 0#5 64#12, addi 15#5 15#5 1#12, .store .sw 15#5 14#5 0#12,
    addi 14#5 14#5 4#12, .branch .bne 15#5 13#5 0xFFA#12, .compute (.auipc 17#5 0#20),
    addi 17#5 17#5 380#12, addi 11#5 17#5 0#12, .compute (.auipc 12#5 0#20),
    addi 12#5 12#5 116#12, .compute (.auipc 16#5 0#20), addi 16#5 16#5 364#12,
    addi 15#5 10#5 0#12, addi 14#5 0#5 0#12, .load .lw 13#5 15#5 0#12, addi 15#5 15#5 4#12,
    .compute (.reg .add 14#5 14#5 13#5), .branch .bne 15#5 12#5 0xFFA#12,
    .store .sw 14#5 11#5 0#12, addi 12#5 15#5 4#12, addi 11#5 11#5 4#12,
    .branch .bne 12#5 16#5 0xFEE#12, .load .lw 14#5 17#5 252#12, .compute (.lui 15#5 1#20),
    addi 15#5 15#5 0x820#12, .branch .beq 14#5 15#5 12#12, addi 15#5 0#5 2#12,
    .csrrw 0#5 15#5, addi 0#5 0#5 0#12, addi 0#5 0#5 0#12, .compute (.jal 0#5 0xFFFFC#20),
    addi 15#5 0#5 1#12, .csrrw 0#5 15#5, addi 0#5 0#5 0#12, .compute (.jal 0#5 0xFFFF6#20)]

example : sumMain.map Instr.encode =
    [0x00000793#32, 0x51e79073#32, 0x00000517#32, 0x09c50513#32, 0x00050713#32, 0x04000693#32,
      0x00178793#32, 0x00f72023#32, 0x00470713#32, 0xfed79ae3#32, 0x00000897#32, 0x17c88893#32,
      0x00088593#32, 0x00000617#32, 0x07460613#32, 0x00000817#32, 0x16c80813#32, 0x00050793#32,
      0x00000713#32, 0x0007a683#32, 0x00478793#32, 0x00d70733#32, 0xfec79ae3#32, 0x00e5a023#32,
      0x00478613#32, 0x00458593#32, 0xfd061ee3#32, 0x0fc8a703#32, 0x000017b7#32, 0x82078793#32,
      0x00f70c63#32, 0x00200793#32, 0x51e79073#32, 0x00000013#32, 0x00000013#32, 0xff9ff06f#32,
      0x00100793#32, 0x51e79073#32, 0x00000013#32, 0xfedff06f#32] := by
  decide

/-- The program `sum`. -/
def sum : Program := ⟨0x292#20, sumMain⟩

theorem sum_base : sum.base = 0x1000052C#32 := by decide

/-! ### The arrays -/

/-- The array `x`, with the numbers from 1 on. -/
def xArray : Word := 0x100005D0#32

def xWord (i : ℕ) : Word := BitVec.ofNat 32 (i + 1)

/-- The sum of its first `n` elements. -/
def prefixSum (n : ℕ) : Word := BitVec.ofNat 32 (∑ k ∈ Finset.range n, (k + 1))

theorem prefixSum_succ (n : ℕ) : prefixSum (n + 1) = prefixSum n + xWord n := by
  rw [prefixSum, Finset.sum_range_succ, BitVec.ofNat_add]
  rfl

/-- The array `y`, with the prefix sums. -/
def yArray : Word := 0x100006D0#32

def yWord (i : ℕ) : Word := prefixSum (i + 1)

/-- The memory with `x` filled and `i` elements of `y`. -/
def sumMem (m : Mem 32) (i : ℕ) : Mem 32 :=
  storeArray (storeArray m xArray 4 xWord 64) yArray 4 yWord i

theorem toNat_xArray {i : ℕ} (hi : i ≤ 65) :
    (xArray + BitVec.ofNat 32 (4 * i)).toNat = 0x100005D0 + 4 * i :=
  toNat_element (a := xArray) (l := 4) (by change 0x100005D0 + 4 * i < 2 ^ 32; omega)

theorem toNat_yArray {i : ℕ} (hi : i ≤ 65) :
    (yArray + BitVec.ofNat 32 (4 * i)).toNat = 0x100006D0 + 4 * i :=
  toNat_element (a := yArray) (l := 4) (by change 0x100006D0 + 4 * i < 2 ^ 32; omega)

/-- An element of `x`, below the array `y`. -/
theorem load_xArray (m : Mem 32) {i j : ℕ} (hi : i ≤ 64) (hj : j < 64) :
    BitVec.ofNat 32 (ByteMemory.load (sumMem m i) (xArray + BitVec.ofNat 32 (4 * j)) 4) =
      xWord j := by
  have haddr := toNat_xArray (i := j) (by omega)
  have hfit : yArray.toNat + 4 * i < 2 ^ 32 := by
    change 0x100006D0 + 4 * i < 2 ^ 32
    omega
  have hbelow : (xArray + BitVec.ofNat 32 (4 * j)).toNat + 4 ≤ yArray.toNat := by
    change _ ≤ 0x100006D0
    omega
  rw [sumMem, load_storeArray_of_apart hfit (by omega) (Or.inl hbelow),
    load_element hj (by decide)]

namespace Hart

section
variable {m : Mem 32} {s : Hart}

/-! ### The first array -/

/-- `k` elements of `x` are stored. -/
structure FillLoop (m : Mem 32) (k : ℕ) (s : Hart) : Prop where
  pos : s.At sum.base sumMain (if k = 64 then 10 else 6)
  mem : s.mem = storeArray m xArray 4 xWord k
  count : s.regs 15#5 = BitVec.ofNat 32 k
  addr : s.regs 14#5 = xArray + BitVec.ofNat 32 (4 * k)
  bound : s.regs 13#5 = 64#32
  array : s.regs 10#5 = xArray

/-- A round of the first loop. -/
theorem fill_round {k : ℕ} (hk : k < 64) (h : FillLoop m k s) :
    Outputs sum.base sumMain 4 s fun ws t =>
      ws = [.store (elementStore xArray xWord k)] ∧ FillLoop m (k + 1) t := by
  have hpos := h.pos
  rw [if_neg (by omega)] at hpos
  have haddr := toNat_xArray (i := k) (by omega)
  refine hpos.addi rfl fun t1 h1 e1 => ?_
  have hword : t1.regs 15#5 = xWord k := by
    rw [e1.regs_same, h.count, xWord, BitVec.ofNat_add]
    rfl
  have haddr1 : Instr.addr t1 14#5 0#12 = xArray + BitVec.ofNat 32 (4 * k) := by
    rw [Instr.addr, signExtend_zero, BitVec.add_zero, e1.regs_of_ne, h.addr]
  refine h1.sw_ram rfl haddr1 (by omega) ⟨by omega, by omega⟩ ?_ fun t2 h2 e2 => ?_
  · refine Or.inr ?_
    rw [haddr, sum_base]
    change 0x1000052C + 4 * 40 ≤ 0x100005D0 + 4 * k
    omega
  refine h2.addi rfl fun t3 h3 e3 => ?_
  refine h3.branch rfl 6 (by decide) fun t4 h4 e4 => ?_
  have hcond : BranchOp.bne.Holds (t3.regs 15#5) (t3.regs 13#5) ↔ ¬k + 1 = 64 := by
    rw [e3.regs_of_ne, e3.regs_of_ne, e2.regs, hword, e1.regs_of_ne, h.bound]
    refine not_congr ?_
    rw [← BitVec.toNat_inj, xWord, BitVec.toNat_ofNat, BitVec.toNat_ofNat]
    omega
  rw [if_congr hcond rfl rfl, ite_not] at h4
  refine emits_zero ⟨?_, h4, ?_, ?_, ?_, ?_, ?_⟩
  · rw [hword]
    rfl
  · rw [e4.mem, e3.mem, e2.mem, hword, e1.mem, h.mem]
    rfl
  · rw [e4.regs _ List.not_mem_nil, e3.regs_of_ne, e2.regs, hword]
    rfl
  · rw [e4.regs _ List.not_mem_nil, e3.regs_same, e2.regs, e1.regs_of_ne, h.addr,
      element_succ]
  · rw [e4.regs _ List.not_mem_nil, e3.regs_of_ne, e2.regs, e1.regs_of_ne, h.bound]
  · rw [e4.regs _ List.not_mem_nil, e3.regs_of_ne, e2.regs, e1.regs_of_ne, h.array]

/-- The first loop. -/
theorem fill_loop (h : FillLoop m 0 s) :
    Outputs sum.base sumMain (∑ _k ∈ Finset.range 64, 4) s fun ws t =>
      ws = (List.range 64).flatMap (fun k => [.store (elementStore xArray xWord k)]) ∧
      FillLoop m 64 t :=
  Emits.loop h fun _ _ hk hloop => fill_round hk hloop

/-! ### A prefix sum -/

/-- The inner loop, entered in `s₀`, has added `j` of the first `i + 1` elements of `x`. -/
structure RowLoop (m : Mem 32) (i : ℕ) (s₀ : Hart) (j : ℕ) (s : Hart) : Prop where
  pos : s.At sum.base sumMain (if j = i + 1 then 23 else 19)
  mem : s.mem = sumMem m i
  total : s.regs 14#5 = prefixSum j
  addr : s.regs 15#5 = xArray + BitVec.ofNat 32 (4 * j)
  bound : s.regs 12#5 = xArray + BitVec.ofNat 32 (4 * (i + 1))
  kept : s₀.Kept [13#5, 14#5, 15#5] s

/-- A round of the inner loop. -/
theorem row_round {s₀ : Hart} {i j : ℕ} (hi : i < 64) (hj : j < i + 1) (h : RowLoop m i s₀ j s) :
    Runs sum.base sumMain 4 s (RowLoop m i s₀ (j + 1)) := by
  have hpos := h.pos
  rw [if_neg (by omega)] at hpos
  have haddr := toNat_xArray (i := j) (by omega)
  have haddr0 : Instr.addr s 15#5 0#12 = xArray + BitVec.ofNat 32 (4 * j) := by
    rw [Instr.addr, signExtend_zero, BitVec.add_zero, h.addr]
  refine hpos.lw rfl haddr0 (by omega) ⟨by omega, by omega⟩ fun t1 h1 e1 => ?_
  rw [h.mem, load_xArray m (by omega) (by omega)] at e1
  refine h1.addi rfl fun t2 h2 e2 => ?_
  refine h2.add rfl fun t3 h3 e3 => ?_
  refine h3.branch rfl 19 (by decide) fun t4 h4 e4 => ?_
  have haddr3 : t3.regs 15#5 = xArray + BitVec.ofNat 32 (4 * (j + 1)) := by
    rw [e3.regs_of_ne, e2.regs_same, e1.regs_of_ne, h.addr, element_succ]
  have hbound3 : t3.regs 12#5 = xArray + BitVec.ofNat 32 (4 * (i + 1)) := by
    rw [e3.regs_of_ne, e2.regs_of_ne, e1.regs_of_ne, h.bound]
  have hcond : BranchOp.bne.Holds (t3.regs 15#5) (t3.regs 12#5) ↔ ¬j + 1 = i + 1 := by
    rw [haddr3, hbound3]
    refine not_congr ?_
    rw [← BitVec.toNat_inj, toNat_xArray (by omega), toNat_xArray (by omega)]
    omega
  rw [if_congr hcond rfl rfl, ite_not] at h4
  refine leads_zero ⟨h4, ?_, ?_, ?_, ?_, ?_⟩
  · rw [e4.mem, e3.mem, e2.mem, e1.mem, h.mem]
  · rw [e4.regs _ List.not_mem_nil, e3.regs_same, e2.regs_of_ne, e2.regs_of_ne, e1.regs_of_ne,
      e1.regs_same, h.total, prefixSum_succ]
  · rw [e4.regs _ List.not_mem_nil, haddr3]
  · rw [e4.regs _ List.not_mem_nil, hbound3]
  · exact ((((h.kept.trans e1.kept).trans e2.kept).trans e3.kept).trans e4.weaken)

/-- The inner loop. -/
theorem row_loop {s₀ : Hart} {i : ℕ} (hi : i < 64) (h : RowLoop m i s₀ 0 s) :
    Runs sum.base sumMain (∑ _j ∈ Finset.range (i + 1), 4) s (RowLoop m i s₀ (i + 1)) :=
  Leads.loop h fun _ _ hj hloop => row_round hi hj hloop

/-- `i` elements of `y` are stored. -/
structure SumLoop (m : Mem 32) (i : ℕ) (s : Hart) : Prop where
  pos : s.At sum.base sumMain (if i = 64 then 27 else 17)
  mem : s.mem = sumMem m i
  source : s.regs 10#5 = xArray
  array : s.regs 17#5 = yArray
  addr : s.regs 11#5 = yArray + BitVec.ofNat 32 (4 * i)
  bound : s.regs 12#5 = xArray + BitVec.ofNat 32 (4 * (i + 1))
  last : s.regs 16#5 = xArray + BitVec.ofNat 32 (4 * 65)

/-- **A round of the outer loop** computes and stores a prefix sum. -/
theorem sum_row {i : ℕ} (hi : i < 64) (h : SumLoop m i s) :
    Outputs sum.base sumMain (2 + ((∑ _j ∈ Finset.range (i + 1), 4) + 4)) s fun ws t =>
      ws = [.store (elementStore yArray yWord i)] ∧ SumLoop m (i + 1) t := by
  have hpos := h.pos
  rw [if_neg (by omega)] at hpos
  have henter : Runs sum.base sumMain 2 s (RowLoop m i s 0) := by
    refine hpos.addi rfl fun t1 h1 e1 => ?_
    refine h1.addi rfl fun t2 h2 e2 => leads_zero ⟨?_, ?_, ?_, ?_, ?_, ?_⟩
    · rw [if_neg (by omega)]
      exact h2
    · rw [e2.mem, e1.mem, h.mem]
    · rw [e2.regs_same, t1.zero]
      rfl
    · rw [e2.regs_of_ne, e1.regs_same, h.source]
      rfl
    · rw [e2.regs_of_ne, e1.regs_of_ne, h.bound]
    · exact (e1.kept).trans e2.kept
  refine henter.emits fun t2 hrow => ?_
  refine (row_loop hi hrow).emits fun t3 hrow' => ?_
  have h3 := hrow'.pos
  rw [if_pos rfl] at h3
  have haddr := toNat_yArray (i := i) (by omega)
  have haddr3 : Instr.addr t3 11#5 0#12 = yArray + BitVec.ofNat 32 (4 * i) := by
    rw [Instr.addr, signExtend_zero, BitVec.add_zero, hrow'.kept.regs _ (by decide), h.addr]
  refine h3.sw_ram rfl haddr3 (by omega) ⟨by omega, by omega⟩ ?_ fun t4 h4 e4 => ?_
  · refine Or.inr ?_
    rw [haddr, sum_base]
    change 0x1000052C + 4 * 40 ≤ 0x100006D0 + 4 * i
    omega
  refine h4.addi rfl fun t5 h5 e5 => ?_
  refine h5.addi rfl fun t6 h6 e6 => ?_
  refine h6.branch rfl 17 (by decide) fun t7 h7 e7 => ?_
  have hbound6 : t6.regs 12#5 = xArray + BitVec.ofNat 32 (4 * (i + 1 + 1)) := by
    rw [e6.regs_of_ne, e5.regs_same, e4.regs, hrow'.addr, element_succ]
  have hlast6 : t6.regs 16#5 = xArray + BitVec.ofNat 32 (4 * 65) := by
    rw [e6.regs_of_ne, e5.regs_of_ne, e4.regs, hrow'.kept.regs _ (by decide), h.last]
  have hcond : BranchOp.bne.Holds (t6.regs 12#5) (t6.regs 16#5) ↔ ¬i + 1 = 64 := by
    rw [hbound6, hlast6]
    refine not_congr ?_
    rw [← BitVec.toNat_inj, toNat_xArray (by omega), toNat_xArray (by omega)]
    omega
  rw [if_congr hcond rfl rfl, ite_not] at h7
  refine emits_zero ⟨?_, h7, ?_, ?_, ?_, ?_, ?_, ?_⟩
  · rw [hrow'.total]
    rfl
  · rw [e7.mem, e6.mem, e5.mem, e4.mem, hrow'.mem, hrow'.total]
    rfl
  · rw [e7.regs _ List.not_mem_nil, e6.regs_of_ne, e5.regs_of_ne, e4.regs,
      hrow'.kept.regs _ (by decide), h.source]
  · rw [e7.regs _ List.not_mem_nil, e6.regs_of_ne, e5.regs_of_ne, e4.regs,
      hrow'.kept.regs _ (by decide), h.array]
  · rw [e7.regs _ List.not_mem_nil, e6.regs_same, e5.regs_of_ne, e4.regs,
      hrow'.kept.regs _ (by decide), h.addr, element_succ]
  · rw [e7.regs _ List.not_mem_nil, hbound6]
  · rw [e7.regs _ List.not_mem_nil, hlast6]

/-! ### `main` -/

/-- The outer loop. -/
theorem sum_loop (h : SumLoop m 0 s) :
    Outputs sum.base sumMain
        (∑ i ∈ Finset.range 64, (2 + ((∑ _j ∈ Finset.range (i + 1), 4) + 4))) s fun ws t =>
      ws = (List.range 64).flatMap (fun i => [.store (elementStore yArray yWord i)]) ∧
      SumLoop m 64 t :=
  Emits.loop h fun _ _ hi hloop => sum_row hi hloop

/-- Up to the first loop. -/
theorem sum_enter (h : s.At sum.base sumMain 0) :
    Outputs sum.base sumMain 6 s fun ws t => ws = [.tohost 0#32] ∧ FillLoop s.mem 0 t := by
  refine h.addi rfl fun t0 h0 e0 => ?_
  have hzero : t0.regs 15#5 = 0#32 := by
    rw [e0.regs_same, s.zero]
    rfl
  refine h0.csrw rfl fun t1 h1 hm1 hr1 => ?_
  refine h1.auipc rfl fun t2 h2 e2 => ?_
  refine h2.addi rfl fun t3 h3 e3 => ?_
  refine h3.addi rfl fun t4 h4 e4 => ?_
  refine h4.addi rfl fun t5 h5 e5 => ?_
  have harray : t3.regs 10#5 = xArray := by
    rw [e3.regs_same, e2.regs_same]
    decide
  refine emits_zero ⟨?_, h5, ?_, ?_, ?_, ?_, ?_⟩
  · rw [hzero]
  · rw [e5.mem, e4.mem, e3.mem, e2.mem, hm1, e0.mem]
    rfl
  · rw [e5.regs_of_ne, e4.regs_of_ne, e3.regs_of_ne, e2.regs_of_ne, hr1, hzero]
  · rw [e5.regs_of_ne, e4.regs_same, harray]
    rfl
  · rw [e5.regs_same, t4.zero]
    rfl
  · rw [e5.regs_of_ne, e4.regs_of_ne, harray]

/-- Between the loops. -/
theorem sum_prepare (h : FillLoop m 64 s) : Runs sum.base sumMain 7 s (SumLoop m 0) := by
  refine h.pos.auipc rfl fun t1 h1 e1 => ?_
  refine h1.addi rfl fun t2 h2 e2 => ?_
  refine h2.addi rfl fun t3 h3 e3 => ?_
  refine h3.auipc rfl fun t4 h4 e4 => ?_
  refine h4.addi rfl fun t5 h5 e5 => ?_
  refine h5.auipc rfl fun t6 h6 e6 => ?_
  refine h6.addi rfl fun t7 h7 e7 => ?_
  have harray : t2.regs 17#5 = yArray := by
    rw [e2.regs_same, e1.regs_same]
    decide
  refine leads_zero ⟨h7, ?_, ?_, ?_, ?_, ?_, ?_⟩
  · rw [e7.mem, e6.mem, e5.mem, e4.mem, e3.mem, e2.mem, e1.mem, h.mem]
    rfl
  · rw [e7.regs_of_ne, e6.regs_of_ne, e5.regs_of_ne, e4.regs_of_ne, e3.regs_of_ne,
      e2.regs_of_ne, e1.regs_of_ne, h.array]
  · rw [e7.regs_of_ne, e6.regs_of_ne, e5.regs_of_ne, e4.regs_of_ne, e3.regs_of_ne, harray]
  · rw [e7.regs_of_ne, e6.regs_of_ne, e5.regs_of_ne, e4.regs_of_ne, e3.regs_same, harray]
    rfl
  · rw [e7.regs_of_ne, e6.regs_of_ne, e5.regs_same, e4.regs_same]
    decide
  · rw [e7.regs_same, e6.regs_same]
    decide

/-- From the end of the loops to the report. -/
theorem sum_check (h : SumLoop m 64 s) :
    Runs sum.base sumMain 5 s fun t => t.At sum.base sumMain 37 ∧ t.regs 15#5 = 1#32 := by
  have haddr : Instr.addr s 17#5 252#12 = yArray + BitVec.ofNat 32 (4 * 63) := by
    rw [Instr.addr, h.array]
    rfl
  refine h.pos.lw rfl haddr (by decide) (by decide) fun t1 h1 e1 => ?_
  rw [h.mem, sumMem, load_element (by omega) (by decide)] at e1
  refine h1.lui rfl fun t2 h2 e2 => ?_
  refine h2.addi rfl fun t3 h3 e3 => ?_
  refine h3.branch rfl 36 (by decide) fun t4 h4 e4 => ?_
  have hholds : BranchOp.beq.Holds (t3.regs 14#5) (t3.regs 15#5) := by
    rw [e3.regs_of_ne, e2.regs_of_ne, e1.regs_same, e3.regs_same, e2.regs_same]
    change yWord 63 = _
    decide +kernel
  rw [if_pos hholds] at h4
  refine h4.addi rfl fun t5 h5 e5 => leads_zero ⟨h5, ?_⟩
  rw [e5.regs_same, t4.zero]
  rfl

/-- **`main`** stores the two arrays and reports 1. -/
theorem sum_reports (h : s.At sum.base sumMain 0) :
    Outputs sum.base sumMain 8978 s (Reports sum
      (.tohost 0#32 :: ((List.range 64).map (elementStore xArray xWord) ++
        (List.range 64).map (elementStore yArray yWord)).map .store) 1#32) := by
  have hsteps : 8978 = 6 + ((∑ _k ∈ Finset.range 64, 4) + (7 +
      ((∑ i ∈ Finset.range 64, (2 + ((∑ _j ∈ Finset.range (i + 1), 4) + 4))) + 5))) := by
    decide +kernel
  rw [hsteps]
  refine (sum_enter h).trans ?_
  rintro ws t ⟨rfl, hfill⟩
  refine (fill_loop hfill).trans ?_
  rintro ws u ⟨rfl, hfill'⟩
  refine (sum_prepare hfill').emits ?_
  rintro v hsum
  refine (sum_loop hsum).trans ?_
  rintro ws w ⟨rfl, hsum'⟩
  refine Emits.mono (sum_check hsum') ?_
  rintro ws z ⟨rfl, hz, h15⟩
  exact ⟨rfl, 37, 15#5, hz, rfl, h15⟩

end

end Hart

/-- **The program sum on the pipeline**: it stores the numbers from 1 to 64, then their prefix
sums, and passes. -/
theorem sum_passed {b : Boot} (h : b.Has sum) :
    cTestsTb (fun t => (b.system t).cpu.tohost) = .passed (b.systemRun.entry 8981 + 2) ∧
      Clocked.log (fun u => (b.system u).cpu.busWrite) (b.systemRun.entry 8981 + 1) =
        (List.range 64).map (elementStore xArray xWord) ++
          (List.range 64).map (elementStore yArray yWord) := by
  have hzero : ∀ w, .tohost w ∈ (.tohost 0#32 :: ((List.range 64).map (elementStore xArray xWord) ++
      (List.range 64).map (elementStore yArray yWord)).map .store : List Output) → w = 0#32 := by
    intro w hw
    simpa using hw
  obtain ⟨hverdict, hstores⟩ := h.reports (by decide) (fun s hat _ => Hart.sum_reports hat) hzero
    (by decide) (by omega) (by omega)
  rw [if_pos rfl] at hverdict
  refine ⟨hverdict, hstores.trans ?_⟩
  rw [List.filterMap_cons_none rfl, Output.filterMap_store]

theorem sum_boot_passed :
    cTestsTb (fun t => (sum.boot.system t).cpu.tohost) =
        .passed (sum.boot.systemRun.entry 8981 + 2) ∧
      Clocked.log (fun u => (sum.boot.system u).cpu.busWrite)
          (sum.boot.systemRun.entry 8981 + 1) =
        (List.range 64).map (elementStore xArray xWord) ++
          (List.range 64).map (elementStore yArray yWord) :=
  sum_passed ⟨by decide +kernel, by decide +kernel⟩

end SmuRv32im
