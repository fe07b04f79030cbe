import SmuRv32im.Lib.Carry
import SmuRv32im.Wires

/-!
# The Structural Adder

`adder` is four carry-lookahead blocks `cla8bit` in a chain. A block forms one generate
and one propagate bit per position in its full adders, runs them through the carry
recurrence of `claUnit8bit`, and sums with the carries that come back. The flags come
from the last block: its carry out, and its carry into the sign position (`c_30`).

The proof sends the carry wires to `Carry.carryChain`: a block is eight positions of
the chain, and the chain of the four blocks is the arithmetic carry of the whole words.

## Main results

* `adder_sum`: the sum is `a + b + ci` modulo `2 ^ 32`.
* `adder_c`, `adder_v`, `adder_n`, `adder_z`: the flags are the unsigned carry, the
  signed overflow, the sign and the zero test of that sum.
* `adder_n_xor_v`: `N` and `V` together are the sign of the exact signed sum.
* `adder_exact`: all of this on the integers the words stand for.
-/

open Carry

namespace SmuRv32im

/-! ### The gates -/

/-- An 8-bit bus from its wires, least significant first. -/
def bus8 (b0 b1 b2 b3 b4 b5 b6 b7 : Bool) : BitVec 8 :=
  BitVec.ofBoolListLE [b0, b1, b2, b3, b4, b5, b6, b7]

theorem getLsbD_bus8 (b0 b1 b2 b3 b4 b5 b6 b7 : Bool) (i : ℕ) :
    (bus8 b0 b1 b2 b3 b4 b5 b6 b7).getLsbD i =
      [b0, b1, b2, b3, b4, b5, b6, b7].getD i false :=
  BitVec.getLsbD_ofBoolListLE

/-- The generate output of `full_adder`. -/
def fullAdderG (a b : Bool) : Bool := a && b

/-- The propagate output of `full_adder`. -/
def fullAdderP (a b : Bool) : Bool := a ^^ b

/-- The sum output of `full_adder`. -/
def fullAdderS (a b ci : Bool) : Bool := fullAdderP a b ^^ ci

/-- `cla_unit_8bit`: the eight carries, each from the generate and propagate bits of its
position and the carry before it. -/
def claUnit8bit (g p : BitVec 8) (ci : Bool) : BitVec 8 :=
  let c0 := g.getLsbD 0 || (p.getLsbD 0 && ci)
  let c1 := g.getLsbD 1 || (p.getLsbD 1 && c0)
  let c2 := g.getLsbD 2 || (p.getLsbD 2 && c1)
  let c3 := g.getLsbD 3 || (p.getLsbD 3 && c2)
  let c4 := g.getLsbD 4 || (p.getLsbD 4 && c3)
  let c5 := g.getLsbD 5 || (p.getLsbD 5 && c4)
  let c6 := g.getLsbD 6 || (p.getLsbD 6 && c5)
  let c7 := g.getLsbD 7 || (p.getLsbD 7 && c6)
  bus8 c0 c1 c2 c3 c4 c5 c6 c7

/-- The outputs of `cla_8bit`. -/
structure Cla8bit where
  s : BitVec 8
  co : Bool
  c30 : Bool

/-- `cla_8bit`: eight full adders around one carry unit. -/
def cla8bit (a b : BitVec 8) (ci : Bool) : Cla8bit :=
  let g := bus8
    (fullAdderG (a.getLsbD 0) (b.getLsbD 0)) (fullAdderG (a.getLsbD 1) (b.getLsbD 1))
    (fullAdderG (a.getLsbD 2) (b.getLsbD 2)) (fullAdderG (a.getLsbD 3) (b.getLsbD 3))
    (fullAdderG (a.getLsbD 4) (b.getLsbD 4)) (fullAdderG (a.getLsbD 5) (b.getLsbD 5))
    (fullAdderG (a.getLsbD 6) (b.getLsbD 6)) (fullAdderG (a.getLsbD 7) (b.getLsbD 7))
  let p := bus8
    (fullAdderP (a.getLsbD 0) (b.getLsbD 0)) (fullAdderP (a.getLsbD 1) (b.getLsbD 1))
    (fullAdderP (a.getLsbD 2) (b.getLsbD 2)) (fullAdderP (a.getLsbD 3) (b.getLsbD 3))
    (fullAdderP (a.getLsbD 4) (b.getLsbD 4)) (fullAdderP (a.getLsbD 5) (b.getLsbD 5))
    (fullAdderP (a.getLsbD 6) (b.getLsbD 6)) (fullAdderP (a.getLsbD 7) (b.getLsbD 7))
  let c := claUnit8bit g p ci
  { s := bus8
      (fullAdderS (a.getLsbD 0) (b.getLsbD 0) ci)
      (fullAdderS (a.getLsbD 1) (b.getLsbD 1) (c.getLsbD 0))
      (fullAdderS (a.getLsbD 2) (b.getLsbD 2) (c.getLsbD 1))
      (fullAdderS (a.getLsbD 3) (b.getLsbD 3) (c.getLsbD 2))
      (fullAdderS (a.getLsbD 4) (b.getLsbD 4) (c.getLsbD 3))
      (fullAdderS (a.getLsbD 5) (b.getLsbD 5) (c.getLsbD 4))
      (fullAdderS (a.getLsbD 6) (b.getLsbD 6) (c.getLsbD 5))
      (fullAdderS (a.getLsbD 7) (b.getLsbD 7) (c.getLsbD 6))
    co := c.getLsbD 7
    c30 := c.getLsbD 6 }

/-- The outputs of `adder`: the sum and the flags `N`, `Z`, `C`, `V`. -/
structure Adder where
  sum : Word
  n : Bool
  z : Bool
  c : Bool
  v : Bool

/-- `adder`: four blocks, each fed the carry of the one before. -/
def adder (a b : Word) (ci : Bool) : Adder :=
  let cla01 := cla8bit (a.extractLsb' 0 8) (b.extractLsb' 0 8) ci
  let cla02 := cla8bit (a.extractLsb' 8 8) (b.extractLsb' 8 8) cla01.co
  let cla03 := cla8bit (a.extractLsb' 16 8) (b.extractLsb' 16 8) cla02.co
  let cla04 := cla8bit (a.extractLsb' 24 8) (b.extractLsb' 24 8) cla03.co
  let sum : Word := cla04.s ++ cla03.s ++ cla02.s ++ cla01.s
  { sum := sum
    n := sum.getLsbD 31
    z := sum == 0#32
    c := cla04.co
    v := cla04.co ^^ cla04.c30 }

/-! ### One block -/

/-- The carry out of a block is the arithmetic carry of its eight positions. -/
theorem cla8bit_co (a b : BitVec 8) (ci : Bool) :
    (cla8bit a b ci).co = BitVec.carry 8 a b ci := by
  rw [← carryChain_eq_carry]
  simp only [cla8bit, claUnit8bit, fullAdderG, fullAdderP, getLsbD_bus8,
    List.getD_cons_succ, List.getD_cons_zero, carryChain_succ, carryChain_zero]

/-- The `c_30` output of a block is the carry into its last position. -/
theorem cla8bit_c30 (a b : BitVec 8) (ci : Bool) :
    (cla8bit a b ci).c30 = BitVec.carry 7 a b ci := by
  rw [← carryChain_eq_carry]
  simp only [cla8bit, claUnit8bit, fullAdderG, fullAdderP, getLsbD_bus8,
    List.getD_cons_succ, List.getD_cons_zero, carryChain_succ, carryChain_zero]

/-- A sum bit of a block is the propagate bit corrected by the carry into it. -/
theorem cla8bit_s (a b : BitVec 8) (ci : Bool) {i : ℕ} (hi : i < 8) :
    (cla8bit a b ci).s.getLsbD i =
      (a.getLsbD i ^^ (b.getLsbD i ^^ BitVec.carry i a b ci)) := by
  rw [← carryChain_eq_carry, ← Bool.xor_assoc]
  obtain rfl | rfl | rfl | rfl | rfl | rfl | rfl | rfl :
      i = 0 ∨ i = 1 ∨ i = 2 ∨ i = 3 ∨ i = 4 ∨ i = 5 ∨ i = 6 ∨ i = 7 := by omega
  all_goals
    simp only [cla8bit, claUnit8bit, fullAdderG, fullAdderP, fullAdderS, getLsbD_bus8,
      List.getD_cons_succ, List.getD_cons_zero, carryChain_succ, carryChain_zero]

/-- A sum bit of the block that adds the slices from position `8 * k` on, when the
block is fed the carry into that position. -/
private theorem cla8bit_slice_s (a b : Word) (ci : Bool) (s : ℕ) {i : ℕ} (hi : i < 8) :
    (cla8bit (a.extractLsb' s 8) (b.extractLsb' s 8) (BitVec.carry s a b ci)).s.getLsbD i =
      (a.getLsbD (s + i) ^^ (b.getLsbD (s + i) ^^ BitVec.carry (s + i) a b ci)) := by
  rw [cla8bit_s _ _ _ hi, carry_extractLsb' _ _ _ _ hi.le]
  simp only [BitVec.getLsbD_extractLsb', hi, decide_true, Bool.true_and]

private theorem cla8bit_slice_co (a b : Word) (ci : Bool) (s : ℕ) :
    (cla8bit (a.extractLsb' s 8) (b.extractLsb' s 8) (BitVec.carry s a b ci)).co =
      BitVec.carry (s + 8) a b ci := by
  rw [cla8bit_co, carry_extractLsb' _ _ _ _ le_rfl]

/-! ### The whole adder -/

private theorem adder_blocks (a b : Word) (ci : Bool) :
    (cla8bit (a.extractLsb' 0 8) (b.extractLsb' 0 8) ci).co = BitVec.carry 8 a b ci ∧
    (cla8bit (a.extractLsb' 8 8) (b.extractLsb' 8 8) (BitVec.carry 8 a b ci)).co =
      BitVec.carry 16 a b ci ∧
    (cla8bit (a.extractLsb' 16 8) (b.extractLsb' 16 8) (BitVec.carry 16 a b ci)).co =
      BitVec.carry 24 a b ci := by
  have h0 := cla8bit_slice_co a b ci 0
  rw [BitVec.carry_zero] at h0
  exact ⟨h0, cla8bit_slice_co a b ci 8, cla8bit_slice_co a b ci 16⟩

/-- **The sum.** -/
theorem adder_sum (a b : Word) (ci : Bool) :
    (adder a b ci).sum = wrappedSum a b ci := by
  obtain ⟨h1, h2, h3⟩ := adder_blocks a b ci
  have h0 := fun i (hi : i < 8) => cla8bit_slice_s a b ci 0 hi
  rw [BitVec.carry_zero] at h0
  refine BitVec.eq_of_getLsbD_eq ?_
  intro i hi
  rw [wrappedSum, BitVec.getLsbD_add_add_bool hi, adder, h1, h2, h3]
  simp only [BitVec.getLsbD_append]
  -- the position decides which of the four blocks the bit comes from
  rcases Nat.lt_or_ge i 8 with hi8 | hi8
  · rw [if_pos hi8, h0 i hi8, Nat.zero_add]
  rw [if_neg (by omega)]
  rcases Nat.lt_or_ge i 16 with hi16 | hi16
  · rw [if_pos (by omega), cla8bit_slice_s a b ci 8 (by omega),
      show 8 + (i - 8) = i by omega]
  rw [if_neg (by omega)]
  rcases Nat.lt_or_ge i 24 with hi24 | hi24
  · rw [if_pos (by omega), cla8bit_slice_s a b ci 16 (by omega),
      show 16 + (i - 8 - 8) = i by omega]
  · rw [if_neg (by omega), cla8bit_slice_s a b ci 24 (by omega),
      show 24 + (i - 8 - 8 - 8) = i by omega]

/-- Without a carry input the sum is bit-vector addition. -/
@[simp] theorem adder_sum_false (a b : Word) : (adder a b false).sum = a + b := by
  rw [adder_sum, wrappedSum_false]

/-- **The carry flag** is the carry of the unsigned addition. -/
theorem adder_c (a b : Word) (ci : Bool) :
    (adder a b ci).c = decide (2 ^ 32 ≤ a.toNat + b.toNat + ci.toNat) := by
  obtain ⟨h1, h2, h3⟩ := adder_blocks a b ci
  rw [adder, h1, h2, h3, cla8bit_slice_co]
  exact BitVec.carry_width

private theorem adder_v_eq_carries (a b : Word) (ci : Bool) :
    (adder a b ci).v = (BitVec.carry 32 a b ci ^^ BitVec.carry 31 a b ci) := by
  obtain ⟨h1, h2, h3⟩ := adder_blocks a b ci
  rw [adder, h1, h2, h3, cla8bit_slice_co, cla8bit_c30,
    carry_extractLsb' _ _ _ _ (by decide : 7 ≤ 8)]

/-- **The overflow flag** tells whether the exact signed sum leaves the signed range. -/
theorem adder_v (a b : Word) (ci : Bool) :
    (adder a b ci).v =
      decide (signedSum a b ci < -2 ^ 31 ∨ 2 ^ 31 ≤ signedSum a b ci) := by
  rw [adder_v_eq_carries, carry_xor_carry]

/-- The negative flag is the sign bit of the sum. -/
theorem adder_n (a b : Word) (ci : Bool) :
    (adder a b ci).n = (adder a b ci).sum.msb := by
  rw [BitVec.msb_eq_getLsbD_last]
  rfl

/-- The zero flag tests the sum. -/
theorem adder_z (a b : Word) (ci : Bool) :
    (adder a b ci).z = ((adder a b ci).sum == 0#32) := rfl

/-- **`N` and `V` together** are the sign of the exact signed sum. -/
theorem adder_n_xor_v (a b : Word) (ci : Bool) :
    ((adder a b ci).n ^^ (adder a b ci).v) = decide (signedSum a b ci < 0) := by
  rw [adder_n, adder_sum, adder_v_eq_carries, msb_xor_overflow]

/-- **The adder is integer addition with exact flags**: the sum modulo `2 ^ 32`, the carry of
the unsigned sum, the signed sum out of range, the sign bit and the zero test. -/
theorem adder_exact (a b : Word) (ci : Bool) :
    (adder a b ci).sum.toNat = (a.toNat + b.toNat + ci.toNat) % 2 ^ 32 ∧
    ((adder a b ci).c = true ↔ 2 ^ 32 ≤ a.toNat + b.toNat + ci.toNat) ∧
    ((adder a b ci).v = true ↔
      ¬(-2 ^ 31 ≤ a.toInt + b.toInt + ci.toNat ∧
        a.toInt + b.toInt + ci.toNat ≤ 2 ^ 31 - 1)) ∧
    ((adder a b ci).n = true ↔ (adder a b ci).sum.getLsbD 31 = true) ∧
    ((adder a b ci).z = true ↔ (adder a b ci).sum = 0#32) := by
  refine ⟨?_, ?_, ?_, ?_, ?_⟩
  · rw [adder_sum, toNat_wrappedSum a b ci (by omega)]
  · rw [adder_c, decide_eq_true_iff]
  · rw [adder_v, decide_eq_true_iff, signedSum]
    omega
  · rw [adder_n, BitVec.msb_eq_getLsbD_last]
  · rw [adder_z, beq_iff_eq]

end SmuRv32im
