import Mathlib.Data.Nat.Bitwise
import Mathlib.Data.Int.Order.Basic

/-!
# Carry Chains of Two's-Complement Addition

A structural adder computes its carries from one generate and one propagate signal
per bit position. `carryChain g p ci` is that recurrence over arbitrary signals;
for the signals of two bit vectors it is the arithmetic carry `BitVec.carry`, at every
position (`carryChain_eq_carry`), and it can be cut into blocks that hand their carry
on (`carryChain_add`).

The second half reads the flags of an addition off its carries.

## Main results

* `carryChain_eq_carry`: the generate/propagate recurrence is the arithmetic carry.
* `carry_xor_carry`: the carries into and out of the sign position differ exactly when
  the exact signed sum leaves the signed range.
* `msb_xor_overflow`: sign flag and overflow flag together give the sign of the exact
  signed sum.
-/

namespace Carry

/-- The carry into position `i` of a chain with generate signals `g`, propagate
signals `p` and carry input `ci`. -/
def carryChain (g p : ℕ → Bool) (ci : Bool) : ℕ → Bool
  | 0 => ci
  | i + 1 => g i || (p i && carryChain g p ci i)

@[simp] theorem carryChain_zero (g p : ℕ → Bool) (ci : Bool) :
    carryChain g p ci 0 = ci := rfl

theorem carryChain_succ (g p : ℕ → Bool) (ci : Bool) (i : ℕ) :
    carryChain g p ci (i + 1) = (g i || (p i && carryChain g p ci i)) := rfl

/-- **Block composition**: a chain of `m + n` positions is a chain of `m` positions
whose carry feeds a chain over the next `n`. -/
theorem carryChain_add (g p : ℕ → Bool) (ci : Bool) (m n : ℕ) :
    carryChain g p ci (m + n) =
      carryChain (fun i => g (m + i)) (fun i => p (m + i)) (carryChain g p ci m) n := by
  induction n with
  | zero => rfl
  | succ n ih => rw [← Nat.add_assoc, carryChain_succ, carryChain_succ, ih]

variable {w : ℕ}

/-- **The recurrence computes the arithmetic carry.** With `g = x & y` and
`p = x ^ y`, the chain at position `i` is the carry of `x + y + ci` into `i`. -/
theorem carryChain_eq_carry (x y : BitVec w) (ci : Bool) (i : ℕ) :
    carryChain (fun i => x.getLsbD i && y.getLsbD i)
      (fun i => x.getLsbD i ^^ y.getLsbD i) ci i = BitVec.carry i x y ci := by
  induction i with
  | zero => rw [carryChain_zero, BitVec.carry_zero]
  | succ i ih =>
      rw [carryChain_succ, ih, BitVec.carry_succ]
      cases x.getLsbD i <;> cases y.getLsbD i <;> simp [Bool.atLeastTwo]

private theorem carryChain_congr {g g' p p' : ℕ → Bool} {ci : Bool} {n : ℕ}
    (h : ∀ i, i < n → g i = g' i ∧ p i = p' i) :
    carryChain g p ci n = carryChain g' p' ci n := by
  induction n with
  | zero => rfl
  | succ n ih =>
      obtain ⟨hg, hp⟩ := h n (Nat.lt_succ_self n)
      rw [carryChain_succ, carryChain_succ, hg, hp,
        ih fun i hi => h i (Nat.lt_succ_of_lt hi)]

/-- **The carries of a block are the carries of the whole addition**: adding the slices
from position `s` on, with the carry into `s`, meets the carries of the full words. -/
theorem carry_extractLsb' (x y : BitVec w) (ci : Bool) (s : ℕ) {n len : ℕ}
    (h : n ≤ len) :
    BitVec.carry n (x.extractLsb' s len) (y.extractLsb' s len) (BitVec.carry s x y ci) =
      BitVec.carry (s + n) x y ci := by
  rw [← carryChain_eq_carry, ← carryChain_eq_carry, ← carryChain_eq_carry,
    carryChain_add]
  refine carryChain_congr ?_
  intro i hi
  have hlt : i < len := by omega
  simp only [BitVec.getLsbD_extractLsb', hlt, decide_true, Bool.true_and, and_self]

/-- The exact signed sum of two bit vectors and a carry input. -/
def signedSum (x y : BitVec w) (ci : Bool) : ℤ :=
  x.toInt + y.toInt + ci.toNat

/-- The wrapped sum `x + y + ci`. -/
def wrappedSum (x y : BitVec w) (ci : Bool) : BitVec w :=
  x + y + (BitVec.ofBool ci).setWidth w

@[simp] theorem wrappedSum_false (x y : BitVec w) : wrappedSum x y false = x + y := by
  simp [wrappedSum]

theorem signedSum_false (x y : BitVec w) : signedSum x y false = x.toInt + y.toInt := by
  simp [signedSum]

theorem toNat_wrappedSum (x y : BitVec w) (ci : Bool) (hw : 0 < w) :
    (wrappedSum x y ci).toNat = (x.toNat + y.toNat + ci.toNat) % 2 ^ w := by
  have h1 : ci.toNat < 2 ^ w :=
    lt_of_le_of_lt (Bool.toNat_le ci) (Nat.one_lt_two_pow (by omega))
  rw [wrappedSum, BitVec.toNat_add, BitVec.toNat_add, BitVec.toNat_setWidth,
    BitVec.toNat_ofBool, Nat.mod_eq_of_lt h1, Nat.mod_add_mod]

/-- A number splits into its leading bit and the rest, and its signed value charges
the leading bit negatively. -/
private theorem toInt_split (x : BitVec (w + 1)) :
    ∃ l, l < 2 ^ w ∧ x.toNat % 2 ^ w = l ∧
      ((x.toNat = l ∧ x.toInt = l) ∨
        (x.toNat = 2 ^ w + l ∧ x.toInt = l - ((2 ^ w : ℕ) : ℤ))) := by
  have hlt := x.isLt
  refine ⟨x.toNat % 2 ^ w, Nat.mod_lt _ (Nat.two_pow_pos w), rfl, ?_⟩
  rw [BitVec.toInt_eq_toNat_cond]
  rw [Nat.pow_succ, Nat.mul_comm] at hlt ⊢
  by_cases h : x.toNat < 2 ^ w
  · rw [if_pos (by omega), Nat.mod_eq_of_lt h]
    exact Or.inl ⟨rfl, rfl⟩
  · rw [if_neg (by omega), Nat.mod_eq_sub_mod (by omega), Nat.mod_eq_of_lt (by omega)]
    exact Or.inr ⟨by omega, by omega⟩

private theorem decide_xor_decide (p q : Prop) [Decidable p] [Decidable q] :
    (decide p ^^ decide q) = decide (¬(p ↔ q)) := by
  by_cases hp : p <;> by_cases hq : q <;> simp [hp, hq]

/-- **Signed overflow is the exclusive or of the last two carries.** -/
theorem carry_xor_carry (x y : BitVec (w + 1)) (ci : Bool) :
    (BitVec.carry (w + 1) x y ci ^^ BitVec.carry w x y ci) =
      decide (signedSum x y ci < -2 ^ w ∨ 2 ^ w ≤ signedSum x y ci) := by
  obtain ⟨l, hl, hxl, hx⟩ := toInt_split x
  obtain ⟨k, hk, hyk, hy⟩ := toInt_split y
  have hpow : 2 ^ (w + 1) = 2 * 2 ^ w := by rw [Nat.pow_succ, Nat.mul_comm]
  have hcast : ((2 : ℤ) ^ w) = ((2 ^ w : ℕ) : ℤ) := by push_cast; rfl
  have hc : ci.toNat ≤ 1 := Bool.toNat_le ci
  rw [BitVec.carry_width, BitVec.carry, hxl, hyk, signedSum, decide_xor_decide, hpow,
    hcast]
  generalize 2 ^ w = P at *
  refine decide_eq_decide.mpr ?_
  rcases hx with ⟨hx, hx'⟩ | ⟨hx, hx'⟩ <;>
    rcases hy with ⟨hy, hy'⟩ | ⟨hy, hy'⟩ <;>
    rw [hx, hx', hy, hy'] <;> omega

/-- **Sign and overflow together**: the leading bit of the wrapped sum, corrected by
the overflow flag, is the sign of the exact signed sum. -/
theorem msb_xor_overflow (x y : BitVec (w + 1)) (ci : Bool) :
    ((wrappedSum x y ci).msb ^^
        (BitVec.carry (w + 1) x y ci ^^ BitVec.carry w x y ci)) =
      decide (signedSum x y ci < 0) := by
  obtain ⟨l, hl, hxl, hx⟩ := toInt_split x
  obtain ⟨k, hk, hyk, hy⟩ := toInt_split y
  have hpow : 2 ^ (w + 1) = 2 * 2 ^ w := by rw [Nat.pow_succ, Nat.mul_comm]
  have hcast : ((2 : ℤ) ^ w) = ((2 ^ w : ℕ) : ℤ) := by push_cast; rfl
  have hc : ci.toNat ≤ 1 := Bool.toNat_le ci
  rw [carry_xor_carry, BitVec.msb_eq_decide, toNat_wrappedSum x y ci (by omega),
    signedSum, Nat.add_sub_cancel, decide_xor_decide, hpow, hcast]
  generalize 2 ^ w = P at *
  -- the wrapped sum drops at most one multiple of the modulus
  have hmod : (x.toNat + y.toNat + ci.toNat < 2 * P ∧
        (x.toNat + y.toNat + ci.toNat) % (2 * P) = x.toNat + y.toNat + ci.toNat) ∨
      (2 * P ≤ x.toNat + y.toNat + ci.toNat ∧
        (x.toNat + y.toNat + ci.toNat) % (2 * P) =
          x.toNat + y.toNat + ci.toNat - 2 * P) := by
    rcases Nat.lt_or_ge (x.toNat + y.toNat + ci.toNat) (2 * P) with h | h
    · exact Or.inl ⟨h, Nat.mod_eq_of_lt h⟩
    · refine Or.inr ⟨h, ?_⟩
      rw [Nat.mod_eq_sub_mod h, Nat.mod_eq_of_lt]
      rcases hx with ⟨hx, -⟩ | ⟨hx, -⟩ <;>
        rcases hy with ⟨hy, -⟩ | ⟨hy, -⟩ <;> omega
  refine decide_eq_decide.mpr ?_
  rcases hmod with ⟨hS, hmod⟩ | ⟨hS, hmod⟩ <;> rw [hmod] <;>
    rcases hx with ⟨hx, hx'⟩ | ⟨hx, hx'⟩ <;>
    rcases hy with ⟨hy, hy'⟩ | ⟨hy, hy'⟩ <;>
    rw [hx', hy'] <;> omega

end Carry
