import Mathlib.Algebra.Ring.Nat

/-!
# Byte-Addressed Memory

A memory of bytes with little-endian accesses of `n` bytes, over addresses of any width. An
access may wrap around the end of the address space. A store keeps what it wrote until a
later store covers the same byte, so a load returns the bytes most recently stored
(`store_apply`); a load of bytes that are the slices of one word is a slice of that
word (`load_eq_extract`), which is how a word memory implements a byte memory. An array that
has been filled from its start (`storeArray`) shows its elements.
-/

namespace ByteMemory

variable {w k : ℕ}

/-- A memory: one byte for each address. -/
abbrev Mem (w : ℕ) := BitVec w → BitVec 8

/-- The byte `i` of a word. -/
def byte (v : BitVec k) (i : ℕ) : BitVec 8 := v.extractLsb' (8 * i) 8

/-- The unsigned value of the `n` bytes from `a`, the first one least significant. -/
def load (m : Mem w) (a : BitVec w) : ℕ → ℕ
  | 0 => 0
  | n + 1 => (m a).toNat + 2 ^ 8 * load m (a + 1#w) n

/-- The memory after storing the low `n` bytes of `v` from `a`. -/
def store (m : Mem w) (a : BitVec w) (n : ℕ) (v : BitVec k) : Mem w :=
  fun b => if (b - a).toNat < n then byte v (b - a).toNat else m b

theorem store_apply (m : Mem w) (a : BitVec w) (n : ℕ) (v : BitVec k) (b : BitVec w) :
    store m a n v b = if (b - a).toNat < n then byte v (b - a).toNat else m b := rfl

/-- A slice of `n + 1` bytes is its first byte and the other `n`. -/
theorem toNat_extract_succ (v : BitVec k) (s n : ℕ) :
    (v.extractLsb' s (8 * (n + 1))).toNat =
      (v.extractLsb' s 8).toNat + 2 ^ 8 * (v.extractLsb' (s + 8) (8 * n)).toNat := by
  rw [BitVec.extractLsb'_toNat, BitVec.extractLsb'_toNat, BitVec.extractLsb'_toNat,
    Nat.shiftRight_add, Nat.shiftRight_eq_div_pow (v.toNat >>> s) 8, Nat.mul_succ,
    Nat.add_comm (8 * n) 8, Nat.pow_add, Nat.mod_mul]

/-- A load whose bytes are consecutive bytes of `v` is a slice of `v`. -/
theorem load_eq_extract {m : Mem w} {a : BitVec w} {v : BitVec k} {s n : ℕ}
    (h : ∀ i, i < n → m (a + BitVec.ofNat w i) = byte v (s + i)) :
    load m a n = (v.extractLsb' (8 * s) (8 * n)).toNat := by
  induction n generalizing a s with
  | zero => rw [Nat.mul_zero, load, BitVec.of_length_zero (x := v.extractLsb' _ 0)]; rfl
  | succ n ih =>
      have hfirst : m a = byte v s := by
        have h0 := h 0 (Nat.succ_pos n)
        rwa [Nat.add_zero, BitVec.add_zero] at h0
      have hrest : ∀ i, i < n → m (a + 1#w + BitVec.ofNat w i) = byte v (s + 1 + i) := by
        intro i hi
        have hi' := h (i + 1) (Nat.succ_lt_succ hi)
        rwa [Nat.add_comm i 1, BitVec.ofNat_add, ← BitVec.add_assoc, ← Nat.add_assoc] at hi'
      rw [load, hfirst, ih hrest, toNat_extract_succ, byte, Nat.mul_succ]

/-! ### Loads behind stores -/

section
variable {m m' : Mem w} {a b : BitVec w} {n l : ℕ} {v : BitVec k}

theorem load_congr (h : ∀ i, i < n → m (a + BitVec.ofNat w i) = m' (a + BitVec.ofNat w i)) :
    load m a n = load m' a n := by
  induction n generalizing a with
  | zero => rfl
  | succ n ih =>
      have hfirst : m a = m' a := by
        have h0 := h 0 (Nat.succ_pos n)
        rwa [BitVec.add_zero] at h0
      have hrest : ∀ i, i < n →
          m (a + 1#w + BitVec.ofNat w i) = m' (a + 1#w + BitVec.ofNat w i) := by
        intro i hi
        have hi' := h (i + 1) (Nat.succ_lt_succ hi)
        rwa [Nat.add_comm i 1, BitVec.ofNat_add, ← BitVec.add_assoc] at hi'
      rw [load, load, hfirst, ih hrest]

/-- What was stored is loaded. -/
theorem load_store_same (hn : n ≤ 2 ^ w) :
    load (store m a n v) a n = (v.extractLsb' 0 (8 * n)).toNat := by
  refine load_eq_extract (s := 0) ?_
  intro i hi
  have hoff : (a + BitVec.ofNat w i - a).toNat = i := by
    rw [BitVec.add_comm, BitVec.add_sub_cancel, BitVec.toNat_ofNat,
      Nat.mod_eq_of_lt (lt_of_lt_of_le hi hn)]
  rw [store_apply, hoff, if_pos hi, Nat.zero_add]

/-- A store changes no byte outside of it. -/
theorem store_of_apart (ha : a.toNat + n ≤ 2 ^ w)
    (h : b.toNat < a.toNat ∨ a.toNat + n ≤ b.toNat) : store m a n v b = m b := by
  rw [store_apply, if_neg]
  obtain hlt | hle := h
  · rw [BitVec.toNat_sub_of_lt hlt]
    omega
  · rw [BitVec.toNat_sub_of_le (BitVec.le_def.mpr (by omega))]
    omega

/-- A load finds what it found before a store to other bytes. -/
theorem load_store_of_apart (ha : a.toNat + n ≤ 2 ^ w) (hb : b.toNat + l ≤ 2 ^ w)
    (h : b.toNat + l ≤ a.toNat ∨ a.toNat + n ≤ b.toNat) :
    load (store m a n v) b l = load m b l := by
  refine load_congr ?_
  intro i hi
  have hlt := (BitVec.ofNat w i).isLt
  have haddr : (b + BitVec.ofNat w i).toNat = b.toNat + i := by
    rw [BitVec.toNat_add, BitVec.toNat_ofNat, Nat.mod_eq_of_lt (a := i) (by omega),
      Nat.mod_eq_of_lt (by omega)]
  exact store_of_apart ha (by omega)

end

/-! ### Arrays -/

/-- The memory after storing the first `n` elements of an array at `a`, of `l` bytes each. -/
def storeArray (m : Mem w) (a : BitVec w) (l : ℕ) (f : ℕ → BitVec k) : ℕ → Mem w
  | 0 => m
  | n + 1 => store (storeArray m a l f n) (a + BitVec.ofNat w (l * n)) l (f n)

section
variable {m : Mem w} {a b : BitVec w} {l n : ℕ} {f : ℕ → BitVec k}

/-- The address of an element, in an array that does not wrap around. -/
theorem toNat_element {i : ℕ} (h : a.toNat + l * i < 2 ^ w) :
    (a + BitVec.ofNat w (l * i)).toNat = a.toNat + l * i := by
  rw [BitVec.toNat_add, BitVec.toNat_ofNat, Nat.mod_eq_of_lt (a := l * i) (by omega),
    Nat.mod_eq_of_lt h]

/-- A load outside of the array finds what it found before. -/
theorem load_storeArray_of_apart {j : ℕ} (ha : a.toNat + l * n < 2 ^ w)
    (hb : b.toNat + j ≤ 2 ^ w) (h : b.toNat + j ≤ a.toNat ∨ a.toNat + l * n ≤ b.toNat) :
    load (storeArray m a l f n) b j = load m b j := by
  induction n with
  | zero => rfl
  | succ n ih =>
      rw [Nat.mul_succ] at ha h
      have haddr := toNat_element (a := a) (l := l) (i := n) (by omega)
      rw [storeArray, load_store_of_apart (by omega) hb (by omega), ih (by omega) (by omega)]

/-- **An element of the array.** -/
theorem load_storeArray {i : ℕ} (hi : i < n) (ha : a.toNat + l * n < 2 ^ w) :
    load (storeArray m a l f n) (a + BitVec.ofNat w (l * i)) l =
      ((f i).extractLsb' 0 (8 * l)).toNat := by
  induction n with
  | zero => exact absurd hi (Nat.not_lt_zero i)
  | succ n ih =>
      rw [Nat.mul_succ] at ha
      obtain hlt | rfl := Nat.lt_succ_iff_lt_or_eq.mp hi
      · have hle : l * i + l ≤ l * n := by
          rw [← Nat.mul_succ]
          exact Nat.mul_le_mul_left l hlt
        have hn := toNat_element (a := a) (l := l) (i := n) (by omega)
        have hi' := toNat_element (a := a) (l := l) (i := i) (by omega)
        rw [storeArray, load_store_of_apart (by omega) (by omega) (by omega), ih hlt (by omega)]
      · rw [storeArray, load_store_same (by omega)]

end

end ByteMemory
