import SmuRv32im.HartRefinement

/-!
# The Verdicts of the Testbenches

A test program reports its result in `tohost`, and the testbench watches the register from
outside, cycle by cycle. `isa_testbench` waits for an odd value, within the 1000 clock edges
of its timeout, 30 of which pass in reset; `c_tests_tb` looks at every clock edge from the
tenth after the reset button on, for a value other than zero. Both then compare with 1.

What they report is what the program meant: the verdict is that of the first such value the
hart writes, in the cycle after the instruction that writes it.

## Main results

* `Boot.tohost_entry`: what `tohost` shows until an instruction has written it.
* `Boot.isaTestbench_verdict`, `Boot.isaTestbench_timeout`: the outcomes of `isa_testbench`.
* `Boot.cTestsTb_verdict`: those of `c_tests_tb`.
-/

namespace SmuRv32im

/-- What a testbench displays. -/
inductive Verdict (α : Type)
  | passed (cycle : ℕ)
  | failed (test : α)
  | timeout
deriving DecidableEq

/-- The first of the `n` cycles from `s` on in which `p` holds. -/
def firstCycle (s n : ℕ) (p : ℕ → Bool) : Option ℕ := (List.range' s n).find? p

theorem firstCycle_eq_some {s n t : ℕ} {p : ℕ → Bool} (hs : s ≤ t) (hn : t < s + n)
    (hp : p t = true) (hfirst : ∀ u, u < t → p u = false) : firstCycle s n p = some t := by
  refine List.find?_range'_eq_some.mpr ⟨hp, List.mem_range'_1.mpr ⟨hs, hn⟩, ?_⟩
  intro u _ hu
  rw [hfirst u hu]
  rfl

/-- `isa_testbench`, given `tohost` in each cycle after reset release. Cycle `t` begins with
clock edge `31 + t`, and edge 1000 is the timeout. -/
def isaTestbench (tohost : ℕ → Word) : Verdict (BitVec 31) :=
  match firstCycle 0 969 fun t => (tohost t).getLsbD 0 with
  | some t =>
    if (tohost t).getLsbD 0 = true ∧ (tohost t).extractLsb' 1 31 = 0#31 then .passed (t + 1)
    else .failed ((tohost t).extractLsb' 1 31)
  | none => .timeout

/-- `c_tests_tb`. Cycle `t` begins with clock edge `11 + t`, and what it shows is looked at
with the next one, from edge 20 on. Edge `10 ^ 8` is the timeout. -/
def cTestsTb (tohost : ℕ → Word) : Verdict Unit :=
  match firstCycle 8 (10 ^ 8 - 20) fun t => tohost t != 0#32 with
  | some t => if tohost t = 1#32 then .passed (t + 1) else .failed ()
  | none => .timeout

/-- What `isa_testbench` takes for a success is the value 1. -/
theorem eq_one_iff (v : Word) :
    (v.getLsbD 0 = true ∧ v.extractLsb' 1 31 = 0#31) ↔ v = 1#32 := by
  constructor
  · rintro ⟨hodd, hzero⟩
    have hnat := congrArg BitVec.toNat hzero
    rw [BitVec.extractLsb'_toNat, Nat.shiftRight_eq_div_pow, BitVec.toNat_ofNat] at hnat
    have hbit : v.toNat % 2 = 1 := by
      rw [BitVec.getLsbD, Nat.testBit_zero] at hodd
      exact of_decide_eq_true hodd
    refine BitVec.eq_of_toNat_eq ?_
    have hlt := v.isLt
    rw [BitVec.toNat_ofNat]
    omega
  · rintro rfl
    decide

section
variable {tohost : ℕ → Word} {t : ℕ}

/-- The first odd value decides. -/
theorem isaTestbench_eq (ht : t < 969) (hodd : (tohost t).getLsbD 0 = true)
    (hfirst : ∀ u, u < t → (tohost u).getLsbD 0 = false) :
    isaTestbench tohost =
      if tohost t = 1#32 then .passed (t + 1) else .failed ((tohost t).extractLsb' 1 31) := by
  have hfind : firstCycle 0 969 (fun t => (tohost t).getLsbD 0) = some t :=
    firstCycle_eq_some (Nat.zero_le t) (by omega) hodd hfirst
  rw [isaTestbench, hfind]
  simp only [eq_one_iff]

/-- The first value other than zero decides. -/
theorem cTestsTb_eq (ht8 : 8 ≤ t) (ht : t < 10 ^ 8 - 12) (hne : tohost t ≠ 0#32)
    (hfirst : ∀ u, u < t → tohost u = 0#32) :
    cTestsTb tohost = if tohost t = 1#32 then .passed (t + 1) else .failed () := by
  have hfind : firstCycle 8 (10 ^ 8 - 20) (fun t => tohost t != 0#32) = some t := by
    refine firstCycle_eq_some ht8 (by omega) (bne_iff_ne.mpr hne) ?_
    intro u hu
    rw [hfirst u hu]
    rfl
  rw [cTestsTb, hfind]

end

/-! ### The register -/

/-- A step of the hart writes `tohost` or leaves it. -/
theorem Hart.tohost_step {s s' : Hart} {io : Word} (h : s.step io = some s') :
    s'.tohost = s.tohostWrite.getD s.tohost := by
  obtain ⟨i, hi, -, rfl⟩ := (s.step_eq_some_iff io).mp h
  rw [tohostWrite, hi, Option.bind_some]
  cases i <;> rfl

namespace Boot
variable (b : Boot)

/-- What every instruction before the `k`-th writes to `tohost`. -/
def WritesBefore (k : ℕ) (P : Word → Prop) : Prop :=
  ∀ j, j < k → ∀ s ∈ b.hart j, ∀ v ∈ s.tohostWrite, P v

/-- What holds of zero and of all values written holds of the register. -/
theorem hart_tohost {P : Word → Prop} (hzero : P 0#32) {k : ℕ} (hw : b.WritesBefore k P)
    {j : ℕ} (hj : j ≤ k) {s : Hart} (hs : b.hart j = some s) : P s.tohost := by
  induction j generalizing s with
  | zero =>
      obtain rfl : Hart.reset b.image b.rf = s := Option.some.inj hs
      exact hzero
  | succ j ih =>
      obtain ⟨t, ht, hstep⟩ := Partial.run_succ_eq_some_iff.mp hs
      rw [Hart.tohost_step hstep]
      cases hv : t.tohostWrite with
      | none => exact ih (by omega) ht
      | some v => exact hw j (by omega) t ht v hv

/-- The cycle after a write to `tohost` shows the value. -/
theorem tohost_succ_of_tohostWrite {t : ℕ} {v : Word}
    (h : (b.system t).cpu.tohostWrite = some v) : (b.system (t + 1)).cpu.tohost = v := by
  obtain ⟨hcsr, hv⟩ := Option.ite_none_right_eq_some.mp h
  have hstep : (b.system (t + 1)).cpu.tohost =
      csr (b.system t).cpu.de.csrE (b.system t).cpu.rd1EH (b.system t).cpu.de.immExtE
        (b.system t).cpu.de.instrE (b.system t).cpu.tohost := rfl
  rw [hstep, hcsr]
  exact Option.some.inj hv

section
variable {b} {n k : ℕ} (h : b.Conforms n) (hk : k < n)
include h hk

/-- **`tohost` in the cycles up to an instruction**: what the instructions before it write,
then what it writes. -/
theorem tohost_entry {P : Word → Prop} (hzero : P 0#32) (hw : b.WritesBefore k P) {s : Hart}
    {v : Word} (hs : b.hart k = some s) (hv : s.tohostWrite = some v) :
    (∀ t, t ≤ b.systemRun.entry k → P (b.system t).cpu.tohost) ∧
      (b.system (b.systemRun.entry k + 1)).cpu.tohost = v := by
  have he := b.systemRun.occ_entry k
  have hcount := b.countE_entry k
  have hsucc := b.countE_entry_succ k
  constructor
  · intro t ht
    have hle := b.systemRun.countE_mono ht
    have hnext : b.systemRun.countE (t + 1) ≤ b.systemRun.countE (b.systemRun.entry k + 1) :=
      b.systemRun.countE_mono (Nat.succ_le_succ ht)
    obtain ⟨u, hu, htohost, -⟩ := b.execute_hart h (t := t) (by omega)
    rw [htohost]
    exact b.hart_tohost hzero hw (by omega) hu
  · obtain ⟨s', i, hs', hi, himp⟩ := h.exists_instr hk
    obtain rfl : s = s' := Option.some.inj (hs.symm.trans hs')
    have hback := h.matchesBack (t := b.systemRun.entry k) (by omega)
    refine b.tohost_succ_of_tohostWrite ?_
    rw [matches_tohostWrite hback he, hcount, himp.tohostWrite_eq b.x hi, hv]

end

/-! ### The verdicts -/

/-- **The verdict of `isa_testbench`** is that of the first odd value the program writes, if
the instruction that writes it is in Execute before the timeout. -/
theorem isaTestbench_verdict {n k : ℕ} (h : b.Conforms n) (hk : k < n)
    (hsoon : b.systemRun.entry k < 968) (hw : b.WritesBefore k fun v => v.getLsbD 0 = false)
    {s : Hart} {v : Word} (hs : b.hart k = some s) (hv : s.tohostWrite = some v)
    (hodd : v.getLsbD 0 = true) :
    isaTestbench (fun t => (b.system t).cpu.tohost) =
      if v = 1#32 then .passed (b.systemRun.entry k + 2) else .failed (v.extractLsb' 1 31) := by
  obtain ⟨hbefore, hat⟩ := tohost_entry h hk (P := fun v => v.getLsbD 0 = false) rfl hw hs hv
  rw [← hat] at hodd ⊢
  exact isaTestbench_eq (by omega) hodd fun u hu => hbefore u (by omega)

/-- **The verdict of `c_tests_tb`** is that of the first value other than zero the program
writes, if the instruction that writes it is in Execute after the first seven cycles and before
the timeout. -/
theorem cTestsTb_verdict {n k : ℕ} (h : b.Conforms n) (hk : k < n)
    (hstart : 7 ≤ b.systemRun.entry k) (hsoon : b.systemRun.entry k + 1 < 10 ^ 8 - 12)
    (hw : b.WritesBefore k fun v => v = 0#32) {s : Hart} {v : Word} (hs : b.hart k = some s)
    (hv : s.tohostWrite = some v) (hne : v ≠ 0#32) :
    cTestsTb (fun t => (b.system t).cpu.tohost) =
      if v = 1#32 then .passed (b.systemRun.entry k + 2) else .failed () := by
  obtain ⟨hbefore, hat⟩ := tohost_entry h hk (P := fun v => v = 0#32) rfl hw hs hv
  rw [← hat] at hne ⊢
  exact cTestsTb_eq (by omega) hsoon hne fun u hu => hbefore u (by omega)

end Boot

/-! ### Three programs -/

/-- `addi x1, x0, 1`, `csrw 0x51E, x1` and `j .`. -/
def passBoot : Boot :=
  { x := ⟨0#3, 0#5, 0#32, 0#32, 0#32⟩
    image := fun a => if a = 0#17 then 0x00100093#32 else if a = 1#17 then 0x51E09073#32
      else if a = 2#17 then 0x0000006F#32 else 0#32
    rf := fun _ => 0#32
    sim := true }

theorem passBoot_freeRun : passBoot.FreeRun (fun _ => 0#32) 2 := by
  decide +kernel

/-- Its verdict. -/
theorem passBoot_verdict : ∃ s, passBoot.hart 1 = some s ∧
    isaTestbench (fun t => (passBoot.system t).cpu.tohost) =
      if 1#32 = 1#32 then .passed (passBoot.systemRun.entry 1 + 2)
      else .failed ((1#32).extractLsb' 1 31) := by
  have hwrites : (∀ s ∈ passBoot.hartWith (fun _ => 0#32) 0, s.tohostWrite = none) ∧
      ∀ s ∈ passBoot.hartWith (fun _ => 0#32) 1, s.tohostWrite = some 1#32 := by
    decide +kernel
  obtain ⟨s, hs, hv⟩ := passBoot_freeRun.exists_hart (by omega) hwrites.2
  have hsoon := passBoot.entry_le 1
  refine ⟨s, hs, ?_⟩
  refine passBoot.isaTestbench_verdict passBoot_freeRun.conforms (by omega) (by omega) ?_ hs hv rfl
  intro j hj u hu v hv
  obtain rfl : j = 0 := by omega
  rw [passBoot_freeRun.hart_eq (by omega)] at hu
  rw [hwrites.1 u hu] at hv
  cases hv

/-- Five times `addi x1, x0, 1`, then `csrw 0x51E, x1` and `j .`. -/
def slowPassBoot : Boot :=
  { x := ⟨0#3, 0#5, 0#32, 0#32, 0#32⟩
    image := fun a => if a.toNat < 5 then 0x00100093#32 else if a = 5#17 then 0x51E09073#32
      else if a = 6#17 then 0x0000006F#32 else 0#32
    rf := fun _ => 0#32
    sim := true }

theorem slowPassBoot_freeRun : slowPassBoot.FreeRun (fun _ => 0#32) 6 := by
  decide +kernel

/-- Its verdict. -/
theorem slowPassBoot_verdict : ∃ s, slowPassBoot.hart 5 = some s ∧
    cTestsTb (fun t => (slowPassBoot.system t).cpu.tohost) =
      if 1#32 = 1#32 then .passed (slowPassBoot.systemRun.entry 5 + 2) else .failed () := by
  have hwrites : (∀ j, j < 5 → ∀ s ∈ slowPassBoot.hartWith (fun _ => 0#32) j,
      s.tohostWrite = none) ∧
        ∀ s ∈ slowPassBoot.hartWith (fun _ => 0#32) 5, s.tohostWrite = some 1#32 := by
    decide +kernel
  obtain ⟨s, hs, hv⟩ := slowPassBoot_freeRun.exists_hart (by omega) hwrites.2
  have hstart := slowPassBoot.le_entry 5
  have hsoon := slowPassBoot.entry_le 5
  refine ⟨s, hs, ?_⟩
  refine slowPassBoot.cTestsTb_verdict slowPassBoot_freeRun.conforms (by omega) hstart (by omega)
    ?_ hs hv (by decide)
  intro j hj u hu v hv
  rw [slowPassBoot_freeRun.hart_eq (by omega)] at hu
  rw [hwrites.1 j hj u hu] at hv
  cases hv

end SmuRv32im
