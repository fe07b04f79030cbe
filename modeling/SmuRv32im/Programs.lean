import SmuRv32im.MachineCode
import SmuRv32im.Testbench

/-!
# Programs from Power-Up

The C test programs start at the reset address with `_start`, which sets the stack pointer and
calls `main`, and end with a write to `tohost`. A program that does not leave its code, whose
instructions are regular in every state and whose stores stay off the code, is in the domain
of the refinement up to the end. So it is enough to know the machine code of `main`: what it
makes the hart put out is what the memory bus of the pipeline carries and `c_tests_tb` reports.

## Main results

* `Boot.conforms_of_inside`: a program that stays in its code conforms.
* `Boot.Has.reports`: from the machine code of `main` to the report of the testbench.
-/

namespace SmuRv32im

open ByteMemory (Mem load storeArray load_storeArray toNat_element)

/-! ### Programs in the domain of the refinement -/

namespace Instr

/-- The instruction is regular in every state. -/
def Tame : Instr → Prop
  | set .slt .. | branch .blt .. | branch .bge .. | jalr .. => False
  | csrrw d _ | csrrwi d _ => d = 0#5
  | _ => True

instance : DecidablePred Tame
  | set .slt .. | branch .blt .. | branch .bge .. | jalr .. => inferInstanceAs (Decidable False)
  | csrrw d _ | csrrwi d _ => inferInstanceAs (Decidable (d = 0#5))
  | set .sltu .. | branch .beq .. | branch .bne .. | branch .bltu .. | branch .bgeu ..
  | compute .. | setImm .. | mulDiv .. | load .. | store .. | fence .. =>
    inferInstanceAs (Decidable True)

theorem Tame.regular {i : Instr} (h : i.Tame) (s : Hart) : i.Regular s := by
  cases i with
  | set o =>
      cases o with
      | slt => exact h.elim
      | sltu => trivial
  | branch o =>
      cases o with
      | blt => exact h.elim
      | bge => exact h.elim
      | _ => trivial
  | jalr => exact h.elim
  | csrrw => exact h
  | csrrwi => exact h
  | _ => trivial

/-- An instruction that is no store leaves the memory alone. -/
theorem memAfter_of_op {i : Instr} (h : i.op ≠ opcStore) (s : Hart) : i.memAfter s = s.mem := by
  cases i with
  | store => exact absurd rfl h
  | _ => rfl

end Instr

theorem Hart.Inside.exists_instr {base : Word} {code : List Instr} {s : Hart}
    (h : s.Inside base code) : ∃ i ∈ code, s.instr? = some i := by
  obtain ⟨k, hk, hat⟩ := h
  exact ⟨code[k], List.getElem_mem hk, hat.instr? (List.getElem?_eq_getElem hk)⟩

namespace Boot
variable {b : Boot}

/-- **A program that stays in its code** is in the domain of the refinement: the instructions
are regular, and a store that leaves the code alone is ahead of what is fetched. -/
theorem conforms_of_inside {m n : ℕ} {base₀ base : Word} {code₀ code : List Instr}
    (hruns : ∃ s, b.hart n = some s)
    (hstart : ∀ j, j < m → ∀ s ∈ b.hart j, s.Inside base₀ code₀)
    (hmain : ∀ j, m ≤ j → j < n → ∀ s ∈ b.hart j, s.Inside base code)
    (htame₀ : ∀ i ∈ code₀, i.Tame ∧ i.op ≠ opcStore) (htame : ∀ i ∈ code, i.Tame) :
    b.Conforms n where
  runs := hruns
  regular j hj s hs i hi := by
    obtain hlt | hle := Nat.lt_or_ge j m
    · obtain ⟨i', hmem, hi'⟩ := (hstart j hlt s hs).exists_instr
      obtain rfl : i' = i := Option.some.inj (hi'.symm.trans hi)
      exact (htame₀ i' hmem).1.regular s
    · obtain ⟨i', hmem, hi'⟩ := (hmain j hle hj s hs).exists_instr
      obtain rfl : i' = i := Option.some.inj (hi'.symm.trans hi)
      exact (htame i' hmem).regular s
  stores j hj i hij _ u hu s hs s' hs' := by
    obtain hlt | hle := Nat.lt_or_ge i m
    · -- an instruction of the start stores nothing
      obtain ⟨t, ht, hstep⟩ := Partial.run_succ_eq_some_iff.mp hs'
      obtain rfl : t = s := Option.some.inj (ht.symm.trans hs)
      obtain ⟨l, hl, -, rfl⟩ := (t.step_eq_some_iff _).mp hstep
      obtain ⟨l', hmem, hl'⟩ := (hstart i hlt t hs).exists_instr
      obtain rfl : l' = l := Option.some.inj (hl'.symm.trans hl)
      rw [Hart.exec_mem, Instr.memAfter_of_op (htame₀ l' hmem).2]
    · -- what is fetched behind it is in the code, before it and after it
      obtain ⟨k, hk, hat⟩ := hmain j (by omega) hj u hu
      obtain ⟨_, -, hcode⟩ := hmain i hle (by omega) s hs
      obtain ⟨_, -, hcode'⟩ := hmain (i + 1) (by omega) (by omega) s' hs'
      have hword := List.getElem?_eq_getElem hk
      rw [hat.pc, hcode.code.word k _ hword, hcode'.code.word k _ hword]

/-- The outputs that are writes to `tohost` are the writes to `tohost`. -/
theorem writesBefore_of_outputs {k : ℕ} {P : Word → Prop}
    (h : ∀ v, .tohost v ∈ b.hartOutputs k → P v) : b.WritesBefore k P := by
  intro j hj s hs v hv
  refine h v (List.mem_filterMap.mpr ⟨j, List.mem_range.mpr hj, ?_⟩)
  have hs' : b.hart j = some s := hs
  rw [hs', Option.bind_some]
  rw [s.tohostWrite_eq_output, Option.mem_def] at hv
  obtain ⟨o, ho, hov⟩ := Option.bind_eq_some_iff.mp hv
  cases o with
  | store w => cases hov
  | tohost w =>
      obtain rfl : w = v := Option.some.inj hov
      exact ho

end Boot

/-! ### Arrays of words -/

/-- The store of an element of the array of words `f` at `a`. -/
def elementStore (a : Word) (f : ℕ → Word) (i : ℕ) : Word × Word × BitVec 4 :=
  (a + BitVec.ofNat 32 (4 * i), f i, 0xF#4)

/-- A word of an array is loaded as it was stored. -/
theorem load_element {m : Mem 32} {a : Word} {f : ℕ → Word} {i n : ℕ} (hi : i < n)
    (ha : a.toNat + 4 * n < 2 ^ 32) :
    BitVec.ofNat 32 (load (storeArray m a 4 f n) (a + BitVec.ofNat 32 (4 * i)) 4) = f i := by
  have hself : ((f i).extractLsb' 0 (8 * 4)).toNat = (f i).toNat :=
    congrArg BitVec.toNat BitVec.extractLsb'_eq_self
  rw [load_storeArray hi ha, hself, BitVec.ofNat_toNat, BitVec.setWidth_eq]

theorem ofNat_element_succ (i : ℕ) :
    BitVec.ofNat 32 (4 * (i + 1)) = BitVec.ofNat 32 (4 * i) + 4#32 := by
  rw [Nat.mul_succ, BitVec.ofNat_add]

/-- The element before. -/
theorem element_pred (a : Word) (i : ℕ) :
    a + BitVec.ofNat 32 (4 * (i + 1)) + (0xFFC#12).signExtend 32 =
      a + BitVec.ofNat 32 (4 * i) := by
  have hcancel : 4#32 + (0xFFC#12).signExtend 32 = 0#32 := by decide
  rw [ofNat_element_succ, ← BitVec.add_assoc, BitVec.add_assoc, hcancel, BitVec.add_zero]

/-- The element behind. -/
theorem element_succ (a : Word) (i : ℕ) :
    a + BitVec.ofNat 32 (4 * i) + (4#12).signExtend 32 =
      a + BitVec.ofNat 32 (4 * (i + 1)) := by
  rw [ofNat_element_succ, BitVec.add_assoc]
  rfl

/-! ### The start -/

/-- `start.s`: `li x2, 0x1000FFF0` and `jal main`. -/
def startCode (off : BitVec 20) : List Instr :=
  [.compute (.lui 2#5 0x10010#20), addi 2#5 2#5 0xFF0#12, .compute (.jal 1#5 off)]

/-- A program of the C tests: its function `main`, and where `start.s` calls it. -/
structure Program where
  offset : BitVec 20
  main : List Instr

/-- The address of `main`. -/
def Program.base (p : Program) : Word := codeAddr 0x10000000#32 2 + byteOffset p.offset

/-- The RAM with the program and nothing else. -/
def Program.image (p : Program) : Ram := fun a =>
  (((startCode p.offset).map Instr.encode)[a.toNat]?).getD
    (((p.main.map Instr.encode)[(a - ramAddr p.base).toNat]?).getD 0#32)

/-- A boot of the program. -/
def Program.boot (p : Program) : Boot :=
  { x := ⟨0#3, 0#5, 0#32, 0#32, 0#32⟩
    image := p.image
    rf := fun _ => 0#32
    sim := true }

/-- The program is in the RAM, whatever is around it. -/
structure Boot.Has (b : Boot) (p : Program) : Prop where
  start : CodeAt (ramBytes b.image) 0x10000000#32 (startCode p.offset)
  main : CodeAt (ramBytes b.image) p.base p.main

/-- `main` is left for a `csrw` that reports a value, after it has put out `us`. -/
structure Hart.Reports (p : Program) (us : List Output) (v : Word) (ws : List Output)
    (t : Hart) : Prop where
  outputs : ws = us
  report : ∃ k r, t.At p.base p.main k ∧ p.main[k]? = some (.csrrw 0#5 r) ∧ t.regs r = v

namespace Boot.Has
variable {b : Boot} {p : Program} (h : b.Has p)
include h

/-- The third instruction out of reset is the first one of `main`. -/
theorem start_main : ∃ s, b.hart 3 = some s ∧ s.At p.base p.main 0 ∧
    s.mem = ramBytes b.image ∧ b.hartOutputs 3 = [] ∧
    ∀ j, j < 3 → ∀ u ∈ b.hart j, u.Inside 0x10000000#32 (startCode p.offset) := by
  have hreset : (Hart.reset b.image b.rf).At 0x10000000#32 (startCode p.offset) 0 := ⟨h.start, rfl⟩
  have hruns : Hart.Runs 0x10000000#32 (startCode p.offset) 3 (Hart.reset b.image b.rf)
      fun t => t.pc = p.base ∧ t.mem = ramBytes b.image := by
    refine hreset.lui rfl fun t1 h1 e1 => ?_
    refine h1.addi rfl fun t2 h2 e2 => ?_
    refine h2.call rfl fun t3 hpc e3 => Partial.leads_zero ⟨hpc, ?_⟩
    rw [e3.mem, e2.mem, e1.mem]
    rfl
  obtain ⟨s, ws, hs, hout, ⟨rfl, hpc, hmem⟩, hinside⟩ := b.hart_outputs (k := 0) rfl hruns
  refine ⟨s, hs, ⟨hmem ▸ h.main, ?_⟩, hmem, hout, ?_⟩
  · rw [hpc, codeAddr, BitVec.add_zero]
  · intro j hj
    exact hinside j (Nat.zero_le j) (by omega)

/-- **The report of a program.** What the machine code of `main` puts out before the value it
reports is all that is stored, and `c_tests_tb` shows what the value stands for. -/
theorem reports (htame : ∀ i ∈ p.main, i.Tame) {m : ℕ} {us : List Output} {v : Word}
    (hmain : ∀ s : Hart, s.At p.base p.main 0 → s.mem = ramBytes b.image →
      Hart.Outputs p.base p.main m s (Hart.Reports p us v))
    (hzero : ∀ w, .tohost w ∈ us → w = 0#32) (hv : v ≠ 0#32) (hm : 2 ≤ m)
    (hsoon : m < 3 * 10 ^ 7) :
    (cTestsTb (fun t => (b.system t).cpu.tohost) =
      if v = 1#32 then .passed (b.systemRun.entry (3 + m) + 2) else .failed ()) ∧
    Clocked.log (fun u => (b.system u).cpu.busWrite) (b.systemRun.entry (3 + m) + 1) =
      us.filterMap Output.store? := by
  obtain ⟨s, hs, hat, hmem, hnil, hstart⟩ := h.start_main
  obtain ⟨t, ws, ht, hout, ⟨rfl, k, r, hatt, hcsr, hreg⟩, hinside⟩ :=
    b.hart_outputs hs (hmain s hat hmem)
  rw [hnil, List.nil_append] at hout
  have hinstr := hatt.instr? hcsr
  have hnext : b.hart (3 + m + 1) = some (t.exec (b.deviceReads (3 + m)) (.csrrw 0#5 r)) :=
    Partial.run_succ_eq_some_iff.mpr
      ⟨t, ht, (t.step_eq_some_iff _).mpr ⟨_, hinstr, trivial, rfl⟩⟩
  have hcode : ∀ j, 3 ≤ j → j < 3 + m + 1 → ∀ u ∈ b.hart j, u.Inside p.base p.main := by
    intro j hj hjm u hu
    obtain hlt | rfl := Nat.lt_succ_iff_lt_or_eq.mp hjm
    · exact hinside j hj hlt u hu
    · obtain rfl : t = u := Option.some.inj (ht.symm.trans hu)
      exact ⟨k, (List.getElem?_eq_some_iff.mp hcsr).1, hatt⟩
  have hconf : b.Conforms (3 + m + 1) := by
    refine conforms_of_inside ⟨_, hnext⟩ hstart hcode ?_ htame
    simp [startCode, addi, Instr.Tame, Instr.op, Rv32i.op]
  have hw : b.WritesBefore (3 + m) fun w => w = 0#32 :=
    writesBefore_of_outputs fun w hw => hzero w (hout ▸ hw)
  have hwrite : t.tohostWrite = some v := by
    rw [Hart.tohostWrite, hinstr, ← hreg]
    rfl
  obtain ⟨hbefore, hafter⟩ := tohost_entry hconf (Nat.lt_succ_self _)
    (P := fun w => w = 0#32) rfl hw ht hwrite
  have hlow := b.le_entry (3 + m)
  have hhigh := b.entry_le (3 + m)
  constructor
  · rw [← hafter] at hv ⊢
    exact cTestsTb_eq (by omega) (by omega) hv fun u hu => hbefore u (by omega)
  · rw [log_busWrite_entry hconf (Nat.lt_succ_self _), b.hartStores_eq, hout]

end Boot.Has

end SmuRv32im
