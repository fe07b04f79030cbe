import SmuRv32im.MemoryAccess
import SmuRv32im.Refinement

/-!
# The Data Memory of a Run

The byte memory under the whole system. A run of the pipeline makes accesses: the loads and
stores that Execute hands to Memory, each with its word and its forwarded operands
(`Boot.memoryAccess`). Whatever the program is, and whether or not it is one the hart could
execute, the RAM holds the bytes of the image with the stores made so far, and a load delivers
them in the cycle after; the only condition is that the stores are aligned and either in the
window or outside of `0x1xxx_xxxx`.

## Main results

* `Boot.em_memoryAccess`: Memory works on the access.
* `Boot.ram_run`: the RAM and the loads of a run.
-/

namespace SmuRv32im

open ByteMemory (Mem)

/-- The access is one of those software may make. -/
def Access.Legal (a : Access) : Prop :=
  ((opcode a.instr = opcStore ∧ StoreFunct3 (funct3 a.instr)) ∨
    (opcode a.instr = opcLoad ∧ LoadFunct3 (funct3 a.instr))) ∧
  ((InRam a.addr ∧ a.addr.toNat % a.bytes = 0) ∨
    (a.IsStore ∧ a.addr.extractLsb' 28 4 ≠ 0x1#4))

instance (a : Access) : Decidable a.Legal := inferInstanceAs (Decidable (_ ∧ _))

namespace Boot
variable (b : Boot)

/-- The load or store in Memory in cycle `t`: what Execute held of it in the cycle before, and
what the peripherals show. -/
def memoryAccess : ℕ → Option Access
  | 0 => none
  | t + 1 =>
    let cpu := (b.system t).cpu
    if cpu.de.memWriteE = true ∨ cpu.de.resultSrcE = 0b01#2 then
      some
        { instr := cpu.de.instrE
          base := cpu.rd1EH
          data := cpu.rd2EH
          pc := cpu.de.pcE
          timer := (b.system (t + 1)).readDataTimer
          tbman := (b.system (t + 1)).readDataTbman b.defines }
    else none

/-- The bytes of the image with the stores made before cycle `t`. -/
def storedBytes (t : ℕ) : Mem 32 :=
  (Clocked.log b.memoryAccess t).foldl (fun m a => a.storeTo m) (ramBytes b.image)

/-- The stores before cycle `t` are aligned, and in the window or outside of `0x1xxx_xxxx`. -/
def StoresLegal (t : ℕ) : Prop :=
  ∀ u, u < t → ∀ a ∈ b.memoryAccess u, a.IsStore → a.Legal

instance (t : ℕ) : Decidable (b.StoresLegal t) :=
  inferInstanceAs (Decidable (∀ u, u < t → _))

/-! ### The access in Memory -/

/-- Memory works on the access. It passes on the address behind the instruction as it came from
Fetch. -/
theorem em_memoryAccess {t : ℕ} {a : Access} (ha : a ∈ b.memoryAccess t) :
    (∃ p, (b.system t).cpu.em = { a.em b.x with pcPlus4M := p }) ∧
      (a.IsStore ∨ opcode a.instr = opcLoad) ∧ a.timer = (b.system t).readDataTimer ∧
      a.tbman = (b.system t).readDataTbman b.defines := by
  cases t with
  | zero => cases ha
  | succ t =>
      have hslots := b.system_slots t
      obtain ⟨hctl, hsome⟩ := Option.ite_none_right_eq_some.mp ha
      obtain rfl := Option.some.inj hsome
      have he : (b.systemRun.occ t).e = true := by
        by_contra he
        have hidle := hslots.idleE (eq_false_of_ne_true he)
        rw [hidle.memWriteE, hidle.resultSrcE] at hctl
        simp at hctl
      have hdec : (b.system t).cpu.de = decodeStage b.x (b.system t).cpu.de.instrE
          (b.system t).cpu.de.rd1E (b.system t).cpu.de.rd2E (b.system t).cpu.de.pcE
          (b.system t).cpu.de.pcPlus4E := hslots.decodedE he
      have hem : (b.system (t + 1)).cpu.em =
          (b.system t).cpu.de.toEM b.x (b.system t).cpu.rd1EH (b.system t).cpu.rd2EH := rfl
      refine ⟨⟨(b.system t).cpu.de.pcPlus4E, ?_⟩, ?_, rfl, rfl⟩
      · rw [hem, hdec]
        rfl
      · rw [hdec] at hctl
        exact hctl.imp (controller_memWrite b.x _).mp (controller_resultSrc_01 b.x _).mp

/-- Without an access nothing is written. -/
theorem memWriteM_of_memoryAccess {t : ℕ} (hnone : b.memoryAccess t = none) :
    (b.system t).cpu.em.memWriteM = false := by
  cases t with
  | zero => rfl
  | succ t =>
      have hem : (b.system (t + 1)).cpu.em.memWriteM = (b.system t).cpu.de.memWriteE := rfl
      rw [hem]
      refine eq_false_of_ne_true ?_
      intro hwe
      cases ite_eq_right_iff.mp hnone (Or.inl hwe)

/-- The RAM after a cycle is that after the access. -/
theorem mem_succ_of_memoryAccess {t : ℕ} {a : Access} (ha : a ∈ b.memoryAccess t) :
    (b.system (t + 1)).mem = a.ram b.x (b.system t).mem := by
  obtain ⟨⟨p, hem⟩, -⟩ := b.em_memoryAccess ha
  rw [b.system_succ, ((b.system t).step_memory b.x b.defines).1, hem]
  rfl

/-- An access that is no store leaves the RAM alone. -/
theorem mem_succ_of_not_store {t : ℕ} (h : ∀ a ∈ b.memoryAccess t, ¬a.IsStore) :
    (b.system (t + 1)).mem = (b.system t).mem := by
  have hwe : (b.system t).cpu.em.busOut.memWrite = false := by
    cases ha : b.memoryAccess t with
    | none => exact b.memWriteM_of_memoryAccess ha
    | some a =>
        obtain ⟨⟨p, hem⟩, hkind, -⟩ := b.em_memoryAccess ha
        have hop := hkind.resolve_left (h a ha)
        rw [hem]
        exact (toEM_load b.x a.instr a.base a.data a.pc hop).2.1
  rw [b.system_succ, ((b.system t).step_memory b.x b.defines).1, StageEM.ramWrite, hwe]
  rfl

/-- What Memory hands to Writeback is what the access delivers. -/
theorem result_of_memoryAccess {t : ℕ} {a : Access} (ha : a ∈ b.memoryAccess t)
    (hst : ¬a.IsStore) : (b.system (t + 1)).cpu.result = a.loaded b.x (b.system t).mem := by
  obtain ⟨⟨p, hem⟩, hkind, htimer, htbman⟩ := b.em_memoryAccess ha
  have hop := hkind.resolve_left hst
  have hsrc : (a.em b.x).resultSrcM = 0b01#2 :=
    (toEM_load b.x a.instr a.base a.data a.pc hop).2.2
  have hmw : (b.system (t + 1)).cpu.mw = StageEM.toMW { a.em b.x with pcPlus4M := p }
      ((a.em b.x).readWord (b.system t).mem a.timer a.tbman) := by
    rw [b.system_succ, ((b.system t).step_memory b.x b.defines).2, hem, htimer, htbman]
    rfl
  rw [Cpu.result, hmw, Access.loaded, StageMW.result, StageMW.result]
  simp only [StageEM.toMW, hsrc, mux3_01]

/-! ### Runs -/

/-- The stored bytes move on with the access. -/
theorem storedBytes_succ (t : ℕ) : b.storedBytes (t + 1) =
    (b.memoryAccess t).elim (b.storedBytes t) fun a => a.storeTo (b.storedBytes t) := by
  rw [storedBytes, Clocked.log_succ, List.foldl_append]
  cases b.memoryAccess t <;> rfl

/-- A cycle keeps the RAM at the stored bytes. -/
theorem holds_succ {t : ℕ} (h : Holds (b.system t).mem (b.storedBytes t))
    (hlegal : ∀ a ∈ b.memoryAccess t, a.IsStore → a.Legal) :
    Holds (b.system (t + 1)).mem (b.storedBytes (t + 1)) := by
  rw [b.storedBytes_succ]
  cases ha : b.memoryAccess t with
  | none =>
      rw [b.mem_succ_of_not_store (by simp [ha])]
      exact h
  | some a =>
      by_cases hst : a.IsStore
      · obtain ⟨hkind, hplace⟩ := hlegal a ha hst
        rw [b.mem_succ_of_memoryAccess ha]
        exact LegalAccess.ram_holds b.x ⟨a, hkind, hplace⟩ _ h
      · have hkeep : a.storeTo (b.storedBytes t) = b.storedBytes t := if_neg fun hs => hst hs.1
        have hmem := b.mem_succ_of_not_store (t := t) fun a' ha' => by
          rwa [← Option.some.inj (ha.symm.trans ha')]
        rw [hmem, Option.elim_some, hkeep]
        exact h

theorem holds_run {t : ℕ} (h : b.StoresLegal t) :
    Holds (b.system t).mem (b.storedBytes t) := by
  induction t with
  | zero => exact fun _ _ => rfl
  | succ t ih =>
      refine b.holds_succ (ih fun u hu => h u (Nat.lt_succ_of_lt hu)) ?_
      exact h t (Nat.lt_succ_self t)

/-- **The data memory of a run.** As long as its stores are legal, the RAM holds the bytes of
the image with the stores made so far, and a load from the window delivers them. -/
theorem ram_run {t : ℕ} (h : b.StoresLegal t) :
    Holds (b.system t).mem (b.storedBytes t) ∧
      ∀ a ∈ b.memoryAccess t, ¬a.IsStore → a.Legal →
        (b.system (t + 1)).cpu.result = a.loadFrom (b.storedBytes t) := by
  have hholds := b.holds_run h
  refine ⟨hholds, ?_⟩
  rintro a ha hst ⟨hkind, hplace⟩
  rw [b.result_of_memoryAccess ha hst]
  exact LegalAccess.loaded_eq b.x ⟨a, hkind, hplace⟩ _ hst hholds

end Boot

/-- The load of this program, in Memory in cycle 5, finds the store of the cycle before. -/
theorem storeLoad_ram_run :
    Holds (storeLoadBoot.system 5).mem (storeLoadBoot.storedBytes 5) ∧
      ∃ a ∈ storeLoadBoot.memoryAccess 5, a.loadFrom (storeLoadBoot.storedBytes 5) = 7#32 ∧
        (storeLoadBoot.system 6).cpu.result = a.loadFrom (storeLoadBoot.storedBytes 5) := by
  obtain ⟨hholds, hload⟩ := storeLoadBoot.ram_run (t := 5) (by decide +kernel)
  have hfound : ∃ a ∈ storeLoadBoot.memoryAccess 5, ¬a.IsStore ∧ a.Legal ∧
      a.loadFrom (storeLoadBoot.storedBytes 5) = 7#32 := by
    decide +kernel
  obtain ⟨a, ha, hst, hlegal, hvalue⟩ := hfound
  exact ⟨hholds, a, ha, hvalue, hload a ha hst hlegal⟩

end SmuRv32im
