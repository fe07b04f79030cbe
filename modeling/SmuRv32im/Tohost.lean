import SmuRv32im.CycleAccounting

/-!
# The Pass/Fail Register

The testbenches read the verdict of a program in `tohost_csr`, which programs write with
`csrrw` or `csrrwi` to CSR `0x51E`. The register listens to more: any `SYSTEM` instruction
writes it, whatever CSR it names, and those other than `csrrw` and `csrrwi` write zero. So
it holds what the program last wrote on purpose as long as every other `SYSTEM`
instruction happens to write what the register holds already, and no longer.

## Main results

* `Run.tohost_succ`: the register changes only under a `SYSTEM` instruction in Execute.
* `Run.tohostLaw_iff`: the register holds the last value written on purpose exactly in the
  runs whose other `SYSTEM` instructions are harmless.
-/

namespace SmuRv32im

/-- The CSR number of a `SYSTEM` instruction. -/
def csrNumber (instr : Word) : BitVec 12 := instr.extractLsb' 20 12

/-- The number of `tohost`. -/
def csrTohost : BitVec 12 := 0x51E#12

/-- The value a `csrrw` or `csrrwi` to `tohost` writes, given the operand; nothing for
other words. -/
def tohostWrite (instr rd1 : Word) : Option Word :=
  if opcode instr = opcCsr ∧ csrNumber instr = csrTohost then
    if funct3 instr = 0b001#3 then some rd1
    else if funct3 instr = 0b101#3 then some ((rs1 instr).setWidth 32)
    else none
  else none

/-- What a `SYSTEM` instruction selects for the register, whatever CSR it names. -/
def systemValue (instr rd1 : Word) : Word :=
  if funct3 instr = 0b001#3 then rd1
  else if funct3 instr = 0b101#3 then (rs1 instr).setWidth 32
  else 0#32

/-- A write on purpose is a `SYSTEM` instruction, and selects the value it writes. -/
theorem tohostWrite_eq_some {instr rd1 v : Word} (h : tohostWrite instr rd1 = some v) :
    opcode instr = opcCsr ∧ systemValue instr rd1 = v := by
  rw [tohostWrite] at h
  split_ifs at h with hcsr hrw hrwi
  · obtain rfl := Option.some.inj h
    exact ⟨hcsr.1, if_pos hrw⟩
  · obtain rfl := Option.some.inj h
    exact ⟨hcsr.1, by rw [systemValue, if_neg hrw, if_pos hrwi]⟩

namespace Run
variable (r : Run)

/-- A `SYSTEM` instruction that is not squashed is in Execute. -/
def systemAt (t : ℕ) : Prop :=
  (r.occ t).e = true ∧ opcode (r.cpu t).de.instrE = opcCsr

instance (t : ℕ) : Decidable (r.systemAt t) := inferInstanceAs (Decidable (_ ∧ _))

/-- What the instruction in Execute writes to `tohost` on purpose. -/
def purposeWrite (t : ℕ) : Option Word :=
  if (r.occ t).e = true then tohostWrite (r.cpu t).de.instrE (r.cpu t).rd1EH else none

/-- What the `SYSTEM` instruction in Execute selects for the register. -/
def selected (t : ℕ) : Word := systemValue (r.cpu t).de.instrE (r.cpu t).rd1EH

/-- **The next value of the register**: any `SYSTEM` instruction writes what it selects. -/
theorem tohost_succ (t : ℕ) :
    (r.cpu (t + 1)).tohost = if r.systemAt t then r.selected t else (r.cpu t).tohost := by
  have hslots := r.slots t
  have hstep : (r.cpu (t + 1)).tohost =
      csr (r.cpu t).de.csrE (r.cpu t).rd1EH (r.cpu t).de.immExtE (r.cpu t).de.instrE
        (r.cpu t).tohost := rfl
  cases he : (r.occ t).e with
  | false =>
      have hnot : ¬r.systemAt t := by simp [systemAt, he]
      rw [hstep, (hslots.idleE he).csrE, if_neg hnot]
      rfl
  | true =>
      have hdec := hslots.decodedE he
      by_cases hop : opcode (r.cpu t).de.instrE = opcCsr
      · rw [hstep, hdec.csrE.mpr hop, if_pos ⟨he, hop⟩, hdec.immExtE, immExt_of_csr _ _ hop]
        rfl
      · have hnot : ¬r.systemAt t := fun h => hop h.2
        have hcsr : (r.cpu t).de.csrE = false :=
          eq_false_of_ne_true fun hc => hop (hdec.csrE.mp hc)
        rw [hstep, hcsr, if_neg hnot]
        rfl

/-! ### The last value written on purpose -/

/-- The value of the last write on purpose before cycle `t`, zero if there is none. -/
def lastPurpose (t : ℕ) : Word := (Clocked.log r.purposeWrite t).getLastD 0#32

theorem lastPurpose_succ (t : ℕ) :
    r.lastPurpose (t + 1) = (r.purposeWrite t).getD (r.lastPurpose t) := by
  rw [lastPurpose, Clocked.log_succ, lastPurpose]
  cases r.purposeWrite t with
  | none => rw [Option.toList_none, List.append_nil, Option.getD_none]
  | some v => rw [Option.toList_some, List.getLastD_concat, Option.getD_some]

/-- What is expected of the first `T` cycles: the register holds the last value written on
purpose, and a `SYSTEM` instruction without that purpose leaves it alone. -/
def TohostLaw (T : ℕ) : Prop :=
  (∀ t, t ≤ T → (r.cpu t).tohost = r.lastPurpose t) ∧
    ∀ t, t < T → r.systemAt t → r.purposeWrite t = none →
      (r.cpu (t + 1)).tohost = (r.cpu t).tohost

/-- The `SYSTEM` instructions of cycle `t` without the purpose find what they select in the
register already: zero, unless they are `csrrw` or `csrrwi` to another CSR. -/
def Harmless (t : ℕ) : Prop :=
  r.systemAt t → r.purposeWrite t = none → r.selected t = (r.cpu t).tohost

/-- A write on purpose reaches the register. -/
theorem tohost_succ_of_purposeWrite {t : ℕ} {v : Word} (h : r.purposeWrite t = some v) :
    (r.cpu (t + 1)).tohost = v := by
  rw [purposeWrite] at h
  split_ifs at h with he
  obtain ⟨hop, hv⟩ := tohostWrite_eq_some h
  rw [r.tohost_succ, if_pos ⟨he, hop⟩]
  exact hv

/-- Under harmless instructions the register follows the writes on purpose. -/
theorem tohost_eq_lastPurpose {T : ℕ} (h : ∀ t, t < T → r.Harmless t) {t : ℕ}
    (ht : t ≤ T) : (r.cpu t).tohost = r.lastPurpose t := by
  induction t with
  | zero => rfl
  | succ t ih =>
      rw [r.lastPurpose_succ, ← ih (by omega)]
      cases hw : r.purposeWrite t with
      | some v => exact r.tohost_succ_of_purposeWrite hw
      | none =>
          rw [r.tohost_succ, Option.getD_none]
          split_ifs with hsys
          · exact h t (by omega) hsys hw
          · rfl

/-- **When the register is written only on purpose.** It follows the writes on purpose
through the first `T` cycles of a run exactly if every other `SYSTEM` instruction executed
in them finds what it selects in the register already. -/
theorem tohostLaw_iff (T : ℕ) : r.TohostLaw T ↔ ∀ t, t < T → r.Harmless t := by
  constructor
  · rintro ⟨-, hkeep⟩ t ht hsys hw
    have hnext := hkeep t ht hsys hw
    rwa [r.tohost_succ, if_pos hsys] at hnext
  · intro h
    constructor
    · intro t ht
      exact r.tohost_eq_lastPurpose h ht
    · intro t ht hsys hw
      rw [r.tohost_succ, if_pos hsys]
      exact h t ht hsys hw

end Run

/-! ### A program that loses its verdict -/

/-- `csrwi 0x51E, 1` followed by `ecall`, at the reset address. -/
def ecallBoot : Boot :=
  { x := ⟨0#3, 0#5, 0#32, 0#32, 0#32⟩
    image := fun a => if a = 0#17 then 0x51E0D073#32 else if a = 1#17 then 0x00000073#32
      else 0#32
    rf := fun _ => 0#32
    sim := true }

/-- The register of this run holds the verdict for one cycle. -/
theorem ecall_tohost :
    (ecallBoot.system 3).cpu.tohost = 1#32 ∧ (ecallBoot.system 4).cpu.tohost = 0#32 := by
  decide +kernel

/-- The law fails for this run: the `ecall` clears the verdict. -/
theorem ecall_not_tohostLaw : ¬∀ T, ecallBoot.systemRun.TohostLaw T := by
  intro h
  obtain ⟨h3, h4⟩ := ecall_tohost
  rw [← ecallBoot.systemRun_cpu] at h3 h4
  have hsys : ecallBoot.systemRun.systemAt 3 := by
    constructor
    · decide +kernel
    · rw [ecallBoot.systemRun_cpu]
      decide +kernel
  have hnone : ecallBoot.systemRun.purposeWrite 3 = none := by decide +kernel
  have hkeep := (h 4).2 3 (by omega) hsys hnone
  simp [h3, h4] at hkeep

end SmuRv32im
