import SmuRv32im.Occupancy

/-!
# The FPGA Build

The FPGA build reads its RAM through registered ports under the pipeline of the build
without `FPGA`, which expects words in the cycle of the address. The word fetched in a
cycle is that of the program counter of the cycle before, and the word read by a load that
of the address on the bus before. The two builds do the same as long as this makes no
difference: as long as every fetched word that is not squashed is the word at its own
program counter, and every loaded word the one at its own address.

## Main results

* `Agree.step`: two cores that get the same words where it matters stay in agreement.
* `Boot.builds_agree`: the builds make the same writes under that condition.
* `mispair_not_buildsAgree`: two instructions on which they do not.
-/

namespace SmuRv32im

/-! ### Agreement of two cores -/

/-- The parts of two cores that agree in any case: all but the word in Decode and the word
read from memory, of which only the result counts. -/
structure CoreAgree (s f : Cpu) : Prop where
  pc : s.pc = f.pc
  pcD : s.fd.pcD = f.fd.pcD
  pcPlus4D : s.fd.pcPlus4D = f.fd.pcPlus4D
  de : s.de = f.de
  em : s.em = f.em
  regWriteW : s.mw.regWriteW = f.mw.regWriteW
  instrW : s.mw.instrW = f.mw.instrW
  result : s.result = f.result
  rf : s.rf = f.rf
  tohost : s.tohost = f.tohost

namespace CoreAgree
variable {s f : Cpu} (h : CoreAgree s f)
include h

theorem operand (rs : BitVec 5) :
    mux3 (s.rf.read rs) s.result s.em.aluResultM (s.forwardSel rs) =
      mux3 (f.rf.read rs) f.result f.em.aluResultM (f.forwardSel rs) := by
  rw [Cpu.forwardSel, Cpu.forwardSel, h.rf, h.result, h.em, h.instrW, h.regWriteW]

theorem rd1EH : s.rd1EH = f.rd1EH := by
  rw [Cpu.rd1EH, Cpu.rd1EH, Cpu.forwardA, Cpu.forwardA, Cpu.forwardSel, Cpu.forwardSel,
    h.result, h.em, h.de, h.instrW, h.regWriteW]

theorem rd2EH : s.rd2EH = f.rd2EH := by
  rw [Cpu.rd2EH, Cpu.rd2EH, Cpu.forwardB, Cpu.forwardB, Cpu.forwardSel, Cpu.forwardSel,
    h.result, h.em, h.de, h.instrW, h.regWriteW]

theorem pcSrc (x : XValues) : s.pcSrc x = f.pcSrc x := by
  rw [Cpu.pcSrc, Cpu.pcSrc, h.rd1EH, h.rd2EH, h.de]

theorem pcNext (x : XValues) : s.pcNext x = f.pcNext x := by
  rw [Cpu.pcNext, Cpu.pcNext, Cpu.pcPlus4F, Cpu.pcPlus4F, h.rd1EH, h.rd2EH, h.de, h.pc]

/-- Cores in agreement make the same writes. -/
theorem writes : s.regWrite = f.regWrite ∧ s.busWrite = f.busWrite := by
  constructor
  · rw [Cpu.regWrite, Cpu.regWrite, h.regWriteW, h.instrW, h.result]
  · rw [Cpu.busWrite, Cpu.busWrite, Cpu.busOut, Cpu.busOut, h.em]

end CoreAgree

/-- **Agreement**: the word in Decode counts unless Execute squashes it. -/
structure Agree (x : XValues) (s f : Cpu) : Prop extends CoreAgree s f where
  instrD : f.pcSrc x = 0b00#2 → s.fd.instrD = f.fd.instrD

/-- The words two cores read in a cycle agree where it matters: the fetched word, if the
front moves on and neither Execute nor the next cycle squashes it, and the word read by a
load. -/
structure SameWords (x : XValues) (f f' : Cpu) (i j : BusIn) : Prop where
  instr : f.stall = false → f.pcSrc x = 0b00#2 → f'.pcSrc x = 0b00#2 → i.instr = j.instr
  readData : f.em.resultSrcM = 0b01#2 → i.readData = j.readData

namespace Agree
variable {x : XValues} {s f : Cpu} (h : Agree x s f)
include h

/-- The stages behind Decode go on in agreement. -/
theorem step_back (i j : BusIn) (hread : f.em.resultSrcM = 0b01#2 → i.readData = j.readData) :
    (s.step x i).em = (f.step x j).em ∧
      (s.step x i).mw.regWriteW = (f.step x j).mw.regWriteW ∧
      (s.step x i).mw.instrW = (f.step x j).mw.instrW ∧
      (s.step x i).result = (f.step x j).result ∧
      (s.step x i).rf = (f.step x j).rf ∧ (s.step x i).tohost = (f.step x j).tohost := by
  refine ⟨?_, ?_, ?_, ?_, ?_, ?_⟩
  · rw [Cpu.step, Cpu.step, h.rd1EH, h.rd2EH, h.de]
  · exact congrArg StageEM.regWriteM h.em
  · exact congrArg StageEM.instrM h.em
  · have hs : (s.step x i).result = (s.em.toMW i.readData).result := rfl
    have hf : (f.step x j).result = (f.em.toMW j.readData).result := rfl
    rw [hs, hf, h.em, StageMW.result, StageMW.result]
    by_cases hload : f.em.resultSrcM = 0b01#2
    · rw [hread hload]
    · have hsrc : ∀ w, (f.em.toMW w).resultSrcW = f.em.resultSrcM := fun _ => rfl
      rw [hsrc, hsrc, mux3, mux3, if_neg hload, if_neg hload]
      rfl
  · rw [Cpu.step, Cpu.step, h.rf, h.regWriteW, h.instrW, h.result]
  · rw [Cpu.step, Cpu.step, h.rd1EH, h.de, h.tohost]

/-- **Agreement is kept** by cores that read the same words where it matters. -/
theorem step {o o' : Occupancy} (hslots : Slots x s o) (hslots' : Slots x f o') (i j : BusIn)
    (hw : SameWords x f (f.step x j) i j) : Agree x (s.step x i) (f.step x j) := by
  obtain ⟨hem, hwe, hinstr, hres, hrf, htohost⟩ := h.step_back i j hw.readData
  by_cases hp : f.pcSrc x = 0b00#2
  · have hp' : s.pcSrc x = 0b00#2 := (h.pcSrc x).trans hp
    have hstall : s.stall = f.stall := by
      rw [Cpu.stall, Cpu.stall, h.instrD hp, h.de]
    by_cases hst : f.stall = true
    · -- both fronts are held
      obtain ⟨hpcS, hfdS, hdeS⟩ := Cpu.step_of_stall (x := x) i (hstall.trans hst)
      obtain ⟨hpcF, hfdF, hdeF⟩ := Cpu.step_of_stall (x := x) j hst
      refine ⟨⟨?_, ?_, ?_, ?_, hem, hwe, hinstr, hres, hrf, htohost⟩, ?_⟩
      · rw [hpcS, hpcF, h.pc]
      · rw [hfdS, hfdF, h.pcD]
      · rw [hfdS, hfdF, h.pcPlus4D]
      · rw [hdeS, hdeF]
      · intro _
        rw [hfdS, hfdF, h.instrD hp]
    · -- both fronts move on
      replace hst := eq_false_of_ne_true hst
      obtain ⟨hpcS, hfdS, hdeS⟩ := Cpu.step_of_straight i (hstall.trans hst) hp'
      obtain ⟨hpcF, hfdF, hdeF⟩ := Cpu.step_of_straight j hst hp
      refine ⟨⟨?_, ?_, ?_, ?_, hem, hwe, hinstr, hres, hrf, htohost⟩, ?_⟩
      · rw [hpcS, hpcF, h.pc]
      · rw [hfdS, hfdF, h.pc]
      · rw [hfdS, hfdF, h.pc]
      · have hrd1 : s.rd1DH = f.rd1DH := by
          rw [Cpu.rd1DH, Cpu.rd1DH, Cpu.forwardAD, Cpu.forwardAD, h.instrD hp, h.operand]
        have hrd2 : s.rd2DH = f.rd2DH := by
          rw [Cpu.rd2DH, Cpu.rd2DH, Cpu.forwardBD, Cpu.forwardBD, h.instrD hp, h.operand]
        rw [hdeS, hdeF, h.instrD hp, hrd1, hrd2, h.pcD, h.pcPlus4D]
      · intro hpn
        rw [hfdS, hfdF]
        exact hw.instr hst hp hpn
  · -- both fronts are redirected
    have hp' : s.pcSrc x ≠ 0b00#2 := by rwa [h.pcSrc x]
    obtain ⟨hpcS, hfdS, hdeS⟩ := Cpu.step_of_pcSrc i (hslots.not_stall_of_pcSrc hp') hp'
    obtain ⟨hpcF, hfdF, hdeF⟩ := Cpu.step_of_pcSrc j (hslots'.not_stall_of_pcSrc hp) hp
    refine ⟨⟨?_, ?_, ?_, ?_, hem, hwe, hinstr, hres, hrf, htohost⟩, ?_⟩
    · rw [hpcS, hpcF, h.pcNext x]
    · rw [hfdS, hfdF]
    · rw [hfdS, hfdF]
    · rw [hdeS, hdeF]
    · intro _
      rw [hfdS, hfdF]

end Agree

/-! ### The two builds -/

/-- Agreement of the two builds, memory and peripherals included. -/
structure SystemAgree (x : XValues) (s f : System) : Prop where
  cpu : Agree x s.cpu f.cpu
  mem : s.mem = f.mem
  timer : s.timer = f.timer
  irqForce : s.irqForce = f.irqForce

namespace Boot
variable (b : Boot)

/-- The step of the `FPGA` build in cycle `t` reads the words the other build would read:
the word fetched is the one at the program counter, unless the front is held or the word is
squashed, and the word a load reads is the one at its address. -/
def FpgaStepOk (t : ℕ) : Prop :=
  SameWords b.x (b.fpga t).sys.cpu (b.fpga (t + 1)).sys.cpu
    ((b.fpga t).sys.busIn b.defines) (b.fpga t).busIn

instance (t : ℕ) : Decidable (b.FpgaStepOk t) :=
  decidable_of_iff
    (((b.fpga t).sys.cpu.stall = false → (b.fpga t).sys.cpu.pcSrc b.x = 0b00#2 →
        (b.fpga (t + 1)).sys.cpu.pcSrc b.x = 0b00#2 →
        ((b.fpga t).sys.busIn b.defines).instr = (b.fpga t).busIn.instr) ∧
      ((b.fpga t).sys.cpu.em.resultSrcM = 0b01#2 →
        ((b.fpga t).sys.busIn b.defines).readData = (b.fpga t).busIn.readData))
    ⟨fun ⟨hinstr, hread⟩ => ⟨hinstr, hread⟩, fun h => ⟨h.instr, h.readData⟩⟩

/-- What a build without `FPGA` reads depends on the agreeing parts only. -/
theorem busIn_eq {s f : System} (h : SystemAgree b.x s f) :
    s.busIn b.defines = f.busIn b.defines := by
  have hfetch : s.fetchWord = f.fetchWord := by
    rw [System.fetchWord, System.fetchWord, h.mem, h.cpu.pc]
  have hbus : s.cpu.busOut = f.cpu.busOut := by
    rw [Cpu.busOut, Cpu.busOut, h.cpu.em]
  have hread : s.readData b.defines = f.readData b.defines := by
    simp only [System.readData, System.select, System.readDataTimer, System.readDataTbman,
      System.readDataMem, System.timerBus, System.dataRe, System.dataWe, hbus, h.mem, h.timer,
      h.irqForce]
  rw [System.busIn, System.busIn, hfetch, hread]

/-- **The builds agree** as long as the `FPGA` build reads the words of the other. -/
theorem systemAgree {t : ℕ} (h : ∀ u, u < t → b.FpgaStepOk u) :
    SystemAgree b.x (b.system t) (b.fpga t).sys := by
  induction t with
  | zero =>
      exact ⟨⟨⟨rfl, rfl, rfl, rfl, rfl, rfl, rfl, rfl, rfl, rfl⟩, fun _ => rfl⟩, rfl, rfl, rfl⟩
  | succ t ih =>
      have hagree := ih fun u hu => h u (Nat.lt_succ_of_lt hu)
      have hbus : (b.system t).cpu.busOut = (b.fpga t).sys.cpu.busOut := by
        rw [Cpu.busOut, Cpu.busOut, hagree.cpu.em]
      have hok := h t (Nat.lt_succ_self t)
      rw [FpgaStepOk, ← b.busIn_eq hagree] at hok
      refine ⟨hagree.cpu.step (b.system_slots t) (b.fpga_slots t) _ _ hok, ?_, ?_, ?_⟩
      · rw [b.system_succ, b.fpga_succ, System.step, FpgaSystem.step, System.advance,
          System.advance, asyncRamDpWbe, dualportMemSynchRwDualclk]
        simp only [System.ramWe, System.dataWe, System.select, hbus, hagree.mem]
      · rw [b.system_succ, b.fpga_succ, System.step, FpgaSystem.step, System.advance,
          System.advance]
        simp only [System.timerBus, System.dataRe, System.dataWe, System.select, hbus,
          hagree.timer]
      · rw [b.system_succ, b.fpga_succ, System.step, FpgaSystem.step, System.advance,
          System.advance]
        simp only [System.dataWe, System.select, hbus, hagree.irqForce]

/-- The two builds write the same registers and make the same stores, in the same order. -/
def BuildsAgree : Prop :=
  Clocked.SameSequence (fun t => (b.system t).cpu.regWrite)
      (fun t => (b.fpga t).sys.cpu.regWrite) ∧
    Clocked.SameSequence (fun t => (b.system t).cpu.busWrite)
      (fun t => (b.fpga t).sys.cpu.busWrite)

/-- **When the builds do the same.** Up to any cycle `T` up to which every word the `FPGA`
build fetches or loads is the one at its own address, the builds have made the same register
writes and the same stores; and if all words are, they agree. -/
theorem builds_agree :
    (∀ T, (∀ t, t < T → b.FpgaStepOk t) →
      Clocked.log (fun t => (b.system t).cpu.regWrite) T =
          Clocked.log (fun t => (b.fpga t).sys.cpu.regWrite) T ∧
        Clocked.log (fun t => (b.system t).cpu.busWrite) T =
          Clocked.log (fun t => (b.fpga t).sys.cpu.busWrite) T) ∧
    ((∀ t, b.FpgaStepOk t) → b.BuildsAgree) := by
  have hlogs : ∀ T, (∀ t, t < T → b.FpgaStepOk t) →
      Clocked.log (fun t => (b.system t).cpu.regWrite) T =
          Clocked.log (fun t => (b.fpga t).sys.cpu.regWrite) T ∧
        Clocked.log (fun t => (b.system t).cpu.busWrite) T =
          Clocked.log (fun t => (b.fpga t).sys.cpu.busWrite) T := by
    intro T h
    have hwrites := fun u (hu : u < T) =>
      (b.systemAgree fun v hv => h v (lt_trans hv hu)).cpu.writes
    exact ⟨Clocked.log_congr fun u hu => (hwrites u hu).1,
      Clocked.log_congr fun u hu => (hwrites u hu).2⟩
  refine ⟨hlogs, ?_⟩
  intro h
  constructor
  · exact Clocked.SameSequence.of_log_eq fun T => (hlogs T fun t _ => h t).1
  · exact Clocked.SameSequence.of_log_eq fun T => (hlogs T fun t _ => h t).2

end Boot

/-! ### Programs without loads and stores -/

/-- The word is neither a load nor a store. -/
def NoAccess (instr : Word) : Prop := opcode instr ≠ opcLoad ∧ opcode instr ≠ opcStore

instance (instr : Word) : Decidable (NoAccess instr) := inferInstanceAs (Decidable (_ ∧ _))

/-- No slot of the core holds a load or a store. -/
structure Cpu.NoAccesses (s : Cpu) : Prop where
  instrD : NoAccess s.fd.instrD
  instrE : NoAccess s.de.instrE
  instrM : NoAccess s.em.instrM

theorem NoAccess.zero : NoAccess 0#32 := by
  simp [NoAccess, opcode]

theorem Cpu.NoAccesses.reset (rf : RegFile) : (Cpu.reset rf).NoAccesses := by
  have hnop : NoAccess 0x00000033#32 := by simp [NoAccess, opcode]
  exact ⟨hnop, hnop, hnop⟩

/-- A core that fetches no loads and stores goes on holding none. -/
theorem Cpu.NoAccesses.step {x : XValues} {s : Cpu} (h : s.NoAccesses) {i : BusIn}
    (hi : NoAccess i.instr) : (s.step x i).NoAccesses := by
  by_cases hs : s.stall = true
  · obtain ⟨-, hfd, hde⟩ := Cpu.step_of_stall (x := x) i hs
    refine ⟨?_, ?_, h.instrE⟩
    · rw [hfd]
      exact h.instrD
    · rw [hde]
      exact NoAccess.zero
  · replace hs := eq_false_of_ne_true hs
    by_cases hp : s.pcSrc x = 0b00#2
    · obtain ⟨-, hfd, hde⟩ := Cpu.step_of_straight i hs hp
      refine ⟨?_, ?_, h.instrE⟩
      · rw [hfd]
        exact hi
      · rw [hde]
        exact h.instrD
    · obtain ⟨-, hfd, hde⟩ := Cpu.step_of_pcSrc i hs hp
      refine ⟨?_, ?_, h.instrE⟩
      · rw [hfd]
        exact NoAccess.zero
      · rw [hde]
        exact NoAccess.zero

/-- Without a store in Memory the write strobe is off. -/
theorem Slots.memWriteM_of_noAccesses {x : XValues} {s : Cpu} {o : Occupancy}
    (h : Slots x s o) (hna : s.NoAccesses) : s.em.memWriteM = false := by
  cases hm : o.m with
  | false => exact (h.idleM hm).memWriteM
  | true =>
      rw [(h.decodedM hm).memWriteM]
      refine eq_false_of_ne_true ?_
      intro hmw
      exact hna.instrM.2 ((controller_memWrite x _).mp hmw)

/-- The system reads the timer in this cycle: a load in Memory addresses it. -/
def System.ReadsTimer (s : System) (o : Occupancy) : Prop :=
  o.m = true ∧ opcode s.cpu.em.instrM = opcLoad ∧ s.select.csTimerN = false

namespace Boot
variable (b : Boot)

/-- The program reads the timer in neither build. -/
def TimerFree : Prop :=
  ∀ t, ¬(b.system t).ReadsTimer (b.systemRun.occ t) ∧
    ¬(b.fpga t).sys.ReadsTimer (b.fpgaRun.occ t)

section
variable (h : ∀ a, NoAccess (b.image a))
include h

theorem system_noAccesses (t : ℕ) :
    (b.system t).cpu.NoAccesses ∧ (b.system t).mem = b.image := by
  induction t with
  | zero => exact ⟨Cpu.NoAccesses.reset b.rf, rfl⟩
  | succ t ih =>
      obtain ⟨hna, hmem⟩ := ih
      have hmw := (b.system_slots t).memWriteM_of_noAccesses hna
      have hfetch : NoAccess ((b.system t).busIn b.defines).instr := by
        rw [System.busIn, System.fetchWord, hmem]
        exact h _
      have hwe : (b.system t).ramWe = false := by
        rw [System.ramWe, System.dataWe, Cpu.busOut, StageEM.busOut, hmw, Bool.false_and]
      refine ⟨hna.step hfetch, ?_⟩
      rw [b.system_succ, System.step, hwe, hmem]
      rfl

theorem fpga_noAccesses (t : ℕ) :
    (b.fpga t).sys.cpu.NoAccesses ∧ (b.fpga t).sys.mem = b.image ∧
      ∃ a, (b.fpga t).regs.dataReg1 = b.image a := by
  induction t with
  | zero => exact ⟨Cpu.NoAccesses.reset b.rf, rfl, _, rfl⟩
  | succ t ih =>
      obtain ⟨hna, hmem, a, hreg⟩ := ih
      have hfetch : NoAccess (b.fpga t).busIn.instr := by
        rw [FpgaSystem.busIn, hreg]
        exact h a
      have hmw := (b.fpga_slots t).memWriteM_of_noAccesses hna
      have hwe : (b.fpga t).sys.ramWe = false := by
        rw [System.ramWe, System.dataWe, Cpu.busOut, StageEM.busOut, hmw, Bool.false_and]
      refine ⟨hna.step hfetch, ?_, ramAddr (b.fpga t).sys.cpu.pc, ?_⟩
      · rw [b.fpga_succ, FpgaSystem.step, hwe, hmem]
        rfl
      · have hnext : (b.fpga (t + 1)).regs.dataReg1 = (b.fpga t).sys.fetchWord := rfl
        rw [hnext, System.fetchWord, hmem]

/-- A program without loads and stores does not read the timer. -/
theorem timerFree_of_noAccess : b.TimerFree := by
  intro t
  constructor
  · rintro ⟨-, hload, -⟩
    exact (b.system_noAccesses h t).1.instrM.1 hload
  · rintro ⟨-, hload, -⟩
    exact (b.fpga_noAccesses h t).1.instrM.1 hload

/-- In a RAM full of one word it does not matter at which address a word is fetched. -/
theorem fpgaStepOk_of_constant {w : Word} (himage : ∀ a, b.image a = w) (t : ℕ) :
    b.FpgaStepOk t := by
  obtain ⟨hna, hmem, a, hreg⟩ := b.fpga_noAccesses h t
  constructor
  · intro _ _ _
    rw [System.busIn, System.fetchWord, FpgaSystem.busIn, hmem, hreg, himage, himage]
  · intro hsrc
    cases hm : (b.fpgaRun.occ t).m with
    | false => simp [((b.fpga_slots t).idleM hm).resultSrcM] at hsrc
    | true =>
        rw [((b.fpga_slots t).decodedM hm).resultSrcM] at hsrc
        exact absurd ((controller_resultSrc_01 b.x _).mp hsrc) hna.instrM.1

end

end Boot

/-! ### Programs -/

/-- A RAM full of `addi x1, x1, 1`. -/
def countingBoot : Boot :=
  { x := ⟨0#3, 0#5, 0#32, 0#32, 0#32⟩
    image := fun _ => 0x00108093#32
    rf := fun _ => 0#32
    sim := true }

/-- `lw x1, 0(x1)` twice, `addi x3, x1, 1`, `jal x1, 8` over one word, and `j .`, again two words
behind, with `x1` pointing to the first word, and that word again where it points as an
address. Each word is fetched behind the same word, in a load-use stall, or behind a jump over
one word, and the loads find the first word at address 0. -/
def heldBoot : Boot :=
  { x := ⟨0#3, 0#5, 0#32, 0#32, 0#32⟩
    image := fun a => if a = 0#17 then 0x0000A083#32 else if a = 1#17 then 0x0000A083#32
      else if a = 2#17 then 0x00108193#32 else if a = 3#17 then 0x008000EF#32
      else if a = 5#17 then 0x0000006F#32 else if a = 7#17 then 0x0000006F#32
      else if a = 0x2820#17 then 0x0000A083#32 else 0#32
    rf := fun i => if i = 1#5 then 0x10000000#32 else 0#32
    sim := true }

/-- Both builds count, for ever; and they load, stall and jump alike. -/
theorem counting_builds_agree :
    (Clocked.log (fun t => (countingBoot.fpga t).sys.cpu.regWrite) 8 =
        [(1#5, 1#32), (1#5, 2#32), (1#5, 3#32), (1#5, 4#32)] ∧
      countingBoot.BuildsAgree) ∧
    Clocked.log (fun t => (heldBoot.fpga t).sys.cpu.regWrite) 14 =
      [(1#5, 0x0000A083#32), (1#5, 0x0000A083#32), (3#5, 0x0000A084#32), (1#5, 0x10000010#32)] ∧
    Clocked.log (fun t => (heldBoot.system t).cpu.regWrite) 14 =
      Clocked.log (fun t => (heldBoot.fpga t).sys.cpu.regWrite) 14 := by
  have hna : ∀ a, NoAccess (countingBoot.image a) := by
    simp [countingBoot, NoAccess, opcode]
  obtain ⟨-, hagree⟩ := countingBoot.builds_agree
  obtain ⟨hlogs, -⟩ := heldBoot.builds_agree
  obtain ⟨hregs, -⟩ := hlogs 14 (by decide +kernel)
  exact ⟨⟨by decide +kernel, hagree (countingBoot.fpgaStepOk_of_constant hna fun _ => rfl)⟩,
    by decide +kernel, hregs⟩

/-- `addi x1, x1, 1` and `addi x2, x0, 5` at the reset address. -/
def mispairBoot : Boot :=
  { x := ⟨0#3, 0#5, 0#32, 0#32, 0#32⟩
    image := fun a => if a = 0#17 then 0x00108093#32 else if a = 1#17 then 0x00500113#32
      else 0#32
    rf := fun _ => 0#32
    sim := true }

/-- The `FPGA` build executes the first of them twice, the second time with the program
counter of the second. -/
theorem mispair_not_buildsAgree : mispairBoot.TimerFree ∧ ¬mispairBoot.BuildsAgree := by
  constructor
  · refine mispairBoot.timerFree_of_noAccess ?_
    intro a
    change NoAccess (if a = 0#17 then 0x00108093#32 else if a = 1#17 then 0x00500113#32
      else 0#32)
    split_ifs <;> simp [NoAccess, opcode]
  · rintro ⟨hreg, -⟩
    have hsim : Clocked.log (fun t => (mispairBoot.system t).cpu.regWrite) 6 =
        [(1#5, 1#32), (2#5, 5#32)] := by
      decide +kernel
    have hfpga : Clocked.log (fun t => (mispairBoot.fpga t).sys.cpu.regWrite) 6 =
        [(1#5, 1#32), (1#5, 2#32)] := by
      decide +kernel
    have hprefix := hreg.prefix_or_prefix 6 6
    simp [hsim, hfpga] at hprefix

end SmuRv32im
