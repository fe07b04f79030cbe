import SmuRv32im.System

/-!
# Which Slots Hold Instructions

The pipeline has no valid bits: a slot that holds no instruction holds a word that does
nothing, either the all-zero word of a flush or a stall, or the `add x0, x0, x0` of reset.
`Occupancy` is the ghost state that tells the two apart. It follows the enables and clears
of the pipeline registers and nothing else: a slot is occupied when it holds a word
fetched since reset that no flush has squashed.

`Slots` relates it to the core. An occupied slot holds the decoding of its word; an empty
one holds control signals and register fields that have no effect. It is the invariant all
results about runs start from.

## Main results

* `Run.slots`: the invariant holds in every cycle of every run.
* `Run.not_stall_and_flushD`, `Run.not_stall_succ`: a stall never meets a flush of Decode,
  and never lasts.
-/

namespace SmuRv32im

/-- Which of Decode, Execute, Memory and Writeback hold an instruction that was fetched
and not squashed. -/
structure Occupancy where
  d : Bool
  e : Bool
  m : Bool
  w : Bool

/-- One clock cycle: Decode keeps its instruction in a stall and loses the fetched one in
a flush; Execute takes what Decode held unless it is cleared. -/
def Occupancy.next (x : XValues) (o : Occupancy) (s : Cpu) : Occupancy :=
  { d := if s.stall = true then o.d else !s.flushD x
    e := !s.flushE x && o.d
    m := o.e
    w := o.m }

/-- The occupancy in cycle `t` of a run; at reset release no slot is occupied. -/
def Run.occ (r : Run) : ℕ → Occupancy :=
  Clocked.run (fun t o => o.next r.x (r.cpu t)) ⟨false, false, false, false⟩

@[simp] theorem Run.occ_zero (r : Run) : r.occ 0 = ⟨false, false, false, false⟩ := rfl

theorem Run.occ_succ (r : Run) (t : ℕ) : r.occ (t + 1) = (r.occ t).next r.x (r.cpu t) :=
  rfl

/-! ### Words without effect -/

/-- The two words that fill an empty Decode slot. -/
def IdleWord (instr : Word) : Prop := instr = 0#32 ∨ instr = 0x00000033#32

theorem IdleWord.rd {instr : Word} (h : IdleWord instr) : rd instr = 0#5 := by
  rcases h with rfl | rfl <;> rfl

theorem IdleWord.rs1 {instr : Word} (h : IdleWord instr) : rs1 instr = 0#5 := by
  rcases h with rfl | rfl <;> rfl

theorem IdleWord.rs2 {instr : Word} (h : IdleWord instr) : rs2 instr = 0#5 := by
  rcases h with rfl | rfl <;> rfl

/-- The Execute slot is empty: no control signal acts, no register is named, and the
operands are zero. -/
structure StageDE.Idle (de : StageDE) : Prop where
  branchE : de.branchE = false
  jalE : de.jalE = false
  jalrE : de.jalrE = false
  resultSrcE : de.resultSrcE = 0b00#2
  memWriteE : de.memWriteE = false
  aluControlE : de.aluControlE = 0b00000#5
  aluSrcAE : de.aluSrcAE = 0b00#2
  aluSrcBE : de.aluSrcBE = false
  csrE : de.csrE = false
  rd : rd de.instrE = 0#5
  rs1 : rs1 de.instrE = 0#5
  rs2 : rs2 de.instrE = 0#5
  rd1E : de.rd1E = 0#32
  rd2E : de.rd2E = 0#32

/-- The Memory slot is empty. -/
structure StageEM.Idle (em : StageEM) : Prop where
  resultSrcM : em.resultSrcM = 0b00#2
  memWriteM : em.memWriteM = false
  aluResultM : em.aluResultM = 0#32
  rd : rd em.instrM = 0#5

/-- The Writeback slot is empty. -/
structure StageMW.Idle (mw : StageMW) : Prop where
  rd : rd mw.instrW = 0#5

theorem StageDE.Idle.bubble : StageDE.bubble.Idle where
  branchE := rfl
  jalE := rfl
  jalrE := rfl
  resultSrcE := rfl
  memWriteE := rfl
  aluControlE := rfl
  aluSrcAE := rfl
  aluSrcBE := rfl
  csrE := rfl
  rd := IdleWord.rd (Or.inl rfl)
  rs1 := IdleWord.rs1 (Or.inl rfl)
  rs2 := IdleWord.rs2 (Or.inl rfl)
  rd1E := rfl
  rd2E := rfl

/-- Decoding an idle word on zero operands leaves Execute empty. -/
theorem StageDE.Idle.decodeStage (x : XValues) {instr : Word} (h : IdleWord instr)
    (pc pcPlus4 : Word) : (decodeStage x instr 0#32 0#32 pc pcPlus4).Idle := by
  have hrd := h.rd
  have hrs1 := h.rs1
  have hrs2 := h.rs2
  rcases h with rfl | rfl
  all_goals exact ⟨rfl, rfl, rfl, rfl, rfl, rfl, rfl, rfl, rfl, hrd, hrs1, hrs2, rfl, rfl⟩

theorem StageDE.Idle.reset : StageDE.reset.Idle where
  branchE := rfl
  jalE := rfl
  jalrE := rfl
  resultSrcE := rfl
  memWriteE := rfl
  aluControlE := rfl
  aluSrcAE := rfl
  aluSrcBE := rfl
  csrE := rfl
  rd := IdleWord.rd (Or.inr rfl)
  rs1 := IdleWord.rs1 (Or.inr rfl)
  rs2 := IdleWord.rs2 (Or.inr rfl)
  rd1E := rfl
  rd2E := rfl

/-! ### Decoded slots -/

/-- The Execute slot holds the decoding of its word. -/
def StageDE.Decoded (x : XValues) (de : StageDE) : Prop :=
  de = decodeStage x de.instrE de.rd1E de.rd2E de.pcE de.pcPlus4E

/-- The Memory slot holds the control signals of its word. -/
structure StageEM.Decoded (x : XValues) (em : StageEM) : Prop where
  resultSrcM : em.resultSrcM = (controller x em.instrM).resultSrc
  memWriteM : em.memWriteM = (controller x em.instrM).memWrite
  regWriteM : em.regWriteM = (controller x em.instrM).regWrite

/-- The Writeback slot holds the control signals of its word. -/
structure StageMW.Decoded (x : XValues) (mw : StageMW) : Prop where
  resultSrcW : mw.resultSrcW = (controller x mw.instrW).resultSrc
  regWriteW : mw.regWriteW = (controller x mw.instrW).regWrite

namespace StageDE.Decoded
variable {x : XValues} {de : StageDE} (h : de.Decoded x)
include h

theorem branchE : de.branchE = true ↔ opcode de.instrE = opcBranch := by
  rw [h]
  exact controller_branch x _

theorem jalE : de.jalE = true ↔ opcode de.instrE = opcJal := by
  rw [h]
  exact controller_jal x _

theorem jalrE : de.jalrE = true ↔ opcode de.instrE = opcJalr := by
  rw [h]
  exact controller_jalr x _

theorem csrE : de.csrE = true ↔ opcode de.instrE = opcCsr := by
  rw [h]
  exact controller_csr x _

theorem resultSrcE_zero :
    de.resultSrcE.getLsbD 0 = true ↔ opcode de.instrE = opcLoad := by
  rw [h]
  exact controller_resultSrc_zero x _

theorem immExtE : de.immExtE = immExt x de.instrE := by
  rw [h]
  rfl

end StageDE.Decoded

/-! ### The forwarding network around empty slots -/

/-- Register 0 is never forwarded. -/
theorem forward_zero (rdM rdW : BitVec 5) (weM weW : Bool) :
    forward 0#5 rdM weM rdW weW = 0b00#2 := by
  simp [forward]

theorem RegFile.read_zero (rf : RegFile) : rf.read 0#5 = 0#32 := rfl

namespace Cpu
variable (x : XValues) (s : Cpu)

theorem rd1DH_of_idle (h : IdleWord s.fd.instrD) : s.rd1DH = 0#32 := by
  rw [rd1DH, forwardAD, forwardSel, h.rs1, forward_zero, mux3_00, RegFile.read_zero]

theorem rd2DH_of_idle (h : IdleWord s.fd.instrD) : s.rd2DH = 0#32 := by
  rw [rd2DH, forwardBD, forwardSel, h.rs2, forward_zero, mux3_00, RegFile.read_zero]

theorem rd1EH_of_idle (h : s.de.Idle) : s.rd1EH = 0#32 := by
  rw [rd1EH, forwardA, forwardSel, h.rs1, forward_zero, mux3_00, h.rd1E]

theorem rd2EH_of_idle (h : s.de.Idle) : s.rd2EH = 0#32 := by
  rw [rd2EH, forwardB, forwardSel, h.rs2, forward_zero, mux3_00, h.rd2E]

/-- An empty Execute slot does not redirect the program counter. -/
theorem pcSrc_of_idle (h : s.de.Idle) : s.pcSrc x = 0b00#2 := by
  rw [pcSrc, StageDE.pcSrc, h.branchE, h.jalE, h.jalrE]
  simp [branchLogic, btaken_false]

/-- The word in Decode stalls only behind a load. -/
theorem resultSrcE_of_stall (h : s.stall = true) : s.de.resultSrcE.getLsbD 0 = true := by
  rw [stall, lwStall, Bool.and_eq_true] at h
  exact h.2

theorem not_stall_of_idle (h : s.de.Idle) : s.stall = false := by
  rw [stall, lwStall, h.resultSrcE]
  simp

theorem flushD_eq_true : s.flushD x = true ↔ s.pcSrc x ≠ 0b00#2 := by
  simp [flushD]

end Cpu

/-! ### The three kinds of cycles

A cycle stalls, redirects or goes straight on. The two lemmas of each kind say what the
front of the pipeline holds afterwards, and which slots are occupied. -/

namespace Cpu
variable {x : XValues} {s : Cpu} (i : BusIn) (o : Occupancy)

/-- A stall holds the program counter and Decode, and sends a bubble to Execute. -/
theorem step_of_stall (hs : s.stall = true) :
    (s.step x i).pc = s.pc ∧ (s.step x i).fd = s.fd ∧
      (s.step x i).de = StageDE.bubble := by
  have hE : s.flushE x = true := by rw [flushE, hs, Bool.true_or]
  refine ⟨?_, ?_, ?_⟩
  · rw [step, hs, Bool.not_true, flopenr_false]
  · rw [step, hs, stageFD]
    rfl
  · rw [step, hE, stageDE, flopr_eq, if_pos rfl]

/-- A redirection loads the target and squashes Decode and Execute. -/
theorem step_of_pcSrc (hs : s.stall = false) (hp : s.pcSrc x ≠ 0b00#2) :
    (s.step x i).pc = s.pcNext x ∧ (s.step x i).fd = ⟨0#32, 0#32, 0#32⟩ ∧
      (s.step x i).de = StageDE.bubble := by
  have hD : s.flushD x = true := by rw [flushD, if_neg hp]
  have hE : s.flushE x = true := by rw [flushE, bne_iff_ne.mpr hp, Bool.or_true]
  refine ⟨?_, ?_, ?_⟩
  · rw [step, hs, Bool.not_false, flopenr_true]
  · rw [step, hs, hD, stageFD, if_pos rfl]
    rfl
  · rw [step, hE, stageDE, flopr_eq, if_pos rfl]

/-- A cycle that goes straight on fetches the next word and decodes the last one. -/
theorem step_of_straight (hs : s.stall = false) (hp : s.pcSrc x = 0b00#2) :
    (s.step x i).pc = s.pc + 4#32 ∧ (s.step x i).fd = ⟨i.instr, s.pc, s.pc + 4#32⟩ ∧
      (s.step x i).de =
        decodeStage x s.fd.instrD s.rd1DH s.rd2DH s.fd.pcD s.fd.pcPlus4D := by
  have hD : s.flushD x = false := by rw [flushD, if_pos hp]
  have hE : s.flushE x = false := by rw [flushE, hs, hp, Bool.false_or, bne_self_eq_false]
  have hF : s.pcPlus4F = s.pc + 4#32 := by rw [pcPlus4F, adder_sum_false]
  have hN : s.pcNext x = s.pc + 4#32 := by
    have hp' : s.de.pcSrc x s.rd1EH s.rd2EH = 0b00#2 := hp
    rw [pcNext, StageDE.pcNext, hp', mux3_00, hF]
  refine ⟨?_, ?_, ?_⟩
  · rw [step, hs, Bool.not_false, flopenr_true, hN]
  · rw [step, hs, hD, hF, stageFD, if_neg Bool.false_ne_true]
    rfl
  · rw [step, hE, stageDE, flopr_eq, if_neg Bool.false_ne_true]

end Cpu

namespace Occupancy
variable {x : XValues} {s : Cpu} (o : Occupancy)

theorem next_of_stall (hs : s.stall = true) : o.next x s = ⟨o.d, false, o.e, o.m⟩ := by
  simp [next, hs, Cpu.flushE]

theorem next_of_pcSrc (hs : s.stall = false) (hp : s.pcSrc x ≠ 0b00#2) :
    o.next x s = ⟨false, false, o.e, o.m⟩ := by
  simp [next, hs, hp, Cpu.flushE, Cpu.flushD]

theorem next_of_straight (hs : s.stall = false) (hp : s.pcSrc x = 0b00#2) :
    o.next x s = ⟨true, o.d, o.e, o.m⟩ := by
  simp [next, hs, hp, Cpu.flushE, Cpu.flushD]

end Occupancy

/-- What an empty Execute slot hands on is an empty Memory slot. -/
theorem StageDE.Idle.toEM {x : XValues} {de : StageDE} (h : de.Idle) :
    (de.toEM x 0#32 0#32).Idle where
  resultSrcM := h.resultSrcE
  memWriteM := h.memWriteE
  aluResultM := by
    have hA : de.srcA 0#32 = 0#32 := by rw [StageDE.srcA, h.aluSrcAE, mux3_00]
    have hB : de.srcB 0#32 = 0#32 := by rw [StageDE.srcB, h.aluSrcBE, mux2_false]
    change (de.aluOut x 0#32 0#32).result = 0#32
    rw [StageDE.aluOut, hA, hB, h.aluControlE, alu_add, BitVec.add_zero]
  rd := h.rd

/-! ### The invariant -/

/-- **The slot invariant.** -/
structure Slots (x : XValues) (s : Cpu) (o : Occupancy) : Prop where
  idleD : o.d = false → IdleWord s.fd.instrD
  decodedE : o.e = true → s.de.Decoded x
  idleE : o.e = false → s.de.Idle
  decodedM : o.m = true → s.em.Decoded x
  idleM : o.m = false → s.em.Idle
  decodedW : o.w = true → s.mw.Decoded x
  idleW : o.w = false → s.mw.Idle
  /-- An instruction in Execute is followed by one in Decode. -/
  behindE : o.e = true → o.d = true

namespace Slots
variable {x : XValues} {s : Cpu} {o : Occupancy}

theorem reset (x : XValues) (rf : RegFile) :
    Slots x (Cpu.reset rf) ⟨false, false, false, false⟩ where
  idleD _ := Or.inr rfl
  decodedE h := absurd h (by simp)
  idleE _ := StageDE.Idle.reset
  decodedM h := absurd h (by simp)
  idleM _ := ⟨rfl, rfl, rfl, IdleWord.rd (Or.inr rfl)⟩
  decodedW h := absurd h (by simp)
  idleW _ := ⟨IdleWord.rd (Or.inr rfl)⟩
  behindE h := absurd h (by simp)

/-- Only an instruction in Execute stalls Decode. -/
theorem e_of_stall (h : Slots x s o) (hs : s.stall = true) : o.e = true := by
  by_contra he
  have hidle := h.idleE (by simpa using he)
  simp [s.not_stall_of_idle hidle] at hs

/-- Only an instruction in Execute redirects the program counter. -/
theorem e_of_pcSrc (h : Slots x s o) (hp : s.pcSrc x ≠ 0b00#2) : o.e = true := by
  by_contra he
  exact hp (s.pcSrc_of_idle x (h.idleE (by simpa using he)))

/-- What redirects the program counter is a branch or a jump. -/
theorem opcode_of_pcSrc (h : Slots x s o) (hp : s.pcSrc x ≠ 0b00#2) :
    opcode s.de.instrE = opcBranch ∨ opcode s.de.instrE = opcJal ∨
      opcode s.de.instrE = opcJalr := by
  have hdec := h.decodedE (h.e_of_pcSrc hp)
  rcases branchLogic_ne_zero.mp hp with hb | hj | hj
  · left
    refine hdec.branchE.mp ?_
    by_contra hbr
    simp [eq_false_of_ne_true hbr, btaken_false] at hb
  · exact Or.inr (Or.inl (hdec.jalE.mp hj))
  · exact Or.inr (Or.inr (hdec.jalrE.mp hj))

/-- A redirecting instruction is not a load, so it does not stall Decode. -/
theorem not_stall_of_pcSrc (h : Slots x s o) (hp : s.pcSrc x ≠ 0b00#2) :
    s.stall = false := by
  have hdec := h.decodedE (h.e_of_pcSrc hp)
  by_contra hs
  have hload : opcode s.de.instrE = opcLoad :=
    hdec.resultSrcE_zero.mp (s.resultSrcE_of_stall (eq_true_of_ne_false hs))
  have hjump := h.opcode_of_pcSrc hp
  simp [hload] at hjump

/-- The front of the pipeline, Decode and Execute, keeps the invariant. -/
private theorem step_front (h : Slots x s o) (i : BusIn) :
    ((o.next x s).d = false → IdleWord (s.step x i).fd.instrD) ∧
    ((o.next x s).e = true → (s.step x i).de.Decoded x) ∧
    ((o.next x s).e = false → (s.step x i).de.Idle) ∧
    ((o.next x s).e = true → (o.next x s).d = true) := by
  by_cases hs : s.stall = true
  · obtain ⟨-, hfd, hde⟩ := Cpu.step_of_stall (x := x) i hs
    rw [o.next_of_stall hs, hfd, hde]
    refine ⟨h.idleD, by simp, ?_, by simp⟩
    intro _
    exact StageDE.Idle.bubble
  · replace hs := eq_false_of_ne_true hs
    by_cases hp : s.pcSrc x = 0b00#2
    · obtain ⟨-, hfd, hde⟩ := Cpu.step_of_straight i hs hp
      rw [o.next_of_straight hs hp, hfd, hde]
      refine ⟨by simp, fun _ => rfl, ?_, fun _ => rfl⟩
      intro hd
      rw [s.rd1DH_of_idle (h.idleD hd), s.rd2DH_of_idle (h.idleD hd)]
      exact StageDE.Idle.decodeStage x (h.idleD hd) _ _
    · obtain ⟨-, hfd, hde⟩ := Cpu.step_of_pcSrc i hs hp
      rw [o.next_of_pcSrc hs hp, hfd, hde]
      refine ⟨fun _ => Or.inl rfl, by simp, ?_, by simp⟩
      intro _
      exact StageDE.Idle.bubble

/-- **A clock cycle keeps the slot invariant**, whatever the buses carry. -/
theorem step (h : Slots x s o) (i : BusIn) : Slots x (s.step x i) (o.next x s) := by
  obtain ⟨hidleD, hdecE, hidleE, hbehind⟩ := h.step_front i
  refine ⟨hidleD, hdecE, hidleE, ?_, ?_, ?_, ?_, hbehind⟩
  · intro he
    have hde := h.decodedE he
    constructor
    · exact congrArg StageDE.resultSrcE hde
    · exact congrArg StageDE.memWriteE hde
    · exact congrArg StageDE.regWriteE hde
  · intro he
    have hde := h.idleE he
    have hem : (s.step x i).em = s.de.toEM x 0#32 0#32 := by
      rw [Cpu.step, flopr_eq, s.rd1EH_of_idle hde, s.rd2EH_of_idle hde]
    rw [hem]
    exact hde.toEM
  · intro hm
    have hem := h.decodedM hm
    exact ⟨hem.resultSrcM, hem.regWriteM⟩
  · intro hm
    exact ⟨(h.idleM hm).rd⟩

end Slots

/-! ### Runs -/

/-- **The slot invariant holds in every cycle of every run.** -/
theorem Run.slots (r : Run) (t : ℕ) : Slots r.x (r.cpu t) (r.occ t) :=
  @Clocked.run_simulation Cpu Occupancy (fun t s => s.step r.x (r.bus t))
    (fun t o => o.next r.x (r.cpu t)) _ _ (fun _ s o => Slots r.x s o) (Slots.reset r.x r.rf)
    (fun t h => h.step (r.bus t)) t

theorem Boot.system_slots (b : Boot) (t : ℕ) :
    Slots b.x (b.system t).cpu (b.systemRun.occ t) := by
  rw [← b.systemRun_cpu]
  exact b.systemRun.slots t

theorem Boot.fpga_slots (b : Boot) (t : ℕ) :
    Slots b.x (b.fpga t).sys.cpu (b.fpgaRun.occ t) := by
  rw [← b.fpgaRun_cpu]
  exact b.fpgaRun.slots t

theorem Boot.inBuild_slots (b : Boot) (fpga : Bool) (t : ℕ) :
    Slots b.x (b.inBuild fpga t).cpu ((b.buildRun fpga).occ t) := by
  cases fpga with
  | false => exact b.system_slots t
  | true => exact b.fpga_slots t

/-- A stall and a flush of Decode never meet, so no flush is lost to the disabled
`stage_F_D`. -/
theorem Run.not_stall_and_flushD (r : Run) (t : ℕ) :
    ¬((r.cpu t).stall = true ∧ (r.cpu t).flushD r.x = true) := by
  rintro ⟨hs, hf⟩
  have hp := ((r.cpu t).flushD_eq_true r.x).mp hf
  simp [(r.slots t).not_stall_of_pcSrc hp] at hs

/-- A stall lasts one cycle. -/
theorem Run.not_stall_succ (r : Run) (t : ℕ) (hs : (r.cpu t).stall = true) :
    (r.cpu (t + 1)).stall = false := by
  obtain ⟨-, -, hde⟩ := Cpu.step_of_stall (x := r.x) (r.bus t) hs
  refine Cpu.not_stall_of_idle _ ?_
  rw [r.cpu_succ, hde]
  exact StageDE.Idle.bubble

end SmuRv32im
