import SmuRv32im.CycleAccounting

/-!
# Forwarding

Neither the hazard unit nor the forwarding multiplexers look at the kind of the
instruction they forward from. Two facts about reachable states make them right.

A word in Execute never names the destination of an instruction in Memory whose result is
not yet its ALU result: behind a load the word would have been stalled, behind a jump it
would have been squashed (`Forwarding.finished`). And what Decode captured for a source
register is the content of the register file, unless the instruction now in Writeback
writes that register, in which case the captured value is overridden (`Captured`). The
captured value may well be wrong then: it is the address where the source is a load.

## Main results

* `Cpu.operand_eq`: the forwarding multiplexer as a choice between four values.
* `Run.forwarding`: both facts hold in every cycle of every run.
* `memory_forward_finished`: what Execute takes from Memory is a finished result, while
  Decode does capture the address of a load.
-/

namespace SmuRv32im

/-! ### The forwarding multiplexer -/

namespace Cpu
variable (s : Cpu) (rs : BitVec 5) (v : Word)

/-- The operand for the source register `rs`, of which `v` was read. -/
def operand : Word := mux3 v s.result s.em.aluResultM (s.forwardSel rs)

theorem rd1EH_eq : s.rd1EH = s.operand (rs1 s.de.instrE) s.de.rd1E := rfl

theorem rd2EH_eq : s.rd2EH = s.operand (rs2 s.de.instrE) s.de.rd2E := rfl

/-- Memory comes before Writeback, and register 0 is never forwarded. -/
theorem operand_eq :
    s.operand rs v =
      if rs = 0#5 then v
      else if rs = rd s.em.instrM ∧ s.em.regWriteM = true then s.em.aluResultM
      else if rs = rd s.mw.instrW ∧ s.mw.regWriteW = true then s.result
      else v := by
  rw [operand, forwardSel, forward]
  by_cases h0 : rs = 0#5
  · rw [if_neg fun h => h.2 h0, if_neg fun h => h.2 h0, if_pos h0, mux3_00]
  · rw [if_neg h0]
    by_cases hM : rs = rd s.em.instrM ∧ s.em.regWriteM = true
    · rw [if_pos ⟨hM, h0⟩, if_pos hM, mux3_10]
    · rw [if_neg fun h => hM h.1, if_neg hM]
      by_cases hW : rs = rd s.mw.instrW ∧ s.mw.regWriteW = true
      · rw [if_pos ⟨hW, h0⟩, if_pos hW, mux3_01]
      · rw [if_neg fun h => hW h.1, if_neg hW, mux3_00]

end Cpu

/-! ### The register file -/

namespace RegFile
variable (rf : RegFile) (rs : BitVec 5)

theorem read_of_ne (h : rs ≠ 0#5) : rf.read rs = rf rs := if_pos h

/-- A read after a write: the written value, except from register 0. -/
theorem read_write (we : Bool) (wa : BitVec 5) (wd : Word) :
    (rf.write we wa wd).read rs =
      if rs = 0#5 then 0#32
      else if rs = wa ∧ we = true then wd
      else rf.read rs := by
  by_cases h0 : rs = 0#5
  · subst h0
    rw [if_pos rfl, read_zero]
  · rw [if_neg h0, read_of_ne _ _ h0, read_of_ne _ _ h0, write]
    by_cases hwa : rs = wa ∧ we = true
    · rw [if_pos ⟨h0, hwa⟩, if_pos hwa]
    · rw [if_neg fun h => hwa h.2, if_neg hwa]

end RegFile

/-! ### The invariant -/

/-- `v` is what the register file holds for the source register `rs`, unless Writeback is
about to write that register. -/
def Cpu.Captured (s : Cpu) (rs : BitVec 5) (v : Word) : Prop :=
  ¬(rs ≠ 0#5 ∧ rs = rd s.mw.instrW ∧ s.mw.regWriteW = true) → v = s.rf.read rs

/-- What Decode captures is captured correctly one cycle later: where it was taken from
Memory, the source is in Writeback by then. -/
theorem Cpu.captured_step (x : XValues) (s : Cpu) (i : BusIn) (rs : BitVec 5) :
    (s.step x i).Captured rs (s.operand rs (s.rf.read rs)) := by
  intro hW
  have hrf : (s.step x i).rf.read rs =
      (s.rf.write s.mw.regWriteW (rd s.mw.instrW) s.result).read rs := rfl
  rw [hrf, RegFile.read_write, s.operand_eq]
  by_cases h0 : rs = 0#5
  · subst h0
    rw [if_pos rfl, if_pos rfl, RegFile.read_zero]
  · have hM : ¬(rs = rd s.em.instrM ∧ s.em.regWriteM = true) := fun hM => hW ⟨h0, hM⟩
    rw [if_neg h0, if_neg h0, if_neg hM]

/-- **The forwarding invariant.** -/
structure Forwarding (s : Cpu) (o : Occupancy) : Prop where
  /-- What the word in Execute takes from Memory is the result of the instruction there. -/
  finished : o.e = true → ∀ rs, rs = rs1 s.de.instrE ∨ rs = rs2 s.de.instrE →
    rs = rd s.em.instrM → s.em.resultSrcM = 0b00#2
  captured1 : o.e = true → s.Captured (rs1 s.de.instrE) s.de.rd1E
  captured2 : o.e = true → s.Captured (rs2 s.de.instrE) s.de.rd2E

/-- Execute holds no load whose `rd` the next word names, and no jump, when it lets that
word in. -/
theorem Slots.resultSrcE_of_straight {x : XValues} {s : Cpu} {o : Occupancy}
    (h : Slots x s o) (hs : s.stall = false) (hp : s.pcSrc x = 0b00#2) {rs : BitVec 5}
    (hrs : rs = rs1 s.fd.instrD ∨ rs = rs2 s.fd.instrD) (hrd : rs = rd s.de.instrE) :
    s.de.resultSrcE = 0b00#2 := by
  cases he : o.e with
  | false => exact (h.idleE he).resultSrcE
  | true =>
      have hdec := h.decodedE he
      have hnoT : ¬s.Transfers x := fun hT => (h.pcSrc_iff he).mpr hT hp
      have hsrc : s.de.resultSrcE = (controller x s.de.instrE).resultSrc :=
        congrArg StageDE.resultSrcE hdec
      rw [hsrc, controller_resultSrc_00]
      refine ⟨?_, ?_, ?_⟩
      · intro hload
        have hL : LoadUse s.de.instrE s.fd.instrD := by
          refine ⟨hload, ?_⟩
          obtain hrs | hrs := hrs
          · exact Or.inl (hrs.symm.trans hrd)
          · exact Or.inr (hrs.symm.trans hrd)
        simp [(h.stall_iff he).mpr hL] at hs
      · intro hjal
        exact hnoT (Or.inr (Or.inl hjal))
      · intro hjalr
        exact hnoT (Or.inr (Or.inr hjalr))

/-- A clock cycle establishes the forwarding invariant. -/
theorem Forwarding.step {x : XValues} {s : Cpu} {o : Occupancy} (h : Slots x s o)
    (i : BusIn) : Forwarding (s.step x i) (o.next x s) := by
  by_cases hs : s.stall = true
  · rw [Occupancy.next_of_stall o hs]
    constructor <;> simp
  · replace hs := eq_false_of_ne_true hs
    by_cases hp : s.pcSrc x = 0b00#2
    · obtain ⟨-, -, hde⟩ := Cpu.step_of_straight i hs hp
      constructor
      · intro _ rs hrs hrd
        rw [hde] at hrs
        exact h.resultSrcE_of_straight hs hp hrs hrd
      · intro _
        rw [hde]
        exact s.captured_step x i (rs1 s.fd.instrD)
      · intro _
        rw [hde]
        exact s.captured_step x i (rs2 s.fd.instrD)
    · rw [Occupancy.next_of_pcSrc o hs hp]
      constructor <;> simp

/-- **The forwarding invariant holds in every cycle of every run.** -/
theorem Run.forwarding (r : Run) (t : ℕ) : Forwarding (r.cpu t) (r.occ t) := by
  cases t with
  | zero =>
      constructor <;> simp
  | succ t =>
      rw [r.cpu_succ, r.occ_succ]
      exact Forwarding.step (r.slots t) (r.bus t)

/-! ### What Execute takes from Memory -/

/-- Memory is selected for a register that its instruction writes, and never for register
0. -/
theorem forward_eq_memory_iff {rs rdM rdW : BitVec 5} {weM weW : Bool} :
    forward rs rdM weM rdW weW = 0b10#2 ↔ (rs = rdM ∧ weM = true) ∧ rs ≠ 0#5 := by
  rw [forward]
  split_ifs with hM hW
  · exact iff_of_true rfl hM
  · exact iff_of_false (by simp) hM
  · exact iff_of_false (by simp) hM

/-- What Memory hands to Writeback is its ALU result, if that is the source of the result. -/
theorem Cpu.result_step (x : XValues) (s : Cpu) (i : BusIn) (h : s.em.resultSrcM = 0b00#2) :
    (s.step x i).result = s.em.aluResultM := by
  have hresult : (s.step x i).result = (s.em.toMW i.readData).result := rfl
  have hsrc : (s.em.toMW i.readData).resultSrcW = 0b00#2 := h
  rw [hresult, StageMW.result, hsrc, mux3_00]
  rfl

/-- **A forward from Memory to Execute** has an instruction at both ends, and the one in
Memory has its ALU result for its result. -/
theorem Forwarding.of_forwardSel {x : XValues} {s : Cpu} {o : Occupancy} (h : Forwarding s o)
    (hslots : Slots x s o) {rs : BitVec 5} (hrs : rs = rs1 s.de.instrE ∨ rs = rs2 s.de.instrE)
    (hsel : s.forwardSel rs = 0b10#2) : o.m = true ∧ s.em.resultSrcM = 0b00#2 := by
  obtain ⟨⟨hrd, -⟩, h0⟩ := forward_eq_memory_iff.mp hsel
  constructor
  · -- an empty slot in Memory names register 0
    by_contra hm
    exact h0 (hrd.trans (hslots.idleM (eq_false_of_ne_true hm)).rd)
  · cases he : o.e with
    | false =>
        obtain rfl | rfl := hrs
        · exact absurd (hslots.idleE he).rs1 h0
        · exact absurd (hslots.idleE he).rs2 h0
    | true => exact h.finished he rs hrs hrd

/-- `lw x1, 0(x2)`, `nop`, `add x3, x1, x1`, with `x2` pointing to the word behind them. -/
def captureBoot : Boot :=
  { x := ⟨0#3, 0#5, 0#32, 0#32, 0#32⟩
    image := fun a => if a = 0#17 then 0x00012083#32 else if a = 1#17 then 0x00000013#32
      else if a = 2#17 then 0x001081B3#32 else 5#32
    rf := fun i => if i = 2#5 then 0x1000000C#32 else 0#32
    sim := true }

/-- In cycle 3 the load is in Memory and the `add` in Decode, which captures the address for
both of its operands. -/
theorem capture_address :
    (captureBoot.system 3).cpu.forwardAD = 0b10#2 ∧
      (captureBoot.system 3).cpu.forwardBD = 0b10#2 ∧
      opcode (captureBoot.system 3).cpu.em.instrM = opcLoad ∧
      (captureBoot.system 3).cpu.em.aluResultM = 0x1000000C#32 ∧
      (captureBoot.system 4).cpu.de.rd1E = 0x1000000C#32 ∧
      (captureBoot.system 4).cpu.de.rd2E = 0x1000000C#32 ∧
      (captureBoot.system 4).cpu.result = 5#32 := by
  decide +kernel

/-- **Execute takes finished results only.** In every cycle of every run, if a multiplexer of
Execute selects Memory, then the instruction there is no load and no jump, and its result is
its ALU result. The multiplexers of Decode do take the address of a load for its result. -/
theorem memory_forward_finished :
    (∀ (r : Run) (t : ℕ),
      (r.cpu t).forwardA = 0b10#2 ∨ (r.cpu t).forwardB = 0b10#2 →
        (r.cpu t).em.resultSrcM = 0b00#2 ∧
        (opcode (r.cpu t).em.instrM ≠ opcLoad ∧ opcode (r.cpu t).em.instrM ≠ opcJal ∧
          opcode (r.cpu t).em.instrM ≠ opcJalr) ∧
        (r.cpu (t + 1)).result = (r.cpu t).em.aluResultM) ∧
    ∃ (b : Boot) (t : ℕ),
      (b.system t).cpu.forwardAD = 0b10#2 ∧ (b.system t).cpu.forwardBD = 0b10#2 ∧
        opcode (b.system t).cpu.em.instrM = opcLoad ∧
        (b.system (t + 1)).cpu.de.rd1E = (b.system t).cpu.em.aluResultM ∧
        (b.system (t + 1)).cpu.de.rd2E = (b.system t).cpu.em.aluResultM ∧
        (b.system (t + 1)).cpu.result ≠ (b.system t).cpu.em.aluResultM := by
  constructor
  · intro r t hsel
    have hmem : ((r.occ t).m = true) ∧ (r.cpu t).em.resultSrcM = 0b00#2 := by
      obtain hA | hB := hsel
      · exact (r.forwarding t).of_forwardSel (r.slots t) (Or.inl rfl) hA
      · exact (r.forwarding t).of_forwardSel (r.slots t) (Or.inr rfl) hB
    obtain ⟨hm, hsrc⟩ := hmem
    refine ⟨hsrc, ?_, Cpu.result_step r.x _ (r.bus t) hsrc⟩
    rw [((r.slots t).decodedM hm).resultSrcM] at hsrc
    exact (controller_resultSrc_00 r.x _).mp hsrc
  · obtain ⟨hAD, hBD, hload, haddr, h1, h2, hresult⟩ := capture_address
    refine ⟨captureBoot, 3, hAD, hBD, hload, h1.trans haddr.symm, h2.trans haddr.symm, ?_⟩
    rw [haddr, hresult]
    simp

end SmuRv32im
