import SmuRv32im.Forwarding
import SmuRv32im.Hart
import SmuRv32im.Tohost

/-!
# The Sequential Machine Implements the Hart

One instruction of the sequential machine is one step of the hart, for the instructions on
which the core keeps to the instruction set (`Instr.Regular`). There are three it does not
keep to: the signed comparisons with `-2^31`, a `jalr` with an odd sum, and a read of
`tohost` into a register.

## Main results

* `Implements.pc_step`, `Implements.regs_step`, `Implements.mem_step`: the components of the
  state.
* `Implements.step`: the simulation of one instruction.
-/

namespace SmuRv32im

open ByteMemory (Mem load store load_eq_extract)

/-- The instruction is one on which the core does what the instruction set defines. -/
def Instr.Regular (s : Hart) : Instr → Prop
  | set .slt _ _ r2 => s.regs r2 ≠ minWord
  | branch .blt _ r2 _ | branch .bge _ r2 _ => s.regs r2 ≠ minWord
  | jalr _ r1 i => EvenAddr (s.regs r1 + i.signExtend 32)
  | csrrw d _ | csrrwi d _ => d = 0#5
  | _ => True

instance (s : Hart) : (i : Instr) → Decidable (i.Regular s)
  | .set .slt _ _ r2 | .branch .blt _ r2 _ | .branch .bge _ r2 _ =>
    inferInstanceAs (Decidable (s.regs r2 ≠ minWord))
  | .jalr _ r1 i => inferInstanceAs (Decidable (EvenAddr (s.regs r1 + i.signExtend 32)))
  | .csrrw d _ | .csrrwi d _ => inferInstanceAs (Decidable (d = 0#5))
  | .set .sltu .. | .branch .beq .. | .branch .bne .. | .branch .bltu .. | .branch .bgeu ..
  | .compute .. | .setImm .. | .mulDiv .. | .load .. | .store .. | .fence .. =>
    inferInstanceAs (Decidable True)

/-! ### The core on the instructions that RV32I leaves over -/

section
variable (x : XValues) (instr a b pc data : Word)

/-- `jalr` writes the address behind it. -/
theorem writesRd_jalr (h : opcode instr = opcJalr) :
    WritesRd x instr a b pc data (pc + 4#32) := by
  have hc : (controller x instr).regWrite = true ∧ (controller x instr).resultSrc = 0b10#2 := by
    simp [controller, maindec, h]
  obtain ⟨hwe, hsrc⟩ := hc
  rw [WritesRd, execMW, StageMW.result]
  simp only [StageEM.toMW, StageDE.toEM, execDE, decodeStage, hwe, hsrc, mux3_10, true_and,
    adder_sum_false]

/-- `jalr` goes to the sum of its base and its immediate. -/
theorem execPC_of_jalr (h : opcode instr = opcJalr) :
    execPC x instr a b pc = a + immI instr := by
  have hdec : (execDE x instr a b pc).Decoded x := rfl
  exact hdec.pcNext_of_jalr a b _ h

/-- A load writes the bytes its lane picks out of the word it reads. -/
theorem writesRd_load (h : opcode instr = opcLoad) :
    WritesRd x instr a b pc data
      (beRd ((a + immI instr).extractLsb' 0 2) (funct3 instr) data) := by
  have hwe : (controller x instr).regWrite = true := by simp [controller, maindec, h]
  obtain ⟨haddr, -, hsrc⟩ := toEM_load x instr a b pc h
  refine ⟨hwe, ?_⟩
  have hsrc' : (execMW x instr a b pc data).resultSrcW = 0b01#2 := hsrc
  rw [StageMW.result, hsrc', mux3_01, ← haddr]
  rfl

/-- An opcode the main decoder does not list writes no register. -/
theorem regWrite_of_miscMem (h : opcode instr = opcMiscMem) :
    (execMW x instr a b pc data).regWriteW = false := by
  have hwe : (controller x instr).regWrite = false := by simp [controller, maindec, h]
  exact hwe

end

/-- A comparison with another value than `-2^31`, and every unsigned one, writes what the
instruction set defines. -/
theorem SetOp.writesRd_set (x : XValues) (a b pc data : Word) (o : SetOp) (d r1 r2 : BitVec 5)
    (hb : o = slt → b ≠ minWord) :
    WritesRd x (Instr.set o d r1 r2).encode a b pc data (o.eval a b) := by
  cases o with
  | slt =>
      have hne := hb rfl
      have hw := writesRd_slt x (Instr.set slt d r1 r2).encode a b pc data
        ⟨Instr.opcode_encode _, rType_funct3 _ _ _ _ _ _, rType_funct7 _ _ _ _ _ _⟩
      simp only [hne, false_or] at hw
      exact hw
  | sltu => exact writesRd_sltu x a b pc data d r1 r2

/-- The immediates are never `-2^31`. -/
theorem SetOp.writesRd_setImm (x : XValues) (a b pc data : Word) (o : SetOp) (d r1 : BitVec 5)
    (i : BitVec 12) :
    WritesRd x (Instr.setImm o d r1 i).encode a b pc data (o.eval a (i.signExtend 32)) := by
  cases o with
  | slt =>
      have hw := writesRd_slti x (Instr.setImm slt d r1 i).encode a b pc data
        ⟨Instr.opcode_encode _, iType_funct3 _ _ _ _ _⟩
      have himm : immI (Instr.setImm slt d r1 i).encode = i.signExtend 32 :=
        immI_iType _ _ _ _ _
      rwa [himm] at hw
  | sltu => exact writesRd_sltiu x a b pc data d r1 i

/-- The multiplications and divisions write what RV32M defines. -/
theorem writesRd_mulDiv (x : XValues) (a b pc data : Word) (f3 : BitVec 3)
    (d r1 r2 : BitVec 5) :
    WritesRd x (Instr.mulDiv f3 d r1 r2).encode a b pc data (mulDiv f3 a b) := by
  rw [writesRd_rType _ _ _ _ _ _ (Instr.opcode_encode _), Instr.encode, rType_funct3,
    rType_funct7, aludec_mulDiv, alu_mulDiv]

/-- A signed comparison with another value than `-2^31`, and every other one, is that of the
instruction set. -/
theorem BranchOp.taken_iff_holds (x : XValues) (a b pc : Word) (o : BranchOp) (r1 r2 : BitVec 5)
    (off : BitVec 12) (hb : o = blt ∨ o = bge → b ≠ minWord) :
    Taken x (o.encode r1 r2 off) a b pc ↔ o.Holds a b := by
  have hop := o.opcode_encode r1 r2 off
  have h3 := o.funct3_encode r1 r2 off
  cases o with
  | beq => exact taken_beq x a b pc r1 r2 off
  | bne => exact taken_bne x a b pc r1 r2 off
  | blt =>
      have hne := hb (Or.inl rfl)
      rw [taken_blt x _ a b pc ⟨hop, h3⟩]
      simp only [hne, false_or, Holds]
  | bge =>
      have hne := hb (Or.inr rfl)
      rw [taken_bge x _ a b pc ⟨hop, h3⟩]
      simp only [hne, false_or, not_lt, Holds]
  | bltu => exact taken_bltu x a b pc r1 r2 off
  | bgeu => exact taken_bgeu x a b pc r1 r2 off

/-! ### The relation -/

/-- The sequential machine shows the state of the hart. -/
structure Implements (a : Arch) (s : Hart) : Prop where
  pc : a.pc = s.pc
  regs : ∀ i, a.rf.read i = s.regs i
  mem : Holds a.mem s.mem
  tohost : a.tohost = s.tohost

theorem Implements.reset (image : Ram) (rf : RegFile) :
    Implements (Arch.reset image rf) (Hart.reset image rf) where
  pc := rfl
  regs _ := rfl
  mem _ _ := rfl
  tohost := rfl

/-- A word of the RAM is made of the bytes it holds. -/
theorem Holds.word {mem : Ram} {m : Mem 32} (h : Holds mem m) {addr : Word} (hin : InRam addr)
    (hal : addr.toNat % 4 = 0) : mem (ramAddr addr) = BitVec.ofNat 32 (load m addr 4) := by
  have hload : load m addr 4 = ((mem (ramAddr addr)).extractLsb' (8 * 0) (8 * 4)).toNat := by
    refine load_eq_extract ?_
    intro i hi
    obtain ⟨hini, hbyte⟩ := ramBytes_add hin (by omega : 4 = 1 ∨ 4 = 2 ∨ 4 = 4) hal mem hi
    rw [← h _ hini, hbyte, hal]
  have hword : (mem (ramAddr addr)).extractLsb' (8 * 0) (8 * 4) = mem (ramAddr addr) :=
    BitVec.extractLsb'_eq_self
  rw [hload, hword, BitVec.ofNat_toNat, BitVec.setWidth_eq]

/-- A RAM is what it holds. -/
theorem Holds.unique {mem mem' : Ram} {m : Mem 32} (h : Holds mem m) (h' : Holds mem' m) :
    mem = mem' := by
  funext w
  have hw := w.isLt
  have haddr : (BitVec.ofNat 32 (0x10000000 + 4 * w.toNat)).toNat =
      0x10000000 + 4 * w.toNat := by
    rw [BitVec.toNat_ofNat]
    omega
  have hin : InRam (BitVec.ofNat 32 (0x10000000 + 4 * w.toNat)) := by
    rw [InRam, haddr]
    omega
  have hram : ramAddr (BitVec.ofNat 32 (0x10000000 + 4 * w.toNat)) = w := by
    refine BitVec.eq_of_toNat_eq ?_
    rw [toNat_ramAddr, haddr]
    omega
  have hal : (BitVec.ofNat 32 (0x10000000 + 4 * w.toNat)).toNat % 4 = 0 := by
    rw [haddr]
    omega
  rw [← hram, h.word hin hal, h'.word hin hal]

namespace Implements
variable {a : Arch} {s : Hart} (h : Implements a s)
include h

/-- The machine fetches the word of the hart. -/
theorem instr_eq (hin : InRam s.pc) (hal : s.pc.toNat % 4 = 0) : a.instr = s.fetch := by
  rw [Arch.instr, h.pc, Hart.fetch, h.mem.word hin hal]

/-- Writing a register on both sides. -/
theorem read_write (d : BitVec 5) (v : Word) (r : BitVec 5) :
    (a.rf.write true d v).read r = s.setReg d v r := by
  rw [RegFile.read_write, Hart.setReg, h.regs]
  by_cases h0 : r = 0#5
  · subst h0
    rw [if_pos rfl, if_neg fun hd => hd.2 hd.1.symm, s.zero]
  · rw [if_neg h0]
    by_cases hd : r = d
    · rw [if_pos ⟨hd, rfl⟩, if_pos ⟨hd, fun hd0 => h0 (hd.trans hd0)⟩]
    · rw [if_neg fun hd' => hd hd'.1, if_neg fun hd' => hd hd'.1]

section
variable (x : XValues) (d : Defines) (timer : Word) {i : Instr} (hi : a.instr = i.encode)

/-- An instruction that writes a register, on both sides. -/
theorem regs_of_writesRd {v : Word} {dst : BitVec 5} (hrd : rd a.instr = dst)
    (hw : WritesRd x a.instr a.rd1 a.rd2 a.pc (a.readData x d timer) v) (r : BitVec 5) :
    (a.next x d timer).rf.read r = s.setReg dst v r := by
  obtain ⟨hwe, hresult⟩ := hw
  have hrf : (a.next x d timer).rf =
      a.rf.write (a.mw x d timer).regWriteW (rd a.instr) (a.mw x d timer).result := rfl
  rw [hrf, Arch.mw, hwe, hresult, hrd]
  exact h.read_write dst v r

/-- An instruction that writes none. -/
theorem regs_of_not_write
    (hwe : (execMW x a.instr a.rd1 a.rd2 a.pc (a.readData x d timer)).regWriteW = false)
    (r : BitVec 5) : (a.next x d timer).rf.read r = s.regs r := by
  have hrf : (a.next x d timer).rf =
      a.rf.write (a.mw x d timer).regWriteW (rd a.instr) (a.mw x d timer).result := rfl
  rw [hrf, Arch.mw, hwe, RegFile.read_write, h.regs]
  by_cases h0 : r = 0#5
  · rw [if_pos h0, h0, s.zero]
  · rw [if_neg h0, if_neg fun hd => Bool.false_ne_true hd.2]

include hi

/-- **The next address**, on both sides. -/
theorem pc_step (hreg : i.Regular s) : (a.next x d timer).pc = i.pcAfter s := by
  have hpc : (a.next x d timer).pc = execPC x i.encode a.rd1 a.rd2 s.pc := by
    rw [← hi, ← h.pc]
    rfl
  have hseq : (i.op ≠ opcBranch ∧ i.op ≠ opcJal ∧ i.op ≠ opcJalr) →
      (a.next x d timer).pc = s.pc + 4#32 := by
    rw [← i.opcode_encode]
    rintro ⟨hbr, hjal, hjalr⟩
    rw [hpc, execPC_of_not_taken]
    exact not_taken x _ _ _ _ hbr hjal hjalr
  have hrd1 : a.rd1 = s.regs (rs1 i.encode) := by rw [Arch.rd1, hi, h.regs]
  have hrd2 : a.rd2 = s.regs (rs2 i.encode) := by rw [Arch.rd2, hi, h.regs]
  cases i with
  | compute i => exact hpc.trans (i.execPC_encode x _ _ _)
  | branch o r1 r2 off =>
      have h1 : rs1 (o.encode r1 r2 off) = r1 := rType_rs1 _ _ _ _ _ _
      have h2 : rs2 (o.encode r1 r2 off) = r2 := rType_rs2 _ _ _ _ _ _
      obtain ⟨htaken, hnot⟩ := o.execPC_encode x (s.regs r1) (s.regs r2) s.pc r1 r2 off
      have hiff := BranchOp.taken_iff_holds x (s.regs r1) (s.regs r2) s.pc o r1 r2 off (by
        rintro (rfl | rfl)
        · exact hreg
        · exact hreg)
      rw [hpc, hrd1, hrd2, Instr.encode, h1, h2, Instr.pcAfter]
      by_cases ht : o.Holds (s.regs r1) (s.regs r2)
      · rw [htaken (hiff.mpr ht), if_pos ht]
      · rw [hnot fun h => ht (hiff.mp h), if_neg ht]
  | jalr dst r1 imm =>
      have h1 : rs1 (Instr.jalr dst r1 imm).encode = r1 := iType_rs1 _ _ _ _ _
      have himm : immI (Instr.jalr dst r1 imm).encode = imm.signExtend 32 := immI_iType _ _ _ _ _
      rw [hpc, execPC_of_jalr _ _ _ _ _ (Instr.opcode_encode _), hrd1, h1, himm]
      exact clearBit0_eq_iff.mpr hreg
  | set o d r1 r2 => exact hseq (by simp [Instr.op])
  | setImm o d r1 i => exact hseq (by simp [Instr.op])
  | mulDiv f3 d r1 r2 => exact hseq (by simp [Instr.op])
  | load o d r1 i => exact hseq (by simp [Instr.op])
  | store o r2 r1 i => exact hseq (by simp [Instr.op])
  | csrrw d r1 => exact hseq (by simp [Instr.op])
  | csrrwi d z => exact hseq (by simp [Instr.op])
  | fence d r1 i => exact hseq (by simp [Instr.op])

/-- **The load**: the machine delivers what the hart loads. -/
theorem load_eq {o : LoadOp} {dst r1 : BitVec 5} {imm : BitVec 12} (heq : i = .load o dst r1 imm)
    (hperm : i.Permitted s) :
    WritesRd x a.instr a.rd1 a.rd2 a.pc (a.readData x d timer)
      (s.loaded (a.readData x d timer) o (Instr.addr s r1 imm)) := by
  subst heq
  have hop : opcode a.instr = opcLoad := hi ▸ Instr.opcode_encode _
  have hf3 : funct3 a.instr = o.funct3 := by
    rw [hi]
    exact iType_funct3 _ _ _ _ _
  have haddr : a.rd1 + immI a.instr = Instr.addr s r1 imm := by
    have h1 : rs1 (Instr.load o dst r1 imm).encode = r1 := iType_rs1 _ _ _ _ _
    have himm : immI (Instr.load o dst r1 imm).encode = imm.signExtend 32 :=
      immI_iType _ _ _ _ _
    rw [Arch.rd1, hi, h1, himm, h.regs, Instr.addr]
  have hl : LoadFunct3 o.funct3 := by cases o <;> decide
  have hn := accessBytes_cases o.funct3
  obtain ⟨hal, hplace⟩ := hperm
  have hw := writesRd_load x a.instr a.rd1 a.rd2 a.pc (a.readData x d timer) hop
  rw [haddr, hf3, beRd_eq hl (lane_aligned hn hal), toNat_lane] at hw
  rw [Hart.loaded]
  by_cases hin : InRam (Instr.addr s r1 imm)
  · have hbus : (a.busOut x).addr = Instr.addr s r1 imm :=
      (toEM_load x a.instr a.rd1 a.rd2 a.pc hop).1.trans haddr
    have hread : a.readData x d timer = a.mem (ramAddr (Instr.addr s r1 imm)) := by
      rw [Arch.readData, Arch.select, hbus, addrDecoder_of_inRam hin]
      rfl
    have hbytes : load s.mem (Instr.addr s r1 imm) (accessBytes o.funct3) =
        ((a.mem (ramAddr (Instr.addr s r1 imm))).extractLsb'
          (8 * ((Instr.addr s r1 imm).toNat % 4)) (8 * accessBytes o.funct3)).toNat := by
      refine load_eq_extract ?_
      intro j hj
      obtain ⟨hinj, hbyte⟩ := ramBytes_add hin hn hal a.mem hj
      rw [← h.mem _ hinj, hbyte]
    rw [hread] at hw ⊢
    rw [if_pos hin, hbytes]
    exact hw
  · rw [if_neg hin]
    exact hw

/-- **The registers**, on both sides. -/
theorem regs_step (hreg : i.Regular s) (hperm : i.Permitted s) (r : BitVec 5) :
    (a.next x d timer).rf.read r = i.regsAfter s (a.readData x d timer) r := by
  have hrd1 : a.rd1 = s.regs (rs1 i.encode) := by rw [Arch.rd1, hi, h.regs]
  have hrd2 : a.rd2 = s.regs (rs2 i.encode) := by rw [Arch.rd2, hi, h.regs]
  -- what a write to `tohost` computes for its destination is lost in register 0
  have hcsr : opcode i.encode = opcCsr → rd i.encode = 0#5 → (a.next x d timer).rf.read r =
      s.setReg 0#5 s.tohost r := by
    intro hop hrd
    have hwe : (controller x i.encode).regWrite = true := by simp [controller, maindec, hop]
    rw [h.regs_of_writesRd x d timer (hi ▸ hrd) ⟨hi ▸ hwe, rfl⟩ r, Hart.setReg, Hart.setReg,
      if_neg fun h0 => h0.2 rfl, if_neg fun h0 => h0.2 rfl]
  cases i with
  | compute i =>
      refine h.regs_of_writesRd x d timer (hi ▸ i.rd_encode) ?_ r
      have hv : i.rdValue a.rd1 a.rd2 a.pc =
          i.rdValue (s.regs i.source1) (s.regs i.source2) s.pc := by
        rw [Arch.rd1, Arch.rd2, hi, h.pc, Instr.encode, i.rdValue_sources, h.regs, h.regs]
      rw [← hv, hi]
      exact i.writesRd_encode x _ _ _ _
  | set o dst r1 r2 =>
      have h1 : rs1 (Instr.set o dst r1 r2).encode = r1 := rType_rs1 _ _ _ _ _ _
      have h2 : rs2 (Instr.set o dst r1 r2).encode = r2 := rType_rs2 _ _ _ _ _ _
      refine h.regs_of_writesRd x d timer (hi ▸ rType_rd _ _ _ _ _ _) ?_ r
      rw [hi, hrd1, hrd2, h1, h2]
      refine o.writesRd_set x _ _ _ _ dst r1 r2 ?_
      rintro rfl
      exact hreg
  | setImm o dst r1 imm =>
      have h1 : rs1 (Instr.setImm o dst r1 imm).encode = r1 := iType_rs1 _ _ _ _ _
      refine h.regs_of_writesRd x d timer (hi ▸ iType_rd _ _ _ _ _) ?_ r
      rw [hi, hrd1, h1]
      exact o.writesRd_setImm x _ _ _ _ dst r1 imm
  | mulDiv f3 dst r1 r2 =>
      have h1 : rs1 (Instr.mulDiv f3 dst r1 r2).encode = r1 := rType_rs1 _ _ _ _ _ _
      have h2 : rs2 (Instr.mulDiv f3 dst r1 r2).encode = r2 := rType_rs2 _ _ _ _ _ _
      refine h.regs_of_writesRd x d timer (hi ▸ rType_rd _ _ _ _ _ _) ?_ r
      rw [hi, hrd1, hrd2, h1, h2]
      exact writesRd_mulDiv x _ _ _ _ f3 dst r1 r2
  | jalr dst r1 imm =>
      refine h.regs_of_writesRd x d timer (hi ▸ iType_rd _ _ _ _ _) ?_ r
      rw [← h.pc]
      exact writesRd_jalr x _ _ _ _ _ (hi ▸ Instr.opcode_encode _)
  | load o dst r1 imm =>
      refine h.regs_of_writesRd x d timer (hi ▸ iType_rd _ _ _ _ _) ?_ r
      exact h.load_eq x d timer hi rfl hperm
  | csrrw dst r1 =>
      obtain rfl : dst = 0#5 := hreg
      exact hcsr (Instr.opcode_encode _) (iType_rd _ _ _ _ _)
  | csrrwi dst z =>
      obtain rfl : dst = 0#5 := hreg
      exact hcsr (Instr.opcode_encode _) (iType_rd _ _ _ _ _)
  | branch o r1 r2 off =>
      refine h.regs_of_not_write x d timer ?_ r
      rw [hi]
      exact o.regWrite_encode x _ _ _ _ _ _ _
  | store o r2 r1 imm =>
      refine h.regs_of_not_write x d timer ?_ r
      exact controller_regWrite_of_store x _ (hi ▸ Instr.opcode_encode _)
  | fence dst r1 imm =>
      refine h.regs_of_not_write x d timer ?_ r
      exact regWrite_of_miscMem x _ _ _ _ _ (hi ▸ Instr.opcode_encode _)

/-- **The memory**, on both sides. -/
theorem mem_step (hperm : i.Permitted s) : Holds (a.next x d timer).mem (i.memAfter s) := by
  have hload : i.op ≠ opcStore → (a.next x d timer).mem = a.mem := by
    intro hop
    have hmw : (a.busOut x).memWrite = false := by
      refine eq_false_of_ne_true fun hmw => hop ?_
      rw [← i.opcode_encode, ← hi]
      exact (controller_memWrite x _).mp hmw
    rw [Arch.next, hmw]
    rfl
  cases i with
  | store o r2 r1 imm =>
      have hop : opcode a.instr = opcStore := hi ▸ Instr.opcode_encode _
      have hf3 : funct3 a.instr = o.funct3 := by
        rw [hi]
        exact rType_funct3 _ _ _ _ _ _
      have haddr : a.rd1 + immS a.instr = Instr.addr s r1 imm := by
        have h1 : rs1 (Instr.store o r2 r1 imm).encode = r1 := rType_rs1 _ _ _ _ _ _
        have himm : immS (Instr.store o r2 r1 imm).encode = imm.signExtend 32 :=
          immS_sType _ _ _ _ _
        rw [Arch.rd1, hi, h1, himm, h.regs, Instr.addr]
      have hdata : a.rd2 = s.regs r2 := by
        have h2 : rs2 (Instr.store o r2 r1 imm).encode = r2 := rType_rs2 _ _ _ _ _ _
        rw [Arch.rd2, hi, h2, h.regs]
      let access : Access := ⟨a.instr, a.rd1, a.rd2, a.pc, timer, 0#32⟩
      have hst : access.IsStore := hop
      have hto : access.addr = Instr.addr s r1 imm := by
        rw [Access.addr, if_pos hst]
        exact haddr
      have hbytes : access.bytes = accessBytes o.funct3 := congrArg accessBytes hf3
      obtain ⟨hal, hplace⟩ := hperm
      have hlegal : (InRam access.addr ∧ access.addr.toNat % access.bytes = 0) ∨
          (access.IsStore ∧ access.addr.extractLsb' 28 4 ≠ 0x1#4) := by
        rw [hto, hbytes]
        obtain hin | hdev := hplace
        · exact Or.inl ⟨hin, hal⟩
        · exact Or.inr ⟨hst, hdev.outside⟩
      have hkind : StoreFunct3 (funct3 access.instr) := by
        rw [hf3]
        cases o <;> decide
      have hholds := LegalAccess.ram_holds x ⟨access, Or.inl ⟨hop, hkind⟩, hlegal⟩ a.mem h.mem
      have hmem : access.storeTo s.mem = (Instr.store o r2 r1 imm).memAfter s := by
        rw [Access.storeTo, hto, hbytes, Instr.memAfter, ← hdata]
        by_cases hin : InRam (Instr.addr s r1 imm)
        · rw [if_pos ⟨hst, hin⟩, if_pos hin]
        · rw [if_neg fun h => hin h.2, if_neg hin]
      rw [← hmem]
      exact hholds
  | compute i => exact hload (by simp [Instr.op, i.op_ne]) ▸ h.mem
  | _ => exact hload (by simp [Instr.op]) ▸ h.mem

/-- **The register `tohost`**, on both sides. -/
theorem tohost_step : (a.next x d timer).tohost = i.tohostAfter s := by
  have hkeep : i.op ≠ opcCsr → (a.next x d timer).tohost = s.tohost := by
    intro hop
    have hcsr : (a.de x).csrE = false := by
      refine eq_false_of_ne_true fun hcsr => hop ?_
      rw [← i.opcode_encode, ← hi]
      exact (controller_csr x _).mp hcsr
    rw [Arch.next, hcsr, ← h.tohost]
    rfl
  have hwrite : i.op = opcCsr → (a.next x d timer).tohost = systemValue a.instr a.rd1 := by
    intro hop
    have hop' : opcode a.instr = opcCsr := by rw [hi, i.opcode_encode, hop]
    have hcsr : (a.de x).csrE = true := (controller_csr x _).mpr hop'
    have himm : (a.de x).immExtE = (rs1 a.instr).setWidth 32 := immExt_of_csr x _ hop'
    rw [Arch.next, hcsr, himm]
    rfl
  cases i with
  | csrrw dst r1 =>
      have h1 : rs1 (Instr.csrrw dst r1).encode = r1 := iType_rs1 _ _ _ _ _
      have h3 : funct3 (Instr.csrrw dst r1).encode = 0b001#3 := iType_funct3 _ _ _ _ _
      rw [hwrite rfl, systemValue, hi, h3, if_pos rfl, Arch.rd1, hi, h1, h.regs]
      rfl
  | csrrwi dst z =>
      have h1 : rs1 (Instr.csrrwi dst z).encode = z := iType_rs1 _ _ _ _ _
      have h3 : funct3 (Instr.csrrwi dst z).encode = 0b101#3 := iType_funct3 _ _ _ _ _
      rw [hwrite rfl, systemValue, hi, h3, h1]
      rfl
  | compute i => exact hkeep (by simp [Instr.op, i.op_ne])
  | _ => exact hkeep (by simp [Instr.op])

end

/-- **The simulation of one instruction.** What the machine reads from a device is the input
of the hart. -/
theorem step (x : XValues) (d : Defines) (timer : Word) {s' : Hart}
    (hreg : ∀ i, s.instr? = some i → i.Regular s)
    (hs : s.step (a.readData x d timer) = some s') : Implements (a.next x d timer) s' := by
  obtain ⟨i, hsome, hperm, rfl⟩ := (s.step_eq_some_iff _).mp hs
  have hi : a.instr = i.encode := by
    obtain ⟨⟨hin, hal⟩, hdec⟩ := Option.ite_none_right_eq_some.mp hsome
    rw [h.instr_eq hin hal, encode_of_decode hdec]
  exact
    { pc := h.pc_step x d timer hi (hreg i hsome)
      regs := h.regs_step x d timer hi (hreg i hsome) hperm
      mem := h.mem_step x d timer hi hperm
      tohost := h.tohost_step x d timer hi }

end Implements

end SmuRv32im
