import SmuRv32im.Sequential

/-!
# The Simulation

In every cycle the parts of the pipeline lie at different points of the sequential run:
the register file is that of the instruction in Writeback, the RAM that of the
instruction in Memory, `tohost` that of the instruction in Execute, and the slots hold
what the sequential machine computes for theirs (`Matches`). A clock cycle keeps this
relation as long as no instruction is fetched in the shadow of a store to its own word. The
part of the relation from Execute on (`MatchesBack`) is kept until such an instruction
enters Execute.

## Main results

* `MatchesBack.operands`: the forwarded operands are what the sequential machine reads.
* `MatchesBack.step`, `Matches.step`: the simulation, one clock cycle.
-/

namespace SmuRv32im

/-! ### Which instruction is where -/

namespace Occupancy
variable (o : Occupancy) (n : ℕ)

/-- The instruction Memory is about to work on, if `n` have left Writeback. -/
def idxM : ℕ := n + o.w.toNat

/-- The instruction Execute is about to work on. -/
def idxE : ℕ := o.idxM n + o.m.toNat

/-- The instruction Decode is about to hand on. -/
def idxD : ℕ := o.idxE n + o.e.toNat

theorem idxM_of_occupied (h : o.w = true) : o.idxM n = n + 1 := by
  rw [idxM, h, Bool.toNat_true]

theorem idxM_of_empty (h : o.w = false) : o.idxM n = n := by
  rw [idxM, h, Bool.toNat_false, Nat.add_zero]

theorem idxE_of_occupied (h : o.m = true) : o.idxE n = o.idxM n + 1 := by
  rw [idxE, h, Bool.toNat_true]

theorem idxE_of_empty (h : o.m = false) : o.idxE n = o.idxM n := by
  rw [idxE, h, Bool.toNat_false, Nat.add_zero]

theorem idxD_of_occupied (h : o.e = true) : o.idxD n = o.idxE n + 1 := by
  rw [idxD, h, Bool.toNat_true]

theorem idxD_of_empty (h : o.e = false) : o.idxD n = o.idxE n := by
  rw [idxD, h, Bool.toNat_false, Nat.add_zero]

end Occupancy

/-- The part of the simulation relation from Execute on: between the system and the
sequential run `S`, after `n` instructions have left Writeback. -/
structure MatchesBack (x : XValues) (d : Defines) (timer : ℕ → Word) (S : ℕ → Arch)
    (s : System) (o : Occupancy) (n : ℕ) : Prop where
  rf : s.cpu.rf = (S n).rf
  mem : s.mem = (S (o.idxM n)).mem
  irqForce : s.irqForce = (S (o.idxM n)).irqForce
  tohost : s.cpu.tohost = (S (o.idxE n)).tohost
  slotW : o.w = true → s.cpu.mw = (S n).mw x d (timer n)
  slotM : o.m = true → s.cpu.em = (S (o.idxM n)).em x
  slotE : o.e = true → s.cpu.de = decodeStage x (S (o.idxE n)).instr s.cpu.de.rd1E
    s.cpu.de.rd2E (S (o.idxE n)).pc (S (o.idxE n)).pcPlus4

/-- The part of the simulation relation from Memory on. -/
structure MatchesMemory (x : XValues) (d : Defines) (timer : ℕ → Word) (S : ℕ → Arch)
    (s : System) (o : Occupancy) (n : ℕ) : Prop where
  rf : s.cpu.rf = (S n).rf
  mem : s.mem = (S (o.idxM n)).mem
  irqForce : s.irqForce = (S (o.idxM n)).irqForce
  slotW : o.w = true → s.cpu.mw = (S n).mw x d (timer n)
  slotM : o.m = true → s.cpu.em = (S (o.idxM n)).em x

theorem MatchesBack.memory {x : XValues} {d : Defines} {timer : ℕ → Word} {S : ℕ → Arch}
    {s : System} {o : Occupancy} {n : ℕ} (h : MatchesBack x d timer S s o n) :
    MatchesMemory x d timer S s o n :=
  ⟨h.rf, h.mem, h.irqForce, h.slotW, h.slotM⟩

/-- The memory bus is that of the instruction in Memory. -/
theorem MatchesMemory.busOut {x : XValues} {d : Defines} {timer : ℕ → Word} {S : ℕ → Arch}
    {s : System} {o : Occupancy} {n : ℕ} (h : MatchesMemory x d timer S s o n)
    (hm : o.m = true) : s.cpu.busOut = (S (o.idxM n)).busOut x := by
  rw [Cpu.busOut, h.slotM hm]
  rfl

/-- **The simulation relation.** Decode and the program counter matter unless Execute
redirects. -/
structure Matches (x : XValues) (d : Defines) (timer : ℕ → Word) (S : ℕ → Arch)
    (s : System) (o : Occupancy) (n : ℕ) : Prop extends
    MatchesBack x d timer S s o n where
  slotD : s.cpu.pcSrc x = 0b00#2 → o.d = true →
    s.cpu.fd = ⟨(S (o.idxD n)).instr, (S (o.idxD n)).pc, (S (o.idxD n)).pcPlus4⟩ ∧
      s.cpu.pc = (S (o.idxD n)).pcPlus4
  fetch : s.cpu.pcSrc x = 0b00#2 → o.d = false → s.cpu.pc = (S (o.idxD n)).pc

/-! ### Writes of empty slots -/

theorem RegFile.write_zero (rf : RegFile) (we : Bool) (wd : Word) :
    rf.write we 0#5 wd = rf := by
  funext i
  rw [write]
  by_cases h0 : i = 0#5
  · rw [if_neg fun h => h.1 h0]
  · rw [if_neg fun h => h0 h.2.1]

/-- The word a redirection loads does not depend on the sequential next address. -/
theorem StageDE.pcNext_of_pcSrc {x : XValues} {de : StageDE} {rd1EH rd2EH : Word}
    (h : de.pcSrc x rd1EH rd2EH ≠ 0b00#2) (p q : Word) :
    de.pcNext x rd1EH rd2EH p = de.pcNext x rd1EH rd2EH q := by
  rw [pcNext, pcNext, mux3, mux3, if_neg h, if_neg h]

section
variable {x : XValues} {d : Defines} {timer : ℕ → Word} {S : ℕ → Arch}
variable {s : System} {o : Occupancy} {n : ℕ}
variable (hS : ∀ k, S (k + 1) = (S k).next x d (timer k))
include hS

namespace MatchesBack
variable (h : MatchesBack x d timer S s o n) (hslots : Slots x s.cpu o)
  (hfwd : Forwarding s.cpu o)
include h hslots

/-! ### The operands of Execute -/

/-- Register reads behind the instruction in Writeback. -/
theorem read_idxM (rs : BitVec 5) :
    (S (o.idxM n)).rf.read rs =
      if rs = 0#5 then 0#32
      else if rs = rd s.cpu.mw.instrW ∧ s.cpu.mw.regWriteW = true then s.cpu.result
      else s.cpu.rf.read rs := by
  cases hw : o.w with
  | true =>
      have hrf : (S (n + 1)).rf =
          s.cpu.rf.write s.cpu.mw.regWriteW (rd s.cpu.mw.instrW) s.cpu.result := by
        rw [hS, Cpu.result, h.slotW hw, h.rf]
        rfl
      rw [o.idxM_of_occupied n hw, hrf, RegFile.read_write]
  | false =>
      rw [o.idxM_of_empty n hw, ← h.rf, (hslots.idleW hw).rd]
      by_cases h0 : rs = 0#5
      · subst h0
        rw [if_pos rfl, RegFile.read_zero]
      · rw [if_neg h0, if_neg fun hrs => h0 hrs.1]

/-- Register reads behind the instruction in Memory, if what it writes is its ALU result. -/
theorem read_idxE (rs : BitVec 5)
    (hfin : rs = rd s.cpu.em.instrM → s.cpu.em.resultSrcM = 0b00#2) :
    (S (o.idxE n)).rf.read rs =
      if rs = 0#5 then 0#32
      else if rs = rd s.cpu.em.instrM ∧ s.cpu.em.regWriteM = true then s.cpu.em.aluResultM
      else (S (o.idxM n)).rf.read rs := by
  cases hm : o.m with
  | true =>
      have hem := h.slotM hm
      rw [o.idxE_of_occupied n hm, hS, Arch.next, RegFile.read_write]
      by_cases h0 : rs = 0#5
      · rw [if_pos h0, if_pos h0]
      · rw [if_neg h0, if_neg h0]
        have hrd : rd s.cpu.em.instrM = rd (S (o.idxM n)).instr := by rw [hem]; rfl
        have hwe : s.cpu.em.regWriteM =
            ((S (o.idxM n)).mw x d (timer (o.idxM n))).regWriteW := by rw [hem]; rfl
        rw [hrd, hwe]
        by_cases hrs : rs = rd (S (o.idxM n)).instr ∧
            ((S (o.idxM n)).mw x d (timer (o.idxM n))).regWriteW = true
        · have hsrc : ((S (o.idxM n)).mw x d (timer (o.idxM n))).resultSrcW = 0b00#2 := by
            have hfin' := hfin (hrs.1.trans hrd.symm)
            rw [hem] at hfin'
            exact hfin'
          rw [if_pos hrs, if_pos hrs, StageMW.result, hsrc, mux3_00, hem]
          rfl
        · rw [if_neg hrs, if_neg hrs]
  | false =>
      rw [o.idxE_of_empty n hm, (hslots.idleM hm).rd]
      by_cases h0 : rs = 0#5
      · subst h0
        rw [if_pos rfl, RegFile.read_zero]
      · rw [if_neg h0, if_neg fun hrs => h0 hrs.1]

/-- **A forwarded operand** is what the sequential machine reads. -/
theorem operand {rs : BitVec 5} {v : Word} (hcap : s.cpu.Captured rs v)
    (hfin : rs = rd s.cpu.em.instrM → s.cpu.em.resultSrcM = 0b00#2) :
    s.cpu.operand rs v = (S (o.idxE n)).rf.read rs := by
  rw [s.cpu.operand_eq, h.read_idxE hS hslots rs hfin, h.read_idxM hS hslots]
  by_cases h0 : rs = 0#5
  · rw [if_pos h0, if_pos h0, hcap fun hne => hne.1 h0, h0, RegFile.read_zero]
  · rw [if_neg h0, if_neg h0, if_neg h0]
    split_ifs with hM hW
    · rfl
    · rfl
    · exact hcap fun hne => hW hne.2

include hfwd

/-- The operands of the instruction in Execute are those of the sequential machine. -/
theorem operands (he : o.e = true) :
    s.cpu.rd1EH = (S (o.idxE n)).rd1 ∧ s.cpu.rd2EH = (S (o.idxE n)).rd2 := by
  have hinstr : s.cpu.de.instrE = (S (o.idxE n)).instr := by
    rw [h.slotE he]
    rfl
  have hfin := hfwd.finished he
  constructor
  · rw [s.cpu.rd1EH_eq, h.operand hS hslots (hfwd.captured1 he) (hfin _ (Or.inl rfl)), hinstr]
    rfl
  · rw [s.cpu.rd2EH_eq, h.operand hS hslots (hfwd.captured2 he) (hfin _ (Or.inr rfl)), hinstr]
    rfl

/-! ### What Execute does -/

/-- Execute hands on what the sequential machine hands on. -/
theorem toEM (he : o.e = true) :
    s.cpu.de.toEM x s.cpu.rd1EH s.cpu.rd2EH = (S (o.idxE n)).em x := by
  obtain ⟨h1, h2⟩ := h.operands hS hslots hfwd he
  rw [h1, h2, h.slotE he]
  rfl

theorem pcSrc_eq (he : o.e = true) :
    s.cpu.pcSrc x = ((S (o.idxE n)).de x).pcSrc x (S (o.idxE n)).rd1 (S (o.idxE n)).rd2 := by
  obtain ⟨h1, h2⟩ := h.operands hS hslots hfwd he
  rw [Cpu.pcSrc, h1, h2, h.slotE he]
  rfl

/-- Execute redirects exactly if the sequential machine transfers control. -/
theorem transfers_iff (he : o.e = true) :
    s.cpu.pcSrc x ≠ 0b00#2 ↔ (S (o.idxE n)).Transfers x := by
  rw [h.pcSrc_eq hS hslots hfwd he]
  exact ((S (o.idxE n)).decoded x).pcSrc_iff _ _

/-- A redirection loads the program counter of the next instruction. -/
theorem pcNext_eq (he : o.e = true) (hp : s.cpu.pcSrc x ≠ 0b00#2) :
    s.cpu.pcNext x = (S (o.idxE n + 1)).pc := by
  obtain ⟨h1, h2⟩ := h.operands hS hslots hfwd he
  have hp' : s.cpu.de.pcSrc x s.cpu.rd1EH s.cpu.rd2EH ≠ 0b00#2 := hp
  rw [Cpu.pcNext, StageDE.pcNext_of_pcSrc hp' _ (S (o.idxE n)).pcPlus4, hS, h1, h2,
    h.slotE he]
  rfl

/-- Without a redirection the next instruction is the next word. -/
theorem pc_succ_idxE (he : o.e = true) (hp : s.cpu.pcSrc x = 0b00#2) :
    (S (o.idxE n + 1)).pc = (S (o.idxE n)).pcPlus4 := by
  rw [hS]
  refine Arch.next_pc_of_not_transfers _ _ _ _ ?_
  intro hT
  exact (h.transfers_iff hS hslots hfwd he).mpr hT hp

end MatchesBack

end

/-! ### One clock cycle -/

section
variable {x : XValues} {d : Defines} {timer : ℕ → Word} {S : ℕ → Arch}
variable {s : System} {o : Occupancy} {n : ℕ}
variable (hS : ∀ k, S (k + 1) = (S k).next x d (timer k))
include hS

/-- The register file moves on with Writeback. -/
theorem MatchesMemory.step_rf (h : MatchesMemory x d timer S s o n) (hslots : Slots x s.cpu o) :
    (s.step x d).cpu.rf = (S (o.idxM n)).rf := by
  have hstep : (s.step x d).cpu.rf =
      s.cpu.rf.write s.cpu.mw.regWriteW (rd s.cpu.mw.instrW) s.cpu.result := rfl
  rw [hstep]
  cases hw : o.w with
  | true =>
      rw [o.idxM_of_occupied n hw, hS, Cpu.result, h.slotW hw, h.rf]
      rfl
  | false =>
      rw [o.idxM_of_empty n hw, (hslots.idleW hw).rd, RegFile.write_zero, h.rf]

namespace MatchesBack
variable (h : MatchesBack x d timer S s o n) (hslots : Slots x s.cpu o)
  (hfwd : Forwarding s.cpu o)
include h hslots

/-- The RAM and the testbench manager move on with Memory. -/
theorem step_mem : (s.step x d).mem = (S (o.idxE n)).mem ∧
    (s.step x d).irqForce = (S (o.idxE n)).irqForce := by
  have hmem : (s.step x d).mem =
      asyncRamDpWbe s.mem (s.cpu.em.busOut.memWrite && !(addrDecoder s.cpu.em.busOut.addr).csMemN)
        (ramAddr s.cpu.em.busOut.addr) s.cpu.em.busOut.byteEnable
        s.cpu.em.busOut.writeData := rfl
  have hirq : (s.step x d).irqForce =
      tbmanIrqForce (!(addrDecoder s.cpu.em.busOut.addr).csTbmanN) s.cpu.em.busOut.memWrite
        (s.cpu.em.busOut.addr.extractLsb' 0 16) s.cpu.em.busOut.writeData s.irqForce := rfl
  rw [hmem, hirq]
  cases hm : o.m with
  | true =>
      rw [o.idxE_of_occupied n hm, hS, h.slotM hm, h.mem, h.irqForce]
      exact ⟨rfl, rfl⟩
  | false =>
      have hwe : s.cpu.em.busOut.memWrite = false := (hslots.idleM hm).memWriteM
      rw [o.idxE_of_empty n hm, hwe, h.mem, h.irqForce]
      simp [asyncRamDpWbe, Ram.write, tbmanIrqForce]

omit hS hslots in
/-- What Memory hands on, if the timer shows it what it shows the sequential machine. -/
theorem step_slotW (htimer : o.m = true → timer (o.idxM n) = s.readDataTimer)
    (hm : o.m = true) :
    (s.step x d).cpu.mw = (S (o.idxM n)).mw x d (timer (o.idxM n)) := by
  have hstep : (s.step x d).cpu.mw = s.cpu.em.toMW
      (dataMux (addrDecoder s.cpu.em.busOut.addr).csTimerN
        (addrDecoder s.cpu.em.busOut.addr).csTbmanN s.readDataTimer
        (tbmanRdata d s.irqForce (s.cpu.em.busOut.addr.extractLsb' 0 16))
        (s.mem (ramAddr s.cpu.em.busOut.addr))) := rfl
  rw [hstep, ← htimer hm, h.slotM hm, h.mem, h.irqForce]
  rfl

include hfwd

/-- The `tohost` register moves on with Execute. -/
theorem step_tohost : (s.step x d).cpu.tohost = (S (o.idxD n)).tohost := by
  have hstep : (s.step x d).cpu.tohost =
      csr s.cpu.de.csrE s.cpu.rd1EH s.cpu.de.immExtE s.cpu.de.instrE s.cpu.tohost := rfl
  rw [hstep]
  cases he : o.e with
  | true =>
      obtain ⟨h1, -⟩ := h.operands hS hslots hfwd he
      rw [o.idxD_of_occupied n he, hS, h1, h.tohost, h.slotE he]
      rfl
  | false =>
      rw [o.idxD_of_empty n he, (hslots.idleE he).csrE, ← h.tohost]
      rfl

/-- The part from Memory on is kept a cycle longer: what Execute works on has been right. -/
theorem step_memory (htimer : o.m = true → timer (o.idxM n) = s.readDataTimer) :
    MatchesMemory x d timer S (s.step x d) (o.next x s.cpu) (o.idxM n) where
  rf := h.memory.step_rf hS hslots
  mem := (h.step_mem hS hslots).1
  irqForce := (h.step_mem hS hslots).2
  slotW := h.step_slotW htimer
  slotM he := h.toEM hS hslots hfwd he

/-- **A clock cycle keeps the relation from Execute on**, if what Decode hands on is the next
instruction of the sequential run. -/
theorem step (htimer : o.m = true → timer (o.idxM n) = s.readDataTimer)
    (hslotE : (o.next x s.cpu).e = true →
      (s.step x d).cpu.de = decodeStage x (S (o.idxD n)).instr (s.step x d).cpu.de.rd1E
        (s.step x d).cpu.de.rd2E (S (o.idxD n)).pc (S (o.idxD n)).pcPlus4) :
    MatchesBack x d timer S (s.step x d) (o.next x s.cpu) (o.idxM n) := by
  obtain ⟨hrf, hmem, hirq, hslotW, hslotM⟩ := h.step_memory hS hslots hfwd htimer
  exact ⟨hrf, hmem, hirq, h.step_tohost hS hslots hfwd, hslotW, hslotM, hslotE⟩

end MatchesBack

namespace Matches
variable (h : Matches x d timer S s o n) (hslots : Slots x s.cpu o)
  (hfwd : Forwarding s.cpu o)
include h hslots hfwd

omit hS hslots hfwd in
/-- What Decode hands on is the next instruction of the sequential run. -/
theorem step_slotE (he : (o.next x s.cpu).e = true) :
    (s.step x d).cpu.de = decodeStage x (S (o.idxD n)).instr (s.step x d).cpu.de.rd1E
      (s.step x d).cpu.de.rd2E (S (o.idxD n)).pc (S (o.idxD n)).pcPlus4 := by
  by_cases hs : s.cpu.stall = true
  · simp [Occupancy.next_of_stall o hs] at he
  · replace hs := eq_false_of_ne_true hs
    by_cases hp : s.cpu.pcSrc x = 0b00#2
    · rw [Occupancy.next_of_straight o hs hp] at he
      obtain ⟨hfd, -⟩ := h.slotD hp he
      obtain ⟨-, -, hde⟩ := Cpu.step_of_straight (s.busIn d) hs hp
      have hstep : (s.step x d).cpu.de = decodeStage x s.cpu.fd.instrD s.cpu.rd1DH
          s.cpu.rd2DH s.cpu.fd.pcD s.cpu.fd.pcPlus4D := hde
      rw [hstep, hfd]
      rfl
    · simp [Occupancy.next_of_pcSrc o hs hp] at he

theorem step_back (htimer : o.m = true → timer (o.idxM n) = s.readDataTimer) :
    MatchesBack x d timer S (s.step x d) (o.next x s.cpu) (o.idxM n) :=
  h.toMatchesBack.step hS hslots hfwd htimer h.step_slotE

/-- The word fetched for instruction `j` is its word in the sequential run: the stores
that are not in memory yet are those in whose shadow it is fetched. -/
theorem fetch_fresh (hs : s.cpu.stall = false) (hp : s.cpu.pcSrc x = 0b00#2) {j : ℕ}
    (hj : j = o.idxD n + o.d.toNat) (hfresh : FreshFetch x S j)
    (hD : o.d = true → ¬(S (o.idxD n)).Transfers x) :
    s.mem (ramAddr (S j).pc) = (S j).instr := by
  rw [h.mem, Arch.instr]
  have hE : o.e = true → ¬(S (o.idxE n)).Transfers x := fun he hT =>
    (h.transfers_iff hS hslots hfwd he).mpr hT hp
  have hL : o.e = true → ¬LoadUse (S (o.idxE n)).instr (S (o.idxD n)).instr := by
    intro he hL
    obtain ⟨hfd, -⟩ := h.slotD hp (hslots.behindE he)
    have hstall := (hslots.stall_iff he).mpr
    rw [h.slotE he, hfd] at hstall
    simp [hstall hL] at hs
  -- the stores that are not in memory yet: of Decode, of Execute and of Memory
  have stepD : (S j).mem (ramAddr (S j).pc) = (S (o.idxD n)).mem (ramAddr (S j).pc) := by
    cases hd : o.d with
    | false => rw [hj, hd, Bool.toNat_false, Nat.add_zero]
    | true =>
        rw [hd, Bool.toNat_true] at hj
        have hstore := hfresh _ (Or.inl hj)
        rwa [← hj] at hstore
  have stepE : (S (o.idxD n)).mem (ramAddr (S j).pc) =
      (S (o.idxE n)).mem (ramAddr (S j).pc) := by
    cases he : o.e with
    | false => rw [o.idxD_of_empty n he]
    | true =>
        have hd := hslots.behindE he
        have hidx := o.idxD_of_occupied n he
        rw [hd, hidx, Bool.toNat_true] at hj
        rw [hidx] at hD ⊢
        exact hfresh _ (Or.inr (Or.inl ⟨hj, hD hd⟩))
  have stepM : (S (o.idxE n)).mem (ramAddr (S j).pc) =
      (S (o.idxM n)).mem (ramAddr (S j).pc) := by
    cases hm : o.m with
    | false => rw [o.idxE_of_empty n hm]
    | true =>
        have hidxE := o.idxE_of_occupied n hm
        rw [hidxE] at hE hL ⊢
        refine hfresh _ ?_
        cases he : o.e with
        | true =>
            have hd := hslots.behindE he
            have hidxD : o.idxD n = o.idxM n + 2 := by
              rw [o.idxD_of_occupied n he, hidxE]
            rw [hidxD] at hD hL
            rw [hidxD, hd, Bool.toNat_true] at hj
            exact Or.inr (Or.inr ⟨hj, hE he, hD hd, hL he⟩)
        | false =>
            have hidxD : o.idxD n = o.idxM n + 1 := by
              rw [o.idxD_of_empty n he, hidxE]
            rw [hidxD] at hD hj
            cases hd : o.d with
            | true =>
                rw [hd, Bool.toNat_true] at hj
                exact Or.inr (Or.inl ⟨hj, hD hd⟩)
            | false =>
                rw [hd, Bool.toNat_false] at hj
                exact Or.inl hj
  rw [stepD, stepE, stepM]

/-- **A clock cycle keeps the simulation relation**, if the instruction that Decode will
hand on next is not fetched in the shadow of a store to its word. -/
theorem step (htimer : o.m = true → timer (o.idxM n) = s.readDataTimer)
    (hfresh : FreshFetch x S ((o.next x s.cpu).idxD (o.idxM n))) :
    Matches x d timer S (s.step x d) (o.next x s.cpu) (o.idxM n) := by
  have hback := h.step_back hS hslots hfwd htimer
  have hslots' : Slots x (s.step x d).cpu (o.next x s.cpu) := hslots.step (s.busIn d)
  have hfwd' : Forwarding (s.step x d).cpu (o.next x s.cpu) :=
    Forwarding.step hslots (s.busIn d)
  by_cases hs : s.cpu.stall = true
  · -- the front is held
    have he := hslots.e_of_stall hs
    have hp : s.cpu.pcSrc x = 0b00#2 := by
      by_contra hp
      simp [hslots.not_stall_of_pcSrc hp] at hs
    obtain ⟨hfd, hpc⟩ := h.slotD hp (hslots.behindE he)
    obtain ⟨hpc', hfd', -⟩ := Cpu.step_of_stall (x := x) (s.busIn d) hs
    have hidx : (o.next x s.cpu).idxD (o.idxM n) = o.idxD n := by
      rw [Occupancy.next_of_stall o hs]
      rfl
    refine ⟨hback, ?_, ?_⟩
    · intro _ _
      rw [hidx]
      exact ⟨hfd'.trans hfd, hpc'.trans hpc⟩
    · intro _ hd
      simp [Occupancy.next_of_stall o hs, hslots.behindE he] at hd
  · replace hs := eq_false_of_ne_true hs
    by_cases hp : s.cpu.pcSrc x = 0b00#2
    · -- one word further
      obtain ⟨hpc', hfd', -⟩ := Cpu.step_of_straight (s.busIn d) hs hp
      have hidx : (o.next x s.cpu).idxD (o.idxM n) = o.idxD n + o.d.toNat := by
        rw [Occupancy.next_of_straight o hs hp]
        rfl
      refine ⟨hback, ?_, ?_⟩
      · intro hp' _
        have hE' : o.d = true → (o.next x s.cpu).e = true := by
          intro hd
          rw [Occupancy.next_of_straight o hs hp, hd]
        have hD : o.d = true → ¬(S (o.idxD n)).Transfers x := fun hd hT =>
          (hback.transfers_iff hS hslots' hfwd' (hE' hd)).mpr hT hp'
        have hpc : s.cpu.pc = (S (o.idxD n + o.d.toNat)).pc := by
          cases hd : o.d with
          | true =>
              obtain ⟨-, hpcD⟩ := h.slotD hp hd
              exact hpcD.trans (hback.pc_succ_idxE hS hslots' hfwd' (hE' hd) hp').symm
          | false => exact h.fetch hp hd
        rw [hidx] at hfresh ⊢
        have hword := h.fetch_fresh hS hslots hfwd hs hp rfl hfresh hD
        have hfd : (s.step x d).cpu.fd =
            ⟨s.mem (ramAddr s.cpu.pc), s.cpu.pc, s.cpu.pc + 4#32⟩ := hfd'
        have hplus4 : s.cpu.pc + 4#32 = (S (o.idxD n + o.d.toNat)).pcPlus4 := by
          rw [Arch.pcPlus4, adder_sum_false, hpc]
        refine ⟨?_, hpc'.trans hplus4⟩
        rw [hfd, hplus4, hpc, hword]
      · intro _ hd
        simp [Occupancy.next_of_straight o hs hp] at hd
    · -- the target
      have he := hslots.e_of_pcSrc hp
      obtain ⟨hpc', -, -⟩ := Cpu.step_of_pcSrc (s.busIn d) hs hp
      have hidx : (o.next x s.cpu).idxD (o.idxM n) = o.idxE n + 1 := by
        rw [Occupancy.next_of_pcSrc o hs hp]
        exact o.idxD_of_occupied n he
      refine ⟨hback, ?_, ?_⟩
      · intro _ hd
        simp [Occupancy.next_of_pcSrc o hs hp] at hd
      · intro _ _
        rw [hidx]
        exact hpc'.trans (h.pcNext_eq hS hslots hfwd he hp)

end Matches

end

end SmuRv32im
