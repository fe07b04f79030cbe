import SmuRv32im.MachineCode

/-!
# The String Routines

`strcmp` and `strlen` of the C library, as the compiler left them in the memory image of the
`strcmp` test: their machine code, wherever in the RAM it is, on any two strings in the RAM.
What is proved is total correctness of the code on the hart, with the number of instructions
it takes, and from it what a caller of the routines finds on the pipeline.

## Main results

* `Hart.strcmp_returns`, `Hart.strlen_returns`: the routines on the hart.
* `strcmpTime_le`: `strcmp` takes six instructions for each character both strings have, and
  nine at most besides.
* `Boot.strcmp_call`, `Boot.strlen_call`: a call on the pipeline.
-/

namespace SmuRv32im

open ByteMemory (Mem load)
open Partial (leads_zero)

/-- The string at `p`: its bytes, none of them zero, and the zero behind them, all in the
RAM. -/
def CString (m : Mem 32) : Word → List (BitVec 8) → Prop
  | p, [] => InRam p ∧ m p = 0#8
  | p, c :: cs => InRam p ∧ m p = c ∧ c ≠ 0#8 ∧ CString m (p + 1#32) cs

instance (m : Mem 32) : (p : Word) → (cs : List (BitVec 8)) → Decidable (CString m p cs)
  | p, [] => inferInstanceAs (Decidable (InRam p ∧ m p = 0#8))
  | p, c :: cs =>
    have : Decidable (CString m (p + 1#32) cs) := instDecidableCString m (p + 1#32) cs
    inferInstanceAs (Decidable (InRam p ∧ m p = c ∧ c ≠ 0#8 ∧ CString m (p + 1#32) cs))

theorem CString.inRam {m : Mem 32} {p : Word} {cs : List (BitVec 8)} (h : CString m p cs) :
    InRam p := by
  cases cs with
  | nil => exact h.1
  | cons c cs => exact h.1

/-- The registers the routines work in. -/
def scratch : List (BitVec 5) := [10#5, 11#5, 14#5, 15#5]

/-- The code of `strcmp`. -/
def strcmpCode : List Instr :=
  [.load .lbu 14#5 10#5 0#12, .load .lbu 15#5 11#5 0#12, .branch .bne 15#5 14#5 22#12,
    .branch .beq 15#5 0#5 24#12, addi 10#5 10#5 1#12, addi 11#5 11#5 1#12,
    .compute (.jal 0#5 4#20), .branch .beq 15#5 0#5 16#12, .load .lbu 14#5 10#5 0#12,
    .load .lbu 15#5 11#5 0#12, addi 10#5 10#5 1#12, addi 11#5 11#5 1#12,
    .branch .beq 15#5 14#5 0xFF6#12, addi 10#5 0#5 1#12, .jalr 0#5 1#5 0#12,
    addi 10#5 0#5 0#12, .jalr 0#5 1#5 0#12]

example : strcmpCode.map Instr.encode =
    [0x00054703#32, 0x0005c783#32, 0x02e79663#32, 0x02078863#32, 0x00150513#32, 0x00158593#32,
      0x0080006f#32, 0x02078063#32, 0x00054703#32, 0x0005c783#32, 0x00150513#32, 0x00158593#32,
      0xfee786e3#32, 0x00100513#32, 0x00008067#32, 0x00000513#32, 0x00008067#32] := by
  decide

/-- The code of `strlen`. -/
def strlenCode : List Instr :=
  [.load .lbu 15#5 10#5 0#12, .branch .beq 15#5 0#5 16#12, addi 15#5 0#5 0#12,
    addi 15#5 15#5 1#12, .compute (.reg .add 14#5 10#5 15#5), .load .lbu 14#5 14#5 0#12,
    .branch .bne 14#5 0#5 0xFFA#12, addi 10#5 15#5 0#12, .jalr 0#5 1#5 0#12,
    addi 15#5 0#5 0#12, addi 10#5 15#5 0#12, .jalr 0#5 1#5 0#12]

example : strlenCode.map Instr.encode =
    [0x00054783#32, 0x02078063#32, 0x00000793#32, 0x00178793#32, 0x00f50733#32, 0x00074703#32,
      0xfe071ae3#32, 0x00078513#32, 0x00008067#32, 0x00000793#32, 0x00078513#32,
      0x00008067#32] := by
  decide

/-- What a round of `strcmp` takes behind the comparison of two characters: `rest` if they are
equal and not the end. -/
def strcmpRound (rest : List (BitVec 8) → List (BitVec 8) → ℕ) :
    List (BitVec 8) → List (BitVec 8) → ℕ
  | [], [] => 3
  | [], _ :: _ => 2
  | _ :: _, [] => 2
  | c :: cs, d :: ds => if c = d then rest cs ds + 1 else 2

/-- What the loop of `strcmp` takes, from the second character on. -/
def strcmpLoop : List (BitVec 8) → List (BitVec 8) → ℕ
  | [], ds => 5 + strcmpRound (fun _ _ => 0) [] ds
  | c :: cs, ds => 5 + strcmpRound (fun _ => strcmpLoop cs) (c :: cs) ds

/-- What `strcmp` takes. -/
def strcmpTime (cs ds : List (BitVec 8)) : ℕ :=
  3 + strcmpRound (fun cs ds => 3 + strcmpLoop cs ds) cs ds

theorem strcmpLoop_le (cs ds : List (BitVec 8)) :
    strcmpLoop cs ds ≤ 6 * min cs.length ds.length + 8 := by
  induction cs generalizing ds with
  | nil => cases ds <;> simp [strcmpLoop, strcmpRound]
  | cons c cs ih =>
      cases ds with
      | nil => simp [strcmpLoop, strcmpRound]
      | cons d ds =>
          have hrest := ih ds
          rw [strcmpLoop, strcmpRound, List.length_cons, List.length_cons]
          split_ifs <;> omega

/-- Six instructions for each character. -/
theorem strcmpTime_le (cs ds : List (BitVec 8)) :
    strcmpTime cs ds ≤ 6 * min cs.length ds.length + 9 := by
  obtain _ | ⟨c, cs⟩ := cs
  · cases ds <;> simp [strcmpTime, strcmpRound]
  obtain _ | ⟨d, ds⟩ := ds
  · simp [strcmpTime, strcmpRound]
  have hrest := strcmpLoop_le cs ds
  rw [strcmpTime, strcmpRound, List.length_cons, List.length_cons]
  split_ifs <;> omega

namespace Hart

/-- A return to the caller with a result. -/
structure Returns (s : Hart) (v : Word) (t : Hart) : Prop where
  pc : t.pc = clearBit0 (s.regs 1#5)
  result : t.regs 10#5 = v
  kept : s.Kept scratch t

/-- A routine returns to its caller's caller. -/
theorem Kept.returns {s t u : Hart} {v : Word} (h : s.Kept scratch t) (h' : t.Returns v u) :
    s.Returns v u where
  pc := by rw [h'.pc, h.regs 1#5 (by decide)]
  result := h'.result
  kept := h.trans h'.kept

theorem setWidth_inj {a b : BitVec 8} : a.setWidth 32 = b.setWidth 32 ↔ a = b := by
  rw [← BitVec.toNat_inj, BitVec.toNat_setWidth, BitVec.toNat_setWidth, ← BitVec.toNat_inj]
  omega

theorem setWidth_eq_zero {a : BitVec 8} : a.setWidth 32 = 0#32 ↔ a = 0#8 :=
  setWidth_inj (b := 0#8)

section
variable {base p q : Word} {s : Hart}

/-- The ends of `strcmp`: `li x10, v` and `ret`. -/
theorem strcmp_end {k : ℕ} (h : s.At base strcmpCode k) {v : BitVec 12}
    (hli : strcmpCode[k]? = some (addi 10#5 0#5 v))
    (hret : strcmpCode[k + 1]? = some (.jalr 0#5 1#5 0#12)) :
    Runs base strcmpCode 2 s (s.Returns (v.signExtend 32)) := by
  refine h.addi hli fun t h1 e1 => ?_
  refine h1.ret hret fun u hpc e2 => leads_zero ⟨?_, ?_, ?_⟩
  · rw [hpc]
    simp [e1.regs, setReg]
  · rw [e2.regs _ List.not_mem_nil]
    simp [e1.regs, setReg, s.zero]
  · exact (e1.kept).trans e2.weaken

/-- The comparison in the loop. -/
theorem strcmp_compare (h : s.At base strcmpCode 8) (hp : s.regs 10#5 = p)
    (hq : s.regs 11#5 = q) (hinp : InRam p) (hinq : InRam q) :
    Runs base strcmpCode 5 s fun t =>
      t.At base strcmpCode (if s.mem q = s.mem p then 7 else 13) ∧ t.regs 10#5 = p + 1#32 ∧
        t.regs 11#5 = q + 1#32 ∧ t.regs 15#5 = (s.mem q).setWidth 32 ∧ s.Kept scratch t := by
  subst hp hq
  refine h.lbu rfl hinp fun t1 h1 e1 => ?_
  have hq1 : t1.regs 11#5 = s.regs 11#5 := by simp [e1.regs, setReg]
  refine h1.lbu rfl (hq1 ▸ hinq) fun t2 h2 e2 => ?_
  refine h2.addi rfl fun t3 h3 e3 => ?_
  refine h3.addi rfl fun t4 h4 e4 => ?_
  refine h4.branch rfl 7 (by decide) fun t5 h5 e5 => ?_
  rw [hq1, e1.mem] at e2
  have hcond : BranchOp.beq.Holds (t4.regs 15#5) (t4.regs 14#5) ↔
      s.mem (s.regs 11#5) = s.mem (s.regs 10#5) := by
    rw [← setWidth_inj]
    simp [BranchOp.Holds, e4.regs, e3.regs, e2.regs, e1.regs, setReg]
  rw [if_congr hcond rfl rfl] at h5
  refine leads_zero ⟨h5, ?_, ?_, ?_, ?_⟩
  · rw [e5.regs _ List.not_mem_nil]
    simp [e4.regs, e3.regs, e2.regs, e1.regs, setReg]
  · rw [e5.regs _ List.not_mem_nil]
    simp [e4.regs, e3.regs, e2.regs, e1.regs, setReg]
  · rw [e5.regs _ List.not_mem_nil]
    simp [e4.regs, e3.regs, e2.regs, setReg]
  · exact (((((e1.kept).trans (e2.kept)).trans
      (e3.kept)).trans (e4.kept)).trans e5.weaken)

/-- The comparison of the first characters. -/
theorem strcmp_enter (h : s.At base strcmpCode 0) (hp : s.regs 10#5 = p)
    (hq : s.regs 11#5 = q) (hinp : InRam p) (hinq : InRam q) :
    Runs base strcmpCode 3 s fun t =>
      t.At base strcmpCode (if s.mem q = s.mem p then 3 else 13) ∧ t.regs 10#5 = p ∧
        t.regs 11#5 = q ∧ t.regs 15#5 = (s.mem q).setWidth 32 ∧ s.Kept scratch t := by
  subst hp hq
  refine h.lbu rfl hinp fun t1 h1 e1 => ?_
  have hq1 : t1.regs 11#5 = s.regs 11#5 := by simp [e1.regs, setReg]
  refine h1.lbu rfl (hq1 ▸ hinq) fun t2 h2 e2 => ?_
  refine h2.branch rfl 13 (by decide) fun t3 h3 e3 => ?_
  rw [hq1, e1.mem] at e2
  have hcond : BranchOp.bne.Holds (t2.regs 15#5) (t2.regs 14#5) ↔
      ¬s.mem (s.regs 11#5) = s.mem (s.regs 10#5) := by
    rw [← setWidth_inj]
    simp [BranchOp.Holds, e2.regs, e1.regs, setReg]
  rw [if_congr hcond rfl rfl, ite_not] at h3
  refine leads_zero ⟨h3, ?_, ?_, ?_, ?_⟩
  · rw [e3.regs _ List.not_mem_nil]
    simp [e2.regs, e1.regs, setReg]
  · rw [e3.regs _ List.not_mem_nil]
    simp [e2.regs, e1.regs, setReg]
  · rw [e3.regs _ List.not_mem_nil]
    simp [e2.regs, setReg]
  · exact ((e1.kept).trans (e2.kept)).trans e3.weaken

/-- **A round of `strcmp`**, given the comparison of its two characters. -/
theorem strcmp_round {cs ds : List (BitVec 8)} (hp : CString s.mem (s.regs 10#5) cs)
    (hq : CString s.mem (s.regs 11#5) ds) {m k : ℕ} {off : BitVec 12}
    (hcmp : Runs base strcmpCode m s fun t =>
      t.At base strcmpCode (if s.mem (s.regs 11#5) = s.mem (s.regs 10#5) then k else 13) ∧
        t.regs 10#5 = p ∧ t.regs 11#5 = q ∧
        t.regs 15#5 = (s.mem (s.regs 11#5)).setWidth 32 ∧ s.Kept scratch t)
    (hk : strcmpCode[k]? = some (.branch .beq 15#5 0#5 off))
    (hoff : BitVec.ofNat 32 (4 * k) + byteOffset off = BitVec.ofNat 32 (4 * 15))
    {rest : List (BitVec 8) → List (BitVec 8) → ℕ}
    (hrest : ∀ u c cs' ds', cs = c :: cs' → ds = c :: ds' → u.At base strcmpCode (k + 1) →
      u.regs 10#5 = p → u.regs 11#5 = q → s.Kept scratch u →
      Runs base strcmpCode (rest cs' ds') u (u.Returns (if cs' = ds' then 0#32 else 1#32))) :
    Runs base strcmpCode (m + strcmpRound rest cs ds) s
      (s.Returns (if cs = ds then 0#32 else 1#32)) := by
  have hdiffer : s.mem (s.regs 11#5) ≠ s.mem (s.regs 10#5) →
      Runs base strcmpCode (m + 2) s (s.Returns 1#32) := by
    intro hne
    refine hcmp.trans ?_
    rintro t ⟨ht, -, -, -, hkept⟩
    rw [if_neg hne] at ht
    exact (strcmp_end ht rfl rfl).mono fun u hu => hkept.returns hu
  cases cs with
  | nil =>
      obtain ⟨-, hzero⟩ := hp
      cases ds with
      | nil =>
          obtain ⟨-, hzero'⟩ := hq
          refine hcmp.trans ?_
          rintro t ⟨ht, -, -, h15, hkept⟩
          rw [if_pos (hzero'.trans hzero.symm)] at ht
          refine ht.branch hk 15 hoff fun u hu e => ?_
          have hnul : BranchOp.beq.Holds (t.regs 15#5) (t.regs 0#5) := by
            rw [h15, t.zero]
            exact setWidth_eq_zero.mpr hzero'
          rw [if_pos hnul] at hu
          refine (strcmp_end hu rfl rfl).mono fun v hv => ?_
          exact (hkept.trans e.weaken).returns hv
      | cons d ds =>
          obtain ⟨-, hd, hnul, -⟩ := hq
          rw [if_neg (List.cons_ne_nil d ds).symm]
          refine hdiffer ?_
          rw [hd, hzero]
          exact hnul
  | cons c cs =>
      obtain ⟨-, hc, hnul, -⟩ := hp
      cases ds with
      | nil =>
          obtain ⟨-, hzero'⟩ := hq
          rw [if_neg (List.cons_ne_nil c cs)]
          refine hdiffer ?_
          rw [hc, hzero']
          exact hnul.symm
      | cons d ds =>
          obtain ⟨-, hd, -, -⟩ := hq
          by_cases hcd : c = d
          · have hiff : c :: cs = d :: ds ↔ cs = ds := by rw [hcd, List.cons_inj_right]
            rw [strcmpRound, if_pos hcd, if_congr hiff rfl rfl]
            refine hcmp.trans ?_
            rintro t ⟨ht, h10, h11, h15, hkept⟩
            rw [if_pos (by rw [hd, hc, hcd])] at ht
            refine ht.branch hk 15 hoff fun u hu e => ?_
            have hnot : ¬BranchOp.beq.Holds (t.regs 15#5) (t.regs 0#5) := by
              rw [h15, t.zero]
              intro hzero
              exact hnul (hcd.trans (hd.symm.trans (setWidth_eq_zero.mp hzero)))
            rw [if_neg hnot] at hu
            have hkept' := hkept.trans e.weaken
            refine (hrest u c cs ds rfl (by rw [hcd]) hu ?_ ?_ hkept').mono fun v hv => ?_
            · exact (e.regs _ List.not_mem_nil).trans h10
            · exact (e.regs _ List.not_mem_nil).trans h11
            · exact hkept'.returns hv
          · rw [strcmpRound, if_neg hcd, if_neg fun h => hcd (List.cons.inj h).1]
            refine hdiffer ?_
            rw [hc, hd]
            exact Ne.symm hcd

/-- **The loop of `strcmp`**, by induction on the first string. -/
theorem strcmp_loop {cs ds : List (BitVec 8)} (h : s.At base strcmpCode 8)
    (hp : CString s.mem (s.regs 10#5) cs) (hq : CString s.mem (s.regs 11#5) ds) :
    Runs base strcmpCode (strcmpLoop cs ds) s (s.Returns (if cs = ds then 0#32 else 1#32)) := by
  have hcmp := strcmp_compare h rfl rfl hp.inRam hq.inRam
  induction cs generalizing ds s with
  | nil =>
      refine strcmp_round hp hq hcmp rfl (by decide) ?_
      rintro u c cs' ds' ⟨⟩
  | cons c cs ih =>
      refine strcmp_round hp hq hcmp rfl (by decide) ?_
      rintro u c' cs' ds' ⟨⟩ rfl hu h10 h11 hkept
      have hp' : CString u.mem (u.regs 10#5) cs := by
        rw [hkept.mem, h10]
        exact hp.2.2.2
      have hq' : CString u.mem (u.regs 11#5) ds' := by
        rw [hkept.mem, h11]
        exact hq.2.2.2
      exact ih hu hp' hq' (strcmp_compare hu rfl rfl hp'.inRam hq'.inRam)

/-- On to the second characters. -/
theorem strcmp_advance (h : s.At base strcmpCode 4) :
    Runs base strcmpCode 3 s fun t =>
      t.At base strcmpCode 8 ∧ t.regs 10#5 = s.regs 10#5 + 1#32 ∧
        t.regs 11#5 = s.regs 11#5 + 1#32 ∧ s.Kept scratch t := by
  refine h.addi rfl fun t1 h1 e1 => ?_
  refine h1.addi rfl fun t2 h2 e2 => ?_
  refine h2.jump rfl 8 (by decide) fun t3 h3 e3 => ?_
  refine leads_zero ⟨h3, ?_, ?_, ?_⟩
  · rw [e3.regs _ List.not_mem_nil]
    simp [e2.regs, e1.regs, setReg]
  · rw [e3.regs _ List.not_mem_nil]
    simp [e2.regs, e1.regs, setReg]
  · exact ((e1.kept).trans (e2.kept)).trans e3.weaken

/-- **`strcmp`** returns 0 if the strings are equal and 1 otherwise, and touches nothing but
its scratch registers. -/
theorem strcmp_returns {cs ds : List (BitVec 8)} (h : s.At base strcmpCode 0)
    (hp : CString s.mem (s.regs 10#5) cs) (hq : CString s.mem (s.regs 11#5) ds) :
    Runs base strcmpCode (strcmpTime cs ds) s (s.Returns (if cs = ds then 0#32 else 1#32)) := by
  refine strcmp_round hp hq (strcmp_enter h rfl rfl hp.inRam hq.inRam) rfl (by decide) ?_
  rintro u c cs' ds' rfl rfl hu h10 h11 hkept
  refine (strcmp_advance hu).trans ?_
  rintro v ⟨hv, hv10, hv11, hkept'⟩
  have hmem := hkept'.mem.trans hkept.mem
  have hp' : CString v.mem (v.regs 10#5) cs' := by
    rw [hmem, hv10, h10]
    exact hp.2.2.2
  have hq' : CString v.mem (v.regs 11#5) ds' := by
    rw [hmem, hv11, h11]
    exact hq.2.2.2
  exact (strcmp_loop hv hp' hq').mono fun w hw => hkept'.returns hw

/-! ### `strlen` -/

/-- The ends of `strlen`: `mv x10, x15` and `ret`. -/
theorem strlen_end {k : ℕ} (h : s.At base strlenCode k)
    (hmv : strlenCode[k]? = some (addi 10#5 15#5 0#12))
    (hret : strlenCode[k + 1]? = some (.jalr 0#5 1#5 0#12)) :
    Runs base strlenCode 2 s (s.Returns (s.regs 15#5)) := by
  refine h.addi hmv fun t h1 e1 => ?_
  refine h1.ret hret fun u hpc e2 => leads_zero ⟨?_, ?_, ?_⟩
  · rw [hpc]
    simp [e1.regs, setReg]
  · rw [e2.regs _ List.not_mem_nil]
    simp [e1.regs, setReg]
  · exact (e1.kept).trans e2.weaken

/-- A round of the loop. -/
theorem strlen_round (h : s.At base strlenCode 3)
    (hin : InRam (s.regs 10#5 + (s.regs 15#5 + 1#32))) :
    Runs base strlenCode 4 s fun t =>
      t.At base strlenCode (if s.mem (s.regs 10#5 + (s.regs 15#5 + 1#32)) = 0#8 then 7 else 3) ∧
        t.regs 10#5 = s.regs 10#5 ∧ t.regs 15#5 = s.regs 15#5 + 1#32 ∧ s.Kept scratch t := by
  refine h.addi rfl fun t1 h1 e1 => ?_
  refine h1.add rfl fun t2 h2 e2 => ?_
  have haddr : t2.regs 14#5 = s.regs 10#5 + (s.regs 15#5 + 1#32) := by
    simp [e2.regs, e1.regs, setReg]
  refine h2.lbu rfl (haddr ▸ hin) fun t3 h3 e3 => ?_
  refine h3.branch rfl 3 (by decide) fun t4 h4 e4 => ?_
  rw [haddr, e2.mem, e1.mem] at e3
  have hcond : BranchOp.bne.Holds (t3.regs 14#5) (t3.regs 0#5) ↔
      ¬s.mem (s.regs 10#5 + (s.regs 15#5 + 1#32)) = 0#8 := by
    rw [t3.zero, ← setWidth_eq_zero]
    simp [BranchOp.Holds, e3.regs, setReg]
  rw [if_congr hcond rfl rfl, ite_not] at h4
  refine leads_zero ⟨h4, ?_, ?_, ?_⟩
  · rw [e4.regs _ List.not_mem_nil]
    simp [e3.regs, e2.regs, e1.regs, setReg]
  · rw [e4.regs _ List.not_mem_nil]
    simp [e3.regs, e2.regs, e1.regs, setReg]
  · exact (((e1.kept).trans (e2.kept)).trans
      (e3.kept)).trans e4.weaken

/-- The loop of `strlen`, by induction on the string behind the character counted last. -/
theorem strlen_loop {cs : List (BitVec 8)} (h : s.At base strlenCode 3)
    (hp : CString s.mem (s.regs 10#5 + (s.regs 15#5 + 1#32)) cs) :
    Runs base strlenCode (4 * cs.length + 6) s
      (s.Returns (s.regs 15#5 + 1#32 + BitVec.ofNat 32 cs.length)) := by
  have hround := strlen_round h hp.inRam
  induction cs generalizing s with
  | nil =>
      refine hround.trans (n := 2) ?_
      rintro t ⟨ht, -, h15, hkept⟩
      rw [if_pos hp.2] at ht
      have hend := strlen_end ht rfl rfl
      rw [h15] at hend
      refine hend.mono fun u hu => hkept.returns ?_
      rwa [List.length_nil, BitVec.add_zero]
  | cons c cs ih =>
      obtain ⟨-, hc, hnul, hp'⟩ := hp
      have hsteps : 4 * (c :: cs).length + 6 = 4 + (4 * cs.length + 6) := by
        rw [List.length_cons]
        omega
      rw [hsteps]
      refine hround.trans ?_
      rintro t ⟨ht, h10, h15, hkept⟩
      rw [if_neg (hc.trans_ne hnul)] at ht
      have hrest : CString t.mem (t.regs 10#5 + (t.regs 15#5 + 1#32)) cs := by
        rwa [hkept.mem, h10, h15, ← BitVec.add_assoc]
      have hresult : s.regs 15#5 + 1#32 + BitVec.ofNat 32 (c :: cs).length =
          t.regs 15#5 + 1#32 + BitVec.ofNat 32 cs.length := by
        rw [h15, List.length_cons, Nat.add_comm, BitVec.ofNat_add, ← BitVec.add_assoc]
      rw [hresult]
      refine (ih ht hrest (strlen_round ht hrest.inRam)).mono fun u hu => hkept.returns hu

/-- **`strlen`** returns the number of characters. -/
theorem strlen_returns {cs : List (BitVec 8)} (h : s.At base strlenCode 0)
    (hp : CString s.mem (s.regs 10#5) cs) :
    Runs base strlenCode (4 * cs.length + 5) s (s.Returns (BitVec.ofNat 32 cs.length)) := by
  refine h.lbu rfl hp.inRam fun t1 h1 e1 => ?_
  refine h1.branch rfl 9 (by decide) fun t2 h2 e2 => ?_
  have hcond : BranchOp.beq.Holds (t1.regs 15#5) (t1.regs 0#5) ↔ s.mem (s.regs 10#5) = 0#8 := by
    rw [t1.zero, ← setWidth_eq_zero]
    simp [BranchOp.Holds, e1.regs, setReg]
  rw [if_congr hcond rfl rfl] at h2
  have hkept : s.Kept scratch t2 := (e1.kept).trans e2.weaken
  cases cs with
  | nil =>
      rw [if_pos hp.2] at h2
      refine h2.addi rfl fun t3 h3 e3 => ?_
      have hend := strlen_end h3 rfl rfl
      have h15 : t3.regs 15#5 = 0#32 := by simp [e3.regs, setReg, t2.zero]
      rw [h15] at hend
      exact hend.mono fun u hu => (hkept.trans (e3.kept)).returns hu
  | cons c cs =>
      obtain ⟨-, hc, hnul, hp'⟩ := hp
      rw [if_neg (hc.trans_ne hnul)] at h2
      refine h2.addi rfl fun t3 h3 e3 => ?_
      have hkept' := hkept.trans (e3.kept)
      have h15 : t3.regs 15#5 = 0#32 := by simp [e3.regs, setReg, t2.zero]
      have h10 : t3.regs 10#5 = s.regs 10#5 := by
        simp [e3.regs, setReg, e2.regs _ List.not_mem_nil, e1.regs]
      have hrest : CString t3.mem (t3.regs 10#5 + (t3.regs 15#5 + 1#32)) cs := by
        rwa [hkept'.mem, h10, h15, BitVec.zero_add]
      have hresult : BitVec.ofNat 32 (c :: cs).length =
          t3.regs 15#5 + 1#32 + BitVec.ofNat 32 cs.length := by
        rw [h15, List.length_cons, Nat.add_comm, BitVec.ofNat_add, BitVec.zero_add]
      rw [hresult]
      exact (strlen_loop h3 hrest).mono fun u hu => hkept'.returns hu

end

end Hart

/-! ### Calls on the pipeline -/

namespace Boot
variable (b : Boot)

/-- What the pipeline shows of a routine of `m` instructions from the `k`-th on that is called
in `s` and returns `v`: the cycle in which the caller goes on, the registers then, and no store
in between. -/
structure ReturnsBy (k m : ℕ) (s : Hart) (v : Word) : Prop where
  soon : b.systemRun.entry (k + m) ≤ b.systemRun.entry k + 3 * m
  pc : (b.system (b.systemRun.entry (k + m))).cpu.de.pcE = clearBit0 (s.regs 1#5)
  result : (b.system (b.systemRun.entry (k + m) + 2)).cpu.rf.read 10#5 = v
  regs : ∀ r, r ∉ scratch →
    (b.system (b.systemRun.entry (k + m) + 2)).cpu.rf.read r = s.regs r
  stores : Clocked.log (fun u => (b.system u).cpu.busWrite) (b.systemRun.entry (k + m) + 1) =
    Clocked.log (fun u => (b.system u).cpu.busWrite) (b.systemRun.entry k + 1)

theorem returnsBy_of_runs {n k m : ℕ} (h : b.Conforms n) {s : Hart} {v : Word}
    {base : Word} {code : List Instr} (hs : b.hart k = some s)
    (hruns : Hart.Runs base code m s (s.Returns v)) (hn : k + m < n) : b.ReturnsBy k m s v := by
  obtain ⟨t, ws, ⟨rfl, hQ⟩, hpc, hregs, hstores⟩ := b.routine_outputs h hs hruns hn
  refine ⟨b.entry_add_le k m, hpc.trans hQ.pc, (hregs _).trans hQ.result, ?_, ?_⟩
  · intro r hr
    rw [hregs, hQ.kept.regs r hr]
  · rw [hstores, List.filterMap_nil, List.append_nil]

section
variable {n k : ℕ} (h : b.Conforms n) {s : Hart} (hs : b.hart k = some s) {base : Word}
include h hs

/-- **A call of `strcmp` on the pipeline.** -/
theorem strcmp_call (hat : s.At base strcmpCode 0) {cs ds : List (BitVec 8)}
    (hp : CString s.mem (s.regs 10#5) cs) (hq : CString s.mem (s.regs 11#5) ds)
    (hn : k + strcmpTime cs ds < n) :
    b.ReturnsBy k (strcmpTime cs ds) s (if cs = ds then 0#32 else 1#32) :=
  b.returnsBy_of_runs h hs (Hart.strcmp_returns hat hp hq) hn

/-- **A call of `strlen` on the pipeline.** -/
theorem strlen_call (hat : s.At base strlenCode 0) {cs : List (BitVec 8)}
    (hp : CString s.mem (s.regs 10#5) cs) (hn : k + (4 * cs.length + 5) < n) :
    b.ReturnsBy k (4 * cs.length + 5) s (BitVec.ofNat 32 cs.length) :=
  b.returnsBy_of_runs h hs (Hart.strlen_returns hat hp) hn

end

end Boot

/-! ### Two calls -/

/-- A call of the code behind it on strings at `0x10001000`. -/
def callBoot (code : List Instr) (text : Word) : Boot :=
  { x := ⟨0#3, 0#5, 0#32, 0#32, 0#32⟩
    image := fun a => if a = 0#17 then 0x10001537#32 else if a = 1#17 then 0x100015B7#32
      else if a = 2#17 then 0x008000EF#32 else if a = 3#17 then 0x0000006F#32
      else if a = 0x400#17 then text
      else ((code.map Instr.encode)[a.toNat - 4]?).getD 0#32
    rf := fun _ => 0#32
    sim := true }

/-- `strcmp` of a string with itself. -/
theorem callBoot_strcmp : ∃ s, (callBoot strcmpCode 0x41#32).hart 3 = some s ∧
    (callBoot strcmpCode 0x41#32).ReturnsBy 3 (strcmpTime [0x41#8] [0x41#8]) s
      (if [0x41#8] = [0x41#8] then 0#32 else 1#32) := by
  have hrun : (callBoot strcmpCode 0x41#32).FreeRun (fun _ => 0#32) 21 := by
    decide +kernel
  obtain ⟨s, hs, hat, hp, hq⟩ := hrun.exists_hart (k := 3) (by omega)
    (P := fun s => s.At 0x10000010#32 strcmpCode 0 ∧ CString s.mem (s.regs 10#5) [0x41#8] ∧
      CString s.mem (s.regs 11#5) [0x41#8]) (by decide +kernel)
  exact ⟨s, hs, Boot.strcmp_call _ hrun.conforms hs hat hp hq (by decide)⟩

/-- The length of the string. -/
theorem callBoot_strlen : ∃ s, (callBoot strlenCode 0x41#32).hart 3 = some s ∧
    (callBoot strlenCode 0x41#32).ReturnsBy 3 (4 * [0x41#8].length + 5) s
      (BitVec.ofNat 32 [0x41#8].length) := by
  have hrun : (callBoot strlenCode 0x41#32).FreeRun (fun _ => 0#32) 15 := by
    decide +kernel
  obtain ⟨s, hs, hat, hp⟩ := hrun.exists_hart (k := 3) (by omega)
    (P := fun s => s.At 0x10000010#32 strlenCode 0 ∧ CString s.mem (s.regs 10#5) [0x41#8])
    (by decide +kernel)
  exact ⟨s, hs, Boot.strlen_call _ hrun.conforms hs hat hp (by decide)⟩

end SmuRv32im
