import SmuRv32im.Console
import SmuRv32im.StringRoutines

/-!
# The Output Routines

`tb_putc` and `tb_puts` as the compiler left them in the memory image of `dhrystone`: a leaf
routine that stores to the byte register of the testbench manager, and a loop that calls it,
with a stack frame for the return address and the loop's register. Whatever string is in the
RAM, the machine code makes the stores of the C function, behind those of the frame, and
gives back the registers and the stack pointer as it found them. On the pipeline the console
shows the lines of the string.

## Main results

* `Hart.tbPuts_outputs`: the stores of the machine code are those of `tb_puts`.
* `Boot.tbPuts_display`: a call of `tb_puts` on the console of the pipeline.
-/

namespace SmuRv32im

open ByteMemory (Mem load store load_store_same load_store_of_apart store_of_apart)
open Partial (Emits)

/-- The code of `tb_putc`, and of `tb_puts` from instruction 3 on. -/
def tbPutsCode : List Instr :=
  [.compute (.lui 15#5 0x8000F#20), .store .sw 10#5 15#5 0#12, .jalr 0#5 1#5 0#12,
    addi 2#5 2#5 0xFF0#12, .store .sw 8#5 2#5 8#12, .store .sw 1#5 2#5 12#12,
    addi 8#5 10#5 0#12, .load .lbu 10#5 10#5 0#12, .branch .beq 10#5 0#5 10#12,
    addi 8#5 8#5 1#12, .compute (.jal 1#5 0xFFFEC#20), .load .lbu 10#5 8#5 0#12,
    .branch .bne 10#5 0#5 0xFFA#12, .load .lw 1#5 2#5 12#12, .load .lw 8#5 2#5 8#12,
    addi 2#5 2#5 16#12, .jalr 0#5 1#5 0#12]

example : tbPutsCode.map Instr.encode =
    [0x8000f7b7#32, 0x00a7a023#32, 0x00008067#32, 0xff010113#32, 0x00812423#32, 0x00112623#32,
      0x00050413#32, 0x00054503#32, 0x00050a63#32, 0x00140413#32, 0xfd9ff0ef#32, 0x00044503#32,
      0xfe051ae3#32, 0x00c12083#32, 0x00812403#32, 0x01010113#32, 0x00008067#32] := by
  decide

/-! ### Strings and stores -/

/-- On a string in memory `tb_puts` prints its characters. -/
theorem CString.tbPuts_eq {m : Mem 32} {p : Word} {cs : List (BitVec 8)} (h : CString m p cs)
    (rest : List (BitVec 8)) : tbPuts (cs ++ 0#8 :: rest) = cs.map tbPutc := by
  induction cs generalizing p with
  | nil => exact if_pos rfl
  | cons c cs ih =>
      obtain ⟨-, -, hnul, hcs⟩ := h
      rw [List.cons_append, tbPuts, if_neg hnul, ih hcs, List.map_cons]

theorem CString.takeWhile_eq {m : Mem 32} {p : Word} {cs : List (BitVec 8)}
    (h : CString m p cs) : (cs ++ [0#8]).takeWhile (· != 0#8) = cs := by
  induction cs generalizing p with
  | nil => rfl
  | cons c cs ih =>
      obtain ⟨-, -, hnul, hcs⟩ := h
      rw [List.cons_append, List.takeWhile_cons, if_pos (bne_iff_ne.mpr hnul), ih hcs]

/-- A store to other bytes leaves the string alone. -/
theorem CString.store {m : Mem 32} {p a v : Word} {cs : List (BitVec 8)} (h : CString m p cs)
    (ha : a.toNat + 4 ≤ 2 ^ 32)
    (hapart : p.toNat + cs.length < a.toNat ∨ a.toNat + 4 ≤ p.toNat) :
    CString (ByteMemory.store m a 4 v) p cs := by
  induction cs generalizing p with
  | nil =>
      obtain ⟨hin, hnul⟩ := h
      refine ⟨hin, ?_⟩
      rw [store_of_apart ha hapart, hnul]
  | cons c cs ih =>
      obtain ⟨hin, hc, hnul, hcs⟩ := h
      rw [List.length_cons] at hapart
      have hnext : (p + 1#32).toNat = p.toNat + 1 := by
        obtain ⟨-, hend⟩ := hin
        rw [BitVec.toNat_add, BitVec.toNat_ofNat]
        omega
      refine ⟨hin, ?_, hnul, ih hcs (by omega)⟩
      rw [store_of_apart ha (by omega), hc]

namespace Hart

/-! ### `tb_putc` -/

section
variable {base : Word} {s : Hart}

/-- `tb_putc`, called from the loop. -/
theorem tbPutc_outputs {c : BitVec 8} (h : s.At base tbPutsCode 0)
    (hra : s.regs 1#5 = codeAddr base 11) (hc : s.regs 10#5 = c.setWidth 32) :
    Outputs base tbPutsCode 3 s fun ws t =>
      ws = [.store (tbPutc c)] ∧ t.At base tbPutsCode 11 ∧ s.Kept [15#5] t := by
  refine h.lui rfl fun t1 h1 e1 => ?_
  have haddr : Instr.addr t1 15#5 0#12 = 0x8000F000#32 := by
    rw [Instr.addr, e1.regs_same]
    rfl
  refine h1.sw_device rfl haddr (by decide) (by decide) (by decide) fun t2 h2 e2 => ?_
  refine h2.ret rfl fun t3 hpc e3 => ?_
  have hkept : s.Kept [15#5] t3 :=
    ((e1.kept).trans e2.weaken).trans e3.weaken
  refine Partial.emits_zero ⟨?_, ⟨?_, ?_⟩, hkept⟩
  · rw [e1.regs_of_ne, hc]
    rfl
  · rw [hkept.mem]
    exact h.code
  · rw [hpc, e2.regs _ List.not_mem_nil, e1.regs_of_ne, hra]
    refine (clearBit0_eq_iff.mpr ?_).symm
    exact h.code.even (by decide)

/-! ### The loop -/

/-- The registers the loop works in. -/
def tbPutsScratch : List (BitVec 5) := [1#5, 8#5, 10#5, 15#5]

/-- A round of the loop. -/
theorem tbPuts_round {c : BitVec 8} (h : s.At base tbPutsCode 9)
    (hc : s.regs 10#5 = c.setWidth 32) (hin : InRam (s.regs 8#5 + 1#32)) :
    Outputs base tbPutsCode 7 s fun ws t => ws = [.store (tbPutc c)] ∧
      t.At base tbPutsCode (if s.mem (s.regs 8#5 + 1#32) = 0#8 then 13 else 9) ∧
      t.regs 8#5 = s.regs 8#5 + 1#32 ∧
      t.regs 10#5 = (s.mem (s.regs 8#5 + 1#32)).setWidth 32 ∧ s.Kept tbPutsScratch t := by
  refine h.addi rfl fun t1 h1 e1 => ?_
  refine h1.jal rfl 0 (by decide) fun t2 h2 e2 => ?_
  have hc2 : t2.regs 10#5 = c.setWidth 32 := by
    rw [e2.regs_of_ne, e1.regs_of_ne, hc]
  refine (tbPutc_outputs h2 (e2.regs_same) hc2).trans (n := 2) ?_
  rintro ws t3 ⟨rfl, h3, k3⟩
  have hp3 : t3.regs 8#5 = s.regs 8#5 + 1#32 := by
    rw [k3.regs _ (by decide), e2.regs_of_ne, e1.regs_same]
    rfl
  have hm3 : t3.mem = s.mem := by rw [k3.mem, e2.mem, e1.mem]
  refine h3.lbu rfl (hp3 ▸ hin) fun t4 h4 e4 => ?_
  refine h4.branch rfl 9 (by decide) fun t5 h5 e5 => ?_
  rw [hp3, hm3] at e4
  have hcond : BranchOp.bne.Holds (t4.regs 10#5) (t4.regs 0#5) ↔
      ¬s.mem (s.regs 8#5 + 1#32) = 0#8 := by
    rw [t4.zero, ← setWidth_eq_zero, e4.regs_same]
    exact Iff.rfl
  rw [if_congr hcond rfl rfl, ite_not] at h5
  refine Partial.emits_zero ⟨rfl, h5, ?_, ?_, ?_⟩
  · rw [e5.regs _ List.not_mem_nil, e4.regs_of_ne, hp3]
  · rw [e5.regs _ List.not_mem_nil, e4.regs_same]
  · exact ((((e1.kept).trans (e2.kept)).trans
      (k3.mono (by decide))).trans (e4.kept)).trans e5.weaken

/-- The loop, by induction on the string behind the character printed next. -/
theorem tbPuts_loop {c : BitVec 8} {cs : List (BitVec 8)} (h : s.At base tbPutsCode 9)
    (hc : s.regs 10#5 = c.setWidth 32) (hp : CString s.mem (s.regs 8#5 + 1#32) cs) :
    Outputs base tbPutsCode (7 * (cs.length + 1)) s fun ws t =>
      ws = ((c :: cs).map tbPutc).map .store ∧ t.At base tbPutsCode 13 ∧ t.regs 10#5 = 0#32 ∧
        s.Kept tbPutsScratch t := by
  have hround := tbPuts_round h hc hp.inRam
  induction cs generalizing c s with
  | nil =>
      refine hround.mono ?_
      rintro ws t ⟨rfl, ht, -, h10, hkept⟩
      obtain ⟨-, hnul⟩ := hp
      rw [if_pos hnul] at ht
      refine ⟨rfl, ht, ?_, hkept⟩
      rw [h10, hnul]
      rfl
  | cons d cs ih =>
      obtain ⟨-, hd, hnul, hcs⟩ := hp
      have hsteps : 7 * ((d :: cs).length + 1) = 7 + 7 * (cs.length + 1) := by
        rw [List.length_cons]
        omega
      rw [hsteps]
      refine hround.trans ?_
      rintro ws t ⟨rfl, ht, h8, h10, hkept⟩
      rw [hd] at h10
      rw [hd, if_neg hnul] at ht
      have hrest : CString t.mem (t.regs 8#5 + 1#32) cs := by
        rw [hkept.mem, h8]
        exact hcs
      refine (ih ht h10 hrest (tbPuts_round ht h10 hrest.inRam)).mono ?_
      rintro us u ⟨rfl, hu, hu10, hkept'⟩
      exact ⟨rfl, hu, hu10, hkept.trans hkept'⟩

end

/-! ### `tb_puts` -/

/-- A call of `tb_puts` on a string: the frame below the stack pointer is in the RAM, apart from
the code and from the string. -/
structure TbPutsCall (base : Word) (cs : List (BitVec 8)) (s : Hart) : Prop where
  entry : s.At base tbPutsCode 3
  string : CString s.mem (s.regs 10#5) cs
  aligned : (s.regs 2#5).toNat % 4 = 0
  low : 0x10000010 ≤ (s.regs 2#5).toNat
  high : (s.regs 2#5).toNat ≤ 0x10080000
  code : base.toNat + 4 * tbPutsCode.length + 16 ≤ (s.regs 2#5).toNat ∨
    (s.regs 2#5).toNat ≤ base.toNat
  text : (s.regs 10#5).toNat + cs.length + 16 < (s.regs 2#5).toNat ∨
    (s.regs 2#5).toNat ≤ (s.regs 10#5).toNat

/-- The stores to the frame: the register of the loop and the return address. -/
def frameStores (s : Hart) : List (Word × Word × BitVec 4) :=
  [(s.regs 2#5 - 8#32, s.regs 8#5, 0xF#4), (s.regs 2#5 - 4#32, s.regs 1#5, 0xF#4)]

/-- The memory after them. -/
def frameMem (s : Hart) : Mem 32 :=
  store (store s.mem (s.regs 2#5 - 8#32) 4 (s.regs 8#5)) (s.regs 2#5 - 4#32) 4 (s.regs 1#5)

/-- `t` is inside of the routine that was called in `s`. -/
structure InFrame (s t : Hart) : Prop where
  mem : t.mem = s.frameMem
  tohost : t.tohost = s.tohost
  sp : t.regs 2#5 = s.regs 2#5 - 16#32
  regs : ∀ r, r ∉ 2#5 :: tbPutsScratch → t.regs r = s.regs r

theorem InFrame.kept {s t u : Hart} (h : s.InFrame t) (hkept : t.Kept tbPutsScratch u) :
    s.InFrame u where
  mem := hkept.mem.trans h.mem
  tohost := hkept.tohost.trans h.tohost
  sp := (hkept.regs _ (by decide)).trans h.sp
  regs r hr := (hkept.regs r fun hmem => hr (List.mem_cons_of_mem _ hmem)).trans (h.regs r hr)

/-- What `tb_puts` leaves: all registers as they were but `x10` and `x15`. -/
structure TbPutsReturns (s t : Hart) : Prop where
  pc : t.pc = clearBit0 (s.regs 1#5)
  mem : t.mem = s.frameMem
  tohost : t.tohost = s.tohost
  regs : ∀ r, r ≠ 10#5 → r ≠ 15#5 → t.regs r = s.regs r

/-- The offsets into the frame count from its low end. -/
theorem sub_add_slot (sp : Word) (n : ℕ) (hn : n ≤ 16) :
    sp - 16#32 + BitVec.ofNat 32 (16 - n) = sp - BitVec.ofNat 32 n := by
  bv_omega

section
variable {base : Word} {cs : List (BitVec 8)} {s : Hart} (h : s.TbPutsCall base cs)
include h

/-- A word of the frame. -/
theorem TbPutsCall.slot {n : ℕ} (hn : 0 < n ∧ n ≤ 16) :
    (s.regs 2#5 - BitVec.ofNat 32 n).toNat = (s.regs 2#5).toNat - n := by
  have hlow := h.low
  rw [BitVec.toNat_sub, BitVec.toNat_ofNat]
  omega

/-- The string behind the stores to the frame. -/
theorem TbPutsCall.string_frameMem : CString s.frameMem (s.regs 10#5) cs := by
  have h4 := h.slot (n := 4) (by omega)
  have h8 := h.slot (n := 8) (by omega)
  have hlow := h.low
  have hhigh := h.high
  have htext := h.text
  exact (h.string.store (by omega) (by omega)).store (by omega) (by omega)

/-- The entry of `tb_puts`. -/
theorem tbPuts_enter : Outputs base tbPutsCode 6 s fun ws t =>
    ws = s.frameStores.map .store ∧
    t.At base tbPutsCode (if s.frameMem (s.regs 10#5) = 0#8 then 13 else 9) ∧
    t.regs 8#5 = s.regs 10#5 ∧ t.regs 10#5 = (s.frameMem (s.regs 10#5)).setWidth 32 ∧
    s.InFrame t := by
  have h4 := h.slot (n := 4) (by omega)
  have h8 := h.slot (n := 8) (by omega)
  have hal := h.aligned
  have hlow := h.low
  have hhigh := h.high
  have hcode := h.code
  refine h.entry.addi rfl fun t1 h1 e1 => ?_
  have hsp1 : t1.regs 2#5 = s.regs 2#5 - 16#32 := by
    rw [e1.regs_same, BitVec.sub_eq_add_neg]
    rfl
  have haddr8 : Instr.addr t1 2#5 8#12 = s.regs 2#5 - 8#32 := by
    rw [Instr.addr, hsp1]
    exact sub_add_slot (s.regs 2#5) 8 (by omega)
  refine h1.sw_ram rfl haddr8 (by omega) ⟨by omega, by omega⟩ (by omega) fun t2 h2 e2 => ?_
  have haddr4 : Instr.addr t2 2#5 12#12 = s.regs 2#5 - 4#32 := by
    rw [Instr.addr, e2.regs, hsp1]
    exact sub_add_slot (s.regs 2#5) 4 (by omega)
  refine h2.sw_ram rfl haddr4 (by omega) ⟨by omega, by omega⟩ (by omega) fun t3 h3 e3 => ?_
  have hmem3 : t3.mem = s.frameMem := by
    rw [e3.mem, e2.mem, e2.regs, e1.mem, e1.regs_of_ne, e1.regs_of_ne]
    rfl
  refine h3.addi rfl fun t4 h4' e4 => ?_
  have hp4 : t4.regs 10#5 = s.regs 10#5 := by
    rw [e4.regs_of_ne, e3.regs, e2.regs, e1.regs_of_ne]
  refine h4'.lbu rfl (hp4 ▸ h.string.inRam) fun t5 h5 e5 => ?_
  refine h5.branch rfl 13 (by decide) fun t6 h6 e6 => ?_
  rw [hp4, e4.mem, hmem3] at e5
  have hcond : BranchOp.beq.Holds (t5.regs 10#5) (t5.regs 0#5) ↔
      s.frameMem (s.regs 10#5) = 0#8 := by
    rw [t5.zero, ← setWidth_eq_zero, e5.regs_same]
    exact Iff.rfl
  rw [if_congr hcond rfl rfl] at h6
  have hregs3 : ∀ r, r ≠ 2#5 → t3.regs r = s.regs r := by
    intro r hr
    rw [e3.regs, e2.regs, e1.regs_of_ne hr]
  refine Partial.emits_zero ⟨?_, h6, ?_, ?_, ?_⟩
  · rw [e2.regs, e1.regs_of_ne, e1.regs_of_ne]
    rfl
  · rw [e6.regs _ List.not_mem_nil, e5.regs_of_ne, e4.regs_same,
      hregs3 _ (by decide)]
    exact BitVec.add_zero _
  · rw [e6.regs _ List.not_mem_nil, e5.regs_same]
  · refine ⟨?_, ?_, ?_, ?_⟩
    · rw [e6.mem, e5.mem, e4.mem, hmem3]
    · rw [e6.tohost, e5.tohost, e4.tohost, e3.tohost, e2.tohost, e1.tohost]
    · rw [e6.regs _ List.not_mem_nil, e5.regs_of_ne, e4.regs_of_ne,
        e3.regs, e2.regs, hsp1]
    · intro r hr
      simp only [tbPutsScratch, List.mem_cons, List.not_mem_nil, or_false, not_or] at hr
      obtain ⟨h2r, -, h8r, h10r, -⟩ := hr
      rw [e6.regs _ List.not_mem_nil, e5.regs_of_ne h10r, e4.regs_of_ne h8r, hregs3 r h2r]

/-- The return of `tb_puts`. -/
theorem tbPuts_leave {t : Hart} (ht : t.At base tbPutsCode 13) (hin : s.InFrame t) :
    Runs base tbPutsCode 4 t s.TbPutsReturns := by
  have h4 := h.slot (n := 4) (by omega)
  have h8 := h.slot (n := 8) (by omega)
  have hal := h.aligned
  have hlow := h.low
  have hhigh := h.high
  have haddr4 : Instr.addr t 2#5 12#12 = s.regs 2#5 - 4#32 := by
    rw [Instr.addr, hin.sp]
    exact sub_add_slot (s.regs 2#5) 4 (by omega)
  refine ht.lw rfl haddr4 (by omega) ⟨by omega, by omega⟩ fun t1 h1 e1 => ?_
  have haddr8 : Instr.addr t1 2#5 8#12 = s.regs 2#5 - 8#32 := by
    rw [Instr.addr, e1.regs_of_ne, hin.sp]
    exact sub_add_slot (s.regs 2#5) 8 (by omega)
  refine h1.lw rfl haddr8 (by omega) ⟨by omega, by omega⟩ fun t2 h2 e2 => ?_
  refine h2.addi rfl fun t3 h3 e3 => ?_
  refine h3.ret rfl fun t4 hpc e4 => ?_
  have hra : load t.mem (s.regs 2#5 - 4#32) 4 = (s.regs 1#5).toNat := by
    rw [hin.mem, frameMem, load_store_same (by decide)]
    exact congrArg BitVec.toNat BitVec.extractLsb'_eq_self
  have hs0 : load t1.mem (s.regs 2#5 - 8#32) 4 = (s.regs 8#5).toNat := by
    rw [e1.mem, hin.mem, frameMem, load_store_of_apart (by omega) (by omega) (by omega),
      load_store_same (by decide)]
    exact congrArg BitVec.toNat BitVec.extractLsb'_eq_self
  rw [hra, BitVec.ofNat_toNat, BitVec.setWidth_eq] at e1
  rw [hs0, BitVec.ofNat_toNat, BitVec.setWidth_eq] at e2
  refine Partial.leads_zero ⟨?_, ?_, ?_, ?_⟩
  · rw [hpc, e3.regs_of_ne, e2.regs_of_ne, e1.regs_same]
  · rw [e4.mem, e3.mem, e2.mem, e1.mem, hin.mem]
  · rw [e4.tohost, e3.tohost, e2.tohost, e1.tohost, hin.tohost]
  · intro r h10r h15r
    rw [e4.regs _ List.not_mem_nil]
    by_cases h2r : r = 2#5
    · rw [h2r, e3.regs_same, e2.regs_of_ne, e1.regs_of_ne,
        hin.sp]
      exact BitVec.sub_add_cancel _ _
    · rw [e3.regs_of_ne h2r]
      by_cases h8r : r = 8#5
      · rw [h8r, e2.regs_same]
      · rw [e2.regs_of_ne h8r]
        by_cases h1r : r = 1#5
        · rw [h1r, e1.regs_same]
        · rw [e1.regs_of_ne h1r]
          refine hin.regs r ?_
          simp only [tbPutsScratch, List.mem_cons, List.not_mem_nil, or_false, not_or]
          exact ⟨h2r, h1r, h8r, h10r, h15r⟩

/-- **`tb_puts`** makes the stores of the C function behind those of its frame, and returns. -/
theorem tbPuts_outputs : Outputs base tbPutsCode (7 * cs.length + 10) s fun ws t =>
    ws = (s.frameStores ++ tbPuts (cs ++ [0#8])).map .store ∧ s.TbPutsReturns t := by
  have hstring := h.string_frameMem
  rw [h.string.tbPuts_eq []]
  have hsteps : 7 * cs.length + 10 = 6 + (7 * cs.length + 4) := by omega
  rw [hsteps]
  refine (tbPuts_enter h).trans ?_
  rintro ws t ⟨rfl, ht, h8, h10, hin⟩
  cases cs with
  | nil =>
      rw [if_pos hstring.2] at ht
      refine Emits.mono (tbPuts_leave h ht hin) ?_
      rintro us u ⟨rfl, hu⟩
      exact ⟨rfl, hu⟩
  | cons c cs =>
      obtain ⟨-, hc, hnul, hcs⟩ := hstring
      rw [hc] at h10
      rw [hc, if_neg hnul] at ht
      have hrest : CString t.mem (t.regs 8#5 + 1#32) cs := by
        rw [hin.mem, h8]
        exact hcs
      refine (tbPuts_loop ht h10 hrest).trans ?_
      rintro us u ⟨rfl, hu, -, hkept⟩
      refine Emits.mono (tbPuts_leave h hu (hin.kept hkept)) ?_
      rintro vs v ⟨rfl, hv⟩
      exact ⟨by rw [List.append_nil, List.map_append], hv⟩

end

end Hart

/-! ### The console -/

theorem Hart.TbPutsCall.tbmanWrite_frameStores {base : Word} {cs : List (BitVec 8)} {s : Hart}
    (h : s.TbPutsCall base cs) : s.frameStores.filterMap SmuRv32im.tbmanWrite = [] := by
  have h4 := h.slot (n := 4) (by omega)
  have h8 := h.slot (n := 8) (by omega)
  have hlow := h.low
  have hhigh := h.high
  have hin8 : InRam (s.regs 2#5 - 8#32) := ⟨by omega, by omega⟩
  have hin4 : InRam (s.regs 2#5 - 4#32) := ⟨by omega, by omega⟩
  rw [frameStores, List.filterMap_cons_none (tbmanWrite_of_inRam hin8 _ _),
    List.filterMap_cons_none (tbmanWrite_of_inRam hin4 _ _), List.filterMap_nil]

namespace Boot
variable (b : Boot)

section
variable {n k : ℕ} (h : b.Conforms n) {s : Hart} (hs : b.hart k = some s) {base : Word}
  {cs : List (BitVec 8)} (hcall : s.TbPutsCall base cs) (hn : k + (7 * cs.length + 10) < n)
include h hs hcall hn

/-- **A call of `tb_puts` on the pipeline**: the memory bus carries the stores of the C
function, and the caller finds its registers and its stack pointer as they were. -/
theorem tbPuts_call :
    (b.system (b.systemRun.entry (k + (7 * cs.length + 10)))).cpu.de.pcE =
        clearBit0 (s.regs 1#5) ∧
      (∀ r, r ≠ 10#5 → r ≠ 15#5 →
        (b.system (b.systemRun.entry (k + (7 * cs.length + 10)) + 2)).cpu.rf.read r =
          s.regs r) ∧
      Clocked.log (fun u => (b.system u).cpu.busWrite)
          (b.systemRun.entry (k + (7 * cs.length + 10)) + 1) =
        Clocked.log (fun u => (b.system u).cpu.busWrite) (b.systemRun.entry k + 1) ++
          (s.frameStores ++ tbPuts (cs ++ [0#8])) := by
  obtain ⟨t, ws, ⟨rfl, hret⟩, hpc, hregs, hstores⟩ :=
    b.routine_outputs h hs (Hart.tbPuts_outputs hcall) hn
  rw [Output.filterMap_store] at hstores
  refine ⟨hpc.trans hret.pc, ?_, hstores⟩
  intro r h10 h15
  rw [hregs, hret.regs r h10 h15]

/-- **A call of `tb_puts` on the console**: it shows the lines of the string, the first of them
behind what was on its line before, and keeps what is behind the last line feed. -/
theorem tbPuts_display (hlines : b.ShortLines (k + (7 * cs.length + 10))) :
    Clocked.log b.display (b.systemRun.entry (k + (7 * cs.length + 10)) + 1) =
        Clocked.log b.display (b.systemRun.entry k + 1) ++
          (((Transducer.run Terminal.step [] (b.hartWrites k)).1 ++ cs).splitOn
            0x0A#8).dropLast.map (fun line => .print (Console.str line)) ∧
      b.console (b.systemRun.entry (k + (7 * cs.length + 10)) + 1) =
        Console.ofLine ((((Transducer.run Terminal.step [] (b.hartWrites k)).1 ++ cs).splitOn
          0x0A#8).getLastD []) := by
  obtain ⟨t, ws, -, hout, ⟨rfl, -⟩, -⟩ := b.hart_outputs hs (Hart.tbPuts_outputs hcall)
  have hwrites : b.hartWrites (k + (7 * cs.length + 10)) =
      b.hartWrites k ++ cs.map .print := by
    rw [b.hartWrites_eq, b.hartStores_eq, hout, List.filterMap_append, Output.filterMap_store,
      List.filterMap_append, List.filterMap_append, hcall.tbmanWrite_frameStores,
      ← b.hartStores_eq, ← b.hartWrites_eq, tbmanWrite_tbPuts, hcall.string.takeWhile_eq,
      List.nil_append]
  have hbefore := log_display h (t := b.systemRun.entry k + 1)
    (by rw [Nat.add_sub_cancel, b.countE_entry]; omega)
    (by rw [b.countM_entry_succ]; exact hlines.of_le (by omega))
  have hafter := console_run h (t := b.systemRun.entry (k + (7 * cs.length + 10)) + 1)
    (by rw [Nat.add_sub_cancel, b.countE_entry]; exact hn.le) (by rwa [b.countM_entry_succ])
  rw [b.countM_entry_succ] at hbefore hafter
  obtain ⟨hconsole, hdisplay⟩ := Prod.ext_iff.mp hafter
  rw [hwrites, Transducer.run_append,
    Terminal.run_text (Terminal.lineFeed_notMem List.not_mem_nil _)] at hconsole hdisplay
  refine ⟨?_, hconsole⟩
  rw [hbefore]
  refine hdisplay.trans ?_
  rw [List.map_append, List.map_map]
  rfl

end

end Boot

/-! ### A call -/

/-- `lui x2, 0x10002`, `lui x10, 0x10001`, the letter `B` to the byte register, a call of `tb_puts`
and `j .`, with the letter `A`, a line feed and the letter `C` at `0x10001000`. -/
def putsBoot : Boot :=
  { x := ⟨0#3, 0#5, 0#32, 0#32, 0#32⟩
    image := fun a => if a = 0#17 then 0x10002137#32 else if a = 1#17 then 0x10001537#32
      else if a = 2#17 then 0x8000F1B7#32 else if a = 3#17 then 0x04200213#32
      else if a = 4#17 then 0x0041A023#32 else if a = 5#17 then 0x018000EF#32
      else if a = 6#17 then 0x0000006F#32 else if a = 0x400#17 then 0x00430A41#32
      else ((tbPutsCode.map Instr.encode)[a.toNat - 8]?).getD 0#32
    rf := fun _ => 0#32
    sim := true }

/-- Its string. -/
def putsText : List (BitVec 8) := [0x41#8, 0x0A#8, 0x43#8]

instance (base : Word) (cs : List (BitVec 8)) (s : Hart) : Decidable (s.TbPutsCall base cs) :=
  decidable_of_iff (s.At base tbPutsCode 3 ∧ CString s.mem (s.regs 10#5) cs ∧
      (s.regs 2#5).toNat % 4 = 0 ∧ 0x10000010 ≤ (s.regs 2#5).toNat ∧
      (s.regs 2#5).toNat ≤ 0x10080000 ∧
      (base.toNat + 4 * tbPutsCode.length + 16 ≤ (s.regs 2#5).toNat ∨
        (s.regs 2#5).toNat ≤ base.toNat) ∧
      ((s.regs 10#5).toNat + cs.length + 16 < (s.regs 2#5).toNat ∨
        (s.regs 2#5).toNat ≤ (s.regs 10#5).toNat))
    ⟨fun ⟨h1, h2, h3, h4, h5, h6, h7⟩ => ⟨h1, h2, h3, h4, h5, h6, h7⟩,
      fun h => ⟨h.entry, h.string, h.aligned, h.low, h.high, h.code, h.text⟩⟩

theorem putsBoot_freeRun : putsBoot.FreeRun (fun _ => 0#32) 38 := by
  decide +kernel

theorem putsBoot_hart : ∃ s, putsBoot.hart 6 = some s ∧ s.TbPutsCall 0x10000020#32 putsText :=
  putsBoot_freeRun.exists_hart (by omega) (by decide +kernel)

/-- What the program has printed before the call. -/
theorem putsBoot_writes : putsBoot.hartWrites 6 = [.print 0x42#8] := by
  have hlog : putsBoot.hartWrites 6 =
      Clocked.log (fun j => (putsBoot.hartWith (fun _ => 0#32) j).bind Hart.tbmanWrite) 6 := by
    refine Clocked.log_congr ?_
    intro j hj
    rw [putsBoot_freeRun.hart_eq (by omega)]
  rw [hlog]
  decide +kernel

/-- The call on the pipeline. -/
theorem putsBoot_call : ∃ s, putsBoot.hart 6 = some s ∧
    (putsBoot.system (putsBoot.systemRun.entry 37)).cpu.de.pcE = clearBit0 (s.regs 1#5) ∧
      (∀ r, r ≠ 10#5 → r ≠ 15#5 →
        (putsBoot.system (putsBoot.systemRun.entry 37 + 2)).cpu.rf.read r = s.regs r) ∧
      Clocked.log (fun u => (putsBoot.system u).cpu.busWrite) (putsBoot.systemRun.entry 37 + 1) =
        Clocked.log (fun u => (putsBoot.system u).cpu.busWrite) (putsBoot.systemRun.entry 6 + 1) ++
          (s.frameStores ++ tbPuts (putsText ++ [0#8])) := by
  obtain ⟨s, hs, hcall⟩ := putsBoot_hart
  have hreturn := putsBoot.tbPuts_call putsBoot_freeRun.conforms hs hcall (by decide)
  have hbehind : 6 + (7 * putsText.length + 10) = 37 := rfl
  rw [hbehind] at hreturn
  exact ⟨s, hs, hreturn⟩

/-- The call on the console: it shows the line `BA` and keeps the letter `C`. -/
theorem putsBoot_display :
    Clocked.log putsBoot.display (putsBoot.systemRun.entry 37 + 1) =
        Clocked.log putsBoot.display (putsBoot.systemRun.entry 6 + 1) ++
          [.print (Console.str [0x42#8, 0x41#8])] ∧
      putsBoot.console (putsBoot.systemRun.entry 37 + 1) = Console.ofLine [0x43#8] := by
  obtain ⟨s, hs, hcall⟩ := putsBoot_hart
  obtain ⟨hdisplay, hconsole⟩ := putsBoot.tbPuts_display putsBoot_freeRun.conforms hs hcall
    (by decide) (putsBoot.shortLines_of_le (by decide))
  have hbehind : 6 + (7 * putsText.length + 10) = 37 := rfl
  rw [putsBoot_writes, hbehind] at hdisplay hconsole
  have hlines : ([0x42#8] ++ putsText).splitOn 0x0A#8 = [[0x42#8, 0x41#8], [0x43#8]] := by
    decide
  have hline : (Transducer.run Terminal.step [] [.print 0x42#8]).1 = [0x42#8] := rfl
  rw [hline, hlines] at hdisplay hconsole
  exact ⟨hdisplay, hconsole⟩

end SmuRv32im
