import SmuRv32im.HartRefinement

/-!
# Machine Code on the Hart

Reasoning about routines in machine code: a piece of code somewhere in the RAM (`CodeAt`), the
hart at one of its instructions (`Hart.At`), and the rule for executing it (`Hart.At.outputs`),
under which the hart is at the instruction the code goes on with. What a routine puts out, its
stores and its writes to `tohost`, is a list that grows with the rules (`Hart.Outputs`), and
what it does not touch is said once, by `Hart.Kept`. That the hart does not leave the code on
the way comes with it (`Boot.hart_outputs`).
-/

namespace SmuRv32im

open ByteMemory (Mem load store)

/-- `addi`. -/
def addi (d r1 : BitVec 5) (i : BitVec 12) : Instr := .compute (.imm .addi d r1 i)

/-! ### Code in memory -/

/-- The address of the `k`-th instruction of the code at `base`. -/
def codeAddr (base : Word) (k : ℕ) : Word := base + BitVec.ofNat 32 (4 * k)

theorem codeAddr_succ (base : Word) (k : ℕ) : codeAddr base k + 4#32 = codeAddr base (k + 1) := by
  rw [codeAddr, codeAddr, Nat.mul_succ, BitVec.ofNat_add, BitVec.add_assoc]

/-- The target of a jump inside of the code. -/
theorem codeAddr_add {base off : Word} {k l : ℕ}
    (h : BitVec.ofNat 32 (4 * k) + off = BitVec.ofNat 32 (4 * l)) :
    codeAddr base k + off = codeAddr base l := by
  rw [codeAddr, codeAddr, BitVec.add_assoc, h]

/-- The code is in the RAM at `base`. -/
structure CodeAt (m : Mem 32) (base : Word) (code : List Instr) : Prop where
  aligned : base.toNat % 4 = 0
  first : 0x10000000 ≤ base.toNat
  last : base.toNat + 4 * code.length ≤ 0x10080000
  word : ∀ k i, code[k]? = some i → load m (codeAddr base k) 4 = i.encode.toNat

instance (m : Mem 32) (base : Word) (code : List Instr) : Decidable (CodeAt m base code) :=
  decidable_of_iff (base.toNat % 4 = 0 ∧ 0x10000000 ≤ base.toNat ∧
      base.toNat + 4 * code.length ≤ 0x10080000 ∧ ∀ k, k < code.length → ∀ i ∈ code[k]?,
        load m (codeAddr base k) 4 = i.encode.toNat)
    ⟨fun ⟨ha, hf, hl, hw⟩ =>
        ⟨ha, hf, hl, fun k i hi => hw k (List.getElem?_eq_some_iff.mp hi).1 i hi⟩,
      fun h => ⟨h.aligned, h.first, h.last, fun k _ i hi => h.word k i hi⟩⟩

namespace CodeAt
variable {m : Mem 32} {base : Word} {code : List Instr} (h : CodeAt m base code)
include h

theorem toNat_codeAddr {k : ℕ} (hk : k < code.length) :
    (codeAddr base k).toNat = base.toNat + 4 * k := by
  have hlast := h.last
  rw [codeAddr, BitVec.toNat_add, BitVec.toNat_ofNat]
  omega

/-- An instruction of the code is a target a return can have. -/
theorem even {k : ℕ} (hk : k < code.length) : EvenAddr (codeAddr base k) := by
  have hal := h.aligned
  rw [EvenAddr, BitVec.getLsbD, Nat.testBit_zero, h.toNat_codeAddr hk]
  exact decide_eq_false (by omega)

/-- The hart finds the instruction. -/
theorem instr?_eq {s : Hart} (hmem : s.mem = m) {k : ℕ} (hpc : s.pc = codeAddr base k)
    {i : Instr} (hi : code[k]? = some i) : s.instr? = some i := by
  have hk : k < code.length := (List.getElem?_eq_some_iff.mp hi).1
  have haddr := h.toNat_codeAddr hk
  have hin : InRam s.pc ∧ s.pc.toNat % 4 = 0 := by
    have hal := h.aligned
    have hfirst := h.first
    have hlast := h.last
    rw [hpc, InRam, haddr]
    omega
  rw [Hart.instr?, if_pos hin, Hart.fetch, hmem, hpc, h.word k i hi, BitVec.ofNat_toNat,
    BitVec.setWidth_eq, decode_encode]

/-- A store of a word to other bytes leaves the code alone. -/
theorem store {a v : Word} (hin : InRam a) (hal : a.toNat % 4 = 0)
    (hapart : a.toNat + 4 ≤ base.toNat ∨ base.toNat + 4 * code.length ≤ a.toNat) :
    CodeAt (ByteMemory.store m a 4 v) base code where
  aligned := h.aligned
  first := h.first
  last := h.last
  word k i hi := by
    have hk : k < code.length := (List.getElem?_eq_some_iff.mp hi).1
    have haddr := h.toNat_codeAddr hk
    have hlast := h.last
    obtain ⟨-, hend⟩ := hin
    rw [ByteMemory.load_store_of_apart (by omega) (by omega) (by omega)]
    exact h.word k i hi

end CodeAt

/-! ### Outputs -/

/-- What an instruction puts out: a store, as the memory bus carries it, or a write to
`tohost`. -/
inductive Output
  | store (w : Word × Word × BitVec 4)
  | tohost (v : Word)
  deriving DecidableEq

namespace Output

def store? : Output → Option (Word × Word × BitVec 4)
  | store w => some w
  | tohost _ => none

def tohost? : Output → Option Word
  | store _ => none
  | tohost v => some v

theorem filterMap_store (ws : List (Word × Word × BitVec 4)) :
    (ws.map store).filterMap store? = ws := by
  rw [List.filterMap_map]
  exact List.filterMap_some

end Output

/-- What the instruction puts out. -/
def Instr.output (s : Hart) : Instr → Option Output
  | store o r2 r1 i => some (.store (Instr.addr s r1 i,
      beWd ((Instr.addr s r1 i).extractLsb' 0 2) o.funct3 (s.regs r2),
      byteEnable ((Instr.addr s r1 i).extractLsb' 0 2) o.funct3))
  | csrrw _ r1 => some (.tohost (s.regs r1))
  | csrrwi _ z => some (.tohost (z.setWidth 32))
  | _ => none

namespace Hart
variable (s : Hart)

/-- What the hart puts out with its next instruction. -/
def output : Option Output := s.instr?.bind (Instr.output s)

theorem busWrite_eq_output : s.busWrite = s.output.bind Output.store? := by
  rw [busWrite, output, Option.bind_assoc]
  congr 1
  funext i
  cases i <;> rfl

theorem tohostWrite_eq_output : s.tohostWrite = s.output.bind Output.tohost? := by
  rw [tohostWrite, output, Option.bind_assoc]
  congr 1
  funext i
  cases i <;> rfl

end Hart

/-! ### Execution -/

theorem signExtend_zero : (0#12).signExtend 32 = 0#32 := rfl

namespace Hart

@[simp] theorem exec_pc (s : Hart) (io : Word) (i : Instr) : (s.exec io i).pc = i.pcAfter s := rfl

@[simp] theorem exec_regs (s : Hart) (io : Word) (i : Instr) :
    (s.exec io i).regs = i.regsAfter s io := rfl

@[simp] theorem exec_mem (s : Hart) (io : Word) (i : Instr) :
    (s.exec io i).mem = i.memAfter s := rfl

@[simp] theorem exec_tohost (s : Hart) (io : Word) (i : Instr) :
    (s.exec io i).tohost = i.tohostAfter s := rfl

/-- The hart is at the `k`-th instruction of the code at `base`. -/
structure At (base : Word) (code : List Instr) (k : ℕ) (s : Hart) : Prop where
  code : CodeAt s.mem base code
  pc : s.pc = codeAddr base k

instance (base : Word) (code : List Instr) (k : ℕ) (s : Hart) : Decidable (s.At base code k) :=
  decidable_of_iff (CodeAt s.mem base code ∧ s.pc = codeAddr base k)
    ⟨fun ⟨hcode, hpc⟩ => ⟨hcode, hpc⟩, fun h => ⟨h.code, h.pc⟩⟩

theorem At.instr? {base : Word} {code : List Instr} {k : ℕ} {s : Hart} (h : s.At base code k)
    {i : Instr} (hi : code[k]? = some i) : s.instr? = some i :=
  h.code.instr?_eq rfl h.pc hi

/-- The hart is in the code. -/
def Inside (base : Word) (code : List Instr) (s : Hart) : Prop :=
  ∃ k, k < code.length ∧ s.At base code k

instance (base : Word) (code : List Instr) : DecidablePred (Inside base code) := fun _ =>
  inferInstanceAs (Decidable (∃ k, k < code.length ∧ _))

/-- A step of the hart in the code, given what the devices show. -/
def stepInside (base : Word) (code : List Instr) : Word → Hart → Option Hart :=
  Partial.guard (Inside base code) fun io s => s.step io

/-- Within `n` instructions of the code the hart comes from `s` to a state, and `Q` holds of
what it has put out and of that state. -/
abbrev Outputs (base : Word) (code : List Instr) (n : ℕ) (s : Hart)
    (Q : List Output → Hart → Prop) : Prop :=
  Partial.Emits (stepInside base code) output n s Q

/-- Within `n` instructions of the code the hart comes from `s` to a state with `Q`, and puts
out nothing. -/
abbrev Runs (base : Word) (code : List Instr) (n : ℕ) (s : Hart) (Q : Hart → Prop) : Prop :=
  Partial.Leads (stepInside base code) output n s Q

/-- **Executing an instruction of the code.** -/
theorem At.outputs {base : Word} {code : List Instr} {k n : ℕ} {s : Hart}
    {Q : List Output → Hart → Prop} (h : s.At base code k) {i : Instr}
    (hi : code[k]? = some i) (hperm : i.Permitted s)
    (hnext : ∀ io, Outputs base code n (s.exec io i) fun ws =>
      Q ((i.output s).toList ++ ws)) : Outputs base code (n + 1) s Q := by
  have hout : s.output = i.output s := by
    rw [output, h.instr? hi, Option.bind_some]
  refine Partial.emits_succ fun io => ⟨s.exec io i, ?_, ?_⟩
  · refine Partial.guard_eq_some_iff.mpr ⟨⟨k, (List.getElem?_eq_some_iff.mp hi).1, h⟩, ?_⟩
    exact (s.step_eq_some_iff io).mpr ⟨i, h.instr? hi, hperm, rfl⟩
  · rw [hout]
    exact hnext io

/-- What a routine leaves alone: the memory, `tohost`, and the registers but those in `R`. -/
structure Kept (R : List (BitVec 5)) (s t : Hart) : Prop where
  mem : t.mem = s.mem
  tohost : t.tohost = s.tohost
  regs : ∀ r, r ∉ R → t.regs r = s.regs r

theorem Kept.mono {R R' : List (BitVec 5)} {s t : Hart} (h : s.Kept R t) (hR : R ⊆ R') :
    s.Kept R' t where
  mem := h.mem
  tohost := h.tohost
  regs r hr := h.regs r fun hmem => hr (hR hmem)

theorem Kept.weaken {R : List (BitVec 5)} {s t : Hart} (h : s.Kept [] t) : s.Kept R t :=
  h.mono (List.nil_subset R)

theorem Kept.trans {R : List (BitVec 5)} {s t u : Hart} (h : s.Kept R t) (h' : t.Kept R u) :
    s.Kept R u where
  mem := h'.mem.trans h.mem
  tohost := h'.tohost.trans h.tohost
  regs r hr := (h'.regs r hr).trans (h.regs r hr)

/-- A byte is loaded from the RAM without its sign. -/
theorem loaded_lbu (s : Hart) (io : Word) {addr : Word} (h : InRam addr) :
    s.loaded io .lbu addr = (s.mem addr).setWidth 32 := by
  have hlbu : ∀ v, extendLoad LoadOp.lbu.funct3 v = BitVec.ofNat 32 v := fun _ => rfl
  have hbyte : load s.mem addr (accessBytes LoadOp.lbu.funct3) = (s.mem addr).toNat := rfl
  rw [loaded, if_pos h, hlbu, hbyte, ← BitVec.ofNat_toNat]

theorem loaded_lw (s : Hart) (io : Word) {addr : Word} (h : InRam addr) :
    s.loaded io .lw addr = BitVec.ofNat 32 (load s.mem addr 4) := by
  have hlw : ∀ v, extendLoad LoadOp.lw.funct3 v = BitVec.ofNat 32 v := fun _ => rfl
  have hbytes : accessBytes LoadOp.lw.funct3 = 4 := rfl
  rw [loaded, if_pos h, hlw, hbytes]

/-- `t` is `s` after a write to a register. -/
structure Sets (d : BitVec 5) (v : Word) (s t : Hart) : Prop where
  mem : t.mem = s.mem
  tohost : t.tohost = s.tohost
  regs : t.regs = s.setReg d v

namespace Sets
variable {d : BitVec 5} {v : Word} {s t : Hart} (h : s.Sets d v t)
include h

theorem kept {R : List (BitVec 5)} (hd : d ∈ R := by decide) : s.Kept R t where
  mem := h.mem
  tohost := h.tohost
  regs r hr := by
    rw [h.regs]
    refine if_neg ?_
    rintro ⟨rfl, -⟩
    exact hr hd

theorem regs_same (hd : d ≠ 0#5 := by decide) : t.regs d = v := by
  rw [h.regs]
  exact if_pos ⟨rfl, hd⟩

/-- A write to register 0 changes nothing. -/
theorem kept_zero (hd : d = 0#5) : s.Kept [] t where
  mem := h.mem
  tohost := h.tohost
  regs r _ := by
    rw [h.regs]
    exact if_neg fun hr => hr.2 hd

theorem regs_of_ne {r : BitVec 5} (hr : r ≠ d := by decide) : t.regs r = s.regs r := by
  rw [h.regs]
  exact if_neg fun hrd => hr hrd.1

end Sets

/-- `t` is `s` after a store of a word to the RAM. -/
structure Stores (a v : Word) (s t : Hart) : Prop where
  mem : t.mem = store s.mem a 4 v
  tohost : t.tohost = s.tohost
  regs : t.regs = s.regs

/-! ### The rules of the instructions -/

namespace At
variable {base : Word} {code : List Instr} {k n : ℕ} {s : Hart}
  {Q : List Output → Hart → Prop} (h : s.At base code k)
include h

/-- An instruction that stores nothing leaves the hart in the code. -/
theorem exec {io : Word} {i : Instr} {l : ℕ} (hmem : i.memAfter s = s.mem)
    (hpc : i.pcAfter s = codeAddr base l) : (s.exec io i).At base code l where
  code := by
    rw [exec_mem, hmem]
    exact h.code
  pc := hpc

/-- The next instruction is the next one of the code. -/
theorem pc_succ : s.pc + 4#32 = codeAddr base (k + 1) := by rw [h.pc, codeAddr_succ]

/-- Executing an instruction that puts out nothing. -/
theorem quiet {i : Instr} (hi : code[k]? = some i) (hperm : i.Permitted s)
    (hout : i.output s = none) (hnext : ∀ io, Outputs base code n (s.exec io i) Q) :
    Outputs base code (n + 1) s Q := by
  refine h.outputs hi hperm fun io => ?_
  rw [hout]
  exact hnext io

/-- A load from the RAM. -/
theorem load {o : LoadOp} {d r1 : BitVec 5} {i : BitVec 12}
    (hi : code[k]? = some (.load o d r1 i)) {a : Word} (haddr : Instr.addr s r1 i = a)
    (hal : a.toNat % accessBytes o.funct3 = 0) (hin : InRam a)
    (hnext : ∀ t, t.At base code (k + 1) → s.Sets d (s.loaded 0#32 o a) t →
      Outputs base code n t Q) : Outputs base code (n + 1) s Q := by
  subst haddr
  refine h.quiet hi ⟨hal, Or.inl hin⟩ rfl fun io =>
    hnext _ (h.exec rfl h.pc_succ) ⟨rfl, rfl, ?_⟩
  rw [exec_regs, Instr.regsAfter, loaded, loaded, if_pos hin, if_pos hin]

theorem lbu {d r1 : BitVec 5} (hi : code[k]? = some (.load .lbu d r1 0#12))
    (hin : InRam (s.regs r1))
    (hnext : ∀ t, t.At base code (k + 1) → s.Sets d ((s.mem (s.regs r1)).setWidth 32) t →
      Outputs base code n t Q) : Outputs base code (n + 1) s Q := by
  have haddr : Instr.addr s r1 0#12 = s.regs r1 := by
    rw [Instr.addr, signExtend_zero, BitVec.add_zero]
  refine h.load hi haddr (Nat.mod_one _) hin fun t ht e => hnext t ht ?_
  rwa [s.loaded_lbu _ hin] at e

theorem lw {d r1 : BitVec 5} {i : BitVec 12} (hi : code[k]? = some (.load .lw d r1 i)) {a : Word}
    (haddr : Instr.addr s r1 i = a) (hal : a.toNat % 4 = 0) (hin : InRam a)
    (hnext : ∀ t, t.At base code (k + 1) →
      s.Sets d (BitVec.ofNat 32 (ByteMemory.load s.mem a 4)) t → Outputs base code n t Q) :
    Outputs base code (n + 1) s Q := by
  refine h.load hi haddr hal hin fun t ht e => hnext t ht ?_
  rwa [s.loaded_lw _ hin] at e

/-- A store of a word that leaves the code alone. -/
theorem sw {r2 r1 : BitVec 5} {i : BitVec 12} (hi : code[k]? = some (.store .sw r2 r1 i))
    {a : Word} (haddr : Instr.addr s r1 i = a) (hacc : Accessible a 4)
    (hcode : CodeAt (if InRam a then store s.mem a 4 (s.regs r2) else s.mem) base code)
    (hnext : ∀ t, t.At base code (k + 1) →
      t.mem = (if InRam a then store s.mem a 4 (s.regs r2) else s.mem) →
      t.tohost = s.tohost → t.regs = s.regs →
      Outputs base code n t fun ws => Q (.store (a, s.regs r2, 0xF#4) :: ws)) :
    Outputs base code (n + 1) s Q := by
  subst haddr
  exact h.outputs hi hacc fun io => hnext _ ⟨hcode, h.pc_succ⟩ rfl rfl rfl

/-- A store to the RAM. -/
theorem sw_ram {r2 r1 : BitVec 5} {i : BitVec 12} (hi : code[k]? = some (.store .sw r2 r1 i))
    {a : Word} (haddr : Instr.addr s r1 i = a) (hal : a.toNat % 4 = 0) (hin : InRam a)
    (hapart : a.toNat + 4 ≤ base.toNat ∨ base.toNat + 4 * code.length ≤ a.toNat)
    (hnext : ∀ t, t.At base code (k + 1) → s.Stores a (s.regs r2) t →
      Outputs base code n t fun ws => Q (.store (a, s.regs r2, 0xF#4) :: ws)) :
    Outputs base code (n + 1) s Q := by
  refine h.sw hi haddr ⟨hal, Or.inl hin⟩ ?_ fun t ht hmem htohost hregs => ?_
  · rw [if_pos hin]
    exact h.code.store hin hal hapart
  · rw [if_pos hin] at hmem
    exact hnext t ht ⟨hmem, htohost, hregs⟩

/-- A store to a device. -/
theorem sw_device {r2 r1 : BitVec 5} {i : BitVec 12} (hi : code[k]? = some (.store .sw r2 r1 i))
    {a : Word} (haddr : Instr.addr s r1 i = a) (hal : a.toNat % 4 = 0) (hdev : InDevice a)
    (hout : ¬InRam a) (hnext : ∀ t, t.At base code (k + 1) → s.Kept [] t →
      Outputs base code n t fun ws => Q (.store (a, s.regs r2, 0xF#4) :: ws)) :
    Outputs base code (n + 1) s Q := by
  refine h.sw hi haddr ⟨hal, Or.inr hdev⟩ ?_ fun t ht hmem htohost hregs => ?_
  · rw [if_neg hout]
    exact h.code
  · rw [if_neg hout] at hmem
    exact hnext t ht ⟨hmem, htohost, fun r _ => congrFun hregs r⟩

/-- A computation that goes on with the next instruction. -/
theorem compute {i : Rv32i} (hi : code[k]? = some (.compute i)) (hseq : i.nextPC s.pc = s.pc + 4#32)
    (hnext : ∀ t, t.At base code (k + 1) →
      s.Sets i.dest (i.rdValue (s.regs i.source1) (s.regs i.source2) s.pc) t →
      Outputs base code n t Q) : Outputs base code (n + 1) s Q := by
  refine h.quiet hi trivial rfl fun io => hnext _ (h.exec rfl ?_) ⟨rfl, rfl, rfl⟩
  exact hseq.trans h.pc_succ

theorem addi {d r1 : BitVec 5} {i : BitVec 12} (hi : code[k]? = some (.compute (.imm .addi d r1 i)))
    (hnext : ∀ t, t.At base code (k + 1) → s.Sets d (s.regs r1 + i.signExtend 32) t →
      Outputs base code n t Q) : Outputs base code (n + 1) s Q :=
  h.compute hi rfl hnext

theorem add {d r1 r2 : BitVec 5} (hi : code[k]? = some (.compute (.reg .add d r1 r2)))
    (hnext : ∀ t, t.At base code (k + 1) → s.Sets d (s.regs r1 + s.regs r2) t →
      Outputs base code n t Q) : Outputs base code (n + 1) s Q :=
  h.compute hi rfl hnext

theorem lui {d : BitVec 5} {i : BitVec 20} (hi : code[k]? = some (.compute (.lui d i)))
    (hnext : ∀ t, t.At base code (k + 1) → s.Sets d (i ++ 0#12) t →
      Outputs base code n t Q) : Outputs base code (n + 1) s Q :=
  h.compute hi rfl hnext

theorem auipc {d : BitVec 5} {i : BitVec 20} (hi : code[k]? = some (.compute (.auipc d i)))
    (hnext : ∀ t, t.At base code (k + 1) → s.Sets d (codeAddr base k + (i ++ 0#12)) t →
      Outputs base code n t Q) : Outputs base code (n + 1) s Q :=
  h.compute hi rfl fun t ht e => hnext t ht (h.pc ▸ e)

/-- A call. -/
theorem call {d : BitVec 5} {off : BitVec 20} (hi : code[k]? = some (.compute (.jal d off)))
    (hnext : ∀ t, t.pc = codeAddr base k + byteOffset off → s.Sets d (codeAddr base (k + 1)) t →
      Outputs base code n t Q) : Outputs base code (n + 1) s Q := by
  refine h.quiet hi trivial rfl fun io => hnext _ ?_ ⟨rfl, rfl, ?_⟩
  · rw [← h.pc]
    rfl
  · rw [← h.pc_succ]
    rfl

/-- A call inside of the code. -/
theorem jal {d : BitVec 5} {off : BitVec 20} (hi : code[k]? = some (.compute (.jal d off))) (l : ℕ)
    (hl : BitVec.ofNat 32 (4 * k) + byteOffset off = BitVec.ofNat 32 (4 * l))
    (hnext : ∀ t, t.At base code l → s.Sets d (codeAddr base (k + 1)) t →
      Outputs base code n t Q) : Outputs base code (n + 1) s Q := by
  refine h.call hi fun t hpc e => hnext t ⟨?_, ?_⟩ e
  · rw [e.mem]
    exact h.code
  · rw [hpc, codeAddr_add hl]

/-- A jump inside of the code. -/
theorem jump {off : BitVec 20} (hi : code[k]? = some (.compute (.jal 0#5 off))) (l : ℕ)
    (hl : BitVec.ofNat 32 (4 * k) + byteOffset off = BitVec.ofNat 32 (4 * l))
    (hnext : ∀ t, t.At base code l → s.Kept [] t → Outputs base code n t Q) :
    Outputs base code (n + 1) s Q :=
  h.jal hi l hl fun t ht e => hnext t ht (e.kept_zero rfl)

/-- A branch inside of the code. -/
theorem branch {o : BranchOp} {r1 r2 : BitVec 5} {off : BitVec 12}
    (hi : code[k]? = some (.branch o r1 r2 off)) (l : ℕ)
    (hl : BitVec.ofNat 32 (4 * k) + byteOffset off = BitVec.ofNat 32 (4 * l))
    (hnext : ∀ t, t.At base code (if o.Holds (s.regs r1) (s.regs r2) then l else k + 1) →
      s.Kept [] t → Outputs base code n t Q) : Outputs base code (n + 1) s Q := by
  refine h.quiet hi trivial rfl fun io =>
    hnext _ (h.exec rfl ?_) ⟨rfl, rfl, fun _ _ => rfl⟩
  rw [Instr.pcAfter]
  split_ifs
  · rw [h.pc, codeAddr_add hl]
  · exact h.pc_succ

/-- A write to `tohost`. -/
theorem csrw {r1 : BitVec 5} (hi : code[k]? = some (.csrrw 0#5 r1))
    (hnext : ∀ t, t.At base code (k + 1) → t.mem = s.mem → (∀ r, t.regs r = s.regs r) →
      Outputs base code n t fun ws => Q (.tohost (s.regs r1) :: ws)) :
    Outputs base code (n + 1) s Q := by
  refine h.outputs hi trivial fun io => hnext _ (h.exec rfl h.pc_succ) rfl ?_
  intro r
  exact if_neg fun hr => hr.2 rfl

/-- A return. -/
theorem ret (hi : code[k]? = some (.jalr 0#5 1#5 0#12))
    (hnext : ∀ t, t.pc = clearBit0 (s.regs 1#5) → s.Kept [] t → Outputs base code n t Q) :
    Outputs base code (n + 1) s Q := by
  refine h.quiet hi trivial rfl fun io => hnext _ ?_ ⟨rfl, rfl, ?_⟩
  · change clearBit0 (s.regs 1#5 + (0#12).signExtend 32) = _
    rw [signExtend_zero, BitVec.add_zero]
  · intro r _
    exact if_neg fun hr => hr.2 rfl

end At

end Hart

/-! ### Routines on the pipeline -/

namespace Boot
variable (b : Boot)

/-- What the first `k` instructions put out. -/
noncomputable def hartOutputs (k : ℕ) : List Output :=
  Clocked.log (fun j => (b.hart j).bind Hart.output) k

theorem hartStores_eq (k : ℕ) : b.hartStores k = (b.hartOutputs k).filterMap Output.store? := by
  have hhart : (fun j => (b.hart j).bind Hart.busWrite) =
      fun j => ((b.hart j).bind Hart.output).bind Output.store? := by
    funext j
    rw [Option.bind_assoc]
    exact congrArg _ (funext Hart.busWrite_eq_output)
  rw [hartStores, hhart, Clocked.log_bind fun j => (b.hart j).bind Hart.output, hartOutputs]

/-- The run of the hart goes through what its code leads to, and does not leave the code. -/
theorem hart_outputs {base : Word} {code : List Instr} {k m : ℕ} {s : Hart}
    {Q : List Output → Hart → Prop} (hs : b.hart k = some s)
    (h : Hart.Outputs base code m s Q) :
    ∃ t ws, b.hart (k + m) = some t ∧ b.hartOutputs (k + m) = b.hartOutputs k ++ ws ∧ Q ws t ∧
      ∀ j, k ≤ j → j < k + m → ∀ u ∈ b.hart j, u.Inside base code := by
  obtain ⟨t, ht, hQ, hinside⟩ := h.of_guard fun j => b.deviceReads (k + j)
  rw [hart, hartWith] at hs
  have hrun : ∀ j, b.hart (k + j) =
      Partial.run (fun l u => Hart.step u (b.deviceReads (k + l))) s j := by
    intro j
    rw [hart, hartWith, Partial.run_add, hs]
    rfl
  refine ⟨t, _, ?_, Partial.trace_add Hart.output hs m, hQ, ?_⟩
  · rw [hrun]
    exact ht
  · intro j hkj hjm u hu
    obtain ⟨l, rfl⟩ := Nat.exists_eq_add_of_le hkj
    rw [hrun] at hu
    exact hinside l (by omega) u hu

theorem hart_runs {base : Word} {code : List Instr} {k m : ℕ} {s : Hart} {Q : Hart → Prop}
    (hs : b.hart k = some s) (h : Hart.Runs base code m s Q) :
    ∃ t, b.hart (k + m) = some t ∧ b.hartOutputs (k + m) = b.hartOutputs k ∧ Q t := by
  obtain ⟨t, ws, ht, hout, ⟨rfl, hQ⟩, -⟩ := b.hart_outputs hs h
  rw [List.append_nil] at hout
  exact ⟨t, ht, hout, hQ⟩

/-- **A routine on the pipeline.** When the instruction behind the routine is in Execute, the
memory bus has carried the stores of the routine since its first instruction was, and nothing
else; two cycles later the registers are those the routine returns. -/
theorem routine_outputs {n k m : ℕ} (h : b.Conforms n) {s : Hart} {base : Word}
    {code : List Instr} {Q : List Output → Hart → Prop} (hs : b.hart k = some s)
    (hcode : Hart.Outputs base code m s Q) (hn : k + m < n) :
    ∃ t ws, Q ws t ∧ (b.system (b.systemRun.entry (k + m))).cpu.de.pcE = t.pc ∧
      (∀ r, (b.system (b.systemRun.entry (k + m) + 2)).cpu.rf.read r = t.regs r) ∧
      Clocked.log (fun u => (b.system u).cpu.busWrite) (b.systemRun.entry (k + m) + 1) =
        Clocked.log (fun u => (b.system u).cpu.busWrite) (b.systemRun.entry k + 1) ++
          ws.filterMap Output.store? := by
  obtain ⟨t, ws, ht, hout, hQ, -⟩ := b.hart_outputs hs hcode
  obtain ⟨t', ht', -, hpc, -⟩ := execute_entry h hn
  obtain rfl : t = t' := Option.some.inj (ht.symm.trans ht')
  refine ⟨t, ws, hQ, hpc, regs_entry h hn ht, ?_⟩
  rw [log_busWrite_entry h hn, log_busWrite_entry h (by omega), hartStores_eq, hout,
    List.filterMap_append, hartStores_eq]

end Boot

end SmuRv32im
