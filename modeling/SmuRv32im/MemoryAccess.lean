import SmuRv32im.Lib.ByteMemory
import SmuRv32im.Instruction
import SmuRv32im.System

/-!
# Byte-Addressed Memory

The RAM stores words; loads and stores address bytes. Between them stand three case tables:
the store lane and the byte strobes in Memory, and the load lane in Writeback. Composed as
they are wired, they make the RAM a little-endian byte memory: `Access.ram_holds` is the
refinement for one access and `byteAddressed` the result for sequences of any length.

## Main results

* `byte_writeBytes_store`: the store lane and the strobes together.
* `beRd_eq`: the load lane.
* `byteAddressed`: loads return the bytes most recently stored, stores change their bytes.
-/

namespace SmuRv32im

open ByteMemory (Mem byte load store store_apply load_eq_extract)

/-! ### The lanes -/

/-- The number of bytes of an access, by its `funct3`. -/
def accessBytes (f3 : BitVec 3) : ℕ :=
  if f3 = 0b000#3 ∨ f3 = 0b100#3 then 1
  else if f3 = 0b001#3 ∨ f3 = 0b101#3 then 2
  else 4

/-- The bytes of a word put together from four bytes. -/
theorem byte_append (b3 b2 b1 b0 : BitVec 8) :
    byte (b3 ++ b2 ++ b1 ++ b0) 0 = b0 ∧ byte (b3 ++ b2 ++ b1 ++ b0) 1 = b1 ∧
      byte (b3 ++ b2 ++ b1 ++ b0) 2 = b2 ∧ byte (b3 ++ b2 ++ b1 ++ b0) 3 = b3 := by
  refine ⟨?_, ?_, ?_, ?_⟩
  all_goals
    refine BitVec.eq_of_getLsbD_eq ?_
    intro j hj
    simp only [byte, BitVec.getLsbD_extractLsb', BitVec.getLsbD_append, hj, decide_true,
      Bool.true_and]
    split_ifs
    all_goals first | omega | (congr 1; omega)

/-- A strobed byte is that of the new word, the others are those of the old one. -/
theorem byte_writeBytes (be : BitVec 4) (d old : Word) {i : ℕ} (hi : i < 4) :
    byte (writeBytes be d old) i = if be.getLsbD i = true then byte d i else byte old i := by
  obtain ⟨h0, h1, h2, h3⟩ := byte_append
    (if be.getLsbD 3 = true then d.extractLsb' 24 8 else old.extractLsb' 24 8)
    (if be.getLsbD 2 = true then d.extractLsb' 16 8 else old.extractLsb' 16 8)
    (if be.getLsbD 1 = true then d.extractLsb' 8 8 else old.extractLsb' 8 8)
    (if be.getLsbD 0 = true then d.extractLsb' 0 8 else old.extractLsb' 0 8)
  obtain rfl | rfl | rfl | rfl : i = 0 ∨ i = 1 ∨ i = 2 ∨ i = 3 := by omega
  · exact h0
  · exact h1
  · exact h2
  · exact h3

/-- A store instruction by its `funct3`. -/
def StoreFunct3 (f3 : BitVec 3) : Prop := f3 = 0b000#3 ∨ f3 = 0b001#3 ∨ f3 = 0b010#3

instance (f3 : BitVec 3) : Decidable (StoreFunct3 f3) := inferInstanceAs (Decidable (_ ∨ _))

/-- A load instruction by its `funct3`. -/
def LoadFunct3 (f3 : BitVec 3) : Prop :=
  f3 = 0b000#3 ∨ f3 = 0b001#3 ∨ f3 = 0b010#3 ∨ f3 = 0b100#3 ∨ f3 = 0b101#3

instance (f3 : BitVec 3) : Decidable (LoadFunct3 f3) := inferInstanceAs (Decidable (_ ∨ _))

/-- The strobes of an aligned store are those of its bytes. -/
theorem getLsbD_byteEnable {f3 : BitVec 3} {l : BitVec 2} (hf : StoreFunct3 f3)
    (hl : l.toNat % accessBytes f3 = 0) (i : Fin 4) :
    (byteEnable l f3).getLsbD i = decide (l.toNat ≤ i ∧ i < l.toNat + accessBytes f3) := by
  revert f3 l i
  decide

/-- The bytes of an aligned store: its width, its lane and the byte. -/
theorem store_cases {f3 : BitVec 3} {l : BitVec 2} (hf : StoreFunct3 f3)
    (hl : l.toNat % accessBytes f3 = 0) (i : Fin 4) (hle : l.toNat ≤ i)
    (hlt : i < l.toNat + accessBytes f3) :
    (f3 = 0b000#3 ∧ ((l = 0b00#2 ∧ i.val = 0) ∨ (l = 0b01#2 ∧ i.val = 1) ∨
      (l = 0b10#2 ∧ i.val = 2) ∨ (l = 0b11#2 ∧ i.val = 3))) ∨
    (f3 = 0b001#3 ∧ ((l = 0b00#2 ∧ i.val = 0) ∨ (l = 0b00#2 ∧ i.val = 1) ∨
      (l = 0b10#2 ∧ i.val = 2) ∨ (l = 0b10#2 ∧ i.val = 3))) ∨
    (f3 = 0b010#3 ∧ l = 0b00#2) := by
  revert f3 l i
  decide

/-- The store lane moves the low bytes of the stored value to their place. -/
theorem byte_beWd {f3 : BitVec 3} {l : BitVec 2} (hf : StoreFunct3 f3)
    (hl : l.toNat % accessBytes f3 = 0) (d : Word) {i : ℕ} (hi : i < 4)
    (hle : l.toNat ≤ i) (hlt : i < l.toNat + accessBytes f3) :
    byte (beWd l f3 d) i = byte d (i - l.toNat) := by
  have hword : ∀ u : Word, (∀ j, j < 8 → u.getLsbD (8 * i + j) =
      d.getLsbD (8 * (i - l.toNat) + j)) → byte u i = byte d (i - l.toNat) := by
    intro u hu
    refine BitVec.eq_of_getLsbD_eq ?_
    intro j hj
    rw [byte, byte, BitVec.getLsbD_extractLsb', BitVec.getLsbD_extractLsb', hu j hj]
  refine hword _ ?_
  intro j hj
  rcases store_cases hf hl ⟨i, hi⟩ hle hlt with ⟨rfl, hb⟩ | ⟨rfl, hh⟩ | ⟨rfl, rfl⟩
  · rcases hb with ⟨rfl, rfl⟩ | ⟨rfl, rfl⟩ | ⟨rfl, rfl⟩ | ⟨rfl, rfl⟩
    all_goals
      simp only [beWd, if_true, if_false, BitVec.reduceEq, BitVec.getLsbD_append,
        BitVec.getLsbD_extractLsb', BitVec.getLsbD_zero, BitVec.reduceToNat]
      grind
  · rcases hh with ⟨rfl, rfl⟩ | ⟨rfl, rfl⟩ | ⟨rfl, rfl⟩ | ⟨rfl, rfl⟩
    all_goals
      simp only [beWd, if_true, if_false, BitVec.reduceEq, or_self, true_or,
        BitVec.getLsbD_append, BitVec.getLsbD_extractLsb', BitVec.getLsbD_zero,
        BitVec.reduceToNat]
      grind
  · rfl

/-- **The store lane and the strobes**: an aligned store of `n` bytes changes the bytes
from its lane on, to the low bytes of the stored value. -/
theorem byte_writeBytes_store {f3 : BitVec 3} {l : BitVec 2} (hf : StoreFunct3 f3)
    (hl : l.toNat % accessBytes f3 = 0) (d old : Word) {i : ℕ} (hi : i < 4) :
    byte (writeBytes (byteEnable l f3) (beWd l f3 d) old) i =
      if l.toNat ≤ i ∧ i < l.toNat + accessBytes f3 then byte d (i - l.toNat)
      else byte old i := by
  have hbe := getLsbD_byteEnable hf hl ⟨i, hi⟩
  rw [byte_writeBytes _ _ _ hi, hbe]
  by_cases hin : l.toNat ≤ i ∧ i < l.toNat + accessBytes f3
  · rw [if_pos (decide_eq_true hin), if_pos hin, byte_beWd hf hl d hi hin.1 hin.2]
  · rw [if_neg fun h => hin (of_decide_eq_true h), if_neg hin]

/-- The loaded bytes as a register value: signed for `lb` and `lh`, unsigned otherwise. -/
def extendLoad (f3 : BitVec 3) (v : ℕ) : Word :=
  if f3 = 0b000#3 then (BitVec.ofNat 8 v).signExtend 32
  else if f3 = 0b001#3 then (BitVec.ofNat 16 v).signExtend 32
  else BitVec.ofNat 32 v

/-- The aligned loads: width and lane. -/
theorem load_cases {f3 : BitVec 3} {l : BitVec 2} (hf : LoadFunct3 f3)
    (hl : l.toNat % accessBytes f3 = 0) :
    ((f3 = 0b000#3 ∨ f3 = 0b100#3) ∧ (l = 0b00#2 ∨ l = 0b01#2 ∨ l = 0b10#2 ∨ l = 0b11#2)) ∨
    ((f3 = 0b001#3 ∨ f3 = 0b101#3) ∧ (l = 0b00#2 ∨ l = 0b10#2)) ∨
    (f3 = 0b010#3 ∧ l = 0b00#2) := by
  revert f3 l
  decide

/-- **The load lane**: an aligned load of `n` bytes extends the bytes from its lane on. -/
theorem beRd_eq {f3 : BitVec 3} {l : BitVec 2} (hf : LoadFunct3 f3)
    (hl : l.toNat % accessBytes f3 = 0) (w : Word) :
    beRd l f3 w =
      extendLoad f3 (w.extractLsb' (8 * l.toNat) (8 * accessBytes f3)).toNat := by
  have hsign : ∀ {n : ℕ} (v : BitVec n),
      (BitVec.ofNat n v.toNat).signExtend 32 = v.signExtend 32 := by
    intro n v
    rw [BitVec.ofNat_toNat, BitVec.setWidth_eq]
  have hzero : ∀ {n : ℕ} (v : BitVec n), BitVec.ofNat 32 v.toNat = v.setWidth 32 := by
    intro n v
    rw [BitVec.ofNat_toNat]
  rcases load_cases hf hl with ⟨rfl | rfl, h⟩ | ⟨rfl | rfl, h⟩ | ⟨rfl, rfl⟩
  · rcases h with rfl | rfl | rfl | rfl
    all_goals exact (hsign _).symm
  · rcases h with rfl | rfl | rfl | rfl
    all_goals exact (hzero (w.extractLsb' _ 8)).symm
  · rcases h with rfl | rfl
    all_goals exact (hsign _).symm
  · rcases h with rfl | rfl
    all_goals exact (hzero (w.extractLsb' _ 16)).symm
  · have hw : w.extractLsb' (8 * (0b00#2).toNat) (8 * accessBytes 0b010#3) = w :=
      BitVec.extractLsb'_eq_self
    rw [hw]
    exact ((hzero w).trans (BitVec.setWidth_eq w)).symm

/-! ### The Memory stage on the RAM -/

namespace StageEM
variable (em : StageEM) (mem : Ram) (timer tbman : Word)

/-- The RAM after the instruction in Memory. -/
def ramWrite : Ram :=
  asyncRamDpWbe mem (em.busOut.memWrite && !(addrDecoder em.busOut.addr).csMemN)
    (ramAddr em.busOut.addr) em.busOut.byteEnable em.busOut.writeData

/-- The word the instruction in Memory reads, given what the peripherals show. -/
def readWord : Word :=
  dataMux (addrDecoder em.busOut.addr).csTimerN (addrDecoder em.busOut.addr).csTbmanN
    timer tbman (mem (ramAddr em.busOut.addr))

end StageEM

/-- This is what the system does to its RAM, and what it hands to Writeback. -/
theorem System.step_memory (x : XValues) (d : Defines) (s : System) :
    (s.step x d).mem = s.cpu.em.ramWrite s.mem ∧
      (s.step x d).cpu.mw =
        s.cpu.em.toMW (s.cpu.em.readWord s.mem s.readDataTimer (s.readDataTbman d)) :=
  ⟨rfl, rfl⟩

/-! ### The RAM as bytes -/

/-- The RAM window `0x1000_0000..0x1007_FFFF`. -/
def InRam (addr : Word) : Prop := 0x10000000 ≤ addr.toNat ∧ addr.toNat ≤ 0x1007FFFF

instance (addr : Word) : Decidable (InRam addr) := inferInstanceAs (Decidable (_ ∧ _))

/-- The bytes of a RAM, by their bus addresses. -/
def ramBytes (mem : Ram) : Mem 32 := fun addr => byte (mem (ramAddr addr)) (addr.toNat % 4)

/-- The RAM holds the bytes of `m` in its window. -/
def Holds (mem : Ram) (m : Mem 32) : Prop := ∀ addr, InRam addr → ramBytes mem addr = m addr

theorem accessBytes_cases (f3 : BitVec 3) :
    accessBytes f3 = 1 ∨ accessBytes f3 = 2 ∨ accessBytes f3 = 4 := by
  rw [accessBytes]
  split_ifs <;> omega

theorem toNat_ramAddr (addr : Word) : (ramAddr addr).toNat = addr.toNat / 4 % 2 ^ 17 := by
  rw [ramAddr, BitVec.extractLsb'_toNat, Nat.shiftRight_eq_div_pow]

theorem toNat_lane (addr : Word) : (addr.extractLsb' 0 2).toNat = addr.toNat % 4 := by
  rw [BitVec.extractLsb'_toNat, Nat.shiftRight_zero]

/-- The lane of an aligned access is aligned. -/
theorem lane_aligned {addr : Word} {n : ℕ} (hn : n = 1 ∨ n = 2 ∨ n = 4)
    (hal : addr.toNat % n = 0) : (addr.extractLsb' 0 2).toNat % n = 0 := by
  rw [toNat_lane]
  rcases hn with rfl | rfl | rfl <;> omega

/-- The window selects the RAM, and no peripheral. -/
theorem addrDecoder_of_inRam {addr : Word} (h : InRam addr) :
    addrDecoder addr = ⟨false, true, true⟩ := by
  have hnib : addr.extractLsb' 28 4 = 0x1#4 := by
    refine BitVec.eq_of_toNat_eq ?_
    rw [BitVec.extractLsb'_toNat, Nat.shiftRight_eq_div_pow, BitVec.toNat_ofNat]
    obtain ⟨hlo, hhi⟩ := h
    omega
  rw [addrDecoder, if_pos hnib]

/-- Outside `0x1xxx_xxxx` the RAM is not selected. -/
theorem csMemN_of_outside {addr : Word} (h : addr.extractLsb' 28 4 ≠ 0x1#4) :
    (addrDecoder addr).csMemN = true := by
  rw [addrDecoder, if_neg h]
  split_ifs <;> rfl

section
variable {a b : Word} {n : ℕ}
variable (ha : InRam a) (hb : InRam b) (hn : n = 1 ∨ n = 2 ∨ n = 4) (hal : a.toNat % n = 0)
include ha hb hn hal

/-- A byte in the word of an aligned access belongs to the access by its lane. -/
theorem sub_lt_iff_of_ramAddr_eq (h : ramAddr b = ramAddr a) :
    ((b - a).toNat < n ↔ a.toNat % 4 ≤ b.toNat % 4 ∧ b.toNat % 4 < a.toNat % 4 + n) ∧
      ((b - a).toNat < n → (b - a).toNat = b.toNat % 4 - a.toNat % 4) := by
  have hnat := congrArg BitVec.toNat h
  rw [toNat_ramAddr, toNat_ramAddr] at hnat
  obtain ⟨halo, hahi⟩ := ha
  obtain ⟨hblo, hbhi⟩ := hb
  rw [BitVec.toNat_sub]
  rcases hn with rfl | rfl | rfl <;> omega

/-- A byte in another word does not belong to the access. -/
theorem not_sub_lt_of_ramAddr_ne (h : ramAddr b ≠ ramAddr a) : ¬(b - a).toNat < n := by
  have hnat : b.toNat / 4 % 2 ^ 17 ≠ a.toNat / 4 % 2 ^ 17 := by
    rw [← toNat_ramAddr, ← toNat_ramAddr]
    exact fun heq => h (BitVec.eq_of_toNat_eq heq)
  obtain ⟨halo, hahi⟩ := ha
  obtain ⟨hblo, hbhi⟩ := hb
  rw [BitVec.toNat_sub]
  rcases hn with rfl | rfl | rfl <;> omega

omit hb in
/-- The bytes of an aligned access are bytes of its word. -/
theorem ramBytes_add (mem : Ram) {i : ℕ} (hi : i < n) :
    InRam (a + BitVec.ofNat 32 i) ∧
      ramBytes mem (a + BitVec.ofNat 32 i) = byte (mem (ramAddr a)) (a.toNat % 4 + i) := by
  obtain ⟨halo, hahi⟩ := ha
  have hadd : (a + BitVec.ofNat 32 i).toNat = a.toNat + i := by
    rw [BitVec.toNat_add, BitVec.toNat_ofNat]
    rcases hn with rfl | rfl | rfl <;> omega
  have hword : ramAddr (a + BitVec.ofNat 32 i) = ramAddr a := by
    refine BitVec.eq_of_toNat_eq ?_
    rw [toNat_ramAddr, toNat_ramAddr, hadd]
    rcases hn with rfl | rfl | rfl <;> omega
  have hlane : (a + BitVec.ofNat 32 i).toNat % 4 = a.toNat % 4 + i := by
    rw [hadd]
    rcases hn with rfl | rfl | rfl <;> omega
  refine ⟨?_, by rw [ramBytes, hword, hlane]⟩
  rw [InRam, hadd]
  rcases hn with rfl | rfl | rfl <;> omega

end

/-! ### Accesses -/

/-- A load or store that reaches the Memory stage: its word, its operands, its address, and
what the peripherals show in its cycle. -/
structure Access where
  instr : Word
  base : Word
  data : Word
  pc : Word
  timer : Word
  tbman : Word

namespace Access
variable (x : XValues) (a : Access)

/-- The access is a store. -/
def IsStore : Prop := opcode a.instr = opcStore

instance : Decidable a.IsStore := inferInstanceAs (Decidable (_ = _))

/-- The effective address. -/
def addr : Word := a.base + if a.IsStore then immS a.instr else immI a.instr

/-- The number of bytes. -/
def bytes : ℕ := accessBytes (funct3 a.instr)

/-- The access in the Memory stage. -/
def em : StageEM := (execDE x a.instr a.base a.data a.pc).toEM x a.base a.data

/-- The RAM after the access. -/
def ram (mem : Ram) : Ram := (a.em x).ramWrite mem

/-- What the access delivers in Writeback. -/
def loaded (mem : Ram) : Word :=
  ((a.em x).toMW ((a.em x).readWord mem a.timer a.tbman)).result

/-- What the access means for a byte memory. -/
def storeTo (m : Mem 32) : Mem 32 :=
  if a.IsStore ∧ InRam a.addr then store m a.addr a.bytes a.data else m

/-- What a load returns from a byte memory. -/
def loadFrom (m : Mem 32) : Word := extendLoad (funct3 a.instr) (load m a.addr a.bytes)

end Access

/-- The accesses software may make: naturally aligned loads and stores of the RAM window,
and stores outside `0x1xxx_xxxx`. -/
structure LegalAccess extends Access where
  kind : (opcode instr = opcStore ∧ StoreFunct3 (funct3 instr)) ∨
    (opcode instr = opcLoad ∧ LoadFunct3 (funct3 instr))
  place : (InRam toAccess.addr ∧ toAccess.addr.toNat % toAccess.bytes = 0) ∨
    (toAccess.IsStore ∧ toAccess.addr.extractLsb' 28 4 ≠ 0x1#4)

namespace LegalAccess
variable (x : XValues) (a : LegalAccess) (mem : Ram) {m : Mem 32}

/-- The effective address of a store, and of a load. -/
theorem addr_of_store (hst : a.IsStore) : a.addr = a.base + immS a.instr := by
  rw [Access.addr, if_pos hst]

theorem addr_of_load (hst : ¬a.IsStore) : a.addr = a.base + immI a.instr := by
  rw [Access.addr, if_neg hst]

/-- An access that is not a store is a load in the window. -/
theorem load_of_not_store (hst : ¬a.IsStore) :
    opcode a.instr = opcLoad ∧ LoadFunct3 (funct3 a.instr) ∧ InRam a.addr ∧
      a.addr.toNat % a.bytes = 0 := by
  obtain ⟨hop, hf⟩ := a.kind.resolve_left fun h => hst h.1
  obtain ⟨hin, hal⟩ := a.place.resolve_right fun h => hst h.1
  exact ⟨hop, hf, hin, hal⟩

/-- The memory bus of a store. -/
theorem busOut_of_store (hst : a.IsStore) :
    (a.em x).busOut =
      { addr := a.addr
        memWrite := true
        writeData := beWd (a.addr.extractLsb' 0 2) (funct3 a.instr) a.data
        byteEnable := byteEnable (a.addr.extractLsb' 0 2) (funct3 a.instr) } := by
  obtain ⟨hres, hmw, hdata⟩ := toEM_store x a.instr a.base a.data a.pc hst
  rw [StageEM.busOut, Access.em, hres, hmw, hdata, ← a.addr_of_store hst]
  rfl

/-- A store in the window writes its lane of one word. -/
theorem ram_of_store (hst : a.IsStore) (hin : InRam a.addr) :
    a.ram x mem = Function.update mem (ramAddr a.addr)
      (writeBytes (byteEnable (a.addr.extractLsb' 0 2) (funct3 a.instr))
        (beWd (a.addr.extractLsb' 0 2) (funct3 a.instr) a.data) (mem (ramAddr a.addr))) := by
  rw [Access.ram, StageEM.ramWrite, a.busOut_of_store x hst, addrDecoder_of_inRam hin]
  rfl

/-- A store outside `0x1xxx_xxxx` leaves the RAM alone. -/
theorem ram_of_outside (hst : a.IsStore) (hout : a.addr.extractLsb' 28 4 ≠ 0x1#4) :
    a.ram x mem = mem := by
  rw [Access.ram, StageEM.ramWrite, a.busOut_of_store x hst, csMemN_of_outside hout]
  rfl

/-- A load leaves the RAM alone. -/
theorem ram_of_load (hst : ¬a.IsStore) : a.ram x mem = mem := by
  obtain ⟨hop, -⟩ := a.load_of_not_store hst
  obtain ⟨-, hmw, -⟩ := toEM_load x a.instr a.base a.data a.pc hop
  have hwe : (a.em x).busOut.memWrite = false := hmw
  rw [Access.ram, StageEM.ramWrite, hwe]
  rfl

/-- **A store in the window changes its bytes and no other.** -/
theorem ramBytes_of_store (hst : a.IsStore) (hin : InRam a.addr) {b : Word} (hb : InRam b) :
    ramBytes (a.ram x mem) b =
      if (b - a.addr).toNat < a.bytes then byte a.data (b - a.addr).toNat
      else ramBytes mem b := by
  have hf : StoreFunct3 (funct3 a.instr) := by
    obtain ⟨-, hf⟩ | ⟨hop, -⟩ := a.kind
    · exact hf
    · have hst' : opcode a.instr = opcStore := hst
      simp [hop] at hst'
  have hal : a.addr.toNat % a.bytes = 0 := by
    obtain ⟨-, hal⟩ | ⟨-, hout⟩ := a.place
    · exact hal
    · have hsel := csMemN_of_outside hout
      simp [addrDecoder_of_inRam hin] at hsel
  have hn : a.bytes = 1 ∨ a.bytes = 2 ∨ a.bytes = 4 := accessBytes_cases (funct3 a.instr)
  rw [ramBytes, a.ram_of_store x mem hst hin]
  by_cases hword : ramAddr b = ramAddr a.addr
  · obtain ⟨hiff, hsub⟩ := sub_lt_iff_of_ramAddr_eq hin hb hn hal hword
    rw [hword, Function.update_self,
      byte_writeBytes_store hf (lane_aligned hn hal) _ _ (Nat.mod_lt _ (by omega)), toNat_lane]
    by_cases hlt : (b - a.addr).toNat < a.bytes
    · have hin' := hiff.mp hlt
      rw [if_pos hlt, hsub hlt]
      exact if_pos hin'
    · rw [if_neg hlt, ramBytes, hword]
      exact if_neg fun h => hlt (hiff.mpr h)
  · rw [Function.update_of_ne hword,
      if_neg (not_sub_lt_of_ramAddr_ne hin hb hn hal hword), ramBytes]

/-- **A clock cycle of Memory on the bytes**: the RAM goes on holding the byte memory. -/
theorem ram_holds (h : Holds mem m) : Holds (a.ram x mem) (a.storeTo m) := by
  intro b hb
  by_cases hst : a.IsStore
  · by_cases hin : InRam a.addr
    · have hstore : a.storeTo m = store m a.addr a.bytes a.data := if_pos ⟨hst, hin⟩
      rw [a.ramBytes_of_store x mem hst hin hb, hstore, store_apply, h b hb]
    · obtain ⟨-, hout⟩ := a.place.resolve_left fun hp => hin hp.1
      have hstore : a.storeTo m = m := if_neg fun hp => hin hp.2
      rw [a.ram_of_outside x mem hst hout, hstore]
      exact h b hb
  · have hstore : a.storeTo m = m := if_neg fun hp => hst hp.1
    rw [a.ram_of_load x mem hst, hstore]
    exact h b hb

/-- **A load delivers the bytes it addresses.** -/
theorem loaded_eq (hst : ¬a.IsStore) (h : Holds mem m) : a.loaded x mem = a.loadFrom m := by
  obtain ⟨hop, hf, hin, hal⟩ := a.load_of_not_store hst
  obtain ⟨hres, -, hsrc⟩ := toEM_load x a.instr a.base a.data a.pc hop
  have haddr : (a.em x).aluResultM = a.addr := by
    rw [a.addr_of_load hst]
    exact hres
  have hn : a.bytes = 1 ∨ a.bytes = 2 ∨ a.bytes = 4 := accessBytes_cases (funct3 a.instr)
  have hword : (a.em x).readWord mem a.timer a.tbman = mem (ramAddr a.addr) := by
    rw [StageEM.readWord, StageEM.busOut, haddr, addrDecoder_of_inRam hin]
    rfl
  have hresult : a.loaded x mem =
      beRd (a.addr.extractLsb' 0 2) (funct3 a.instr) (mem (ramAddr a.addr)) := by
    have hsrc' : ((a.em x).toMW (mem (ramAddr a.addr))).resultSrcW = 0b01#2 := hsrc
    rw [Access.loaded, hword, StageMW.result, hsrc', mux3_01, ← haddr]
    rfl
  have hbytes : load m a.addr a.bytes =
      ((mem (ramAddr a.addr)).extractLsb' (8 * (a.addr.toNat % 4)) (8 * a.bytes)).toNat := by
    refine load_eq_extract ?_
    intro i hi
    obtain ⟨hini, hi'⟩ := ramBytes_add hin hn hal mem hi
    rw [← h _ hini, hi']
  rw [hresult, beRd_eq hf (lane_aligned hn hal), toNat_lane, Access.loadFrom, hbytes]
  rfl

end LegalAccess

/-! ### Sequences of accesses -/

/-- The RAM after a sequence of accesses. -/
def ramAfter (x : XValues) (image : Ram) (as : List LegalAccess) : Ram :=
  as.foldl (fun mem a => a.ram x mem) image

/-- The bytes after a sequence of accesses, from those of the RAM image. -/
def bytesAfter (image : Ram) (as : List LegalAccess) : Mem 32 :=
  as.foldl (fun m a => a.storeTo m) (ramBytes image)

/-- The RAM holds the bytes after every sequence of accesses. -/
theorem ramAfter_holds (x : XValues) (image : Ram) (as : List LegalAccess) :
    Holds (ramAfter x image as) (bytesAfter image as) := by
  induction as using List.reverseRecOn with
  | nil => exact fun _ _ => rfl
  | append_singleton as a ih =>
      rw [ramAfter, bytesAfter, List.foldl_append, List.foldl_append]
      exact a.ram_holds x (ramAfter x image as) ih

/-- **Byte-addressed memory.** After any sequence of accesses, the next load delivers the
bytes most recently stored, extended by its `funct3`; the next store in the window changes
its bytes to those of its data and no other; a store outside `0x1xxx_xxxx` changes none. -/
theorem byteAddressed (x : XValues) (image : Ram) (as : List LegalAccess) (a : LegalAccess) :
    (¬a.IsStore →
      a.loaded x (ramAfter x image as) = a.loadFrom (bytesAfter image as) ∧
        ramAfter x image (as ++ [a]) = ramAfter x image as) ∧
    (a.IsStore → InRam a.addr → ∀ b, InRam b →
      ramBytes (ramAfter x image (as ++ [a])) b =
        if (b - a.addr).toNat < a.bytes then byte a.data (b - a.addr).toNat
        else ramBytes (ramAfter x image as) b) ∧
    (a.IsStore → ¬InRam a.addr →
      ramAfter x image (as ++ [a]) = ramAfter x image as) ∧
    (∀ b, InRam b → ramBytes (ramAfter x image as) b = bytesAfter image as b) := by
  have hnext : ramAfter x image (as ++ [a]) = a.ram x (ramAfter x image as) := by
    rw [ramAfter, List.foldl_append]
    rfl
  have hholds := ramAfter_holds x image as
  refine ⟨?_, ?_, ?_, hholds⟩
  · intro hst
    refine ⟨a.loaded_eq x _ hst hholds, ?_⟩
    rw [hnext, a.ram_of_load x _ hst]
  · intro hst hin b hb
    rw [hnext, a.ramBytes_of_store x _ hst hin hb]
  · intro hst hin
    obtain ⟨-, hout⟩ := a.place.resolve_left fun hp => hin hp.1
    rw [hnext, a.ram_of_outside x _ hst hout]

end SmuRv32im
