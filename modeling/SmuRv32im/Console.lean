import SmuRv32im.Lib.Transducer
import SmuRv32im.Testbench

/-!
# The Console of the Simulation

With `SIM` defined, `tbman_apbs` prints what programs write to its registers: the byte
register collects the characters of a line and displays it at a line feed, the integer
register displays at once, and the exit register ends the simulation. The line is kept in
a vector of 128 bytes, at a pointer that counts on behind its end.

What appears on the console is the output of a terminal that reads the stores of the hart
(`Boot.console_hart`), each line cut or filled up to 128 bytes. The simulation ends in the
cycle after the instruction that exits is in Execute, and reports that cycle
(`Boot.report_hart`).

## Main results

* `Console.run_ofLine`: the vector and the pointer implement the terminal.
* `Boot.console_hart`: the console of the pipeline is the terminal of the hart.
* `Terminal.run_text`: text is displayed as its lines.
* `Boot.report_hart`: the end of the simulation.
-/

namespace SmuRv32im

/-! ### The registers -/

/-- A write to one of the three registers the console listens to. -/
inductive TbmanWrite
  | print (printO : BitVec 8)
  | putint (putintO : Word)
  | exit (exitO : Word)
deriving DecidableEq

/-- `print_wen`, `putint_wen` and `exit_wen` of `tbman_regs` with their data, given a write
to the block. -/
def tbmanRegs (addr : BitVec 16) (wdata : Word) : Option TbmanWrite :=
  if tbmanReg addr = 0#16 then some (.print (wdata.extractLsb' 0 8))
  else if tbmanReg addr = 4#16 then some (.putint wdata)
  else if tbmanReg addr = 8#16 then some (.exit wdata)
  else none

/-- The write of a cycle. -/
def System.tbmanWrite (s : System) : Option TbmanWrite :=
  if (!s.select.csTbmanN) = true ∧ s.dataWe = true then
    tbmanRegs (s.cpu.busOut.addr.extractLsb' 0 16) s.cpu.busOut.writeData
  else none

/-- The write that a write on the memory bus is. -/
def tbmanWrite (w : Word × Word × BitVec 4) : Option TbmanWrite :=
  if (addrDecoder w.1).csTbmanN = false then tbmanRegs (w.1.extractLsb' 0 16) w.2.1 else none

theorem System.tbmanWrite_eq (s : System) :
    s.tbmanWrite = s.cpu.busWrite.bind SmuRv32im.tbmanWrite := by
  rw [tbmanWrite, Cpu.busWrite, dataWe, select]
  cases s.cpu.busOut.memWrite with
  | false => simp
  | true => simp [SmuRv32im.tbmanWrite]

/-- A store to the RAM is none to the console. -/
theorem tbmanWrite_of_inRam {a : Word} (h : InRam a) (v : Word) (be : BitVec 4) :
    tbmanWrite (a, v, be) = none := by
  rw [tbmanWrite, addrDecoder_of_inRam h]
  exact if_neg Bool.true_eq_false.mp

/-! ### Display and terminal -/

/-- What is displayed: a line, an integer, or the exit code. -/
inductive Display (α : Type)
  | print (str : α)
  | putint (putintO : Word)
  | exit (exitO : Word)

/-- A display of other lines. -/
def Display.map {α β : Type} (f : α → β) : Display α → Display β
  | print str => print (f str)
  | putint v => putint v
  | exit v => exit v

/-- The displays up to `$finish`. -/
def untilFinish {α : Type} : List (Display α) → List (Display α)
  | [] => []
  | .exit v :: _ => [.exit v]
  | .print str :: ds => .print str :: untilFinish ds
  | .putint v :: ds => .putint v :: untilFinish ds

theorem untilFinish_map {α β : Type} (f : α → β) (ds : List (Display α)) :
    untilFinish (ds.map (Display.map f)) = (untilFinish ds).map (Display.map f) := by
  induction ds with
  | nil => rfl
  | cons d ds ih =>
      cases d with
      | exit v => rfl
      | print str | putint v =>
          rw [List.map_cons, Display.map, untilFinish, untilFinish, ih]
          rfl

/-- Nothing is displayed behind an exit. -/
theorem untilFinish_append {α : Type} {ds es : List (Display α)} {v : Word}
    (h : .exit v ∈ ds) : untilFinish (ds ++ es) = untilFinish ds := by
  induction ds with
  | nil => cases h
  | cons d ds ih =>
      cases d with
      | exit w => rfl
      | print str | putint w =>
          have hmem := List.mem_of_ne_of_mem (by simp) h
          rw [List.cons_append, untilFinish, untilFinish, ih hmem]

/-- A terminal: its state is the line begun. -/
def Terminal.step (line : List (BitVec 8)) :
    TbmanWrite → List (BitVec 8) × Option (Display (List (BitVec 8)))
  | .print c => if c = 0x0A#8 then ([], some (.print line)) else (line ++ [c], none)
  | .putint v => (line, some (.putint v))
  | .exit v => (line, some (.exit v))

theorem Terminal.length_step (line : List (BitVec 8)) (w : TbmanWrite) :
    (step line w).1.length ≤ line.length + 1 := by
  cases w with
  | print c =>
      rw [step]
      split_ifs
      · exact Nat.zero_le _
      · rw [List.length_append, List.length_singleton]
  | putint v | exit v => exact Nat.le_succ _

/-- A line is not longer than the number of writes. -/
theorem Terminal.length_run (line : List (BitVec 8)) (ws : List TbmanWrite) :
    (Transducer.run step line ws).1.length ≤ line.length + ws.length := by
  induction ws generalizing line with
  | nil => exact le_rfl
  | cons w ws ih =>
      have hstep := length_step line w
      calc (Transducer.run step (step line w).1 ws).1.length
          ≤ (step line w).1.length + ws.length := ih _
        _ ≤ line.length + 1 + ws.length := Nat.add_le_add_right hstep _
        _ = line.length + (ws.length + 1) := by omega

/-- The line begun holds no line feed. -/
theorem Terminal.lineFeed_notMem {line : List (BitVec 8)} (h : 0x0A#8 ∉ line)
    (ws : List TbmanWrite) : 0x0A#8 ∉ (Transducer.run Terminal.step line ws).1 := by
  induction ws generalizing line with
  | nil => exact h
  | cons w ws ih =>
      rw [Transducer.run_cons]
      refine ih ?_
      cases w with
      | print c =>
          rw [step]
          split_ifs with hc
          · exact List.not_mem_nil
          · rw [List.mem_append, List.mem_singleton]
            rintro (hmem | rfl)
            · exact h hmem
            · exact hc rfl
      | putint v | exit v => exact h

/-- The registers of the print process. `printStr i` is `print_str[8 * i +: 8]`. -/
structure Console where
  printStr : Fin 128 → BitVec 8
  printPtr : Word

namespace Console

/-- `print_str` and `print_ptr` at the start and after a line. -/
def empty : Console := ⟨fun _ => 0#8, 0#32⟩

/-- `print_str[print_ptr * 8 +: 8] = print_o` and `print_ptr = print_ptr + 1`. The index is a
signed integer of 32 bits; outside of the vector nothing is written. -/
def put (c : Console) (printO : BitVec 8) : Console :=
  { printStr := fun i => if (c.printPtr * 8#32).toInt = 8 * (i : ℤ) then printO else c.printStr i
    printPtr := c.printPtr + 1#32 }

/-- The print process of `tbman_apbs` at a clock edge with a write. -/
def step (c : Console) : TbmanWrite → Console × Option (Display (Fin 128 → BitVec 8))
  | .print printO =>
    if printO = 0x0A#8 then (empty, some (.print c.printStr)) else (c.put printO, none)
  | .putint putintO => (c, some (.putint putintO))
  | .exit exitO => (c, some (.exit exitO))

/-- The vector that holds the line: its first 128 characters, filled up with zeros. -/
def str (line : List (BitVec 8)) (i : Fin 128) : BitVec 8 := line.getD i 0#8

/-- The registers that hold the line. -/
def ofLine (line : List (BitVec 8)) : Console := ⟨str line, BitVec.ofNat 32 line.length⟩

/-- A character behind the end of the vector goes nowhere, until the pointer, times eight,
wraps. -/
theorem ofLine_put {line : List (BitVec 8)} (h : line.length < 2 ^ 29) (c : BitVec 8) :
    (ofLine line).put c = ofLine (line ++ [c]) := by
  have hptr : (BitVec.ofNat 32 line.length * 8#32).toInt =
      if line.length < 2 ^ 28 then 8 * (line.length : ℤ)
      else 8 * (line.length : ℤ) - 2 ^ 32 := by
    rw [BitVec.toInt_eq_toNat_cond, BitVec.toNat_mul, BitVec.toNat_ofNat, BitVec.toNat_ofNat]
    split_ifs <;> omega
  rw [put, ofLine, ofLine, hptr, List.length_append, List.length_singleton, BitVec.ofNat_add]
  congr 1
  funext i
  have hi := i.isLt
  change (if _ then c else line.getD i 0#8) = (line ++ [c]).getD i 0#8
  rw [List.getD_eq_getElem?_getD, List.getD_eq_getElem?_getD]
  by_cases hlt : (i : ℕ) < line.length
  · rw [List.getElem?_append_left hlt, if_neg]
    split_ifs <;> omega
  · by_cases heq : (i : ℕ) = line.length
    · rw [if_pos (by split_ifs <;> omega), heq, List.getElem?_concat_length, Option.getD_some]
    · rw [if_neg (by split_ifs <;> omega), List.getElem?_eq_none (by omega),
        List.getElem?_eq_none (by rw [List.length_append, List.length_singleton]; omega)]

/-- **The registers implement the terminal** on all writes that leave no line longer than
`2 ^ 29` characters. -/
theorem run_ofLine {line : List (BitVec 8)} {ws : List TbmanWrite}
    (h : ∀ k, (Transducer.run Terminal.step line (ws.take k)).1.length ≤ 2 ^ 29) :
    Transducer.run step (ofLine line) ws =
      (ofLine (Transducer.run Terminal.step line ws).1,
        (Transducer.run Terminal.step line ws).2.map (Display.map str)) := by
  refine Transducer.run_abs (fun l => l.length ≤ 2 ^ 29) ?_ h
  intro l w _ hok
  cases w with
  | print c =>
      by_cases hc : c = 0x0A#8
      · rw [step, Terminal.step, if_pos hc, if_pos hc]
        rfl
      · rw [Terminal.step, if_neg hc, List.length_append, List.length_singleton] at hok
        rw [step, Terminal.step, if_neg hc, if_neg hc, ofLine_put (by omega)]
        rfl
  | putint v => rfl
  | exit v => rfl

end Console

/-! ### Strings -/

/-- `tb_putc`: a store of the character as a word. -/
def tbPutc (c : BitVec 8) : Word × Word × BitVec 4 := (0x8000F000#32, c.setWidth 32, 0xF#4)

/-- `tb_puts`, given the memory from the string on. -/
def tbPuts : List (BitVec 8) → List (Word × Word × BitVec 4)
  | [] => []
  | c :: s => if c = 0#8 then [] else tbPutc c :: tbPuts s

theorem tbmanWrite_tbPutc (c : BitVec 8) : tbmanWrite (tbPutc c) = some (.print c) := by
  have hlow : (c.setWidth 32).extractLsb' 0 8 = c := by
    ext i hi
    simp [hi]
    omega
  have hsel : (addrDecoder 0x8000F000#32).csTbmanN = false := by decide
  have hregs : tbmanRegs ((0x8000F000#32).extractLsb' 0 16) (c.setWidth 32) =
      some (.print ((c.setWidth 32).extractLsb' 0 8)) := rfl
  exact (if_pos hsel).trans (hregs.trans (by rw [hlow]))

/-- `tb_puts` prints the characters before the first `NUL`. -/
theorem tbmanWrite_tbPuts (s : List (BitVec 8)) :
    (tbPuts s).filterMap tbmanWrite = (s.takeWhile (· != 0#8)).map .print := by
  induction s with
  | nil => rfl
  | cons c s ih =>
      rw [tbPuts, List.takeWhile_cons]
      by_cases hc : c = 0#8
      · rw [if_pos hc, if_neg (by simp [hc])]
        rfl
      · rw [if_neg hc, if_pos (by simpa using hc), List.filterMap_cons, tbmanWrite_tbPutc,
          List.map_cons, ih]

/-- A terminal displays text as its lines, the first continuing the line begun; what is
behind the last line feed it keeps. -/
theorem Terminal.run_text {line : List (BitVec 8)} (h : 0x0A#8 ∉ line)
    (text : List (BitVec 8)) :
    Transducer.run Terminal.step line (text.map .print) =
      (((line ++ text).splitOn 0x0A#8).getLastD [],
        ((line ++ text).splitOn 0x0A#8).dropLast.map .print) := by
  induction text generalizing line with
  | nil =>
      rw [List.append_nil, List.splitOn_eq_singleton h]
      rfl
  | cons c text ih =>
      rw [List.map_cons, Transducer.run_cons, Terminal.step]
      by_cases hc : c = 0x0A#8
      · have hne := List.splitOn_ne_nil 0x0A#8 text
        rw [if_pos hc, hc, List.splitOn_append_cons_self, List.splitOn_eq_singleton h,
          ih List.not_mem_nil, List.nil_append, List.singleton_append,
          List.dropLast_cons_of_ne_nil hne]
        obtain ⟨l, ls, hls⟩ := List.exists_cons_of_ne_nil hne
        rw [hls]
        rfl
      · have hline : 0x0A#8 ∉ line ++ [c] := by
          rw [List.mem_append, List.mem_singleton]
          rintro (hmem | hmem)
          · exact h hmem
          · exact hc hmem.symm
        rw [if_neg hc, ih hline, List.append_assoc, List.singleton_append]
        rfl

/-! ### The console of a run -/

/-- The console write the hart makes. -/
def Hart.tbmanWrite (s : Hart) : Option TbmanWrite := s.busWrite.bind SmuRv32im.tbmanWrite

namespace Boot
variable (b : Boot)

/-- The registers of the print process in cycle `t` of a build with `SIM`. -/
def console : ℕ → Console :=
  Clocked.run (fun t c => (b.system t).tbmanWrite.elim c fun w => (c.step w).1) Console.empty

/-- What is displayed at the end of cycle `t`. -/
def display (t : ℕ) : Option (Display (Fin 128 → BitVec 8)) :=
  (b.system t).tbmanWrite.bind fun w => ((b.console t).step w).2

/-- `cycle_count` in cycle `t`. -/
def cycleCount : ℕ → Word := Clocked.run (fun _ c => c + 1#32) 0#32

/-- The exit code and the number of cycles reported at the end of cycle `t`. -/
def report (t : ℕ) : Option (Word × Word) :=
  (b.display t).bind fun
    | .exit exitO => some (exitO, cycleCount t)
    | _ => none

/-- The report is that of the write. -/
theorem report_eq (t : ℕ) : b.report t =
    (b.system t).tbmanWrite.bind fun
      | .exit exitO => some (exitO, cycleCount t)
      | _ => none := by
  rw [report, display]
  cases (b.system t).tbmanWrite with
  | none => rfl
  | some w =>
      cases w with
      | print c =>
          rw [Option.bind_some, Option.bind_some, Console.step]
          split_ifs <;> rfl
      | putint v | exit v => rfl

theorem cycleCount_eq (t : ℕ) : cycleCount t = BitVec.ofNat 32 t := by
  induction t with
  | zero => rfl
  | succ t ih =>
      have hstep : cycleCount (t + 1) = cycleCount t + 1#32 := rfl
      rw [hstep, ih, BitVec.ofNat_add]

/-- The console writes of the first `k` instructions. -/
noncomputable def hartWrites (k : ℕ) : List TbmanWrite :=
  Clocked.log (fun j => (b.hart j).bind Hart.tbmanWrite) k

theorem hartWrites_eq (k : ℕ) : b.hartWrites k = (b.hartStores k).filterMap tbmanWrite := by
  have hhart : (fun j => (b.hart j).bind Hart.tbmanWrite) =
      fun j => ((b.hart j).bind Hart.busWrite).bind tbmanWrite :=
    funext fun j => (Option.bind_assoc _ _ _).symm
  rw [hartWrites, hhart, Clocked.log_bind fun j => (b.hart j).bind Hart.busWrite, hartStores]

/-- No line among the first `k` instructions is longer than `2 ^ 29` characters. -/
def ShortLines (k : ℕ) : Prop :=
  ∀ j, (Transducer.run Terminal.step [] ((b.hartWrites k).take j)).1.length ≤ 2 ^ 29

theorem shortLines_of_le {k : ℕ} (hk : k ≤ 2 ^ 29) : b.ShortLines k := by
  intro j
  have hlen := Terminal.length_run [] ((b.hartWrites k).take j)
  have htake : ((b.hartWrites k).take j).length ≤ (b.hartWrites k).length := by
    rw [List.length_take]
    exact Nat.min_le_right _ _
  have hlog : (b.hartWrites k).length ≤ k := Clocked.length_log_le _ k
  rw [List.length_nil] at hlen
  omega

/-- Fewer instructions print no longer lines. -/
theorem ShortLines.of_le {b : Boot} {j k : ℕ} (h : b.ShortLines k) (hjk : j ≤ k) :
    b.ShortLines j := by
  intro i
  obtain ⟨ws, hws⟩ : b.hartWrites j <+: b.hartWrites k := Clocked.log_mono _ hjk
  have hshort := h (min i (b.hartWrites j).length)
  rwa [← hws, List.take_append_of_le_length (Nat.min_le_right _ _),
    ← List.take_eq_take_min] at hshort

section
variable {b} {n : ℕ} (h : b.Conforms n)
include h

theorem log_tbmanWrite {t : ℕ} (ht : b.systemRun.countE (t - 1) ≤ n) :
    Clocked.log (fun u => (b.system u).tbmanWrite) t = b.hartWrites (b.systemRun.countM t) := by
  have hsys : (fun u => (b.system u).tbmanWrite) =
      fun u => (b.system u).cpu.busWrite.bind tbmanWrite :=
    funext fun u => (b.system u).tbmanWrite_eq
  rw [hsys, Clocked.log_bind, b.log_busWrite h ht, b.hartWrites_eq]

/-- The print process reads the writes of the hart. -/
theorem console_run {t : ℕ} (ht : b.systemRun.countE (t - 1) ≤ n)
    (hlines : b.ShortLines (b.systemRun.countM t)) :
    (b.console t, Clocked.log b.display t) =
      (Console.ofLine (Transducer.run Terminal.step []
          (b.hartWrites (b.systemRun.countM t))).1,
        (Transducer.run Terminal.step [] (b.hartWrites (b.systemRun.countM t))).2.map
          (Display.map Console.str)) := by
  have hrun : Transducer.run Console.step (b.console 0)
      (Clocked.log (fun u => (b.system u).tbmanWrite) t) =
        (b.console t, Clocked.log b.display t) :=
    Transducer.run_log (fun _ => rfl) (fun _ => rfl) t
  rw [log_tbmanWrite h ht] at hrun
  have hempty : b.console 0 = Console.ofLine [] := rfl
  rw [hempty, Console.run_ofLine hlines] at hrun
  exact hrun.symm

theorem log_display {t : ℕ} (ht : b.systemRun.countE (t - 1) ≤ n)
    (hlines : b.ShortLines (b.systemRun.countM t)) :
    Clocked.log b.display t =
      (Transducer.run Terminal.step [] (b.hartWrites (b.systemRun.countM t))).2.map
        (Display.map Console.str) :=
  congrArg Prod.snd (console_run h ht hlines)

/-- **The console of the pipeline is the terminal of the hart**: `print_str` and `print_ptr`
hold the line begun, and what has been displayed is what the terminal puts out. -/
theorem console_hart {t : ℕ} (ht : b.systemRun.countE (t - 1) ≤ n)
    (hlines : b.ShortLines (b.systemRun.countM t)) :
    b.console t = Console.ofLine (Transducer.run Terminal.step []
        (b.hartWrites (b.systemRun.countM t))).1 ∧
      Clocked.log b.display t =
        (Transducer.run Terminal.step [] (b.hartWrites (b.systemRun.countM t))).2.map
          (Display.map Console.str) :=
  Prod.ext_iff.mp (console_run h ht hlines)

/-- The console write of a cycle. -/
theorem tbmanWrite_hart {t : ℕ} (ht : b.systemRun.countE t ≤ n) :
    (b.system t).tbmanWrite =
      if (b.systemRun.occ t).m = true then
        (b.hart (b.systemRun.countM t)).bind Hart.tbmanWrite
      else none := by
  rw [System.tbmanWrite_eq, b.busWrite_hart h ht]
  split_ifs
  · exact Option.bind_assoc _ _ _
  · rfl

variable {k : ℕ} {s : Hart} {v : Word} (hk : k < n) (hs : b.hart k = some s)
  (hv : s.tbmanWrite = some (.exit v))
include hk hs hv

/-- **The transcript of a simulation that ends**: once the exit is in Memory, it is that of
the terminal on the instructions up to the exit, whatever follows. -/
theorem transcript_hart (hlines : b.ShortLines (k + 1)) {t : ℕ}
    (ht : b.systemRun.entry k + 2 ≤ t) : untilFinish (Clocked.log b.display t) =
      (untilFinish (Transducer.run Terminal.step [] (b.hartWrites (k + 1))).2).map
        (Display.map Console.str) := by
  have hM : b.systemRun.countM (b.systemRun.entry k + 2) = k + 1 := by
    rw [Run.countM_succ, b.countE_entry_succ]
  have hlog := log_display h (t := b.systemRun.entry k + 2)
    ((b.countE_entry_succ k).trans_le hk) (by rw [hM]; exact hlines)
  rw [hM] at hlog
  obtain ⟨es, hes⟩ := Clocked.log_mono b.display ht
  have hexit : .exit v ∈ Clocked.log b.display (b.systemRun.entry k + 2) := by
    have hlast : b.hartWrites (k + 1) = b.hartWrites k ++ [.exit v] := by
      rw [hartWrites, Clocked.log_succ, hs, Option.bind_some, hv]
      rfl
    rw [hlog, hlast, Transducer.run_concat]
    exact List.mem_map.mpr ⟨.exit v, List.mem_append_right _ List.mem_cons_self, rfl⟩
  rw [← hes, untilFinish_append hexit, hlog, untilFinish_map]

/-- **The report of a simulation that ends**: the first exit of the program is reported, with
its code, in the cycle after it is in Execute, and `cycle_count` is that cycle. -/
theorem report_hart
    (hfirst : ∀ j, j < k → ∀ s ∈ b.hart j, ∀ v, s.tbmanWrite ≠ some (.exit v)) :
    (∀ u, u ≤ b.systemRun.entry k → b.report u = none) ∧
      b.report (b.systemRun.entry k + 1) =
        some (v, BitVec.ofNat 32 (b.systemRun.entry k + 1)) := by
  have hcount := b.countE_entry k
  constructor
  · intro u hu
    have hmono := b.systemRun.countE_mono hu
    rw [b.report_eq, tbmanWrite_hart h (by omega)]
    split_ifs with hm
    · have hlt : b.systemRun.countM u < k := by
        have hE := b.systemRun.idxE_eq u
        rw [Occupancy.idxE, b.systemRun.idxM_eq u, hm, Bool.toNat_true] at hE
        omega
      obtain ⟨s', hs'⟩ := h.exists_hart (k := b.systemRun.countM u) (by omega)
      rw [hs', Option.bind_some]
      cases hw : s'.tbmanWrite with
      | none => rfl
      | some w =>
          cases w with
          | exit v' => exact absurd hw (hfirst _ hlt s' hs' v')
          | print c | putint v' => rfl
    · rfl
  · have hM := b.countM_entry_succ k
    have hm : (b.systemRun.occ (b.systemRun.entry k + 1)).m = true := b.systemRun.occ_entry k
    rw [b.report_eq, tbmanWrite_hart h ((b.countE_entry_succ k).trans_le hk), if_pos hm, hM, hs,
      Option.bind_some, hv, Option.bind_some, cycleCount_eq]

end

end Boot

/-! ### A program that prints -/

/-- `lui x2, 0x8000F`, then `'A'` and a line feed to the byte register, and the code 10 to the
exit register. The words behind are no instructions. -/
def printBoot : Boot :=
  { x := ⟨0#3, 0#5, 0#32, 0#32, 0#32⟩
    image := fun a => if a = 0#17 then 0x8000F137#32 else if a = 1#17 then 0x04100093#32
      else if a = 2#17 then 0x00112023#32 else if a = 3#17 then 0x00A00093#32
      else if a = 4#17 then 0x00112023#32 else if a = 5#17 then 0x00112423#32 else 0#32
    rf := fun _ => 0#32
    sim := true }

theorem printBoot_freeRun : printBoot.FreeRun (fun _ => 0#32) 6 := by
  decide +kernel

theorem printBoot_exit :
    ∃ s, printBoot.hart 5 = some s ∧ s.tbmanWrite = some (.exit 10#32) :=
  printBoot_freeRun.exists_hart (by omega) (by decide +kernel)

/-- The line is on the console as soon as five instructions have been in Memory. -/
theorem printBoot_console :
    printBoot.console 9 = Console.ofLine (Transducer.run Terminal.step []
        (printBoot.hartWrites (printBoot.systemRun.countM 9))).1 ∧
      Clocked.log printBoot.display 9 =
        (Transducer.run Terminal.step []
          (printBoot.hartWrites (printBoot.systemRun.countM 9))).2.map (Display.map Console.str) :=
  printBoot.console_hart printBoot_freeRun.conforms (by decide +kernel)
    (printBoot.shortLines_of_le (by decide +kernel))

theorem printBoot_transcript : untilFinish (Clocked.log printBoot.display
      (printBoot.systemRun.entry 5 + 2)) =
    (untilFinish (Transducer.run Terminal.step [] (printBoot.hartWrites 6)).2).map
      (Display.map Console.str) := by
  obtain ⟨s, hs, hv⟩ := printBoot_exit
  exact printBoot.transcript_hart printBoot_freeRun.conforms (by omega) hs hv
    (printBoot.shortLines_of_le (by omega)) le_rfl

theorem printBoot_report :
    (∀ u, u ≤ printBoot.systemRun.entry 5 → printBoot.report u = none) ∧
      printBoot.report (printBoot.systemRun.entry 5 + 1) =
        some (10#32, BitVec.ofNat 32 (printBoot.systemRun.entry 5 + 1)) := by
  obtain ⟨s, hs, hv⟩ := printBoot_exit
  have hprint : ∀ j, j < 5 → ∀ s ∈ printBoot.hartWith (fun _ => 0#32) j,
      s.tbmanWrite = none ∨ s.tbmanWrite = some (.print 0x41#8) ∨
        s.tbmanWrite = some (.print 0x0A#8) := by
    decide +kernel
  refine printBoot.report_hart printBoot_freeRun.conforms (by omega) hs hv ?_
  intro j hj s hs v hexit
  rw [printBoot_freeRun.hart_eq (by omega)] at hs
  have hcases := hprint j hj s hs
  simp [hexit] at hcases

end SmuRv32im
