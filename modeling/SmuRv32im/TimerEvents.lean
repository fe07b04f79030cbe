import SmuRv32im.Lib.Latch
import SmuRv32im.Timer

/-!
# The Events of the Timer

The timer under bus cycles that leave the compare register alone, started with the flag clear
and the counter at zero. The flag is a latch between the comparison and the status reads: the
comparison sets it, a read clears it, and while it is set the counter is past the compare value
or at zero, so there is no second match before the read.

The counter itself is not reset by the comparison but by the flag, one cycle later. It goes on
to the value behind the compare value, and is back at zero in the next cycle only if that value
is zero.

## Main results

* `TimerCounter.latch`: the flag is a latch between matches and status reads.
* `TimerCounter.timer_events`: what the status reads return, and that the reads that return
  the flag and the matches correspond one-to-one.
* `TimerCounter.counter_wraps_iff`: how long the counter wraps at the compare value.
-/

namespace SmuRv32im

/-- The bus reads the counter register. -/
def TimerBus.readsCounter (b : TimerBus) : Prop :=
  b.csN = false ∧ b.rdN = false ∧ b.addr = 0x100#12

namespace TimerCounter

section
variable (s : TimerCounter) (bus : ℕ → TimerBus) (t : ℕ)

/-- A status read in cycle `t`. -/
def StatusRead : Prop := (bus t).readsStatus

instance : DecidablePred (StatusRead bus) := fun t =>
  inferInstanceAs (Decidable (bus t).readsStatus)

/-- A status read in cycle `t` returns a set flag. -/
def ReturnsFlag : Prop :=
  StatusRead bus t ∧ (dataOut (bus t) (runFrom s bus t)).getLsbD 0 = true

instance : DecidablePred (ReturnsFlag s bus) := fun _ => inferInstanceAs (Decidable (_ ∧ _))

end

/-! ### The status register -/

theorem dataOut_of_readsStatus {b : TimerBus} (s : TimerCounter) (h : b.readsStatus) :
    dataOut b s = s.statusR := by
  obtain ⟨hcs, hrd, haddr⟩ := h
  simp [dataOut, hcs, hrd, haddr]

theorem dataOut_of_readsCounter {b : TimerBus} (s : TimerCounter) (h : b.readsCounter) :
    dataOut b s = s.counterR := by
  obtain ⟨hcs, hrd, haddr⟩ := h
  simp [dataOut, hcs, hrd, haddr]

/-- A status read returns a set flag exactly if the flag is set. -/
theorem returnsFlag_iff (s : TimerCounter) (bus : ℕ → TimerBus) (t : ℕ) :
    ReturnsFlag s bus t ↔ StatusRead bus t ∧ (runFrom s bus t).flag = true := by
  refine and_congr_right ?_
  intro hread
  rw [dataOut_of_readsStatus _ hread, flag]

/-- Clearing bit 0 undoes setting it. -/
theorem set_clear {w : Word} (h : w.getLsbD 0 = false) :
    (w ||| 1#32) &&& ~~~1#32 = w ∧ w &&& ~~~1#32 = w := by
  have hclear : w &&& ~~~1#32 = w := by
    refine BitVec.eq_of_getLsbD_eq ?_
    intro i hi
    rw [BitVec.getLsbD_and, BitVec.getLsbD_not, BitVec.getLsbD_one]
    cases i with
    | zero => rw [h, Bool.false_and]
    | succ i =>
        simp only [hi, Nat.succ_ne_zero, decide_true, decide_false, Bool.and_false,
          Bool.not_false, Bool.and_true]
  refine ⟨?_, hclear⟩
  have hone : (1#32 : Word) &&& ~~~1#32 = 0#32 := rfl
  rw [BitVec.and_or_distrib_right, hclear, hone, BitVec.or_zero]

/-- The upper bits of the status register never change. -/
theorem statusR_run {s : TimerCounter} (h : s.flag = false) (bus : ℕ → TimerBus) (t : ℕ) :
    (runFrom s bus t).statusR =
      if (runFrom s bus t).flag = true then s.statusR ||| 1#32 else s.statusR := by
  have hset : (s.statusR ||| 1#32).getLsbD 0 = true := by simp
  obtain ⟨hor, hand⟩ := set_clear h
  have hvalue : (runFrom s bus t).statusR = s.statusR ||| 1#32 ∨
      (runFrom s bus t).statusR = s.statusR := by
    refine Clocked.run_invariant (fun _ (q : TimerCounter) =>
      q.statusR = s.statusR ||| 1#32 ∨ q.statusR = s.statusR) (Or.inr rfl) ?_ t
    intro u q hq
    simp only [step, Bool.false_eq_true, if_false]
    split_ifs
    · obtain hq | hq := hq
      · rw [hq, BitVec.or_assoc, BitVec.or_self]
        exact Or.inl rfl
      · rw [hq]
        exact Or.inl rfl
    · obtain hq | hq := hq
      · rw [hq, hor]
        exact Or.inr rfl
      · rw [hq, hand]
        exact Or.inr rfl
    · exact hq
  obtain hvalue | hvalue := hvalue
  · rw [flag, hvalue, if_pos hset]
  · rw [flag, hvalue, if_neg]
    rw [show s.statusR.getLsbD 0 = false from h]
    exact Bool.false_ne_true

/-! ### The flag as a latch -/

/-- A word is not its successor. -/
theorem ne_add_one (w : Word) : w ≠ w + 1#32 := by
  intro h
  have hnat := congrArg BitVec.toNat h
  rw [BitVec.toNat_add, BitVec.toNat_ofNat] at hnat
  have hlt := w.isLt
  omega

section
variable {s : TimerCounter} {bus : ℕ → TimerBus} (hbus : KeepsCompare bus)
include hbus

/-- While the flag is set there is no match: the counter is one past the compare value, and
then at zero. -/
theorem not_match_of_flag (hflag : s.flag = false) (hC : s.compareR ≠ 0#32) (t : ℕ)
    (h : (runFrom s bus t).flag = true) : ¬Match s bus t := by
  induction t with
  | zero =>
      have hset : s.flag = true := h
      rw [hflag] at hset
      exact absurd hset Bool.false_ne_true
  | succ t ih =>
      rw [Match, compareR_runFrom hbus, runFrom_succ, counterR_step]
      obtain hmatch | ⟨hset, -⟩ := (flag_succ_iff s bus t).mp h
      · have hclear : ¬(runFrom s bus t).flag = true := fun hset => ih hset hmatch
        rw [if_neg hclear, ← hmatch, compareR_runFrom hbus]
        exact ne_add_one s.compareR
      · rw [if_pos hset]
        exact hC

/-- **The flag is a latch** between the matches and the status reads. -/
theorem latch (hflag : s.flag = false) (hC : s.compareR ≠ 0#32) :
    Latch (fun t => (runFrom s bus t).flag = true) (Match s bus) (StatusRead bus) where
  empty := by
    intro hset
    exact Bool.false_ne_true (hflag.symm.trans hset)
  next := flag_succ_iff s bus
  apart := by
    intro t hmatch hset
    exact not_match_of_flag hbus hflag hC t hset hmatch

/-- A read that finds the flag set ends the period: the next cycle starts a new one. -/
theorem periodStart_of_read (hflag : s.flag = false) (hC : s.compareR ≠ 0#32) {r : ℕ}
    (hread : StatusRead bus r)
    (hset : (runFrom s bus r).flag = true) : PeriodStart (runFrom s bus (r + 1)) where
  flag := by
    refine eq_false_of_ne_true ?_
    intro hset'
    obtain hmatch | ⟨-, hunread⟩ := (flag_succ_iff s bus r).mp hset'
    · exact not_match_of_flag hbus hflag hC r hset hmatch
    · exact hunread hread
  counterR := by
    rw [runFrom_succ, counterR_step, if_pos hset]

end

/-! ### The events -/

/-- One period from the state `s`, with the match in the cycle of the compare value. -/
structure Period (s : TimerCounter) (bus : ℕ → TimerBus) : Prop where
  /-- Up to the match the flag is clear, and status reads return it so. -/
  quiet : ∀ t, t ≤ s.compareR.toNat → (runFrom s bus t).flag = false ∧
    (StatusRead bus t → dataOut (bus t) (runFrom s bus t) = s.statusR)
  /-- From the next cycle on the flag is set, until it is read. -/
  pending : ∀ t, s.compareR.toNat < t →
    (∀ u, s.compareR.toNat < u → u < t → ¬StatusRead bus u) → (runFrom s bus t).flag = true
  /-- The first read returns it, and starts the next period. -/
  read : ∀ r, FirstRead (StatusRead bus) s.compareR.toNat r →
    dataOut (bus r) (runFrom s bus r) = s.statusR ||| 1#32 ∧
      PeriodStart (runFrom s bus (r + 1)) ∧ (runFrom s bus (r + 1)).compareR = s.compareR

/-- The status reads that return the flag and the matches correspond one-to-one. -/
structure OneToOne (s : TimerCounter) (bus : ℕ → TimerBus) : Prop where
  /-- No match is lost: the first status read after it returns the flag. -/
  reported : ∀ m r, Match s bus m → FirstRead (StatusRead bus) m r → ReturnsFlag s bus r
  /-- No match is reported twice, and none is reported that did not happen. -/
  reports : ∀ r, ReturnsFlag s bus r → ∃! m, Match s bus m ∧ FirstRead (StatusRead bus) m r
  /-- The matches so far are the reads so far that returned the flag, and a pending one. -/
  count : ∀ t, Nat.count (Match s bus) t =
    Nat.count (ReturnsFlag s bus) t + if (runFrom s bus t).flag = true then 1 else 0

section
variable {s : TimerCounter} {bus : ℕ → TimerBus} (hbus : KeepsCompare bus) (hs : PeriodStart s)
include hbus hs

theorem period (hC : s.compareR ≠ 0#32) : Period s bus where
  quiet := by
    intro t ht
    obtain ⟨hflag, -⟩ := run_first hbus hs ht
    refine ⟨hflag, ?_⟩
    intro hread
    rw [dataOut_of_readsStatus _ hread, statusR_run hs.flag, hflag, if_neg Bool.false_ne_true]
  pending := by
    intro t ht hunread
    exact (latch hbus hs.flag hC).full_of_set (match_first hbus hs) ht hunread
  read := by
    intro r hfirst
    have hset := (latch hbus hs.flag hC).full_of_firstRead (match_first hbus hs) hfirst
    obtain ⟨-, hread, -⟩ := hfirst
    refine ⟨?_, periodStart_of_read hbus hs.flag hC hread hset, compareR_runFrom hbus _⟩
    rw [dataOut_of_readsStatus _ hread, statusR_run hs.flag, if_pos hset]

theorem oneToOne (hC : s.compareR ≠ 0#32) : OneToOne s bus where
  reported := by
    intro m r hmatch hfirst
    have hset := (latch hbus hs.flag hC).full_of_firstRead hmatch hfirst
    obtain ⟨-, hread, -⟩ := hfirst
    exact (returnsFlag_iff s bus r).mpr ⟨hread, hset⟩
  reports := by
    intro r hreturns
    obtain ⟨hread, hset⟩ := (returnsFlag_iff s bus r).mp hreturns
    exact (latch hbus hs.flag hC).exists_unique_set hread hset
  count := by
    intro t
    have hreturns : ReturnsFlag s bus =
        fun u => StatusRead bus u ∧ (runFrom s bus u).flag = true :=
      funext fun u => propext (returnsFlag_iff s bus u)
    rw [(latch hbus hs.flag hC).count_set t]
    simp only [hreturns]

/-- **The events of the timer are exact.** From a period start with a compare value other than
zero, under all bus cycles that leave the compare register alone, status reads return a clear
flag up to the match and a set flag once after it, in every period. In the states the timer
reaches from reset a clear flag means that the whole status register is zero. -/
theorem timer_events (hC : s.compareR ≠ 0#32) :
    Period s bus ∧ OneToOne s bus ∧ ∀ bus' n, s = run bus' n → s.statusR = 0#32 := by
  refine ⟨period hbus hs hC, oneToOne hbus hs hC, ?_⟩
  intro bus' n hrun
  have hstatus := statusR_run flag_reset bus' n
  have hfrom : runFrom reset bus' n = s := hrun.symm
  rw [hfrom, hs.flag, if_neg Bool.false_ne_true] at hstatus
  exact hstatus

end

/-- A bus that reads the status register in every cycle. -/
def statusBus : TimerBus := ⟨false, false, true, 0x200#12, 0#32⟩

/-- Reads in every cycle: the one in the cycle of the match returns a clear flag, the next one
the flag. -/
theorem read_behind_match :
    Match ⟨1#32, 0#32, 0#32⟩ (fun _ => statusBus) 1 ∧
      ReturnsFlag ⟨1#32, 0#32, 0#32⟩ (fun _ => statusBus) 2 := by
  have hbus : KeepsCompare fun _ => statusBus := by
    intro _
    simp [statusBus, TimerBus.writesCompare]
  have hs : PeriodStart ⟨1#32, 0#32, 0#32⟩ := ⟨rfl, rfl⟩
  obtain ⟨-, hone, -⟩ := timer_events hbus hs (by simp)
  have hfirst : FirstRead (StatusRead fun _ => statusBus) 1 2 := by
    refine ⟨Nat.one_lt_two, ⟨rfl, rfl, rfl⟩, ?_⟩
    intro u h1 h2
    omega
  exact ⟨rfl, hone.reported 1 2 rfl hfirst⟩

/-! ### The wrap of the counter -/

/-- In cycle `t` the counter is not above the compare value, and a counter read does not show
it there; if it has reached the compare value, it is zero in the next cycle. -/
structure WrapsAt (s : TimerCounter) (bus : ℕ → TimerBus) (t : ℕ) : Prop where
  bound : (runFrom s bus t).counterR.toNat ≤ (runFrom s bus t).compareR.toNat
  read : (bus t).readsCounter →
    (dataOut (bus t) (runFrom s bus t)).toNat ≤ (runFrom s bus t).compareR.toNat
  wrap : Match s bus t → (runFrom s bus (t + 1)).counterR = 0#32

section
variable {s : TimerCounter} {bus : ℕ → TimerBus} (hbus : KeepsCompare bus)
include hbus

/-- The bound on the counter is also the bound on what is read. -/
theorem WrapsAt.of_bound {t : ℕ}
    (hbound : (runFrom s bus t).counterR.toNat ≤ s.compareR.toNat)
    (hwrap : Match s bus t → (runFrom s bus (t + 1)).counterR = 0#32) : WrapsAt s bus t where
  bound := by
    rw [compareR_runFrom hbus]
    exact hbound
  read := by
    intro hread
    rw [dataOut_of_readsCounter _ hread, compareR_runFrom hbus]
    exact hbound
  wrap := hwrap

/-- With the greatest compare value the counter wraps by itself. -/
theorem wrapsAt_of_max (hmax : s.compareR = 0xFFFFFFFF#32) (t : ℕ) : WrapsAt s bus t := by
  refine WrapsAt.of_bound hbus ?_ ?_
  · rw [hmax]
    exact Nat.le_of_lt_succ (runFrom s bus t).counterR.isLt
  · intro hmatch
    rw [runFrom_succ, counterR_step, ← hmatch, compareR_runFrom hbus, hmax]
    exact ite_self _

variable (hs : PeriodStart s)
include hs

/-- Before the match the counter counts up to the compare value. -/
theorem wrapsAt_of_lt {t : ℕ} (ht : t < s.compareR.toNat) : WrapsAt s bus t := by
  obtain ⟨-, hcount⟩ := run_first hbus hs ht.le
  have hlt := s.compareR.isLt
  have hnat : (runFrom s bus t).counterR.toNat = t := by
    rw [hcount, BitVec.toNat_ofNat, Nat.mod_eq_of_lt (by omega)]
  refine WrapsAt.of_bound hbus ?_ ?_
  · omega
  · intro hmatch
    rw [Match, compareR_runFrom hbus] at hmatch
    rw [← hmatch] at hnat
    omega

/-- The match does not wrap the counter, unless it is at the greatest value. -/
theorem eq_max_of_wrapsAt (h : WrapsAt s bus s.compareR.toNat) :
    s.compareR = 0xFFFFFFFF#32 := by
  have hzero := h.wrap (match_first hbus hs)
  rw [counterR_behind hbus hs] at hzero
  have hpred : s.compareR = 0#32 - 1#32 := BitVec.eq_sub_iff_add_eq.mpr hzero
  exact hpred

/-- **How long the counter wraps at the compare value**: up to the first match, and for ever if
the compare value is the greatest word. -/
theorem counter_wraps_iff :
    ((∀ t, WrapsAt s bus t) ↔ s.compareR = 0xFFFFFFFF#32) ∧
      ∀ T, (∀ t, t < T → WrapsAt s bus t) ↔
        T ≤ s.compareR.toNat ∨ s.compareR = 0xFFFFFFFF#32 := by
  constructor
  · constructor
    · intro h
      exact eq_max_of_wrapsAt hbus hs (h s.compareR.toNat)
    · exact wrapsAt_of_max hbus
  · intro T
    constructor
    · intro h
      by_cases hT : T ≤ s.compareR.toNat
      · exact Or.inl hT
      · exact Or.inr (eq_max_of_wrapsAt hbus hs (h _ (Nat.lt_of_not_le hT)))
    · rintro (hT | hmax) t ht
      · exact wrapsAt_of_lt hbus hs (Nat.lt_of_lt_of_le ht hT)
      · exact wrapsAt_of_max hbus hmax t

end

/-- With the reset value of the compare register the counter never stands above it. -/
theorem counter_wraps_reset :
    PeriodStart reset ∧ ∀ t, WrapsAt reset (fun _ => counterBus) t := by
  have hs : PeriodStart reset := ⟨flag_reset, rfl⟩
  refine ⟨hs, ?_⟩
  exact (counter_wraps_iff (fun t => (counterBus_unattended t).1) hs).1.mpr rfl

/-- With the compare value 3 the counter reads as 4 in cycle 4. -/
theorem counter_above_compare :
    KeepsCompare (fun _ => counterBus) ∧ PeriodStart ⟨3#32, 0#32, 0#32⟩ ∧
      ¬∀ t, WrapsAt ⟨3#32, 0#32, 0#32⟩ (fun _ => counterBus) t := by
  refine ⟨fun t => (counterBus_unattended t).1, ⟨rfl, rfl⟩, ?_⟩
  intro h
  have hread := (h 4).read ⟨rfl, rfl, rfl⟩
  have hlt : ¬(4 : ℕ) ≤ 3 := by omega
  exact hlt hread

end TimerCounter

end SmuRv32im
