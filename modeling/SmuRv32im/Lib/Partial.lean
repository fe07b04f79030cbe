import Mathlib.Algebra.BigOperators.Intervals
import SmuRv32im.Lib.Clocked

/-!
# Partial Machines

A machine that may have no next state: `run step s n` is the state after `n` steps from `s`,
if there is one. The step may depend on its number, which is how inputs enter.

Programs of such a machine are reasoned about with `Emits`: from a state, whatever the inputs,
a number of steps leads to a state, and a property holds of that state and of what the machine
has emitted on the way. `Leads` is the case of a program that emits nothing. The rules follow
the program: a step (`emits_succ`), one piece after another (`Emits.trans`, `Leads.trans`), and
the rounds of a loop, given what holds between them (`Emits.loop`, `Leads.loop`).

What holds of every state a program goes through is put into the machine: `guard P step` makes
the steps of `step` from the states with `P` and no others, so that what is shown of it is shown
of `step`, along states with `P` (`Emits.of_guard`).
-/

namespace Partial

variable {σ ι ω : Type*}

/-- `n` steps of a partial machine from `s`. -/
def run (step : ℕ → σ → Option σ) (s : σ) : ℕ → Option σ
  | 0 => some s
  | n + 1 => (run step s n).bind (step n)

section
variable {step : ℕ → σ → Option σ} {s : σ}

@[simp] theorem run_zero : run step s 0 = some s := rfl

theorem run_succ_eq_some_iff {n : ℕ} {s' : σ} :
    run step s (n + 1) = some s' ↔ ∃ t, run step s n = some t ∧ step n t = some s' :=
  Option.bind_eq_some_iff

/-- A run has passed through a state after each smaller number of steps. -/
theorem exists_run_of_le {n k : ℕ} {s' : σ} (h : run step s n = some s') (hk : k ≤ n) :
    ∃ t, run step s k = some t := by
  induction n generalizing s' with
  | zero =>
      obtain rfl : k = 0 := by omega
      exact ⟨s, rfl⟩
  | succ n ih =>
      obtain ⟨t, ht, -⟩ := run_succ_eq_some_iff.mp h
      obtain rfl | hlt := Nat.eq_or_lt_of_le hk
      · exact ⟨s', h⟩
      · exact ih ht (by omega)

/-- Machines that make the same steps along a run of the first have that run in common. -/
theorem run_congr {step' : ℕ → σ → Option σ} {n : ℕ} {s' : σ} (h : run step s n = some s')
    (agree : ∀ k t, k < n → run step s k = some t → step' k t = step k t) :
    run step' s n = some s' := by
  induction n generalizing s' with
  | zero => exact h
  | succ n ih =>
      obtain ⟨t, ht, hstep⟩ := run_succ_eq_some_iff.mp h
      refine run_succ_eq_some_iff.mpr ⟨t, ?_, ?_⟩
      · exact ih ht fun k u hk hu => agree k u (Nat.lt_succ_of_lt hk) hu
      · rw [agree n t (Nat.lt_succ_self n) ht, hstep]

/-- A run goes on from the state it has reached. -/
theorem run_add (m n : ℕ) :
    run step s (m + n) = (run step s m).bind fun t => run (fun k => step (m + k)) t n := by
  induction n with
  | zero => exact (Option.bind_fun_some _).symm
  | succ n ih =>
      have hsucc : run step s (m + (n + 1)) = (run step s (m + n)).bind (step (m + n)) := rfl
      rw [hsucc, ih, Option.bind_assoc]
      rfl

end

/-! ### Programs -/

/-- What the states of a run emit before each of its first `n` steps. -/
def trace (emit : σ → Option ω) (step : ℕ → σ → Option σ) (s : σ) (n : ℕ) : List ω :=
  Clocked.log (fun k => (run step s k).bind emit) n

/-- A trace goes on with that of the state reached. -/
theorem trace_add (emit : σ → Option ω) {step : ℕ → σ → Option σ} {s t : σ} {m : ℕ}
    (h : run step s m = some t) (n : ℕ) : trace emit step s (m + n) =
      trace emit step s m ++ trace emit (fun k => step (m + k)) t n := by
  rw [trace, Clocked.log_add, trace, trace]
  simp only [run_add, h, Option.bind_some]

/-- From `s`, `n` steps lead to a state, whatever the inputs, and `Q` holds of what has been
emitted and of that state. -/
def Emits (step : ι → σ → Option σ) (emit : σ → Option ω) (n : ℕ) (s : σ)
    (Q : List ω → σ → Prop) : Prop :=
  ∀ io : ℕ → ι, ∃ t, run (fun k => step (io k)) s n = some t ∧
    Q (trace emit (fun k => step (io k)) s n) t

/-- From `s`, `n` steps lead to a state with `Q`, whatever the inputs, and emit nothing. -/
abbrev Leads (step : ι → σ → Option σ) (emit : σ → Option ω) (n : ℕ) (s : σ)
    (Q : σ → Prop) : Prop :=
  Emits step emit n s fun ws t => ws = [] ∧ Q t

section
variable {step : ι → σ → Option σ} {emit : σ → Option ω} {s : σ} {m n : ℕ}
  {P Q : List ω → σ → Prop}

theorem emits_zero (h : Q [] s) : Emits step emit 0 s Q := fun _ => ⟨s, rfl, h⟩

/-- **One piece after another.** -/
theorem Emits.trans (h : Emits step emit m s P)
    (h' : ∀ ws t, P ws t → Emits step emit n t fun us => Q (ws ++ us)) :
    Emits step emit (m + n) s Q := by
  intro io
  obtain ⟨t, ht, hP⟩ := h io
  obtain ⟨u, hu, hQ⟩ := h' _ t hP fun k => io (m + k)
  refine ⟨u, ?_, ?_⟩
  · rw [run_add, ht]
    exact hu
  · rw [trace_add emit ht]
    exact hQ

/-- **A step.** -/
theorem emits_succ (h : ∀ i, ∃ t, step i s = some t ∧
    Emits step emit n t fun ws => Q ((emit s).toList ++ ws)) :
    Emits step emit (n + 1) s Q := by
  have hone : Emits step emit 1 s fun ws t =>
      Emits step emit n t fun us => Q (ws ++ us) := by
    intro io
    obtain ⟨t, ht, hQ⟩ := h (io 0)
    refine ⟨t, ht, ?_⟩
    rw [trace, Clocked.log_succ, Clocked.log_zero, List.nil_append]
    exact hQ
  rw [Nat.add_comm]
  exact hone.trans fun _ _ ht => ht

theorem Emits.mono (h : Emits step emit n s P) (hPQ : ∀ ws t, P ws t → Q ws t) :
    Emits step emit n s Q := by
  intro io
  obtain ⟨t, ht, hP⟩ := h io
  exact ⟨t, ht, hPQ _ t hP⟩

end

section
variable {step : ι → σ → Option σ} {emit : σ → Option ω} {s : σ} {m n : ℕ} {P Q : σ → Prop}

theorem leads_zero (h : Q s) : Leads step emit 0 s Q := emits_zero ⟨rfl, h⟩

/-- A piece that emits nothing, before any other. -/
theorem Leads.emits {R : List ω → σ → Prop} (h : Leads step emit m s P)
    (h' : ∀ t, P t → Emits step emit n t R) : Emits step emit (m + n) s R := by
  refine Emits.trans h ?_
  rintro ws t ⟨rfl, hP⟩
  exact h' t hP

theorem Leads.trans (h : Leads step emit m s P) (h' : ∀ t, P t → Leads step emit n t Q) :
    Leads step emit (m + n) s Q :=
  h.emits h'

theorem Leads.mono (h : Leads step emit n s P) (hPQ : ∀ t, P t → Q t) :
    Leads step emit n s Q :=
  Emits.mono h fun _ t ht => ⟨ht.1, hPQ t ht.2⟩

end

/-! ### Loops -/

section
variable {step : ι → σ → Option σ} {emit : σ → Option ω} {I : ℕ → σ → Prop} {time : ℕ → ℕ}
  {n : ℕ} {s : σ}

/-- **The loop rule.** `n` rounds that each lead from the invariant to the next one emit what
the rounds emit, in order. -/
theorem Emits.loop {w : ℕ → List ω} (start : I 0 s)
    (round : ∀ k s, k < n → I k s →
      Emits step emit (time k) s fun us t => us = w k ∧ I (k + 1) t) :
    Emits step emit (∑ k ∈ Finset.range n, time k) s fun us t =>
      us = (List.range n).flatMap w ∧ I n t := by
  induction n with
  | zero => exact emits_zero ⟨rfl, start⟩
  | succ n ih =>
      rw [Finset.sum_range_succ]
      refine (ih fun k s hk => round k s (Nat.lt_succ_of_lt hk)).trans ?_
      rintro us t ⟨rfl, ht⟩
      refine (round n t (Nat.lt_succ_self n) ht).mono ?_
      rintro vs u ⟨rfl, hu⟩
      refine ⟨?_, hu⟩
      rw [List.range_succ, List.flatMap_append, List.flatMap_singleton]

/-- The loop rule for rounds that emit nothing. -/
theorem Leads.loop (start : I 0 s)
    (round : ∀ k s, k < n → I k s → Leads step emit (time k) s (I (k + 1))) :
    Leads step emit (∑ k ∈ Finset.range n, time k) s (I n) := by
  refine (Emits.loop (w := fun _ => []) start round).mono ?_
  rintro us t ⟨rfl, ht⟩
  exact ⟨List.flatMap_eq_nil_iff.mpr fun _ _ => rfl, ht⟩

end

/-! ### Guards -/

/-- The machine in the states with `P`. -/
def guard (P : σ → Prop) [DecidablePred P] (step : ι → σ → Option σ) (i : ι) (s : σ) :
    Option σ :=
  if P s then step i s else none

section
variable {P : σ → Prop} [DecidablePred P] {step : ι → σ → Option σ} {s : σ}

theorem guard_eq_some_iff {i : ι} {s' : σ} :
    guard P step i s = some s' ↔ P s ∧ step i s = some s' :=
  Option.ite_none_right_eq_some

/-- A run of the guarded machine is one of the machine, along states with `P`. -/
theorem run_of_guard {io : ℕ → ι} {n : ℕ} {t : σ}
    (h : run (fun k => guard P step (io k)) s n = some t) :
    run (fun k => step (io k)) s n = some t ∧
      ∀ k, k < n → ∃ u, run (fun k => step (io k)) s k = some u ∧
        run (fun k => guard P step (io k)) s k = some u ∧ P u := by
  induction n generalizing t with
  | zero => exact ⟨h, fun k hk => absurd hk (Nat.not_lt_zero k)⟩
  | succ n ih =>
      obtain ⟨u, hu, hstep⟩ := run_succ_eq_some_iff.mp h
      obtain ⟨hrun, halong⟩ := ih hu
      obtain ⟨hP, hstep⟩ := guard_eq_some_iff.mp hstep
      refine ⟨run_succ_eq_some_iff.mpr ⟨u, hrun, hstep⟩, ?_⟩
      intro k hk
      obtain hlt | rfl := Nat.lt_succ_iff_lt_or_eq.mp hk
      · exact halong k hlt
      · exact ⟨u, hrun, hu, hP⟩

/-- **What is shown of the guarded machine** holds of the machine, and every state on the way
has `P`. -/
theorem Emits.of_guard {emit : σ → Option ω} {n : ℕ} {Q : List ω → σ → Prop}
    (h : Emits (guard P step) emit n s Q) (io : ℕ → ι) :
    ∃ t, run (fun k => step (io k)) s n = some t ∧
      Q (trace emit (fun k => step (io k)) s n) t ∧
      ∀ k, k < n → ∀ u ∈ run (fun k => step (io k)) s k, P u := by
  obtain ⟨t, ht, hQ⟩ := h io
  obtain ⟨hrun, halong⟩ := run_of_guard ht
  refine ⟨t, hrun, ?_, ?_⟩
  · have htrace : trace emit (fun k => guard P step (io k)) s n =
        trace emit (fun k => step (io k)) s n := by
      refine Clocked.log_congr ?_
      intro k hk
      obtain ⟨u, hu, hguard, -⟩ := halong k hk
      rw [hu, hguard]
    rwa [htrace] at hQ
  · intro k hk u hu
    obtain ⟨v, hv, -, hP⟩ := halong k hk
    obtain rfl := Option.some.inj (hv.symm.trans hu)
    exact hP

end

end Partial
