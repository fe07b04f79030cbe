import Mathlib.Data.Nat.Count
import Mathlib.Data.Nat.Nth
import Mathlib.Data.List.Infix

/-!
# Clocked Runs and Event Logs

A synchronous machine is a state and a function from the state of one cycle to the
state of the next; the function may depend on the cycle, which is how inputs enter.
`run next s₀ t` is the state in cycle `t`.

An observable of a run is a partial function of the cycle: `log f t` is the sequence of
the values it took before cycle `t`. Where a machine handles its work items one per
*active* cycle, `Nat.count` numbers the items, and a log over cycles is the log of the
items handled so far (`log_eq_log_count`). Two machines that do the same work at
different speeds are compared by `SameSequence`.
-/

namespace Clocked

variable {σ τ α : Type*}

/-- The run of a synchronous machine from `s₀`: cycle `t + 1` holds what `next t` makes
of cycle `t`. -/
def run (next : ℕ → σ → σ) (s₀ : σ) : ℕ → σ
  | 0 => s₀
  | t + 1 => next t (run next s₀ t)

@[simp] theorem run_zero (next : ℕ → σ → σ) (s₀ : σ) : run next s₀ 0 = s₀ := rfl

theorem run_succ (next : ℕ → σ → σ) (s₀ : σ) (t : ℕ) :
    run next s₀ (t + 1) = next t (run next s₀ t) := rfl

/-- Runs that make the same cycles before `t` are in the same state in cycle `t`. -/
theorem run_congr {next next' : ℕ → σ → σ} {s₀ : σ} {t : ℕ}
    (h : ∀ u, u < t → ∀ s, next u s = next' u s) : run next s₀ t = run next' s₀ t := by
  induction t with
  | zero => rfl
  | succ t ih =>
      rw [run_succ, run_succ, ih fun u hu => h u (Nat.lt_succ_of_lt hu),
        h t (Nat.lt_succ_self t)]

/-- A run goes on from the state it has reached. -/
theorem run_add (next : ℕ → σ → σ) (s₀ : σ) (t u : ℕ) :
    run next s₀ (t + u) = run (fun k => next (t + k)) (run next s₀ t) u := by
  induction u with
  | zero => rfl
  | succ u ih =>
      have hsucc : run next s₀ (t + (u + 1)) = next (t + u) (run next s₀ (t + u)) := rfl
      rw [hsucc, ih, run_succ]

/-- **The invariant rule.** What holds at the start and is kept by every cycle holds in
every cycle. -/
theorem run_invariant {next : ℕ → σ → σ} {s₀ : σ} (P : ℕ → σ → Prop) (start : P 0 s₀)
    (step : ∀ t s, P t s → P (t + 1) (next t s)) (t : ℕ) : P t (run next s₀ t) := by
  induction t with
  | zero => exact start
  | succ t ih => exact step t _ ih

/-- **The simulation rule.** A relation between two machines that holds at the start and
is kept when both make a cycle holds in every cycle. -/
theorem run_simulation {next : ℕ → σ → σ} {next' : ℕ → τ → τ} {s₀ : σ} {s₀' : τ}
    (R : ℕ → σ → τ → Prop) (start : R 0 s₀ s₀')
    (step : ∀ t, R t (run next s₀ t) (run next' s₀' t) →
      R (t + 1) (run next s₀ (t + 1)) (run next' s₀' (t + 1))) (t : ℕ) :
    R t (run next s₀ t) (run next' s₀' t) := by
  induction t with
  | zero => exact start
  | succ t ih => exact step t ih

/-! ### Event logs -/

/-- The values an observable took before cycle `t`, in order. -/
def log (f : ℕ → Option α) (t : ℕ) : List α :=
  (List.range t).filterMap f

@[simp] theorem log_zero (f : ℕ → Option α) : log f 0 = [] := rfl

theorem log_succ (f : ℕ → Option α) (t : ℕ) :
    log f (t + 1) = log f t ++ (f t).toList := by
  rw [log, log, List.range_succ, List.filterMap_append]
  cases h : f t <;> simp [h]

theorem log_add (f : ℕ → Option α) (t u : ℕ) :
    log f (t + u) = log f t ++ log (fun v => f (t + v)) u := by
  induction u with
  | zero => rw [log_zero, List.append_nil, Nat.add_zero]
  | succ u ih => rw [← Nat.add_assoc, log_succ, log_succ, ih, List.append_assoc]

theorem length_log_le (f : ℕ → Option α) (t : ℕ) : (log f t).length ≤ t := by
  rw [log]
  exact (List.length_filterMap_le f _).trans_eq List.length_range

theorem log_eq_nil_iff {f : ℕ → Option α} {t : ℕ} :
    log f t = [] ↔ ∀ u, u < t → f u = none := by
  rw [log, List.filterMap_eq_nil_iff]
  simp only [List.mem_range]

/-- A log only grows. -/
theorem log_mono (f : ℕ → Option α) {t u : ℕ} (h : t ≤ u) : log f t <+: log f u := by
  induction u, h using Nat.le_induction with
  | base => exact List.prefix_rfl
  | succ u _ ih =>
      rw [log_succ]
      exact ih.trans (List.prefix_append _ _)

/-- Observables that agree before `t` have the same log at `t`. -/
theorem log_congr {f g : ℕ → Option α} {t : ℕ} (h : ∀ u, u < t → f u = g u) :
    log f t = log g t := by
  induction t with
  | zero => rfl
  | succ t ih =>
      rw [log_succ, log_succ, ih fun u hu => h u (Nat.lt_succ_of_lt hu),
        h t (Nat.lt_succ_self t)]

/-- What is made of the values of an observable is made of its log. -/
theorem log_bind {β : Type*} (f : ℕ → Option α) (g : α → Option β) (t : ℕ) :
    log (fun u => (f u).bind g) t = (log f t).filterMap g := by
  rw [log, log, List.filterMap_filterMap]

/-- **A register holds the last value written to it.** -/
theorem register_eq_getLastD_log {r : ℕ → α} {f : ℕ → Option α}
    (next : ∀ t, r (t + 1) = (f t).getD (r t)) (t : ℕ) :
    r t = (log f t).getLastD (r 0) := by
  induction t with
  | zero => rfl
  | succ t ih =>
      rw [next, log_succ, ih]
      cases f t with
      | none => rw [Option.toList_none, List.append_nil, Option.getD_none]
      | some v => rw [Option.toList_some, List.getLastD_concat, Option.getD_some]

/-- **Logs over cycles are logs over items.** If a machine is active in the cycles `p`,
shows in its `k`-th active cycle what item `k` of `g` says, and shows nothing in the
others, then its log is the log of `g` over the items handled so far. -/
theorem log_eq_log_count {p : ℕ → Prop} [DecidablePred p] {f g : ℕ → Option α} {t : ℕ}
    (active : ∀ u, u < t → p u → f u = g (Nat.count p u))
    (idle : ∀ u, u < t → ¬p u → f u = none) : log f t = log g (Nat.count p t) := by
  induction t with
  | zero => simp
  | succ t ih =>
      have ih' := ih (fun u hu => active u (Nat.lt_succ_of_lt hu))
        (fun u hu => idle u (Nat.lt_succ_of_lt hu))
      by_cases hp : p t
      · rw [log_succ, Nat.count_succ, if_pos hp, log_succ, ih',
          active t (Nat.lt_succ_self t) hp]
      · rw [log_succ, Nat.count_succ, if_neg hp, ih', idle t (Nat.lt_succ_self t) hp,
          Option.toList_none, List.append_nil, Nat.add_zero]

/-- Two observables show the same sequence of values, whatever the cycles they show
them in: each finite log of one is a prefix of some log of the other. -/
def SameSequence (f g : ℕ → Option α) : Prop :=
  (∀ t, ∃ u, log f t <+: log g u) ∧ (∀ t, ∃ u, log g t <+: log f u)

theorem SameSequence.of_log_eq {f g : ℕ → Option α} (h : ∀ t, log f t = log g t) :
    SameSequence f g :=
  ⟨fun t => ⟨t, h t ▸ List.prefix_rfl⟩, fun t => ⟨t, h t ▸ List.prefix_rfl⟩⟩

/-- Observables with the same sequence have prefix-comparable logs at all cycles. -/
theorem SameSequence.prefix_or_prefix {f g : ℕ → Option α} (h : SameSequence f g)
    (t u : ℕ) : log f t <+: log g u ∨ log g u <+: log f t := by
  obtain ⟨v, hv⟩ := h.1 t
  have hu : log g u <+: log g (max u v) := log_mono g (le_max_left u v)
  have hf : log f t <+: log g (max u v) := hv.trans (log_mono g (le_max_right u v))
  exact List.prefix_or_prefix_of_prefix hf hu

/-! ### Counting the items of a pipeline stage -/

/-- A stage that holds in each cycle what the stage before it held one cycle earlier
has, one cycle later, handled as many items. -/
theorem count_succ_of_shift {p q : ℕ → Prop} [DecidablePred p] [DecidablePred q]
    (start : ¬q 0) (shift : ∀ t, q (t + 1) ↔ p t) (t : ℕ) :
    Nat.count q (t + 1) = Nat.count p t := by
  induction t with
  | zero => simp [Nat.count_succ, start]
  | succ t ih => rw [Nat.count_succ, ih, Nat.count_succ, if_congr (shift t) rfl rfl]

/-- No item is handled in the cycles in which the stage is inactive. -/
theorem count_eq_of_inactive {p : ℕ → Prop} [DecidablePred p] {t u : ℕ} (h : t ≤ u)
    (inactive : ∀ v, t ≤ v → v < u → ¬p v) : Nat.count p u = Nat.count p t := by
  induction u, h using Nat.le_induction with
  | base => rfl
  | succ u hu ih =>
      rw [Nat.count_succ, if_neg (inactive u hu (Nat.lt_succ_self u)), Nat.add_zero]
      exact ih fun v hv hvu => inactive v hv (Nat.lt_succ_of_lt hvu)

/-- The active cycle after `t` is that of the next item. -/
theorem nth_count_succ {p : ℕ → Prop} [DecidablePred p] {t u : ℕ} (ht : p t) (hu : p u)
    (h : t < u) (inactive : ∀ v, t < v → v < u → ¬p v) :
    Nat.nth p (Nat.count p t + 1) = u := by
  have hcount : Nat.count p u = Nat.count p t + 1 := by
    rw [count_eq_of_inactive (Nat.succ_le_of_lt h) inactive, Nat.count_succ, if_pos ht]
  rw [← hcount]
  exact Nat.nth_count hu

/-- Stages that handle their first items in the same cycles have handled as many in each
cycle up to the last of these. -/
theorem count_eq_of_nth_eq {p q : ℕ → Prop} [DecidablePred p] [DecidablePred q]
    (hp : {t | p t}.Infinite) (hq : {t | q t}.Infinite) {k : ℕ}
    (h : ∀ j, j ≤ k → Nat.nth p j = Nat.nth q j) {t : ℕ} (ht : t ≤ Nat.nth p k) :
    Nat.count p t = Nat.count q t := by
  have hpk : Nat.count p t ≤ k := (Nat.count_le_iff_le_nth hp).mpr ht
  have hqk : Nat.count q t ≤ k := (Nat.count_le_iff_le_nth hq).mpr (h k le_rfl ▸ ht)
  refine eq_of_forall_lt_iff ?_
  intro j
  by_cases hj : j ≤ k
  · rw [Nat.lt_nth_iff_count_lt hp, Nat.lt_nth_iff_count_lt hq, h j hj]
  · omega

end Clocked
