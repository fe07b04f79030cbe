import SmuRv32im.Lib.Clocked

/-!
# Transducers

A machine that reads a sequence of inputs and may put out a value with each. Fed from a
clocked machine it stands still in the cycles without an input, and then its outputs are
those on the log of the inputs, whatever the cycles they came in (`run_log`). An
implementation of a transducer commutes with it along an abstraction of the states, as long
as the states are ones it can represent (`run_abs`).
-/

namespace Transducer

variable {σ τ α β γ : Type*}

/-- The state and the outputs of a transducer after a sequence of inputs. -/
def run (step : σ → α → σ × Option β) (s : σ) : List α → σ × List β
  | [] => (s, [])
  | a :: as =>
    let r := step s a
    let t := run step r.1 as
    (t.1, r.2.toList ++ t.2)

section
variable (step : σ → α → σ × Option β)

@[simp] theorem run_nil (s : σ) : run step s [] = (s, []) := rfl

theorem run_cons (s : σ) (a : α) (as : List α) :
    run step s (a :: as) =
      ((run step (step s a).1 as).1, (step s a).2.toList ++ (run step (step s a).1 as).2) := rfl

/-- The second part of a sequence is read from the state after the first. -/
theorem run_append (s : σ) (as bs : List α) :
    run step s (as ++ bs) =
      ((run step (run step s as).1 bs).1,
        (run step s as).2 ++ (run step (run step s as).1 bs).2) := by
  induction as generalizing s with
  | nil => rfl
  | cons a as ih => rw [List.cons_append, run_cons, ih, run_cons, List.append_assoc]

theorem run_concat (s : σ) (as : List α) (a : α) :
    run step s (as ++ [a]) =
      ((step (run step s as).1 a).1, (run step s as).2 ++ (step (run step s as).1 a).2.toList) := by
  rw [run_append, run_cons, run_nil, List.append_nil]

variable {step}

/-- **Inputs that come in some of the cycles only.** A machine `S` that makes a step with each
input and stands still without one puts out what the transducer does on the log. -/
theorem run_log {S : ℕ → σ} {f : ℕ → Option α} {out : ℕ → Option β}
    (next : ∀ t, S (t + 1) = (f t).elim (S t) fun a => (step (S t) a).1)
    (output : ∀ t, out t = (f t).bind fun a => (step (S t) a).2) (t : ℕ) :
    run step (S 0) (Clocked.log f t) = (S t, Clocked.log out t) := by
  induction t with
  | zero => rfl
  | succ t ih =>
      rw [Clocked.log_succ, Clocked.log_succ, next, output]
      cases f t with
      | none => simp only [Option.toList_none, List.append_nil, ih, Option.elim_none,
          Option.bind_none]
      | some a => rw [Option.toList_some, run_concat, ih, Option.elim_some, Option.bind_some]

/-- **Abstraction.** If each step from a representable state is the step of the abstract
transducer, on states and outputs, so is every run that stays among these states. -/
theorem run_abs {step' : τ → α → τ × Option γ} {abs : τ → σ} {show' : γ → β} (Ok : τ → Prop)
    (commutes : ∀ s a, Ok s → Ok (step' s a).1 →
      step (abs s) a = (abs (step' s a).1, (step' s a).2.map show'))
    {s : τ} {as : List α} (ok : ∀ k, Ok (run step' s (as.take k)).1) :
    run step (abs s) as =
      (abs (run step' s as).1, (run step' s as).2.map show') := by
  induction as using List.reverseRecOn with
  | nil => rfl
  | append_singleton as a ih =>
      have hok : ∀ k, Ok (run step' s (as.take k)).1 := by
        intro k
        by_cases hk : k ≤ as.length
        · have hprefix := ok k
          rwa [List.take_append_of_le_length hk] at hprefix
        · have hfull := ok as.length
          rw [List.take_left] at hfull
          rwa [List.take_of_length_le (by omega)]
      have hlast : Ok (step' (run step' s as).1 a).1 := by
        have hfull := ok (as.length + 1)
        rwa [List.take_of_length_le (by simp), run_concat] at hfull
      have hbefore : Ok (run step' s as).1 := by
        have hall := hok as.length
        rwa [List.take_length] at hall
      rw [run_concat, run_concat, ih hok, commutes _ a hbefore hlast, List.map_append]
      cases (step' (run step' s as).1 a).2 <;> rfl

end

end Transducer
