import Mathlib.Data.Nat.Count

/-!
# A Latch between Two Parties

One party sets a latch, the other reads it and thereby clears it. A set wins over a read of
the same cycle, and the latch is never set while it is full. Under these conditions no set is
lost and none is read twice: the reads that find the latch full are, one by one and in order,
the first reads after the sets.

## Main results

* `Latch.full_of_set`: a set stays visible until it is read, and is followed by no other.
* `Latch.count_set`: every set but a pending one has been found.
* `Latch.exists_unique_set`: a read that finds the latch full reports one set.
* `full_iff_exists_set`: what makes a latch full that may be set again before it is read.
-/

/-- The latch is `full` in the cycles after a `set` until it is `read`, and is empty at the
start and whenever it is set. -/
structure Latch (full set read : ℕ → Prop) : Prop where
  empty : ¬full 0
  next : ∀ t, full (t + 1) ↔ set t ∨ (full t ∧ ¬read t)
  apart : ∀ t, set t → ¬full t

/-- Cycle `r` is the first cycle after `m` with a read. -/
def FirstRead (read : ℕ → Prop) (m r : ℕ) : Prop :=
  m < r ∧ read r ∧ ∀ u, m < u → u < r → ¬read u

namespace Latch
variable {full set read : ℕ → Prop} (h : Latch full set read)
include h

/-- **A set is kept**: until it is read the latch is full. -/
theorem full_of_set {m t : ℕ} (hset : set m) (hmt : m < t)
    (hunread : ∀ u, m < u → u < t → ¬read u) : full t := by
  induction t, Nat.succ_le_of_lt hmt using Nat.le_induction with
  | base => exact (h.next m).mpr (Or.inl hset)
  | succ t hm ih =>
      have hfull := ih hm fun u hmu hut => hunread u hmu (Nat.lt_succ_of_lt hut)
      exact (h.next t).mpr (Or.inr ⟨hfull, hunread t hm (Nat.lt_succ_self t)⟩)

/-- No set is followed by another before it is read. -/
theorem not_set_of_unread {m m' : ℕ} (hset : set m) (hmm : m < m')
    (hunread : ∀ u, m < u → u < m' → ¬read u) : ¬set m' := by
  intro hset'
  exact h.apart m' hset' (h.full_of_set hset hmm hunread)

/-- A full latch was set before, and not read since. -/
theorem exists_set {t : ℕ} (hfull : full t) :
    ∃ m, m < t ∧ set m ∧ ∀ u, m < u → u < t → ¬read u := by
  induction t with
  | zero => exact absurd hfull h.empty
  | succ t ih =>
      obtain hset | ⟨hfull', hread⟩ := (h.next t).mp hfull
      · refine ⟨t, Nat.lt_succ_self t, hset, ?_⟩
        intro u htu hut
        omega
      · obtain ⟨m, hmt, hset, hunread⟩ := ih hfull'
        refine ⟨m, Nat.lt_succ_of_lt hmt, hset, ?_⟩
        intro u hmu hut
        obtain hlt | rfl := Nat.lt_succ_iff_lt_or_eq.mp hut
        · exact hunread u hmu hlt
        · exact hread

/-- The first read after a set finds the latch full. -/
theorem full_of_firstRead {m r : ℕ} (hset : set m) (hfirst : FirstRead read m r) : full r := by
  obtain ⟨hmr, -, hunread⟩ := hfirst
  exact h.full_of_set hset hmr hunread

/-- **A read that finds the latch full reports one set**, the one it is the first read
after. -/
theorem exists_unique_set {r : ℕ} (hread : read r) (hfull : full r) :
    ∃! m, set m ∧ FirstRead read m r := by
  obtain ⟨m, hmr, hset, hunread⟩ := h.exists_set hfull
  refine ⟨m, ⟨hset, hmr, hread, hunread⟩, ?_⟩
  rintro m' ⟨hset', hmr', -, hunread'⟩
  obtain hlt | heq | hgt := Nat.lt_trichotomy m m'
  · exact absurd hset' (h.not_set_of_unread hset hlt fun u hmu hum =>
      hunread u hmu (hum.trans hmr'))
  · exact heq.symm
  · exact absurd hset (h.not_set_of_unread hset' hgt fun u hmu hum =>
      hunread' u hmu (hum.trans hmr))

/-- **No set is lost and none is found twice**: the sets so far are the reads that found the
latch full, and one more if it is full now. -/
theorem count_set [DecidablePred full] [DecidablePred set] [DecidablePred read] (t : ℕ) :
    Nat.count set t =
      Nat.count (fun u => read u ∧ full u) t + if full t then 1 else 0 := by
  induction t with
  | zero => simp [h.empty]
  | succ t ih =>
      rw [Nat.count_succ, Nat.count_succ, ih]
      by_cases hset : set t
      · -- a set finds the latch empty and fills it
        have hempty := h.apart t hset
        have hfull : full (t + 1) := (h.next t).mpr (Or.inl hset)
        simp [hset, hempty, hfull]
      · by_cases hread : read t
        · -- a read empties the latch, and counts if it was full
          have hempty : ¬full (t + 1) := by
            rw [h.next t]
            simp [hset, hread]
          by_cases hfull : full t
          · simp [hset, hread, hfull, hempty]
          · simp [hset, hfull, hempty]
        · have hkeep : full (t + 1) ↔ full t := by
            rw [h.next t]
            simp [hset, hread]
          simp [hset, hread, hkeep]

end Latch

/-- **A latch that may be set while it is full** is full exactly if it was set and not read
since. -/
theorem full_iff_exists_set (full : ℕ → Prop) {set read : ℕ → Prop} (empty : ¬full 0)
    (next : ∀ t, full (t + 1) ↔ set t ∨ (full t ∧ ¬read t)) (t : ℕ) :
    full t ↔ ∃ m, m < t ∧ set m ∧ ∀ u, m < u → u < t → ¬read u := by
  induction t with
  | zero =>
      refine iff_of_false empty ?_
      rintro ⟨m, hm, -⟩
      exact Nat.not_lt_zero m hm
  | succ t ih =>
      rw [next t, ih]
      constructor
      · rintro (hset | ⟨⟨m, hm, hset, hunread⟩, hread⟩)
        · refine ⟨t, Nat.lt_succ_self t, hset, ?_⟩
          intro u htu hut
          omega
        · refine ⟨m, Nat.lt_succ_of_lt hm, hset, ?_⟩
          intro u hmu hut
          obtain hlt | rfl := Nat.lt_succ_iff_lt_or_eq.mp hut
          · exact hunread u hmu hlt
          · exact hread
      · rintro ⟨m, hm, hset, hunread⟩
        obtain hlt | rfl := Nat.lt_succ_iff_lt_or_eq.mp hm
        · exact Or.inr ⟨⟨m, hlt, hset, fun u hmu hut => hunread u hmu (Nat.lt_succ_of_lt hut)⟩,
            hunread t hlt (Nat.lt_succ_self t)⟩
        · exact Or.inl hset
