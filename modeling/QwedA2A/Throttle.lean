/-
Letting something through at most once in an interval.  Only the last instant let
through is remembered, and the instants may come in any order.
-/
import Mathlib.Algebra.Order.Field.Basic
import Mathlib.Tactic
import QwedA2A.EventRun

namespace Throttle

open EventRun

universe u

variable {K : Type u} [Field K] [LinearOrder K]

/-- Whether an instant is let through, given the last one that was. -/
def due (interval : K) (last : Option K) (now : K) : Bool :=
  match last with
  | none => true
  | some time => decide (interval ≤ now - time)

def step (interval : K) (last : Option K) (now : K) : Option K :=
  if due interval last now then some now else last

def lets (interval : K) (last : Option K) (now : K) : List K :=
  if due interval last now then [now] else []

def passed (interval : K) (instants : List K) : List K :=
  emitted (step interval) (lets interval) none instants

variable {interval : K} {instants : List K}

theorem passed_snoc (interval : K) (past : List K) (now : K) :
    passed interval (past ++ [now]) =
      passed interval past ++ lets interval (final (step interval) none past) now :=
  emitted_snoc (step interval) (lets interval) none past now

/-- What is remembered is the last instant let through. -/
theorem final_step (interval : K) (instants : List K) :
    final (step interval) none instants = (passed interval instants).getLast? := by
  induction instants using List.reverseRecOn with
  | nil => rfl
  | append_singleton past now ih =>
      rw [final_snoc, passed_snoc, step, lets]
      split_ifs with hdue
      · simp
      · simpa using ih

/-- An instant that is held back is less than the interval after one let through. -/
theorem exists_passed_of_not_due {now : K}
    (h : due interval (final (step interval) none instants) now = false) :
    ∃ time ∈ passed interval instants, now - time < interval := by
  rw [final_step] at h
  cases hlast : (passed interval instants).getLast? with
  | none =>
      rw [hlast] at h
      cases h
  | some time =>
      rw [hlast, due, decide_eq_false_iff_not, not_le] at h
      exact ⟨time, List.mem_of_getLast? hlast, h⟩

/-- Each instant is at least the interval after those before it. -/
def Spaced (interval : K) (instants : List K) : Prop :=
  instants.Pairwise fun first second => first + interval ≤ second

variable [IsStrictOrderedRing K]

theorem passed_spaced (hinterval : 0 ≤ interval) (instants : List K) :
    Spaced interval (passed interval instants) := by
  induction instants using List.reverseRecOn with
  | nil => exact List.Pairwise.nil
  | append_singleton past now ih =>
      rw [passed_snoc, lets]
      split_ifs with hdue
      · rw [Spaced, List.pairwise_append]
        refine ⟨ih, List.pairwise_singleton _ _, fun time htime found hfound => ?_⟩
        obtain rfl := List.mem_singleton.mp hfound
        rw [final_step] at hdue
        cases hlast : (passed interval past).getLast? with
        | none =>
            rw [List.getLast?_eq_none_iff.mp hlast] at htime
            cases htime
        | some last =>
            rw [hlast, due, decide_eq_true_iff] at hdue
            obtain ⟨init, hinit⟩ := List.getLast?_eq_some_iff.mp hlast
            rw [hinit] at ih htime
            have hle : time ≤ last := by
              rcases List.mem_append.mp htime with hold | hsame
              · have hgap := (List.pairwise_append.mp ih).2.2 time hold last
                  (List.mem_singleton_self last)
                linarith
              · exact (List.mem_singleton.mp hsame).le
            linarith
      · rwa [List.append_nil]

theorem Spaced.window (hinterval : 0 ≤ interval) (h : Spaced interval instants)
    {start stop : K} (hwindow : start ≤ stop)
    (hin : ∀ time ∈ instants, start ≤ time ∧ time ≤ stop) :
    ((instants.length : K) - 1) * interval ≤ stop - start := by
  induction instants generalizing start with
  | nil =>
      have hgap := sub_nonneg.mpr hwindow
      simp only [List.length_nil, Nat.cast_zero, zero_sub, neg_mul, one_mul]
      linarith
  | cons first rest ih =>
      obtain ⟨hspaced, hrest⟩ := List.pairwise_cons.mp h
      have hfirst := hin first List.mem_cons_self
      cases rest with
      | nil => simpa using hwindow
      | cons second more =>
          have hsecond := hspaced second List.mem_cons_self
          have hstop := (hin second (by simp)).2
          have hlater : (((second :: more).length : K) - 1) * interval ≤
              stop - (first + interval) := by
            apply ih hrest (by linarith)
            exact fun time htime => ⟨hspaced time htime, (hin time (by simp [htime])).2⟩
          simp only [List.length_cons, Nat.cast_add, Nat.cast_one] at hlater ⊢
          linarith

/-- What is let through in a window is at most one for each interval, and one more. -/
theorem passed_window (hinterval : 0 ≤ interval) (instants : List K) {start stop : K}
    (hwindow : start ≤ stop) :
    (((passed interval instants).countP fun time =>
        decide (start ≤ time ∧ time ≤ stop) : ℕ) - 1 : K) * interval ≤ stop - start := by
  rw [List.countP_eq_length_filter]
  apply Spaced.window hinterval _ hwindow
  · intro time htime
    simpa using (List.mem_filter.mp htime).2
  · exact (passed_spaced hinterval instants).sublist List.filter_sublist

end Throttle
