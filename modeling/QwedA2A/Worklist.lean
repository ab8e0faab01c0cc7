/-
A worklist over an implicit graph.  An item taken from the work passes on to its
successors, and a successor met for the first time is itself put to work.  Inside
a finite region closed under succession the loop ends, and what it has then seen
is the least set that covers its start.
-/
import Mathlib.Data.Finset.Card
import Mathlib.Logic.Function.Iterate
import Mathlib.Order.Bounds.Basic

namespace Worklist

variable {α : Type*} [DecidableEq α]

/-- What the loop holds between two turns; the work is a stack, its top first. -/
structure State (α : Type*) where
  seen : List α
  work : List α

def State.meet (s : State α) (a : α) : State α :=
  if a ∈ s.seen then s else ⟨a :: s.seen, a :: s.work⟩

def turn (next : α → List α) (s : State α) : State α :=
  match s.work with
  | [] => s
  | a :: rest => (next a).foldl State.meet ⟨s.seen, rest⟩

theorem State.mem_seen_meet {s : State α} {a x : α} :
    x ∈ (s.meet a).seen ↔ x ∈ s.seen ∨ x = a := by
  rw [State.meet]
  split_ifs with ha
  · exact ⟨Or.inl, fun h => h.elim id fun hx => hx ▸ ha⟩
  · rw [List.mem_cons, or_comm]

theorem State.mem_work_meet {s : State α} {a x : α} :
    x ∈ (s.meet a).work ↔ x ∈ s.work ∨ x = a ∧ a ∉ s.seen := by
  rw [State.meet]
  split_ifs with ha
  · simp [ha]
  · simp [ha, or_comm]

theorem mem_seen_foldl_meet {items : List α} {s : State α} {x : α} :
    x ∈ (items.foldl State.meet s).seen ↔ x ∈ s.seen ∨ x ∈ items := by
  induction items generalizing s with
  | nil => simp
  | cons a items ih =>
      rw [List.foldl_cons, ih, State.mem_seen_meet, List.mem_cons, or_assoc]

theorem mem_work_foldl_meet {items : List α} {s : State α} {x : α} :
    x ∈ (items.foldl State.meet s).work ↔ x ∈ s.work ∨ x ∈ items ∧ x ∉ s.seen := by
  induction items generalizing s with
  | nil => simp
  | cons a items ih =>
      rw [List.foldl_cons, ih, State.mem_work_meet, State.mem_seen_meet, List.mem_cons]
      by_cases hx : x = a
      · subst hx
        tauto
      · tauto

theorem turn_of_done {next : α → List α} {s : State α} (h : s.work = []) :
    turn next s = s := by
  rw [turn, h]

theorem turn_of_work {next : α → List α} {s : State α} {a : α} {rest : List α}
    (h : s.work = a :: rest) :
    turn next s = (next a).foldl State.meet ⟨s.seen, rest⟩ := by
  rw [turn, h]

/-- A loop that has nothing left to do stays as it is. -/
theorem iterate_turn_of_done {next : α → List α} {s : State α} (h : s.work = []) (n : ℕ) :
    (turn next)^[n] s = s :=
  Function.iterate_fixed (turn_of_done h) n

/-- `S` holds what was seen at the start, what the first work leads to, and every
successor of its own members. -/
structure Covers (next : α → List α) (start : State α) (S : Set α) : Prop where
  seen : ∀ x ∈ start.seen, x ∈ S
  work : ∀ x ∈ start.work, ∀ y ∈ next x, y ∈ S
  closed : ∀ x ∈ S, ∀ y ∈ next x, y ∈ S

/-- Everything seen still waits for its turn or has had it. -/
def Primed (next : α → List α) (s : State α) : Prop :=
  ∀ x ∈ s.seen, x ∈ s.work ∨ ∀ y ∈ next x, y ∈ s.seen

/-- Between turns: nothing seen or queued is lost, and nothing is seen that some
covering set leaves out. -/
structure Between (next : α → List α) (start s : State α) : Prop where
  seen : ∀ x ∈ start.seen, x ∈ s.seen
  work : ∀ x ∈ start.work, x ∈ s.work ∨ ∀ y ∈ next x, y ∈ s.seen
  primed : Primed next s
  within : ∀ S, Covers next start S → Covers next s S

omit [DecidableEq α] in
theorem Between.start {next : α → List α} {s : State α} (h : Primed next s) :
    Between next s s where
  seen _ hx := hx
  work _ hx := Or.inl hx
  primed := h
  within _ hS := hS

/-- An item is still queued after a turn, or the turn was its own. -/
theorem turn_waiting {next : α → List α} {s : State α} {x : α}
    (h : x ∈ s.work ∨ ∀ y ∈ next x, y ∈ s.seen) :
    x ∈ (turn next s).work ∨ ∀ y ∈ next x, y ∈ (turn next s).seen := by
  cases hwork : s.work with
  | nil => rwa [turn_of_done hwork]
  | cons a rest =>
      rw [turn_of_work hwork]
      rw [hwork, List.mem_cons] at h
      rcases h with (rfl | hrest) | hdone
      · exact Or.inr fun y hy => mem_seen_foldl_meet.2 (Or.inr hy)
      · exact Or.inl (mem_work_foldl_meet.2 (Or.inl hrest))
      · exact Or.inr fun y hy => mem_seen_foldl_meet.2 (Or.inl (hdone y hy))

theorem Between.turn {next : α → List α} {start s : State α} (h : Between next start s) :
    Between next start (turn next s) := by
  cases hwork : s.work with
  | nil => rwa [turn_of_done hwork]
  | cons a rest =>
      refine ⟨fun x hx => ?_, fun x hx => turn_waiting (h.work x hx), fun x hx => ?_,
        fun S hS => ?_⟩
      · rw [turn_of_work hwork]
        exact mem_seen_foldl_meet.2 (Or.inl (h.seen x hx))
      · by_cases hold : x ∈ s.seen
        · exact turn_waiting (h.primed x hold)
        · rw [turn_of_work hwork] at hx ⊢
          have hmet : x ∈ next a := (mem_seen_foldl_meet.1 hx).resolve_left hold
          exact Or.inl (mem_work_foldl_meet.2 (Or.inr ⟨hmet, hold⟩))
      · have hin : Covers next s S := h.within S hS
        have hnext : ∀ y ∈ next a, y ∈ S :=
          hin.work a (hwork ▸ List.mem_cons_self)
        rw [turn_of_work hwork]
        refine ⟨fun x hx => ?_, fun x hx => ?_, hin.closed⟩
        · exact (mem_seen_foldl_meet.1 hx).elim (hin.seen x) (hnext x)
        · rcases mem_work_foldl_meet.1 hx with hrest | ⟨hmet, -⟩
          · exact hin.work x (hwork ▸ List.mem_cons_of_mem a hrest)
          · exact hin.closed x (hnext x hmet)

theorem Between.iterate {next : α → List α} {s : State α} (h : Primed next s) (n : ℕ) :
    Between next s ((Worklist.turn next)^[n] s) := by
  induction n with
  | zero => exact Between.start h
  | succ n ih =>
      rw [Function.iterate_succ_apply']
      exact ih.turn

/-- Once the work is done, what was seen is the least covering set. -/
theorem seen_isLeast {next : α → List α} {s : State α} (h : Primed next s) {n : ℕ}
    (hdone : ((turn next)^[n] s).work = []) :
    IsLeast {S | Covers next s S} {x | x ∈ ((turn next)^[n] s).seen} := by
  have hbetween := Between.iterate h n
  refine ⟨⟨hbetween.seen, fun x hx => ?_, fun x hx => ?_⟩, fun S hS x hx => ?_⟩
  · exact (hbetween.work x hx).resolve_left (by simp [hdone])
  · exact (hbetween.primed x hx).resolve_left (by simp [hdone])
  · exact (hbetween.within S hS).seen x hx

/-- The work and all it can lead to lie among `nodes`. -/
structure Inside (next : α → List α) (nodes : Finset α) (s : State α) : Prop where
  work : ∀ x ∈ s.work, x ∈ nodes
  closed : ∀ x ∈ nodes, ∀ y ∈ next x, y ∈ nodes

/-- Turns left at most: each either uses up work or meets something new. -/
def remaining (nodes : Finset α) (s : State α) : ℕ :=
  (nodes.filter (· ∉ s.seen)).card + s.work.length

theorem remaining_meet {nodes : Finset α} {s : State α} {a : α} (ha : a ∈ nodes) :
    remaining nodes (s.meet a) ≤ remaining nodes s := by
  rw [State.meet]
  split_ifs with hseen
  · exact le_rfl
  · have hfewer : nodes.filter (· ∉ a :: s.seen) ⊂ nodes.filter (· ∉ s.seen) := by
      refine Finset.ssubset_iff_of_subset (fun x hx => ?_) |>.2 ⟨a, ?_, ?_⟩
      · simp only [Finset.mem_filter, List.mem_cons, not_or] at hx ⊢
        exact ⟨hx.1, hx.2.2⟩
      · exact Finset.mem_filter.2 ⟨ha, hseen⟩
      · simp
    have hcard := Finset.card_lt_card hfewer
    simp only [remaining, List.length_cons]
    omega

theorem remaining_foldl_meet {nodes : Finset α} {items : List α} {s : State α}
    (h : ∀ x ∈ items, x ∈ nodes) :
    remaining nodes (items.foldl State.meet s) ≤ remaining nodes s := by
  induction items generalizing s with
  | nil => exact le_rfl
  | cons a items ih =>
      rw [List.forall_mem_cons] at h
      exact (ih h.2).trans (remaining_meet h.1)

/-- A turn that finds work uses up one of the turns left. -/
theorem remaining_turn {next : α → List α} {nodes : Finset α} {s : State α}
    (h : Inside next nodes s) (hwork : s.work ≠ []) :
    remaining nodes (turn next s) < remaining nodes s := by
  obtain ⟨a, rest, hcons⟩ := List.exists_cons_of_ne_nil hwork
  rw [turn_of_work hcons]
  have ha : a ∈ nodes := h.work a (hcons ▸ List.mem_cons_self)
  calc remaining nodes ((next a).foldl State.meet ⟨s.seen, rest⟩)
      ≤ remaining nodes ⟨s.seen, rest⟩ := remaining_foldl_meet (h.closed a ha)
    _ < remaining nodes s := by simp [remaining, hcons]

theorem Inside.turn {next : α → List α} {nodes : Finset α} {s : State α}
    (h : Inside next nodes s) : Inside next nodes (turn next s) := by
  cases hwork : s.work with
  | nil => rwa [turn_of_done hwork]
  | cons a rest =>
      rw [turn_of_work hwork]
      refine ⟨fun x hx => ?_, h.closed⟩
      rcases mem_work_foldl_meet.1 hx with hrest | ⟨hmet, -⟩
      · exact h.work x (hwork ▸ List.mem_cons_of_mem a hrest)
      · exact h.closed a (h.work a (hwork ▸ List.mem_cons_self)) x hmet

/-- The loop has ended after as many turns as were left at most. -/
theorem done_of_remaining_le {next : α → List α} {nodes : Finset α} {n : ℕ} {s : State α}
    (h : Inside next nodes s) (hn : remaining nodes s ≤ n) :
    ((turn next)^[n] s).work = [] := by
  induction n generalizing s with
  | zero =>
      have hnone : s.work.length = 0 := by
        rw [remaining] at hn
        omega
      exact List.length_eq_zero_iff.1 hnone
  | succ n ih =>
      by_cases hwork : s.work = []
      · rw [iterate_turn_of_done hwork, hwork]
      · rw [Function.iterate_succ_apply]
        exact ih h.turn (by have := remaining_turn h hwork; omega)

end Worklist
