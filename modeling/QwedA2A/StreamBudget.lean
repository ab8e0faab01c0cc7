/-
A stream passed on under a budget.  Each item has a cost; items pass while their
running total stays within the budget, and the first one over it ends the stream.
-/
import Mathlib.Tactic

namespace StreamBudget

universe u

variable {α : Type u} (cost : α → ℕ)

def total (items : List α) : ℕ := (items.map cost).sum

@[simp] theorem total_nil : total cost [] = 0 := rfl

@[simp] theorem total_cons (item : α) (rest : List α) :
    total cost (item :: rest) = cost item + total cost rest := by
  simp [total]

/-- The items that pass when `spent` is used up already, and whether one was over
the budget. -/
def pass (budget spent : ℕ) : List α → List α × Bool
  | [] => ([], false)
  | item :: rest =>
      if budget < spent + cost item then ([], true)
      else
        let later := pass budget (spent + cost item) rest
        (item :: later.1, later.2)

variable {cost} {budget spent : ℕ}

theorem pass_prefix (items : List α) : (pass cost budget spent items).1 <+: items := by
  induction items generalizing spent with
  | nil => exact List.prefix_rfl
  | cons item rest ih =>
      rw [pass]
      split_ifs with hover
      · exact List.nil_prefix
      · exact (List.prefix_cons_inj item).mpr ih

theorem pass_total_le (cost : α → ℕ) (items : List α) (hspent : spent ≤ budget) :
    spent + total cost (pass cost budget spent items).1 ≤ budget := by
  induction items generalizing spent with
  | nil => simpa [pass] using hspent
  | cons item rest ih =>
      rw [pass]
      split_ifs with hover
      · simpa using hspent
      · have hrest := ih (not_lt.mp hover)
        rw [total_cons, ← Nat.add_assoc]
        exact hrest

/-- The stream is cut exactly when it costs more than the budget. -/
theorem pass_cut_iff (cost : α → ℕ) (items : List α) (hspent : spent ≤ budget) :
    (pass cost budget spent items).2 = true ↔ budget < spent + total cost items := by
  induction items generalizing spent with
  | nil => simpa [pass] using hspent
  | cons item rest ih =>
      rw [pass, total_cons, ← Nat.add_assoc]
      split_ifs with hover
      · exact iff_of_true rfl (by omega)
      · exact ih (not_lt.mp hover)

theorem pass_of_not_cut {items : List α}
    (h : (pass cost budget spent items).2 = false) :
    (pass cost budget spent items).1 = items := by
  induction items generalizing spent with
  | nil => rfl
  | cons item rest ih =>
      rw [pass] at h ⊢
      split_ifs at h ⊢ with hover
      exact congrArg (item :: ·) (ih h)

/-- A stream is cut at the first item that is over the budget. -/
theorem pass_cut_at {items : List α} (h : (pass cost budget spent items).2 = true) :
    ∃ item rest, items = (pass cost budget spent items).1 ++ item :: rest ∧
      budget < spent + total cost (pass cost budget spent items).1 + cost item := by
  induction items generalizing spent with
  | nil => cases h
  | cons item rest ih =>
      rw [pass] at h ⊢
      split_ifs at h ⊢ with hover
      · exact ⟨item, rest, rfl, by simpa using hover⟩
      · obtain ⟨first, later, heq, hcost⟩ := ih h
        refine ⟨first, later, by rw [List.cons_append, ← heq], ?_⟩
        rw [total_cons, ← Nat.add_assoc]
        exact hcost

end StreamBudget
