/-
Counted permits.  The holders are a finite set, and the free permits make up
the rest of a fixed capacity; a system keeps such a count when every one of its
steps takes one permit, returns one, or leaves the holders alone.
-/
import Mathlib.Data.Finset.Card
import Mathlib.Tactic

namespace PermitPool

universe u

/-- Free permits and the holders of the others. -/
structure Permits (κ : Type u) (capacity : ℕ) where
  free : ℕ
  holders : Finset κ
  balanced : free + holders.card = capacity

namespace Permits

variable {κ : Type u} {capacity : ℕ}

def full (κ : Type u) (capacity : ℕ) : Permits κ capacity where
  free := capacity
  holders := ∅
  balanced := by simp

/-- While somebody holds a permit there is room to return one. -/
theorem free_lt (permits : Permits κ capacity) {k : κ}
    (hheld : k ∈ permits.holders) : permits.free < capacity := by
  have hbalanced := permits.balanced
  have hpos : 0 < permits.holders.card := Finset.card_pos.mpr ⟨k, hheld⟩
  omega

variable [DecidableEq κ]

def acquire (permits : Permits κ capacity) (k : κ) (hfree : 0 < permits.free)
    (hnew : k ∉ permits.holders) : Permits κ capacity where
  free := permits.free - 1
  holders := insert k permits.holders
  balanced := by
    have hbalanced := permits.balanced
    rw [Finset.card_insert_of_notMem hnew]
    omega

def release (permits : Permits κ capacity) (k : κ)
    (hheld : k ∈ permits.holders) : Permits κ capacity where
  free := permits.free + 1
  holders := permits.holders.erase k
  balanced := by
    have hbalanced := permits.balanced
    have hpos : 0 < permits.holders.card := Finset.card_pos.mpr ⟨k, hheld⟩
    rw [Finset.card_erase_of_mem hheld]
    omega

end Permits

/-- The number of free permits and the predicate of holding one agree with a
count of permits. -/
def Accounted {κ : Type u} (capacity free : ℕ) (holds : κ → Bool) : Prop :=
  ∃ permits : Permits κ capacity,
    permits.free = free ∧ ∀ k, k ∈ permits.holders ↔ holds k = true

namespace Accounted

variable {κ : Type u} {capacity free free' : ℕ} {holds holds' : κ → Bool} {k : κ}

theorem full (capacity : ℕ) :
    Accounted capacity capacity (fun _ : κ => false) :=
  ⟨Permits.full κ capacity, rfl, by simp [Permits.full]⟩

theorem free_lt (h : Accounted capacity free holds) (hheld : holds k = true) :
    free < capacity := by
  obtain ⟨permits, rfl, hholders⟩ := h
  exact permits.free_lt ((hholders k).mpr hheld)

/-- How one party's step may change the count: not at all, by taking a permit,
or by returning its own. -/
inductive Moves (free free' : ℕ) : Bool → Bool → Prop where
  | stays (held : Bool) (hsame : free' = free) : Moves free free' held held
  | takes (hone : free = free' + 1) : Moves free free' false true
  | returns (hone : free' = free + 1) : Moves free free' true false

/-- Step rule: the count survives every such move of one party. -/
theorem step [DecidableEq κ] (h : Accounted capacity free holds)
    (hmove : Moves free free' (holds k) (holds' k))
    (hothers : ∀ other, other ≠ k → holds' other = holds other) :
    Accounted capacity free' holds' := by
  obtain ⟨permits, rfl, hholders⟩ := h
  generalize hbefore : holds k = before at hmove
  generalize hafter : holds' k = after at hmove
  cases hmove with
  | stays _ hsame =>
      refine ⟨permits, hsame.symm, ?_⟩
      intro other
      by_cases heq : other = k
      · rw [heq, hholders, hbefore, hafter]
      · rw [hothers other heq, hholders]
  | takes hone =>
      have hnew : k ∉ permits.holders := by
        rw [hholders, hbefore]
        exact Bool.false_ne_true
      refine ⟨permits.acquire k (by omega) hnew, ?_, ?_⟩
      · simp [Permits.acquire, hone]
      · intro other
        by_cases heq : other = k
        · simp [Permits.acquire, heq, hafter]
        · simp [Permits.acquire, heq, hholders, hothers other heq]
  | returns hone =>
      have hheld : k ∈ permits.holders := (hholders k).mpr hbefore
      refine ⟨permits.release k hheld, ?_, ?_⟩
      · simp [Permits.release, hone]
      · intro other
        by_cases heq : other = k
        · simp [Permits.release, heq, hafter]
        · simp [Permits.release, heq, hholders, hothers other heq]

end Accounted

end PermitPool
