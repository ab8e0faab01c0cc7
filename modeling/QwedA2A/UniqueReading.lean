/-
Printed forms that can be read in one way only.  A value is read off the front
of a text: when two texts begin with the printed forms of two values and go on
in an allowed way, the values are related and the rests are equal.  Codes,
spans and separated lists inherit this from their parts.
-/
import Mathlib.Data.List.Basic
import Mathlib.Data.List.Forall2
import Mathlib.Tactic

namespace UniqueReading

universe u v

variable {α : Type u} {χ : Type v}

/-- Where the forms of two values stand before allowed rests, the values are
related and the rests agree. -/
def ReadsAs (related : Prop) (follow : List χ → Prop) (left right : List χ) : Prop :=
  ∀ s t, follow s → follow t → left ++ s = right ++ t → related ∧ s = t

theorem ReadsAs.mono {related weaker : Prop} {follow : List χ → Prop}
    {left right : List χ} (h : ReadsAs related follow left right)
    (himp : related → weaker) : ReadsAs weaker follow left right := by
  intro s t hs ht heq
  obtain ⟨hrelated, hrest⟩ := h s t hs ht heq
  exact ⟨himp hrelated, hrest⟩

/-- Forms whose first characters differ are never confused. -/
theorem readsAs_of_head_ne {related : Prop} {follow : List χ → Prop}
    {a b : χ} {left right : List χ} (hne : a ≠ b) :
    ReadsAs related follow (a :: left) (b :: right) := by
  intro s t _ _ heq
  rw [List.cons_append, List.cons_append, List.cons.injEq] at heq
  exact absurd heq.1 hne

theorem ReadsAs.append_left {related : Prop} {follow : List χ → Prop}
    {left right : List χ} (front : List χ) (h : ReadsAs related follow left right) :
    ReadsAs related follow (front ++ left) (front ++ right) := by
  intro s t hs ht heq
  rw [List.append_assoc, List.append_assoc] at heq
  exact h s t hs ht (List.append_cancel_left heq)

/-- Texts over a class of characters, before rests that begin outside it. -/
theorem span_injective {p : χ → Prop} {u w s t : List χ} (hu : ∀ c ∈ u, p c)
    (hw : ∀ c ∈ w, p c) (hs : ∀ c ∈ s.head?, ¬ p c) (ht : ∀ c ∈ t.head?, ¬ p c)
    (heq : u ++ s = w ++ t) : u = w ∧ s = t := by
  induction u generalizing w with
  | nil =>
      cases w with
      | nil => exact ⟨rfl, heq⟩
      | cons c w =>
          rw [List.nil_append, List.cons_append] at heq
          exact absurd (hw c (by simp)) (hs c (by simp [heq]))
  | cons c u ih =>
      cases w with
      | nil =>
          rw [List.nil_append, List.cons_append] at heq
          exact absurd (hu c (by simp)) (ht c (by simp [← heq]))
      | cons d w =>
          rw [List.cons_append, List.cons_append, List.cons.injEq] at heq
          obtain ⟨rfl, heq⟩ := heq
          obtain ⟨rfl, hrest⟩ := ih (fun e he => hu e (by simp [he]))
            (fun e he => hw e (by simp [he])) heq
          exact ⟨rfl, hrest⟩

/-- A sequence of codes up to a stop that begins none of them.  A reader that
inverts the code shows that there is one way to split it. -/
theorem codes_injective {code : α → List χ} {read : List χ → Option (α × List χ)}
    {stop : χ} {valid : α → Prop}
    (hread : ∀ a rest, valid a → read (code a ++ rest) = some (a, rest))
    (hhead : ∀ a, valid a → ∃ c rest, code a = c :: rest ∧ c ≠ stop)
    {xs ys : List α} (hxs : ∀ x ∈ xs, valid x) (hys : ∀ y ∈ ys, valid y)
    {s t : List χ}
    (heq : xs.flatMap code ++ stop :: s = ys.flatMap code ++ stop :: t) :
    xs = ys ∧ s = t := by
  induction xs generalizing ys with
  | nil =>
      cases ys with
      | nil =>
          rw [List.flatMap_nil, List.nil_append, List.nil_append,
            List.cons.injEq] at heq
          exact ⟨rfl, heq.2⟩
      | cons y ys =>
          obtain ⟨c, rest, hcode, hne⟩ := hhead y (hys y (by simp))
          simp [hcode] at heq
          exact absurd heq.1.symm hne
  | cons x xs ih =>
      cases ys with
      | nil =>
          obtain ⟨c, rest, hcode, hne⟩ := hhead x (hxs x (by simp))
          simp [hcode] at heq
          exact absurd heq.1 hne
      | cons y ys =>
          rw [List.flatMap_cons, List.flatMap_cons, List.append_assoc,
            List.append_assoc] at heq
          have hpair : some (x, xs.flatMap code ++ stop :: s) =
              some (y, ys.flatMap code ++ stop :: t) := by
            rw [← hread x _ (hxs x (by simp)), heq,
              hread y _ (hys y (by simp))]
          rw [Option.some.injEq, Prod.mk.injEq] at hpair
          obtain ⟨rfl, hrest⟩ := ih (fun e he => hxs e (by simp [he]))
            (fun e he => hys e (by simp [he])) hpair.2
          exact ⟨by rw [hpair.1], hrest⟩

def separated (sep : List χ) : List (List χ) → List χ
  | [] => []
  | [form] => form
  | form :: next :: rest => form ++ sep ++ separated sep (next :: rest)

/-- What follows the first form of a separated and closed list. -/
def closing (sep : List χ) (close : χ) : List (List χ) → List χ
  | [] => [close]
  | form :: rest => sep ++ (form ++ closing sep close rest)

theorem separated_cons (sep : List χ) (close : χ) (form : List χ)
    (rest : List (List χ)) :
    separated sep (form :: rest) ++ [close] = form ++ closing sep close rest := by
  induction rest generalizing form with
  | nil => rfl
  | cons next rest ih => simp [separated, closing, ih]

section Lists

variable {print : α → List χ} {R : α → α → Prop} {follow after : List χ → Prop}
  {sep : List χ} {close : χ}

/-- After an element of a closed list comes a separator or the end. -/
theorem follow_closing (hsep : ∀ s, follow (sep ++ s))
    (hclose : ∀ s, follow (close :: s)) (forms : List (List χ)) (s : List χ) :
    follow (closing sep close forms ++ s) := by
  cases forms with
  | nil => exact hclose s
  | cons form rest =>
      rw [closing, List.append_assoc]
      exact hsep _

/-- The rest of a closed list is read element by element. -/
theorem closing_readsAs (hsep : ∀ s, follow (sep ++ s))
    (hclose : ∀ s, follow (close :: s))
    (hapart : ∃ c rest, sep = c :: rest ∧ c ≠ close) {xs ys : List α}
    (hread : ∀ x ∈ xs, ∀ y ∈ ys, ReadsAs (R x y) follow (print x) (print y)) :
    ReadsAs (List.Forall₂ R xs ys) after
      (closing sep close (xs.map print)) (closing sep close (ys.map print)) := by
  obtain ⟨c, tail, rfl, hne⟩ := hapart
  induction xs generalizing ys with
  | nil =>
      cases ys with
      | nil =>
          intro s t _ _ heq
          exact ⟨.nil, List.append_cancel_left heq⟩
      | cons y ys => exact readsAs_of_head_ne hne.symm
  | cons x xs ih =>
      cases ys with
      | nil => exact readsAs_of_head_ne hne
      | cons y ys =>
          refine ReadsAs.append_left (c :: tail) ?_
          intro s t hs ht heq
          rw [List.append_assoc, List.append_assoc] at heq
          obtain ⟨hhead, hrest⟩ := hread x (by simp) y (by simp) _ _
            (follow_closing hsep hclose _ s) (follow_closing hsep hclose _ t) heq
          obtain ⟨htail, hend⟩ := ih (fun x' hx y' hy =>
            hread x' (by simp [hx]) y' (by simp [hy])) s t hs ht hrest
          exact ⟨.cons hhead htail, hend⟩

/-- A separated and closed list is read element by element. -/
theorem separated_readsAs (hsep : ∀ s, follow (sep ++ s))
    (hclose : ∀ s, follow (close :: s))
    (hapart : ∃ c rest, sep = c :: rest ∧ c ≠ close) {xs ys : List α}
    (hxs : ∀ x ∈ xs, ∃ c rest, print x = c :: rest ∧ c ≠ close)
    (hys : ∀ y ∈ ys, ∃ c rest, print y = c :: rest ∧ c ≠ close)
    (hread : ∀ x ∈ xs, ∀ y ∈ ys, ReadsAs (R x y) follow (print x) (print y)) :
    ReadsAs (List.Forall₂ R xs ys) after
      (separated sep (xs.map print) ++ [close])
      (separated sep (ys.map print) ++ [close]) := by
  cases xs with
  | nil =>
      cases ys with
      | nil =>
          intro s t _ _ heq
          exact ⟨.nil, List.append_cancel_left heq⟩
      | cons y ys =>
          obtain ⟨c, rest, hprint, hne⟩ := hys y (by simp)
          rw [List.map_cons, separated_cons, hprint]
          exact readsAs_of_head_ne hne.symm
  | cons x xs =>
      cases ys with
      | nil =>
          obtain ⟨c, rest, hprint, hne⟩ := hxs x (by simp)
          rw [List.map_cons, separated_cons, hprint]
          exact readsAs_of_head_ne hne
      | cons y ys =>
          rw [List.map_cons, List.map_cons, separated_cons, separated_cons]
          intro s t hs ht heq
          rw [List.append_assoc, List.append_assoc] at heq
          obtain ⟨hhead, hrest⟩ := hread x (by simp) y (by simp) _ _
            (follow_closing hsep hclose _ s) (follow_closing hsep hclose _ t) heq
          obtain ⟨htail, hend⟩ := closing_readsAs hsep hclose hapart
            (fun x' hx y' hy => hread x' (by simp [hx]) y' (by simp [hy]))
            s t hs ht hrest
          exact ⟨.cons hhead htail, hend⟩

end Lists

end UniqueReading
