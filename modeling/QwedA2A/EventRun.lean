/-
Runs of a deterministic step function over a list of events.  The induction
behind every invariant of a run is stated once here, for runs whose events are
allowed by what came before them and whose clock never goes back.
-/
import Mathlib.Order.Basic
import Mathlib.Tactic

namespace EventRun

universe u v w

variable {σ : Type u} {ε : Type v} {τ : Type w}

def final (step : σ → ε → σ) (start : σ) (events : List ε) : σ :=
  events.foldl step start

@[simp] theorem final_nil (step : σ → ε → σ) (start : σ) :
    final step start [] = start := rfl

@[simp] theorem final_snoc (step : σ → ε → σ) (start : σ)
    (past : List ε) (event : ε) :
    final step start (past ++ [event]) =
      step (final step start past) event := by
  simp [final, List.foldl_append]

/-- Every event of the run is allowed after the events before it. -/
def Admissible (allowed : List ε → ε → Prop) (events : List ε) : Prop :=
  ∀ past event rest, events = past ++ event :: rest → allowed past event

theorem Admissible.init {allowed : List ε → ε → Prop} {past : List ε}
    {event : ε} (h : Admissible allowed (past ++ [event])) :
    Admissible allowed past := by
  intro before e rest heq
  exact h before e (rest ++ [event]) (by simp [heq])

theorem Admissible.last {allowed : List ε → ε → Prop} {past : List ε}
    {event : ε} (h : Admissible allowed (past ++ [event])) :
    allowed past event :=
  h past event [] rfl

theorem Admissible.of_prefix {allowed : List ε → ε → Prop} {past events : List ε}
    (h : Admissible allowed events) (hpast : past <+: events) :
    Admissible allowed past := by
  obtain ⟨later, rfl⟩ := hpast
  intro before event rest heq
  exact h before event (rest ++ later) (by simp [heq])

theorem Admissible.nil (allowed : List ε → ε → Prop) : Admissible allowed [] :=
  fun past event rest heq => absurd heq.symm (by simp)

/-- A run of events that are allowed whatever came before them. -/
theorem Admissible.of_forall {allowed : List ε → ε → Prop} {events : List ε}
    (h : ∀ event ∈ events, ∀ past, allowed past event) : Admissible allowed events := by
  intro past event rest heq
  exact h event (by rw [heq]; simp) past

theorem Admissible.snoc {allowed : List ε → ε → Prop} {past : List ε} {event : ε}
    (h : Admissible allowed past) (hevent : allowed past event) :
    Admissible allowed (past ++ [event]) := by
  intro before e rest heq
  rcases List.eq_nil_or_concat rest with rfl | ⟨rest', last, rfl⟩
  · obtain ⟨rfl, hlast⟩ := List.append_inj' heq rfl
    cases hlast
    exact hevent
  · rw [List.concat_eq_append, ← List.cons_append, ← List.append_assoc] at heq
    exact h before e rest' (List.append_inj' heq rfl).1

/-- Invariant rule: what holds of the empty run and survives every allowed event
holds of every run. -/
theorem Admissible.invariant {allowed : List ε → ε → Prop} {events : List ε}
    (h : Admissible allowed events) (Inv : List ε → Prop) (base : Inv [])
    (preserved : ∀ past event, Inv past → allowed past event → Inv (past ++ [event])) :
    Inv events := by
  induction events using List.reverseRecOn with
  | nil => exact base
  | append_singleton past event ih =>
      exact preserved past event (ih h.init) h.last

/-- The clock readings of a run never decrease. -/
def ClockMonotone [LE τ] (reads : ε → List τ) (events : List ε) : Prop :=
  (events.flatMap reads).Pairwise (· ≤ ·)

theorem ClockMonotone.init [LE τ] {reads : ε → List τ} {past : List ε}
    {event : ε} (h : ClockMonotone reads (past ++ [event])) :
    ClockMonotone reads past := by
  rw [ClockMonotone, List.flatMap_append, List.pairwise_append] at h
  exact h.1

/-- No reading of the last event is earlier than a reading before it. -/
theorem ClockMonotone.le_last [LE τ] {reads : ε → List τ} {past : List ε}
    {event : ε} (h : ClockMonotone reads (past ++ [event]))
    {t : τ} (ht : t ∈ past.flatMap reads) {t' : τ} (ht' : t' ∈ reads event) :
    t ≤ t' := by
  rw [ClockMonotone, List.flatMap_append, List.pairwise_append] at h
  exact h.2.2 t ht t' (by simpa using ht')

theorem ClockMonotone.le_getLast [Preorder τ] {reads : ε → List τ}
    {events : List ε} (h : ClockMonotone reads events) {last : τ}
    (hlast : (events.flatMap reads).getLast? = some last) {t : τ}
    (ht : t ∈ events.flatMap reads) : t ≤ last := by
  obtain ⟨before, hbefore⟩ := List.getLast?_eq_some_iff.mp hlast
  rw [ClockMonotone, hbefore, List.pairwise_append] at h
  rw [hbefore] at ht
  rcases List.mem_append.mp ht with hold | hnew
  · exact h.2.2 t hold last (List.mem_singleton_self last)
  · exact (List.mem_singleton.mp hnew).le

/-- What a run emits: each event may emit something, seen from the state it
meets. -/
def emitted {ω : Type*} (step : σ → ε → σ) (emit : σ → ε → List ω) :
    σ → List ε → List ω
  | _, [] => []
  | state, event :: rest =>
      emit state event ++ emitted step emit (step state event) rest

@[simp] theorem emitted_nil {ω : Type*} (step : σ → ε → σ)
    (emit : σ → ε → List ω) (start : σ) : emitted step emit start [] = [] := rfl

theorem emitted_snoc {ω : Type*} (step : σ → ε → σ) (emit : σ → ε → List ω)
    (start : σ) (past : List ε) (event : ε) :
    emitted step emit start (past ++ [event]) =
      emitted step emit start past ++ emit (final step start past) event := by
  induction past generalizing start with
  | nil => simp [emitted]
  | cons head tail ih => simp [emitted, ih, final, List.append_assoc]

theorem emitted_append {ω : Type*} (step : σ → ε → σ) (emit : σ → ε → List ω)
    (start : σ) (past later : List ε) :
    emitted step emit start (past ++ later) =
      emitted step emit start past ++
        emitted step emit (final step start past) later := by
  induction past generalizing start with
  | nil => rfl
  | cons head tail ih => simp [emitted, ih, final, List.append_assoc]

theorem final_append (step : σ → ε → σ) (start : σ) (past later : List ε) :
    final step start (past ++ later) =
      final step (final step start past) later :=
  List.foldl_append

def lastMatch (kind : ε → Bool) (events : List ε) : Option ε :=
  (events.filter kind).getLast?

@[simp] theorem lastMatch_nil (kind : ε → Bool) :
    lastMatch kind ([] : List ε) = none := rfl

theorem lastMatch_snoc (kind : ε → Bool) (past : List ε) (event : ε) :
    lastMatch kind (past ++ [event]) =
      if kind event then some event else lastMatch kind past := by
  cases h : kind event <;> simp [lastMatch, List.filter_append, h]

/-- An event that nothing of its kind but itself has followed is the last one. -/
theorem lastMatch_of_kept {kind : ε → Bool} {event : ε} (hkind : kind event = true)
    (past : List ε) {later : List ε}
    (hkept : ∀ other ∈ later, kind other = true → other = event) :
    lastMatch kind (past ++ event :: later) = some event := by
  induction later using List.reverseRecOn with
  | nil => rw [lastMatch_snoc, if_pos hkind]
  | append_singleton later last ih =>
      rw [← List.cons_append, ← List.append_assoc, lastMatch_snoc]
      split_ifs with hlast
      · exact congrArg some (hkept last (by simp) hlast)
      · exact ih fun other hother => hkept other (List.mem_append_left _ hother)

theorem lastMatch_eq_none_iff {kind : ε → Bool} {events : List ε} :
    lastMatch kind events = none ↔ ∀ event ∈ events, kind event = false := by
  rw [lastMatch, List.getLast?_eq_none_iff, List.filter_eq_nil_iff]
  simp only [Bool.not_eq_true]

theorem lastMatch_spec {kind : ε → Bool} {events : List ε} {event : ε}
    (h : lastMatch kind events = some event) :
    event ∈ events ∧ kind event = true :=
  List.mem_filter.mp (List.mem_of_getLast? h)

/-- The last event of a kind is the last of every narrower kind it has. -/
theorem lastMatch_of_imp {kind narrow : ε → Bool} {events : List ε} {event : ε}
    (himp : ∀ event ∈ events, narrow event = true → kind event = true)
    (h : lastMatch kind events = some event) (hevent : narrow event = true) :
    lastMatch narrow events = some event := by
  induction events using List.reverseRecOn with
  | nil => cases h
  | append_singleton past last ih =>
      rw [lastMatch_snoc] at h ⊢
      cases hlast : kind last with
      | true =>
          rw [hlast, if_pos rfl] at h
          cases h
          rw [if_pos hevent]
      | false =>
          have hnarrow : ¬ narrow last = true := by
            intro hother
            rw [himp last (List.mem_append_right _ List.mem_cons_self) hother]
              at hlast
            cases hlast
          rw [hlast, if_neg Bool.false_ne_true] at h
          rw [if_neg hnarrow]
          exact ih (fun other hmem => himp other (List.mem_append_left _ hmem)) h

/-- The last output of a kind comes from the last input with such an output. -/
theorem lastMatch_filterMap {ω : Type*} (f : ε → Option ω) (kind : ω → Bool)
    (events : List ε) :
    lastMatch kind (events.filterMap f) =
      (lastMatch (fun event => (f event).any kind) events).bind f := by
  induction events using List.reverseRecOn with
  | nil => rfl
  | append_singleton past event ih =>
      rw [List.filterMap_append, lastMatch_snoc]
      cases hevent : f event with
      | none => simp [hevent, ih]
      | some output =>
          have hsingle : [event].filterMap f = [output] := by simp [hevent]
          rw [hsingle, lastMatch_snoc, ih]
          cases hkind : kind output <;> simp [hkind, hevent]

end EventRun
