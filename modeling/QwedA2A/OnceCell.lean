/-
A value that is made once, under double-checked locking.  A call that finds the cell
filled returns what is there; any other takes the lock, looks again, and makes the
value if it is still missing.  Reading the cell needs no lock.
-/
import Mathlib.Logic.Function.Basic
import QwedA2A.EventRun

namespace OnceCell

open EventRun

universe u v w

variable {C : Type u} {V : Type v} {E : Type w}

/-- How far a call has come. -/
inductive Phase (V : Type v) (E : Type w) where
  | idle
  | found
  | queued
  | holding
  | making
  | storing (value : V)
  | returning
  | releasing (result : Except E (Option V))
  | done (result : Except E (Option V))

/-- The call is between taking the lock and giving it back. -/
def Phase.inside : Phase V E → Prop
  | .holding | .making | .storing _ | .returning | .releasing _ => True
  | _ => False

/-- The call has seen the cell filled and is about to read it. -/
def Phase.hasSeen : Phase V E → Prop
  | .found | .returning => True
  | _ => False

def Phase.isMaking : Phase V E → Prop
  | .making | .storing _ => True
  | _ => False

structure State (V : Type v) (E : Type w) where
  cell : Option V := none
  holder : Option ℕ := none
  phase : ℕ → Phase V E := fun _ => .idle

/-- The steps of a call, each atomic; making the value reads an argument. -/
inductive Event (C : Type u) where
  | check (call : ℕ)
  | acquire (call : ℕ)
  | recheck (call : ℕ)
  | make (call : ℕ) (argument : C)
  | store (call : ℕ)
  | fetch (call : ℕ)
  | release (call : ℕ)

def State.move (state : State V E) (call : ℕ) (phase : Phase V E) : State V E :=
  { state with phase := Function.update state.phase call phase }

/-- One step of a call; a step that is not its next does nothing, nor does a call
for a lock that is held. -/
def step (make : C → Except E V) (state : State V E) : Event C → State V E
  | .check call =>
      match state.phase call with
      | .idle => state.move call (if state.cell.isSome then .found else .queued)
      | _ => state
  | .acquire call =>
      match state.phase call, state.holder with
      | .queued, none => { state.move call .holding with holder := some call }
      | _, _ => state
  | .recheck call =>
      match state.phase call with
      | .holding => state.move call (if state.cell.isSome then .returning else .making)
      | _ => state
  | .make call argument =>
      match state.phase call with
      | .making =>
          match make argument with
          | .ok value => state.move call (.storing value)
          | .error exc => state.move call (.releasing (.error exc))
      | _ => state
  | .store call =>
      match state.phase call with
      | .storing value => { state.move call .returning with cell := some value }
      | _ => state
  | .fetch call =>
      match state.phase call with
      | .found => state.move call (.done (.ok state.cell))
      | .returning => state.move call (.releasing (.ok state.cell))
      | _ => state
  | .release call =>
      match state.phase call with
      | .releasing result => { state.move call (.done result) with holder := none }
      | _ => state

def after (make : C → Except E V) (run : List (Event C)) : State V E :=
  final (step make) {} run

theorem after_snoc (make : C → Except E V) (past : List (Event C)) (event : Event C) :
    after make (past ++ [event]) = step make (after make past) event :=
  final_snoc (step make) {} past event

/-- What a step can do. -/
inductive Move (make : C → Except E V) (state : State V E) :
    Event C → State V E → Prop
  | still (event : Event C) : Move make state event state
  | finds {call : ℕ} (h : state.phase call = .idle) (hcell : state.cell ≠ none) :
      Move make state (.check call) (state.move call .found)
  | queues {call : ℕ} (h : state.phase call = .idle) :
      Move make state (.check call) (state.move call .queued)
  | acquires {call : ℕ} (h : state.phase call = .queued) (hfree : state.holder = none) :
      Move make state (.acquire call)
        { state.move call .holding with holder := some call }
  | refinds {call : ℕ} (h : state.phase call = .holding) (hcell : state.cell ≠ none) :
      Move make state (.recheck call) (state.move call .returning)
  | misses {call : ℕ} (h : state.phase call = .holding) (hcell : state.cell = none) :
      Move make state (.recheck call) (state.move call .making)
  | makes {call : ℕ} {argument : C} {value : V} (h : state.phase call = .making)
      (hmake : make argument = .ok value) :
      Move make state (.make call argument) (state.move call (.storing value))
  | fails {call : ℕ} {argument : C} {exc : E} (h : state.phase call = .making)
      (hmake : make argument = .error exc) :
      Move make state (.make call argument)
        (state.move call (.releasing (.error exc)))
  | stores {call : ℕ} {value : V} (h : state.phase call = .storing value) :
      Move make state (.store call)
        { state.move call .returning with cell := some value }
  | reads {call : ℕ} (h : state.phase call = .found) :
      Move make state (.fetch call) (state.move call (.done (.ok state.cell)))
  | fetches {call : ℕ} (h : state.phase call = .returning) :
      Move make state (.fetch call) (state.move call (.releasing (.ok state.cell)))
  | releases {call : ℕ} {result : Except E (Option V)}
      (h : state.phase call = .releasing result) :
      Move make state (.release call)
        { state.move call (.done result) with holder := none }

theorem step_move (make : C → Except E V) (state : State V E) (event : Event C) :
    Move make state event (step make state event) := by
  cases event with
  | check call =>
      rw [step]
      split
      next h =>
        split_ifs with hcell
        · exact .finds h (Option.isSome_iff_ne_none.mp hcell)
        · exact .queues h
      next => exact .still _
  | acquire call =>
      rw [step]
      split
      next h hfree => exact .acquires h hfree
      next => exact .still _
  | recheck call =>
      rw [step]
      split
      next h =>
        split_ifs with hcell
        · exact .refinds h (Option.isSome_iff_ne_none.mp hcell)
        · exact .misses h (Option.not_isSome_iff_eq_none.mp hcell)
      next => exact .still _
  | make call argument =>
      rw [step]
      split
      next h =>
        cases hmake : make argument with
        | ok value => exact .makes h hmake
        | error exc => exact .fails h hmake
      next => exact .still _
  | store call =>
      rw [step]
      split
      next h => exact .stores h
      next => exact .still _
  | fetch call =>
      rw [step]
      split
      next h => exact .reads h
      next h => exact .fetches h
      next => exact .still _
  | release call =>
      rw [step]
      split
      next h => exact .releases h
      next => exact .still _

@[simp] theorem State.move_cell (state : State V E) (call : ℕ) (phase : Phase V E) :
    (state.move call phase).cell = state.cell := rfl

@[simp] theorem State.move_holder (state : State V E) (call : ℕ) (phase : Phase V E) :
    (state.move call phase).holder = state.holder := rfl

theorem State.move_phase (state : State V E) (call : ℕ) (phase : Phase V E)
    (other : ℕ) : (state.move call phase).phase other =
      if other = call then phase else state.phase other :=
  Function.update_apply state.phase call phase other

/-- The phase fits the cell, and the lock if the call needs it. -/
structure Phase.Fits (state : State V E) (call : ℕ) (phase : Phase V E) : Prop where
  held : phase.inside → state.holder = some call
  missing : phase.isMaking → state.cell = none
  filled : phase.hasSeen → state.cell ≠ none
  agreed : ∀ result, phase = .releasing (.ok result) ∨ phase = .done (.ok result) →
    result = state.cell ∧ state.cell ≠ none

/-- Every call fits. -/
def Sound (state : State V E) : Prop := ∀ call, (state.phase call).Fits state call

section Invariant

variable {make : C → Except E V} {state : State V E} {call other : ℕ} {value : V}
  {run past : List (Event C)}

theorem Sound.eq_of_inside (h : Sound state) (hcall : (state.phase call).inside)
    (hother : (state.phase other).inside) : other = call := by
  have hheld := (h other).held hother
  rw [(h call).held hcall] at hheld
  exact (Option.some.inj hheld).symm

theorem Phase.inside_of_isMaking {phase : Phase V E} (h : phase.isMaking) :
    phase.inside := by
  cases phase with
  | making => trivial
  | storing value => trivial
  | _ => exact h.elim

theorem Sound.move (h : Sound state) {phase : Phase V E}
    (hfits : phase.Fits state call) : Sound (state.move call phase) := by
  intro other
  rw [State.move_phase]
  split_ifs with hother
  · subst hother
    exact ⟨hfits.held, hfits.missing, hfits.filled, hfits.agreed⟩
  · exact ⟨(h other).held, (h other).missing, (h other).filled, (h other).agreed⟩

theorem Sound.step (h : Sound state) (event : Event C) :
    Sound (step make state event) := by
  have hmove := step_move make state event
  generalize OnceCell.step make state event = next at hmove
  cases hmove with
  | still _ => exact h
  | finds hidle hcell =>
      exact h.move ⟨fun hin => hin.elim, fun hm => hm.elim, fun _ => hcell, by simp⟩
  | queues hidle =>
      exact h.move ⟨fun hin => hin.elim, fun hm => hm.elim, fun hs => hs.elim, by simp⟩
  | @acquires call hqueued hfree =>
      intro other
      rw [State.move_phase]
      split_ifs with hother
      · subst hother
        exact ⟨fun _ => rfl, fun hm => hm.elim, fun hs => hs.elim, by simp⟩
      · refine ⟨fun hin => ?_, (h other).missing, (h other).filled, (h other).agreed⟩
        have hheld := (h other).held hin
        rw [hfree] at hheld
        cases hheld
  | refinds hholding hcell =>
      have hheld := (h _).held (by rw [hholding]; trivial)
      exact h.move ⟨fun _ => hheld, fun hm => hm.elim, fun _ => hcell, by simp⟩
  | misses hholding hcell =>
      have hheld := (h _).held (by rw [hholding]; trivial)
      exact h.move ⟨fun _ => hheld, fun _ => hcell, fun hs => hs.elim, by simp⟩
  | makes hmaking _ =>
      have hheld := (h _).held (by rw [hmaking]; trivial)
      have hcell := (h _).missing (by rw [hmaking]; trivial)
      exact h.move ⟨fun _ => hheld, fun _ => hcell, fun hs => hs.elim, by simp⟩
  | fails hmaking _ =>
      have hheld := (h _).held (by rw [hmaking]; trivial)
      exact h.move ⟨fun _ => hheld, fun hm => hm.elim, fun hs => hs.elim, by simp⟩
  | @stores call value hstoring =>
      have hinside : (state.phase call).inside := by rw [hstoring]; trivial
      have hcell := (h call).missing (by rw [hstoring]; trivial)
      intro other
      rw [State.move_phase]
      split_ifs with hother
      · subst hother
        exact ⟨fun _ => (h other).held hinside, fun hm => hm.elim, fun _ => by simp,
          by simp⟩
      · refine ⟨(h other).held, fun hm => ?_, fun _ => by simp, fun result hresult => ?_⟩
        · exact absurd (h.eq_of_inside hinside (Phase.inside_of_isMaking hm)) hother
        · exact absurd hcell ((h other).agreed result hresult).2
  | reads hfound =>
      have hcell := (h _).filled (by rw [hfound]; trivial)
      exact h.move ⟨fun hin => hin.elim, fun hm => hm.elim, fun hs => hs.elim,
        by simpa using hcell⟩
  | fetches hreturning =>
      have hheld := (h _).held (by rw [hreturning]; trivial)
      have hcell := (h _).filled (by rw [hreturning]; trivial)
      exact h.move ⟨fun _ => hheld, fun hm => hm.elim, fun hs => hs.elim,
        by simpa using hcell⟩
  | @releases call result hreleasing =>
      have hinside : (state.phase call).inside := by rw [hreleasing]; trivial
      intro other
      rw [State.move_phase]
      split_ifs with hother
      · subst hother
        refine ⟨fun hin => hin.elim, fun hm => hm.elim, fun hs => hs.elim, ?_⟩
        intro found hfound
        rcases hfound with hfound | hfound
        · cases hfound
        · cases hfound
          exact (h other).agreed found (Or.inl hreleasing)
      · refine ⟨fun hin => ?_, (h other).missing, (h other).filled, (h other).agreed⟩
        exact absurd (h.eq_of_inside hinside hin) hother

theorem sound_after (make : C → Except E V) (run : List (Event C)) :
    Sound (after make run) := by
  induction run using List.reverseRecOn with
  | nil =>
      exact fun _ => ⟨fun hin => hin.elim, fun hm => hm.elim, fun hs => hs.elim,
        fun _ h => by rcases h with h | h <;> cases h⟩
  | append_singleton past event ih =>
      rw [after_snoc]
      exact ih.step event

theorem cell_step (h : Sound state) (event : Event C) (hcell : state.cell = some value) :
    (step make state event).cell = some value := by
  have hmove := step_move make state event
  generalize step make state event = next at hmove
  cases hmove with
  | stores hstoring =>
      have hmissing := (h _).missing (by rw [hstoring]; trivial)
      rw [hcell] at hmissing
      cases hmissing
  | still _ => exact hcell
  | finds _ _ => exact hcell
  | queues _ => exact hcell
  | acquires _ _ => exact hcell
  | refinds _ _ => exact hcell
  | misses _ _ => exact hcell
  | makes _ _ => exact hcell
  | fails _ _ => exact hcell
  | reads _ => exact hcell
  | fetches _ => exact hcell
  | releases _ => exact hcell

/-- The value has been made: it is in the cell, or its maker is about to store it. -/
def Committed (state : State V E) (value : V) : Prop :=
  state.cell = some value ∨ ∃ call, state.phase call = .storing value

theorem Committed.step (h : Sound state) (hcommitted : Committed state value)
    (event : Event C) : Committed (step make state event) value := by
  rcases hcommitted with hcell | ⟨call, hstoring⟩
  · exact Or.inl (cell_step h event hcell)
  have hinside : (state.phase call).inside := by rw [hstoring]; trivial
  have hstays : ∀ {other : ℕ} {phase : Phase V E}, state.phase other ≠ .storing value →
      (state.move other phase).phase call = .storing value := by
    intro other phase hother
    rw [State.move_phase, if_neg]
    · exact hstoring
    · rintro rfl
      exact hother hstoring
  have hmove := step_move make state event
  generalize OnceCell.step make state event = next at hmove
  cases hmove with
  | still _ => exact Or.inr ⟨call, hstoring⟩
  | @stores other stored hother =>
      have hsame : other = call :=
        h.eq_of_inside hinside (by rw [hother]; trivial)
      subst hsame
      rw [hstoring] at hother
      cases hother
      exact Or.inl rfl
  | finds hidle _ => exact Or.inr ⟨call, hstays (by rw [hidle]; simp)⟩
  | queues hidle => exact Or.inr ⟨call, hstays (by rw [hidle]; simp)⟩
  | acquires hqueued _ => exact Or.inr ⟨call, hstays (by rw [hqueued]; simp)⟩
  | refinds hholding _ => exact Or.inr ⟨call, hstays (by rw [hholding]; simp)⟩
  | misses hholding _ => exact Or.inr ⟨call, hstays (by rw [hholding]; simp)⟩
  | makes hmaking _ => exact Or.inr ⟨call, hstays (by rw [hmaking]; simp)⟩
  | fails hmaking _ => exact Or.inr ⟨call, hstays (by rw [hmaking]; simp)⟩
  | reads hfound => exact Or.inr ⟨call, hstays (by rw [hfound]; simp)⟩
  | fetches hreturning => exact Or.inr ⟨call, hstays (by rw [hreturning]; simp)⟩
  | releases hreleasing => exact Or.inr ⟨call, hstays (by rw [hreleasing]; simp)⟩

end Invariant

section Runs

variable {make : C → Except E V} {run past : List (Event C)}

/-- In the run a call that had seen the cell empty made something of an argument. -/
structure MakesAt (make : C → Except E V) (run past : List (Event C)) (call : ℕ)
    (argument : C) : Prop where
  happened : past ++ [.make call argument] <+: run
  making : (after make past).phase call = .making

theorem MakesAt.mono {longer : List (Event C)} {call : ℕ} {argument : C}
    (h : MakesAt make run past call argument) (hrun : run <+: longer) :
    MakesAt make longer past call argument :=
  ⟨h.happened.trans hrun, h.making⟩

theorem MakesAt.missing {call : ℕ} {argument : C}
    (h : MakesAt make run past call argument) : (after make past).cell = none :=
  (sound_after make past call).missing (by rw [h.making]; trivial)

theorem MakesAt.committed {call : ℕ} {argument : C} {value : V}
    (h : MakesAt make run past call argument) (hmake : make argument = .ok value) :
    Committed (after make run) value := by
  obtain ⟨later, hrun⟩ := h.happened
  rw [← hrun]
  induction later using List.reverseRecOn generalizing run with
  | nil =>
      refine Or.inr ⟨call, ?_⟩
      rw [List.append_nil, after_snoc]
      simp only [step, h.making, hmake, State.move_phase, if_true]
  | append_singleton later event ih =>
      rw [← List.append_assoc, after_snoc]
      exact (ih ⟨List.prefix_append _ _, h.making⟩ rfl).step (sound_after make _) event

theorem Committed.not_making {state : State V E} {value : V} {call : ℕ}
    (hsound : Sound state) (h : Committed state value) :
    state.phase call ≠ .making := by
  intro hmaking
  rcases h with hcell | ⟨other, hstoring⟩
  · have hmissing := (hsound call).missing (by rw [hmaking]; trivial)
    rw [hcell] at hmissing
    cases hmissing
  · have hsame : other = call := hsound.eq_of_inside (by rw [hmaking]; trivial)
      (by rw [hstoring]; trivial)
    rw [hsame, hmaking] at hstoring
    cases hstoring

theorem MakesAt.unique {past past' : List (Event C)} {call call' : ℕ}
    {argument argument' : C} {value value' : V}
    (h : MakesAt make run past call argument) (hmake : make argument = .ok value)
    (h' : MakesAt make run past' call' argument') (hmake' : make argument' = .ok value') :
    past = past' ∧ argument = argument' := by
  -- Of two attempts the later one would meet a value that has been made.
  have hlater : ∀ {past past' : List (Event C)} {call call' : ℕ}
      {argument argument' : C} {value : V},
      MakesAt make run past call argument → make argument = .ok value →
        MakesAt make run past' call' argument' → ¬ past.length < past'.length := by
    intro past past' call call' argument argument' value h hmake h' hlt
    have hpast : past ++ [.make call argument] <+: past' := by
      apply List.prefix_of_prefix_length_le h.happened
        ((List.prefix_append past' [.make call' argument']).trans h'.happened)
      simp only [List.length_append, List.length_singleton]
      omega
    have hcommitted := (⟨hpast, h.making⟩ : MakesAt make past' past call argument).committed hmake
    exact hcommitted.not_making (sound_after make past') h'.making
  have hlength : past.length = past'.length :=
    le_antisymm (not_lt.mp (hlater h' hmake' h)) (not_lt.mp (hlater h hmake h'))
  have hsame : past ++ [Event.make call argument] =
      past' ++ [Event.make call' argument'] :=
    (List.prefix_of_prefix_length_le h.happened h'.happened (by simp [hlength])).eq_of_length
      (by simp [hlength])
  obtain ⟨rfl, hevent⟩ := List.append_inj' hsame rfl
  cases hevent
  exact ⟨rfl, rfl⟩

/-- Somewhere in the run the call made the value, or failed to. -/
def Made (make : C → Except E V) (run : List (Event C)) (call : ℕ)
    (result : Except E V) : Prop :=
  ∃ past argument, MakesAt make run past call argument ∧ make argument = result

/-- Where the cell and what calls hold come from. -/
structure Traced (make : C → Except E V) (run : List (Event C))
    (state : State V E) : Prop where
  cell : ∀ value, state.cell = some value → ∃ call, Made make run call (.ok value)
  storing : ∀ call value, state.phase call = .storing value →
    Made make run call (.ok value)
  failed : ∀ call exc, state.phase call = .releasing (.error exc) ∨
    state.phase call = .done (.error exc) → Made make run call (.error exc)

section Tracing

variable {state : State V E} {call : ℕ} {phase : Phase V E}

theorem Traced.mono (h : Traced make past state) (event : Event C) :
    Traced make (past ++ [event]) state := by
  have hlift : ∀ {call result}, Made make past call result →
      Made make (past ++ [event]) call result := by
    rintro call result ⟨before, argument, hmakes, hresult⟩
    exact ⟨before, argument, hmakes.mono (List.prefix_append _ _), hresult⟩
  constructor
  · intro value hcell
    obtain ⟨call, hmade⟩ := h.cell value hcell
    exact ⟨call, hlift hmade⟩
  · intro call value hstoring
    exact hlift (h.storing call value hstoring)
  · intro call exc hfailed
    exact hlift (h.failed call exc hfailed)

/-- A call moves to a phase that can be traced; the others stay. -/
theorem Traced.move (h : Traced make run state)
    (hstoring : ∀ value, phase = .storing value → Made make run call (.ok value))
    (hfailed : ∀ exc, phase = .releasing (.error exc) ∨ phase = .done (.error exc) →
      Made make run call (.error exc)) : Traced make run (state.move call phase) := by
  constructor
  · exact h.cell
  · intro other value hother
    rw [State.move_phase] at hother
    split_ifs at hother
    next heq => exact heq ▸ hstoring value hother
    next => exact h.storing other value hother
  · intro other exc hother
    rw [State.move_phase] at hother
    split_ifs at hother
    next heq => exact heq ▸ hfailed exc hother
    next => exact h.failed other exc hother

theorem Traced.step (h : Traced make past state) {event : Event C}
    (hmaking : ∀ call argument, event = .make call argument →
      state.phase call = .making →
        MakesAt make (past ++ [event]) past call argument) :
    Traced make (past ++ [event]) (step make state event) := by
  have hmove := step_move make state event
  generalize OnceCell.step make state event = next at hmove
  have hbefore := h.mono event
  cases hmove with
  | still _ => exact hbefore
  | finds _ _ => exact hbefore.move (by simp) (by simp)
  | queues _ => exact hbefore.move (by simp) (by simp)
  | @acquires call _ _ =>
      have hmoved : Traced make (past ++ [.acquire call]) (state.move call .holding) :=
        hbefore.move (by simp) (by simp)
      exact ⟨hmoved.cell, hmoved.storing, hmoved.failed⟩
  | refinds _ _ => exact hbefore.move (by simp) (by simp)
  | misses _ _ => exact hbefore.move (by simp) (by simp)
  | @makes call argument value hphase hmake =>
      have hmade : Made make (past ++ [.make call argument]) call (.ok value) :=
        ⟨past, argument, hmaking call argument rfl hphase, hmake⟩
      apply hbefore.move
      · intro stored hstored
        cases hstored
        exact hmade
      · simp
  | @fails call argument exc hphase hmake =>
      have hmade : Made make (past ++ [.make call argument]) call (.error exc) :=
        ⟨past, argument, hmaking call argument rfl hphase, hmake⟩
      apply hbefore.move
      · simp
      · rintro raised (hraised | hraised)
        · cases hraised
          exact hmade
        · cases hraised
  | @stores call value hphase =>
      have hmoved : Traced make (past ++ [.store call]) (state.move call .returning) :=
        hbefore.move (by simp) (by simp)
      refine ⟨?_, hmoved.storing, hmoved.failed⟩
      intro stored hstored
      cases hstored
      exact ⟨call, hbefore.storing call value hphase⟩
  | reads _ => exact hbefore.move (by simp) (by simp)
  | fetches _ => exact hbefore.move (by simp) (by simp)
  | @releases call result hphase =>
      have hmoved : Traced make (past ++ [.release call])
          (state.move call (.done result)) := by
        apply hbefore.move
        · simp
        · rintro raised (hraised | hraised)
          · cases hraised
          · cases hraised
            exact hbefore.failed call raised (Or.inl hphase)
      exact ⟨hmoved.cell, hmoved.storing, hmoved.failed⟩

end Tracing

theorem traced (make : C → Except E V) (run : List (Event C)) :
    Traced make run (after make run) := by
  induction run using List.reverseRecOn with
  | nil =>
      constructor
      · intro value hcell
        cases hcell
      · intro call value hstoring
        cases hstoring
      · rintro call exc (hfailed | hfailed)
        · cases hfailed
        · cases hfailed
  | append_singleton past event ih =>
      rw [after_snoc]
      apply ih.step
      rintro call argument rfl hmaking
      exact ⟨List.prefix_rfl, hmaking⟩

/-- What a call comes back with: the value in the cell, which some call made, or the
error it met itself when it tried. -/
theorem done_cases {call : ℕ} {result : Except E (Option V)}
    (h : (after make run).phase call = .done result) :
    (∃ value maker, result = .ok (some value) ∧ (after make run).cell = some value ∧
      Made make run maker (.ok value)) ∨
    ∃ exc, result = .error exc ∧ Made make run call (.error exc) := by
  cases result with
  | error exc => exact Or.inr ⟨exc, rfl, (traced make run).failed call exc (Or.inr h)⟩
  | ok found =>
      obtain ⟨hfound, hfilled⟩ := (sound_after make run call).agreed found (Or.inr h)
      obtain ⟨value, hvalue⟩ := Option.ne_none_iff_exists'.mp hfilled
      obtain ⟨maker, hmade⟩ := (traced make run).cell value hvalue
      exact Or.inl ⟨value, maker, by rw [hfound, hvalue], hvalue, hmade⟩

/-- A filled cell keeps its value through any run that follows. -/
theorem cell_append {value : V} (hcell : (after make run).cell = some value)
    (later : List (Event C)) : (after make (run ++ later)).cell = some value := by
  induction later using List.reverseRecOn with
  | nil => rwa [List.append_nil]
  | append_singleton later event ih =>
      rw [← List.append_assoc, after_snoc]
      exact cell_step (sound_after make _) event ih

/-- The lock is only ever held by a call that is inside. -/
theorem inside_of_holder {call : ℕ} (h : (after make run).holder = some call) :
    ((after make run).phase call).inside := by
  induction run using List.reverseRecOn generalizing call with
  | nil => cases h
  | append_singleton past event ih =>
      rw [after_snoc] at h ⊢
      have hmoves : ∀ {mover : ℕ} {phase : Phase V E},
          (phase.inside ∨ ¬ ((after make past).phase mover).inside) →
            (after make past).holder = some call →
              (((after make past).move mover phase).phase call).inside := by
        intro mover phase hphase hheld
        rw [State.move_phase]
        split_ifs with hmover
        · subst hmover
          exact hphase.resolve_right (fun hout => hout (ih hheld))
        · exact ih hheld
      have hmove := step_move make (after make past) event
      generalize step make (after make past) event = next at hmove h ⊢
      cases hmove with
      | still _ => exact ih h
      | finds hphase _ => exact hmoves (Or.inr (by rw [hphase]; exact id)) h
      | queues hphase => exact hmoves (Or.inr (by rw [hphase]; exact id)) h
      | @acquires taker _ _ =>
          cases h
          rw [State.move_phase, if_pos rfl]
          trivial
      | refinds _ _ => exact hmoves (Or.inl trivial) h
      | misses _ _ => exact hmoves (Or.inl trivial) h
      | makes _ _ => exact hmoves (Or.inl trivial) h
      | fails _ _ => exact hmoves (Or.inl trivial) h
      | stores _ => exact hmoves (Or.inl trivial) h
      | reads hphase => exact hmoves (Or.inr (by rw [hphase]; exact id)) h
      | fetches _ => exact hmoves (Or.inl trivial) h
      | releases _ => cases h

end Runs

section Progress

variable {make : C → Except E V} {state : State V E} {call other : ℕ}

/-- Some steps bring the call to its end, leave the lock free and the other calls
where they are. -/
def Leaves (make : C → Except E V) (state : State V E) (call : ℕ) : Prop :=
  ∃ steps result, (final (step make) state steps).phase call = .done result ∧
    (final (step make) state steps).holder = none ∧
    ∀ other, other ≠ call →
      (final (step make) state steps).phase other = state.phase other

theorem Leaves.of_step (event : Event C) (h : Leaves make (step make state event) call)
    (hothers : ∀ other, other ≠ call →
      (step make state event).phase other = state.phase other) :
    Leaves make state call := by
  obtain ⟨steps, result, hdone, hfree, hkept⟩ := h
  refine ⟨event :: steps, result, hdone, hfree, fun other hother => ?_⟩
  exact (hkept other hother).trans (hothers other hother)

theorem State.move_self (state : State V E) (call : ℕ) (phase : Phase V E) :
    (state.move call phase).phase call = phase := by
  rw [State.move_phase, if_pos rfl]

theorem State.move_other (state : State V E) (phase : Phase V E) (h : other ≠ call) :
    (state.move call phase).phase other = state.phase other := by
  rw [State.move_phase, if_neg h]

theorem leaves_of_releasing {result : Except E (Option V)}
    (h : state.phase call = .releasing result) : Leaves make state call := by
  have hstep : step make state (.release call) =
      { state.move call (.done result) with holder := none } := by
    simp only [step, h]
  refine ⟨[.release call], result, ?_⟩
  rw [final, List.foldl_cons, List.foldl_nil, hstep]
  exact ⟨state.move_self call _, rfl, fun other hother => state.move_other _ hother⟩

/-- A step after which the call can leave is one from which it can. -/
theorem Leaves.of_move (event : Event C) (phase : Phase V E)
    (hstep : step make state event = state.move call phase)
    (h : Leaves make (state.move call phase) call) : Leaves make state call := by
  apply Leaves.of_step event
  · rwa [hstep]
  · intro other hother
    rw [hstep, state.move_other phase hother]

theorem leaves_of_returning (h : state.phase call = .returning) :
    Leaves make state call := by
  apply Leaves.of_move (.fetch call) (.releasing (.ok state.cell))
  · simp only [step, h]
  · exact leaves_of_releasing (state.move_self call _)

theorem leaves_of_storing {value : V} (h : state.phase call = .storing value) :
    Leaves make state call := by
  have hstep : step make state (.store call) =
      { state.move call .returning with cell := some value } := by
    simp only [step, h]
  apply Leaves.of_step (.store call)
  · rw [hstep]
    exact leaves_of_returning (state.move_self call _)
  · intro other hother
    rw [hstep]
    exact state.move_other _ hother

theorem leaves_of_making [Nonempty C] (h : state.phase call = .making) :
    Leaves make state call := by
  obtain ⟨argument⟩ := ‹Nonempty C›
  cases hmake : make argument with
  | ok value =>
      apply Leaves.of_move (.make call argument) (.storing value)
      · simp only [step, h, hmake]
      · exact leaves_of_storing (state.move_self call _)
  | error exc =>
      apply Leaves.of_move (.make call argument)
        (.releasing (.error exc))
      · simp only [step, h, hmake]
      · exact leaves_of_releasing (state.move_self call _)

theorem leaves_of_holding [Nonempty C] (h : state.phase call = .holding) :
    Leaves make state call := by
  cases hcell : state.cell with
  | some value =>
      apply Leaves.of_move (.recheck call) .returning
      · simp [step, h, hcell]
      · exact leaves_of_returning (state.move_self call _)
  | none =>
      apply Leaves.of_move (.recheck call) .making
      · simp [step, h, hcell]
      · exact leaves_of_making (state.move_self call _)

/-- A call that is inside can leave by its own steps alone. -/
theorem leaves_of_inside [Nonempty C] (h : (state.phase call).inside) :
    Leaves make state call := by
  cases hphase : state.phase call with
  | holding => exact leaves_of_holding hphase
  | making => exact leaves_of_making hphase
  | storing value => exact leaves_of_storing hphase
  | returning => exact leaves_of_returning hphase
  | releasing result => exact leaves_of_releasing hphase
  | idle => rw [hphase] at h; exact h.elim
  | found => rw [hphase] at h; exact h.elim
  | queued => rw [hphase] at h; exact h.elim
  | done result => rw [hphase] at h; exact h.elim

/-- Some steps bring the call to its end. -/
def Ends (make : C → Except E V) (state : State V E) (call : ℕ) : Prop :=
  ∃ steps result, (final (step make) state steps).phase call = .done result

theorem Ends.of_steps (steps : List (Event C))
    (h : Ends make (final (step make) state steps) call) : Ends make state call := by
  obtain ⟨more, result, hdone⟩ := h
  refine ⟨steps ++ more, result, ?_⟩
  rwa [final, List.foldl_append]

theorem Leaves.ends (h : Leaves make state call) : Ends make state call := by
  obtain ⟨steps, result, hdone, _⟩ := h
  exact ⟨steps, result, hdone⟩

theorem ends_of_found (h : state.phase call = .found) : Ends make state call := by
  refine ⟨[.fetch call], .ok state.cell, ?_⟩
  simp only [final, List.foldl_cons, List.foldl_nil, step, h]
  exact state.move_self call _

theorem ends_of_queued [Nonempty C] (h : state.phase call = .queued)
    (hfree : state.holder = none) : Ends make state call := by
  apply Ends.of_steps [.acquire call]
  apply Leaves.ends
  apply leaves_of_holding
  simp only [final, List.foldl_cons, List.foldl_nil, step, h, hfree]
  exact state.move_self call _

theorem ends_of_waiting [Nonempty C]
    (hheld : ∀ holder, state.holder = some holder → (state.phase holder).inside)
    (h : state.phase call = .queued) : Ends make state call := by
  cases hholder : state.holder with
  | none => exact ends_of_queued h hholder
  | some holder =>
      have hinside := hheld holder hholder
      have hother : call ≠ holder := by
        rintro rfl
        rw [h] at hinside
        exact hinside
      have hleaves : Leaves make state holder := leaves_of_inside hinside
      obtain ⟨steps, result, _, hfree, hkept⟩ := hleaves
      apply Ends.of_steps steps
      exact ends_of_queued ((hkept call hother).trans h) hfree

/-- Whatever has happened, every call can still come to its end: none is stuck, and no
error leaves the lock behind. -/
theorem can_end [Nonempty C] (make : C → Except E V) (run : List (Event C)) (call : ℕ) :
    ∃ later result, (after make (run ++ later)).phase call = .done result := by
  have hends : Ends make (after make run) call := by
    have hheld : ∀ holder, (after make run).holder = some holder →
        ((after make run).phase holder).inside := fun _ => inside_of_holder
    cases hphase : (after make run).phase call with
    | done result => exact ⟨[], result, hphase⟩
    | found => exact ends_of_found hphase
    | queued => exact ends_of_waiting hheld hphase
    | idle =>
        apply Ends.of_steps [.check call]
        simp only [final, List.foldl_cons, List.foldl_nil, step, hphase]
        split_ifs
        · exact ends_of_found (State.move_self _ call _)
        · apply ends_of_waiting _ (State.move_self _ call _)
          intro holder hholder
          have hinside := hheld holder hholder
          rw [State.move_other]
          · exact hinside
          · rintro rfl
            rw [hphase] at hinside
            exact hinside
    | holding => exact (leaves_of_holding hphase).ends
    | making => exact (leaves_of_making hphase).ends
    | storing value => exact (leaves_of_storing hphase).ends
    | returning => exact (leaves_of_returning hphase).ends
    | releasing result => exact (leaves_of_releasing hphase).ends
  obtain ⟨later, result, hdone⟩ := hends
  refine ⟨later, result, ?_⟩
  rwa [after, final, List.foldl_append]

end Progress

end OnceCell
