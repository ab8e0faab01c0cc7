/-
An object whose methods run under one lock.  A method is a program of atomic steps,
and the steps of different calls interleave in any order.  The lock makes every run
one in which the calls run one after the other, in the order in which they left.
-/
import Mathlib.Logic.Function.Basic
import QwedA2A.EventRun

namespace Monitor

open EventRun

universe u v w x

variable {S : Type u} {I : Type v} {A : Type w} {M : Type x}

/-- What a method still has to do: give its answer, or read an input, read the state
or change it, and go on. -/
inductive Program (S : Type u) (I : Type v) (A : Type w) where
  | answer (result : A)
  | input (next : I → Program S I A)
  | fetch (next : S → Program S I A)
  | update (change : S → S) (next : Program S I A)

/-- The program run on its own: its answer and the state it leaves, from the inputs it
reads. -/
def Program.alone : Program S I A → S → List I → Option (A × S)
  | .answer result, state, [] => some (result, state)
  | .answer _, _, _ :: _ => none
  | .input next, state, reading :: rest => (next reading).alone state rest
  | .input _, _, [] => none
  | .fetch next, state, readings => (next state).alone state readings
  | .update change next, state, readings => next.alone (change state) readings

section Alone

variable (state : S) (readings : List I)

@[simp] theorem Program.alone_answer (result : A) :
    (Program.answer result : Program S I A).alone state [] = some (result, state) := rfl

@[simp] theorem Program.alone_answer_cons (result : A) (reading : I) :
    (Program.answer result : Program S I A).alone state (reading :: readings) = none := rfl

@[simp] theorem Program.alone_input (next : I → Program S I A) (reading : I) :
    (Program.input next).alone state (reading :: readings) =
      (next reading).alone state readings := rfl

@[simp] theorem Program.alone_input_nil (next : I → Program S I A) :
    (Program.input next).alone state [] = none := rfl

@[simp] theorem Program.alone_fetch (next : S → Program S I A) :
    (Program.fetch next).alone state readings = (next state).alone state readings := by
  cases readings with
  | nil => rfl
  | cons reading rest => rfl

@[simp] theorem Program.alone_update (change : S → S) (next : Program S I A) :
    (Program.update change next).alone state readings =
      next.alone (change state) readings := by
  cases readings with
  | nil => rfl
  | cons reading rest => rfl

theorem Program.alone_answer_eq_some {state next : S} {readings : List I}
    {result found : A}
    (h : (Program.answer result : Program S I A).alone state readings =
      some (found, next)) : readings = [] ∧ found = result ∧ next = state := by
  cases readings with
  | nil =>
      cases h
      exact ⟨rfl, rfl, rfl⟩
  | cons reading rest => cases h

def Program.updates (changes : List (S → S)) (next : Program S I A) : Program S I A :=
  changes.foldr .update next

@[simp] theorem Program.alone_updates (changes : List (S → S)) (next : Program S I A) :
    (Program.updates changes next).alone state readings =
      next.alone (changes.foldl (fun found change => change found) state) readings := by
  induction changes generalizing state with
  | nil => rfl
  | cons change rest ih =>
      rw [List.foldl_cons, ← ih]
      exact Program.alone_update state readings change _

end Alone

/-- One step: the rest of the program, the state, and the input if it read one. -/
def Program.step : Program S I A → S → I → Program S I A × S × List I
  | .answer result, state, _ => (.answer result, state, [])
  | .input next, state, reading => (next reading, state, [reading])
  | .fetch next, state, _ => (next state, state, [])
  | .update change next, state, _ => (next, change state, [])

theorem Program.alone_step (program : Program S I A) (state : S) (reading : I)
    (more : List I) :
    program.alone state ((program.step state reading).2.2 ++ more) =
      (program.step state reading).1.alone (program.step state reading).2.1 more := by
  cases program with
  | answer result => rfl
  | input next => rfl
  | fetch next => rfl
  | update change next => rfl

theorem Program.step_reads (program : Program S I A) (state : S) (reading : I) :
    ((program.step state reading).2.2).Sublist [reading] := by
  cases program with
  | input next => exact List.Sublist.refl _
  | answer result => exact List.nil_sublist _
  | fetch next => exact List.nil_sublist _
  | update change next => exact List.nil_sublist _

/-- How far a call has come. -/
inductive Call (S : Type u) (I : Type v) (A : Type w) (M : Type x) where
  | idle
  | waiting (method : M)
  | running (method : M) (rest : Program S I A) (readings : List I)
  | returned (method : M) (result : A)

def Call.method : Call S I A M → Option M
  | .idle => none
  | .waiting method => some method
  | .running method _ _ => some method
  | .returned method _ => some method

/-- A call that has left. -/
structure Entry (I : Type v) (A : Type w) (M : Type x) where
  caller : ℕ
  method : M
  readings : List I
  result : A

structure State (S : Type u) (I : Type v) (A : Type w) (M : Type x) where
  shared : S
  holder : Option ℕ
  call : ℕ → Call S I A M
  log : List (Entry I A M)

/-- A step of a caller; an input is at hand at each. -/
inductive Event (I : Type v) (M : Type x) where
  | enter (caller : ℕ) (method : M)
  | acquire (caller : ℕ)
  | work (caller : ℕ) (reading : I)
  | leave (caller : ℕ)

def Event.reads : Event I M → List I
  | .work _ reading => [reading]
  | _ => []

def State.move (state : State S I A M) (caller : ℕ) (call : Call S I A M) :
    State S I A M :=
  { state with call := Function.update state.call caller call }

/-- One step of a caller; one that is not its next does nothing, nor does a call for a
lock that is held. -/
def step (body : M → Program S I A) (state : State S I A M) :
    Event I M → State S I A M
  | .enter caller method =>
      match state.call caller with
      | .idle => state.move caller (.waiting method)
      | _ => state
  | .acquire caller =>
      match state.call caller, state.holder with
      | .waiting method, none =>
          { state.move caller (.running method (body method) []) with
            holder := some caller }
      | _, _ => state
  | .work caller reading =>
      match state.call caller with
      | .running method rest readings =>
          let result := rest.step state.shared reading
          { state.move caller (.running method result.1 (readings ++ result.2.2)) with
            shared := result.2.1 }
      | _ => state
  | .leave caller =>
      match state.call caller with
      | .running method (.answer result) readings =>
          { state.move caller (.returned method result) with
            holder := none
            log := state.log ++ [⟨caller, method, readings, result⟩] }
      | _ => state

def fresh (start : S) : State S I A M where
  shared := start
  holder := none
  call := fun _ => .idle
  log := []

def after (body : M → Program S I A) (start : S) (run : List (Event I M)) :
    State S I A M :=
  final (step body) (fresh start) run

theorem after_snoc (body : M → Program S I A) (start : S) (past : List (Event I M))
    (event : Event I M) :
    after body start (past ++ [event]) = step body (after body start past) event :=
  final_snoc (step body) (fresh start) past event

/-- What a step can do. -/
inductive Move (body : M → Program S I A) (state : State S I A M) :
    Event I M → State S I A M → Prop
  | still (event : Event I M) : Move body state event state
  | enters {caller : ℕ} {method : M} (h : state.call caller = .idle) :
      Move body state (.enter caller method) (state.move caller (.waiting method))
  | acquires {caller : ℕ} {method : M} (h : state.call caller = .waiting method)
      (hfree : state.holder = none) :
      Move body state (.acquire caller)
        { state.move caller (.running method (body method) []) with
          holder := some caller }
  | works {caller : ℕ} {method : M} {rest : Program S I A} {readings : List I}
      (h : state.call caller = .running method rest readings) (reading : I) :
      Move body state (.work caller reading)
        { state.move caller (.running method (rest.step state.shared reading).1
            (readings ++ (rest.step state.shared reading).2.2)) with
          shared := (rest.step state.shared reading).2.1 }
  | leaves {caller : ℕ} {method : M} {result : A} {readings : List I}
      (h : state.call caller = .running method (.answer result) readings) :
      Move body state (.leave caller)
        { state.move caller (.returned method result) with
          holder := none
          log := state.log ++ [⟨caller, method, readings, result⟩] }

theorem step_move (body : M → Program S I A) (state : State S I A M)
    (event : Event I M) : Move body state event (step body state event) := by
  cases event with
  | enter caller method =>
      rw [step]
      split
      next h => exact .enters h
      next => exact .still _
  | acquire caller =>
      rw [step]
      split
      next h hfree => exact .acquires h hfree
      next => exact .still _
  | work caller reading =>
      rw [step]
      split
      next h => exact .works h reading
      next => exact .still _
  | leave caller =>
      rw [step]
      split
      next h => exact .leaves h
      next => exact .still _

theorem State.move_call (state : State S I A M) (caller : ℕ) (call : Call S I A M)
    (other : ℕ) : (state.move caller call).call other =
      if other = caller then call else state.call other :=
  Function.update_apply state.call caller call other

theorem State.move_self (state : State S I A M) (caller : ℕ) (call : Call S I A M) :
    (state.move caller call).call caller = call := by
  rw [State.move_call, if_pos rfl]

theorem State.move_other (state : State S I A M) {caller other : ℕ}
    (call : Call S I A M) (h : other ≠ caller) :
    (state.move caller call).call other = state.call other := by
  rw [State.move_call, if_neg h]

/-- The logged calls, run one after the other, lead from one state to another. -/
inductive Replays (body : M → Program S I A) (start : S) :
    List (Entry I A M) → S → Prop
  | nil : Replays body start [] start
  | snoc {log : List (Entry I A M)} {state next : S} {entry : Entry I A M}
      (h : Replays body start log state)
      (hentry : (body entry.method).alone state entry.readings =
        some (entry.result, next)) :
      Replays body start (log ++ [entry]) next

theorem Replays.split {body : M → Program S I A} {start state : S}
    {before later : List (Entry I A M)} {entry : Entry I A M}
    (h : Replays body start (before ++ entry :: later) state) :
    ∃ met next, Replays body start before met ∧
      (body entry.method).alone met entry.readings = some (entry.result, next) := by
  induction later using List.reverseRecOn generalizing state with
  | nil =>
      generalize hlog : before ++ [entry] = log at h
      cases h with
      | nil => exact absurd hlog (by simp)
      | snoc hbefore hentry =>
          obtain ⟨rfl, hlast⟩ := List.append_inj' hlog rfl
          cases hlast
          exact ⟨_, _, hbefore, hentry⟩
  | append_singleton later last ih =>
      rw [← List.cons_append, ← List.append_assoc] at h
      generalize hlog : before ++ entry :: later ++ [last] = log at h
      cases h with
      | nil => exact absurd hlog (by simp)
      | snoc hbefore hentry =>
          obtain ⟨rfl, _⟩ := List.append_inj' hlog rfl
          exact ih hbefore

/-- What holds throughout, for the state the logged calls lead to. -/
structure Sound (body : M → Program S I A) (start : S) (state : State S I A M)
    (base : S) : Prop where
  replays : Replays body start state.log base
  free : state.holder = none → state.shared = base
  held : ∀ caller method rest readings,
    state.call caller = .running method rest readings →
      state.holder = some caller ∧ ∀ more,
        (body method).alone base (readings ++ more) = rest.alone state.shared more
  running : ∀ caller, state.holder = some caller →
    ∃ method rest readings, state.call caller = .running method rest readings
  logged : ∀ caller method result, state.call caller = .returned method result →
    ∃ entry ∈ state.log,
      entry.caller = caller ∧ entry.method = method ∧ entry.result = result
  returned : ∀ entry ∈ state.log,
    state.call entry.caller = .returned entry.method entry.result
  once : (state.log.map Entry.caller).Nodup

section Invariant

variable {body : M → Program S I A} {start base : S} {state : State S I A M}
  {caller : ℕ} {call : Call S I A M}

theorem sound_fresh (body : M → Program S I A) (start : S) :
    Sound body start (fresh start) start where
  replays := .nil
  free _ := rfl
  held caller method rest readings h := by cases h
  running caller h := by cases h
  logged caller method result h := by cases h
  returned entry h := by cases h
  once := List.nodup_nil

/-- A call that is neither in the log nor inside moves on outside. -/
theorem Sound.move (h : Sound body start state base)
    (hnew : ∀ method result, state.call caller ≠ .returned method result)
    (hout : ∀ method rest readings, state.call caller ≠ .running method rest readings)
    (hrunning : ∀ method rest readings, call ≠ .running method rest readings)
    (hreturned : ∀ method result, call ≠ .returned method result) :
    Sound body start (state.move caller call) base where
  replays := h.replays
  free := h.free
  held other method rest readings hother := by
    rw [State.move_call] at hother
    split_ifs at hother
    · exact absurd hother (hrunning method rest readings)
    · exact h.held other method rest readings hother
  running other hother := by
    obtain ⟨method, rest, readings, hcall⟩ := h.running other hother
    refine ⟨method, rest, readings, ?_⟩
    rwa [State.move_other]
    rintro rfl
    exact hout method rest readings hcall
  logged other method result hother := by
    rw [State.move_call] at hother
    split_ifs at hother
    · exact absurd hother (hreturned method result)
    · exact h.logged other method result hother
  returned entry hentry := by
    have hcall := h.returned entry hentry
    rwa [State.move_other]
    intro hcaller
    rw [hcaller] at hcall
    exact hnew entry.method entry.result hcall
  once := h.once

theorem Sound.acquire (h : Sound body start state base) {method : M}
    (hwaiting : state.call caller = .waiting method) (hfree : state.holder = none) :
    Sound body start
      { state.move caller (.running method (body method) []) with
        holder := some caller } base where
  replays := h.replays
  free hnone := by cases hnone
  held other found rest readings hother := by
    rw [State.move_call] at hother
    split_ifs at hother with hcaller
    · cases hother
      subst hcaller
      refine ⟨rfl, fun more => ?_⟩
      rw [List.nil_append]
      change (body method).alone base more = (body method).alone state.shared more
      rw [h.free hfree]
    · have hheld := (h.held other found rest readings hother).1
      rw [hfree] at hheld
      cases hheld
  running other hother := by
    cases hother
    exact ⟨method, body method, [], state.move_self caller _⟩
  logged other found result hother := by
    rw [State.move_call] at hother
    split_ifs at hother
    exact h.logged other found result hother
  returned entry hentry := by
    have hcall := h.returned entry hentry
    rw [State.move_other]
    · exact hcall
    · intro hcaller
      rw [hcaller, hwaiting] at hcall
      cases hcall
  once := h.once

theorem Sound.work (h : Sound body start state base) {method : M}
    {rest : Program S I A} {readings : List I}
    (hrunning : state.call caller = .running method rest readings) (reading : I) :
    Sound body start
      { state.move caller (.running method (rest.step state.shared reading).1
          (readings ++ (rest.step state.shared reading).2.2)) with
        shared := (rest.step state.shared reading).2.1 } base where
  replays := h.replays
  free hfree := by
    have hheld := (h.held caller method rest readings hrunning).1
    rw [show state.holder = none from hfree] at hheld
    cases hheld
  held other found more readings' hother := by
    have hhere := h.held caller method rest readings hrunning
    rw [State.move_call] at hother
    split_ifs at hother with hcaller
    · cases hother
      subst hcaller
      refine ⟨hhere.1, fun later => ?_⟩
      rw [List.append_assoc, hhere.2, Program.alone_step]
    · have hheld := (h.held other found more readings' hother).1
      rw [hhere.1] at hheld
      exact absurd (Option.some.inj hheld).symm hcaller
  running other hother := by
    have hhere := (h.held caller method rest readings hrunning).1
    rw [show state.holder = some other from hother] at hhere
    cases hhere
    exact ⟨_, _, _, state.move_self caller _⟩
  logged other found result hother := by
    rw [State.move_call] at hother
    split_ifs at hother
    exact h.logged other found result hother
  returned entry hentry := by
    have hcall := h.returned entry hentry
    rw [State.move_other]
    · exact hcall
    · intro hcaller
      rw [hcaller, hrunning] at hcall
      cases hcall
  once := h.once

/-- A call that leaves has done what it does on its own. -/
theorem Sound.leave (h : Sound body start state base) {method : M} {result : A}
    {readings : List I}
    (hrunning : state.call caller = .running method (.answer result) readings) :
    Sound body start
      { state.move caller (.returned method result) with
        holder := none
        log := state.log ++ [⟨caller, method, readings, result⟩] } state.shared where
  replays := by
    refine h.replays.snoc ?_
    have halone := (h.held caller method _ readings hrunning).2 []
    rwa [List.append_nil] at halone
  free _ := rfl
  held other found rest readings' hother := by
    have hhere := (h.held caller method _ readings hrunning).1
    rw [State.move_call] at hother
    split_ifs at hother with hcaller
    have hheld := (h.held other found rest readings' hother).1
    rw [hhere] at hheld
    exact absurd (Option.some.inj hheld).symm hcaller
  running other hother := by cases hother
  logged other found answer hother := by
    rw [State.move_call] at hother
    split_ifs at hother with hcaller
    · cases hother
      exact ⟨_, List.mem_append_right _ (List.mem_singleton_self _), hcaller.symm,
        rfl, rfl⟩
    · obtain ⟨entry, hentry, hfound⟩ := h.logged other found answer hother
      exact ⟨entry, List.mem_append_left _ hentry, hfound⟩
  returned entry hentry := by
    rcases List.mem_append.mp hentry with hold | hlast
    · have hcall := h.returned entry hold
      rw [State.move_other]
      · exact hcall
      · intro hcaller
        rw [hcaller, hrunning] at hcall
        cases hcall
    · rw [List.mem_singleton] at hlast
      subst hlast
      exact state.move_self caller _
  once := by
    rw [List.map_append, List.nodup_append]
    refine ⟨h.once, List.nodup_singleton _, ?_⟩
    rintro other hother last hlast rfl
    obtain ⟨entry, hentry, hcaller⟩ := List.mem_map.mp hother
    have hcall := h.returned entry hentry
    rw [hcaller, List.mem_singleton.mp hlast, hrunning] at hcall
    cases hcall

theorem Sound.step (h : Sound body start state base) (event : Event I M) :
    ∃ next, Sound body start (step body state event) next := by
  have hmove := step_move body state event
  generalize Monitor.step body state event = stepped at hmove
  cases hmove with
  | still _ => exact ⟨base, h⟩
  | enters hidle =>
      refine ⟨base, h.move ?_ ?_ ?_ ?_⟩
      · simp [hidle]
      · simp [hidle]
      · simp
      · simp
  | acquires hwaiting hfree => exact ⟨base, h.acquire hwaiting hfree⟩
  | works hrunning reading => exact ⟨base, h.work hrunning reading⟩
  | leaves hrunning => exact ⟨_, h.leave hrunning⟩

end Invariant

/-- Every run is one in which the calls that have left ran one after the other. -/
theorem sound_after (body : M → Program S I A) (start : S) (run : List (Event I M)) :
    ∃ base, Sound body start (after body start run) base := by
  induction run using List.reverseRecOn with
  | nil => exact ⟨start, sound_fresh body start⟩
  | append_singleton past event ih =>
      obtain ⟨base, hsound⟩ := ih
      rw [after_snoc]
      exact hsound.step event

section Runs

variable {body : M → Program S I A} {start : S} {run past : List (Event I M)}

theorem log_step (body : M → Program S I A) (state : State S I A M)
    (event : Event I M) : state.log <+: (step body state event).log := by
  have hmove := step_move body state event
  generalize step body state event = stepped at hmove
  cases hmove with
  | still _ => exact List.prefix_rfl
  | enters _ => exact List.prefix_rfl
  | acquires _ _ => exact List.prefix_rfl
  | works _ _ => exact List.prefix_rfl
  | leaves _ => exact List.prefix_append _ _

/-- A call that has left stays before those that leave later. -/
theorem log_append (body : M → Program S I A) (start : S)
    (past later : List (Event I M)) :
    (after body start past).log <+: (after body start (past ++ later)).log := by
  induction later using List.reverseRecOn with
  | nil =>
      rw [List.append_nil]
  | append_singleton later event ih =>
      rw [← List.append_assoc, after_snoc]
      exact ih.trans (log_step body _ event)

theorem entered_of_method {caller : ℕ} {method : M}
    (h : ((after body start run).call caller).method = some method) :
    .enter caller method ∈ run := by
  induction run using List.reverseRecOn with
  | nil => cases h
  | append_singleton past event ih =>
      rw [after_snoc] at h
      have hmove := step_move body (after body start past) event
      generalize step body (after body start past) event = stepped at hmove h
      have hkeeps : ∀ {mover : ℕ} {call : Call S I A M},
          call.method = ((after body start past).call mover).method →
            (((after body start past).move mover call).call caller).method =
                some method →
              .enter caller method ∈ past ++ [event] := by
        intro mover call hsame hcall
        rw [State.move_call] at hcall
        split_ifs at hcall with hmover
        · rw [hsame, ← hmover] at hcall
          exact List.mem_append_left _ (ih hcall)
        · exact List.mem_append_left _ (ih hcall)
      cases hmove with
      | still _ => exact List.mem_append_left _ (ih h)
      | @enters mover entered hidle =>
          rw [State.move_call] at h
          split_ifs at h with hmover
          · cases h
            subst hmover
            exact List.mem_append_right _ (List.mem_singleton_self _)
          · exact List.mem_append_left _ (ih h)
      | acquires hwaiting _ => exact hkeeps (by rw [hwaiting]; rfl) h
      | works hrunning _ => exact hkeeps (by rw [hrunning]; rfl) h
      | leaves hrunning => exact hkeeps (by rw [hrunning]; rfl) h

/-- Of two callers' entries in a log one stands before the other. -/
theorem log_order {log before rest before' rest' : List (Entry I A M)}
    {entry entry' : Entry I A M} (h : log = before ++ entry :: rest)
    (h' : log = before' ++ entry' :: rest') (hne : entry.caller ≠ entry'.caller) :
    (∃ between, log = before ++ entry :: between ++ entry' :: rest') ∨
      ∃ between, log = before' ++ entry' :: between ++ entry :: rest := by
  rcases List.append_eq_append_iff.mp (h.symm.trans h') with
    ⟨tail, hbefore', htail⟩ | ⟨tail, hbefore, htail⟩
  · cases tail with
    | nil =>
        cases htail
        exact absurd rfl hne
    | cons head between =>
        cases htail
        left
        exact ⟨between, by rw [h', hbefore']⟩
  · cases tail with
    | nil =>
        cases htail
        exact absurd rfl hne
    | cons head between =>
        cases htail
        right
        exact ⟨between, by rw [h, hbefore]⟩

theorem entered_of_log {entry : Entry I A M} (h : entry ∈ (after body start run).log) :
    .enter entry.caller entry.method ∈ run := by
  obtain ⟨base, hsound⟩ := sound_after body start run
  have hmethod : ((after body start run).call entry.caller).method =
      some entry.method := by
    rw [hsound.returned entry h]
    rfl
  exact entered_of_method hmethod

/-- A call that had not returned when others had comes after them in the log. -/
theorem log_prefix_before {later : List (Event I M)} {caller : ℕ} {method : M} {result : A}
    {before rest : List (Entry I A M)} {readings : List I}
    (hpending : ∀ method result,
      (after body start past).call caller ≠ .returned method result)
    (hlog : (after body start (past ++ later)).log =
      before ++ ⟨caller, method, readings, result⟩ :: rest) :
    (after body start past).log <+: before := by
  have hprefix := log_append body start past later
  rw [hlog] at hprefix
  have hnew : ⟨caller, method, readings, result⟩ ∉ (after body start past).log := by
    intro hmem
    obtain ⟨base, hsound⟩ := sound_after body start past
    exact hpending method result (hsound.returned _ hmem)
  have hentry : before ++ [⟨caller, method, readings, result⟩] <+:
      before ++ ⟨caller, method, readings, result⟩ :: rest := by
    refine ⟨rest, ?_⟩
    rw [List.append_assoc]
    rfl
  rcases List.prefix_or_prefix_of_prefix hprefix hentry with hshort | hlong
  · rcases List.prefix_concat_iff.mp hshort with hsame | hbefore
    · rw [hsame] at hnew
      exact absurd (List.mem_append_right _ (List.mem_singleton_self _)) hnew
    · exact hbefore
  · exact absurd (hlong.subset (List.mem_append_right _ (List.mem_singleton_self _))) hnew

/-- A call returned when another had not. -/
def ReturnedBefore (body : M → Program S I A) (start : S) (run : List (Event I M))
    (first second : ℕ) : Prop :=
  ∃ past later, run = past ++ later ∧
    (∃ method result, (after body start past).call first = .returned method result) ∧
    ∀ method result, (after body start past).call second ≠ .returned method result

theorem not_later_of_returnedBefore {first second : ℕ} {method : M} {result : A}
    {before rest : List (Entry I A M)} {readings : List I}
    (h : ReturnedBefore body start run first second)
    (hlog : (after body start run).log =
      before ++ ⟨second, method, readings, result⟩ :: rest) :
    ∀ entry ∈ rest, entry.caller ≠ first := by
  obtain ⟨past, later, rfl, ⟨_, _, hreturned⟩, hpending⟩ := h
  obtain ⟨base, hsound⟩ := sound_after body start past
  obtain ⟨logged, hlogged, hcaller, _⟩ := hsound.logged _ _ _ hreturned
  have hbefore : logged ∈ before := (log_prefix_before hpending hlog).subset hlogged
  obtain ⟨_, hwhole⟩ := sound_after body start (past ++ later)
  have honce := hwhole.once
  rw [hlog, List.map_append, List.nodup_append] at honce
  intro entry hentry hsame
  refine honce.2.2 logged.caller (List.mem_map_of_mem hbefore) entry.caller ?_
    (hcaller.trans hsame.symm)
  exact List.mem_map_of_mem (List.mem_cons_of_mem _ hentry)

/-- The inputs of the logged calls, followed by those of a call that is inside, were
read in that order. -/
structure Ordered (run : List (Event I M)) (state : State S I A M) : Prop where
  log : (state.log.flatMap Entry.readings).Sublist (run.flatMap Event.reads)
  inside : ∀ caller method rest readings,
    state.call caller = .running method rest readings →
      (state.log.flatMap Entry.readings ++ readings).Sublist (run.flatMap Event.reads)

theorem Ordered.mono {state : State S I A M} (h : Ordered past state)
    (event : Event I M) : Ordered (past ++ [event]) state := by
  have hlonger : (past.flatMap Event.reads).Sublist
      ((past ++ [event]).flatMap Event.reads) := by
    rw [List.flatMap_append]
    exact List.sublist_append_left _ _
  exact ⟨h.log.trans hlonger,
    fun caller method rest readings hcall =>
      (h.inside caller method rest readings hcall).trans hlonger⟩

theorem ordered_after (body : M → Program S I A) (start : S) (run : List (Event I M)) :
    Ordered run (after body start run) := by
  induction run using List.reverseRecOn with
  | nil => exact ⟨List.Sublist.refl _, fun _ _ _ _ hcall => by cases hcall⟩
  | append_singleton past event ih =>
      rw [after_snoc]
      have hbefore := ih.mono event
      have hmove := step_move body (after body start past) event
      generalize step body (after body start past) event = stepped at hmove
      cases hmove with
      | still _ => exact hbefore
      | enters hidle =>
          refine ⟨hbefore.log, fun caller method rest readings hcall => ?_⟩
          rw [State.move_call] at hcall
          split_ifs at hcall
          exact hbefore.inside caller method rest readings hcall
      | acquires hwaiting hfree =>
          refine ⟨hbefore.log, fun caller method rest readings hcall => ?_⟩
          rw [State.move_call] at hcall
          split_ifs at hcall
          · cases hcall
            rw [List.append_nil]
            exact hbefore.log
          · exact hbefore.inside caller method rest readings hcall
      | @works mover method rest readings hrunning reading =>
          refine ⟨hbefore.log, fun caller found more readings' hcall => ?_⟩
          rw [State.move_call] at hcall
          split_ifs at hcall
          · cases hcall
            rw [List.flatMap_append, ← List.append_assoc]
            apply (ih.inside mover method rest readings hrunning).append
            simpa [Event.reads] using rest.step_reads _ reading
          · exact hbefore.inside caller found more readings' hcall
      | @leaves mover method result readings hrunning =>
          have hlog := hbefore.inside mover method _ readings hrunning
          refine ⟨?_, fun caller found rest readings' hcall => ?_⟩
          · rw [List.flatMap_append]
            simpa using hlog
          · obtain ⟨base, hsound⟩ := sound_after body start past
            rw [State.move_call] at hcall
            split_ifs at hcall with hmover
            have hhere := (hsound.held mover method _ readings hrunning).1
            have hother := (hsound.held caller found rest readings' hcall).1
            rw [hhere] at hother
            exact absurd (Option.some.inj hother).symm hmover

end Runs

section Implementation

variable {O : Type*} {body : M → Program S I A} {perform : S → O → S}
  {operation : M → List I → List O} {answer : S → M → List I → A} {start : S}

/-- On its own each method performs its operations and gives its answer. -/
def Implements (body : M → Program S I A) (perform : S → O → S)
    (operation : M → List I → List O) (answer : S → M → List I → A) : Prop :=
  ∀ {method : M} {state next : S} {readings : List I} {result : A},
    (body method).alone state readings = some (result, next) →
      result = answer state method readings ∧
        next = final perform state (operation method readings)

def operations (operation : M → List I → List O) (log : List (Entry I A M)) : List O :=
  log.flatMap fun entry => operation entry.method entry.readings

theorem operations_snoc (operation : M → List I → List O) (log : List (Entry I A M))
    (entry : Entry I A M) :
    operations operation (log ++ [entry]) =
      operations operation log ++ operation entry.method entry.readings := by
  rw [operations, operations, List.flatMap_append, List.flatMap_singleton]

theorem Implements.replays (h : Implements body perform operation answer)
    {log : List (Entry I A M)} {state : S} (hlog : Replays body start log state) :
    state = final perform start (operations operation log) := by
  induction hlog with
  | nil => rfl
  | @snoc log met next entry _ hentry ih =>
      rw [operations_snoc, (h hentry).2, ih, final, final, final, List.foldl_append]

/-- A logged call gave its answer, after the operations of the calls that left before
it. -/
theorem Implements.logged (h : Implements body perform operation answer)
    {run : List (Event I M)} {before rest : List (Entry I A M)} {entry : Entry I A M}
    (hlog : (after body start run).log = before ++ entry :: rest) :
    entry.result = answer (final perform start (operations operation before)) entry.method
      entry.readings := by
  obtain ⟨base, hsound⟩ := sound_after body start run
  have hreplays := hsound.replays
  rw [hlog] at hreplays
  obtain ⟨met, next, hbefore, halone⟩ := hreplays.split
  rw [← h.replays hbefore]
  exact (h halone).1

theorem Implements.answered (h : Implements body perform operation answer)
    {run : List (Event I M)} {caller : ℕ} {method : M} {result : A}
    (hcall : (after body start run).call caller = .returned method result) :
    ∃ before readings rest,
      (after body start run).log = before ++ ⟨caller, method, readings, result⟩ :: rest ∧
      result = answer (final perform start (operations operation before)) method
        readings := by
  obtain ⟨base, hsound⟩ := sound_after body start run
  obtain ⟨⟨_, _, readings, _⟩, hmem, rfl, rfl, rfl⟩ :=
    hsound.logged caller method result hcall
  obtain ⟨before, rest, hlog⟩ := List.append_of_mem hmem
  exact ⟨before, readings, rest, hlog, h.logged hlog⟩

/-- While nobody is inside, the state is as the operations of the calls that have left
make it. -/
theorem Implements.shared (h : Implements body perform operation answer)
    {run : List (Event I M)} (hfree : (after body start run).holder = none) :
    (after body start run).shared =
      final perform start (operations operation (after body start run).log) := by
  obtain ⟨base, hsound⟩ := sound_after body start run
  rw [hsound.free hfree]
  exact h.replays hsound.replays

end Implementation

section Progress

variable {body : M → Program S I A} {start : S} {state : State S I A M}
  {caller other : ℕ} {method : M}

/-- Some steps let the call return, leave the lock free and the other calls where they
are. -/
def Leaves (body : M → Program S I A) (state : State S I A M) (caller : ℕ)
    (method : M) : Prop :=
  ∃ steps result,
    (final (step body) state steps).call caller = .returned method result ∧
    (final (step body) state steps).holder = none ∧
    ∀ other, other ≠ caller →
      (final (step body) state steps).call other = state.call other

/-- A call can leave if it can after a step of its work. -/
theorem Leaves.of_work {rest : Program S I A} {readings : List I} (reading : I)
    (h : state.call caller = .running method rest readings)
    (hstepped : ∀ next : State S I A M,
      next.shared = (rest.step state.shared reading).2.1 →
        next.call caller = .running method (rest.step state.shared reading).1
          (readings ++ (rest.step state.shared reading).2.2) →
          Leaves body next caller method) :
    Leaves body state caller method := by
  have hwork : step body state (.work caller reading) =
      { state.move caller (.running method (rest.step state.shared reading).1
          (readings ++ (rest.step state.shared reading).2.2)) with
        shared := (rest.step state.shared reading).2.1 } := by
    simp only [step, h]
  obtain ⟨steps, result, hdone, hfree, hkept⟩ :=
    hstepped (step body state (.work caller reading)) (by rw [hwork])
      (by rw [hwork]; exact state.move_self caller _)
  refine ⟨.work caller reading :: steps, result, hdone, hfree, fun other hother => ?_⟩
  refine (hkept other hother).trans ?_
  rw [hwork]
  exact state.move_other _ hother

/-- A call that is inside can leave by its own steps alone. -/
theorem leaves_of_running [Nonempty I] {rest : Program S I A} {readings : List I}
    (h : state.call caller = .running method rest readings) :
    Leaves body state caller method := by
  obtain ⟨reading⟩ := ‹Nonempty I›
  induction rest generalizing state readings with
  | answer result =>
      have hleave : step body state (.leave caller) =
          { state.move caller (.returned method result) with
            holder := none
            log := state.log ++ [⟨caller, method, readings, result⟩] } := by
        simp only [step, h]
      refine ⟨[.leave caller], result, ?_⟩
      rw [final, List.foldl_cons, List.foldl_nil, hleave]
      exact ⟨state.move_self caller _, rfl, fun other hother => state.move_other _ hother⟩
  | input next ih => exact .of_work reading h fun _ _ hcall => ih reading hcall
  | fetch next ih => exact .of_work reading h fun _ _ hcall => ih state.shared hcall
  | update change next ih => exact .of_work reading h fun _ _ hcall => ih hcall

/-- A call that has entered can still return, whatever has happened. -/
theorem can_return [Nonempty I] (body : M → Program S I A) (start : S)
    (run : List (Event I M))
    (h : ((after body start run).call caller).method = some method) :
    ∃ later result,
      (after body start (run ++ later)).call caller = .returned method result := by
  have happend : ∀ steps, after body start (run ++ steps) =
      final (step body) (after body start run) steps := by
    intro steps
    rw [after, after, final, final, final, List.foldl_append]
  have hacquires : ∀ {state : State S I A M}, state.call caller = .waiting method →
      state.holder = none → ∃ steps result,
        (final (step body) state steps).call caller = .returned method result := by
    intro state hwaiting hfree
    have hstep : step body state (.acquire caller) =
        { state.move caller (.running method (body method) []) with
          holder := some caller } := by
      simp only [step, hwaiting, hfree]
    have hleaves : Leaves body (step body state (.acquire caller)) caller method := by
      rw [hstep]
      exact leaves_of_running (state.move_self caller _)
    obtain ⟨steps, result, hdone, _⟩ := hleaves
    exact ⟨.acquire caller :: steps, result, hdone⟩
  suffices hends : ∃ steps result, (final (step body) (after body start run) steps).call
      caller = .returned method result by
    obtain ⟨steps, result, hdone⟩ := hends
    exact ⟨steps, result, by rw [happend, hdone]⟩
  cases hcall : (after body start run).call caller with
  | idle => rw [hcall] at h; cases h
  | returned found result =>
      rw [hcall] at h
      cases h
      exact ⟨[], result, hcall⟩
  | running found rest readings =>
      rw [hcall] at h
      cases h
      have hleaves : Leaves body (after body start run) caller method :=
        leaves_of_running hcall
      obtain ⟨steps, result, hdone, _⟩ := hleaves
      exact ⟨steps, result, hdone⟩
  | waiting found =>
      rw [hcall] at h
      cases h
      cases hholder : (after body start run).holder with
      | none => exact hacquires hcall hholder
      | some holder =>
          obtain ⟨base, hsound⟩ := sound_after body start run
          obtain ⟨held, rest, readings, hrunning⟩ := hsound.running holder hholder
          have hleaves : Leaves body (after body start run) holder held :=
            leaves_of_running hrunning
          obtain ⟨steps, result, _, hfree, hkept⟩ := hleaves
          have hother : caller ≠ holder := by
            rintro rfl
            rw [hcall] at hrunning
            cases hrunning
          obtain ⟨more, answer, hdone⟩ :=
            hacquires ((hkept caller hother).trans hcall) hfree
          refine ⟨steps ++ more, answer, ?_⟩
          rwa [final, List.foldl_append]

end Progress

end Monitor
