/-
What a call of the engine pool reports.  An error names what the engine or the
submission raised and a timeout what the clock did, as long as no waiter wakes
from its timeout to an engine error.
-/
import QwedA2A.EngineSlots

namespace QwedA2A

open EventRun

namespace EnginePool

/-- What one step does to a call's coroutine and job; `next` is the call after. -/
inductive Effect (free : ℕ) (call next : Call) : CallEvent → Prop
  | still {event : CallEvent} (caller : next.caller = call.caller)
      (job : next.job = call.job) (abandoned : next.abandoned = call.abandoned) :
      Effect free call next event
  | proceeds {event : CallEvent} (before : call.caller.hasLeft = false)
      (caller : next.caller = .holding ∨ next.caller = .submitting ∨
        next.caller = .awaiting false ∨ next.caller = .left (.engine .busy))
      (job : next.job = call.job ∨ next.job = .queued)
      (abandoned : next.abandoned = call.abandoned) : Effect free call next event
  | refuses {exc raised : PyExc}
      (before : call.caller = .holding ∨ call.caller = .submitting)
      (caller : next.caller = .left (.engine (.raised raised)))
      (kept : free < engineSlots → raised = exc) (job : next.job = call.job)
      (abandoned : next.abandoned = call.abandoned) :
      Effect free call next (.submitRaises exc)
  | works {event : CallEvent} (caller : next.caller = call.caller)
      (job : next.job = .started ∨ next.job = .running)
      (abandoned : next.abandoned = call.abandoned) : Effect free call next event
  | skips {event : CallEvent} (before : call.abandoned = true)
      (caller : next.caller = call.caller) (job : next.job = .skipping)
      (abandoned : next.abandoned = call.abandoned) : Effect free call next event
  | ends {outcome : Except PyExc EngineResult} {found : JobOutcome}
      (before : call.job = .running) (caller : next.caller = call.caller)
      (job : next.job = .done found)
      (kept : free < engineSlots → found = outcome.map some)
      (abandoned : next.abandoned = call.abandoned) :
      Effect free call next (.engineEnds outcome)
  | drops {event : CallEvent} {found : JobOutcome} (before : call.job = .skipping)
      (caller : next.caller = call.caller) (job : next.job = .done found)
      (abandoned : next.abandoned = call.abandoned) : Effect free call next event
  | expires {expired : Bool} (before : call.caller = .awaiting expired)
      (caller : next.caller = .awaiting true) (job : next.job = call.job)
      (abandoned : next.abandoned = call.abandoned) :
      Effect free call next .budgetExpires
  | resumes {expired : Bool} {outcome : JobOutcome}
      (before : call.caller = .awaiting expired) (done : call.job = .done outcome)
      (caller : next.caller = .left (Call.resultOf outcome))
      (job : next.job = call.job) : Effect free call next .resumesWithResult
  | timesOut (before : call.caller = .awaiting true)
      (caller : next.caller = .left (Call.timeoutOf call.arrived call.job))
      (job : next.job = call.job) : Effect free call next .resumesWithTimeout
  | cancels {expired : Bool} (before : call.caller = .awaiting expired)
      (caller : next.caller = .left .cancelled) (job : next.job = call.job) :
      Effect free call next .cancelled

theorem Call.failSubmit_effect {free : ℕ} {call : Call}
    (before : call.caller = .holding ∨ call.caller = .submitting) (exc : PyExc) :
    Effect free call (call.failSubmit free exc).2 (.submitRaises exc) := by
  rw [Call.failSubmit]
  split
  next hroom => exact .refuses before rfl (fun _ => rfl) rfl rfl
  next hfull =>
    refine .refuses before rfl (fun hroom => ?_) rfl rfl
    rw [releaseSlot_of_room hroom] at hfull
    cases hfull

theorem Call.finishJob_effect {free : ℕ} {call : Call} (before : call.job = .running)
    (outcome : Except PyExc EngineResult) :
    Effect free call (call.finishJob free (outcome.map some)).2
      (.engineEnds outcome) := by
  rw [Call.finishJob]
  split
  next hroom => exact .ends before rfl rfl (fun _ => rfl) rfl
  next hfull =>
    refine .ends before rfl rfl (fun hroom => ?_) rfl
    rw [releaseSlot_of_room hroom] at hfull
    cases hfull

theorem Call.step_effect (closed : Bool) (free : ℕ) (call : Call)
    (event : CallEvent) :
    Effect free call (call.step closed free event).2 event := by
  have hbranch := Call.step_branch closed free call event
  generalize call.step closed free event = next at hbranch
  cases hbranch with
  | still => exact .still rfl rfl rfl
  | busy hcaller _ =>
      exact .proceeds (by rw [hcaller]; rfl) (by simp [leave, note]) (Or.inl rfl) rfl
  | acquires hcaller _ =>
      exact .proceeds (by rw [hcaller]; rfl) (by simp [note]) (Or.inl rfl) rfl
  | queues hcaller _ =>
      exact .proceeds (by rw [hcaller]; rfl) (by simp) (Or.inr rfl) rfl
  | awaits hcaller =>
      exact .proceeds (by rw [hcaller]; rfl) (by simp) (Or.inl rfl) rfl
  | fails exc hcaller => exact failSubmit_effect hcaller exc
  | starts _ => exact .works rfl (Or.inl rfl) rfl
  | skips _ habandoned => exact .skips habandoned rfl rfl rfl
  | enters _ _ => exact .works rfl (Or.inr rfl) rfl
  | ends outcome hjob => exact finishJob_effect hjob outcome
  | drops hjob =>
      rw [finishJob]
      split
      · exact .drops hjob rfl rfl rfl
      · exact .drops hjob rfl rfl rfl
  | arrives _ => exact .still rfl rfl rfl
  | expires hcaller => exact .expires hcaller rfl rfl rfl
  | resumes hcaller hjob _ => exact .resumes hcaller hjob rfl rfl
  | timesOut hcaller => exact .timesOut hcaller rfl rfl
  | cancels hcaller => exact .cancels hcaller rfl rfl

namespace Effect

variable {free : ℕ} {call next : Call} {event : CallEvent}

/-- The coroutine of a call that has left stays where it is. -/
theorem left (h : Effect free call next event) {how : CallEnd}
    (hleft : call.caller = .left how) : next.caller = .left how := by
  cases h with
  | still caller _ _ => rw [caller, hleft]
  | works caller _ _ => rw [caller, hleft]
  | skips _ caller _ _ => rw [caller, hleft]
  | ends _ caller _ _ _ => rw [caller, hleft]
  | drops _ caller _ _ => rw [caller, hleft]
  | proceeds before _ _ _ => rw [hleft] at before; cases before
  | refuses before _ _ _ _ => rcases before with before | before <;> cases hleft.symm.trans before
  | expires before _ _ _ => cases hleft.symm.trans before
  | resumes before _ _ _ => cases hleft.symm.trans before
  | timesOut before _ _ => cases hleft.symm.trans before
  | cancels before _ _ => cases hleft.symm.trans before

theorem hasLeft (h : Effect free call next event) (hleft : call.caller.hasLeft = true) :
    next.caller.hasLeft = true := by
  cases hcaller : call.caller with
  | left how => rw [h.left hcaller]; rfl
  | _ => rw [hcaller] at hleft; cases hleft

/-- A call that reports an error reported it before, was refused by the submission,
or resumed to the outcome of its job. -/
theorem raised (h : Effect free call next event) {exc : PyExc}
    (hnext : next.caller = .left (.engine (.raised exc))) :
    call.caller = .left (.engine (.raised exc)) ∨
      (∃ refused, event = .submitRaises refused ∧
        (call.caller = .holding ∨ call.caller = .submitting) ∧
        (free < engineSlots → exc = refused)) ∨
      (call.caller.hasLeft = false ∧ call.job = .done (.error exc)) ∨
      (event = .resumesWithTimeout ∧ call.caller = .awaiting true ∧
        Call.timeoutOf call.arrived call.job = .engine (.raised exc)) := by
  cases h with
  | still caller _ _ => exact Or.inl (caller ▸ hnext)
  | works caller _ _ => exact Or.inl (caller ▸ hnext)
  | skips _ caller _ _ => exact Or.inl (caller ▸ hnext)
  | ends _ caller _ _ _ => exact Or.inl (caller ▸ hnext)
  | drops _ caller _ _ => exact Or.inl (caller ▸ hnext)
  | proceeds _ caller _ _ =>
      rcases caller with caller | caller | caller | caller <;>
        cases caller.symm.trans hnext
  | refuses before caller kept _ _ =>
      cases caller.symm.trans hnext
      exact Or.inr (Or.inl ⟨_, rfl, before, kept⟩)
  | expires _ caller _ _ => cases caller.symm.trans hnext
  | @resumes _ outcome before done caller _ =>
      refine Or.inr (Or.inr (Or.inl ⟨by rw [before]; rfl, ?_⟩))
      have hend := caller.symm.trans hnext
      cases outcome with
      | error found => cases hend; exact done
      | ok result => cases result <;> cases hend
  | timesOut before caller _ =>
      exact Or.inr (Or.inr (Or.inr ⟨rfl, before,
        Caller.left.inj (caller.symm.trans hnext)⟩))
  | cancels _ caller _ => cases caller.symm.trans hnext

/-- A call that reports a timeout reported it before, or resumed by one. -/
theorem timeout (h : Effect free call next event)
    (hnext : next.caller = .left (.engine .timeout)) :
    call.caller = .left (.engine .timeout) ∨ call.caller = .awaiting true := by
  cases h with
  | still caller _ _ => exact Or.inl (caller ▸ hnext)
  | works caller _ _ => exact Or.inl (caller ▸ hnext)
  | skips _ caller _ _ => exact Or.inl (caller ▸ hnext)
  | ends _ caller _ _ _ => exact Or.inl (caller ▸ hnext)
  | drops _ caller _ _ => exact Or.inl (caller ▸ hnext)
  | proceeds _ caller _ _ =>
      rcases caller with caller | caller | caller | caller <;>
        cases caller.symm.trans hnext
  | refuses _ caller _ _ _ => cases caller.symm.trans hnext
  | expires _ caller _ _ => cases caller.symm.trans hnext
  | @resumes _ outcome _ _ caller _ =>
      have hend := caller.symm.trans hnext
      cases outcome with
      | error found => cases hend
      | ok result => cases result <;> cases hend
  | timesOut before _ _ => exact Or.inr before
  | cancels _ caller _ => cases caller.symm.trans hnext

/-- Only the expiry of its budget makes a waiter one that is overdue. -/
theorem overdue (h : Effect free call next event) (hnext : next.caller = .awaiting true) :
    call.caller = .awaiting true ∨
      event = .budgetExpires ∧ ∃ expired, call.caller = .awaiting expired := by
  cases h with
  | still caller _ _ => exact Or.inl (caller ▸ hnext)
  | works caller _ _ => exact Or.inl (caller ▸ hnext)
  | skips _ caller _ _ => exact Or.inl (caller ▸ hnext)
  | ends _ caller _ _ _ => exact Or.inl (caller ▸ hnext)
  | drops _ caller _ _ => exact Or.inl (caller ▸ hnext)
  | proceeds _ caller _ _ =>
      rcases caller with caller | caller | caller | caller <;>
        cases caller.symm.trans hnext
  | refuses _ caller _ _ _ => cases caller.symm.trans hnext
  | expires before _ _ _ => exact Or.inr ⟨rfl, _, before⟩
  | resumes _ _ caller _ => cases caller.symm.trans hnext
  | timesOut _ caller _ => cases caller.symm.trans hnext
  | cancels _ caller _ => cases caller.symm.trans hnext

/-- A job's error was there before, is the engine's, or replaced a result. -/
theorem failed (h : Effect free call next event) {exc : PyExc}
    (hnext : next.job = .done (.error exc)) :
    call.job = .done (.error exc) ∨ call.job = .skipping ∨
      ∃ outcome, event = .engineEnds outcome ∧ call.job = .running ∧
        (free < engineSlots → outcome = .error exc) := by
  cases h with
  | still _ job _ => exact Or.inl (job ▸ hnext)
  | proceeds _ _ job _ =>
      rcases job with job | job
      · exact Or.inl (job ▸ hnext)
      · cases job.symm.trans hnext
  | refuses _ _ _ job _ => exact Or.inl (job ▸ hnext)
  | works _ job _ => rcases job with job | job <;> cases job.symm.trans hnext
  | skips _ _ job _ => cases job.symm.trans hnext
  | @ends outcome found before _ job kept _ =>
      refine Or.inr (Or.inr ⟨outcome, rfl, before, fun hroom => ?_⟩)
      cases job.symm.trans hnext
      cases outcome with
      | error raised => cases kept hroom; rfl
      | ok result => cases kept hroom
  | drops before _ _ _ => exact Or.inr (Or.inl before)
  | expires _ _ job _ => exact Or.inl (job ▸ hnext)
  | resumes _ _ _ job => exact Or.inl (job ▸ hnext)
  | timesOut _ _ job => exact Or.inl (job ▸ hnext)
  | cancels _ _ job => exact Or.inl (job ▸ hnext)

/-- A job skips its engine only where its call was given up. -/
theorem skipping (h : Effect free call next event) (hnext : next.job = .skipping) :
    call.job = .skipping ∨ call.abandoned = true := by
  cases h with
  | still _ job _ => exact Or.inl (job ▸ hnext)
  | proceeds _ _ job _ =>
      rcases job with job | job
      · exact Or.inl (job ▸ hnext)
      · cases job.symm.trans hnext
  | refuses _ _ _ job _ => exact Or.inl (job ▸ hnext)
  | works _ job _ => rcases job with job | job <;> cases job.symm.trans hnext
  | skips before _ _ _ => exact Or.inr before
  | ends _ _ job _ _ => cases job.symm.trans hnext
  | drops _ _ job _ => cases job.symm.trans hnext
  | expires _ _ job _ => exact Or.inl (job ▸ hnext)
  | resumes _ _ _ job => exact Or.inl (job ▸ hnext)
  | timesOut _ _ job => exact Or.inl (job ▸ hnext)
  | cancels _ _ job => exact Or.inl (job ▸ hnext)

theorem gaveUp (h : Effect free call next event) (hnext : next.abandoned = true) :
    call.abandoned = true ∨ next.caller.hasLeft = true := by
  cases h with
  | still _ _ abandoned => exact Or.inl (abandoned ▸ hnext)
  | proceeds _ _ _ abandoned => exact Or.inl (abandoned ▸ hnext)
  | refuses _ _ _ _ abandoned => exact Or.inl (abandoned ▸ hnext)
  | works _ _ abandoned => exact Or.inl (abandoned ▸ hnext)
  | skips before _ _ _ => exact Or.inl before
  | ends _ _ _ _ abandoned => exact Or.inl (abandoned ▸ hnext)
  | drops _ _ _ abandoned => exact Or.inl (abandoned ▸ hnext)
  | expires _ _ _ abandoned => exact Or.inl (abandoned ▸ hnext)
  | resumes _ _ caller _ => exact Or.inr (by rw [caller]; rfl)
  | timesOut _ caller _ => exact Or.inr (by rw [caller]; rfl)
  | cancels _ caller _ => exact Or.inr (by rw [caller]; rfl)

end Effect

/-- The call took this step where it could. -/
def Happened (events : List PoolEvent) (id : ℕ) (event : CallEvent)
    (enabled : Call → Prop) : Prop :=
  ∃ past rest, events = past ++ .on id event :: rest ∧
    enabled ((after past).calls id)

theorem happened_snoc {events : List PoolEvent} {last : PoolEvent} {id : ℕ}
    {event : CallEvent} {enabled : Call → Prop} :
    Happened (events ++ [last]) id event enabled ↔
      Happened events id event enabled ∨
        last = .on id event ∧ enabled ((after events).calls id) := by
  constructor
  · rintro ⟨past, rest, heq, henabled⟩
    rcases List.eq_nil_or_concat rest with rfl | ⟨rest', final, rfl⟩
    · obtain ⟨rfl, hlast⟩ := List.append_inj' heq rfl
      cases hlast
      exact Or.inr ⟨rfl, henabled⟩
    · rw [List.concat_eq_append, ← List.cons_append, ← List.append_assoc] at heq
      exact Or.inl ⟨past, rest', (List.append_inj' heq rfl).1, henabled⟩
  · rintro (⟨past, rest, rfl, henabled⟩ | ⟨rfl, henabled⟩)
    · exact ⟨past, rest ++ [last], by simp, henabled⟩
    · exact ⟨events, [], rfl, henabled⟩

/-- The engine raised the exception in the call's run. -/
def EngineRaised (events : List PoolEvent) (id : ℕ) (exc : PyExc) : Prop :=
  Happened events id (.engineEnds (.error exc)) fun call => call.job = .running

/-- The submission of the call's run raised the exception. -/
def SubmitRaised (events : List PoolEvent) (id : ℕ) (exc : PyExc) : Prop :=
  Happened events id (.submitRaises exc) fun call =>
    call.caller = .holding ∨ call.caller = .submitting

/-- The call's budget ran out while it waited. -/
def BudgetExpired (events : List PoolEvent) (id : ℕ) : Prop :=
  Happened events id .budgetExpires fun call =>
    ∃ expired, call.caller = .awaiting expired

/-- The waiter resumed because its budget had run out. -/
def ResumedByTimeout (events : List PoolEvent) (id : ℕ) : Prop :=
  Happened events id .resumesWithTimeout fun call => call.caller = .awaiting true

/-- What the end of one call is worth: an error was raised by the engine or the
submission, a timeout is the budget's, and an expired budget ends as that. -/
structure EndsTruly (events : List PoolEvent) (id : ℕ) : Prop where
  error : ∀ exc, ((after events).calls id).caller = .left (.engine (.raised exc)) →
    EngineRaised events id exc ∨ SubmitRaised events id exc
  timeout : ((after events).calls id).caller = .left (.engine .timeout) →
    BudgetExpired events id
  expired : ResumedByTimeout events id →
    ((after events).calls id).caller = .left (.engine .timeout)

/-- A slot is returned to a semaphore below its initial value. -/
def KeepsRoom (past : List PoolEvent) : PoolEvent → Prop
  | .on id (.engineEnds _) =>
      ((after past).calls id).job = .running → (after past).freeSlots < engineSlots
  | .on id (.submitRaises _) =>
      ((after past).calls id).caller = .holding ∨
        ((after past).calls id).caller = .submitting →
          (after past).freeSlots < engineSlots
  | _ => True

/-- No waiter wakes from its timeout to an engine error that has arrived. -/
def WakesBeforeError (past : List PoolEvent) : PoolEvent → Prop
  | .on id .resumesWithTimeout =>
      ((after past).calls id).caller = .awaiting true →
        ((after past).calls id).arrived = true →
          ∀ exc, ((after past).calls id).job ≠ .done (.error exc)
  | _ => True

/-- The books of one call's report. -/
structure ReportInv (events : List PoolEvent) (id : ℕ) : Prop extends
    EndsTruly events id where
  gaveUp : ((after events).calls id).abandoned = true →
    ((after events).calls id).caller.hasLeft = true
  skipping : ((after events).calls id).job = .skipping →
    ((after events).calls id).caller.hasLeft = true
  engine : ∀ exc, ((after events).calls id).job = .done (.error exc) →
    ((after events).calls id).caller.hasLeft = true ∨ EngineRaised events id exc
  waiting : ((after events).calls id).caller = .awaiting true →
    BudgetExpired events id

theorem reportInv_fresh (id : ℕ) : ReportInv [] id where
  error _ h := by cases h
  timeout h := by cases h
  expired := by
    rintro ⟨past, rest, heq, _⟩
    exact absurd heq.symm (by simp)
  gaveUp h := by cases h
  skipping h := by cases h
  engine _ h := by cases h
  waiting h := by cases h

namespace ReportInv

variable {events : List PoolEvent} {id : ℕ}

theorem frame (h : ReportInv events id) {last : PoolEvent}
    (hsame : (after (events ++ [last])).calls id = (after events).calls id)
    (hother : ∀ event, last ≠ .on id event) : ReportInv (events ++ [last]) id := by
  have hmore : ∀ {event enabled}, Happened events id event enabled →
      Happened (events ++ [last]) id event enabled :=
    fun hpast => happened_snoc.mpr (Or.inl hpast)
  have hless : ∀ {event enabled}, Happened (events ++ [last]) id event enabled →
      Happened events id event enabled := fun hnow =>
    (happened_snoc.mp hnow).resolve_right fun hlast => hother _ hlast.1
  constructor
  · constructor
    · intro exc hleft
      rw [hsame] at hleft
      exact (h.error exc hleft).imp hmore hmore
    · intro hleft
      rw [hsame] at hleft
      exact hmore (h.timeout hleft)
    · intro hresumed
      rw [hsame]
      exact h.expired (hless hresumed)
  · rw [hsame]
    exact h.gaveUp
  · rw [hsame]
    exact h.skipping
  · intro exc hjob
    rw [hsame] at hjob ⊢
    exact (h.engine exc hjob).imp_right hmore
  · intro hcaller
    rw [hsame] at hcaller
    exact hmore (h.waiting hcaller)

/-- A call whose waiter does not wake to an error times out as a timeout. -/
theorem timeoutOf_eq (hwakes : WakesBeforeError events (.on id .resumesWithTimeout))
    (hcaller : ((after events).calls id).caller = .awaiting true) :
    Call.timeoutOf ((after events).calls id).arrived ((after events).calls id).job =
      .engine .timeout := by
  have hquiet := hwakes hcaller
  cases hjob : ((after events).calls id).job with
  | done outcome =>
      cases outcome with
      | ok result => rfl
      | error exc =>
          cases harrived : ((after events).calls id).arrived with
          | false => rfl
          | true => exact absurd hjob (hquiet harrived exc)
  | _ => rfl

theorem step (h : ReportInv events id) {event : CallEvent}
    (hroom : KeepsRoom events (.on id event))
    (hwakes : WakesBeforeError events (.on id event)) :
    ReportInv (events ++ [.on id event]) id := by
  have hmore : ∀ {earlier enabled}, Happened events id earlier enabled →
      Happened (events ++ [.on id event]) id earlier enabled :=
    fun hpast => happened_snoc.mpr (Or.inl hpast)
  have hnow : ∀ {enabled : Call → Prop}, enabled ((after events).calls id) →
      Happened (events ++ [.on id event]) id event enabled :=
    fun henabled => happened_snoc.mpr (Or.inr ⟨rfl, henabled⟩)
  have hnext : (after (events ++ [.on id event])).calls id =
      (((after events).calls id).step (after events).closed (after events).freeSlots
        event).2 := by
    simp [after_snoc, EnginePool.step]
  have heffect := Call.step_effect (after events).closed (after events).freeSlots
    ((after events).calls id) event
  rw [← hnext] at heffect
  constructor
  · constructor
    · intro exc hleft
      rcases heffect.raised hleft with hbefore | ⟨refused, rfl, hbefore, hkept⟩ |
        ⟨hwaits, hdone⟩ | ⟨rfl, hbefore, htimeout⟩
      · exact (h.error exc hbefore).imp hmore hmore
      · rw [hkept (hroom hbefore)]
        exact Or.inr (hnow hbefore)
      · rcases h.engine exc hdone with hgone | hraised
        · rw [hwaits] at hgone
          cases hgone
        · exact Or.inl (hmore hraised)
      · rw [timeoutOf_eq hwakes hbefore] at htimeout
        cases htimeout
    · intro hleft
      rcases heffect.timeout hleft with hbefore | hbefore
      · exact hmore (h.timeout hbefore)
      · exact hmore (h.waiting hbefore)
    · intro hresumed
      rcases happened_snoc.mp hresumed with hpast | ⟨heq, hcaller⟩
      · exact heffect.left (h.expired hpast)
      · cases heq
        rw [hnext, Call.step, hcaller]
        exact congrArg Caller.left (timeoutOf_eq hwakes hcaller)
  · intro habandoned
    rcases heffect.gaveUp habandoned with hbefore | hleft
    · exact heffect.hasLeft (h.gaveUp hbefore)
    · exact hleft
  · intro hskipping
    rcases heffect.skipping hskipping with hbefore | habandoned
    · exact heffect.hasLeft (h.skipping hbefore)
    · exact heffect.hasLeft (h.gaveUp habandoned)
  · intro exc hjob
    rcases heffect.failed hjob with hbefore | hskipping | ⟨outcome, rfl, hrunning, hkept⟩
    · exact (h.engine exc hbefore).imp heffect.hasLeft hmore
    · exact Or.inl (heffect.hasLeft (h.skipping hskipping))
    · rw [hkept (hroom hrunning)] at hnow ⊢
      exact Or.inr (hnow hrunning)
  · intro hcaller
    rcases heffect.overdue hcaller with hbefore | ⟨rfl, hwaits⟩
    · exact hmore (h.waiting hbefore)
    · exact hnow hwaits

end ReportInv

theorem reportInv_after {events : List PoolEvent}
    (hroom : Admissible KeepsRoom events)
    (hwakes : Admissible WakesBeforeError events) (id : ℕ) : ReportInv events id := by
  induction events using List.reverseRecOn with
  | nil => exact reportInv_fresh id
  | append_singleton past last ih =>
      have hpast := ih hroom.init hwakes.init
      cases last with
      | close => exact hpast.frame (by rw [after_snoc]; rfl) (fun _ => PoolEvent.noConfusion)
      | on other event =>
          by_cases heq : other = id
          · subst heq
            exact hpast.step hroom.last hwakes.last
          · refine hpast.frame ?_ fun _ hon => heq (PoolEvent.on.inj hon).1
            rw [after_snoc, EnginePool.step]
            exact Function.update_of_ne (Ne.symm heq) _ _

/-- The books are kept where no `submit` raises after it has queued the job. -/
theorem keepsRoom_of_clean {events : List PoolEvent}
    (hclean : Admissible (fun past event => CleanEvent (after past) event) events) :
    Admissible KeepsRoom events := by
  intro past event rest heq
  have hinv := poolInv_after (hclean.of_prefix ⟨event :: rest, heq.symm⟩)
  cases event with
  | close => trivial
  | on id event =>
      cases event with
      | engineEnds outcome =>
          intro hrunning
          apply hinv.slots.free_lt (k := id)
          simp only [Call.mayExecute, hrunning]
      | submitRaises exc =>
          intro hcaller
          have hsubmit := hclean past _ rest heq exc rfl
          have hholding := hcaller.resolve_right hsubmit
          have hjob := (hinv.calls id).job_eq_notQueued (Or.inl hholding)
          apply hinv.slots.free_lt (k := id)
          simp only [Call.mayExecute, hjob, hholding]
      | _ => trivial

section Verdicts

variable {Token Tree : Type}

/-- The verdict reports an engine error under the name of this type. -/
def ReportsError (draft : Draft) (type : ExcType) : Prop :=
  draft.engine = py "error_handler" ∧
    draft.reason = some (py "Verification engine raised " ++ type.name ++
      py " - fail closed")

def ReportsTimeout (draft : Draft) : Prop := draft.engine = py "engine_timeout"

/-- The call has ended without a result of its engine. -/
def EndedWithout (events : List PoolEvent) (id : ℕ) (ended : EngineEnd) : Prop :=
  ((after events).calls id).caller = .left (.engine ended) ∧
    ∀ result, ended ≠ .result result

/-- The verdict on a call's message tells the truth about its run: an error handler
names the type of an exception that the engine or the submission raised, a timeout
means that the budget expired, and an expired budget is reported as a timeout. -/
structure ReportsTruly (interceptor : Interceptor Token Tree) (message : AgentMessage)
    (events : List PoolEvent) (id : ℕ) : Prop where
  error : ∀ ended, EndedWithout events id ended → ∀ type,
    ReportsError (interceptor.runDraft message ended) type →
      ∃ exc, (EngineRaised events id exc ∨ SubmitRaised events id exc) ∧
        exc.type.name = type.name
  timeout : ∀ ended, EndedWithout events id ended →
    ReportsTimeout (interceptor.runDraft message ended) → BudgetExpired events id
  expired : ResumedByTimeout events id → ∃ ended, EndedWithout events id ended ∧
    ReportsTimeout (interceptor.runDraft message ended)

variable {interceptor : Interceptor Token Tree} {message : AgentMessage}
  {events : List PoolEvent} {id : ℕ}

theorem handler_ne_timeout : py "error_handler" ≠ py "engine_timeout" := by decide

theorem busy_ne : py "engine_busy" ≠ py "error_handler" ∧
    py "engine_busy" ≠ py "engine_timeout" := by decide

theorem not_reportsTimeout {exc : PyExc} :
    ¬ ReportsTimeout (interceptor.runDraft message (.raised exc)) :=
  handler_ne_timeout

theorem EndsTruly.reportsTruly (h : EndsTruly events id)
    (interceptor : Interceptor Token Tree) (message : AgentMessage) :
    ReportsTruly interceptor message events id where
  error := by
    rintro ended ⟨hleft, hresult⟩ type ⟨hengine, hreason⟩
    cases ended with
    | result result => exact absurd rfl (hresult result)
    | timeout => exact absurd hengine handler_ne_timeout.symm
    | busy => exact absurd hengine busy_ne.1
    | raised exc =>
        have htext := Option.some.inj hreason
        exact ⟨exc, h.error exc hleft,
          List.append_cancel_left (List.append_cancel_right htext)⟩
  timeout := by
    rintro ended ⟨hleft, hresult⟩ hengine
    cases ended with
    | result result => exact absurd rfl (hresult result)
    | timeout => exact h.timeout hleft
    | busy => exact absurd hengine busy_ne.2
    | raised exc => exact absurd hengine not_reportsTimeout
  expired hresumed :=
    ⟨.timeout, ⟨h.expired hresumed, fun _ => EngineEnd.noConfusion⟩, rfl⟩

/-- A waiter that wakes from its timeout to an error reports what nobody raised. -/
theorem wakesBeforeError_of_reports {past : List PoolEvent} {event : PoolEvent}
    (h : ∀ id, ReportsTruly interceptor message (past ++ [event]) id) :
    WakesBeforeError past event := by
  cases event with
  | close => trivial
  | on id event =>
      cases event with
      | resumesWithTimeout =>
          intro hcaller harrived exc hjob
          obtain ⟨ended, ⟨hleft, _⟩, htimeout⟩ :=
            (h id).expired (happened_snoc.mpr (Or.inr ⟨rfl, hcaller⟩))
          have hraised : ((after (past ++ [.on id .resumesWithTimeout])).calls id).caller =
              .left (.engine (.raised ⟨.timeoutError, []⟩)) := by
            simp [after_snoc, EnginePool.step, Call.step, hcaller, Call.giveUp,
              Call.leave, Call.note, hjob, harrived, Call.timeoutOf]
          rw [hraised] at hleft
          cases hleft
          exact not_reportsTimeout htimeout
      | _ => trivial

end Verdicts

def enteredRun : List PoolEvent :=
  [.on 0 .call, .on 0 .submitQueues, .on 0 .submitReturns, .on 0 .workerTakes,
    .on 0 .jobChecks]

/-- The engine raises, and the waiter resumes to it in time. -/
def promptError : List PoolEvent :=
  enteredRun ++ [.on 0 (.engineEnds (.error ⟨.valueError, []⟩)), .on 0 .resultArrives,
    .on 0 .resumesWithResult]

/-- The budget expires, the engine raises, and the waiter resumes to its timeout. -/
def lateError : List PoolEvent :=
  enteredRun ++ [.on 0 .budgetExpires, .on 0 (.engineEnds (.error ⟨.valueError, []⟩)),
    .on 0 .resultArrives, .on 0 .resumesWithTimeout]

/-- In a run whose slots are returned to a semaphore with room, every verdict in
every state tells the truth exactly when no waiter wakes from its timeout to an
engine error that has arrived. -/
theorem reports_truly_iff {Token Tree : Type} (interceptor : Interceptor Token Tree)
    (message : AgentMessage) (events : List PoolEvent)
    (hroom : Admissible KeepsRoom events) :
    (∀ past, past <+: events → ∀ id, ReportsTruly interceptor message past id) ↔
      Admissible WakesBeforeError events := by
  constructor
  · intro h past event rest heq
    exact wakesBeforeError_of_reports
      (h (past ++ [event]) ⟨rest, by rw [heq, List.append_assoc]; rfl⟩)
  · intro hwakes past hpast id
    exact (reportInv_after (hroom.of_prefix hpast) (hwakes.of_prefix hpast)
      id).toEndsTruly.reportsTruly interceptor message

/-- An engine error in time is reported under its own type. -/
theorem reports_truly_iff_promptError :
    ReportsTruly Reference.interceptor Reference.invoiceMessage promptError 0 :=
  (reports_truly_iff Reference.interceptor Reference.invoiceMessage promptError
    (keepsRoom_of_clean (Admissible.of_forall (by
      simp [promptError, enteredRun, CleanEvent, CleanSubmit])))).mpr
    (Admissible.of_forall (by simp [promptError, enteredRun, WakesBeforeError]))
    promptError List.prefix_rfl 0

/-- The engine raised a ValueError after the budget expired; the verdict reports that
it raised a TimeoutError. -/
theorem late_error_reported_as_timeout_error :
    (∃ ended, EndedWithout lateError 0 ended ∧
      ReportsError (Reference.interceptor.runDraft Reference.invoiceMessage ended)
        .timeoutError) ∧
      (∀ exc, EngineRaised lateError 0 exc → exc.type = .valueError) ∧
      ¬ ReportsTruly Reference.interceptor Reference.invoiceMessage lateError 0 := by
  have hended : EndedWithout lateError 0 (.raised ⟨.timeoutError, []⟩) :=
    ⟨rfl, fun _ => EngineEnd.noConfusion⟩
  have hreport : ReportsError (Reference.interceptor.runDraft Reference.invoiceMessage
      (.raised ⟨.timeoutError, []⟩)) .timeoutError :=
    ⟨rfl, rfl⟩
  have hengine : ∀ exc, EngineRaised lateError 0 exc → exc.type = .valueError := by
    rintro exc ⟨past, rest, heq, -⟩
    have hmem : PoolEvent.on 0 (.engineEnds (.error exc)) ∈ lateError := by
      rw [heq]
      simp
    simp only [lateError, enteredRun, List.cons_append, List.nil_append, List.mem_cons,
      PoolEvent.on.injEq, CallEvent.engineEnds.injEq, Except.error.injEq, true_and,
      reduceCtorEq, and_false, List.not_mem_nil, false_or, or_false] at hmem
    rw [hmem]
  refine ⟨⟨_, hended, hreport⟩, hengine, fun h => ?_⟩
  obtain ⟨exc, hraised | ⟨past, rest, heq, -⟩, hname⟩ := h.error _ hended _ hreport
  · rw [hengine exc hraised] at hname
    exact absurd hname (by decide)
  · have hmem : PoolEvent.on 0 (.submitRaises exc) ∈ lateError := by
      rw [heq]
      simp
    simp [lateError, enteredRun] at hmem

end EnginePool

end QwedA2A
