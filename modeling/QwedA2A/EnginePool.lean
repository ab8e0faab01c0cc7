/-
The engine pool: calls of `_run_engine`, their jobs and the slots between them.
Every call is a small machine of its own; the slots, and whether the executor
was shut down, are all that calls share.
-/
import QwedA2A.Interceptor

namespace QwedA2A

namespace EnginePool

def engineWorkers : ℕ := 4

def engineQueue : ℕ := 32

def engineSlots : ℕ := engineWorkers + engineQueue

/-- `BoundedSemaphore.release`: `none` stands for its ValueError. -/
def releaseSlot (free : ℕ) : Option ℕ :=
  if free < engineSlots then some (free + 1) else none

def releasedTooManyTimes : PyExc :=
  ⟨.valueError, py "Semaphore released too many times"⟩

/-- How a call leaves `_run_engine`; an awaited run that was cancelled leaves
with no end of the engine's own. -/
inductive CallEnd where
  | engine (result : EngineEnd)
  | skipped
  | cancelled

/-- How far the coroutine has come. -/
inductive Caller where
  | notCalled
  | holding
  | submitting
  | awaiting (expired : Bool)
  | left (how : CallEnd)

/-- What a job left in its future: nothing for a skipped run. -/
abbrev JobOutcome := Except PyExc (Option EngineResult)

/-- How far the pool has come with the job. -/
inductive Job where
  | notQueued
  | queued
  | started
  | skipping
  | running
  | done (outcome : JobOutcome)

/-- What an observer notes of one call. -/
inductive Mark where
  | acquired
  | left
  | started
  | engineRan
  | released
  | overReleased
deriving DecidableEq

/-- One call: its coroutine, its job, the `abandoned` event they share, and
whether the job's outcome has reached the event loop.  `history` is the
observer's. -/
structure Call where
  caller : Caller := .notCalled
  job : Job := .notQueued
  abandoned : Bool := false
  arrived : Bool := false
  history : List Mark := []

/-- The steps of one call.  A worker may run between any two of the caller's,
also while `submit` has not returned. -/
inductive CallEvent where
  | call
  | submitQueues
  | submitReturns
  | submitRaises (exc : PyExc)
  | workerTakes
  | jobChecks
  | engineEnds (outcome : Except PyExc EngineResult)
  | jobSkips
  | resultArrives
  | budgetExpires
  | resumesWithResult
  | resumesWithTimeout
  | cancelled

namespace Call

/-- From `acquire` to the end of the job: the run may still execute. -/
def mayExecute (call : Call) : Bool :=
  match call.job with
  | .notQueued =>
      match call.caller with
      | .holding => true
      | _ => false
  | .done _ => false
  | _ => true

def note (call : Call) (mark : Mark) : Call :=
  { call with history := call.history ++ [mark] }

def leave (call : Call) (how : CallEnd) : Call :=
  { call with caller := .left how }.note .left

/-- The `finally` of the awaiting caller, which gives the run up. -/
def giveUp (call : Call) (how : CallEnd) : Call :=
  { call with abandoned := true }.leave how

/-- The handler of a raising `submit`: return the slot, raise again. -/
def failSubmit (free : ℕ) (call : Call) (exc : PyExc) : ℕ × Call :=
  match releaseSlot free with
  | some free => (free, (call.note .released).leave (.engine (.raised exc)))
  | none =>
      (free, (call.note .overReleased).leave
        (.engine (.raised releasedTooManyTimes)))

/-- The `finally` of the job: return the slot.  An error there takes the place
of the job's outcome. -/
def finishJob (free : ℕ) (call : Call) (outcome : JobOutcome) : ℕ × Call :=
  match releaseSlot free with
  | some free => (free, { call with job := .done outcome }.note .released)
  | none =>
      (free, { call with job := .done (.error releasedTooManyTimes) }.note
        .overReleased)

/-- What the awaiting caller makes of an arrived outcome. -/
def resultOf : JobOutcome → CallEnd
  | .ok (some result) => .engine (.result result)
  | .ok none => .skipped
  | .error exc => .engine (.raised exc)

/-- What it makes of a timeout: the budget's, unless the run ended with an
error by now. -/
def timeoutOf (arrived : Bool) : Job → CallEnd
  | .done (.error _) =>
      if arrived then .engine (.raised ⟨.timeoutError, []⟩) else .engine .timeout
  | _ => .engine .timeout

/-- One step of one call, with the free slots it meets.  A step that is not
the call's to take changes nothing. -/
def step (closed : Bool) (free : ℕ) (call : Call) : CallEvent → ℕ × Call
  | .call =>
      match call.caller with
      | .notCalled =>
          if free = 0 then (free, call.leave (.engine .busy))
          else (free - 1, { call with caller := .holding }.note .acquired)
      | _ => (free, call)
  | .submitQueues =>
      match call.caller, closed with
      | .holding, false =>
          (free, { call with caller := .submitting, job := .queued })
      | _, _ => (free, call)
  | .submitReturns =>
      match call.caller with
      | .submitting => (free, { call with caller := .awaiting false })
      | _ => (free, call)
  | .submitRaises exc =>
      match call.caller with
      | .holding => failSubmit free call exc
      | .submitting => failSubmit free call exc
      | _ => (free, call)
  | .workerTakes =>
      match call.job with
      | .queued => (free, { call with job := .started }.note .started)
      | _ => (free, call)
  | .jobChecks =>
      match call.job, call.abandoned with
      | .started, true => (free, { call with job := .skipping })
      | .started, false => (free, { call with job := .running }.note .engineRan)
      | _, _ => (free, call)
  | .engineEnds outcome =>
      match call.job with
      | .running => finishJob free call (outcome.map some)
      | _ => (free, call)
  | .jobSkips =>
      match call.job with
      | .skipping => finishJob free call (.ok none)
      | _ => (free, call)
  | .resultArrives =>
      match call.job, call.caller with
      | .done _, .awaiting _ => (free, { call with arrived := true })
      | .done _, .left _ => (free, { call with arrived := true })
      | _, _ => (free, call)
  | .budgetExpires =>
      match call.caller with
      | .awaiting _ => (free, { call with caller := .awaiting true })
      | _ => (free, call)
  | .resumesWithResult =>
      match call.caller, call.job, call.arrived with
      | .awaiting _, .done outcome, true => (free, call.giveUp (resultOf outcome))
      | _, _, _ => (free, call)
  | .resumesWithTimeout =>
      match call.caller with
      | .awaiting true => (free, call.giveUp (timeoutOf call.arrived call.job))
      | _ => (free, call)
  | .cancelled =>
      match call.caller with
      | .awaiting _ => (free, call.giveUp .cancelled)
      | _ => (free, call)

/-- The branches of `step`: what each is taken on, and what it leaves. -/
inductive Branch (closed : Bool) (free : ℕ) (call : Call) :
    CallEvent → ℕ × Call → Prop
  | still (event : CallEvent) : Branch closed free call event (free, call)
  | busy (before : call.caller = .notCalled) (full : free = 0) :
      Branch closed free call .call (free, call.leave (.engine .busy))
  | acquires (before : call.caller = .notCalled) (room : free ≠ 0) :
      Branch closed free call .call
        (free - 1, { call with caller := .holding }.note .acquired)
  | queues (before : call.caller = .holding) (accepts : closed = false) :
      Branch closed free call .submitQueues
        (free, { call with caller := .submitting, job := .queued })
  | awaits (before : call.caller = .submitting) :
      Branch closed free call .submitReturns
        (free, { call with caller := .awaiting false })
  | fails (exc : PyExc) (before : call.caller = .holding ∨ call.caller = .submitting) :
      Branch closed free call (.submitRaises exc) (failSubmit free call exc)
  | starts (before : call.job = .queued) :
      Branch closed free call .workerTakes
        (free, { call with job := .started }.note .started)
  | skips (before : call.job = .started) (abandoned : call.abandoned = true) :
      Branch closed free call .jobChecks (free, { call with job := .skipping })
  | enters (before : call.job = .started) (abandoned : call.abandoned = false) :
      Branch closed free call .jobChecks
        (free, { call with job := .running }.note .engineRan)
  | ends (outcome : Except PyExc EngineResult) (before : call.job = .running) :
      Branch closed free call (.engineEnds outcome)
        (finishJob free call (outcome.map some))
  | drops (before : call.job = .skipping) :
      Branch closed free call .jobSkips (finishJob free call (.ok none))
  | arrives {outcome : JobOutcome} (before : call.job = .done outcome) :
      Branch closed free call .resultArrives (free, { call with arrived := true })
  | expires {expired : Bool} (before : call.caller = .awaiting expired) :
      Branch closed free call .budgetExpires
        (free, { call with caller := .awaiting true })
  | resumes {expired : Bool} {outcome : JobOutcome}
      (before : call.caller = .awaiting expired) (done : call.job = .done outcome)
      (arrived : call.arrived = true) :
      Branch closed free call .resumesWithResult
        (free, call.giveUp (resultOf outcome))
  | timesOut (before : call.caller = .awaiting true) :
      Branch closed free call .resumesWithTimeout
        (free, call.giveUp (timeoutOf call.arrived call.job))
  | cancels {expired : Bool} (before : call.caller = .awaiting expired) :
      Branch closed free call .cancelled (free, call.giveUp .cancelled)

theorem step_branch (closed : Bool) (free : ℕ) (call : Call) (event : CallEvent) :
    Branch closed free call event (call.step closed free event) := by
  cases event with
  | call =>
      simp only [step]
      split
      · next hcaller =>
          split_ifs with hfull
          · exact .busy hcaller hfull
          · exact .acquires hcaller hfull
      · exact .still _
  | submitQueues =>
      simp only [step]
      split
      · next hcaller => exact .queues hcaller rfl
      · exact .still _
  | submitReturns =>
      simp only [step]
      split
      · next hcaller => exact .awaits hcaller
      · exact .still _
  | submitRaises exc =>
      simp only [step]
      split
      · next hcaller => exact .fails exc (Or.inl hcaller)
      · next hcaller => exact .fails exc (Or.inr hcaller)
      · exact .still _
  | workerTakes =>
      simp only [step]
      split
      · next hjob => exact .starts hjob
      · exact .still _
  | jobChecks =>
      simp only [step]
      split
      · next hjob habandoned => exact .skips hjob habandoned
      · next hjob habandoned => exact .enters hjob habandoned
      · exact .still _
  | engineEnds outcome =>
      simp only [step]
      split
      · next hjob => exact .ends outcome hjob
      · exact .still _
  | jobSkips =>
      simp only [step]
      split
      · next hjob => exact .drops hjob
      · exact .still _
  | resultArrives =>
      simp only [step]
      split
      · next hjob _ => exact .arrives hjob
      · next hjob _ => exact .arrives hjob
      · exact .still _
  | budgetExpires =>
      simp only [step]
      split
      · next hcaller => exact .expires hcaller
      · exact .still _
  | resumesWithResult =>
      simp only [step]
      split
      · next hcaller hjob harrived => exact .resumes hcaller hjob harrived
      · exact .still _
  | resumesWithTimeout =>
      simp only [step]
      split
      · next hcaller => exact .timesOut hcaller
      · exact .still _
  | cancelled =>
      simp only [step]
      split
      · next hcaller => exact .cancels hcaller
      · exact .still _

end Call

end EnginePool

/-- The steps of the pool: those of its calls, and the shutdown. -/
inductive PoolEvent where
  | on (id : ℕ) (event : EnginePool.CallEvent)
  | close

open EnginePool in
/-- The pool of one interceptor. -/
structure EnginePool where
  freeSlots : ℕ := engineSlots
  closed : Bool := false
  calls : ℕ → Call := fun _ => {}

namespace EnginePool

def step (pool : EnginePool) : PoolEvent → EnginePool
  | .on id event =>
      let next := (pool.calls id).step pool.closed pool.freeSlots event
      { pool with
        freeSlots := next.1
        calls := Function.update pool.calls id next.2 }
  | .close => { pool with closed := true }

def after (events : List PoolEvent) : EnginePool :=
  EventRun.final step {} events

theorem after_snoc (past : List PoolEvent) (event : PoolEvent) :
    after (past ++ [event]) = (after past).step event :=
  EventRun.final_snoc step _ past event

end EnginePool

end QwedA2A
