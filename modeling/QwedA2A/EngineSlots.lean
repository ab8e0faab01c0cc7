/-
The slots of the engine pool.  Each call keeps its own books; a step of a call
takes one slot, returns the call's own, or leaves the slots alone, unless
`submit` raises after it has queued the job.
-/
import QwedA2A.PermitPool
import QwedA2A.EnginePool

namespace QwedA2A

open EventRun PermitPool

namespace EnginePool

def Caller.tookSlot : Caller → Bool
  | .notCalled => false
  | .left (.engine .busy) => false
  | _ => true

@[simp] theorem Caller.tookSlot_awaiting (expired : Bool) :
    (Caller.awaiting expired).tookSlot = true := rfl

/-- The coroutine has left `_run_engine`. -/
def Caller.hasLeft : Caller → Bool
  | .left _ => true
  | _ => false

@[simp] theorem Caller.hasLeft_awaiting (expired : Bool) :
    (Caller.awaiting expired).hasLeft = false := rfl

def Job.wasStarted : Job → Bool
  | .notQueued => false
  | .queued => false
  | _ => true

/-- The job is past its check of `abandoned`. -/
def Job.wasChecked : Job → Bool
  | .notQueued => false
  | .queued => false
  | .started => false
  | _ => true

/-- Whether the phases of a call say that something was noted of it; they do
not tell a skipped run from an executed one. -/
def Call.noted (call : Call) : Mark → Bool
  | .acquired => call.caller.tookSlot
  | .left => call.caller.hasLeft
  | .started => call.job.wasStarted
  | .engineRan => call.job.wasChecked
  | .released => call.caller.tookSlot && !call.mayExecute
  | .overReleased => false

/-- The caller had left when a worker took the job. -/
def StartedLate (history : List Mark) : Prop :=
  [Mark.left, Mark.started].Sublist history

theorem startedLate_of_append {history marks : List Mark}
    (h : StartedLate (history ++ marks)) (hstarted : .started ∉ marks) :
    StartedLate history := by
  rw [StartedLate, List.sublist_append_iff] at h
  obtain ⟨earlier, last, heq, hearlier, hlast⟩ := h
  rcases List.eq_nil_or_concat last with rfl | ⟨front, mark, rfl⟩
  · rw [List.append_nil] at heq
    rw [StartedLate, heq]
    exact hearlier
  · have hsplit : [Mark.left] ++ [Mark.started] = (earlier ++ front) ++ [mark] := by
      simpa using heq
    obtain ⟨-, hmark⟩ := List.append_inj' hsplit rfl
    rw [List.cons.injEq] at hmark
    exact absurd (hlast.subset (by simp [← hmark.1])) hstarted

/-- The books of one call: its phases and its history agree. -/
structure CallInv (call : Call) : Prop where
  unqueued : call.job = .notQueued →
    call.caller ≠ .submitting ∧ ∀ expired, call.caller ≠ .awaiting expired
  queued : call.job ≠ .notQueued →
    call.caller ≠ .holding ∧ call.caller.tookSlot = true
  given_up : call.job ≠ .notQueued → call.caller.hasLeft = true →
    call.abandoned = true
  noted_once : ∀ mark, mark ≠ .engineRan →
    call.history.count mark = (call.noted mark).toNat
  ran_noted : .engineRan ∈ call.history → call.job.wasChecked = true
  late_skipped : StartedLate call.history → .engineRan ∉ call.history

theorem callInv_fresh : CallInv {} where
  unqueued := by simp
  queued := by simp
  given_up := by simp
  noted_once mark _ := by cases mark <;> rfl
  ran_noted := by simp
  late_skipped := by simp

/-- A caller that awaited its run does not leave as one that found no slot. -/
theorem tookSlot_resultOf (outcome : JobOutcome) :
    (Caller.left (Call.resultOf outcome)).tookSlot = true := by
  cases outcome with
  | error exc => rfl
  | ok result =>
      cases result with
      | none => rfl
      | some result => rfl

theorem tookSlot_timeoutOf (arrived : Bool) (job : Job) :
    (Caller.left (Call.timeoutOf arrived job)).tookSlot = true := by
  cases job with
  | done outcome =>
      cases outcome with
      | error exc => cases arrived <;> rfl
      | ok result => rfl
  | _ => rfl

theorem releaseSlot_of_room {free : ℕ} (hroom : free < engineSlots) :
    releaseSlot free = some (free + 1) := by
  simp [releaseSlot, hroom]

namespace CallInv

variable {call : Call}

/-- Something is in the history exactly when the phases say so. -/
theorem mem_history_iff (h : CallInv call) {mark : Mark} (hmark : mark ≠ .engineRan) :
    mark ∈ call.history ↔ call.noted mark = true := by
  rw [← List.count_pos_iff, h.noted_once mark hmark]
  cases call.noted mark <;> simp

/-- A call whose job is not past its check has not run the engine. -/
theorem not_ran (h : CallInv call) (hjob : call.job.wasChecked = false) :
    .engineRan ∉ call.history := by
  intro hran
  rw [h.ran_noted hran] at hjob
  cases hjob

/-- What a step has to show when it appends marks other than the engine's. -/
theorem extend {next : Call} (h : CallInv call) (marks : List Mark)
    (hhistory : next.history = call.history ++ marks)
    (hnoted : ∀ mark, mark ≠ .engineRan →
      (next.noted mark).toNat = (call.noted mark).toNat + marks.count mark)
    (hchecked : call.job.wasChecked = true → next.job.wasChecked = true)
    (hmarks : .engineRan ∉ marks)
    (hlate : .started ∈ marks → call.job.wasChecked = false)
    (hunqueued : next.job = .notQueued →
      next.caller ≠ .submitting ∧ ∀ expired, next.caller ≠ .awaiting expired)
    (hqueued : next.job ≠ .notQueued →
      next.caller ≠ .holding ∧ next.caller.tookSlot = true)
    (hgiven : next.job ≠ .notQueued → next.caller.hasLeft = true →
      next.abandoned = true) : CallInv next where
  unqueued := hunqueued
  queued := hqueued
  given_up := hgiven
  noted_once mark hmark := by
    rw [hhistory, List.count_append, h.noted_once mark hmark, hnoted mark hmark]
  ran_noted hran := by
    rw [hhistory, List.mem_append] at hran
    exact hchecked (h.ran_noted (hran.resolve_right hmarks))
  late_skipped hlater hran := by
    rw [hhistory] at hlater hran
    have hbefore : .engineRan ∈ call.history :=
      (List.mem_append.mp hran).resolve_right hmarks
    by_cases hstarted : .started ∈ marks
    · exact h.not_ran (hlate hstarted) hbefore
    · exact h.late_skipped (startedLate_of_append hlater hstarted) hbefore

/-- A step that notes nothing, read off the phases alone. -/
theorem unnoted {next : Call} (h : CallInv call)
    (hhistory : next.history = call.history)
    (hnoted : ∀ mark, mark ≠ .engineRan → next.noted mark = call.noted mark)
    (hchecked : call.job.wasChecked = true → next.job.wasChecked = true)
    (hunqueued : next.job = .notQueued →
      next.caller ≠ .submitting ∧ ∀ expired, next.caller ≠ .awaiting expired)
    (hqueued : next.job ≠ .notQueued →
      next.caller ≠ .holding ∧ next.caller.tookSlot = true)
    (hgiven : next.job ≠ .notQueued → next.caller.hasLeft = true →
      next.abandoned = true) : CallInv next := by
  refine h.extend [] (by simpa using hhistory) ?_ hchecked (by simp) (by simp)
    hunqueued hqueued hgiven
  intro mark hmark
  simp [hnoted mark hmark]

/-- The phases rule out a job before it is handed over. -/
theorem job_eq_notQueued (h : CallInv call)
    (hcaller : call.caller = .holding ∨ call.caller.tookSlot = false) :
    call.job = .notQueued := by
  by_contra hjob
  obtain ⟨hholding, htook⟩ := h.queued hjob
  rcases hcaller with hcaller | hcaller
  · exact hholding hcaller
  · rw [htook] at hcaller
    cases hcaller

theorem refuse (h : CallInv call) (hcaller : call.caller = .notCalled) :
    CallInv (call.leave (.engine .busy)) := by
  have hjob : call.job = .notQueued :=
    h.job_eq_notQueued (Or.inr (by simp [hcaller, Caller.tookSlot]))
  refine h.extend [.left] rfl ?_ id (by simp) (by simp) ?_ ?_ ?_
  · intro mark hmark
    cases mark <;>
      simp [Call.noted, Call.leave, Call.note, hcaller, hjob, Caller.tookSlot,
        Caller.hasLeft, Job.wasStarted] at hmark ⊢
  · simp [Call.leave, Call.note]
  · exact fun hqueued => absurd hjob hqueued
  · exact fun hqueued => absurd hjob hqueued

theorem acquire (h : CallInv call) (hcaller : call.caller = .notCalled) :
    CallInv ({ call with caller := .holding }.note .acquired) := by
  have hjob : call.job = .notQueued :=
    h.job_eq_notQueued (Or.inr (by simp [hcaller, Caller.tookSlot]))
  refine h.extend [.acquired] rfl ?_ id (by simp) (by simp) ?_ ?_ ?_
  · intro mark hmark
    cases mark <;>
      simp [Call.noted, Call.note, Call.mayExecute, hcaller, hjob, Caller.tookSlot,
        Caller.hasLeft, Job.wasStarted] at hmark ⊢
  · simp [Call.note]
  · exact fun hqueued => absurd hjob hqueued
  · exact fun hqueued => absurd hjob hqueued

theorem submit (h : CallInv call) (hcaller : call.caller = .holding) :
    CallInv { call with caller := .submitting, job := .queued } := by
  have hjob : call.job = .notQueued := h.job_eq_notQueued (Or.inl hcaller)
  refine h.unnoted rfl ?_ ?_ ?_ ?_ ?_
  · intro mark hmark
    cases mark <;>
      simp [Call.noted, Call.mayExecute, hcaller, hjob, Caller.tookSlot,
        Caller.hasLeft, Job.wasStarted] at hmark ⊢
  · simp [hjob, Job.wasChecked]
  · simp
  · simp [Caller.tookSlot]
  · simp [Caller.hasLeft]

/-- The coroutine moves on within its awaiting phases. -/
theorem await (h : CallInv call) (expired : Bool)
    (hcaller : call.caller = .submitting ∨ ∃ before, call.caller = .awaiting before) :
    CallInv { call with caller := .awaiting expired } := by
  have hjob : call.job ≠ .notQueued := by
    intro hjob
    obtain ⟨hsubmitting, hawaiting⟩ := h.unqueued hjob
    rcases hcaller with hcaller | ⟨before, hcaller⟩
    · exact hsubmitting hcaller
    · exact hawaiting before hcaller
  have hphases : call.caller.tookSlot = true ∧ call.caller.hasLeft = false := by
    rcases hcaller with hcaller | ⟨before, hcaller⟩ <;>
      simp [hcaller, Caller.tookSlot, Caller.hasLeft]
  refine h.unnoted rfl ?_ id ?_ ?_ ?_
  · intro mark hmark
    have hsame : ({ call with caller := .awaiting expired } : Call).mayExecute =
        call.mayExecute := by
      cases hphase : call.job <;> simp [Call.mayExecute, hphase] at hjob ⊢
    cases mark <;>
      simp [Call.noted, hsame, hphases] at hmark ⊢
  · exact fun hunqueued => absurd hunqueued hjob
  · simp
  · simp

/-- The handler of a `submit` that raised before it queued the job. -/
theorem failSubmit (h : CallInv call) (hcaller : call.caller = .holding)
    (exc : PyExc) :
    CallInv ((call.note .released).leave (.engine (.raised exc))) := by
  have hjob : call.job = .notQueued := h.job_eq_notQueued (Or.inl hcaller)
  refine h.extend [.released, .left] (by simp [Call.leave, Call.note]) ?_ id
    (by simp) (by simp) ?_ ?_ ?_
  · intro mark hmark
    cases mark <;>
      simp [Call.noted, Call.leave, Call.note, Call.mayExecute, hcaller, hjob,
        Caller.tookSlot, Caller.hasLeft, Job.wasStarted] at hmark ⊢
  · simp [Call.leave, Call.note]
  · exact fun hqueued => absurd hjob hqueued
  · exact fun hqueued => absurd hjob hqueued

theorem start (h : CallInv call) (hjob : call.job = .queued) :
    CallInv ({ call with job := .started }.note .started) := by
  obtain ⟨hholding, htook⟩ := h.queued (by simp [hjob])
  refine h.extend [.started] rfl ?_ ?_ (by simp) ?_ ?_ ?_ ?_
  · intro mark hmark
    cases mark <;>
      simp [Call.noted, Call.note, Call.mayExecute, hjob, Job.wasStarted] at hmark ⊢
  · simp [hjob, Job.wasChecked]
  · simp [hjob, Job.wasChecked]
  · simp [Call.note]
  · exact fun _ => ⟨hholding, htook⟩
  · exact fun _ => h.given_up (by simp [hjob])

theorem skip (h : CallInv call) (hjob : call.job = .started) :
    CallInv { call with job := .skipping } := by
  obtain ⟨hholding, htook⟩ := h.queued (by simp [hjob])
  refine h.unnoted rfl ?_ ?_ ?_ ?_ ?_
  · intro mark hmark
    cases mark <;>
      simp [Call.noted, Call.mayExecute, hjob, Job.wasStarted] at hmark ⊢
  · simp [hjob, Job.wasChecked]
  · simp
  · exact fun _ => ⟨hholding, htook⟩
  · exact fun _ => h.given_up (by simp [hjob])

/-- The engine is entered: the caller cannot have left before the job began,
or the check would have seen it. -/
theorem enter (h : CallInv call) (hjob : call.job = .started)
    (habandoned : call.abandoned = false) :
    CallInv ({ call with job := .running }.note .engineRan) := by
  obtain ⟨hholding, htook⟩ := h.queued (by simp [hjob])
  refine ⟨by simp [Call.note], fun _ => ⟨hholding, htook⟩,
    fun _ => h.given_up (by simp [hjob]), ?_, ?_, ?_⟩
  · intro mark hmark
    rw [Call.note, List.count_append, h.noted_once mark hmark]
    cases mark <;>
      simp [Call.noted, Call.mayExecute, hjob, Job.wasStarted] at hmark ⊢
  · simp [Call.note, Job.wasChecked]
  · intro hlater
    have hbefore : StartedLate call.history :=
      startedLate_of_append hlater (by simp)
    have hleft : .left ∈ call.history := hbefore.subset (by simp)
    rw [h.mem_history_iff (by simp)] at hleft
    have hseen := h.given_up (by simp [hjob]) hleft
    rw [habandoned] at hseen
    cases hseen

theorem finishJob (h : CallInv call) (hjob : call.job = .running ∨ call.job = .skipping)
    (outcome : JobOutcome) :
    CallInv ({ call with job := .done outcome }.note .released) := by
  have hqueued : call.job ≠ .notQueued := by
    rcases hjob with hjob | hjob <;> simp [hjob]
  have hphases : call.job.wasStarted = true ∧ call.mayExecute = true := by
    rcases hjob with hjob | hjob <;> simp [Call.mayExecute, hjob, Job.wasStarted]
  obtain ⟨hholding, htook⟩ := h.queued hqueued
  refine h.extend [.released] rfl ?_ (by simp [Call.note, Job.wasChecked])
    (by simp) (by simp) ?_ ?_ ?_
  · intro mark hmark
    have hdone : ({ call with job := .done outcome }.note .released).mayExecute =
        false := rfl
    have hstarted : (Job.done outcome).wasStarted = true := rfl
    cases mark <;>
      simp [Call.noted, hdone, hphases] at hmark ⊢
    · rfl
    · rfl
    · exact hstarted
    · simpa [Call.note] using htook
  · simp [Call.note]
  · exact fun _ => ⟨hholding, htook⟩
  · exact fun _ => h.given_up hqueued

theorem acquire_spec (h : CallInv call) (hcaller : call.caller = .notCalled)
    {free : ℕ} (hfree : free ≠ 0) :
    CallInv ({ call with caller := .holding }.note .acquired) ∧
      Accounted.Moves free (free - 1) call.mayExecute
        ({ call with caller := .holding }.note .acquired).mayExecute := by
  have hjob : call.job = .notQueued :=
    h.job_eq_notQueued (Or.inr (by simp [hcaller, Caller.tookSlot]))
  have hbefore : call.mayExecute = false := by
    simp [Call.mayExecute, hjob, hcaller]
  have hafter :
      ({ call with caller := .holding }.note .acquired).mayExecute = true := by
    simp [Call.mayExecute, Call.note, hjob]
  rw [hbefore, hafter]
  exact ⟨h.acquire hcaller, .takes (by omega)⟩

/-- A `submit` that raises before it queues the job returns the slot. -/
theorem failSubmit_spec (h : CallInv call) (hcaller : call.caller = .holding)
    {free : ℕ} (hroom : call.mayExecute = true → free < engineSlots) (exc : PyExc) :
    CallInv (call.failSubmit free exc).2 ∧
      Accounted.Moves free (call.failSubmit free exc).1 call.mayExecute
        (call.failSubmit free exc).2.mayExecute := by
  have hjob := h.job_eq_notQueued (Or.inl hcaller)
  have hbefore : call.mayExecute = true := by
    simp [Call.mayExecute, hjob, hcaller]
  have hafter : ((call.note .released).leave
      (.engine (.raised exc))).mayExecute = false := by
    simp [Call.mayExecute, Call.leave, Call.note, hjob]
  rw [Call.failSubmit, releaseSlot_of_room (hroom hbefore), hbefore]
  refine ⟨h.failSubmit hcaller exc, ?_⟩
  rw [hafter]
  exact .returns rfl

theorem finishJob_spec (h : CallInv call) {free : ℕ}
    (hroom : call.mayExecute = true → free < engineSlots)
    (hjob : call.job = .running ∨ call.job = .skipping) (outcome : JobOutcome) :
    CallInv (call.finishJob free outcome).2 ∧
      Accounted.Moves free (call.finishJob free outcome).1 call.mayExecute
        (call.finishJob free outcome).2.mayExecute := by
  have hbefore : call.mayExecute = true := by
    rcases hjob with hjob | hjob <;> simp [Call.mayExecute, hjob]
  rw [Call.finishJob, releaseSlot_of_room (hroom hbefore), hbefore]
  exact ⟨h.finishJob hjob outcome, .returns rfl⟩

theorem arrive (h : CallInv call) : CallInv { call with arrived := true } :=
  ⟨h.unqueued, h.queued, h.given_up, h.noted_once, h.ran_noted, h.late_skipped⟩

theorem mayExecute_giveUp (h : CallInv call) {expired : Bool}
    (hcaller : call.caller = .awaiting expired) (how : CallEnd) :
    (call.giveUp how).mayExecute = call.mayExecute := by
  have hjob : call.job ≠ .notQueued := fun hjob =>
    (h.unqueued hjob).2 expired hcaller
  cases hphase : call.job <;>
    simp [Call.giveUp, Call.leave, Call.note, Call.mayExecute, hphase] at hjob ⊢

theorem giveUp (h : CallInv call) {expired : Bool}
    (hcaller : call.caller = .awaiting expired) (how : CallEnd)
    (hhow : (Caller.left how).tookSlot = true) : CallInv (call.giveUp how) := by
  have hjob : call.job ≠ .notQueued := fun hjob =>
    (h.unqueued hjob).2 expired hcaller
  have hsame := h.mayExecute_giveUp hcaller how
  refine h.extend [.left] rfl ?_ id (by simp) (by simp) ?_ ?_ ?_
  · intro mark hmark
    have hleft : (call.giveUp how).caller = .left how := rfl
    have hkept : (call.giveUp how).job = call.job := rfl
    cases mark <;>
      simp [Call.noted, hsame, hleft, hkept, hhow, hcaller, Caller.hasLeft]
        at hmark ⊢
  · exact fun hunqueued => absurd hunqueued hjob
  · exact fun _ => ⟨by simp [Call.giveUp, Call.leave, Call.note], hhow⟩
  · exact fun _ _ => rfl

end CallInv

/-- The step is not a `submit` that raises with its job in the queue. -/
def CleanSubmit (call : Call) (event : CallEvent) : Prop :=
  ∀ exc, event = .submitRaises exc → call.caller ≠ .submitting

/-- What one step of one call does to its books and to the slots. -/
theorem Call.step_spec (closed : Bool) {free : ℕ} {call : Call}
    (event : CallEvent) (h : CallInv call) (hroom : call.mayExecute = true → free < engineSlots)
    (hclean : CleanSubmit call event) :
    CallInv (call.step closed free event).2 ∧
      Accounted.Moves free (call.step closed free event).1 call.mayExecute
        (call.step closed free event).2.mayExecute := by
  have hidle : CallInv call ∧
      Accounted.Moves free free call.mayExecute call.mayExecute :=
    ⟨h, .stays _ rfl⟩
  have hstays : ∀ next : Call, CallInv next →
      next.mayExecute = call.mayExecute →
      CallInv next ∧ Accounted.Moves free free call.mayExecute next.mayExecute :=
    fun next hnext hsame => ⟨hnext, hsame ▸ .stays _ rfl⟩
  have hbranch := Call.step_branch closed free call event
  generalize call.step closed free event = next at hbranch
  cases hbranch with
  | still => exact hidle
  | busy hcaller _ =>
      have hjob : call.job = .notQueued :=
        h.job_eq_notQueued (Or.inr (by simp [hcaller, Caller.tookSlot]))
      exact hstays _ (h.refuse hcaller)
        (by simp [mayExecute, leave, note, hjob, hcaller])
  | acquires hcaller hfree => exact h.acquire_spec hcaller hfree
  | queues hcaller _ =>
      have hjob := h.job_eq_notQueued (Or.inl hcaller)
      exact hstays _ (h.submit hcaller) (by simp [mayExecute, hjob, hcaller])
  | awaits hcaller =>
      refine hstays _ (h.await false (Or.inl hcaller)) ?_
      cases hjob : call.job <;> simp [mayExecute, hjob, hcaller]
  | fails exc hcaller =>
      exact h.failSubmit_spec (hcaller.resolve_right (hclean exc rfl)) hroom exc
  | starts hjob => exact hstays _ (h.start hjob) (by simp [mayExecute, note, hjob])
  | skips hjob _ => exact hstays _ (h.skip hjob) (by simp [mayExecute, hjob])
  | enters hjob habandoned =>
      exact hstays _ (h.enter hjob habandoned) (by simp [mayExecute, note, hjob])
  | ends outcome hjob => exact h.finishJob_spec hroom (Or.inl hjob) _
  | drops hjob => exact h.finishJob_spec hroom (Or.inr hjob) _
  | arrives _ => exact hstays _ h.arrive rfl
  | @expires before hcaller =>
      refine hstays _ (h.await true (Or.inr ⟨before, hcaller⟩)) ?_
      cases hjob : call.job <;> simp [mayExecute, hjob, hcaller]
  | @resumes _ outcome hcaller _ _ =>
      exact hstays _ (h.giveUp hcaller _ (tookSlot_resultOf outcome))
        (h.mayExecute_giveUp hcaller _)
  | timesOut hcaller =>
      exact hstays _ (h.giveUp hcaller _ (tookSlot_timeoutOf _ _))
        (h.mayExecute_giveUp hcaller _)
  | cancels hcaller =>
      exact hstays _ (h.giveUp hcaller _ rfl) (h.mayExecute_giveUp hcaller _)

/-- The books of the whole pool: each call's own, and the slots. -/
structure PoolInv (pool : EnginePool) : Prop where
  calls : ∀ id, CallInv (pool.calls id)
  slots : Accounted engineSlots pool.freeSlots
    (fun id => (pool.calls id).mayExecute)

theorem poolInv_fresh : PoolInv {} where
  calls _ := callInv_fresh
  slots := Accounted.full engineSlots

/-- The step is not a `submit` that raises with its job in the queue. -/
def CleanEvent (pool : EnginePool) : PoolEvent → Prop
  | .on id event => CleanSubmit (pool.calls id) event
  | .close => True

theorem PoolInv.step {pool : EnginePool} (h : PoolInv pool) {event : PoolEvent}
    (hclean : CleanEvent pool event) : PoolInv (pool.step event) := by
  cases event with
  | close => exact ⟨h.calls, h.slots⟩
  | on id event =>
      obtain ⟨hcall, hmoves⟩ := Call.step_spec pool.closed event (h.calls id)
        (fun hheld => h.slots.free_lt hheld) hclean
      constructor
      · intro other
        by_cases heq : other = id
        · subst heq
          simpa [EnginePool.step] using hcall
        · simpa [EnginePool.step, heq] using h.calls other
      · refine h.slots.step (k := id) ?_ ?_
        · simpa [EnginePool.step] using hmoves
        · intro other hne
          simp [EnginePool.step, hne]

/-- Every run in which no `submit` raises after queueing keeps the books. -/
theorem poolInv_after {events : List PoolEvent}
    (hclean : Admissible (fun past event => CleanEvent (after past) event) events) :
    PoolInv (after events) := by
  refine hclean.invariant (fun events => PoolInv (after events)) poolInv_fresh
    fun past event hpast hevent => ?_
  rw [after_snoc]
  exact hpast.step hevent

/-- What the slots promise in a state: free slots and runs that may execute
make up the cap, each call returns its slot once and not before its run is
over, no slot is returned twice, and no run begins for a caller that left. -/
structure SlotsKept (pool : EnginePool) : Prop where
  balanced : ∃ inFlight : Finset ℕ,
    (∀ id, id ∈ inFlight ↔ (pool.calls id).mayExecute = true) ∧
      pool.freeSlots + inFlight.card = engineWorkers + engineQueue
  acquired_once : ∀ id, (pool.calls id).history.count .acquired ≤ 1
  released_once : ∀ id, (pool.calls id).history.count .released =
    if .acquired ∈ (pool.calls id).history ∧ (pool.calls id).mayExecute = false
    then 1 else 0
  never_over : ∀ id, .overReleased ∉ (pool.calls id).history
  late_skipped : ∀ id, StartedLate (pool.calls id).history →
    .engineRan ∉ (pool.calls id).history

theorem PoolInv.slotsKept {pool : EnginePool} (h : PoolInv pool) :
    SlotsKept pool where
  balanced := by
    obtain ⟨permits, hfree, hholders⟩ := h.slots
    exact ⟨permits.holders, hholders, hfree ▸ permits.balanced⟩
  acquired_once id := by
    rw [(h.calls id).noted_once _ (by simp)]
    exact Bool.toNat_le _
  released_once id := by
    have hacquired : .acquired ∈ (pool.calls id).history ↔
        (pool.calls id).caller.tookSlot = true :=
      (h.calls id).mem_history_iff (by simp)
    simp only [(h.calls id).noted_once .released (by simp), hacquired]
    cases htook : (pool.calls id).caller.tookSlot <;>
      cases hmay : (pool.calls id).mayExecute <;>
      simp [Call.noted, htook, hmay]
  never_over id := by
    rw [(h.calls id).mem_history_iff (by simp)]
    exact Bool.false_ne_true
  late_skipped id := (h.calls id).late_skipped

/-- Runs in which no `submit` raises with its job already queued keep every
promise of the slots in each state they reach. -/
theorem slots_kept_of_clean (events : List PoolEvent)
    (hclean : Admissible (fun past event => CleanEvent (after past) event) events) :
    SlotsKept (after events) :=
  (poolInv_after hclean).slotsKept

/-- A run that is skipped because its budget ran out while it was queued, and
one that a closed executor refuses: both slots come back. -/
theorem slots_kept_skipped_and_refused :
    SlotsKept (after [.on 0 .call, .on 0 .submitQueues, .on 0 .submitReturns,
      .on 0 .budgetExpires, .on 0 .resumesWithTimeout, .on 0 .workerTakes,
      .on 0 .jobChecks, .on 0 .jobSkips, .close, .on 1 .call,
      .on 1 (.submitRaises ⟨.runtimeError, []⟩)]) := by
  have hother : ∀ (pool : EnginePool) (id : ℕ) (event : CallEvent),
      (∀ exc, event ≠ .submitRaises exc) → CleanEvent pool (.on id event) :=
    fun pool id event hne exc heq => absurd heq (hne exc)
  refine slots_kept_of_clean _ ?_
  exact ((((((((((((Admissible.nil _).snoc (hother _ _ _ (by simp))).snoc
    (hother _ _ _ (by simp))).snoc (hother _ _ _ (by simp))).snoc
    (hother _ _ _ (by simp))).snoc (hother _ _ _ (by simp))).snoc
    (hother _ _ _ (by simp))).snoc (hother _ _ _ (by simp))).snoc
    (hother _ _ _ (by simp))).snoc trivial).snoc (hother _ _ _ (by simp))).snoc
    (fun exc _ hcaller => by cases hcaller))

/-- A `submit` that cannot start a worker after it queued the job: the handler
returns the slot while the run can still execute. -/
def refusedWorker : List PoolEvent :=
  [.on 0 .call, .on 0 .submitQueues, .on 0 (.submitRaises ⟨.runtimeError, []⟩)]

/-- The slot is free again with its run in the queue; the run starts after its
caller left, runs the engine, and returns the slot a second time. -/
theorem slots_broken_by_late_refusal :
    ¬ SlotsKept (after refusedWorker) ∧
      let pool := after (refusedWorker ++ [.on 0 .workerTakes, .on 0 .jobChecks,
        .on 0 (.engineEnds (.error ⟨.valueError, []⟩))])
      (pool.calls 0).history =
        [.acquired, .released, .left, .started, .engineRan, .overReleased] := by
  refine ⟨?_, rfl⟩
  intro hkept
  obtain ⟨inFlight, hmem, hsum⟩ := hkept.balanced
  have hheld : 0 ∈ inFlight := (hmem 0).mpr rfl
  have hpos : 0 < inFlight.card := Finset.card_pos.mpr ⟨0, hheld⟩
  have hfree : (after refusedWorker).freeSlots = engineWorkers + engineQueue := rfl
  omega

end EnginePool
end QwedA2A
