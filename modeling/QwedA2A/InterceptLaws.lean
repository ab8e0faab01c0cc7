/-
What holds of interleaved `intercept` calls: each is atomic, the boundary sees
one run of operations, the engines are entered within the rate limit, and the
metrics are the tally of what was returned.
-/
import QwedA2A.InterceptRun
import QwedA2A.RateLimit

namespace QwedA2A

open EventRun

variable {Token Tree : Type}

namespace InterceptorSetup

variable (setup : InterceptorSetup Token Tree) (trust : TrustBoundary)

/-- The boundary after a run is the one its operations leave. -/
theorem after_trust (run : List InterceptEvent) :
    (setup.after trust run).trust =
      final TrustBoundary.step trust (setup.operations trust run) := by
  induction run using List.reverseRecOn with
  | nil => rfl
  | append_singleton past event ih =>
      rw [after_snoc, operations_snoc, final_append, ← ih]
      have hstretch := setup.step_stretch (setup.after trust past) event
      generalize setup.step (setup.after trust past) event = state at hstretch
      cases hstretch with
      | still _ hquiet =>
          rw [hquiet]
          rfl
      | refuses _ _ tb hfree henter =>
          simp only [boundaryOps, hfree]
          rw [← Interceptor.enter_boundary, henter]
          rfl
      | starts _ _ tb hfree henter =>
          simp only [boundaryOps, hfree]
          rw [← Interceptor.enter_boundary, henter]
      | finishes _ _ _ => rfl
      | drops _ => rfl
      | operates _ => rfl

/-- The instant at which a stretch hands a message of the pair to the engines. -/
def handover (pair : PyStr × PyStr) (state : InterceptState Token) :
    InterceptEvent → List ℚ
  | .enter call message _ clock _ =>
      match state.running call, (setup.fixed.enter state.trust message clock).1 with
      | none, .running =>
          if (message.senderAgentId, message.receiverAgentId) = pair then
            [clock.nowMono]
          else []
      | _, _ => []
  | _ => []

/-- The messages of a pair that the engines are handed in a run. -/
def handovers (pair : PyStr × PyStr) (run : List InterceptEvent) : List ℚ :=
  emitted setup.step (setup.handover pair) (setup.start trust) run

/-- A message is handed over only by a request that the boundary admits. -/
theorem handover_sublist (pair : PyStr × PyStr) (state : InterceptState Token)
    (event : InterceptEvent) :
    (setup.handover pair state event).Sublist
      (emitted TrustBoundary.step (TrustBoundary.admission pair) state.trust
        (setup.boundaryOps state event)) := by
  cases event with
  | enter call message traceId clock verdictClock =>
      rw [handover]
      split
      next hfree hrunning =>
        obtain ⟨size, hsize, hwithin, hallowed⟩ :=
          Interceptor.enter_running_iff.mp hrunning
        simp only [boundaryOps, hfree, Interceptor.boundaryOps, hsize]
        rw [if_neg (not_lt.mpr hwithin)]
        simp only [emitted, TrustBoundary.admission, hallowed, and_true,
          List.append_nil]
        exact List.Sublist.refl _
      next => exact List.nil_sublist _
  | resume _ _ _ => exact List.nil_sublist _
  | cancel _ => exact List.nil_sublist _
  | operate _ => exact List.nil_sublist _

theorem handovers_sublist (pair : PyStr × PyStr) (run : List InterceptEvent) :
    (setup.handovers trust pair run).Sublist
      (emitted TrustBoundary.step (TrustBoundary.admission pair) trust
        (setup.operations trust run)) := by
  induction run using List.reverseRecOn with
  | nil => exact List.nil_sublist _
  | append_singleton past event ih =>
      rw [handovers, emitted_snoc, operations_snoc, emitted_append,
        ← after_trust]
      exact ih.append (setup.handover_sublist pair _ event)

def records (ended : List (Interception Token)) : List InterceptRecord :=
  ended.flatMap fun interception =>
    recorded interception.entry interception.clock interception.result

def recordOf (interception : Interception Token)
    (verdict : VerificationVerdict Token) : InterceptRecord where
  status := verdict.status
  engine := some verdict.engineUsed
  senderId := interception.entry.message.senderAgentId
  latencyMs := interception.clock.latencyMs

/-- The records are those of the calls that returned. -/
theorem countP_records (kind : InterceptRecord → Bool)
    (ended : List (Interception Token)) :
    (records ended).countP kind = ended.countP fun interception =>
      interception.result.toOption.any fun verdict =>
        kind (recordOf interception verdict) := by
  induction ended with
  | nil => rfl
  | cons interception rest ih =>
      rw [records, List.flatMap_cons, List.countP_append, List.countP_cons, ← ih,
        add_comm]
      congr 1
      cases hresult : interception.result with
      | error exc => rfl
      | ok verdict => exact List.countP_singleton

theorem length_records (ended : List (Interception Token)) :
    (records ended).length =
      (ended.filter fun interception => interception.result.toBool).length := by
  rw [← List.countP_true, countP_records, List.countP_eq_length_filter]
  congr 2
  funext interception
  cases interception.result <;> rfl

/-- A sender is counted once for each of its calls that returned. -/
theorem bySender_of_tally {ended : List (Interception Token)}
    {metrics : InterceptMetrics} (h : Tally (records ended) metrics) (sender : PyStr) :
    (metrics.toDict.bySender.lookup sender).getD 0 =
      (ended.filter fun interception => interception.result.toBool).countP
        fun interception => interception.entry.message.senderAgentId = sender := by
  change (metrics.bySender.lookup sender).getD 0 = _
  rw [h.sender, countP_records, List.countP_filter]
  refine List.countP_congr fun interception _ => ?_
  cases interception.result with
  | error exc => simp [Except.toOption, Except.toBool]
  | ok verdict =>
      simp only [Except.toOption, Except.toBool, Option.any_some, Bool.and_true]
      rfl

theorem sum_outcomes (records : List InterceptRecord) :
    (records.countP fun record => record.status = .verified) +
      (records.countP fun record => record.status = .blocked) +
      (records.countP fun record => record.status = .unverifiable) +
      (records.countP fun record => record.status = .heuristicPass) +
      (records.countP fun record => record.status = .error) = records.length := by
  induction records with
  | nil => rfl
  | cons record rest ih =>
      rw [List.length_cons, ← ih]
      cases hstatus : record.status <;> simp [hstatus] <;> omega

theorem tally_foldl {records : List InterceptRecord} {metrics : InterceptMetrics}
    (h : Tally records metrics) (more : List InterceptRecord) :
    Tally (records ++ more) (more.foldl recordIntercept metrics) := by
  induction more generalizing records metrics with
  | nil => simpa using h
  | cons record rest ih =>
      rw [List.append_cons, List.foldl_cons]
      exact ih (h.snoc record)

theorem tally_conclude {state : InterceptState Token}
    (h : Tally (records state.ended) state.metrics) (entry : Entry)
    (drafted : Except PyExc Draft) (pool : PoolOutcome) (clock : VerdictClock) :
    Tally (records (setup.conclude state entry drafted pool clock).ended)
      (setup.conclude state entry drafted pool clock).metrics := by
  simp only [conclude, records, List.flatMap_append, List.flatMap_singleton]
  exact tally_foldl h _

theorem tally_after (run : List InterceptEvent) :
    Tally (records (setup.after trust run).ended)
      (setup.after trust run).metrics := by
  induction run using List.reverseRecOn with
  | nil => exact Tally.nil
  | append_singleton past event ih =>
      rw [after_snoc]
      have hstretch := setup.step_stretch (setup.after trust past) event
      generalize setup.step (setup.after trust past) event = state at hstretch
      cases hstretch with
      | still _ _ _ => exact ih
      | refuses _ _ _ _ _ => exact tally_conclude setup ih _ _ _ _
      | starts _ _ _ _ _ => exact ih
      | finishes _ _ _ => exact tally_conclude setup ih _ _ _ _
      | drops _ => exact ih
      | operates _ => exact ih

end InterceptorSetup

/-- However calls interleave with each other and with the operators, a call that
ends does what it would do on its own, on the boundary it entered with and the
issuance record and the readings of the event that ended it; and the boundary is
left as by the operations of the run in their order. -/
theorem interleaved_intercepts_are_atomic (setup : InterceptorSetup Token Tree)
    (trust : TrustBoundary) (run : List InterceptEvent) :
    (∀ interception ∈ (setup.after trust run).ended,
      setup.Atomic trust run interception) ∧
    (setup.after trust run).trust =
      final TrustBoundary.step trust (setup.operations trust run) :=
  ⟨(setup.traced trust run).ended, setup.after_trust trust run⟩

/-- Whatever else runs, in no window of the monotonic clock are the engines handed
more messages of one pair than its bucket and the refill of the window allow. -/
theorem handovers_within_rate (setup : InterceptorSetup Token Tree) (limit : ℤ)
    (hlimit : 0 ≤ limit) (defaultAllow : Bool) (run : List InterceptEvent)
    (hclock : ClockMonotone BoundaryOp.monoReads
      (setup.operations (.fresh limit defaultAllow) run))
    (pair : PyStr × PyStr) (start stop : ℚ) (h : start ≤ stop) :
    (windowCount (setup.handovers (.fresh limit defaultAllow) pair run) start stop :
      ℚ) ≤ limit + limit / 60 * (stop - start) := by
  have hadmitted := setup.handovers_sublist (.fresh limit defaultAllow) pair run
  change List.Sublist _ (TrustBoundary.admissions limit defaultAllow pair
    (setup.operations (.fresh limit defaultAllow) run)) at hadmitted
  rw [TrustBoundary.admissions_eq_police limit defaultAllow pair _ hclock]
    at hadmitted
  have hfewer : windowCount (setup.handovers (.fresh limit defaultAllow) pair run)
      start stop ≤ windowCount _ start stop := hadmitted.countP_le
  have hwindow := ArrivalCurve.police_window (Int.cast_nonneg hlimit)
    (TrustBoundary.rate_nonneg hlimit)
    (TrustBoundary.limiterRequests limit defaultAllow pair
      (setup.operations (.fresh limit defaultAllow) run)) h
  exact (Nat.cast_le.mpr hfewer).trans hwindow

/-- One message a minute: of the three calls the second is refused. -/
theorem handovers_within_rate_overlapping :
    (windowCount (Reference.setup.handovers (.fresh 1 true) (py "a", py "b")
      Reference.overlapping) 0 60 : ℚ) ≤ ((1 : ℤ) : ℚ) + (1 : ℤ) / 60 * (60 - 0) := by
  have hreads : (Reference.setup.operations (.fresh 1 true)
      Reference.overlapping).flatMap BoundaryOp.monoReads =
        [0, 0, 30, 30, 60, 60] := by
    decide +kernel
  refine handovers_within_rate Reference.setup 1 (by decide) true
    Reference.overlapping ?_ (py "a", py "b") 0 60 (by norm_num)
  rw [ClockMonotone, hreads]
  decide +kernel

/-- The metrics count the calls that returned, by outcome, engine and sender: the
outcomes add up to the total, and a call that raised is in no count. -/
theorem intercept_metrics_tally (setup : InterceptorSetup Token Tree)
    (trust : TrustBoundary) (run : List InterceptEvent) :
    let state := setup.after trust run
    let returned := state.ended.filter fun interception =>
      interception.result.toBool
    let report := state.metrics.toDict
    report.totalIntercepts = returned.length ∧
    report.totalForwarded = report.totalVerified ∧
    report.totalVerified + report.totalBlocked + report.totalUnverifiable +
      report.totalHeuristicPass + report.totalErrors = report.totalIntercepts ∧
    (∀ status, state.metrics.outcomes status = state.ended.countP
      fun interception => interception.result.toOption.any
        fun verdict => verdict.status = status) ∧
    (∀ engine, engine ≠ [] → (report.byEngine.lookup engine).getD 0 =
      state.ended.countP fun interception => interception.result.toOption.any
        fun verdict => verdict.engineUsed = engine) ∧
    ∀ sender, (report.bySender.lookup sender).getD 0 =
      returned.countP fun interception =>
        interception.entry.message.senderAgentId = sender := by
  intro state returned report
  have htally := setup.tally_after trust run
  have htotal : report.totalIntercepts = returned.length :=
    htally.total.trans (InterceptorSetup.length_records _)
  have houtcome := htally.outcome
  refine ⟨htotal, rfl, ?_, ?_, ?_, ?_⟩
  · have hsum := InterceptorSetup.sum_outcomes
      (InterceptorSetup.records (setup.after trust run).ended)
    rw [← houtcome, ← houtcome, ← houtcome, ← houtcome, ← houtcome,
      ← htally.total] at hsum
    exact hsum
  · intro status
    rw [houtcome, InterceptorSetup.countP_records]
    rfl
  · intro engine hengine
    change (state.metrics.byEngine.lookup engine).getD 0 = _
    rw [htally.engine, InterceptorSetup.countP_records]
    refine List.countP_congr fun interception _ => ?_
    cases interception.result <;>
      simp [Except.toOption, InterceptorSetup.recordOf, hengine]
  · exact InterceptorSetup.bySender_of_tally htally

end QwedA2A
