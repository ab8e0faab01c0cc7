/-
Concurrent callers of one boundary.  Whatever the order of their steps, the calls act
as operations done one after the other, in the order in which they left; so what holds
of every run of operations holds between threads.
-/
import QwedA2A.BoundaryLock

namespace QwedA2A

open EventRun ExpiringTable

/-- A step of some thread, at some instant. -/
abbrev BoundaryEvent := Monitor.Event Instant BoundaryCall

/-- A call that has left the boundary. -/
abbrev BoundaryEntry := Monitor.Entry Instant BoundaryAnswer BoundaryCall

def lockedAfter (limit : ℤ) (defaultAllow : Bool) (run : List BoundaryEvent) :
    Monitor.State TrustBoundary Instant BoundaryAnswer BoundaryCall :=
  Monitor.after TrustBoundary.body (.fresh limit defaultAllow) run

theorem lockedAfter_sound (limit : ℤ) (defaultAllow : Bool) (run : List BoundaryEvent) :
    ∃ base, Monitor.Sound TrustBoundary.body (.fresh limit defaultAllow)
      (lockedAfter limit defaultAllow run) base :=
  Monitor.sound_after TrustBoundary.body (.fresh limit defaultAllow) run

def operations (log : List BoundaryEntry) : List BoundaryOp :=
  Monitor.operations BoundaryCall.operation log

/-- The clocks of an instant are not ahead of those of another. -/
def Instant.NotAfter (first second : Instant) : Prop :=
  first.wall ≤ second.wall ∧ first.mono ≤ second.mono

section Log

variable {limit : ℤ} {defaultAllow : Bool} {log : List BoundaryEntry}
  {tb : TrustBoundary}

theorem clockOf_eq {readings : List Instant} (hne : readings ≠ [])
    (hclock : readings.Pairwise Instant.NotAfter) :
    ∃ first ∈ readings, ∃ second ∈ readings, ∃ third ∈ readings,
      second.mono ≤ third.mono ∧
        TrustBoundary.clockOf readings = ⟨first.wall, second.mono, third.mono⟩ := by
  cases readings with
  | nil => exact absurd rfl hne
  | cons first rest =>
      have hfirst : first ∈ first :: rest := List.mem_cons_self
      rw [TrustBoundary.clockOf.eq_def]
      split
      next one second third heq =>
        obtain ⟨rfl, rfl⟩ := List.cons.inj heq
        have hlate : second.NotAfter third := by
          have hrest := (List.pairwise_cons.mp hclock).2
          exact (List.pairwise_cons.mp hrest).1 third (List.mem_singleton_self third)
        exact ⟨first, hfirst, second, by simp, third, by simp, hlate.2, rfl⟩
      next one more _ heq =>
        obtain ⟨rfl, rfl⟩ := List.cons.inj heq
        exact ⟨first, hfirst, first, hfirst, first, hfirst, le_rfl, rfl⟩
      next heq => cases heq

/-- The operations read the clocks at the given instants, and neither goes back. -/
structure ReadsAt (ops : List BoundaryOp) (instants : List Instant) : Prop where
  wall : ∀ time ∈ ops.flatMap BoundaryOp.wallReads,
    ∃ instant ∈ instants, instant.wall = time
  mono : ∀ time ∈ ops.flatMap BoundaryOp.monoReads,
    ∃ instant ∈ instants, instant.mono = time
  wall_order : ClockMonotone BoundaryOp.wallReads ops
  mono_order : ClockMonotone BoundaryOp.monoReads ops

theorem ReadsAt.of_silent {ops : List BoundaryOp} (instants : List Instant)
    (hwall : ops.flatMap BoundaryOp.wallReads = [])
    (hmono : ops.flatMap BoundaryOp.monoReads = []) : ReadsAt ops instants where
  wall time htime := by simp [hwall] at htime
  mono time htime := by simp [hmono] at htime
  wall_order := by
    rw [ClockMonotone, hwall]
    exact List.Pairwise.nil
  mono_order := by
    rw [ClockMonotone, hmono]
    exact List.Pairwise.nil

theorem ReadsAt.append {ops more : List BoundaryOp} {instants later : List Instant}
    (h : ReadsAt ops instants) (hmore : ReadsAt more later)
    (hlater : ∀ first ∈ instants, ∀ second ∈ later, first.NotAfter second) :
    ReadsAt (ops ++ more) (instants ++ later) where
  wall time htime := by
    rw [List.flatMap_append] at htime
    rcases List.mem_append.mp htime with hold | hnew
    · obtain ⟨instant, hinstant, htime⟩ := h.wall time hold
      exact ⟨instant, List.mem_append_left _ hinstant, htime⟩
    · obtain ⟨instant, hinstant, htime⟩ := hmore.wall time hnew
      exact ⟨instant, List.mem_append_right _ hinstant, htime⟩
  mono time htime := by
    rw [List.flatMap_append] at htime
    rcases List.mem_append.mp htime with hold | hnew
    · obtain ⟨instant, hinstant, htime⟩ := h.mono time hold
      exact ⟨instant, List.mem_append_left _ hinstant, htime⟩
    · obtain ⟨instant, hinstant, htime⟩ := hmore.mono time hnew
      exact ⟨instant, List.mem_append_right _ hinstant, htime⟩
  wall_order := by
    rw [ClockMonotone, List.flatMap_append, List.pairwise_append]
    refine ⟨h.wall_order, hmore.wall_order, fun time htime time' htime' => ?_⟩
    obtain ⟨first, hfirst, rfl⟩ := h.wall time htime
    obtain ⟨second, hsecond, rfl⟩ := hmore.wall time' htime'
    exact (hlater first hfirst second hsecond).1
  mono_order := by
    rw [ClockMonotone, List.flatMap_append, List.pairwise_append]
    refine ⟨h.mono_order, hmore.mono_order, fun time htime time' htime' => ?_⟩
    obtain ⟨first, hfirst, rfl⟩ := h.mono time htime
    obtain ⟨second, hsecond, rfl⟩ := hmore.mono time' htime'
    exact (hlater first hfirst second hsecond).2

/-- The operation of a call reads the clocks where the call did. -/
theorem operation_reads {call : BoundaryCall} {readings : List Instant}
    {result : BoundaryAnswer} {next : TrustBoundary}
    (h : (TrustBoundary.body call).alone tb readings = some (result, next))
    (hclock : readings.Pairwise Instant.NotAfter) :
    ReadsAt (call.operation readings) readings := by
  cases call with
  | evaluate senderId receiverId payloadType =>
      obtain ⟨hne, _⟩ := TrustBoundary.evaluateBody_alone tb readings senderId receiverId
        payloadType h
      obtain ⟨first, hfirst, second, hsecond, third, hthird, hle, hclockOf⟩ :=
        clockOf_eq hne hclock
      rw [BoundaryCall.operation, hclockOf]
      refine ⟨fun time htime => ?_, fun time htime => ?_, ?_, ?_⟩
      · simp only [BoundaryOp.wallReads, List.flatMap_singleton, List.mem_singleton]
          at htime
        exact ⟨first, hfirst, htime.symm⟩
      · simp only [BoundaryOp.monoReads, List.flatMap_singleton, List.mem_cons,
          List.not_mem_nil, or_false] at htime
        rcases htime with rfl | rfl
        · exact ⟨second, hsecond, rfl⟩
        · exact ⟨third, hthird, rfl⟩
      · simp [ClockMonotone, BoundaryOp.wallReads]
      · simpa [ClockMonotone, BoundaryOp.monoReads] using hle
  | blockAgent agentId => exact .of_silent readings rfl rfl
  | trustAgent agentId entry => exact .of_silent readings rfl rfl
  | revokeAgent agentId => exact .of_silent readings rfl rfl
  | blockPair senderId receiverId => exact .of_silent readings rfl rfl
  | unblockPair senderId receiverId => exact .of_silent readings rfl rfl
  | isTrusted agentId now => exact .of_silent readings rfl rfl
  | trustedAgentCount => exact .of_silent readings rfl rfl

theorem operations_reads
    (h : Monitor.Replays TrustBoundary.body (.fresh limit defaultAllow) log tb)
    (hclock : (log.flatMap Monitor.Entry.readings).Pairwise Instant.NotAfter) :
    ReadsAt (operations log) (log.flatMap Monitor.Entry.readings) := by
  induction h with
  | nil => exact .of_silent [] rfl rfl
  | @snoc log met next entry _ hentry ih =>
      rw [List.flatMap_append, List.flatMap_singleton, List.pairwise_append] at hclock
      rw [operations, Monitor.operations_snoc, List.flatMap_append,
        List.flatMap_singleton]
      exact (ih hclock.1).append (operation_reads hentry hclock.2.1) hclock.2.2

end Log

section Threads

variable {limit : ℤ} {defaultAllow : Bool} {run past later : List BoundaryEvent}

/-- The clocks at the steps of a run never go back. -/
def ClocksForward (run : List BoundaryEvent) : Prop :=
  (run.flatMap Monitor.Event.reads).Pairwise Instant.NotAfter

/-- Then the operations of the calls that have left read clocks that do not. -/
theorem operations_clocks (hclock : ClocksForward run) :
    ClockMonotone BoundaryOp.wallReads
        (operations (lockedAfter limit defaultAllow run).log) ∧
      ClockMonotone BoundaryOp.monoReads
        (operations (lockedAfter limit defaultAllow run).log) := by
  obtain ⟨base, hsound⟩ := lockedAfter_sound limit defaultAllow run
  have hordered := Monitor.ordered_after TrustBoundary.body
    (.fresh limit defaultAllow) run
  have hreads := operations_reads hsound.replays (hclock.sublist hordered.log)
  exact ⟨hreads.wall_order, hreads.mono_order⟩

end Threads

/-- However the reads and writes of concurrent calls interleave, the calls act one after
the other: in the order in which they leave, which keeps that of calls that do not
overlap, each answers as its method does alone after the operations before it, and
whenever the lock is free the boundary is as those operations make it; if the clocks
never go back in the run, they do not between the operations; and no call is stuck. -/
theorem boundary_calls_serialise (limit : ℤ) (defaultAllow : Bool)
    (run : List BoundaryEvent) :
    (∀ caller call result,
      (lockedAfter limit defaultAllow run).call caller = .returned call result →
        .enter caller call ∈ run ∧ ∃ before readings rest,
          (lockedAfter limit defaultAllow run).log =
            before ++ ⟨caller, call, readings, result⟩ :: rest ∧
          result = call.answer (.after limit defaultAllow (operations before))
            readings ∧
          ∀ past later, run = past ++ later →
            (∀ call result, (lockedAfter limit defaultAllow past).call caller ≠
              .returned call result) →
            (lockedAfter limit defaultAllow past).log <+: before) ∧
    ((lockedAfter limit defaultAllow run).holder = none →
      (lockedAfter limit defaultAllow run).shared = .after limit defaultAllow
        (operations (lockedAfter limit defaultAllow run).log)) ∧
    (ClocksForward run →
      ClockMonotone BoundaryOp.wallReads
          (operations (lockedAfter limit defaultAllow run).log) ∧
        ClockMonotone BoundaryOp.monoReads
          (operations (lockedAfter limit defaultAllow run).log)) ∧
    ∀ caller call,
      ((lockedAfter limit defaultAllow run).call caller).method = some call →
        ∃ later result, (lockedAfter limit defaultAllow (run ++ later)).call caller =
          .returned call result := by
  have : Nonempty Instant := ⟨⟨0, 0⟩⟩
  refine ⟨?_, TrustBoundary.body_implements.shared, operations_clocks, fun caller call hcall =>
    Monitor.can_return TrustBoundary.body (.fresh limit defaultAllow) run hcall⟩
  intro caller call result hreturned
  obtain ⟨before, readings, rest, hlog, hanswer⟩ := TrustBoundary.body_implements.answered hreturned
  refine ⟨?_, before, readings, rest, hlog, hanswer, ?_⟩
  · have hmethod : ((lockedAfter limit defaultAllow run).call caller).method =
        some call := by
      rw [hreturned]
      rfl
    exact Monitor.entered_of_method hmethod
  · rintro past later rfl hpending
    exact Monitor.log_prefix_before hpending hlog

def BoundaryOp.call : BoundaryOp → BoundaryCall
  | .blockAgent agentId => .blockAgent agentId
  | .trustAgent agentId entry => .trustAgent agentId entry
  | .revokeAgent agentId => .revokeAgent agentId
  | .blockPair senderId receiverId => .blockPair senderId receiverId
  | .unblockPair senderId receiverId => .unblockPair senderId receiverId
  | .evaluate senderId receiverId payloadType _ =>
      .evaluate senderId receiverId payloadType

theorem call_of_mem_operation {op : BoundaryOp} {call : BoundaryCall}
    {readings : List Instant} (h : op ∈ call.operation readings) : call = op.call := by
  cases call with
  | blockAgent agentId => cases List.mem_singleton.mp h; rfl
  | trustAgent agentId entry => cases List.mem_singleton.mp h; rfl
  | revokeAgent agentId => cases List.mem_singleton.mp h; rfl
  | blockPair senderId receiverId => cases List.mem_singleton.mp h; rfl
  | unblockPair senderId receiverId => cases List.mem_singleton.mp h; rfl
  | evaluate senderId receiverId payloadType => cases List.mem_singleton.mp h; rfl
  | isTrusted agentId now => cases h
  | trustedAgentCount => cases h

/-- A pair that was blocked and not unblocked since is blocked. -/
theorem pairBlockedIn_of_kept {senderId receiverId : PyStr} (past : List BoundaryOp)
    {later : List BoundaryOp} (hkept : .unblockPair senderId receiverId ∉ later) :
    PairBlockedIn (past ++ .blockPair senderId receiverId :: later) senderId
      receiverId := by
  refine lastMatch_of_kept (by simp [BoundaryOp.setsPair]) past fun op hmem hsets => ?_
  cases op with
  | blockPair sender receiver =>
      simp only [BoundaryOp.setsPair, Bool.and_eq_true, decide_eq_true_eq] at hsets
      obtain ⟨rfl, rfl⟩ := hsets
      rfl
  | unblockPair sender receiver =>
      simp only [BoundaryOp.setsPair, Bool.and_eq_true, decide_eq_true_eq] at hsets
      obtain ⟨rfl, rfl⟩ := hsets
      exact absurd hmem hkept
  | blockAgent agentId => cases hsets
  | trustAgent agentId entry => cases hsets
  | revokeAgent agentId => cases hsets
  | evaluate sender receiver payloadType clock => cases hsets

/-- An agent that was blocked and not trusted since is blocked. -/
theorem blockedIn_of_kept {agentId : PyStr} (past : List BoundaryOp)
    {later : List BoundaryOp} (hkept : ∀ entry, .trustAgent agentId entry ∉ later) :
    BlockedIn (past ++ .blockAgent agentId :: later) agentId := by
  refine lastMatch_of_kept (by simp [BoundaryOp.setsBlock]) past fun op hmem hsets => ?_
  cases op with
  | blockAgent other =>
      obtain rfl : other = agentId := by simpa [BoundaryOp.setsBlock] using hsets
      rfl
  | trustAgent other entry =>
      obtain rfl : other = agentId := by simpa [BoundaryOp.setsBlock] using hsets
      exact absurd hmem (hkept entry)
  | revokeAgent agentId => cases hsets
  | blockPair sender receiver => cases hsets
  | unblockPair sender receiver => cases hsets
  | evaluate sender receiver payloadType clock => cases hsets

/-- A blocked pair, or one with a blocked agent, is refused. -/
theorem evaluate_of_blockedIn (limit : ℤ) (defaultAllow : Bool) {ops : List BoundaryOp}
    {senderId receiverId : PyStr} (payloadType : Option PyStr)
    (clock : TrustBoundary.Clock)
    (h : BlockedIn ops senderId ∨ BlockedIn ops receiverId ∨
      PairBlockedIn ops senderId receiverId) :
    ((TrustBoundary.after limit defaultAllow ops).evaluate senderId receiverId
      payloadType clock).1.1 = false := by
  have hsummary := summarises_after limit defaultAllow ops
  cases hstages : (TrustBoundary.after limit defaultAllow ops).checkStages senderId
      receiverId payloadType clock.now with
  | some reason => rw [TrustBoundary.evaluate_of_refused hstages]
  | none =>
      have hpasses := (TrustBoundary.admitted_iff_passes _ _ _ _ _).mp hstages
      rcases h with hsender | hreceiver | hpair
      · exact absurd ((hsummary.blocked _).mpr hsender) hpasses.sender_unblocked
      · exact absurd ((hsummary.blocked _).mpr hreceiver) hpasses.receiver_unblocked
      · exact absurd ((hsummary.pairs _ _).mpr hpair) hpasses.pair_unblocked

/-- The instant at which a logged call had a request of the pair allowed. -/
def allowedBy (pair : PyStr × PyStr) (entry : BoundaryEntry) : List ℚ :=
  match entry.method, entry.result with
  | .evaluate senderId receiverId _, .decision true _ =>
      if (senderId, receiverId) = pair then
        [(TrustBoundary.clockOf entry.readings).nowMono]
      else []
  | _, _ => []

/-- The requests of the pair that were allowed, whoever called. -/
def allowedRequests (pair : PyStr × PyStr) (log : List BoundaryEntry) : List ℚ :=
  log.flatMap (allowedBy pair)

theorem allowedBy_eq (pair : PyStr × PyStr) (tb : TrustBoundary) (caller : ℕ)
    (call : BoundaryCall) (readings : List Instant) :
    allowedBy pair ⟨caller, call, readings, call.answer tb readings⟩ =
      emitted TrustBoundary.step (TrustBoundary.admission pair) tb
        (call.operation readings) := by
  cases call with
  | evaluate senderId receiverId payloadType =>
      simp only [allowedBy, BoundaryCall.answer, BoundaryCall.operation, emitted,
        TrustBoundary.admission, TrustBoundary.decided, List.append_nil]
      cases (tb.evaluate senderId receiverId payloadType
        (TrustBoundary.clockOf readings)).1.1 with
      | true => simp
      | false => simp
  | blockAgent agentId => rfl
  | trustAgent agentId entry => rfl
  | revokeAgent agentId => rfl
  | blockPair senderId receiverId => rfl
  | unblockPair senderId receiverId => rfl
  | isTrusted agentId now => rfl
  | trustedAgentCount => rfl

theorem allowedRequests_eq {limit : ℤ} {defaultAllow : Bool} {log : List BoundaryEntry}
    {tb : TrustBoundary} (pair : PyStr × PyStr)
    (h : Monitor.Replays TrustBoundary.body (.fresh limit defaultAllow) log tb) :
    allowedRequests pair log =
      TrustBoundary.admissions limit defaultAllow pair (operations log) := by
  induction h with
  | nil => rfl
  | @snoc log met next entry hbefore hentry ih =>
      have hmet : met = final TrustBoundary.step (.fresh limit defaultAllow)
          (operations log) := TrustBoundary.body_implements.replays hbefore
      obtain ⟨hresult, _⟩ := TrustBoundary.body_implements hentry
      rw [operations, Monitor.operations_snoc, TrustBoundary.admissions, emitted_append,
        ← operations, ← hmet, allowedRequests, List.flatMap_append, List.flatMap_singleton]
      rw [allowedRequests, TrustBoundary.admissions] at ih
      rw [ih]
      congr 1
      calc allowedBy pair entry
          = allowedBy pair ⟨entry.caller, entry.method, entry.readings,
              entry.method.answer met entry.readings⟩ := by rw [← hresult]
        _ = _ := allowedBy_eq pair met entry.caller entry.method entry.readings

section Enforced

variable {limit : ℤ} {defaultAllow : Bool} {past later : List BoundaryEvent}

/-- A call of the run had returned when the blocker's had not. -/
abbrev ReturnedBefore (limit : ℤ) (defaultAllow : Bool) (run : List BoundaryEvent)
    (first second : ℕ) : Prop :=
  Monitor.ReturnedBefore TrustBoundary.body (.fresh limit defaultAllow) run first second

/-- The operations that a decision is judged by, where it had not been taken when a call
had returned: those before that call, its own, and those of calls that returned
after it. -/
theorem operations_around {caller blocker : ℕ} {call block : BoundaryCall}
    {result answer : BoundaryAnswer} {before rest : List BoundaryEntry}
    {readings : List Instant}
    (hpending : ∀ call result, (lockedAfter limit defaultAllow past).call caller ≠
      .returned call result)
    (hblock : (lockedAfter limit defaultAllow past).call blocker = .returned block answer)
    (hlog : (lockedAfter limit defaultAllow (past ++ later)).log =
      before ++ ⟨caller, call, readings, result⟩ :: rest) :
    ∃ first taken between,
      operations before =
        operations first ++ block.operation taken ++ operations between ∧
      ∀ op ∈ operations between, ∃ other,
        ((lockedAfter limit defaultAllow (past ++ later)).call other).method =
            some op.call ∧
          ¬ ReturnedBefore limit defaultAllow (past ++ later) other blocker := by
  obtain ⟨first, taken, more, hpast, _⟩ := TrustBoundary.body_implements.answered hblock
  have hmem : (⟨blocker, block, taken, answer⟩ : BoundaryEntry) ∈ before := by
    apply (Monitor.log_prefix_before hpending hlog).subset
    rw [hpast]
    simp
  obtain ⟨first, between, rfl⟩ := List.append_of_mem hmem
  rw [List.append_assoc, List.cons_append] at hlog
  refine ⟨first, taken, between, ?_, fun op hop => ?_⟩
  · simp [operations, Monitor.operations]
  · obtain ⟨entry, hentry, hop⟩ := List.mem_flatMap.mp hop
    obtain ⟨base, hsound⟩ := lockedAfter_sound limit defaultAllow (past ++ later)
    have hlogged : entry ∈ (lockedAfter limit defaultAllow (past ++ later)).log := by
      rw [hlog]
      simp [hentry]
    refine ⟨entry.caller, ?_, fun hreturned => ?_⟩
    · rw [hsound.returned entry hlogged, ← call_of_mem_operation hop]
      rfl
    · exact Monitor.not_later_of_returnedBefore hreturned hlog entry
        (List.mem_append_left _ hentry) rfl

/-- A decision that had not been taken when a pair was blocked refuses the pair, unless
somebody calls to unblock it and had not returned before. -/
theorem refused_of_pair {senderId receiverId : PyStr} {payloadType : Option PyStr}
    {blocker caller : ℕ} {answer : BoundaryAnswer} {allowed : Bool}
    {reason : Option PyStr}
    (hblock : (lockedAfter limit defaultAllow past).call blocker =
      .returned (.blockPair senderId receiverId) answer)
    (hkept : ∀ other,
      ((lockedAfter limit defaultAllow (past ++ later)).call other).method =
          some (.unblockPair senderId receiverId) →
        ReturnedBefore limit defaultAllow (past ++ later) other blocker)
    (hpending : ∀ call result, (lockedAfter limit defaultAllow past).call caller ≠
      .returned call result)
    (hreturned : (lockedAfter limit defaultAllow (past ++ later)).call caller =
      .returned (.evaluate senderId receiverId payloadType) (.decision allowed reason)) :
    allowed = false := by
  obtain ⟨before, readings, rest, hlog, hdecision⟩ :=
    TrustBoundary.body_implements.answered hreturned
  obtain ⟨first, taken, between, hbefore, hbetween⟩ :=
    operations_around hpending hblock hlog
  have hunblock : .unblockPair senderId receiverId ∉ operations between := by
    intro hop
    obtain ⟨other, hcalled, hlate⟩ := hbetween _ hop
    exact hlate (hkept other hcalled)
  have hpair : PairBlockedIn (operations before) senderId receiverId := by
    rw [hbefore, BoundaryCall.operation, List.append_assoc]
    exact pairBlockedIn_of_kept (operations first) hunblock
  cases hdecision
  exact evaluate_of_blockedIn limit defaultAllow payloadType _ (Or.inr (Or.inr hpair))

/-- So does one that involves a blocked agent, unless somebody calls to trust it and had
not returned before. -/
theorem refused_of_agent {agentId senderId receiverId : PyStr}
    {payloadType : Option PyStr} {blocker caller : ℕ} {answer : BoundaryAnswer}
    {allowed : Bool} {reason : Option PyStr}
    (hagent : agentId = senderId ∨ agentId = receiverId)
    (hblock : (lockedAfter limit defaultAllow past).call blocker =
      .returned (.blockAgent agentId) answer)
    (hkept : ∀ other entry,
      ((lockedAfter limit defaultAllow (past ++ later)).call other).method =
          some (.trustAgent agentId entry) →
        ReturnedBefore limit defaultAllow (past ++ later) other blocker)
    (hpending : ∀ call result, (lockedAfter limit defaultAllow past).call caller ≠
      .returned call result)
    (hreturned : (lockedAfter limit defaultAllow (past ++ later)).call caller =
      .returned (.evaluate senderId receiverId payloadType) (.decision allowed reason)) :
    allowed = false := by
  obtain ⟨before, readings, rest, hlog, hdecision⟩ :=
    TrustBoundary.body_implements.answered hreturned
  obtain ⟨first, taken, between, hbefore, hbetween⟩ :=
    operations_around hpending hblock hlog
  have htrust : ∀ entry, .trustAgent agentId entry ∉ operations between := by
    intro entry hop
    obtain ⟨other, hcalled, hlate⟩ := hbetween _ hop
    exact hlate (hkept other entry hcalled)
  have hin : BlockedIn (operations before) agentId := by
    rw [hbefore, BoundaryCall.operation, List.append_assoc]
    exact blockedIn_of_kept (operations first) htrust
  cases hdecision
  apply evaluate_of_blockedIn limit defaultAllow payloadType
  rcases hagent with rfl | rfl
  · exact Or.inl hin
  · exact Or.inr (Or.inl hin)

/-- The requests of a pair that threads have had allowed keep to its rate. -/
theorem allowedRequests_window (hlimit : 0 ≤ limit) {run : List BoundaryEvent}
    (hclock : ClocksForward run) (pair : PyStr × PyStr) {start stop : ℚ}
    (h : start ≤ stop) :
    (windowCount (allowedRequests pair (lockedAfter limit defaultAllow run).log)
      start stop : ℚ) ≤ limit + limit / 60 * (stop - start) := by
  obtain ⟨base, hsound⟩ := lockedAfter_sound limit defaultAllow run
  have hmono : ClockMonotone BoundaryOp.monoReads
      (operations (lockedAfter limit defaultAllow run).log) := (operations_clocks hclock).2
  rw [allowedRequests_eq pair hsound.replays,
    TrustBoundary.admissions_eq_police limit defaultAllow pair _ hmono]
  exact ArrivalCurve.police_window (Int.cast_nonneg hlimit)
    (TrustBoundary.rate_nonneg hlimit) _ h

end Enforced

/-- What the boundary enforces against threads.  Once a call that blocks a pair has
returned, every decision on the pair that has not been taken yet refuses it, unless
somebody has called to unblock the pair and had not returned before the block did;
likewise for a blocked agent that is trusted; and the requests of a pair that are
allowed, by whichever threads, keep to its rate in every window. -/
theorem boundary_enforced_across_threads (limit : ℤ) (defaultAllow : Bool)
    (past later : List BoundaryEvent) :
    (∀ senderId receiverId blocker answer,
      (lockedAfter limit defaultAllow past).call blocker =
          .returned (.blockPair senderId receiverId) answer →
        (∀ other,
          ((lockedAfter limit defaultAllow (past ++ later)).call other).method =
              some (.unblockPair senderId receiverId) →
            ReturnedBefore limit defaultAllow (past ++ later) other blocker) →
          ∀ caller payloadType allowed reason,
            (∀ call result, (lockedAfter limit defaultAllow past).call caller ≠
              .returned call result) →
            (lockedAfter limit defaultAllow (past ++ later)).call caller =
              .returned (.evaluate senderId receiverId payloadType)
                (.decision allowed reason) →
            allowed = false) ∧
    (∀ agentId blocker answer,
      (lockedAfter limit defaultAllow past).call blocker =
          .returned (.blockAgent agentId) answer →
        (∀ other entry,
          ((lockedAfter limit defaultAllow (past ++ later)).call other).method =
              some (.trustAgent agentId entry) →
            ReturnedBefore limit defaultAllow (past ++ later) other blocker) →
          ∀ caller senderId receiverId payloadType allowed reason,
            agentId = senderId ∨ agentId = receiverId →
            (∀ call result, (lockedAfter limit defaultAllow past).call caller ≠
              .returned call result) →
            (lockedAfter limit defaultAllow (past ++ later)).call caller =
              .returned (.evaluate senderId receiverId payloadType)
                (.decision allowed reason) →
            allowed = false) ∧
    (0 ≤ limit → ClocksForward (past ++ later) → ∀ pair start stop, start ≤ stop →
      (windowCount
        (allowedRequests pair (lockedAfter limit defaultAllow (past ++ later)).log)
        start stop : ℚ) ≤ limit + limit / 60 * (stop - start)) := by
  refine ⟨?_, ?_, ?_⟩
  · intro senderId receiverId blocker answer hblock hkept caller payloadType allowed
      reason hpending hreturned
    exact refused_of_pair hblock hkept hpending hreturned
  · intro agentId blocker answer hblock hkept caller senderId receiverId payloadType
      allowed reason hagent hpending hreturned
    exact refused_of_agent hagent hblock hkept hpending hreturned
  · intro hlimit hclock pair start stop h
    exact allowedRequests_window hlimit hclock pair h

namespace Reference

def trustedFirst : List BoundaryEvent :=
  [.enter 0 (.trustAgent (py "a") {}), .acquire 0, .work 0 ⟨1, 1⟩, .work 0 ⟨2, 2⟩,
    .leave 0]

/-- A decision is asked for, but a block of the agent gets the lock first. -/
def blockedThen : List BoundaryEvent :=
  [.enter 1 (.evaluate (py "a") (py "b") none), .enter 2 (.blockAgent (py "a")),
    .acquire 2, .acquire 1, .work 2 ⟨5, 5⟩, .work 2 ⟨6, 6⟩, .leave 2]

def decisionLate : List BoundaryEvent :=
  [.acquire 1, .work 1 ⟨7, 7⟩, .work 1 ⟨8, 8⟩, .leave 1]

/-- The agent was trusted before it was blocked, and not since. -/
theorem trusted_before {other : ℕ} {entry : TrustEntry}
    (h : ((lockedAfter 60 false (trustedFirst ++ blockedThen ++ decisionLate)).call
      other).method = some (.trustAgent (py "a") entry)) :
    ReturnedBefore 60 false (trustedFirst ++ blockedThen ++ decisionLate) other 2 := by
  have hentered := Monitor.entered_of_method h
  obtain rfl : other = 0 := by
    simp [trustedFirst, blockedThen, decisionLate] at hentered
    exact hentered.1
  refine ⟨trustedFirst, blockedThen ++ decisionLate, List.append_assoc _ _ _,
    ⟨_, _, rfl⟩, fun call result hreturned => ?_⟩
  cases hreturned

end Reference

/-- The call came before the block and is refused, though the agent had been trusted. -/
theorem boundary_enforced_across_threads_late :
    ∃ allowed reason,
      (lockedAfter 60 false (Reference.trustedFirst ++ Reference.blockedThen ++
        Reference.decisionLate)).call 1 =
          .returned (.evaluate (py "a") (py "b") none) (.decision allowed reason) ∧
      allowed = false := by
  have hreturned : (lockedAfter 60 false (Reference.trustedFirst ++
      Reference.blockedThen ++ Reference.decisionLate)).call 1 =
        .returned (.evaluate (py "a") (py "b") none) (.decision _ _) := rfl
  refine ⟨_, _, hreturned, ?_⟩
  refine (boundary_enforced_across_threads 60 false
    (Reference.trustedFirst ++ Reference.blockedThen) Reference.decisionLate).2.1
    (py "a") 2 .none rfl (fun _ _ => Reference.trusted_before) 1 (py "a") (py "b") none
    _ _ (Or.inl rfl) ?_ hreturned
  intro call result h
  cases h

end QwedA2A
