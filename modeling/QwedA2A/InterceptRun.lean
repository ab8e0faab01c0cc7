/-
Calls of `intercept` interleaved on one interceptor.  A call runs without a break
up to the await of its engine run, and again from there to its end; the boundary,
the issuance record and the metrics are all that calls share.
-/
import QwedA2A.Interceptor
import QwedA2A.Telemetry
import QwedA2A.EventRun

namespace QwedA2A

open EventRun

variable {Token Tree : Type}

/-- How the first stretch of a call ends. -/
inductive Entered where
  | drafted (drafted : Except PyExc Draft)
  | running

namespace Interceptor

variable (interceptor : Interceptor Token Tree)

/-- The first stretch: size and trust, up to the engine run. -/
def enter (tb : TrustBoundary) (message : AgentMessage)
    (clock : TrustBoundary.Clock) : Entered × TrustBoundary :=
  match interceptor.payloadSize message.payload with
  | .error exc =>
      if unmeasurable exc then
        (.drafted (.ok
          { status := .unverifiable
            reason := some (py "Payload is not JSON-serializable; cannot verify")
            engine := py "size_limit" }), tb)
      else (.drafted (.error exc), tb)
  | .ok size =>
      if interceptor.config.maxPayloadSizeBytes < size then
        (.drafted (.ok
          { status := .blocked
            reason := some (py "Payload is " ++ natText size ++
              py " bytes; max_payload_size_bytes=" ++
              natText interceptor.config.maxPayloadSizeBytes)
            engine := py "size_limit" }), tb)
      else
        match tb.evaluate message.senderAgentId message.receiverAgentId
            (some message.payloadType.value) clock with
        | ((false, rejectionReason), tb) =>
            (.drafted (.ok
              { status := .blocked
                reason := some (py "Trust boundary violation: " ++
                  rejectionReason.getD (py "None"))
                engine := py "trust_boundary" }), tb)
        | ((true, _), tb) => (.running, tb)

def resume (message : AgentMessage) (pool : PoolOutcome) : Draft :=
  interceptor.runDraft message (interceptor.runEngine message pool)

/-- The operation a call makes on the boundary, if it gets that far. -/
def boundaryOps (message : AgentMessage) (clock : TrustBoundary.Clock) :
    List BoundaryOp :=
  match interceptor.payloadSize message.payload with
  | .error _ => []
  | .ok size =>
      if interceptor.config.maxPayloadSizeBytes < size then []
      else [.evaluate message.senderAgentId message.receiverAgentId
        (some message.payloadType.value) clock]

variable {interceptor} {tb : TrustBoundary} {message : AgentMessage}
  {clock : TrustBoundary.Clock}

/-- The two stretches in a row draft what the call drafts. -/
theorem draft_eq_enter (pool : PoolOutcome) :
    interceptor.draft tb message clock pool =
      ((match (interceptor.enter tb message clock).1 with
        | .drafted drafted => drafted
        | .running => .ok (interceptor.resume message pool)),
        (interceptor.enter tb message clock).2) := by
  cases hsize : interceptor.payloadSize message.payload with
  | error exc =>
      simp only [draft, enter, hsize]
      split_ifs <;> rfl
  | ok size =>
      simp only [draft, enter, hsize]
      split_ifs
      · rfl
      · rcases hevaluate : tb.evaluate message.senderAgentId
          message.receiverAgentId (some message.payloadType.value) clock with
          ⟨⟨allowed, reason⟩, after⟩
        cases allowed <;> rfl

theorem intercept_fst (traceId : PyStr) (pool : PoolOutcome) :
    (interceptor.intercept tb message traceId clock pool).1 =
      (interceptor.draft tb message clock pool).1.bind
        (interceptor.buildVerdict message traceId) := by
  rw [intercept]
  split
  next hdraft => rw [hdraft]; rfl
  next hdraft => rw [hdraft]; rfl

theorem enter_boundary :
    (interceptor.enter tb message clock).2 =
      final TrustBoundary.step tb (interceptor.boundaryOps message clock) := by
  cases hsize : interceptor.payloadSize message.payload with
  | error exc =>
      simp only [enter, boundaryOps, hsize]
      split_ifs <;> rfl
  | ok size =>
      simp only [enter, boundaryOps, hsize]
      split_ifs
      · rfl
      · change _ = (tb.evaluate message.senderAgentId message.receiverAgentId
          (some message.payloadType.value) clock).2
        split
        next hevaluate => rw [hevaluate]
        next hevaluate => rw [hevaluate]

/-- A call gets to the engines exactly when it is measured, within the limit and
allowed by the boundary. -/
theorem enter_running_iff :
    (interceptor.enter tb message clock).1 = .running ↔
      ∃ size, interceptor.payloadSize message.payload = .ok size ∧
        size ≤ interceptor.config.maxPayloadSizeBytes ∧
        (tb.evaluate message.senderAgentId message.receiverAgentId
          (some message.payloadType.value) clock).1.1 = true := by
  cases hsize : interceptor.payloadSize message.payload with
  | error exc =>
      simp only [enter, hsize, reduceCtorEq, false_and, exists_false, iff_false]
      split_ifs <;> exact fun h => nomatch h
  | ok size =>
      simp only [enter, hsize, Except.ok.injEq, exists_eq_left']
      split_ifs with hlarge
      · simp [not_le.mpr hlarge]
      · split
        next hevaluate => simp [hevaluate]
        next hevaluate => simp [hevaluate, not_lt.mp hlarge]

/-- The token a verdict carries is the signer's answer to its request. -/
theorem buildVerdict_attested {traceId : PyStr} {draft : Draft}
    {verdict : VerificationVerdict Token} {token : Token}
    (h : interceptor.buildVerdict message traceId draft = .ok verdict)
    (hcarried : verdict.attestationJwt = some token) :
    draft.status ≠ .unverifiable ∧
      ∃ hash, payloadHash interceptor.lib (.dict message.payload) = .ok hash ∧
        interceptor.signVerdict (signRequest message traceId draft hash) =
          .ok token := by
  rw [buildVerdict] at h
  split_ifs at h with hunverifiable
  · cases h
    cases hcarried
  · split at h
    next => cases h
    next found hattest =>
      obtain ⟨_, h⟩ := guard_eq_ok.mp h
      cases h
      cases hcarried
      exact ⟨hunverifiable, bind_eq_ok.mp hattest⟩

end Interceptor

/-- An interceptor with the service that signs for it. -/
structure InterceptorSetup (Token Tree : Type) where
  config : InterceptorConfig := {}
  lib : CryptoLib Token
  unicode : UnicodeData
  code : CodeAnalysis Tree
  isEmptyToken : Token → Bool
  env : Env
  crypto : A2ACryptoService JtiRegistry

/-- What a verdict reads off the clocks: the signer's two readings, and the
latency that is recorded. -/
structure VerdictClock where
  signedAt : ℚ
  reservedAt : ℚ
  latencyMs : PyNum

def InterceptorSetup.sign (setup : InterceptorSetup Token Tree)
    (issued : JtiRegistry) (clock : VerdictClock) (request : SignRequest) :
    Except PyExc Token × JtiRegistry :=
  signVerdict setup.lib setup.env { setup.crypto with issuedRegistry := issued }
    request clock.signedAt clock.reservedAt

def InterceptorSetup.now (setup : InterceptorSetup Token Tree)
    (issued : JtiRegistry) (clock : VerdictClock) : Interceptor Token Tree where
  config := setup.config
  lib := setup.lib
  unicode := setup.unicode
  code := setup.code
  signVerdict request := (setup.sign issued clock request).1
  isEmptyToken := setup.isEmptyToken

def InterceptorSetup.fixed (setup : InterceptorSetup Token Tree) :
    Interceptor Token Tree :=
  setup.now setup.crypto.issuedRegistry ⟨0, 0, .rat 0⟩

/-- A call's arguments, with the boundary and the clock it entered with. -/
structure Entry where
  message : AgentMessage
  traceId : PyStr
  boundary : TrustBoundary
  clock : TrustBoundary.Clock

/-- A call that has ended: how its engine run did, the issuance record and the
clock of its verdict, and what it returned or raised. -/
structure Interception (Token : Type) where
  entry : Entry
  pool : PoolOutcome
  issued : JtiRegistry
  clock : VerdictClock
  result : Except PyExc (VerificationVerdict Token)

structure InterceptState (Token : Type) where
  trust : TrustBoundary
  issued : JtiRegistry
  metrics : InterceptMetrics := {}
  running : ℕ → Option Entry := fun _ => none
  ended : List (Interception Token) := []

/-- The stretches of the calls, and what operators do to the boundary meanwhile.
An awaiting call may be cancelled. -/
inductive InterceptEvent where
  | enter (call : ℕ) (message : AgentMessage) (traceId : PyStr)
      (clock : TrustBoundary.Clock) (verdictClock : VerdictClock)
  | resume (call : ℕ) (pool : PoolOutcome) (verdictClock : VerdictClock)
  | cancel (call : ℕ)
  | operate (op : BoundaryOp)

/-- The awaiting call that a stretch ends, if there is one. -/
def InterceptEvent.ends : InterceptEvent → Option ℕ
  | .resume call _ _ => some call
  | .cancel call => some call
  | _ => none

namespace InterceptorSetup

variable (setup : InterceptorSetup Token Tree)

/-- The issuance record after a verdict was built from a draft. -/
def issuedAfter (issued : JtiRegistry) (entry : Entry) (draft : Draft)
    (clock : VerdictClock) : JtiRegistry :=
  if draft.status = .unverifiable then issued
  else
    match payloadHash setup.lib (.dict entry.message.payload) with
    | .error _ => issued
    | .ok hash =>
        (setup.sign issued clock (Interceptor.signRequest entry.message
          entry.traceId draft hash)).2

/-- Telemetry of a returned verdict; a call that raised is not recorded. -/
def recorded (entry : Entry) (clock : VerdictClock) :
    Except PyExc (VerificationVerdict Token) → List InterceptRecord
  | .error _ => []
  | .ok verdict =>
      [{ status := verdict.status
         engine := some verdict.engineUsed
         senderId := entry.message.senderAgentId
         latencyMs := clock.latencyMs }]

def conclude (state : InterceptState Token) (entry : Entry)
    (drafted : Except PyExc Draft) (pool : PoolOutcome) (clock : VerdictClock) :
    InterceptState Token :=
  let interceptor := setup.now state.issued clock
  let result := drafted.bind
    (interceptor.buildVerdict entry.message entry.traceId)
  { state with
    issued :=
      match drafted with
      | .error _ => state.issued
      | .ok draft => setup.issuedAfter state.issued entry draft clock
    metrics := (recorded entry clock result).foldl recordIntercept state.metrics
    ended := state.ended ++ [⟨entry, pool, state.issued, clock, result⟩] }

def step (state : InterceptState Token) : InterceptEvent → InterceptState Token
  | .enter call message traceId clock verdictClock =>
      match state.running call with
      | some _ => state
      | none =>
          let entry : Entry := ⟨message, traceId, state.trust, clock⟩
          match setup.fixed.enter state.trust message clock with
          | (.drafted drafted, trust) =>
              setup.conclude { state with trust } entry drafted .finishes
                verdictClock
          | (.running, trust) =>
              { state with
                trust
                running := Function.update state.running call (some entry) }
  | .resume call pool verdictClock =>
      match state.running call with
      | none => state
      | some entry =>
          setup.conclude
            { state with running := Function.update state.running call none }
            entry (.ok (setup.fixed.resume entry.message pool)) pool verdictClock
  | .cancel call =>
      { state with running := Function.update state.running call none }
  | .operate op => { state with trust := state.trust.step op }

/-- The state an interceptor starts in, around a boundary. -/
def start (trust : TrustBoundary) : InterceptState Token where
  trust := trust
  issued := setup.crypto.issuedRegistry

def after (trust : TrustBoundary) (run : List InterceptEvent) :
    InterceptState Token :=
  final setup.step (setup.start trust) run

def boundaryOps (state : InterceptState Token) :
    InterceptEvent → List BoundaryOp
  | .enter call message _ clock _ =>
      match state.running call with
      | some _ => []
      | none => setup.fixed.boundaryOps message clock
  | .operate op => [op]
  | _ => []

def operations (trust : TrustBoundary) (run : List InterceptEvent) :
    List BoundaryOp :=
  emitted setup.step setup.boundaryOps (setup.start trust) run

theorem after_snoc (trust : TrustBoundary) (past : List InterceptEvent)
    (event : InterceptEvent) :
    setup.after trust (past ++ [event]) =
      setup.step (setup.after trust past) event :=
  final_snoc setup.step _ past event

theorem operations_snoc (trust : TrustBoundary) (past : List InterceptEvent)
    (event : InterceptEvent) :
    setup.operations trust (past ++ [event]) =
      setup.operations trust past ++
        setup.boundaryOps (setup.after trust past) event :=
  emitted_snoc setup.step setup.boundaryOps _ past event

/-- What one stretch can do: nothing, end a call, start an engine run, drop a
call, or an operator's operation. -/
inductive Stretch (state : InterceptState Token) :
    InterceptEvent → InterceptState Token → Prop
  | still (event : InterceptEvent) (h : setup.boundaryOps state event = [])
      (idle : ∀ call, event.ends = some call → state.running call = none) :
      Stretch state event state
  | refuses {call : ℕ} {message : AgentMessage} {traceId : PyStr}
      {clock : TrustBoundary.Clock} (verdictClock : VerdictClock)
      (drafted : Except PyExc Draft) (trust : TrustBoundary)
      (free : state.running call = none)
      (h : setup.fixed.enter state.trust message clock = (.drafted drafted, trust)) :
      Stretch state (.enter call message traceId clock verdictClock)
        (setup.conclude { state with trust } ⟨message, traceId, state.trust, clock⟩
          drafted .finishes verdictClock)
  | starts {call : ℕ} {message : AgentMessage} (traceId : PyStr)
      {clock : TrustBoundary.Clock} (verdictClock : VerdictClock)
      (trust : TrustBoundary) (free : state.running call = none)
      (h : setup.fixed.enter state.trust message clock = (.running, trust)) :
      Stretch state (.enter call message traceId clock verdictClock)
        { state with
          trust
          running := Function.update state.running call
            (some ⟨message, traceId, state.trust, clock⟩) }
  | finishes {call : ℕ} {entry : Entry} (pool : PoolOutcome)
      (verdictClock : VerdictClock) (h : state.running call = some entry) :
      Stretch state (.resume call pool verdictClock)
        (setup.conclude
          { state with running := Function.update state.running call none }
          entry (.ok (setup.fixed.resume entry.message pool)) pool verdictClock)
  | drops (call : ℕ) :
      Stretch state (.cancel call)
        { state with running := Function.update state.running call none }
  | operates (op : BoundaryOp) :
      Stretch state (.operate op) { state with trust := state.trust.step op }

theorem step_stretch (state : InterceptState Token) (event : InterceptEvent) :
    setup.Stretch state event (setup.step state event) := by
  cases event with
  | enter call message traceId clock verdictClock =>
      cases hcall : state.running call with
      | some entry =>
          simp only [step, hcall]
          exact .still _ (by simp only [boundaryOps, hcall]) fun _ h => nomatch h
      | none =>
          rcases henter : setup.fixed.enter state.trust message clock with
            ⟨drafted | _, trust⟩
          · simp only [step, hcall, henter]
            exact .refuses verdictClock drafted trust hcall henter
          · simp only [step, hcall, henter]
            exact .starts traceId verdictClock trust hcall henter
  | resume call pool verdictClock =>
      cases hcall : state.running call with
      | none =>
          simp only [step, hcall]
          refine .still _ rfl fun other hother => ?_
          rwa [← Option.some.inj hother]
      | some entry =>
          simp only [step, hcall]
          exact .finishes pool verdictClock hcall
  | cancel call => exact .drops call
  | operate op => exact .operates op

/-- The call entered in the run, on the boundary of that moment. -/
def EnteredIn (trust : TrustBoundary) (run : List InterceptEvent)
    (entry : Entry) : Prop :=
  ∃ before call verdictClock,
    before ++ [.enter call entry.message entry.traceId entry.clock verdictClock] <+:
      run ∧ entry.boundary = (setup.after trust before).trust

/-- The call awaits its engine run: it was free when it entered, on the boundary of
that moment, which let it through, and nothing has resumed or cancelled it since. -/
def AwaitsIn (trust : TrustBoundary) (run : List InterceptEvent) (call : ℕ)
    (entry : Entry) : Prop :=
  ∃ before verdictClock later,
    run = before ++
      .enter call entry.message entry.traceId entry.clock verdictClock :: later ∧
    (setup.after trust before).running call = none ∧
    entry.boundary = (setup.after trust before).trust ∧
    (setup.fixed.enter entry.boundary entry.message entry.clock).1 = .running ∧
    ∀ event ∈ later, event.ends ≠ some call

/-- How a call came to its verdict: at its entry, when that drafted one, or at the
event that resumed it with the outcome of its engine run.  The readings and the
issuance record of the verdict are those of that event. -/
inductive EndedIn (trust : TrustBoundary) (run : List InterceptEvent) :
    Interception Token → Prop
  | entered {before : List InterceptEvent} {call : ℕ} {entry : Entry}
      (drafted : Except PyExc Draft) (pool : PoolOutcome) (verdictClock : VerdictClock)
      (result : Except PyExc (VerificationVerdict Token))
      (happened : before ++ [.enter call entry.message entry.traceId entry.clock
        verdictClock] <+: run)
      (free : (setup.after trust before).running call = none)
      (boundary : entry.boundary = (setup.after trust before).trust)
      (ends : (setup.fixed.enter entry.boundary entry.message entry.clock).1 =
        .drafted drafted) :
      EndedIn trust run
        ⟨entry, pool, (setup.after trust before).issued, verdictClock, result⟩
  | resumed {past : List InterceptEvent} {call : ℕ} {entry : Entry}
      (pool : PoolOutcome) (verdictClock : VerdictClock)
      (result : Except PyExc (VerificationVerdict Token))
      (happened : past ++ [.resume call pool verdictClock] <+: run)
      (awaited : setup.AwaitsIn trust past call entry) :
      EndedIn trust run
        ⟨entry, pool, (setup.after trust past).issued, verdictClock, result⟩

/-- A call that has ended did, on the boundary it entered with and the issuance
record of the event that ended it, what the call does on its own. -/
structure Atomic (trust : TrustBoundary) (run : List InterceptEvent)
    (interception : Interception Token) : Prop where
  ended : setup.EndedIn trust run interception
  result : interception.result =
    ((setup.now interception.issued interception.clock).intercept
      interception.entry.boundary interception.entry.message
      interception.entry.traceId interception.entry.clock interception.pool).1

/-- The calls of a run: those under way wait for their engine run, those that
ended were atomic. -/
structure Traced (trust : TrustBoundary) (run : List InterceptEvent) : Prop where
  running : ∀ call entry, (setup.after trust run).running call = some entry →
    setup.AwaitsIn trust run call entry
  ended : ∀ interception ∈ (setup.after trust run).ended,
    setup.Atomic trust run interception

variable {setup} {trust : TrustBoundary} {run : List InterceptEvent}

theorem EnteredIn.mono {longer : List InterceptEvent} {entry : Entry}
    (h : setup.EnteredIn trust run entry) (hrun : run <+: longer) :
    setup.EnteredIn trust longer entry := by
  obtain ⟨before, call, verdictClock, hprefix, hboundary⟩ := h
  exact ⟨before, call, verdictClock, hprefix.trans hrun, hboundary⟩

/-- A call that awaits goes on doing so at an event that does not end it. -/
theorem AwaitsIn.snoc {call : ℕ} {entry : Entry} {event : InterceptEvent}
    (h : setup.AwaitsIn trust run call entry) (hother : event.ends ≠ some call) :
    setup.AwaitsIn trust (run ++ [event]) call entry := by
  obtain ⟨before, verdictClock, later, rfl, hfree, hboundary, hrunning, hlater⟩ := h
  refine ⟨before, verdictClock, later ++ [event], by simp, hfree, hboundary, hrunning,
    fun found hfound => ?_⟩
  rcases List.mem_append.mp hfound with hold | hnew
  · exact hlater found hold
  · rwa [List.mem_singleton.mp hnew]

theorem EndedIn.mono {longer : List InterceptEvent} {interception : Interception Token}
    (h : setup.EndedIn trust run interception) (hrun : run <+: longer) :
    setup.EndedIn trust longer interception := by
  cases h with
  | entered drafted pool verdictClock result happened free boundary ends =>
      exact .entered drafted pool verdictClock result (happened.trans hrun) free
        boundary ends
  | resumed pool verdictClock result happened awaited =>
      exact .resumed pool verdictClock result (happened.trans hrun) awaited

theorem Atomic.mono {longer : List InterceptEvent}
    {interception : Interception Token} (h : setup.Atomic trust run interception)
    (hrun : run <+: longer) : setup.Atomic trust longer interception :=
  ⟨h.ended.mono hrun, h.result⟩

theorem Atomic.entered {interception : Interception Token}
    (h : setup.Atomic trust run interception) :
    setup.EnteredIn trust run interception.entry := by
  obtain ⟨hended, _⟩ := h
  cases hended with
  | @entered before call entry drafted pool verdictClock result happened free
      boundary ends =>
      exact ⟨before, call, verdictClock, happened, boundary⟩
  | @resumed past call entry pool verdictClock result happened awaited =>
      obtain ⟨before, entered, later, rfl, _, hboundary, _⟩ := awaited
      refine ⟨before, call, entered, List.IsPrefix.trans ?_ happened, hboundary⟩
      exact ⟨later ++ [.resume call pool verdictClock], by simp⟩

theorem now_draft (issued : JtiRegistry) (clock : VerdictClock) (tb : TrustBoundary)
    (message : AgentMessage) (entered : TrustBoundary.Clock) (pool : PoolOutcome) :
    (setup.now issued clock).draft tb message entered pool =
      setup.fixed.draft tb message entered pool := rfl

/-- A verdict built from the draft of a call is the call's own. -/
theorem conclude_result {entry : Entry} {drafted : Except PyExc Draft}
    {pool : PoolOutcome} (issued : JtiRegistry) (clock : VerdictClock)
    (h : (setup.fixed.draft entry.boundary entry.message entry.clock pool).1 =
      drafted) :
    drafted.bind ((setup.now issued clock).buildVerdict entry.message
        entry.traceId) =
      ((setup.now issued clock).intercept entry.boundary entry.message entry.traceId
        entry.clock pool).1 := by
  rw [Interceptor.intercept_fst, now_draft, h]

variable (setup trust run)

theorem traced : setup.Traced trust run := by
  induction run using List.reverseRecOn with
  | nil => exact ⟨fun _ _ h => (nomatch h), fun _ h => nomatch h⟩
  | append_singleton past event ih =>
      have hpast : past <+: past ++ [event] := List.prefix_append past [event]
      have hended : ∀ interception ∈ (setup.after trust past).ended,
          setup.Atomic trust (past ++ [event]) interception :=
        fun interception h => (ih.ended interception h).mono hpast
      have hkept : ∀ {call : ℕ} {entry : Entry},
          (setup.after trust past).running call = some entry →
            event.ends ≠ some call → setup.AwaitsIn trust (past ++ [event]) call entry :=
        fun h => (ih.running _ _ h).snoc
      have hslots : ∀ {call : ℕ} {slot : Option Entry} {other : ℕ} {entry : Entry},
          Function.update (setup.after trust past).running call slot other =
            some entry → (other = call ∧ slot = some entry) ∨
              (other ≠ call ∧ (setup.after trust past).running other = some entry) := by
        intro call slot other entry h
        by_cases hsame : other = call
        · subst hsame
          rw [Function.update_self] at h
          exact Or.inl ⟨rfl, h⟩
        · rw [Function.update_of_ne hsame] at h
          exact Or.inr ⟨hsame, h⟩
      have hstretch := setup.step_stretch (setup.after trust past) event
      rw [← after_snoc] at hstretch
      generalize hafter : setup.after trust (past ++ [event]) = state at hstretch
      refine ⟨?_, ?_⟩
      · rw [hafter]
        intro other entry hother
        cases hstretch with
        | still _ _ idle =>
            refine hkept hother fun hends => ?_
            rw [idle other hends] at hother
            cases hother
        | refuses _ drafted trust _ _ => exact hkept hother nofun
        | starts traceId verdictClock trust hfree henter =>
            rcases hslots hother with ⟨rfl, hnew⟩ | ⟨_, hold⟩
            · cases hnew
              exact ⟨past, verdictClock, [], rfl, hfree, rfl, congrArg Prod.fst henter,
                fun _ h => nomatch h⟩
            · exact hkept hold nofun
        | finishes pool verdictClock _ =>
            rcases hslots hother with ⟨_, hnew⟩ | ⟨hne, hold⟩
            · cases hnew
            · exact hkept hold fun hends => hne (Option.some.inj hends).symm
        | drops call =>
            rcases hslots hother with ⟨_, hnew⟩ | ⟨hne, hold⟩
            · cases hnew
            · exact hkept hold fun hends => hne (Option.some.inj hends).symm
        | operates op => exact hkept hother nofun
      · rw [hafter]
        intro interception hmem
        cases hstretch with
        | still _ _ _ => exact hended interception hmem
        | @refuses call message traceId clock verdictClock drafted tb hfree henter =>
            rcases List.mem_append.mp hmem with hold | hnew
            · exact hended interception hold
            · cases List.mem_singleton.mp hnew
              have hdraft : (setup.fixed.draft (setup.after trust past).trust message
                  clock .finishes).1 = drafted := by
                rw [Interceptor.draft_eq_enter, henter]
              exact ⟨.entered drafted .finishes verdictClock _ List.prefix_rfl hfree rfl
                (congrArg Prod.fst henter), conclude_result _ _ hdraft⟩
        | starts _ _ _ _ _ => exact hended interception hmem
        | @finishes call entry pool verdictClock hcall =>
            rcases List.mem_append.mp hmem with hold | hnew
            · exact hended interception hold
            · cases List.mem_singleton.mp hnew
              have hawaits := ih.running call entry hcall
              obtain ⟨_, _, _, _, _, _, henter, _⟩ := id hawaits
              have hdraft : (setup.fixed.draft entry.boundary entry.message
                  entry.clock pool).1 =
                    .ok (setup.fixed.resume entry.message pool) := by
                rw [Interceptor.draft_eq_enter, henter]
              exact ⟨.resumed pool verdictClock _ List.prefix_rfl hawaits,
                conclude_result _ _ hdraft⟩
        | drops call => exact hended interception hmem
        | operates op => exact hended interception hmem

end InterceptorSetup

namespace Reference

def setup : InterceptorSetup SignedToken Unit where
  config := interceptor.config
  lib := lib
  unicode := interceptor.unicode
  code := interceptor.code
  isEmptyToken _ := false
  env := env
  crypto := service

def verdictClock (now : ℚ) : VerdictClock := ⟨now, now, .rat 1⟩

def invoiceCall (call : ℕ) (traceId : PyStr) (now : ℚ) : InterceptEvent :=
  .enter call invoiceMessage traceId ⟨now, now, now⟩ (verdictClock now)

def overlapping : List InterceptEvent :=
  [invoiceCall 0 (py "t0") 0, invoiceCall 1 (py "t1") 30,
    .resume 0 .finishes (verdictClock 31), invoiceCall 2 (py "t2") 60,
    .resume 2 .finishes (verdictClock 61)]

end Reference

end QwedA2A
