/-
The HTTP service.  The first request creates the interceptor and loads it from the
environment, whoever sends it.  A request within the body limit is authenticated by
its key and handled as the agent that the key belongs to, on the interceptor that is
installed at that moment; the sender that its body declares is overridden.  Calls
under way stay with their interceptor when another is installed, and all interceptors
share the metrics.
-/
import QwedA2A.ApiKeys
import QwedA2A.GatewayLoad
import QwedA2A.InterceptIssuance
import QwedA2A.InterceptLaws
import QwedA2A.ParsedPayload

namespace QwedA2A

open EventRun PyJson

variable {Token Tree : Type}

deriving instance DecidableEq for RouteExc

/-- What a process builds its interceptors on, the interceptors in the order of their
creation, and what the framework raises for a response without an encoding. -/
structure Service (Token Tree : Type) where
  platform : Platform
  interceptor : ℕ → InterceptorSetup Token Tree
  unencodable : PyExc

/-- A request up to its handler and the handler, each with what it reads, the later
stretches of a call, what operators do, a request for the key set and a
reconfiguration. -/
inductive HttpEvent where
  | request (call : ℕ) (trustedEnv : PyStr) (declared : Option PyStr)
      (messages : List AsgiMessage) (apiKeys : PyStr) (header : Option PyStr)
  | handle (call : ℕ) (message : AgentMessage) (traceId : PyStr)
      (clock : TrustBoundary.Clock) (verdictClock : VerdictClock)
  | resume (interceptor call : ℕ) (pool : PoolOutcome) (verdictClock : VerdictClock)
  | cancel (interceptor call : ℕ)
  | operate (interceptor : ℕ) (op : BoundaryOp)
  | jwks (trustedEnv : PyStr)
  | configure (config : GatewayConfig) (trustedEnv : PyStr)

/-- How many interceptors there are and which is installed, the boundaries they were
loaded with and where they are now, the agents that requests are about to be handled
as, and what has been refused and served. -/
structure ServiceState (Token : Type) where
  created : ℕ := 0
  installed : Option ℕ := none
  boundary : ℕ → TrustBoundary
  interceptors : ℕ → InterceptState Token
  metrics : InterceptMetrics := {}
  agent : ℕ → Option PyStr := fun _ => none
  refused : List RouteExc := []
  served : List (Interception Token) := []

/-- The authenticated identity overrides the sender that the body declares. -/
def AgentMessage.sentBy (message : AgentMessage) (agentId : PyStr) : AgentMessage :=
  if message.senderAgentId ≠ agentId then
    { message with senderAgentId := agentId, stringKeys := message.stringKeys }
  else message

@[simp] theorem AgentMessage.sentBy_senderAgentId (message : AgentMessage)
    (agentId : PyStr) : (message.sentBy agentId).senderAgentId = agentId := by
  rw [sentBy]
  split_ifs with h
  · rfl
  · exact not_not.mp h

/-- The allowance for the envelope, on top of the payload's limit. -/
def envelopeAllowanceBytes : ℕ := 64 * 1024

def signingKeyUnavailable : RouteExc :=
  .http 503 (py "Signing key unavailable")

def internalInterceptorError : RouteExc :=
  .http 500 (py "Internal interceptor error")

/-- What the handler returns when `intercept` has returned or raised. -/
def interceptMessage :
    Except PyExc (VerificationVerdict Token) →
      Except RouteExc (VerificationVerdict Token)
  | .ok verdict => .ok verdict
  | .error exc =>
      -- RecursionError is a RuntimeError.
      if exc.type = .runtimeError ∨ exc.type = .recursionError then
        .error signingKeyUnavailable
      else .error internalInterceptorError

def EngineResult.texts (result : EngineResult) : List PyStr :=
  [result.engine, result.reason] ++ result.status.toList ++
    result.contradictions.getD [] ++ result.threats.getD [] ++ result.analysis.toList

/-- The texts of a response, the token aside, which is ASCII. -/
def VerificationVerdict.texts (verdict : VerificationVerdict Token) : List PyStr :=
  [verdict.status.value, verdict.auditTraceId, verdict.engineUsed] ++
    verdict.reason.toList ++ (verdict.details.map EngineResult.texts).getD []

/-- The state of an interceptor under the shared metrics. -/
def InterceptState.withMetrics (state : InterceptState Token)
    (metrics : InterceptMetrics) : InterceptState Token :=
  { state with metrics }

def ServiceState.stretchesOn (i : ℕ) (state : ServiceState Token) :
    HttpEvent → List InterceptEvent
  | .handle call message traceId clock verdictClock =>
      match state.agent call with
      | none => []
      | some agentId =>
          if state.installed = some i then
            [.enter call (message.sentBy agentId) traceId clock verdictClock]
          else []
  | .resume j call pool verdictClock =>
      if j < state.created ∧ j = i then [.resume call pool verdictClock] else []
  | .cancel j call => if j < state.created ∧ j = i then [.cancel call] else []
  | .operate j op => if j < state.created ∧ j = i then [.operate op] else []
  | _ => []

namespace Service

variable (service : Service Token Tree)

/-- What the client is answered: UTF-8 has no encoding of a lone surrogate. -/
def interceptAnswer (result : Except PyExc (VerificationVerdict Token)) :
    Except RouteExc (VerificationVerdict Token) :=
  match interceptMessage result with
  | .error exc => .error exc
  | .ok verdict =>
      if verdict.texts.all isUnicode then .ok verdict
      else .error (.other service.unencodable)

/-- An interceptor that has been assigned to the singleton. -/
def publish (state : ServiceState Token) :
    Option GatewayInterceptor → ServiceState Token
  | none => state
  | some loaded =>
      { state with
        created := state.created + 1
        installed := some state.created
        boundary := Function.update state.boundary state.created loaded.trust
        interceptors := Function.update state.interceptors state.created
          ((service.interceptor state.created).start loaded.trust) }

def getInterceptor (state : ServiceState Token) (trustedEnv : PyStr) :
    Except PyExc ℕ × ServiceState Token :=
  match state.installed with
  | some i => (.ok i, state)
  | none =>
      let result := Gateway.getInterceptor service.platform {} trustedEnv
      (result.1.map fun _ => state.created,
        service.publish state result.2.interceptor)

def bodyLimit (i : ℕ) : ℕ :=
  (service.interceptor i).config.maxPayloadSizeBytes + envelopeAllowanceBytes

/-- A request up to its handler: the route's limit, and then its dependency. -/
def authorize (state : ServiceState Token) (trustedEnv : PyStr) (declared : Option PyStr)
    (messages : List AsgiMessage) (apiKeys : PyStr) (header : Option PyStr) :
    Except RouteExc PyStr × ServiceState Token :=
  match service.getInterceptor state trustedEnv with
  | (.error exc, state) => (.error (.other exc), state)
  | (.ok i, state) =>
      match (sizeLimitedHandler (py "POST") (service.bodyLimit i) declared messages).1 with
      | .error exc => (.error exc, state)
      | .ok () => ((requireAgentIdentity service.platform.interp apiKeys header).1, state)

def stretch (state : ServiceState Token) (i : ℕ) (event : InterceptEvent) :
    ServiceState Token :=
  let before := state.interceptors i
  let after := (service.interceptor i).step (before.withMetrics state.metrics) event
  { state with
    interceptors := Function.update state.interceptors i after
    metrics := after.metrics
    served := state.served ++ after.ended.drop before.ended.length }

def step (state : ServiceState Token) : HttpEvent → ServiceState Token
  | .request call trustedEnv declared messages apiKeys header =>
      match state.agent call with
      | some _ => state
      | none =>
          match service.authorize state trustedEnv declared messages apiKeys header with
          | (.error exc, next) => { next with refused := state.refused ++ [exc] }
          | (.ok agentId, next) =>
              { next with agent := Function.update state.agent call (some agentId) }
  | .handle call message traceId clock verdictClock =>
      match state.agent call, state.installed with
      | some agentId, some i =>
          service.stretch { state with agent := Function.update state.agent call none } i
            (.enter call (message.sentBy agentId) traceId clock verdictClock)
      -- An agent's request has been through `get_interceptor` already.
      | _, _ => state
  | .resume i call pool verdictClock =>
      if i < state.created then service.stretch state i (.resume call pool verdictClock)
      else state
  | .cancel i call =>
      if i < state.created then service.stretch state i (.cancel call) else state
  | .operate i op =>
      if i < state.created then service.stretch state i (.operate op) else state
  | .jwks trustedEnv => (service.getInterceptor state trustedEnv).2
  | .configure config trustedEnv =>
      service.publish state
        (Gateway.configureInterceptor service.platform {} config trustedEnv).2.interceptor

def start : ServiceState Token where
  boundary _ := .fresh 60 false
  interceptors i := (service.interceptor i).start (.fresh 60 false)

def after (run : List HttpEvent) : ServiceState Token :=
  final service.step service.start run

def stretches (i : ℕ) (run : List HttpEvent) : List InterceptEvent :=
  emitted service.step (ServiceState.stretchesOn i) service.start run

theorem after_snoc (past : List HttpEvent) (event : HttpEvent) :
    service.after (past ++ [event]) = service.step (service.after past) event :=
  final_snoc service.step _ past event

theorem stretches_snoc (i : ℕ) (past : List HttpEvent) (event : HttpEvent) :
    service.stretches i (past ++ [event]) =
      service.stretches i past ++ (service.after past).stretchesOn i event :=
  emitted_snoc service.step (ServiceState.stretchesOn i) _ past event

end Service

namespace InterceptorSetup

variable (setup : InterceptorSetup Token Tree)

/-- A stretch does the same whatever the metrics have counted. -/
theorem step_withMetrics (state : InterceptState Token) (event : InterceptEvent)
    (metrics metrics' : InterceptMetrics) :
    (setup.step (state.withMetrics metrics) event).withMetrics metrics' =
      (setup.step state event).withMetrics metrics' := by
  cases event with
  | enter call message traceId clock verdictClock =>
      simp only [step, InterceptState.withMetrics]
      cases state.running call with
      | some entry => rfl
      | none =>
          rcases setup.fixed.enter state.trust message clock with
            ⟨drafted | _, trust⟩ <;> rfl
  | resume call pool verdictClock =>
      simp only [step, InterceptState.withMetrics]
      cases state.running call <;> rfl
  | cancel call => rfl
  | operate op => rfl

theorem final_withMetrics (events : List InterceptEvent)
    {left right : InterceptState Token}
    (h : ∀ metrics, left.withMetrics metrics = right.withMetrics metrics)
    (metrics : InterceptMetrics) :
    (final setup.step left events).withMetrics metrics =
      (final setup.step right events).withMetrics metrics := by
  induction events generalizing left right with
  | nil => exact h metrics
  | cons event rest ih =>
      apply ih
      intro counted
      rw [← setup.step_withMetrics left event {} counted, h,
        setup.step_withMetrics]

theorem step_records (state : InterceptState Token) (event : InterceptEvent) :
    ∃ new, (setup.step state event).ended = state.ended ++ new ∧
      (setup.step state event).metrics =
        (records new).foldl recordIntercept state.metrics := by
  have hstretch := setup.step_stretch state event
  generalize setup.step state event = next at hstretch
  cases hstretch with
  | still _ _ _ => exact ⟨[], (List.append_nil _).symm, rfl⟩
  | refuses _ _ _ _ _ =>
      exact ⟨_, rfl, by rw [records, List.flatMap_singleton]; rfl⟩
  | starts _ _ _ _ _ => exact ⟨[], (List.append_nil _).symm, rfl⟩
  | finishes _ _ _ =>
      exact ⟨_, rfl, by rw [records, List.flatMap_singleton]; rfl⟩
  | drops _ => exact ⟨[], (List.append_nil _).symm, rfl⟩
  | operates _ => exact ⟨[], (List.append_nil _).symm, rfl⟩

end InterceptorSetup

@[simp] theorem InterceptState.withMetrics_withMetrics (state : InterceptState Token)
    (metrics metrics' : InterceptMetrics) :
    (state.withMetrics metrics).withMetrics metrics' = state.withMetrics metrics' :=
  rfl

@[simp] theorem InterceptState.ended_withMetrics (state : InterceptState Token)
    (metrics : InterceptMetrics) : (state.withMetrics metrics).ended = state.ended :=
  rfl

namespace Service

variable (service : Service Token Tree)

theorem stretch_interceptor (state : ServiceState Token) (i : ℕ)
    (event : InterceptEvent) (metrics : InterceptMetrics) :
    ((service.stretch state i event).interceptors i).withMetrics metrics =
      ((service.interceptor i).step (state.interceptors i) event).withMetrics
        metrics := by
  simp only [stretch, Function.update_self]
  exact (service.interceptor i).step_withMetrics _ event _ metrics

theorem stretch_other (state : ServiceState Token) {i j : ℕ} (h : j ≠ i)
    (event : InterceptEvent) :
    (service.stretch state j event).interceptors i = state.interceptors i :=
  Function.update_of_ne (Ne.symm h) _ _

variable {state : ServiceState Token}

/-- `get_interceptor` publishes an interceptor, or changes nothing. -/
theorem getInterceptor_publishes (state : ServiceState Token) (trustedEnv : PyStr) :
    ∃ loaded, (service.getInterceptor state trustedEnv).2 =
      service.publish state loaded := by
  rw [getInterceptor]
  cases state.installed with
  | some i => exact ⟨none, rfl⟩
  | none => exact ⟨_, rfl⟩

theorem authorize_state (state : ServiceState Token) (trustedEnv : PyStr)
    (declared : Option PyStr) (messages : List AsgiMessage) (apiKeys : PyStr)
    (header : Option PyStr) :
    (service.authorize state trustedEnv declared messages apiKeys header).2 =
      (service.getInterceptor state trustedEnv).2 := by
  rw [authorize]
  rcases service.getInterceptor state trustedEnv with ⟨exc | i, next⟩
  · rfl
  · dsimp only
    cases (sizeLimitedHandler (py "POST") (service.bodyLimit i) declared messages).1 <;> rfl

/-- A request that is not yet admitted is refused, or has its agent kept; either way
it has met the interceptor. -/
theorem step_request {call : ℕ} (hagent : state.agent call = none) (trustedEnv : PyStr)
    (declared : Option PyStr) (messages : List AsgiMessage) (apiKeys : PyStr)
    (header : Option PyStr) :
    (∃ exc, (service.authorize state trustedEnv declared messages apiKeys header).1 =
        .error exc ∧
      service.step state (.request call trustedEnv declared messages apiKeys header) =
        { (service.getInterceptor state trustedEnv).2 with
          refused := state.refused ++ [exc] }) ∨
    ∃ agentId, (service.authorize state trustedEnv declared messages apiKeys header).1 =
        .ok agentId ∧
      service.step state (.request call trustedEnv declared messages apiKeys header) =
        { (service.getInterceptor state trustedEnv).2 with
          agent := Function.update state.agent call (some agentId) } := by
  rw [← service.authorize_state state trustedEnv declared messages apiKeys header]
  simp only [step, hagent]
  rcases service.authorize state trustedEnv declared messages apiKeys header with
    ⟨exc | agentId, next⟩
  · exact Or.inl ⟨exc, rfl, rfl⟩
  · exact Or.inr ⟨agentId, rfl, rfl⟩

@[simp] theorem publish_agent (state : ServiceState Token)
    (loaded : Option GatewayInterceptor) :
    (service.publish state loaded).agent = state.agent := by
  cases loaded <;> rfl

@[simp] theorem publish_refused (state : ServiceState Token)
    (loaded : Option GatewayInterceptor) :
    (service.publish state loaded).refused = state.refused := by
  cases loaded <;> rfl

@[simp] theorem getInterceptor_agent (state : ServiceState Token) (trustedEnv : PyStr) :
    (service.getInterceptor state trustedEnv).2.agent = state.agent := by
  obtain ⟨loaded, hloaded⟩ := service.getInterceptor_publishes state trustedEnv
  rw [hloaded, publish_agent]

/-- The interceptor that is returned is the one installed. -/
theorem getInterceptor_installed {trustedEnv : PyStr} {i : ℕ}
    (h : (service.getInterceptor state trustedEnv).1 = .ok i) :
    (service.getInterceptor state trustedEnv).2.installed = some i := by
  rw [getInterceptor] at h ⊢
  cases hcurrent : state.installed with
  | some j =>
      rw [hcurrent] at h
      cases h
      exact hcurrent
  | none =>
      rw [hcurrent] at h
      rcases @Gateway.get_first service.platform {} rfl trustedEnv with
        ⟨_, _, exc, hget⟩ | ⟨_, _, exc, published, hget⟩ | ⟨_, next, _, hget⟩
      · simp only [hget] at h
        cases h
      · simp only [hget] at h
        cases h
      · simp only [hget] at h ⊢
        cases h
        rfl

/-- What an event does to the interceptors: at most another one is published, or one
of them is taken a stretch further. -/
inductive Move (state : ServiceState Token) (event : HttpEvent) :
    ServiceState Token → Prop
  | publishes (loaded : Option GatewayInterceptor) (agent : ℕ → Option PyStr)
      (refused : List RouteExc) (quiet : ∀ i, state.stretchesOn i event = []) :
      Move state event { service.publish state loaded with agent, refused }
  | stretches {i : ℕ} (does : InterceptEvent) (agent : ℕ → Option PyStr)
      (created : i < state.created)
      (only : ∀ j, state.stretchesOn j event = if i = j then [does] else []) :
      Move state event (service.stretch { state with agent } i does)

/-- A stretch on an interceptor that there is, and nothing on another. -/
theorem move_stretch {event : HttpEvent} {i : ℕ} {does : InterceptEvent}
    (hon : ∀ j, state.stretchesOn j event =
      if i < state.created ∧ i = j then [does] else []) :
    service.Move state event
      (if i < state.created then service.stretch state i does else state) := by
  by_cases hcreated : i < state.created
  · rw [if_pos hcreated]
    refine .stretches does state.agent hcreated fun j => ?_
    rw [hon]
    simp only [hcreated, true_and]
  · rw [if_neg hcreated]
    refine .publishes none state.agent state.refused fun j => ?_
    rw [hon, if_neg fun h => hcreated h.1]

theorem step_move (hinstalled : ∀ i, state.installed = some i → i < state.created)
    (event : HttpEvent) : service.Move state event (service.step state event) := by
  have hquiet : (∀ i, state.stretchesOn i event = []) →
      service.Move state event state := fun quiet =>
    .publishes none state.agent state.refused quiet
  cases event with
  | request call trustedEnv declared messages apiKeys header =>
      cases hagent : state.agent call with
      | some agentId =>
          simp only [step, hagent]
          exact hquiet fun _ => rfl
      | none =>
          obtain ⟨loaded, hloaded⟩ := service.getInterceptor_publishes state trustedEnv
          rcases service.step_request hagent trustedEnv declared messages apiKeys header
            with ⟨exc, _, hstep⟩ | ⟨agentId, _, hstep⟩
          · rw [hstep, hloaded]
            exact .publishes loaded _ _ fun _ => rfl
          · rw [hstep, hloaded]
            exact .publishes loaded _ _ fun _ => rfl
  | handle call message traceId clock verdictClock =>
      rw [step]
      split
      next agentId i hagent hcurrent =>
        refine .stretches _ _ (hinstalled i hcurrent) fun j => ?_
        simp only [ServiceState.stretchesOn, hagent, hcurrent, Option.some.injEq]
      next hother =>
        refine hquiet fun i => ?_
        rw [ServiceState.stretchesOn]
        split
        next => rfl
        next agentId hagent => rw [if_neg fun hcurrent => hother agentId i hagent hcurrent]
  | resume i call pool verdictClock => exact service.move_stretch fun _ => rfl
  | cancel i call => exact service.move_stretch fun _ => rfl
  | operate i op => exact service.move_stretch fun _ => rfl
  | jwks trustedEnv =>
      obtain ⟨loaded, hloaded⟩ := service.getInterceptor_publishes state trustedEnv
      rw [step, hloaded]
      cases loaded with
      | none => exact hquiet fun _ => rfl
      | some loaded => exact .publishes (some loaded) state.agent state.refused fun _ => rfl
  | configure config trustedEnv =>
      rw [step]
      generalize (Gateway.configureInterceptor service.platform {} config
        trustedEnv).2.interceptor = loaded
      cases loaded with
      | none => exact hquiet fun _ => rfl
      | some loaded => exact .publishes (some loaded) state.agent state.refused fun _ => rfl

/-- What is installed has been created, what has not been created has done nothing,
and each interceptor is where its own stretches lead, the shared metrics aside. -/
structure Located (run : List HttpEvent) : Prop where
  installed : ∀ i, (service.after run).installed = some i → i < (service.after run).created
  unused : ∀ i, (service.after run).created ≤ i → service.stretches i run = []
  placed : ∀ i metrics, ((service.after run).interceptors i).withMetrics metrics =
    ((service.interceptor i).after ((service.after run).boundary i)
      (service.stretches i run)).withMetrics metrics

variable {service}

theorem Located.snoc {past : List HttpEvent} (h : service.Located past)
    (event : HttpEvent) : service.Located (past ++ [event]) := by
  have hstretches := fun i => service.stretches_snoc i past event
  have hmove := service.step_move h.installed event
  rw [← after_snoc] at hmove
  obtain ⟨hinstalled, hunused, hplaced⟩ := h
  generalize service.after past = state at *
  generalize hnext : service.after (past ++ [event]) = next at hmove
  cases hmove with
  | publishes loaded agent refused quiet =>
      have hsame : ∀ i, service.stretches i (past ++ [event]) =
          service.stretches i past := by
        intro i
        rw [hstretches, quiet, List.append_nil]
      cases loaded with
      | none =>
          refine ⟨?_, ?_, ?_⟩
          · rw [hnext]
            exact hinstalled
          · rw [hnext]
            intro i hi
            rw [hsame]
            exact hunused i hi
          · rw [hnext]
            intro i metrics
            rw [hsame]
            exact hplaced i metrics
      | some loaded =>
          refine ⟨?_, ?_, ?_⟩
          · rw [hnext]
            intro i hi
            cases hi
            exact Nat.lt_succ_self state.created
          · rw [hnext]
            intro i hi
            rw [hsame]
            exact hunused i (Nat.le_of_succ_le hi)
          · rw [hnext]
            intro i metrics
            rw [hsame]
            by_cases hi : i = state.created
            · subst hi
              rw [hunused _ le_rfl]
              simp only [publish, Function.update_self]
              rfl
            · simp only [publish, Function.update_of_ne hi]
              exact hplaced i metrics
  | @stretches i does agent created only =>
      refine ⟨?_, ?_, ?_⟩
      · rw [hnext]
        exact hinstalled
      · rw [hnext]
        intro j hj
        have hne : i ≠ j := (lt_of_lt_of_le created hj).ne
        rw [hstretches, only, if_neg hne, List.append_nil]
        exact hunused j hj
      · rw [hnext]
        intro j metrics
        rw [hstretches, only]
        by_cases hij : i = j
        · subst hij
          rw [if_pos rfl, service.stretch_interceptor, InterceptorSetup.after,
            final_append]
          exact (service.interceptor i).final_withMetrics [does] (hplaced i) metrics
        · rw [if_neg hij, List.append_nil, service.stretch_other _ hij]
          exact hplaced j metrics

theorem located_after (service : Service Token Tree) (run : List HttpEvent) :
    service.Located run := by
  induction run using List.reverseRecOn with
  | nil =>
      exact ⟨fun _ h => (nomatch h), fun _ _ => rfl, fun _ _ => rfl⟩
  | append_singleton past event ih => exact ih.snoc event

/-- The calls that ended on an interceptor, in the terms of its own run. -/
theorem ended_interceptor (service : Service Token Tree) (run : List HttpEvent) (i : ℕ) :
    ((service.after run).interceptors i).ended =
      ((service.interceptor i).after ((service.after run).boundary i)
        (service.stretches i run)).ended := by
  have hsame := congrArg InterceptState.ended ((service.located_after run).placed i {})
  simpa using hsame

/-- A stretch serves the calls that it ends, and records them. -/
theorem stretch_serves (service : Service Token Tree) (state : ServiceState Token)
    (i : ℕ) (event : InterceptEvent) :
    ∃ new, (service.stretch state i event).served = state.served ++ new ∧
      ((service.stretch state i event).interceptors i).ended =
        (state.interceptors i).ended ++ new ∧
      (service.stretch state i event).metrics =
        (InterceptorSetup.records new).foldl recordIntercept state.metrics := by
  obtain ⟨new, hended, hmetrics⟩ := (service.interceptor i).step_records
    ((state.interceptors i).withMetrics state.metrics) event
  rw [InterceptState.ended_withMetrics] at hended
  refine ⟨new, ?_, ?_, hmetrics⟩
  · simp only [stretch, hended, List.drop_left]
  · simp only [stretch, Function.update_self, hended]

/-- What has been served ended on some interceptor, and is what the metrics have
counted. -/
structure Accounts (state : ServiceState Token) : Prop where
  served : ∀ interception, interception ∈ state.served ↔
    ∃ i, interception ∈ (state.interceptors i).ended
  counted : Tally (InterceptorSetup.records state.served) state.metrics

variable {run : List HttpEvent}

theorem Accounts.stretch (h : Accounts state) (i : ℕ) (event : InterceptEvent) :
    Accounts (service.stretch state i event) := by
  obtain ⟨new, hserved, hended, hmetrics⟩ := service.stretch_serves state i event
  refine ⟨fun interception => ?_, ?_⟩
  · rw [hserved, List.mem_append, h.served]
    constructor
    · rintro (⟨j, hold⟩ | hnew)
      · refine ⟨j, ?_⟩
        by_cases hj : i = j
        · subst hj
          rw [hended]
          exact List.mem_append_left _ hold
        · rw [service.stretch_other state hj]
          exact hold
      · exact ⟨i, hended ▸ List.mem_append_right _ hnew⟩
    · rintro ⟨j, hmem⟩
      by_cases hj : i = j
      · subst hj
        rw [hended, List.mem_append] at hmem
        exact hmem.imp_left fun hold => ⟨i, hold⟩
      · rw [service.stretch_other state hj] at hmem
        exact Or.inl ⟨j, hmem⟩
  · rw [hserved, hmetrics, InterceptorSetup.records, List.flatMap_append]
    exact InterceptorSetup.tally_foldl h.counted _

/-- A new interceptor has ended no call, and none had on its index. -/
theorem Accounts.publish (h : Accounts state)
    (hunused : (state.interceptors state.created).ended = [])
    (loaded : Option GatewayInterceptor) : Accounts (service.publish state loaded) := by
  cases loaded with
  | none => exact h
  | some loaded =>
      refine ⟨fun interception => ?_, h.counted⟩
      have hsame : ∀ i, ((service.publish state (some loaded)).interceptors i).ended =
          (state.interceptors i).ended := by
        intro i
        by_cases hi : i = state.created
        · subst hi
          simp only [Service.publish, Function.update_self]
          rw [hunused]
          rfl
        · simp only [Service.publish, Function.update_of_ne hi]
      simp only [hsame]
      exact h.served interception

theorem accounts_after (run : List HttpEvent) : Accounts (service.after run) := by
  induction run using List.reverseRecOn with
  | nil =>
      refine ⟨fun interception => ?_, Tally.nil⟩
      exact iff_of_false List.not_mem_nil fun ⟨_, h⟩ => nomatch h
  | append_singleton past event ih =>
      have hlocated := service.located_after past
      have hunused := service.ended_interceptor past (service.after past).created
      rw [hlocated.unused _ le_rfl] at hunused
      have hmove := service.step_move hlocated.installed event
      rw [after_snoc]
      generalize service.step (service.after past) event = next at hmove
      cases hmove with
      | publishes loaded agent refused quiet =>
          have hpublished : Accounts (service.publish (service.after past) loaded) :=
            ih.publish hunused loaded
          exact ⟨hpublished.served, hpublished.counted⟩
      | @stretches i does agent created only =>
          have hsame : Accounts { service.after past with agent } := ⟨ih.served, ih.counted⟩
          exact hsame.stretch i does

/-- What is served was decided atomically on its interceptor. -/
theorem atomic_of_served {interception : Interception Token}
    (h : interception ∈ (service.after run).served) :
    ∃ i, (service.interceptor i).Atomic ((service.after run).boundary i)
      (service.stretches i run) interception := by
  obtain ⟨i, hended⟩ := ((accounts_after run).served interception).mp h
  rw [ended_interceptor] at hended
  exact ⟨i, ((service.interceptor i).traced _ _).ended interception hended⟩

end Service

namespace Reference

def httpService : Service SignedToken Unit where
  platform := ⟨reader, true⟩
  interceptor _ := setup
  unencodable := ⟨.valueError, py "surrogates not allowed"⟩

def apiKeys : PyStr := py "\x7b\"k\": \"a\"\x7d"

end Reference

end QwedA2A
