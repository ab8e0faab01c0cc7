/-
Whose calls are served.  Every call on an interceptor is the handler's of a request
that was admitted as its sender, so the sender is an agent that the operator's key map
named; and apart from who was admitted and what they sent, requests leave no trace.
-/
import QwedA2A.Endpoints

namespace QwedA2A

open EventRun PyJson

variable {Token Tree : Type}

def HttpEvent.handles (call : ℕ) : HttpEvent → Bool
  | .handle other _ _ _ _ => other = call
  | _ => false

namespace Service

variable (service : Service Token Tree)

/-- The request keeps the limit of the interceptor it meets, and shows a key that the
map of that moment gives to the agent. -/
structure Admits (state : ServiceState Token) (trustedEnv : PyStr)
    (declared : Option PyStr) (messages : List AsgiMessage) (apiKeys : PyStr)
    (header : Option PyStr) (agentId : PyStr) : Prop where
  within : ∃ i, (service.getInterceptor state trustedEnv).1 = .ok i ∧
    (sizeLimitedHandler (py "POST") (service.bodyLimit i) declared messages).1 = .ok ()
  encodable : isUnicode (header.getD []) = true
  granted : GrantsKey service.platform.interp apiKeys (header.getD []) agentId

theorem authorize_iff {state : ServiceState Token} {trustedEnv : PyStr}
    {declared : Option PyStr} {messages : List AsgiMessage} {apiKeys : PyStr}
    {header : Option PyStr} {agentId : PyStr} :
    (service.authorize state trustedEnv declared messages apiKeys header).1 = .ok agentId ↔
      service.Admits state trustedEnv declared messages apiKeys header agentId := by
  rw [authorize]
  constructor
  · intro h
    split at h
    next => cases h
    next i next hget =>
      split at h
      next => cases h
      next hwithin =>
        obtain ⟨hunicode, hgrants⟩ := requireAgentIdentity_ok_iff.mp h
        exact ⟨⟨i, congrArg Prod.fst hget, hwithin⟩, hunicode, hgrants⟩
  · rintro ⟨⟨i, hget, hwithin⟩, hunicode, hgrants⟩
    split
    next exc next hraised =>
      rw [hraised] at hget
      cases hget
    next j next hfound =>
      rw [hfound] at hget
      cases hget
      rw [hwithin]
      exact requireAgentIdentity_ok_iff.mpr ⟨hunicode, hgrants⟩

/-- The request was admitted as the agent's, and its handler has not run since. -/
def AuthenticatedIn (run : List HttpEvent) (call : ℕ) (agentId : PyStr) : Prop :=
  ∃ before trustedEnv declared messages apiKeys header since,
    run = before ++
      .request call trustedEnv declared messages apiKeys header :: since ∧
    service.Admits (service.after before) trustedEnv declared messages apiKeys header
      agentId ∧
    ∀ event ∈ since, event.handles call = false

/-- A call entered as the agent that its request was authenticated as, with the
rest of its message as the body has it. -/
def IdentifiedIn (run : List HttpEvent) (entry : Entry) : Prop :=
  ∃ past call message verdictClock,
    past ++ [.handle call message entry.traceId entry.clock verdictClock] <+: run ∧
      service.AuthenticatedIn past call entry.message.senderAgentId ∧
      entry.message = message.sentBy entry.message.senderAgentId

variable {service} {run : List HttpEvent} {call : ℕ} {agentId : PyStr}

theorem AuthenticatedIn.snoc (h : service.AuthenticatedIn run call agentId)
    {event : HttpEvent} (hevent : event.handles call = false) :
    service.AuthenticatedIn (run ++ [event]) call agentId := by
  obtain ⟨before, trustedEnv, declared, messages, apiKeys, header, since, rfl, hadmits,
    hsince⟩ := h
  refine ⟨before, trustedEnv, declared, messages, apiKeys, header, since ++ [event],
    by simp, hadmits, ?_⟩
  intro other hother
  rcases List.mem_append.mp hother with hold | hnew
  · exact hsince other hold
  · cases List.mem_singleton.mp hnew
    exact hevent

/-- An agent is kept for a call only by its authentication. -/
theorem agent_step {state : ServiceState Token} {event : HttpEvent}
    (h : (service.step state event).agent call = some agentId) :
    (state.agent call = some agentId ∧
      (event.handles call = false ∨ state.installed = none)) ∨
      ∃ trustedEnv declared messages apiKeys header,
        event = .request call trustedEnv declared messages apiKeys header ∧
        service.Admits state trustedEnv declared messages apiKeys header agentId := by
  cases event with
  | request other trustedEnv declared messages apiKeys header =>
      cases hother : state.agent other with
      | some found =>
          simp only [step, hother] at h
          exact Or.inl ⟨h, Or.inl rfl⟩
      | none =>
          rcases service.step_request hother trustedEnv declared messages apiKeys header
            with ⟨exc, _, hstep⟩ | ⟨found, hauthorize, hstep⟩
          · rw [hstep] at h
            dsimp only at h
            rw [getInterceptor_agent] at h
            exact Or.inl ⟨h, Or.inl rfl⟩
          · rw [hstep] at h
            dsimp only at h
            by_cases hcall : call = other
            · subst hcall
              rw [Function.update_self] at h
              cases h
              exact Or.inr ⟨trustedEnv, declared, messages, apiKeys, header, rfl,
                service.authorize_iff.mp hauthorize⟩
            · rw [Function.update_of_ne hcall] at h
              exact Or.inl ⟨h, Or.inl rfl⟩
  | handle other message traceId clock verdictClock =>
      rw [step] at h
      split at h
      next found i hagent hcurrent =>
        simp only [stretch] at h
        by_cases hcall : call = other
        · subst hcall
          rw [Function.update_self] at h
          cases h
        · rw [Function.update_of_ne hcall] at h
          exact Or.inl ⟨h, Or.inl (decide_eq_false (Ne.symm hcall))⟩
      next hother =>
        refine Or.inl ⟨h, ?_⟩
        by_cases hcall : call = other
        · subst hcall
          refine Or.inr (Option.eq_none_iff_forall_ne_some.mpr fun i hcurrent => ?_)
          exact hother agentId i h hcurrent
        · exact Or.inl (decide_eq_false (Ne.symm hcall))
  | resume i other pool verdictClock =>
      rw [step] at h
      split_ifs at h <;> exact Or.inl ⟨h, Or.inl rfl⟩
  | cancel i other =>
      rw [step] at h
      split_ifs at h <;> exact Or.inl ⟨h, Or.inl rfl⟩
  | operate i op =>
      rw [step] at h
      split_ifs at h <;> exact Or.inl ⟨h, Or.inl rfl⟩
  | jwks trustedEnv =>
      rw [step, getInterceptor_agent] at h
      exact Or.inl ⟨h, Or.inl rfl⟩
  | configure config trustedEnv =>
      rw [step, publish_agent] at h
      exact Or.inl ⟨h, Or.inl rfl⟩

theorem installed_step {state : ServiceState Token} (event : HttpEvent)
    (hinstalled : ∀ i, state.installed = some i → i < state.created)
    (h : state.installed ≠ none) : (service.step state event).installed ≠ none := by
  have hmove := service.step_move hinstalled event
  generalize service.step state event = next at hmove
  cases hmove with
  | publishes loaded agent refused quiet =>
      cases loaded with
      | none => exact h
      | some loaded => exact Option.some_ne_none _
  | stretches does agent created only => exact h

/-- The interceptor exists when a request is about to be handled. -/
theorem installed_of_agent
    (h : (service.after run).agent call = some agentId) :
    (service.after run).installed ≠ none := by
  induction run using List.reverseRecOn generalizing call agentId with
  | nil => cases h
  | append_singleton past event ih =>
      rw [after_snoc] at h ⊢
      rcases agent_step h with ⟨hkept, _⟩ |
        ⟨trustedEnv, declared, messages, apiKeys, header, rfl, hadmits⟩
      · exact installed_step event (service.located_after past).installed (ih hkept)
      · obtain ⟨i, hget, _⟩ := hadmits.within
        cases hagent : (service.after past).agent call with
        | some found => exact installed_step _ (service.located_after past).installed (ih hagent)
        | none =>
            rcases service.step_request hagent trustedEnv declared messages apiKeys header
              with ⟨_, _, hstep⟩ | ⟨_, _, hstep⟩
            · rw [hstep]
              exact Option.ne_none_iff_exists'.mpr ⟨i, service.getInterceptor_installed hget⟩
            · rw [hstep]
              exact Option.ne_none_iff_exists'.mpr ⟨i, service.getInterceptor_installed hget⟩

theorem authenticated_after
    (h : (service.after run).agent call = some agentId) :
    service.AuthenticatedIn run call agentId := by
  induction run using List.reverseRecOn with
  | nil => cases h
  | append_singleton past event ih =>
      rw [after_snoc] at h
      rcases agent_step h with ⟨hkept, hevent | hnone⟩ |
        ⟨trustedEnv, declared, messages, apiKeys, header, rfl, hadmits⟩
      · exact (ih hkept).snoc hevent
      · exact absurd hnone (installed_of_agent hkept)
      · exact ⟨past, trustedEnv, declared, messages, apiKeys, header, [], rfl, hadmits,
          fun _ h => nomatch h⟩

/-- Every call that enters an interceptor is the handler's of an authenticated
request. -/
theorem handled_of_enter {i : ℕ} {message : AgentMessage} {traceId : PyStr}
    {clock : TrustBoundary.Clock} {verdictClock : VerdictClock}
    (h : .enter call message traceId clock verdictClock ∈ service.stretches i run) :
    ∃ past body, past ++ [.handle call body traceId clock verdictClock] <+: run ∧
      ∃ agentId, service.AuthenticatedIn past call agentId ∧
        message = body.sentBy agentId := by
  induction run using List.reverseRecOn with
  | nil => cases h
  | append_singleton past event ih =>
      rw [stretches_snoc, List.mem_append] at h
      rcases h with hold | hnew
      · obtain ⟨before, body, hbefore, hhandled⟩ := ih hold
        exact ⟨before, body, hbefore.trans (List.prefix_append _ _), hhandled⟩
      · cases event with
        | handle other body traceId clock verdictClock =>
            simp only [ServiceState.stretchesOn] at hnew
            cases hagent : (service.after past).agent other with
            | none =>
                rw [hagent] at hnew
                cases hnew
            | some agentId =>
                simp only [hagent] at hnew
                split_ifs at hnew
                · cases List.mem_singleton.mp hnew
                  exact ⟨past, body, List.prefix_rfl, agentId,
                    authenticated_after hagent, rfl⟩
                · cases hnew
        | request other trustedEnv declared messages apiKeys header => cases hnew
        | jwks trustedEnv => cases hnew
        | configure config trustedEnv => cases hnew
        | resume j other pool verdictClock =>
            simp only [ServiceState.stretchesOn] at hnew
            split_ifs at hnew
            · cases List.mem_singleton.mp hnew
            · cases hnew
        | cancel j other =>
            simp only [ServiceState.stretchesOn] at hnew
            split_ifs at hnew
            · cases List.mem_singleton.mp hnew
            · cases hnew
        | operate j op =>
            simp only [ServiceState.stretchesOn] at hnew
            split_ifs at hnew
            · cases List.mem_singleton.mp hnew
            · cases hnew

theorem identified_of_entered {i : ℕ} {entry : Entry} {trust : TrustBoundary}
    (h : (service.interceptor i).EnteredIn trust (service.stretches i run) entry) :
    service.IdentifiedIn run entry := by
  obtain ⟨before, call, verdictClock, hbefore, _⟩ := h
  obtain ⟨past, body, hpast, agentId, hauthenticated, hmessage⟩ :=
    handled_of_enter (hbefore.subset (List.mem_append_right _ List.mem_cons_self))
  have hsender : entry.message.senderAgentId = agentId := by
    rw [hmessage, AgentMessage.sentBy_senderAgentId]
  rw [← hsender] at hauthenticated hmessage
  exact ⟨past, call, body, verdictClock, hpast, hauthenticated, hmessage⟩

/-- An identity that authenticates is in canonical form. -/
theorem AuthenticatedIn.canonical (h : service.AuthenticatedIn run call agentId) :
    CanonicalId agentId := by
  obtain ⟨_, _, _, _, _, _, _, _, hadmits, _⟩ := h
  obtain ⟨_, _, value, _, _, _, _, hvalid⟩ := hadmits.granted
  cases value with
  | str text =>
      obtain ⟨hcanonical, rfl⟩ := validAgentId_eq_some.mp hvalid
      exact hcanonical
  | _ => cases hvalid

end Service

namespace Reference

def spoofedMessage : AgentMessage :=
  { invoiceMessage with
    senderAgentId := py "c", stringKeys := invoiceMessage.stringKeys }

/-- After the interceptor is created, a request without a key, and one for the invoice
with a key but another sender. -/
def spoofedRun : List HttpEvent :=
  [.jwks (py "a"), .request 0 [] none [] apiKeys none,
    .request 1 [] none [] apiKeys (some (py "k")),
    .handle 1 spoofedMessage (py "t") ⟨0, 0, 0⟩ (verdictClock 0),
    .resume 0 1 .finishes (verdictClock 1)]

end Reference

/-- The messages are the same but for the sender that is declared. -/
structure SameBut (message message' : AgentMessage) : Prop where
  receiver : message.receiverAgentId = message'.receiverAgentId
  payloadType : message.payloadType = message'.payloadType
  payload : message.payload = message'.payload

theorem SameBut.sentBy {message message' : AgentMessage}
    (h : SameBut message message') (agentId : PyStr) :
    message.sentBy agentId = message'.sentBy agentId := by
  have hsent : ∀ message : AgentMessage, message.sentBy agentId =
      { message with senderAgentId := agentId, stringKeys := message.stringKeys } := by
    intro message
    rw [AgentMessage.sentBy]
    split_ifs with hsender
    · rfl
    · rw [← not_not.mp hsender]
  obtain ⟨hreceiver, htype, hpayload⟩ := h
  rw [hsent, hsent]
  cases message
  cases message'
  cases hreceiver
  cases htype
  cases hpayload
  rfl

/-- Two runs from a state that admit the same agents to the same calls.  They may
differ in requests that are refused, once there is an interceptor, in the keys that
are shown and the maps that grant them, and in the senders that bodies declare. -/
inductive SameRequests (service : Service Token Tree) :
    ServiceState Token → List HttpEvent → List HttpEvent → Prop
  | nil (state : ServiceState Token) : SameRequests service state [] []
  | same {state : ServiceState Token} {run run' : List HttpEvent} (event : HttpEvent)
      (later : SameRequests service (service.step state event) run run') :
      SameRequests service state (event :: run) (event :: run')
  | refusedLeft {state : ServiceState Token} {run run' : List HttpEvent} (call : ℕ)
      {trustedEnv apiKeys : PyStr} {declared header : Option PyStr}
      {messages : List AsgiMessage} {exc : RouteExc}
      (opened : state.installed.isSome = true)
      (refused : (service.authorize state trustedEnv declared messages apiKeys header).1 =
        .error exc)
      (later : SameRequests service state run run') :
      SameRequests service state
        (.request call trustedEnv declared messages apiKeys header :: run) run'
  | refusedRight {state : ServiceState Token} {run run' : List HttpEvent} (call : ℕ)
      {trustedEnv apiKeys : PyStr} {declared header : Option PyStr}
      {messages : List AsgiMessage} {exc : RouteExc}
      (opened : state.installed.isSome = true)
      (refused : (service.authorize state trustedEnv declared messages apiKeys header).1 =
        .error exc)
      (later : SameRequests service state run run') :
      SameRequests service state run
        (.request call trustedEnv declared messages apiKeys header :: run')
  | request {state : ServiceState Token} {run run' : List HttpEvent} (call : ℕ)
      {trustedEnv trustedEnv' apiKeys apiKeys' : PyStr}
      {declared declared' header header' : Option PyStr}
      {messages messages' : List AsgiMessage}
      (environment : state.installed = none → trustedEnv = trustedEnv')
      (sameAgent :
        (service.authorize state trustedEnv declared messages apiKeys header).1.toOption =
          (service.authorize state trustedEnv' declared' messages' apiKeys'
            header').1.toOption)
      (later : SameRequests service
        (service.step state (.request call trustedEnv declared messages apiKeys header))
        run run') :
      SameRequests service state
        (.request call trustedEnv declared messages apiKeys header :: run)
        (.request call trustedEnv' declared' messages' apiKeys' header' :: run')
  | handle {state : ServiceState Token} {run run' : List HttpEvent} (call : ℕ)
      {message message' : AgentMessage} (traceId : PyStr) (clock : TrustBoundary.Clock)
      (verdictClock : VerdictClock) (sameBut : SameBut message message')
      (later : SameRequests service
        (service.step state (.handle call message traceId clock verdictClock)) run run') :
      SameRequests service state (.handle call message traceId clock verdictClock :: run)
        (.handle call message' traceId clock verdictClock :: run')

def ServiceState.standing (state : ServiceState Token) : ServiceState Token :=
  { state with refused := [] }

namespace Service

variable {service : Service Token Tree} {state state' : ServiceState Token}

theorem getInterceptor_standing (state : ServiceState Token) (trustedEnv : PyStr) :
    service.getInterceptor state.standing trustedEnv =
      ((service.getInterceptor state trustedEnv).1,
        (service.getInterceptor state trustedEnv).2.standing) := by
  obtain ⟨created, _ | i, boundary, interceptors, metrics, agent, refused, served⟩ := state
  · simp only [getInterceptor, ServiceState.standing]
    cases (Gateway.getInterceptor service.platform {} trustedEnv).2.interceptor <;> rfl
  · rfl

theorem authorize_standing (state : ServiceState Token) (trustedEnv : PyStr)
    (declared : Option PyStr) (messages : List AsgiMessage) (apiKeys : PyStr)
    (header : Option PyStr) :
    (service.authorize state.standing trustedEnv declared messages apiKeys header).1 =
      (service.authorize state trustedEnv declared messages apiKeys header).1 := by
  rw [authorize, authorize, getInterceptor_standing]
  rcases service.getInterceptor state trustedEnv with ⟨exc | i, next⟩
  · rfl
  · dsimp only
    cases (sizeLimitedHandler (py "POST") (service.bodyLimit i) declared messages).1 <;> rfl

/-- What a request leaves depends on the agent it is admitted as and on the interceptor
it meets. -/
theorem standing_request {call : ℕ} {trustedEnv trustedEnv' apiKeys apiKeys' : PyStr}
    {declared declared' header header' : Option PyStr}
    {messages messages' : List AsgiMessage} (h : state.standing = state'.standing)
    (hget : (service.getInterceptor state trustedEnv).2.standing =
      (service.getInterceptor state' trustedEnv').2.standing)
    (hagent : (service.authorize state trustedEnv declared messages apiKeys
      header).1.toOption =
        (service.authorize state' trustedEnv' declared' messages' apiKeys'
          header').1.toOption) :
    (service.step state
      (.request call trustedEnv declared messages apiKeys header)).standing =
    (service.step state'
      (.request call trustedEnv' declared' messages' apiKeys' header')).standing := by
  have hagents : state.agent = state'.agent := (congrArg ServiceState.agent h :)
  cases hcall : state.agent call with
  | some agentId =>
      have hcall' : state'.agent call = some agentId := by rw [← hagents, hcall]
      simp only [step, hcall, hcall']
      exact h
  | none =>
      have hcall' : state'.agent call = none := by rw [← hagents, hcall]
      rcases service.step_request hcall trustedEnv declared messages apiKeys header with
        ⟨exc, hauthorize, hstep⟩ | ⟨agentId, hauthorize, hstep⟩
      · rcases service.step_request hcall' trustedEnv' declared' messages' apiKeys' header'
          with ⟨exc', _, hstep'⟩ | ⟨_, hauthorize', _⟩
        · rw [hstep, hstep']
          exact hget
        · rw [hauthorize, hauthorize'] at hagent
          cases hagent
      · rcases service.step_request hcall' trustedEnv' declared' messages' apiKeys' header'
          with ⟨_, hauthorize', _⟩ | ⟨agentId', hauthorize', hstep'⟩
        · rw [hauthorize, hauthorize'] at hagent
          cases hagent
        · rw [hauthorize, hauthorize'] at hagent
          cases hagent
          rw [hstep, hstep', ← hagents]
          exact (congrArg (fun next : ServiceState Token =>
            { next with agent := Function.update state.agent call (some agentId) }) hget :)

theorem stretch_standing (state : ServiceState Token) (i : ℕ) (event : InterceptEvent) :
    (service.stretch state.standing i event).standing =
      (service.stretch state i event).standing := rfl

theorem standing_step (h : state.standing = state'.standing) (event : HttpEvent) :
    (service.step state event).standing = (service.step state' event).standing := by
  have hget : ∀ trustedEnv, (service.getInterceptor state trustedEnv).2.standing =
      (service.getInterceptor state' trustedEnv).2.standing := by
    intro trustedEnv
    have hleft := service.getInterceptor_standing state trustedEnv
    rw [h, getInterceptor_standing] at hleft
    exact (congrArg Prod.snd hleft).symm
  have hstretch : ∀ i does, (if i < state.created then service.stretch state i does
        else state).standing =
      (if i < state'.created then service.stretch state' i does else state').standing := by
    intro i does
    have hcreated : state.created = state'.created := (congrArg ServiceState.created h :)
    rw [hcreated]
    split_ifs
    · rw [← stretch_standing, h, stretch_standing]
    · exact h
  cases event with
  | request call trustedEnv declared messages apiKeys header =>
      refine standing_request h (hget trustedEnv) ?_
      rw [← authorize_standing state, h, authorize_standing]
  | handle call message traceId clock verdictClock =>
      obtain ⟨created, installed, _, _, _, agent, _, _⟩ := state
      obtain ⟨_, _, _, _, _, _, _, _⟩ := state'
      cases h
      simp only [step]
      cases agent call with
      | none => rfl
      | some agentId => cases installed <;> rfl
  | resume i call pool verdictClock => exact hstretch i _
  | cancel i call => exact hstretch i _
  | operate i op => exact hstretch i _
  | jwks trustedEnv => exact hget trustedEnv
  | configure config trustedEnv =>
      rw [step, step]
      generalize (Gateway.configureInterceptor service.platform {} config
        trustedEnv).2.interceptor = loaded
      cases loaded with
      | none => exact h
      | some loaded =>
          exact (congrArg (fun state =>
            (service.publish state (some loaded)).standing) h :)

theorem standing_final (h : state.standing = state'.standing) (run : List HttpEvent) :
    (final service.step state run).standing =
      (final service.step state' run).standing := by
  induction run generalizing state state' with
  | nil => exact h
  | cons event rest ih => exact ih (standing_step h event)

/-- A refusal leaves everything else as it was, once there is an interceptor. -/
theorem standing_refused {call : ℕ} {trustedEnv : PyStr} {declared : Option PyStr}
    {messages : List AsgiMessage} {apiKeys : PyStr} {header : Option PyStr}
    {exc : RouteExc} (hopened : state.installed.isSome = true)
    (h : (service.authorize state trustedEnv declared messages apiKeys header).1 =
      .error exc) :
    (service.step state
      (.request call trustedEnv declared messages apiKeys header)).standing =
        state.standing := by
  obtain ⟨i, hcurrent⟩ := Option.isSome_iff_exists.mp hopened
  have hget : (service.getInterceptor state trustedEnv).2 = state := by
    simp only [getInterceptor, hcurrent]
  cases hcall : state.agent call with
  | some agentId => simp only [step, hcall]
  | none =>
      rcases service.step_request hcall trustedEnv declared messages apiKeys header with
        ⟨_, _, hstep⟩ | ⟨_, hauthorize, _⟩
      · rw [hstep, hget]
        rfl
      · rw [h] at hauthorize
        cases hauthorize

theorem standing_same {run run' : List HttpEvent}
    (hrun : SameRequests service state run run') :
    (final service.step state run).standing =
      (final service.step state run').standing := by
  induction hrun with
  | nil state => rfl
  | same event _ ih => exact ih
  | refusedLeft call hopened hrefused _ ih =>
      exact (standing_final (standing_refused hopened hrefused) _).trans ih
  | refusedRight call hopened hrefused _ ih =>
      exact ih.trans (standing_final (standing_refused hopened hrefused) _).symm
  | @request state _ _ call trustedEnv trustedEnv' _ _ _ _ _ _ _ _ henvironment hagent _ ih =>
      refine ih.trans (standing_final (standing_request rfl ?_ hagent) _)
      simp only [getInterceptor]
      cases hcurrent : state.installed with
      | some i => rfl
      | none => rw [henvironment hcurrent]
  | handle call traceId clock verdictClock hmessage _ ih =>
      refine ih.trans (standing_final ?_ _)
      simp only [step, hmessage.sentBy]

end Service

/-- Boundaries, rate limits, issuance records, metrics and verdicts depend on which
agents were admitted and what they sent: once there is an interceptor a refused
request leaves no trace in them, nor do the keys, the key maps or the senders that
bodies declare. -/
theorem identity_decides (service : Service Token Tree) (run run' : List HttpEvent)
    (hrun : SameRequests service service.start run run') :
    (service.after run).standing = (service.after run').standing :=
  Service.standing_same hrun

namespace Reference

def otherApiKeys : PyStr := py "\x7b\"l\": \" a \", \"m\": 1\x7d"

/-- The same request alone, with its agent declared and another key shown. -/
def plainRun : List HttpEvent :=
  [.jwks (py "a"), .request 1 (py "b") (some (py "0")) [] otherApiKeys (some (py "l")),
    .handle 1 invoiceMessage (py "t") ⟨0, 0, 0⟩ (verdictClock 0),
    .resume 0 1 .finishes (verdictClock 1)]

/-- The state that both runs come to with the request for the key set. -/
def opened : ServiceState SignedToken := httpService.after [.jwks (py "a")]

theorem opened_installed : opened.installed.isSome = true := by
  decide +kernel

theorem keyless : (httpService.authorize opened [] none [] apiKeys none).1 =
    .error invalidApiKey := by
  decide +kernel

theorem keyed : (httpService.authorize opened [] none [] apiKeys (some (py "k"))).1 =
    .ok (py "a") := by
  decide +kernel

theorem otherwise_keyed : (httpService.authorize opened (py "b") (some (py "0")) []
    otherApiKeys (some (py "l"))).1 = .ok (py "a") := by
  decide +kernel

end Reference

theorem identity_decides_spoofed :
    (Reference.httpService.after Reference.spoofedRun).standing =
      (Reference.httpService.after Reference.plainRun).standing := by
  refine identity_decides Reference.httpService Reference.spoofedRun Reference.plainRun
    (.same _ (.refusedLeft 0 Reference.opened_installed Reference.keyless
      (.request 1 (fun hnone => ?_) ?_ (.handle 1 (py "t") _ _ ⟨rfl, rfl, rfl⟩
        (.same _ (.nil _))))))
  · have hopened := Reference.opened_installed
    rw [Reference.opened] at hopened
    cases (congrArg Option.isSome hnone).symm.trans hopened
  · exact (congrArg Except.toOption Reference.keyed).trans
      (congrArg Except.toOption Reference.otherwise_keyed).symm

/-- The first request decides which environment is read, though it is refused. -/
example :
    ((Reference.httpService.after [.request 0 [] none [] Reference.apiKeys none,
      .jwks (py "a")]).boundary 0).trustedAgents.lookup (py "a") = none := by
  decide +kernel

end QwedA2A
