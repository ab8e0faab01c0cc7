/-
What requests are answered.  A refusal says why, a call is answered with its verdict
or the 503, and a verdict that UTF-8 cannot carry fails outside the handler.
-/
import QwedA2A.Endpoints

namespace QwedA2A

open EventRun PyJson

variable {Token Tree : Type}

namespace Interceptor

variable {interceptor : Interceptor Token Tree} {tb : TrustBoundary}
  {message : AgentMessage} {traceId : PyStr} {clock : TrustBoundary.Clock}
  {pool : PoolOutcome}

theorem buildVerdict_error {draft : Draft} {exc : PyExc}
    (h : interceptor.buildVerdict message traceId draft = .error exc) :
    exc.type = .runtimeError := by
  rw [buildVerdict] at h
  split_ifs at h
  split at h
  next => cases h; rfl
  next =>
    split_ifs at h
    cases h
    rfl

/-- Whatever goes wrong in a call, it raises RuntimeError or returns. -/
theorem intercept_error {exc : PyExc}
    (h : (interceptor.intercept tb message traceId clock pool).1 = .error exc) :
    exc.type = .runtimeError := by
  obtain ⟨draft, hdraft, _⟩ := draft_returns interceptor message tb clock pool
  rw [intercept_of_draft hdraft] at h
  exact buildVerdict_error h

theorem intercept_attested_iff {verdict : VerificationVerdict Token}
    (h : (interceptor.intercept tb message traceId clock pool).1 = .ok verdict) :
    verdict.attestationJwt = none ↔ verdict.status = .unverifiable := by
  obtain ⟨draft, _, hbuild⟩ := intercept_ok h
  have hattested := (buildVerdict_ok hbuild).2.2
  split_ifs at hattested with hunverifiable
  · exact iff_of_true hattested hunverifiable
  · obtain ⟨token, hcarried, _⟩ := hattested
    refine iff_of_false (fun hnone => ?_) hunverifiable
    cases hcarried.symm.trans hnone

end Interceptor

namespace Service

variable {service : Service Token Tree} {state : ServiceState Token} {run : List HttpEvent}

/-- Why a request is refused: the interceptor cannot be created or loaded, the body
is not within its limit, or the key is not an agent's. -/
inductive Refusal (service : Service Token Tree) (state : ServiceState Token)
    (trustedEnv : PyStr) (declared : Option PyStr) : RouteExc → Prop
  | unavailable (raised : PyExc) (first : state.installed = none)
      (raises : service.platform.hasCrypto = false ∨
        EnvRaises service.platform.interp trustedEnv) :
      Refusal service state trustedEnv declared (.other raised)
  | malformed : Refusal service state trustedEnv declared invalidContentLength
  | unconvertible (raised : PyExc) {text : PyStr} (declares : declared = some text)
      (digits : isAsciiDigits text = true) (long : intMaxStrDigits < text.length) :
      Refusal service state trustedEnv declared (.other raised)
  | tooLarge (i : ℕ) :
      Refusal service state trustedEnv declared (bodyTooLarge (service.bodyLimit i))
  | unconfigured : Refusal service state trustedEnv declared authNotConfigured
  | unknown : Refusal service state trustedEnv declared invalidApiKey

/-- Only the first call of `get_interceptor` raises. -/
theorem getInterceptor_error {trustedEnv : PyStr} {exc : PyExc}
    (h : (service.getInterceptor state trustedEnv).1 = .error exc) :
    state.installed = none ∧ (service.platform.hasCrypto = false ∨
      EnvRaises service.platform.interp trustedEnv) := by
  rw [getInterceptor] at h
  cases hcurrent : state.installed with
  | some i =>
      rw [hcurrent] at h
      cases h
  | none =>
      rw [hcurrent] at h
      rcases @Gateway.get_first service.platform {} rfl trustedEnv with
        ⟨hcrypto, _⟩ | ⟨_, hraises, _⟩ | ⟨_, next, _, hget⟩
      · exact ⟨rfl, Or.inl hcrypto⟩
      · exact ⟨rfl, Or.inr hraises⟩
      · simp only [hget] at h
        cases h

theorem refusal_of_authorize {trustedEnv : PyStr} {declared : Option PyStr}
    {messages : List AsgiMessage} {apiKeys : PyStr} {header : Option PyStr}
    {exc : RouteExc}
    (h : (service.authorize state trustedEnv declared messages apiKeys header).1 =
      .error exc) : service.Refusal state trustedEnv declared exc := by
  rw [authorize] at h
  split at h
  next raised next hget =>
    cases h
    obtain ⟨hfirst, hraises⟩ := getInterceptor_error (congrArg Prod.fst hget)
    exact .unavailable raised hfirst hraises
  next i next hget =>
    split at h
    next raised hlimited =>
      cases h
      rcases sizeLimitedHandler_error hlimited with
        rfl | rfl | ⟨raised, text, rfl, hdeclared, hdigits, hlong⟩
      · exact .malformed
      · exact .tooLarge _
      · exact .unconvertible raised hdeclared hdigits hlong
    next =>
      rcases requireAgentIdentity_error h with ⟨rfl, _⟩ | ⟨rfl, _⟩
      · exact .unconfigured
      · exact .unknown

/-- A request of the run was refused so. -/
def RefusedIn (service : Service Token Tree) (run : List HttpEvent)
    (exc : RouteExc) : Prop :=
  ∃ past call trustedEnv declared messages apiKeys header,
    past ++ [.request call trustedEnv declared messages apiKeys header] <+: run ∧
      service.Refusal (service.after past) trustedEnv declared exc

/-- Only a request that is not admitted adds to the refusals. -/
theorem refused_step {event : HttpEvent} {exc : RouteExc}
    (h : exc ∈ (service.step state event).refused) :
    exc ∈ state.refused ∨ ∃ call trustedEnv declared messages apiKeys header,
      event = .request call trustedEnv declared messages apiKeys header ∧
        service.Refusal state trustedEnv declared exc := by
  have hget : ∀ trustedEnv, (service.getInterceptor state trustedEnv).2.refused =
      state.refused := by
    intro trustedEnv
    obtain ⟨loaded, hloaded⟩ := service.getInterceptor_publishes state trustedEnv
    rw [hloaded, publish_refused]
  cases event with
  | request call trustedEnv declared messages apiKeys header =>
      cases hagent : state.agent call with
      | some agentId =>
          simp only [step, hagent] at h
          exact Or.inl h
      | none =>
          rcases service.step_request hagent trustedEnv declared messages apiKeys header
            with ⟨raised, hauthorize, hstep⟩ | ⟨_, _, hstep⟩
          · rw [hstep] at h
            rcases List.mem_append.mp h with hold | hnew
            · exact Or.inl hold
            · cases List.mem_singleton.mp hnew
              exact Or.inr ⟨call, trustedEnv, declared, messages, apiKeys, header, rfl,
                refusal_of_authorize hauthorize⟩
          · rw [hstep] at h
            dsimp only at h
            rw [hget] at h
            exact Or.inl h
  | handle call message traceId clock verdictClock =>
      rw [step] at h
      split at h <;> exact Or.inl h
  | resume i call pool verdictClock =>
      rw [step] at h
      split_ifs at h <;> exact Or.inl h
  | cancel i call =>
      rw [step] at h
      split_ifs at h <;> exact Or.inl h
  | operate i op =>
      rw [step] at h
      split_ifs at h <;> exact Or.inl h
  | jwks trustedEnv =>
      rw [step, hget] at h
      exact Or.inl h
  | configure config trustedEnv =>
      rw [step, publish_refused] at h
      exact Or.inl h

theorem refusedIn_after {exc : RouteExc} (h : exc ∈ (service.after run).refused) :
    service.RefusedIn run exc := by
  induction run using List.reverseRecOn with
  | nil => cases h
  | append_singleton past event ih =>
      rw [after_snoc] at h
      rcases refused_step h with hold |
        ⟨call, trustedEnv, declared, messages, apiKeys, header, rfl, hrefusal⟩
      · obtain ⟨before, call, trustedEnv, declared, messages, apiKeys, header, hbefore,
          hrefusal⟩ := ih hold
        exact ⟨before, call, trustedEnv, declared, messages, apiKeys, header,
          hbefore.trans (List.prefix_append _ _), hrefusal⟩
      · exact ⟨past, call, trustedEnv, declared, messages, apiKeys, header,
          List.prefix_rfl, hrefusal⟩

end Service

/-- A request is refused because the interceptor cannot be created or loaded, because
of its body or because of its key, and a call is answered with its verdict or the 503;
the handler's 500 is never sent.  Only a verdict with a lone surrogate fails after its
call, outside the handler.  The metrics count the verdicts that the calls returned,
each for the agent that it was returned to. -/
theorem http_answers (service : Service Token Tree) (run : List HttpEvent) :
    let state := service.after run
    let returned := state.served.filter fun interception =>
      interception.result.toBool
    (∀ exc ∈ state.refused, service.RefusedIn run exc) ∧
    (∀ interception ∈ state.served,
      (∃ verdict, interception.result = .ok verdict ∧
        (verdict.attestationJwt = none ↔ verdict.status = .unverifiable) ∧
        service.interceptAnswer interception.result =
          if verdict.texts.all isUnicode then .ok verdict
          else .error (.other service.unencodable)) ∨
      service.interceptAnswer interception.result = .error signingKeyUnavailable) ∧
    state.metrics.toDict.totalIntercepts = returned.length ∧
    ∀ agentId, (state.metrics.toDict.bySender.lookup agentId).getD 0 =
      returned.countP fun interception =>
        interception.entry.message.senderAgentId = agentId := by
  intro state returned
  have haccounts : Service.Accounts state := Service.accounts_after run
  refine ⟨fun exc => Service.refusedIn_after, fun interception hserved => ?_,
    haccounts.counted.total.trans (InterceptorSetup.length_records _),
    InterceptorSetup.bySender_of_tally haccounts.counted⟩
  obtain ⟨i, hatomic⟩ := Service.atomic_of_served hserved
  cases hresult : interception.result with
  | ok verdict =>
      refine Or.inl ⟨verdict, rfl, ?_, rfl⟩
      exact Interceptor.intercept_attested_iff (hatomic.result.symm.trans hresult)
  | error exc =>
      have htype := Interceptor.intercept_error (hatomic.result.symm.trans hresult)
      refine Or.inr ?_
      rw [Service.interceptAnswer, interceptMessage, if_pos (Or.inl htype)]

namespace Reference

def surrogateClaim (negated : Bool) : PyVal :=
  .dict [(.str (py "claim"), .str [0xD800]), (.str (py "negated"), .bool negated)]

def surrogateMessage : AgentMessage where
  senderAgentId := py "a"
  receiverAgentId := py "b"
  payloadType := .logicAssertion
  payload := [(.str (py "assertions"), .list [surrogateClaim false, surrogateClaim true])]

def surrogateRun : List HttpEvent :=
  [.request 0 (py "a") none [] apiKeys (some (py "k")),
    .handle 0 surrogateMessage (py "t") ⟨0, 0, 0⟩ (verdictClock 0),
    .resume 0 0 .finishes (verdictClock 1)]

end Reference

/-- The contradiction is found and signed, and cannot be sent. -/
example : (Reference.httpService.after Reference.surrogateRun).served.map
    (fun interception => (interception.result.toBool,
      (Reference.httpService.interceptAnswer interception.result).toBool)) =
    [(true, false)] := by
  decide +kernel

end QwedA2A
