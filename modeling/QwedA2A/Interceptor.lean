/-
The interception pipeline: size, trust, engine, verdict and attestation.  Every
exit drafts a verdict, and one place signs it or refuses to return it.
-/
import QwedA2A.SignedClaims
import QwedA2A.TrustBoundary
import QwedA2A.Finance
import QwedA2A.LogicGuard
import QwedA2A.CodeGuard

namespace QwedA2A

variable {Token Tree : Type}

/-- What an interceptor is configured with and calls: its limits, the engines'
outside functions, and the signer, whose empty tokens are told apart. -/
structure Interceptor (Token Tree : Type) where
  config : InterceptorConfig := {}
  lib : CryptoLib Token
  unicode : UnicodeData
  code : CodeAnalysis Tree
  signVerdict : SignRequest → Except PyExc Token
  isEmptyToken : Token → Bool

/-- How the engine pool treats one run: refused for want of a slot, refused by
the executor, ended within the budget, or overtaken by it.  `ended` tells
whether the run was over when its waiter resumed. -/
inductive PoolOutcome where
  | noSlot
  | submitRaises (exc : PyExc)
  | finishes
  | budgetExpires (ended : Bool)

/-- How `_run_engine` ends, as `intercept` tells its exceptions apart. -/
inductive EngineEnd where
  | result (result : EngineResult)
  | timeout
  | busy
  | raised (exc : PyExc)

/-- The parts of a verdict before it is signed. -/
structure Draft where
  status : VerdictStatus
  reason : Option PyStr
  engine : PyStr
  details : Option EngineResult := none

namespace Interceptor

variable (interceptor : Interceptor Token Tree)

/-- UTF-8 byte length of the payload's compact JSON form. -/
def payloadSize (payload : PyDict) : Except PyExc ℕ := do
  let encoded ← PyJson.encode PyJson.compactStyle interceptor.lib.sizeDepth
    (.dict payload)
  pure (PyJson.utf8Size encoded)

def routeToEngine (message : AgentMessage) : Except PyExc EngineResult :=
  if message.payloadType = .financialTransaction ∧
      interceptor.config.enableFinancialVerification = true then
    verifyFinancial message.payload
  else if message.payloadType = .logicAssertion ∧
      interceptor.config.enableLogicVerification = true then
    .ok (verifyLogic interceptor.unicode message.payload)
  else if message.payloadType = .codeExecution ∧
      interceptor.config.enableCodeVerification = true then
    verifyCode interceptor.code message.payload
  else
    .ok
      { verified := false
        engine := py "passthrough"
        status := some (py "unverifiable")
        reason := py "No verification engine available for this payload type" }

def runEngine (message : AgentMessage) (pool : PoolOutcome) : EngineEnd :=
  match pool with
  | .noSlot => .busy
  | .submitRaises exc => .raised exc
  | .finishes =>
      match interceptor.routeToEngine message with
      | .ok result => .result result
      | .error exc => .raised exc
  | .budgetExpires ended =>
      -- A run that raised before its waiter resumed is reported as an error.
      match ended, interceptor.routeToEngine message with
      | true, .error _ => .raised ⟨.timeoutError, []⟩
      | _, _ => .timeout

/-- The verdict of an engine result: the status key goes before the flag. -/
def engineDraft (message : AgentMessage) (result : EngineResult) : Draft :=
  if result.status = some (py "unverifiable") then
    { status := .unverifiable, reason := some result.reason
      engine := result.engine, details := some result }
  else if result.status = some (py "heuristic_pass") then
    { status := .heuristicPass, reason := some result.reason
      engine := result.engine, details := some result }
  else if result.verified then
    { status := .verified, reason := none, engine := result.engine
      details := some result }
  else
    { status := .blocked
      reason := some (py "QWED BLOCKED A2A TRANSFER: " ++ result.reason ++
        py " from " ++ message.senderAgentId ++ py ".")
      engine := result.engine, details := some result }

/-- The verdict of an engine run, whichever way it ended. -/
def runDraft (message : AgentMessage) : EngineEnd → Draft
  | .result result => engineDraft message result
  | .timeout =>
      { status := .error
        reason := some (py "Verification engine timed out after " ++
          interceptor.config.engineTimeoutText ++ py "s - fail closed")
        engine := py "engine_timeout" }
  | .busy =>
      { status := .error
        reason := some (py "Verification engines are saturated - fail closed")
        engine := py "engine_busy" }
  | .raised exc =>
      { status := .error
        reason := some (py "Verification engine raised " ++ exc.type.name ++
          py " - fail closed")
        engine := py "error_handler" }

def unmeasurable (exc : PyExc) : Bool :=
  decide (exc.type = .typeError ∨ exc.type = .valueError ∨
    exc.type = .recursionError)

/-- Steps 0 to 4 up to the verdict's parts, and the boundary they leave. -/
def draft (tb : TrustBoundary) (message : AgentMessage)
    (clock : TrustBoundary.Clock) (pool : PoolOutcome) :
    Except PyExc Draft × TrustBoundary :=
  match interceptor.payloadSize message.payload with
  | .error exc =>
      if unmeasurable exc then
        (.ok
          { status := .unverifiable
            reason := some (py "Payload is not JSON-serializable; cannot verify")
            engine := py "size_limit" }, tb)
      else (.error exc, tb)
  | .ok size =>
      if interceptor.config.maxPayloadSizeBytes < size then
        (.ok
          { status := .blocked
            reason := some (py "Payload is " ++ natText size ++
              py " bytes; max_payload_size_bytes=" ++
              natText interceptor.config.maxPayloadSizeBytes)
            engine := py "size_limit" }, tb)
      else
        match tb.evaluate message.senderAgentId message.receiverAgentId
            (some message.payloadType.value) clock with
        | ((false, rejectionReason), tb) =>
            (.ok
              { status := .blocked
                reason := some (py "Trust boundary violation: " ++
                  rejectionReason.getD (py "None"))
                engine := py "trust_boundary" }, tb)
        | ((true, _), tb) =>
            (.ok (interceptor.runDraft message
              (interceptor.runEngine message pool)), tb)

def signRequest (message : AgentMessage) (traceId : PyStr) (draft : Draft)
    (hash : PyStr) : SignRequest where
  traceId := traceId
  verdictStatus := draft.status.value
  engine := draft.engine
  senderId := message.senderAgentId
  receiverId := message.receiverAgentId
  payloadHash := hash

/-- The hash and the signature; whatever raises, the caller sees one error. -/
def attest (message : AgentMessage) (traceId : PyStr) (draft : Draft) :
    Except PyExc Token := do
  let hash ← payloadHash interceptor.lib (.dict message.payload)
  interceptor.signVerdict (signRequest message traceId draft hash)

/-- Build the verdict, signing unless it is UNVERIFIABLE. -/
def buildVerdict (message : AgentMessage) (traceId : PyStr) (draft : Draft) :
    Except PyExc (VerificationVerdict Token) :=
  let verdict (attestation : Option Token) : VerificationVerdict Token :=
    { status := draft.status
      reason := draft.reason
      auditTraceId := traceId
      attestationJwt := attestation
      engineUsed := draft.engine
      details := draft.details }
  if draft.status = .unverifiable then .ok (verdict none)
  else
    match interceptor.attest message traceId draft with
    | .error _ =>
        .error ⟨.runtimeError, py "Failed to sign attestation; refusing to return an unsigned verdict"⟩
    | .ok token =>
        if interceptor.isEmptyToken token then
          .error ⟨.runtimeError, py "sign_verdict returned an empty token — refusing to emit unsigned verdict"⟩
        else .ok (verdict (some token))

def intercept (tb : TrustBoundary) (message : AgentMessage) (traceId : PyStr)
    (clock : TrustBoundary.Clock) (pool : PoolOutcome) :
    Except PyExc (VerificationVerdict Token) × TrustBoundary :=
  match interceptor.draft tb message clock pool with
  | (.error exc, tb) => (.error exc, tb)
  | (.ok draft, tb) => (interceptor.buildVerdict message traceId draft, tb)

variable {interceptor}

/-- Only the finance engine, when enabled, answers with a verified result. -/
theorem routeToEngine_verified {message : AgentMessage} {result : EngineResult}
    (h : interceptor.routeToEngine message = .ok result)
    (hverified : result.verified = true) :
    message.payloadType = .financialTransaction ∧
      interceptor.config.enableFinancialVerification = true ∧
      verifyFinancial message.payload = .ok result := by
  rw [routeToEngine] at h
  split_ifs at h with hfinance hlogic hcode
  · exact ⟨hfinance.1, hfinance.2, h⟩
  · cases h
    rw [verifyLogic_not_verified] at hverified
    cases hverified
  · rw [verifyCode_not_verified h] at hverified
    cases hverified
  · cases h
    cases hverified

theorem engineDraft_verified {message : AgentMessage} {result : EngineResult}
    (h : (engineDraft message result).status = .verified) :
    result.verified = true := by
  rw [engineDraft] at h
  split_ifs at h with hunverifiable hheuristic hverified
  exact hverified

/-- A verified engine verdict comes from a finance run that finished in time. -/
theorem runDraft_verified {message : AgentMessage} {pool : PoolOutcome}
    (h : (interceptor.runDraft message
      (interceptor.runEngine message pool)).status = .verified) :
    pool = .finishes ∧ ∃ result,
      interceptor.routeToEngine message = .ok result ∧
        result.verified = true := by
  cases pool with
  | noSlot => cases h
  | submitRaises exc => cases h
  | finishes =>
      rw [runEngine] at h
      cases hroute : interceptor.routeToEngine message with
      | error exc =>
          rw [hroute] at h
          cases h
      | ok result =>
          rw [hroute] at h
          exact ⟨rfl, result, rfl, engineDraft_verified h⟩
  | budgetExpires ended =>
      -- A timeout is an error, and so is a run that ended by raising.
      cases ended with
      | false => cases h
      | true =>
          cases hroute : interceptor.routeToEngine message with
          | ok result =>
              simp only [runEngine, hroute] at h
              cases h
          | error exc =>
              simp only [runEngine, hroute] at h
              cases h

/-- What stands behind a VERIFIED status. -/
structure Admitted (interceptor : Interceptor Token Tree) (tb : TrustBoundary)
    (message : AgentMessage) (clock : TrustBoundary.Clock) (pool : PoolOutcome) :
    Prop where
  measured : ∃ size, interceptor.payloadSize message.payload = .ok size ∧
    size ≤ interceptor.config.maxPayloadSizeBytes
  trusted : (tb.evaluate message.senderAgentId message.receiverAgentId
    (some message.payloadType.value) clock).1.1 = true
  financial : message.payloadType = .financialTransaction
  enabled : interceptor.config.enableFinancialVerification = true
  finished : pool = .finishes
  verified : ∃ result, verifyFinancial message.payload = .ok result ∧
    result.verified = true

theorem draft_verified {tb : TrustBoundary} {message : AgentMessage}
    {clock : TrustBoundary.Clock} {pool : PoolOutcome} {draft : Draft}
    (h : (interceptor.draft tb message clock pool).1 = .ok draft)
    (hstatus : draft.status = .verified) :
    Admitted interceptor tb message clock pool := by
  rw [Interceptor.draft] at h
  split at h
  next exc _ =>
    split_ifs at h with hunmeasurable
    cases h
    cases hstatus
  next size hsize =>
    split_ifs at h with hlarge
    · cases h
      cases hstatus
    · split at h
      next =>
        cases h
        cases hstatus
      next hallowed =>
        cases h
        obtain ⟨hpool, result, hroute, hverified⟩ := runDraft_verified hstatus
        obtain ⟨hfinancial, henabled, hresult⟩ :=
          routeToEngine_verified hroute hverified
        exact ⟨⟨size, hsize, not_lt.mp hlarge⟩, by rw [hallowed], hfinancial,
          henabled, hpool, result, hresult, hverified⟩

/-- The token of a verdict is the signer's, for this verdict and message. -/
structure Attested (interceptor : Interceptor Token Tree) (message : AgentMessage)
    (traceId : PyStr) (verdict : VerificationVerdict Token) (token : Token) :
    Prop where
  carried : verdict.attestationJwt = some token
  signed : ∃ hash, payloadHash interceptor.lib (.dict message.payload) = .ok hash ∧
    interceptor.signVerdict
      { traceId := traceId
        verdictStatus := verdict.status.value
        engine := verdict.engineUsed
        senderId := message.senderAgentId
        receiverId := message.receiverAgentId
        payloadHash := hash } = .ok token
  nonempty : interceptor.isEmptyToken token = false

theorem buildVerdict_ok {message : AgentMessage} {traceId : PyStr} {draft : Draft}
    {verdict : VerificationVerdict Token}
    (h : interceptor.buildVerdict message traceId draft = .ok verdict) :
    verdict.status = draft.status ∧ verdict.auditTraceId = traceId ∧
      if verdict.status = .unverifiable then verdict.attestationJwt = none
      else ∃ token, Attested interceptor message traceId verdict token := by
  rw [buildVerdict] at h
  by_cases hunverifiable : draft.status = .unverifiable
  · rw [if_pos hunverifiable] at h
    cases h
    exact ⟨rfl, rfl, by rw [if_pos hunverifiable]⟩
  · rw [if_neg hunverifiable] at h
    split at h
    next => cases h
    next token hattest =>
      obtain ⟨hnonempty, h⟩ := guard_eq_ok.mp h
      cases h
      obtain ⟨hash, hhash, hsign⟩ := bind_eq_ok.mp hattest
      refine ⟨rfl, rfl, ?_⟩
      rw [if_neg hunverifiable]
      exact ⟨token, rfl, ⟨hash, hhash, hsign⟩, by simpa using hnonempty⟩

/-- A verdict that is returned is drafted and built in the same call. -/
theorem intercept_ok {tb : TrustBoundary} {message : AgentMessage}
    {traceId : PyStr} {clock : TrustBoundary.Clock} {pool : PoolOutcome}
    {verdict : VerificationVerdict Token}
    (h : (interceptor.intercept tb message traceId clock pool).1 = .ok verdict) :
    ∃ draft, (interceptor.draft tb message clock pool).1 = .ok draft ∧
      interceptor.buildVerdict message traceId draft = .ok verdict := by
  rw [intercept] at h
  split at h
  next => cases h
  next draft after hdraft => exact ⟨draft, by rw [hdraft], h⟩

end Interceptor

/-- A VERIFIED verdict means a measured, trusted, enabled and finished financial
verification; every other verdict that is not UNVERIFIABLE carries the signer's
token for it as well, and only the UNVERIFIABLE ones carry none. -/
theorem intercept_admits_verified_only (interceptor : Interceptor Token Tree)
    (tb : TrustBoundary) (message : AgentMessage) (traceId : PyStr)
    (clock : TrustBoundary.Clock) (pool : PoolOutcome)
    (verdict : VerificationVerdict Token)
    (hreturn : (interceptor.intercept tb message traceId clock pool).1 =
      .ok verdict) :
    (verdict.admissible = true ↔ verdict.status = .verified) ∧
      (verdict.status = .verified →
        interceptor.Admitted tb message clock pool) ∧
      verdict.auditTraceId = traceId ∧
      (verdict.attestationJwt.isSome = true ↔ verdict.status ≠ .unverifiable) ∧
      (verdict.status ≠ .unverifiable →
        ∃ token, interceptor.Attested message traceId verdict token) := by
  obtain ⟨draft, hdraft, hbuild⟩ := Interceptor.intercept_ok hreturn
  obtain ⟨hstatus, htrace, hattested⟩ := Interceptor.buildVerdict_ok hbuild
  refine ⟨by simp [VerificationVerdict.admissible, VerdictStatus.admissible],
    fun hverified => Interceptor.draft_verified hdraft (hstatus ▸ hverified),
    htrace, ?_, fun hsigned => by rwa [if_neg hsigned] at hattested⟩
  by_cases hunverifiable : verdict.status = .unverifiable
  · rw [if_pos hunverifiable] at hattested
    simp [hattested, hunverifiable]
  · rw [if_neg hunverifiable] at hattested
    obtain ⟨token, hcarried, _⟩ := hattested
    simp [hcarried, hunverifiable]

namespace Reference

def interceptor : Interceptor SignedToken Unit where
  lib := lib
  unicode := ⟨fun _ => false, fun _ => true, id, id⟩
  code := ⟨fun _ => .ok (), fun _ => [], fun _ => []⟩
  signVerdict request := (QwedA2A.signVerdict lib env service request 0 0).1
  isEmptyToken _ := false

def invoiceMessage : AgentMessage where
  senderAgentId := py "a"
  receiverAgentId := py "b"
  payloadType := .financialTransaction
  payload := invoice
  stringKeys := by simp [invoice, financialPayload]

end Reference

/-- An invoice that adds up is admitted, with all that stands behind it. -/
theorem intercept_admits_verified_only_invoice :
    ∃ verdict,
      (Reference.interceptor.intercept { defaultAllow := true }
        Reference.invoiceMessage (py "t") ⟨0, 0, 0⟩ .finishes).1 = .ok verdict ∧
      verdict.status = .verified ∧
      Reference.interceptor.Admitted { defaultAllow := true }
        Reference.invoiceMessage ⟨0, 0, 0⟩ .finishes ∧
      ∃ token, Reference.interceptor.Attested Reference.invoiceMessage (py "t")
        verdict token := by
  have hstatus : (Reference.interceptor.intercept { defaultAllow := true }
      Reference.invoiceMessage (py "t") ⟨0, 0, 0⟩ .finishes).1.toOption.map
        (fun verdict => verdict.status) = some .verified := by decide +kernel
  cases hverdict : (Reference.interceptor.intercept { defaultAllow := true }
      Reference.invoiceMessage (py "t") ⟨0, 0, 0⟩ .finishes).1 with
  | error exc =>
      rw [hverdict] at hstatus
      cases hstatus
  | ok verdict =>
      rw [hverdict] at hstatus
      have hverified : verdict.status = .verified := Option.some.inj hstatus
      obtain ⟨_, hadmitted, _, _, hattested⟩ := intercept_admits_verified_only
        Reference.interceptor { defaultAllow := true } Reference.invoiceMessage
        (py "t") ⟨0, 0, 0⟩ .finishes verdict hverdict
      exact ⟨verdict, rfl, hverified, hadmitted hverified,
        hattested (by rw [hverified]; decide)⟩

end QwedA2A
