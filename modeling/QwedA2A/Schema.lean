/-
The protocol schema: payload categories, verification outcomes with their wire
values, messages, verdicts and the interceptor's configuration.
-/
import QwedA2A.PyDecimal

namespace QwedA2A

open DecimalRounding

/-- Supported agent payload categories. -/
inductive PayloadType where
  | financialTransaction
  | logicAssertion
  | codeExecution
  | dataQuery
  | general
deriving DecidableEq

def PayloadType.value : PayloadType → PyStr
  | .financialTransaction => py "financial_transaction"
  | .logicAssertion => py "logic_assertion"
  | .codeExecution => py "code_execution"
  | .dataQuery => py "data_query"
  | .general => py "general"

/-- Possible outcomes of interceptor verification. -/
inductive VerdictStatus where
  | verified
  | blocked
  | unverifiable
  | heuristicPass
  | error
deriving DecidableEq

/-- Pre-#13 wire value of `verified`, accepted on input only. -/
def legacyForwardedValue : PyStr := py "forwarded"

namespace VerdictStatus

def value : VerdictStatus → PyStr
  | .verified => py "verified"
  | .blocked => py "blocked"
  | .unverifiable => py "unverifiable"
  | .heuristicPass => py "heuristic_pass"
  | .error => py "error"

/-- The member a wire value denotes, the legacy value included. -/
def ofValue (text : PyStr) : Option VerdictStatus :=
  if text = py "verified" then some .verified
  else if text = py "blocked" then some .blocked
  else if text = py "unverifiable" then some .unverifiable
  else if text = py "heuristic_pass" then some .heuristicPass
  else if text = py "error" then some .error
  else if text = legacyForwardedValue then some .verified
  else none

def admissible (status : VerdictStatus) : Bool := status = .verified

@[simp] theorem ofValue_value (status : VerdictStatus) :
    ofValue status.value = some status := by
  cases status <;> decide

/-- A wire value is read as a member by name or by the legacy alias only. -/
theorem ofValue_eq_some {text : PyStr} {status : VerdictStatus}
    (h : ofValue text = some status) :
    text = status.value ∨ (text = legacyForwardedValue ∧ status = .verified) := by
  rw [ofValue] at h
  split_ifs at h with hverified hblocked hunverifiable hheuristic herror hlegacy
  · cases h; exact Or.inl hverified
  · cases h; exact Or.inl hblocked
  · cases h; exact Or.inl hunverifiable
  · cases h; exact Or.inl hheuristic
  · cases h; exact Or.inl herror
  · cases h; exact Or.inr ⟨hlegacy, rfl⟩

end VerdictStatus

/-- Typed contract for an agent-to-agent message payload. -/
structure AgentMessage where
  senderAgentId : PyStr
  receiverAgentId : PyStr
  payloadType : PayloadType := .general
  payload : PyDict
  stringKeys : ∀ entry ∈ payload, ∃ key, entry.1 = .str key := by simp

/-- Runtime configuration of the interceptor, within its field bounds.  The
timeout is kept with the text it prints as. -/
structure InterceptorConfig where
  enableFinancialVerification : Bool := true
  enableLogicVerification : Bool := true
  enableCodeVerification : Bool := true
  maxPayloadSizeBytes : ℕ := 1048576
  engineTimeoutSeconds : ℚ := 5
  engineTimeoutText : PyStr := py "5.0"
  sizeLower : 1024 ≤ maxPayloadSizeBytes := by decide
  sizeUpper : maxPayloadSizeBytes ≤ 10485760 := by decide
  timeoutPositive : 0 < engineTimeoutSeconds := by norm_num
  timeoutUpper : engineTimeoutSeconds ≤ 60 := by norm_num

/-- The dict an engine returns, with the keys only some engines set.  Totals are
kept before their conversion to float. -/
structure EngineResult where
  verified : Bool
  engine : PyStr
  status : Option PyStr := none
  reason : PyStr
  computedTotal : Option Decimal := none
  claimedTotal : Option Decimal := none
  contradictions : Option (List PyStr) := none
  threats : Option (List PyStr) := none
  analysis : Option PyStr := none
deriving DecidableEq

/-- Structured result of an interception. -/
structure VerificationVerdict (Token : Type) where
  status : VerdictStatus
  reason : Option PyStr
  auditTraceId : PyStr
  attestationJwt : Option Token
  engineUsed : PyStr
  details : Option EngineResult

def VerificationVerdict.admissible {Token : Type}
    (verdict : VerificationVerdict Token) : Bool :=
  verdict.status.admissible

end QwedA2A
