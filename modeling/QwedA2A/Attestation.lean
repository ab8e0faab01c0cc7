/-
Verdict attestations: signing, and verification against a request context.  A
verification is split where the replay registry is asked, so that calls may be
interleaved there.
-/
import QwedA2A.TrustedIssuers
import QwedA2A.Schema

namespace QwedA2A

variable {Token R : Type}

/-- Expected context for attestation verification. -/
structure AttestationContext where
  senderAgentId : PyStr
  receiverAgentId : PyStr
  payload : PyVal
  sessionId : Option PyStr := none

/-- Strictly typed top-level claims. -/
structure AttestationEnvelope where
  iss : PyStr
  sub : PyStr
  jti : PyStr
  iat : PyNum
  exp : PyNum
deriving DecidableEq

/-- The typed `qwed_a2a` claim block. -/
structure QwedA2AClaims where
  version : PyStr
  verdict : VerdictStatus
  engine : PyStr
  sender : PyStr
  receiver : PyStr
  deploymentId : PyStr
  sessionId : Option PyStr
deriving DecidableEq

/-- A date claim under the lax `int | float` type. -/
def numericDate (lib : CryptoLib Token) : PyVal → Option PyNum
  | .int n => some (.rat n)
  | .float value _ => some value
  | other => lib.coerceNumericDate other

def parseEnvelope (lib : CryptoLib Token) (claims : PyDict) :
    Option AttestationEnvelope :=
  match dictGet claims (py "iss"), dictGet claims (py "sub"),
      dictGet claims (py "jti"),
      (dictGet claims (py "iat")).bind (numericDate lib),
      (dictGet claims (py "exp")).bind (numericDate lib) with
  | some (.str iss), some (.str sub), some (.str jti), some iat, some exp =>
      some { iss, sub, jti, iat, exp }
  | _, _, _, _, _ => none

/-- `session_id: str | None = None`. -/
def parseSessionId (value : Option PyVal) : Option (Option PyStr) :=
  match value with
  | none | some .pyNone => some none
  | some (.str s) => some (some s)
  | some _ => none

/-- Validation of the `qwed_a2a` block. -/
def parseClaims (block : PyVal) : Option QwedA2AClaims :=
  match block with
  | .dict entries =>
      match dictGet entries (py "version"), dictGet entries (py "verdict"),
          dictGet entries (py "engine"), dictGet entries (py "sender"),
          dictGet entries (py "receiver"),
          dictGet entries (py "deployment_id"),
          parseSessionId (dictGet entries (py "session_id")) with
      | some (.str version), some (.str verdict), some (.str engine),
          some (.str sender), some (.str receiver), some (.str deploymentId),
          some sessionId =>
          (VerdictStatus.ofValue verdict).map fun verdict =>
            { version, verdict, engine, sender, receiver, deploymentId
              sessionId }
      | _, _, _, _, _, _, _ => none
  | _ => none

/-- Canonical JSON serialization and SHA-256 hash of a payload. -/
def payloadHash (lib : CryptoLib Token) (payload : PyVal) : Except PyExc PyStr := do
  let content ← PyJson.encode PyJson.canonicalStyle lib.jsonDepth payload
  pure (py "sha256:" ++ lib.sha256Hex content)

/-- `int(q)`: truncation toward zero. -/
def truncate (q : ℚ) : ℤ := if 0 ≤ q then ⌊q⌋ else ⌈q⌉

/-- What a signing call was asked to attest. -/
structure SignRequest where
  traceId : PyStr
  verdictStatus : PyStr
  engine : PyStr
  senderId : PyStr
  receiverId : PyStr
  payloadHash : PyStr
  sessionId : Option PyStr := none

def signPayload (env : Env) (issuerId : PyStr) (validitySeconds : ℤ)
    (request : SignRequest) (verdict : VerdictStatus) (now : ℤ) : PyDict :=
  [(.str (py "iss"), .str issuerId),
    (.str (py "sub"), .str request.payloadHash),
    (.str (py "iat"), .int now),
    (.str (py "exp"), .int (now + validitySeconds)),
    (.str (py "jti"), .str request.traceId),
    (.str (py "qwed_a2a"), .dict
      [(.str (py "version"), .str (py "1.0")),
        (.str (py "verdict"), .str verdict.value),
        (.str (py "engine"), .str request.engine),
        (.str (py "sender"), .str request.senderId),
        (.str (py "receiver"), .str request.receiverId),
        (.str (py "deployment_id"), .str env.deploymentId),
        (.str (py "session_id"),
          match request.sessionId with
          | some sessionId => .str sessionId
          | none => .pyNone)])]

def signHeader (pair : KeyPair) : PyDict :=
  [(.str (py "alg"), .str (py "ES256")),
    (.str (py "typ"), .str (py "qwed-a2a-attestation+jwt")),
    (.str (py "kid"), .str pair.keyId)]

def unknownVerdictExc : PyExc :=
  ⟨.valueError, py "unknown verdict_status: not a VerdictStatus value"⟩

def duplicateTraceExc : PyExc :=
  ⟨.valueError, py "duplicate trace_id: each attestation needs a unique jti"⟩

/-- Reserve a trace until the later of the validity window and the token's own
expiry. -/
def reserveTrace (issued : JtiRegistry) (traceId : PyStr) (exp : ℤ)
    (reservedAt : ℚ) : Bool × JtiRegistry :=
  issued.checkAndRegister traceId reservedAt (some (.rat exp))

/-- Create a signed attestation for a verdict.  The clock is read once for the
token and once more by the issuance record; the record is returned. -/
def signVerdict (lib : CryptoLib Token) (env : Env)
    (service : A2ACryptoService R) (request : SignRequest)
    (signedAt reservedAt : ℚ) : Except PyExc Token × JtiRegistry :=
  match VerdictStatus.ofValue request.verdictStatus with
  | none => (.error unknownVerdictExc, service.issuedRegistry)
  | some verdict =>
      match ensureKeyPair lib env service with
      | .error exc => (.error exc, service.issuedRegistry)
      | .ok pair =>
          let now := truncate signedAt
          let exp := now + service.validitySeconds
          match reserveTrace service.issuedRegistry request.traceId exp
              reservedAt with
          | (false, issued) => (.error duplicateTraceExc, issued)
          | (true, issued) =>
              match lib.encode
                  (signPayload env service.issuerId service.validitySeconds
                    request verdict now)
                  pair.key.pem (signHeader pair) with
              | .error exc => (.error exc, issued.release request.traceId)
              | .ok token => (.ok token, issued)

/-- Why a candidate key did not verify the token. -/
inductive KeyFailure where
  | expired
  | invalid

/-- Attempt verification against a single candidate key. -/
def tryCandidateKey (lib : CryptoLib Token) (token : Token) (pem : PyStr)
    (now : ℚ) : Except PyExc (Except KeyFailure DecodedToken) :=
  match lib.decodeComplete token pem now with
  | .ok complete => .ok (.ok complete)
  | .error .expiredSignature => .ok (.error .expired)
  | .error .invalidToken => .ok (.error .invalid)
  | .error .typeError => .ok (.error .invalid)
  | .error .overflowError => .ok (.error .invalid)
  | .error (.uncaught exc) => .error exc

/-- A token without a kid fits every key; a kid has to be the key's label. -/
def kidMatches (header : PyVal) (expectedKid : Option PyStr) : Bool :=
  match header with
  | .dict entries =>
      match dictGet entries (py "kid") with
      | none | some .pyNone => true
      | some (.str kid) => decide (some kid = expectedKid)
      | some _ => false
  | _ => true

/-- Outcome of one candidate. -/
inductive Attempt where
  | verified (rawClaims : PyDict) (envelope : AttestationEnvelope)
  | kidMismatch
  | expired
  | noMatch

/-- The verified claims bound to the key's owner and label. -/
def bindCandidate (lib : CryptoLib Token) (candidate : Candidate)
    (complete : DecodedToken) : Attempt :=
  match complete.payload with
  | .dict rawClaims =>
      match parseEnvelope lib rawClaims with
      | none => .noMatch
      | some envelope =>
          if envelope.iss ≠ candidate.issuer then .noMatch
          else if kidMatches complete.header candidate.kid then
            .verified rawClaims envelope
          else .kidMismatch
  | _ => .noMatch

def attemptCandidate (lib : CryptoLib Token) (token : Token) (now : ℚ)
    (candidate : Candidate) : Except PyExc Attempt := do
  match ← tryCandidateKey lib token candidate.pem now with
  | .error .expired => pure .expired
  | .error .invalid => pure .noMatch
  | .ok complete => pure (bindCandidate lib candidate complete)

/-- What the candidate loop ends with. -/
inductive Selection where
  | verified (candidate : Candidate) (rawClaims : PyDict)
      (envelope : AttestationEnvelope)
  | rejected (reason : PyStr)

def selectionReason (expiredSeen kidMismatchSeen : Bool) : PyStr :=
  if expiredSeen then py "Attestation has expired"
  else if kidMismatchSeen then py "Key id mismatch for trusted issuer"
  else py "Invalid token: no trusted key verified the signature"

/-- The candidate loop: the first candidate that verifies decides. -/
def selectCandidate (lib : CryptoLib Token) (token : Token) (now : ℚ)
    (expiredSeen kidMismatchSeen : Bool) :
    List Candidate → Except PyExc Selection
  | [] => .ok (.rejected (selectionReason expiredSeen kidMismatchSeen))
  | candidate :: rest => do
      match ← attemptCandidate lib token now candidate with
      | .expired => selectCandidate lib token now true kidMismatchSeen rest
      | .kidMismatch => selectCandidate lib token now expiredSeen true rest
      | .noMatch =>
          selectCandidate lib token now expiredSeen kidMismatchSeen rest
      | .verified rawClaims envelope =>
          pure (.verified candidate rawClaims envelope)

/-- The replay slot of a token: peer tokens are namespaced by their issuer. -/
def registryKey (issuerId iss jti : PyStr) : PyStr :=
  if iss ≠ issuerId then iss ++ [0] ++ jti else jti

/-- A token that passed every check but the replay check. -/
structure PendingReplay where
  rawClaims : PyDict
  envelope : AttestationEnvelope
  key : PyStr

/-- `raw_claims.get("qwed_a2a", {})`. -/
def claimBlock (rawClaims : PyDict) : PyVal :=
  (dictGet rawClaims (py "qwed_a2a")).getD (.dict [])

def sessionText (sessionId : Option PyStr) : PyStr :=
  sessionId.getD (py "None")

/-- Steps 4 to 6 and the emptiness check of step 7; the refusal reason, or what
the replay check needs. -/
def checkBeforeReplay (lib : CryptoLib Token) (issuerId : PyStr)
    (context : AttestationContext) (expectedDeployment : PyStr)
    (rawClaims : PyDict) (envelope : AttestationEnvelope) :
    Except PyExc (Except PyStr PendingReplay) :=
  match parseClaims (claimBlock rawClaims) with
  | none => .ok (.error (py "Invalid qwed_a2a claims structure"))
  | some claims =>
      if claims.deploymentId ≠ expectedDeployment then
        .ok (.error (py "Deployment context mismatch: token not issued by this deployment"))
      else if claims.sender ≠ context.senderAgentId then
        .ok (.error (py "Attestation sender mismatch: expected=" ++
          context.senderAgentId ++ py ", got=" ++ claims.sender))
      else if claims.receiver ≠ context.receiverAgentId then
        .ok (.error (py "Attestation receiver mismatch: expected=" ++
          context.receiverAgentId ++ py ", got=" ++ claims.receiver))
      else do
        let expectedHash ← payloadHash lib context.payload
        if envelope.sub ≠ expectedHash then
          pure (.error (py "Attestation payload hash mismatch — detached attestation rejected"))
        else if context.sessionId.isSome && claims.sessionId ≠ context.sessionId then
          pure (.error (py "Attestation session mismatch: expected=" ++
            sessionText context.sessionId ++ py ", got=" ++
            sessionText claims.sessionId))
        else if envelope.jti = [] then
          pure (.error (py "Missing jti claim"))
        else
          pure (.ok
            { rawClaims, envelope
              key := registryKey issuerId envelope.iss envelope.jti })

/-- `(is_valid, decoded_claims, error_message)`. -/
structure VerifyResult where
  valid : Bool
  claims : Option PyDict
  error : Option PyStr

def VerifyResult.refused (reason : PyStr) : VerifyResult :=
  ⟨false, none, some reason⟩

/-- Everything a verification does before it asks the replay registry. -/
def beginVerification (lib : CryptoLib Token) (env : Env)
    (service : A2ACryptoService R) (token : Token)
    (context : AttestationContext) (trustedIssuers : PyVal) (decodeNow : ℚ) :
    Except PyExc (Except PyStr PendingReplay) :=
  if !lib.hasCrypto then
    .ok (.error (py "Cryptography backend unavailable"))
  else do
    let candidates ← candidateKeys lib env service trustedIssuers
    if candidates.isEmpty then
      pure (.error (py "No verification keys available (no local key, no trusted issuers)"))
    else
      match ← selectCandidate lib token decodeNow false false candidates with
      | .rejected reason => pure (.error reason)
      | .verified candidate rawClaims envelope =>
          checkBeforeReplay lib service.issuerId context candidate.deployment
            rawClaims envelope

/-- The replay check, last, so out-of-context tokens never reach the
registry. -/
def finishVerification [ReplayRegistry R] (registry : R)
    (pending : PendingReplay) (registerNow : ℚ) : VerifyResult × R :=
  let answer := ReplayRegistry.checkAndRegister registry pending.key registerNow
    (some pending.envelope.exp)
  if answer.1 then (⟨true, some pending.rawClaims, none⟩, answer.2)
  else (.refused (py "Replay detected: jti already seen"), answer.2)

/-- Verify a verdict attestation against the current request context; the
consumption registry is returned. -/
def verifyAttestation [ReplayRegistry R] (lib : CryptoLib Token) (env : Env)
    (service : A2ACryptoService R) (token : Token)
    (context : AttestationContext) (trustedIssuers : PyVal)
    (decodeNow registerNow : ℚ) : Except PyExc (VerifyResult × R) := do
  match ← beginVerification lib env service token context trustedIssuers
      decodeNow with
  | .error reason => pure (.refused reason, service.jtiRegistry)
  | .ok pending =>
      pure (finishVerification service.jtiRegistry pending registerNow)

/-- Whether verified attestation claims permit acting on the message. -/
def isAdmissible (claims : PyVal) : Bool :=
  match claims with
  | .dict entries =>
      match dictGet entries (py "qwed_a2a") with
      | some (.dict block) =>
          match dictGet block (py "verdict") with
          | some (.str verdict) =>
              match VerdictStatus.ofValue verdict with
              | some status => status.admissible
              | none => false
          | _ => false
      | _ => false
  | _ => false

end QwedA2A
