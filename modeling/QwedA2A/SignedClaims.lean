/-
The two sides of an attestation agree on its claims: what `sign_verdict` writes
is what the verifier's typed models read.
-/
import QwedA2A.TokenLaws

namespace QwedA2A

variable {Token R : Type}

/-- The texts of a request that end up in a token. -/
structure SignRequest.Unicode (request : SignRequest) : Prop where
  traceId : isUnicode request.traceId = true
  engine : isUnicode request.engine = true
  senderId : isUnicode request.senderId = true
  receiverId : isUnicode request.receiverId = true
  payloadHash : isUnicode request.payloadHash = true
  sessionId : ∀ sessionId, request.sessionId = some sessionId →
    isUnicode sessionId = true

/-- The top-level claims of a minted token, as the verifier types them. -/
def signedEnvelope (issuerId : PyStr) (validitySeconds : ℤ)
    (request : SignRequest) (now : ℤ) : AttestationEnvelope where
  iss := issuerId
  sub := request.payloadHash
  jti := request.traceId
  iat := .rat now
  exp := .rat ((now + validitySeconds : ℤ) : ℚ)

section Claims

variable (lib : CryptoLib Token) (env : Env) (issuerId : PyStr)
  (validitySeconds : ℤ) (request : SignRequest) (verdict : VerdictStatus)
  (now : ℤ)

theorem signPayload_envelope :
    parseEnvelope lib
        (signPayload env issuerId validitySeconds request verdict now) =
      some (signedEnvelope issuerId validitySeconds request now) := by
  simp +decide [parseEnvelope, signPayload, numericDate, signedEnvelope]

theorem signPayload_claims :
    parseClaims (claimBlock
        (signPayload env issuerId validitySeconds request verdict now)) =
      some
        { version := py "1.0"
          verdict
          engine := request.engine
          sender := request.senderId
          receiver := request.receiverId
          deploymentId := env.deploymentId
          sessionId := request.sessionId } := by
  cases hsession : request.sessionId with
  | none =>
      simp +decide [claimBlock, signPayload, parseClaims, parseSessionId,
        hsession]
  | some sessionId =>
      simp +decide [claimBlock, signPayload, parseClaims, parseSessionId,
        hsession]

/-- The claims are admissible exactly for a deterministic pass. -/
theorem signPayload_admissible :
    isAdmissible (.dict
        (signPayload env issuerId validitySeconds request verdict now)) =
      verdict.admissible := by
  simp +decide [isAdmissible, signPayload]

theorem signPayload_current {time : ℚ} (hstarted : (now : ℚ) ≤ time)
    (hlive : time < (now + validitySeconds : ℤ)) :
    CurrentClaims
      (signPayload env issuerId validitySeconds request verdict now) time where
  iss := ⟨issuerId, by simp +decide [signPayload]⟩
  sub := ⟨request.payloadHash, by simp +decide [signPayload]⟩
  jti := ⟨request.traceId, by simp +decide [signPayload]⟩
  iat := ⟨now, by simp +decide [signPayload], hstarted⟩
  exp := ⟨now + validitySeconds, by simp +decide [signPayload], hlive⟩

variable {issuerId request}

theorem signPayload_plain {intOk : ℤ → Bool} (hissuer : isUnicode issuerId = true)
    (hdeployment : isUnicode env.deploymentId = true)
    (hrequest : request.Unicode) (hiat : intOk now = true)
    (hexp : intOk (now + validitySeconds) = true) :
    (PyVal.dict
      (signPayload env issuerId validitySeconds request verdict now)).isPlain
        intOk = true := by
  have hverdict : isUnicode verdict.value = true := by
    cases verdict <;> decide
  obtain ⟨htrace, hengine, hsender, hreceiver, hhash, hsession⟩ := hrequest
  cases hid : request.sessionId with
  | none =>
      simp +decide [signPayload, PyVal.isPlain, plainEntries, strKey, hissuer,
        hdeployment, htrace, hengine, hsender, hreceiver, hhash, hiat, hexp,
        hverdict, hid]
  | some sessionId =>
      simp +decide [signPayload, PyVal.isPlain, plainEntries, strKey, hissuer,
        hdeployment, htrace, hengine, hsender, hreceiver, hhash, hiat, hexp,
        hverdict, hid, hsession sessionId hid]

end Claims

/-- The header's label is text as long as the label is. -/
theorem signHeader_plain {intOk : ℤ → Bool} {pair : KeyPair}
    (hkid : isUnicode pair.keyId = true) :
    (PyVal.dict (signHeader pair)).isPlain intOk = true := by
  simp +decide [signHeader, PyVal.isPlain, plainEntries, strKey, hkid]

theorem signHeader_kid (pair : KeyPair) :
    dictGet (signHeader pair) (py "kid") = some (.str pair.keyId) := by
  simp +decide [signHeader]

theorem isUnicode_append {s t : PyStr} :
    isUnicode (s ++ t) = (isUnicode s && isUnicode t) := by
  simp [isUnicode]

theorem isUnicode_take {s : PyStr} (n : ℕ) (h : isUnicode s = true) :
    isUnicode (s.take n) = true := by
  rw [isUnicode, List.all_eq_true] at h ⊢
  exact fun c hc => h c (List.mem_of_mem_take hc)

/-- A key label is text as long as the issuer ID is. -/
theorem keyLabel_unicode {lib : CryptoLib Token} (hdigests : lib.TextDigests)
    {issuerId : PyStr} (hissuer : isUnicode issuerId = true) (key : PublicKey) :
    isUnicode (keyLabel lib issuerId key) = true := by
  have hmark : isUnicode (py "#key-") = true := by decide
  simp only [keyLabel, isUnicode_append, hissuer, hmark,
    isUnicode_take 16 (hdigests.fingerprint key), Bool.and_self]

/-- The token decodes to the given header and claims under one public key and
under no other. -/
def DecodesUnder (lib : CryptoLib Token) (token : Token) (now : ℚ) (pem : PyStr)
    (entries payload : PyDict) : Prop :=
  ∀ other, IsPublicPem lib other →
    lib.decodeComplete token other now =
      if other = pem then .ok ⟨.dict entries, .dict payload⟩
      else .error .invalidToken

/-- What was signed decodes under the signer's key and under no other. -/
theorem decodesUnder_of_signed {lib : CryptoLib Token}
    (hsignatures : lib.IdealSignatures) {key : PrivateKey}
    (hloadable : lib.Loadable key) {payload header : PyDict} {token : Token}
    {now : ℚ} (htoken : lib.encode payload key.pem header = .ok token)
    (hpayload : (PyVal.dict payload).isPlain (fun _ => true) = true)
    (hheader : (PyVal.dict header).isPlain (fun _ => true) = true)
    (hcurrent : CurrentClaims payload now) :
    ∃ entries, dictGet entries (py "kid") = dictGet header (py "kid") ∧
      DecodesUnder lib token now (lib.publicPem key.publicKey) entries
        payload := by
  obtain ⟨entries, hdecode, hkid⟩ := hsignatures.verifies key payload header
    token now hloadable htoken hpayload hheader hcurrent
  refine ⟨entries, hkid, ?_⟩
  rintro pem ⟨other, hon, rfl⟩
  split
  next hsame => rw [hsame, hdecode]
  next hne =>
    exact hsignatures.foreign key payload header token other now hloadable
      htoken hon hne

namespace DecodesUnder

variable {lib : CryptoLib Token} {token : Token} {now : ℚ} {pem : PyStr}
  {entries payload : PyDict}

theorem ok (h : DecodesUnder lib token now pem entries payload) {other : PyStr}
    (hpublic : IsPublicPem lib other) {decoded : DecodedToken}
    (hdecode : lib.decodeComplete token other now = .ok decoded) :
    other = pem ∧ decoded = ⟨.dict entries, .dict payload⟩ := by
  rw [h other hpublic] at hdecode
  split at hdecode
  next hsame => exact ⟨hsame, (Except.ok.inj hdecode).symm⟩
  next => cases hdecode

/-- A candidate with another key does not match; one with the signer's key is
bound to its issuer and label. -/
theorem attempt (h : DecodesUnder lib token now pem entries payload)
    {candidate : Candidate} (hpublic : IsPublicPem lib candidate.pem) :
    attemptCandidate lib token now candidate =
      .ok (if candidate.pem = pem then
        bindCandidate lib candidate ⟨.dict entries, .dict payload⟩
      else .noMatch) := by
  rw [attemptCandidate, tryCandidateKey, h _ hpublic]
  by_cases hsame : candidate.pem = pem
  · simp [hsame, pure, Except.pure]
  · simp [hsame, pure, Except.pure]

/-- Whatever candidate verifies has the signer's key and the signed claims. -/
theorem verified (h : DecodesUnder lib token now pem entries payload)
    {candidate : Candidate} (hpublic : IsPublicPem lib candidate.pem)
    {rawClaims : PyDict} {envelope : AttestationEnvelope}
    (hverified : attemptCandidate lib token now candidate =
      .ok (.verified rawClaims envelope)) :
    candidate.pem = pem ∧ payload = rawClaims ∧
      parseEnvelope lib payload = some envelope ∧
      envelope.iss = candidate.issuer ∧
      kidMatches (.dict entries) candidate.kid = true := by
  obtain ⟨decoded, hby⟩ := attemptCandidate_verified_iff.mp hverified
  obtain ⟨hsame, rfl⟩ := h.ok hpublic hby.signature
  have hraw : payload = rawClaims := PyVal.dict.inj hby.payload
  exact ⟨hsame, hraw, hraw ▸ hby.typed, hby.issuer, hby.kid⟩

end DecodesUnder

namespace Reference

def env : Env := { deploymentId := py "prod", deploymentIdSet := by decide }

def service : A2ACryptoService JtiRegistry :=
  .withDefaultRegistry (py "did:a") 300 (some (py "key one"))

def otherService : A2ACryptoService JtiRegistry :=
  .withDefaultRegistry (py "did:b") 300 (some (py "key two"))

def jwk (coordinate kid : PyStr) : PyVal :=
  .dict
    [(.str (py "kty"), .str (py "EC")), (.str (py "crv"), .str (py "P-256")),
      (.str (py "x"), .str coordinate), (.str (py "y"), .str coordinate),
      (.str (py "kid"), .str kid)]

def issuerEntry (deploymentId : PyStr) (key : PyVal) : PyVal :=
  .dict
    [(.str (py "deployment_id"), .str deploymentId),
      (.str (py "jwks"), .dict [(.str (py "keys"), .list [key])])]

def peerIssuers : PyDict :=
  [(.str (py "did:b"), issuerEntry (py "peer") (jwk (py "Ag") (py "b1")))]

/-- A request with the given trace ID for the payload None, with the legacy
status. -/
def signRequest (traceId : PyStr) : SignRequest where
  traceId := traceId
  verdictStatus := py "forwarded"
  engine := py "finance_guard"
  senderId := py "a"
  receiverId := py "b"
  payloadHash := py "sha256:null"

theorem signRequest_unicode {traceId : PyStr} (h : isUnicode traceId = true) :
    (signRequest traceId).Unicode where
  traceId := h
  engine := (by decide : isUnicode (py "finance_guard") = true)
  senderId := (by decide : isUnicode (py "a") = true)
  receiverId := (by decide : isUnicode (py "b") = true)
  payloadHash := (by decide : isUnicode (py "sha256:null") = true)
  sessionId _ hsome := by cases hsome

def context : AttestationContext := ⟨py "a", py "b", .pyNone, none⟩

def keyPair : KeyPair :=
  ⟨py "did:a", py "did:a#key-k", ⟨py "key one", ⟨1, 1⟩⟩⟩

def minted (env : Env) (pair : KeyPair) (validitySeconds : ℤ)
    (traceId : PyStr) : SignedToken :=
  ⟨signHeader pair,
    signPayload env pair.issuerId validitySeconds (signRequest traceId)
      .verified (truncate 0),
    pair.key.publicKey⟩

def token (traceId : PyStr) : SignedToken := minted env keyPair 300 traceId

end Reference

end QwedA2A
