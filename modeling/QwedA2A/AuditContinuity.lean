/-
Signer and verifier agree.  A token that `sign_verdict` returns is accepted once
before its expiry by a verifier with the same key and by a peer that registers
the signer's JWK, provided its trace ID is not empty.
-/
import QwedA2A.IssuerBinding

namespace QwedA2A

variable {Token R : Type}

theorem signVerdict_ok {lib : CryptoLib Token} {env : Env}
    {service : A2ACryptoService R} {request : SignRequest}
    {signedAt reservedAt : ℚ} {token : Token}
    (h : (signVerdict lib env service request signedAt reservedAt).1 =
      .ok token) :
    ∃ verdict pair, VerdictStatus.ofValue request.verdictStatus = some verdict ∧
      ensureKeyPair lib env service = .ok pair ∧
      lib.encode
        (signPayload env service.issuerId service.validitySeconds request
          verdict (truncate signedAt))
        pair.key.pem (signHeader pair) = .ok token := by
  rw [signVerdict] at h
  split at h
  next => cases h
  next verdict hverdict =>
    split at h
    next => cases h
    next pair hpair =>
      simp only at h
      split at h
      next => cases h
      next =>
        split at h
        next => cases h
        next found hencode =>
          cases h
          exact ⟨verdict, pair, hverdict, hpair, hencode⟩

/-- The call returns the claims of an accepted token, admissible exactly for a
verified verdict, and no later presentation before the expiry is accepted. -/
def AcceptedOnce [ReplayRegistry R] (lib : CryptoLib Token) (env : Env)
    (service : A2ACryptoService R) (token : Token) (context : AttestationContext)
    (trustedIssuers : PyVal) (decodeNow registerNow : ℚ)
    (verdict : VerdictStatus) (exp : ℤ) : Prop :=
  ∃ claims after,
    verifyAttestation lib env service token context trustedIssuers decodeNow
        registerNow = .ok (⟨true, some claims, none⟩, after) ∧
    (isAdmissible (.dict claims) = true ↔ verdict = .verified) ∧
    ∀ decodeNow' registerNow' result after', registerNow' < (exp : ℚ) →
      verifyAttestation lib env { service with jtiRegistry := after } token
          context trustedIssuers decodeNow' registerNow' =
        .ok (result, after') → result.valid = false

/-- A verifier with the signer's issuer ID, key and deployment. -/
structure OwnVerifier (lib : CryptoLib Token) (env : Env)
    (signer : A2ACryptoService R) (pair : KeyPair) (verifierEnv : Env)
    (verifier : A2ACryptoService R) : Prop where
  issuerId : verifier.issuerId = signer.issuerId
  deployment : verifierEnv.deploymentId = env.deploymentId
  keyed : verifier.WellKeyed lib
  key : ∃ own, ensureKeyPair lib verifierEnv verifier = .ok own ∧
    own.key = pair.key

/-- A verifier with another issuer ID whose configuration registers the signer's
exported JWK with the signer's deployment.  The signer is the first identity it
has for that key, so its own key, if any, is another one. -/
structure PeerVerifier (lib : CryptoLib Token) (env : Env)
    (signer : A2ACryptoService R) (pair : KeyPair) (verifierEnv : Env)
    (verifier : A2ACryptoService R) (raw : PyDict) : Prop where
  issuerId : verifier.issuerId ≠ signer.issuerId
  keyed : verifier.WellKeyed lib
  distinctKeys : ∀ item ∈ raw, ∀ other ∈ raw, item.1 = other.1 → item = other
  registered : ∃ entry, (.str signer.issuerId, .dict entry) ∈ raw ∧
    dictGet entry (py "deployment_id") = some (.str env.deploymentId) ∧
    ∃ jwk ∈ entryKeys entry, publicKeyJwk pair = .ok jwk
  first : ∀ first, firstIdentity
    (configuredKeys lib verifierEnv verifier (collectIssuers lib raw))
    (lib.publicPem pair.key.publicKey) = some first →
      first.issuer = signer.issuerId
  fingerprints : DistinctFingerprints lib
    (configuredKeys lib verifierEnv verifier (collectIssuers lib raw))

def matchingContext (request : SignRequest) (payload : PyVal) :
    AttestationContext where
  senderAgentId := request.senderId
  receiverAgentId := request.receiverId
  payload := payload
  sessionId := request.sessionId

/-- Every verifier that can be expected to accept the token does, once. -/
def AuditContinuous (R : Type) [ReplayRegistry R] (lib : CryptoLib Token)
    (env : Env) (signer : A2ACryptoService R) (pair : KeyPair)
    (request : SignRequest) (payload : PyVal) (verdict : VerdictStatus)
    (token : Token) (issuedAt : ℤ) : Prop :=
  (∀ (verifierEnv : Env) (verifier : A2ACryptoService R) (trustedIssuers : PyVal)
    (issuers : Issuers) (decodeNow registerNow : ℚ),
    OwnVerifier lib env signer pair verifierEnv verifier →
    loadTrustedIssuers lib verifierEnv trustedIssuers = .ok issuers →
    (issuedAt : ℚ) ≤ decodeNow →
    decodeNow < (issuedAt + signer.validitySeconds : ℤ) →
    (∀ expiry, ReplayRegistry.held verifier.jtiRegistry request.traceId =
      some expiry → ¬ Live expiry registerNow) →
    AcceptedOnce lib verifierEnv verifier token (matchingContext request payload)
      trustedIssuers decodeNow registerNow verdict
      (issuedAt + signer.validitySeconds)) ∧
  ∀ (verifierEnv : Env) (verifier : A2ACryptoService R) (trustedIssuers : PyVal)
    (raw : PyDict) (decodeNow registerNow : ℚ),
    PeerVerifier lib env signer pair verifierEnv verifier raw →
    loadTrustedIssuers lib verifierEnv trustedIssuers =
      .ok (collectIssuers lib raw) →
    (issuedAt : ℚ) ≤ decodeNow →
    decodeNow < (issuedAt + signer.validitySeconds : ℤ) →
    (∀ expiry, ReplayRegistry.held verifier.jtiRegistry
      (signer.issuerId ++ [0] ++ request.traceId) = some expiry →
        ¬ Live expiry registerNow) →
    AcceptedOnce lib verifierEnv verifier token (matchingContext request payload)
      trustedIssuers decodeNow registerNow verdict
      (issuedAt + signer.validitySeconds)

/-- A token that was just minted: the signing call's inputs and its outcome. -/
structure Minted (lib : CryptoLib Token) (env : Env)
    (signer : A2ACryptoService R) (pair : KeyPair) (request : SignRequest)
    (payload : PyVal) (verdict : VerdictStatus) (token : Token) (issuedAt : ℤ) :
    Prop where
  keyed : signer.WellKeyed lib
  loaded : ensureKeyPair lib env signer = .ok pair
  issuer : isNonemptyStr (.str signer.issuerId) = true
  deployment : isNonemptyStr (.str env.deploymentId) = true
  hash : payloadHash lib payload = .ok request.payloadHash
  encoded : lib.encode
    (signPayload env signer.issuerId signer.validitySeconds request verdict
      issuedAt) pair.key.pem (signHeader pair) = .ok token
  unicodeIssuer : isUnicode signer.issuerId = true
  unicodeDeployment : isUnicode env.deploymentId = true
  unicode : request.Unicode

/-- Once the checks before the registry pass, a free slot decides, and the slot
taken refuses every later presentation. -/
theorem acceptedOnce_of_pending [ReplayRegistry R] [LawfulReplayRegistry R]
    {lib : CryptoLib Token} {env : Env}
    {service : A2ACryptoService R} {token : Token} {context : AttestationContext}
    {trustedIssuers : PyVal} {decodeNow registerNow : ℚ}
    {pending : PendingReplay} {verdict : VerdictStatus} {exp : ℤ}
    (hjwt : lib.LawfulJwt)
    (hbegin : beginVerification lib env service token context trustedIssuers
      decodeNow = .ok (.ok pending))
    (hexp : pending.envelope.exp = .rat exp)
    (hadmissible : isAdmissible (.dict pending.rawClaims) = true ↔
      verdict = .verified)
    (hfree : ∀ expiry, ReplayRegistry.held service.jtiRegistry pending.key =
      some expiry → ¬ Live expiry registerNow) :
    AcceptedOnce lib env service token context trustedIssuers decodeNow
      registerNow verdict exp := by
  have haccept := (LawfulReplayRegistry.accept_iff service.jtiRegistry pending.key
    registerNow (some pending.envelope.exp)).mpr hfree
  obtain ⟨slot, hslot, hcovers⟩ := LawfulReplayRegistry.registered
    service.jtiRegistry pending.key registerNow _ haccept
  refine ⟨pending.rawClaims, (ReplayRegistry.checkAndRegister service.jtiRegistry
    pending.key registerNow (some pending.envelope.exp)).2,
    verifyAttestation_ok_iff.mpr (Or.inr ⟨pending, hbegin, ?_⟩), hadmissible, ?_⟩
  · rw [finishVerification, if_pos haccept]
  · intro decodeNow' registerNow' result after' hbefore hverify
    rcases verifyAttestation_ok_iff.mp hverify with
      ⟨reason, _, rfl, _⟩ | ⟨pending', hbegin', hfinish⟩
    · rfl
    · obtain ⟨_, henvelope⟩ := hjwt.pending_eq hbegin hbegin'
      have hkey : pending.key = pending'.key := by
        rw [beginVerification_key hbegin, beginVerification_key hbegin',
          henvelope]
      have hlive : Live slot registerNow' := by
        refine hcovers registerNow' (Or.inr ⟨_, rfl, ?_⟩)
        rw [hexp]
        exact PyNum.rat_lt_rat.mpr hbefore
      have hresult : result = (finishVerification
          (ReplayRegistry.checkAndRegister service.jtiRegistry pending.key
            registerNow (some pending.envelope.exp)).2 pending' registerNow').1 :=
        congrArg Prod.fst hfinish
      rw [hresult, Bool.eq_false_iff, ne_eq, finishVerification_valid_iff]
      intro hnone
      exact hnone slot (hkey ▸ hslot) hlive

/-- The claims of a minted token pass the checks before the registry unless the
trace ID is empty. -/
theorem checkBeforeReplay_minted {lib : CryptoLib Token} {env : Env}
    {signer : A2ACryptoService R} {pair : KeyPair} {request : SignRequest}
    {payload : PyVal} {verdict : VerdictStatus} {token : Token} {issuedAt : ℤ}
    (hminted : Minted lib env signer pair request payload verdict token issuedAt)
    (htrace : request.traceId ≠ []) (issuerId : PyStr) :
    checkBeforeReplay lib issuerId (matchingContext request payload)
        env.deploymentId
        (signPayload env signer.issuerId signer.validitySeconds request verdict
          issuedAt)
        (signedEnvelope signer.issuerId signer.validitySeconds request issuedAt) =
      .ok (.ok ⟨signPayload env signer.issuerId signer.validitySeconds request
          verdict issuedAt,
        signedEnvelope signer.issuerId signer.validitySeconds request issuedAt,
        registryKey issuerId signer.issuerId request.traceId⟩) :=
  checkBeforeReplay_ok_iff.mpr
    ⟨⟨_, signPayload_claims env signer.issuerId signer.validitySeconds request
      verdict issuedAt, rfl, rfl, rfl, hminted.hash, fun _ h => h⟩, htrace, rfl⟩

namespace Minted

variable {lib : CryptoLib Token} {env : Env} {signer : A2ACryptoService R}
  {pair : KeyPair} {request : SignRequest} {payload : PyVal}
  {verdict : VerdictStatus} {token : Token} {issuedAt : ℤ}

theorem loadable
    (h : Minted lib env signer pair request payload verdict token issuedAt) :
    lib.Loadable pair.key := by
  obtain ⟨pem, hown⟩ := ensureKeyPair_own h.keyed h.loaded
  exact ⟨pem, (loadKeyPair_ok hown).2.2⟩

theorem keyId
    (h : Minted lib env signer pair request payload verdict token issuedAt) :
    pair.keyId = keyLabel lib signer.issuerId pair.key.publicKey := by
  obtain ⟨pem, hown⟩ := ensureKeyPair_own h.keyed h.loaded
  exact (loadKeyPair_ok hown).2.1

/-- While it is current, the token decodes under the signer's public key only,
with the signer's label. -/
theorem decodesUnder (hsignatures : lib.IdealSignatures)
    (hdigests : lib.TextDigests)
    (h : Minted lib env signer pair request payload verdict token issuedAt)
    {now : ℚ} (hstarted : (issuedAt : ℚ) ≤ now)
    (hlive : now < (issuedAt + signer.validitySeconds : ℤ)) :
    ∃ entries, dictGet entries (py "kid") = some (.str pair.keyId) ∧
      DecodesUnder lib token now (lib.publicPem pair.key.publicKey) entries
        (signPayload env signer.issuerId signer.validitySeconds request verdict
          issuedAt) := by
  have hkid : isUnicode pair.keyId = true := by
    rw [h.keyId]
    exact keyLabel_unicode hdigests h.unicodeIssuer _
  obtain ⟨entries, hheader, hdecode⟩ := decodesUnder_of_signed hsignatures
    h.loadable h.encoded
    (signPayload_plain env signer.validitySeconds verdict issuedAt
      h.unicodeIssuer h.unicodeDeployment h.unicode rfl rfl)
    (signHeader_plain hkid)
    (signPayload_current env signer.issuerId signer.validitySeconds request
      verdict issuedAt hstarted hlive)
  exact ⟨entries, hheader.trans (signHeader_kid pair), hdecode⟩

/-- A verifier with the signer's identity accepts at its own key, the first it
tries. -/
theorem accepted_by_own [ReplayRegistry R] [LawfulReplayRegistry R]
    (hjwt : lib.LawfulJwt)
    (hsignatures : lib.IdealSignatures) (hcurve : lib.LawfulCurve)
    (hdigests : lib.TextDigests)
    (h : Minted lib env signer pair request payload verdict token issuedAt)
    (htrace : request.traceId ≠ []) {verifierEnv : Env}
    {verifier : A2ACryptoService R} {trustedIssuers : PyVal} {issuers : Issuers}
    {decodeNow registerNow : ℚ}
    (hverifier : OwnVerifier lib env signer pair verifierEnv verifier)
    (hload : loadTrustedIssuers lib verifierEnv trustedIssuers = .ok issuers)
    (hstarted : (issuedAt : ℚ) ≤ decodeNow)
    (hlive : decodeNow < (issuedAt + signer.validitySeconds : ℤ))
    (hfree : ∀ expiry, ReplayRegistry.held verifier.jtiRegistry request.traceId =
      some expiry → ¬ Live expiry registerNow) :
    AcceptedOnce lib verifierEnv verifier token (matchingContext request payload)
      trustedIssuers decodeNow registerNow verdict
      (issuedAt + signer.validitySeconds) := by
  obtain ⟨own, hown, hkey⟩ := hverifier.key
  obtain ⟨pem, hownPair⟩ := ensureKeyPair_own hverifier.keyed hown
  obtain ⟨_, hownLabel, hownLoaded⟩ := loadKeyPair_ok hownPair
  obtain ⟨entries, hkid, hdecode⟩ :=
    h.decodesUnder hsignatures hdigests hstarted hlive
  have hlabel : own.keyId = pair.keyId := by
    rw [hownLabel, h.keyId, hkey, hverifier.issuerId]
  have hpublic : IsPublicPem lib (localCandidate lib verifierEnv verifier own).pem :=
    ⟨_, hcurve.loaded pem own.key hownLoaded, rfl⟩
  have hattempt : attemptCandidate lib token decodeNow
      (localCandidate lib verifierEnv verifier own) =
        .ok (.verified (signPayload env signer.issuerId signer.validitySeconds
          request verdict issuedAt)
          (signedEnvelope signer.issuerId signer.validitySeconds request
            issuedAt)) := by
    rw [hdecode.attempt hpublic, if_pos (by rw [localCandidate, hkey])]
    simp [bindCandidate, signPayload_envelope, signedEnvelope, localCandidate,
      hverifier.issuerId, kidMatches, hkid, hlabel]
  have hbegin := beginVerification_of_local (matchingContext request payload)
    hown hload hattempt
  rw [hverifier.deployment, checkBeforeReplay_minted h htrace] at hbegin
  refine acceptedOnce_of_pending hjwt hbegin rfl ?_ ?_
  · rw [signPayload_admissible]
    simp [VerdictStatus.admissible]
  · simpa [registryKey, hverifier.issuerId] using hfree

def signerCandidate (lib : CryptoLib Token) (env : Env)
    (signer : A2ACryptoService R) (pair : KeyPair) : Candidate where
  issuer := signer.issuerId
  pem := lib.publicPem pair.key.publicKey
  deployment := env.deploymentId
  kid := some pair.keyId

/-- The signer's exported key is a candidate of the peer, under the signer's
identity and label. -/
theorem registered_candidate
    (h : Minted lib env signer pair request payload verdict token issuedAt)
    (hcurve : lib.LawfulCurve) {verifierEnv : Env} {verifier : A2ACryptoService R}
    {raw : PyDict}
    (hpeer : PeerVerifier lib env signer pair verifierEnv verifier raw) :
    signerCandidate lib env signer pair ∈
      ownedKeys lib verifierEnv verifier (collectIssuers lib raw) := by
  obtain ⟨entry, hentry, hdeployment, jwk, hjwk, hexport⟩ := hpeer.registered
  obtain ⟨pem, hown⟩ := ensureKeyPair_own h.keyed h.loaded
  obtain ⟨exported, hexported, himport, hlabel⟩ := jwkToPublicPem_publicKeyJwk
    (ensureKeyPair_hasCrypto h.loaded) hcurve
    (hcurve.loaded pem pair.key (loadKeyPair_ok hown).2.2)
  rw [hexport] at hexported
  cases hexported
  have hkey : (⟨lib.publicPem pair.key.publicKey, some pair.keyId⟩ : IssuerKey) ∈
      usableKeys lib (entryKeys entry) :=
    List.mem_filterMap.mpr ⟨.dict exported, hjwk, by
      simp [himport, kidLabel, hlabel]⟩
  have husable : isNonemptyStr (.str signer.issuerId) = true ∧
      isNonemptyStr (.str env.deploymentId) = true ∧
      usableKeys lib (entryKeys entry) ≠ [] :=
    ⟨h.issuer, h.deployment, List.ne_nil_of_mem hkey⟩
  have hnormal : normalizeIssuerEntry lib (.str signer.issuerId) (.dict entry) =
      some (signer.issuerId,
        { deploymentId := env.deploymentId
          keys := usableKeys lib (entryKeys entry)
          deploymentUsable := husable.2.1
          keysUsable := husable.2.2 }) := by
    simp [normalizeIssuerEntry, hdeployment, husable]
  have hregistered := mem_collectIssuers_of_distinct hpeer.distinctKeys hentry
    hnormal
  have hmem : signerCandidate lib env signer pair ∈
      configuredKeys lib verifierEnv verifier (collectIssuers lib raw) :=
    mem_configuredKeys_iff.mpr (Or.inr ⟨_, hregistered,
      List.mem_map.mpr ⟨_, hkey, rfl⟩⟩)
  refine List.mem_filter.mpr ⟨hmem, decide_eq_true ?_⟩
  have hsome := firstOwner_isSome_of_mem lib hmem
  rw [firstOwner_eq_firstIdentity hpeer.fingerprints hmem] at hsome ⊢
  obtain ⟨first, hfirst⟩ := Option.isSome_iff_exists.mp
    (Option.isSome_map ▸ hsome)
  rw [hfirst, Option.map_some, hpeer.first first hfirst]
  rfl

/-- A peer that registers the signer's JWK accepts under the signer's entry. -/
theorem accepted_by_peer [ReplayRegistry R] [LawfulReplayRegistry R]
    (hjwt : lib.LawfulJwt) (hsignatures : lib.IdealSignatures)
    (hcurve : lib.LawfulCurve) (hdigests : lib.TextDigests)
    (h : Minted lib env signer pair request payload verdict token issuedAt)
    (htrace : request.traceId ≠ []) {verifierEnv : Env}
    {verifier : A2ACryptoService R} {trustedIssuers : PyVal} {raw : PyDict}
    {decodeNow registerNow : ℚ}
    (hpeer : PeerVerifier lib env signer pair verifierEnv verifier raw)
    (hload : loadTrustedIssuers lib verifierEnv trustedIssuers =
      .ok (collectIssuers lib raw))
    (hstarted : (issuedAt : ℚ) ≤ decodeNow)
    (hlive : decodeNow < (issuedAt + signer.validitySeconds : ℤ))
    (hfree : ∀ expiry, ReplayRegistry.held verifier.jtiRegistry
      (signer.issuerId ++ [0] ++ request.traceId) = some expiry →
        ¬ Live expiry registerNow) :
    AcceptedOnce lib verifierEnv verifier token (matchingContext request payload)
      trustedIssuers decodeNow registerNow verdict
      (issuedAt + signer.validitySeconds) := by
  obtain ⟨entries, hkid, hdecode⟩ :=
    h.decodesUnder hsignatures hdigests hstarted hlive
  have hregistered := h.registered_candidate hcurve hpeer
  obtain ⟨candidate, hmem, hissuer, _, hbegin⟩ :=
    hdecode.begins (matchingContext request payload)
      (ensureKeyPair_hasCrypto h.loaded) hcurve hpeer.keyed hload
      (signPayload_envelope lib env signer.issuerId signer.validitySeconds request
        verdict issuedAt) hregistered rfl rfl
      (by simp [kidMatches, hkid, signerCandidate])
  -- The deciding candidate has the signer's issuer ID, so it is not the local
  -- key and shares its entry with the exported one.
  have hdeployment : candidate.deployment = env.deploymentId := by
    rcases mem_configuredKeys_iff.mp (List.mem_filter.mp hmem).1 with
      ⟨own, hown, rfl⟩ | ⟨issuer, hissuerMem, hcandidate⟩
    · exact absurd hissuer.symm hpeer.issuerId
    · rcases mem_configuredKeys_iff.mp (List.mem_filter.mp hregistered).1 with
        ⟨own, hown, heq⟩ | ⟨issuer', hissuerMem', hcandidate'⟩
      · exact absurd (congrArg Candidate.issuer heq).symm hpeer.issuerId
      · exact issuerCandidates_deployment (collectIssuers_nodup lib raw)
          hissuerMem hissuerMem' hcandidate hcandidate' hissuer.symm
  rw [hdeployment, checkBeforeReplay_minted h htrace] at hbegin
  refine acceptedOnce_of_pending hjwt hbegin rfl ?_ ?_
  · rw [signPayload_admissible]
    simp [VerdictStatus.admissible]
  · simpa [registryKey, hpeer.issuerId.symm] using hfree

end Minted

/-- A token with an empty trace ID is refused by the signer itself. -/
theorem not_auditContinuous_of_empty [ReplayRegistry R] [LawfulReplayRegistry R]
    {lib : CryptoLib Token} {env : Env} {signer : A2ACryptoService R}
    {pair : KeyPair} {request : SignRequest} {payload : PyVal}
    {verdict : VerdictStatus} {token : Token} {issuedAt : ℤ} (empty : R)
    (hempty : ∀ key, ReplayRegistry.held empty key = none)
    (hsignatures : lib.IdealSignatures) (hcurve : lib.LawfulCurve)
    (hdigests : lib.TextDigests)
    (hminted : Minted lib env signer pair request payload verdict token issuedAt)
    (hvalidity : 0 < signer.validitySeconds) (htrace : request.traceId = []) :
    ¬ AuditContinuous R lib env signer pair request payload verdict token
      issuedAt := by
  intro hcontinuous
  let verifier : A2ACryptoService R := { signer with jtiRegistry := empty }
  have hpair : ensureKeyPair lib env verifier = .ok pair := hminted.loaded
  have hload : loadTrustedIssuers lib env (.dict []) = .ok [] := rfl
  have hlive : (issuedAt : ℚ) < (issuedAt + signer.validitySeconds : ℤ) := by
    exact_mod_cast lt_add_of_pos_right issuedAt hvalidity
  obtain ⟨claims, after, hverify, _⟩ := hcontinuous.1 env verifier (.dict []) []
    issuedAt issuedAt
    ⟨rfl, rfl, hminted.keyed, pair, hpair, rfl⟩ hload le_rfl hlive
    (fun expiry h => by
      rw [show verifier.jtiRegistry = empty from rfl, hempty] at h
      cases h)
  rcases verifyAttestation_ok_iff.mp hverify with
    ⟨reason, _, hrefused, _⟩ | ⟨pending, hbegin, _⟩
  · cases hrefused
  · obtain ⟨_, candidate, decoded, _, hreach⟩ := beginVerification_ok hbegin
    obtain ⟨entries, _, hdecode⟩ :=
      hminted.decodesUnder hsignatures hdigests le_rfl hlive
    have hpublic := configuredKeys_isPublicPem hcurve
      (show verifier.WellKeyed lib from hminted.keyed) hreach.loaded
      (List.mem_filter.mp hreach.owned).1
    obtain ⟨_, rfl⟩ := hdecode.ok hpublic hreach.verified.signature
    have hraw := PyVal.dict.inj hreach.verified.payload
    have htyped := hreach.verified.typed
    rw [← hraw, signPayload_envelope] at htyped
    have hjti := hreach.jti
    rw [← Option.some.inj htyped] at hjti
    exact hjti htrace

/-- A token returned by `sign_verdict` is accepted, once, before its expiry, by
every verifier with the signer's identity and every peer that registers its JWK,
with claims that are admissible exactly for VERIFIED, if and only if its trace ID
is not empty. -/
theorem sign_verdict_accepted_iff [ReplayRegistry R] [LawfulReplayRegistry R]
    (lib : CryptoLib Token) (env : Env) (signer : A2ACryptoService R)
    (request : SignRequest) (payload : PyVal) (signedAt reservedAt : ℚ)
    (token : Token) (empty : R)
    (hempty : ∀ key, ReplayRegistry.held empty key = none)
    (hjwt : lib.LawfulJwt) (hsignatures : lib.IdealSignatures)
    (hcurve : lib.LawfulCurve) (hdigests : lib.TextDigests)
    (hkeyed : signer.WellKeyed lib)
    (hissuer : isNonemptyStr (.str signer.issuerId) = true)
    (hdeployment : isNonemptyStr (.str env.deploymentId) = true)
    (hvalidity : 0 < signer.validitySeconds)
    (hunicode : isUnicode signer.issuerId = true ∧
      isUnicode env.deploymentId = true ∧ request.Unicode)
    (hhash : payloadHash lib payload = .ok request.payloadHash)
    (hsign : (signVerdict lib env signer request signedAt reservedAt).1 =
      .ok token) :
    (∃ verdict pair,
      VerdictStatus.ofValue request.verdictStatus = some verdict ∧
      ensureKeyPair lib env signer = .ok pair ∧
      AuditContinuous R lib env signer pair request payload verdict token
        (truncate signedAt)) ↔
      request.traceId ≠ [] := by
  obtain ⟨verdict, pair, hverdict, hpair, hencode⟩ := signVerdict_ok hsign
  have hminted : Minted lib env signer pair request payload verdict token
      (truncate signedAt) :=
    ⟨hkeyed, hpair, hissuer, hdeployment, hhash, hencode, hunicode.1,
      hunicode.2.1, hunicode.2.2⟩
  constructor
  · rintro ⟨verdict', pair', hverdict', hpair', hcontinuous⟩ htrace
    rw [hverdict] at hverdict'
    rw [hpair] at hpair'
    cases hverdict'
    cases hpair'
    exact not_auditContinuous_of_empty empty hempty hsignatures hcurve hdigests
      hminted hvalidity htrace hcontinuous
  · intro htrace
    refine ⟨verdict, pair, hverdict, hpair, ?_, ?_⟩
    · intro verifierEnv verifier trustedIssuers issuers decodeNow registerNow
        hverifier hload hstarted hlive hfree
      exact hminted.accepted_by_own hjwt hsignatures hcurve hdigests htrace
        hverifier hload hstarted hlive hfree
    · intro verifierEnv verifier trustedIssuers raw decodeNow registerNow hpeer
        hload hstarted hlive hfree
      exact hminted.accepted_by_peer hjwt hsignatures hcurve hdigests htrace
        hpeer hload hstarted hlive hfree

/-- A token is minted for an empty trace ID, and no verifier accepts it. -/
theorem sign_verdict_empty_trace :
    (signVerdict Reference.lib Reference.env Reference.service
        (Reference.signRequest []) 0 0).1 = .ok (Reference.token []) ∧
      ¬ AuditContinuous JtiRegistry Reference.lib Reference.env
        Reference.service Reference.keyPair (Reference.signRequest []) .pyNone
        .verified (Reference.token []) (truncate 0) := by
  refine ⟨rfl, not_auditContinuous_of_empty ({} : JtiRegistry)
    (fun _ => rfl) Reference.idealSignatures Reference.lawfulCurve
    Reference.textDigests ?_ (by decide) rfl⟩
  exact ⟨fun _ h => (by cases h), rfl, by decide, by decide, rfl, rfl, by decide,
    by decide, Reference.signRequest_unicode (by decide)⟩

namespace Reference

/-- The exported key of the service, registered under its deployment. -/
def registeredService : PyDict :=
  match publicKeyJwk keyPair with
  | .ok exported => [(.str (py "did:a"), issuerEntry (py "prod") exported)]
  | .error _ => []

theorem ownVerifier : OwnVerifier lib env service keyPair env service :=
  ⟨rfl, rfl, fun _ h => (by cases h), keyPair, rfl, rfl⟩

theorem configuredKeys_otherService :
    configuredKeys lib env otherService (collectIssuers lib registeredService) =
      [⟨py "did:b", py "PEM 2", py "prod", some (py "did:b#key-kk")⟩,
        ⟨py "did:a", py "PEM 1", py "prod", some (py "did:a#key-k")⟩] := by
  decide +kernel

theorem peerVerifier :
    PeerVerifier lib env service keyPair env otherService registeredService where
  issuerId := by decide
  keyed _ h := by cases h
  distinctKeys item hitem other hother _ := by
    rw [List.mem_singleton.mp hitem, List.mem_singleton.mp hother]
  registered :=
    ⟨_, List.mem_singleton_self _, rfl, _, List.mem_singleton_self _, rfl⟩
  first first hfirst := by
    rw [configuredKeys_otherService] at hfirst
    cases hfirst
    rfl
  fingerprints := by
    rw [configuredKeys_otherService, DistinctFingerprints]
    decide +kernel

end Reference

/-- A token for the trace "t", signed under the legacy status, is accepted by
the signer and by a peer. -/
theorem sign_verdict_accepted_iff_trace :
    AcceptedOnce Reference.lib Reference.env Reference.service
        (Reference.token (py "t"))
        (matchingContext (Reference.signRequest (py "t")) .pyNone) (.dict [])
        1 1 .verified 300 ∧
      AcceptedOnce Reference.lib Reference.env Reference.otherService
        (Reference.token (py "t"))
        (matchingContext (Reference.signRequest (py "t")) .pyNone)
        (.dict Reference.registeredService) 1 1 .verified 300 := by
  obtain ⟨verdict, pair, hverdict, hpair, hown, hpeer⟩ :=
    (sign_verdict_accepted_iff Reference.lib Reference.env Reference.service
      (Reference.signRequest (py "t")) .pyNone 0 0 (Reference.token (py "t"))
      ({} : JtiRegistry) (fun _ => rfl) Reference.lawfulJwt
      Reference.idealSignatures Reference.lawfulCurve Reference.textDigests
      (fun _ h => by cases h) (by decide) (by decide) (by decide)
      ⟨by decide, by decide, Reference.signRequest_unicode (by decide)⟩ rfl
      rfl).mpr (by decide : py "t" ≠ [])
  cases hverdict
  cases hpair
  have hstarted : ((truncate 0 : ℤ) : ℚ) ≤ 1 := by norm_num [truncate]
  have hlive : (1 : ℚ) < (truncate 0 + Reference.service.validitySeconds : ℤ) := by
    norm_num [truncate, Reference.service, A2ACryptoService.withDefaultRegistry]
  exact ⟨hown _ _ (.dict []) [] 1 1 Reference.ownVerifier rfl hstarted hlive
      (fun _ h => (by cases h)),
    hpeer _ _ _ _ 1 1 Reference.peerVerifier rfl hstarted hlive
      (fun _ h => (by cases h))⟩

end QwedA2A
