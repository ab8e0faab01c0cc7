/-
What each stage of a verification establishes.  A call that reaches the replay
registry has a candidate key behind it and claims that fit the context; the
registry then changes by one slot or not at all.
-/
import QwedA2A.Attestation

namespace QwedA2A

variable {Token R : Type}

/-- The claims fit the request context and the expected deployment. -/
structure ClaimsFit (lib : CryptoLib Token) (context : AttestationContext)
    (deployment : PyStr) (envelope : AttestationEnvelope)
    (claims : QwedA2AClaims) : Prop where
  deployment : claims.deploymentId = deployment
  sender : claims.sender = context.senderAgentId
  receiver : claims.receiver = context.receiverAgentId
  payload : payloadHash lib context.payload = .ok envelope.sub
  session : ∀ sessionId, context.sessionId = some sessionId →
    claims.sessionId = some sessionId

/-- A candidate key verifies the token and is bound to its issuer and kid. -/
structure VerifiedBy (lib : CryptoLib Token) (token : Token) (now : ℚ)
    (candidate : Candidate) (decoded : DecodedToken) (rawClaims : PyDict)
    (envelope : AttestationEnvelope) : Prop where
  signature : lib.decodeComplete token candidate.pem now = .ok decoded
  payload : decoded.payload = .dict rawClaims
  typed : parseEnvelope lib rawClaims = some envelope
  issuer : envelope.iss = candidate.issuer
  kid : kidMatches decoded.header candidate.kid = true

theorem bindCandidate_verified_iff {lib : CryptoLib Token}
    {candidate : Candidate} {complete : DecodedToken} {rawClaims : PyDict}
    {envelope : AttestationEnvelope} :
    bindCandidate lib candidate complete = .verified rawClaims envelope ↔
      complete.payload = .dict rawClaims ∧
      parseEnvelope lib rawClaims = some envelope ∧
      envelope.iss = candidate.issuer ∧
      kidMatches complete.header candidate.kid = true := by
  constructor
  · intro h
    rw [bindCandidate] at h
    split at h
    next found hpayload =>
      split at h
      next => cases h
      next typed henvelope =>
        split_ifs at h with hissuer hkid
        cases h
        exact ⟨hpayload, henvelope, not_not.mp hissuer, hkid⟩
    next => cases h
  · rintro ⟨hpayload, henvelope, hissuer, hkid⟩
    simp [bindCandidate, hpayload, henvelope, hissuer, hkid]

theorem attemptCandidate_verified_iff {lib : CryptoLib Token} {token : Token}
    {now : ℚ} {candidate : Candidate} {rawClaims : PyDict}
    {envelope : AttestationEnvelope} :
    attemptCandidate lib token now candidate =
        .ok (.verified rawClaims envelope) ↔
      ∃ decoded, VerifiedBy lib token now candidate decoded rawClaims
        envelope := by
  rw [attemptCandidate, tryCandidateKey]
  constructor
  · intro h
    cases hdecode : lib.decodeComplete token candidate.pem now with
    | error failure => cases failure <;> rw [hdecode] at h <;> cases h
    | ok complete =>
        rw [hdecode] at h
        obtain ⟨hpayload, henvelope, hissuer, hkid⟩ :=
          bindCandidate_verified_iff.mp (Except.ok.inj h)
        exact ⟨complete, hdecode, hpayload, henvelope, hissuer, hkid⟩
  · rintro ⟨decoded, hdecode, hpayload, henvelope, hissuer, hkid⟩
    have hbind := bindCandidate_verified_iff.mpr
      ⟨hpayload, henvelope, hissuer, hkid⟩
    simp only [hdecode, ok_bind, hbind]
    rfl

theorem attemptCandidate_error_iff {lib : CryptoLib Token} {token : Token}
    {now : ℚ} {candidate : Candidate} {exc : PyExc} :
    attemptCandidate lib token now candidate = .error exc ↔
      lib.decodeComplete token candidate.pem now = .error (.uncaught exc) := by
  rw [attemptCandidate, tryCandidateKey]
  cases lib.decodeComplete token candidate.pem now with
  | ok complete => simp [pure, Except.pure]
  | error failure => cases failure <;> simp [pure, Except.pure]

/-- The candidate loop only returns candidates that verified. -/
theorem selectCandidate_verified {lib : CryptoLib Token} {token : Token}
    {now : ℚ} {candidates : List Candidate} {expiredSeen kidMismatchSeen : Bool}
    {candidate : Candidate} {rawClaims : PyDict}
    {envelope : AttestationEnvelope}
    (h : selectCandidate lib token now expiredSeen kidMismatchSeen candidates =
      .ok (.verified candidate rawClaims envelope)) :
    candidate ∈ candidates ∧
      attemptCandidate lib token now candidate =
        .ok (.verified rawClaims envelope) := by
  induction candidates generalizing expiredSeen kidMismatchSeen with
  | nil => cases h
  | cons head rest ih =>
      rw [selectCandidate] at h
      obtain ⟨attempt, hattempt, hrest⟩ := bind_eq_ok.mp h
      cases attempt with
      | expired =>
          obtain ⟨hmem, hverified⟩ := ih hrest
          exact ⟨List.mem_cons_of_mem _ hmem, hverified⟩
      | kidMismatch =>
          obtain ⟨hmem, hverified⟩ := ih hrest
          exact ⟨List.mem_cons_of_mem _ hmem, hverified⟩
      | noMatch =>
          obtain ⟨hmem, hverified⟩ := ih hrest
          exact ⟨List.mem_cons_of_mem _ hmem, hverified⟩
      | verified rawClaims' envelope' =>
          cases hrest
          exact ⟨List.mem_cons_self, hattempt⟩

theorem selectCandidate_head {lib : CryptoLib Token} {token : Token}
    {now : ℚ} {head : Candidate} {rest : List Candidate}
    {expiredSeen kidMismatchSeen : Bool} {candidate : Candidate}
    {rawClaims : PyDict} {envelope : AttestationEnvelope}
    (h : selectCandidate lib token now expiredSeen kidMismatchSeen
      (head :: rest) = .ok (.verified candidate rawClaims envelope)) :
    candidate = head ∨ ∀ rawClaims' envelope',
      attemptCandidate lib token now head ≠
        .ok (.verified rawClaims' envelope') := by
  rw [selectCandidate] at h
  obtain ⟨attempt, hattempt, hrest⟩ := bind_eq_ok.mp h
  rw [hattempt]
  cases attempt with
  | expired => exact Or.inr fun _ _ heq => by cases heq
  | kidMismatch => exact Or.inr fun _ _ heq => by cases heq
  | noMatch => exact Or.inr fun _ _ heq => by cases heq
  | verified rawClaims' envelope' =>
      cases hrest
      exact Or.inl rfl

/-- When every attempt returns and one verifies, the loop returns one that
verifies. -/
theorem selectCandidate_of_attempts {lib : CryptoLib Token} {token : Token}
    {now : ℚ} {candidates : List Candidate}
    (hreturn : ∀ candidate ∈ candidates, ∃ attempt,
      attemptCandidate lib token now candidate = .ok attempt)
    (hsome : ∃ candidate ∈ candidates, ∃ rawClaims envelope,
      attemptCandidate lib token now candidate =
        .ok (.verified rawClaims envelope))
    (expiredSeen kidMismatchSeen : Bool) :
    ∃ candidate rawClaims envelope,
      selectCandidate lib token now expiredSeen kidMismatchSeen candidates =
        .ok (.verified candidate rawClaims envelope) := by
  induction candidates generalizing expiredSeen kidMismatchSeen with
  | nil =>
      obtain ⟨candidate, hmem, _⟩ := hsome
      cases hmem
  | cons head rest ih =>
      obtain ⟨attempt, hattempt⟩ := hreturn head List.mem_cons_self
      have hrest := fun candidate hmem =>
        hreturn candidate (List.mem_cons_of_mem head hmem)
      rw [selectCandidate, hattempt, ok_bind]
      have hlater : (∀ rawClaims envelope,
          attempt ≠ .verified rawClaims envelope) →
            ∃ candidate ∈ rest, ∃ rawClaims envelope,
              attemptCandidate lib token now candidate =
                .ok (.verified rawClaims envelope) := by
        intro hother
        obtain ⟨candidate, hmem, rawClaims, envelope, hverified⟩ := hsome
        rcases List.mem_cons.mp hmem with rfl | hmem
        · rw [hattempt] at hverified
          exact absurd (Except.ok.inj hverified) (hother rawClaims envelope)
        · exact ⟨candidate, hmem, rawClaims, envelope, hverified⟩
      cases attempt with
      | expired => exact ih hrest (hlater (by simp)) _ _
      | kidMismatch => exact ih hrest (hlater (by simp)) _ _
      | noMatch => exact ih hrest (hlater (by simp)) _ _
      | verified rawClaims envelope => exact ⟨head, rawClaims, envelope, rfl⟩

/-- Steps 4 to 7 before the registry pass exactly the claims that fit. -/
theorem checkBeforeReplay_ok_iff {lib : CryptoLib Token} {issuerId : PyStr}
    {context : AttestationContext} {deployment : PyStr} {rawClaims : PyDict}
    {envelope : AttestationEnvelope} {pending : PendingReplay} :
    checkBeforeReplay lib issuerId context deployment rawClaims envelope =
        .ok (.ok pending) ↔
      (∃ claims, parseClaims (claimBlock rawClaims) = some claims ∧
        ClaimsFit lib context deployment envelope claims) ∧
      envelope.jti ≠ [] ∧
      pending = ⟨rawClaims, envelope,
        registryKey issuerId envelope.iss envelope.jti⟩ := by
  rw [checkBeforeReplay]
  constructor
  · intro h
    split at h
    · cases h
    next claims hclaims =>
      obtain ⟨hdeployment, h⟩ := refusal_eq_ok.mp h
      obtain ⟨hsender, h⟩ := refusal_eq_ok.mp h
      obtain ⟨hreceiver, h⟩ := refusal_eq_ok.mp h
      obtain ⟨expectedHash, hhash, h⟩ := bind_eq_ok.mp h
      obtain ⟨hsub, h⟩ := refusal_eq_ok.mp h
      obtain ⟨hsession, h⟩ := refusal_eq_ok.mp h
      obtain ⟨hjti, h⟩ := refusal_eq_ok.mp h
      cases h
      refine ⟨⟨claims, hclaims, not_not.mp hdeployment, not_not.mp hsender,
        not_not.mp hreceiver, ?_, ?_⟩, hjti, rfl⟩
      · rw [hhash, not_not.mp hsub]
      · intro sessionId hcontext
        simpa [hcontext] using hsession
  · rintro ⟨⟨claims, hclaims, hfit⟩, hjti, rfl⟩
    have hsession : (context.sessionId.isSome &&
        decide (claims.sessionId ≠ context.sessionId)) = false := by
      cases hcontext : context.sessionId with
      | none => rfl
      | some sessionId => simp [hfit.session sessionId hcontext]
    simp only [hclaims, hfit.deployment, hfit.sender, hfit.receiver,
      hfit.payload, hsession, hjti, ne_eq, not_true_eq_false, if_false, ok_bind,
      Bool.false_eq_true]
    rfl

/-- Every configured key under the identity that owns it first. -/
def ownedKeys (lib : CryptoLib Token) (env : Env)
    (service : A2ACryptoService R) (issuers : Issuers) : List Candidate :=
  (configuredKeys lib env service issuers).filter fun candidate =>
    firstOwner lib (configuredKeys lib env service issuers) candidate.pem =
      some candidate.issuer

theorem candidateKeys_ok_iff {lib : CryptoLib Token} {env : Env}
    {service : A2ACryptoService R} {trustedIssuers : PyVal}
    {candidates : List Candidate} :
    candidateKeys lib env service trustedIssuers = .ok candidates ↔
      ∃ issuers, loadTrustedIssuers lib env trustedIssuers = .ok issuers ∧
        candidates = ownedKeys lib env service issuers := by
  rw [candidateKeys, bind_eq_ok]
  constructor
  · rintro ⟨issuers, hload, h⟩
    refine ⟨issuers, hload, ?_⟩
    rw [← Except.ok.inj h]
    exact candidates_eq_filter lib _
  · rintro ⟨issuers, hload, rfl⟩
    exact ⟨issuers, hload, congrArg Except.ok (candidates_eq_filter lib _)⟩

/-- A verification that reaches the replay registry. -/
structure ReachesRegistry (lib : CryptoLib Token) (env : Env)
    (service : A2ACryptoService R) (token : Token)
    (context : AttestationContext) (trustedIssuers : PyVal) (decodeNow : ℚ)
    (pending : PendingReplay) (issuers : Issuers) (candidate : Candidate)
    (decoded : DecodedToken) (claims : QwedA2AClaims) : Prop where
  loaded : loadTrustedIssuers lib env trustedIssuers = .ok issuers
  owned : candidate ∈ ownedKeys lib env service issuers
  selected : selectCandidate lib token decodeNow false false
    (ownedKeys lib env service issuers) =
      .ok (.verified candidate pending.rawClaims pending.envelope)
  verified : VerifiedBy lib token decodeNow candidate decoded pending.rawClaims
    pending.envelope
  parsed : parseClaims (claimBlock pending.rawClaims) = some claims
  fit : ClaimsFit lib context candidate.deployment pending.envelope claims
  jti : pending.envelope.jti ≠ []
  key : pending.key = registryKey service.issuerId pending.envelope.iss
    pending.envelope.jti

theorem beginVerification_ok {lib : CryptoLib Token} {env : Env}
    {service : A2ACryptoService R} {token : Token}
    {context : AttestationContext} {trustedIssuers : PyVal} {decodeNow : ℚ}
    {pending : PendingReplay}
    (h : beginVerification lib env service token context trustedIssuers
      decodeNow = .ok (.ok pending)) :
    ∃ issuers candidate decoded claims,
      ReachesRegistry lib env service token context trustedIssuers decodeNow
        pending issuers candidate decoded claims := by
  rw [beginVerification] at h
  obtain ⟨_, h⟩ := refusal_eq_ok.mp h
  obtain ⟨candidates, hcandidates, h⟩ := bind_eq_ok.mp h
  obtain ⟨issuers, hissuers, rfl⟩ := candidateKeys_ok_iff.mp hcandidates
  obtain ⟨_, h⟩ := refusal_eq_ok.mp h
  obtain ⟨selection, hselect, h⟩ := bind_eq_ok.mp h
  cases selection with
  | rejected reason => cases h
  | verified candidate rawClaims envelope =>
      obtain ⟨hmem, hattempt⟩ := selectCandidate_verified hselect
      obtain ⟨decoded, hverified⟩ := attemptCandidate_verified_iff.mp hattempt
      obtain ⟨⟨claims, hclaims, hfit⟩, hjti, rfl⟩ :=
        checkBeforeReplay_ok_iff.mp h
      exact ⟨issuers, candidate, decoded, claims, hissuers, hmem, hselect,
        hverified, hclaims, hfit, hjti, rfl⟩

/-- Conversely, when every attempt returns and some candidate verifies, the
claims of whichever candidate decides are checked. -/
theorem beginVerification_of_attempts {lib : CryptoLib Token} {env : Env}
    {service : A2ACryptoService R} {token : Token}
    {trustedIssuers : PyVal} {decodeNow : ℚ} {issuers : Issuers}
    (context : AttestationContext) (hcrypto : lib.hasCrypto = true)
    (hissuers : loadTrustedIssuers lib env trustedIssuers = .ok issuers)
    (hreturn : ∀ candidate ∈ ownedKeys lib env service issuers, ∃ attempt,
      attemptCandidate lib token decodeNow candidate = .ok attempt)
    (hsome : ∃ candidate ∈ ownedKeys lib env service issuers,
      ∃ rawClaims envelope, attemptCandidate lib token decodeNow candidate =
        .ok (.verified rawClaims envelope)) :
    ∃ candidate ∈ ownedKeys lib env service issuers, ∃ rawClaims envelope,
      attemptCandidate lib token decodeNow candidate =
        .ok (.verified rawClaims envelope) ∧
      beginVerification lib env service token context trustedIssuers decodeNow =
        checkBeforeReplay lib service.issuerId context candidate.deployment
          rawClaims envelope := by
  obtain ⟨candidate, rawClaims, envelope, hselect⟩ :=
    selectCandidate_of_attempts hreturn hsome false false
  obtain ⟨hmem, hattempt⟩ := selectCandidate_verified hselect
  refine ⟨candidate, hmem, rawClaims, envelope, hattempt, ?_⟩
  have hnonempty : (ownedKeys lib env service issuers).isEmpty = false := by
    rw [List.isEmpty_eq_false_iff]
    exact List.ne_nil_of_mem hmem
  rw [beginVerification, hcrypto, candidateKeys_ok_iff.mpr ⟨issuers, hissuers, rfl⟩]
  simp only [Bool.not_true, Bool.false_eq_true, if_false, ok_bind, hnonempty,
    hselect]

/-- Slots may only disappear, and only once their retention has ended. -/
def OnlyExpiredRemoved [ReplayRegistry R] (before after : R) (now : ℚ)
    (key : PyStr) : Prop :=
  ReplayRegistry.held after key = ReplayRegistry.held before key ∨
    (ReplayRegistry.held after key = none ∧
      ∃ expiry, ReplayRegistry.held before key = some expiry ∧
        ¬ Live expiry now)

/-- One slot was added under the key, none was there. -/
structure OneSlotAdded [ReplayRegistry R] (before after : R) (now : ℚ)
    (key : PyStr) : Prop where
  free : ∀ expiry, ReplayRegistry.held before key = some expiry →
    ¬ Live expiry now
  added : ∃ expiry, ReplayRegistry.held after key = some expiry
  others : ∀ other, other ≠ key → OnlyExpiredRemoved before after now other

variable [ReplayRegistry R] [LawfulReplayRegistry R]

/-- A registration leaves every key but a newly registered one with its slot, or
without an expired one. -/
theorem onlyExpiredRemoved_checkAndRegister (registry : R) (key : PyStr)
    (now : ℚ) (validUntil : Option PyNum) (other : PyStr)
    (hother : other ≠ key ∨
      (ReplayRegistry.checkAndRegister registry key now validUntil).1 = false) :
    OnlyExpiredRemoved registry
      (ReplayRegistry.checkAndRegister registry key now validUntil).2 now
      other := by
  have honly := LawfulReplayRegistry.only registry key now validUntil other
  cases hafter : ReplayRegistry.held
      (ReplayRegistry.checkAndRegister registry key now validUntil).2 other with
  | some expiry =>
      rcases honly expiry hafter with hbefore | ⟨rfl, haccept⟩
      · exact Or.inl (hafter.trans hbefore.symm)
      · rcases hother with hne | hrefused
        · exact absurd rfl hne
        · rw [haccept] at hrefused
          cases hrefused
  | none =>
      cases hbefore : ReplayRegistry.held registry other with
      | none => exact Or.inl (hafter.trans hbefore.symm)
      | some expiry =>
          refine Or.inr ⟨hafter, expiry, hbefore, fun hlive => ?_⟩
          have hkept := LawfulReplayRegistry.kept registry key now validUntil
            other expiry hbefore hlive
          rw [hafter] at hkept
          cases hkept

omit [LawfulReplayRegistry R] in
theorem finishVerification_registry (registry : R) (pending : PendingReplay)
    (now : ℚ) :
    (finishVerification registry pending now).2 =
      (ReplayRegistry.checkAndRegister registry pending.key now
        (some pending.envelope.exp)).2 := by
  rw [finishVerification]
  split
  next => rfl
  next => rfl

/-- What the replay check answers and leaves behind. -/
theorem finishVerification_spec (registry : R) (pending : PendingReplay)
    (now : ℚ) :
    ((finishVerification registry pending now).1.valid = true →
      (finishVerification registry pending now).1.claims =
          some pending.rawClaims ∧
        OneSlotAdded registry (finishVerification registry pending now).2 now
          pending.key) ∧
    ((finishVerification registry pending now).1.valid = false →
      ∀ key, OnlyExpiredRemoved registry
        (finishVerification registry pending now).2 now key) := by
  have haccept := LawfulReplayRegistry.accept_iff registry pending.key now
    (some pending.envelope.exp)
  rw [finishVerification]
  split
  next hyes =>
    refine ⟨fun _ => ⟨rfl, haccept.mp hyes, ?_, ?_⟩, fun h => by cases h⟩
    · obtain ⟨expiry, hheld, _⟩ := LawfulReplayRegistry.registered registry
        pending.key now (some pending.envelope.exp) hyes
      exact ⟨expiry, hheld⟩
    · exact fun other hne =>
        onlyExpiredRemoved_checkAndRegister registry _ now _ other (Or.inl hne)
  next hno =>
    refine ⟨fun h => (by cases h), fun _ key => ?_⟩
    exact onlyExpiredRemoved_checkAndRegister registry _ now _ key
      (Or.inr (Bool.eq_false_iff.mpr hno))

theorem finishVerification_valid_iff (registry : R) (pending : PendingReplay)
    (now : ℚ) :
    (finishVerification registry pending now).1.valid = true ↔
      ∀ expiry, ReplayRegistry.held registry pending.key = some expiry →
        ¬ Live expiry now := by
  rw [← LawfulReplayRegistry.accept_iff registry pending.key now
    (some pending.envelope.exp)]
  rw [finishVerification]
  split
  next hyes => simp [hyes]
  next hno => simp [VerifyResult.refused, hno]

omit [LawfulReplayRegistry R] in
theorem verifyAttestation_ok_iff {lib : CryptoLib Token} {env : Env}
    {service : A2ACryptoService R} {token : Token}
    {context : AttestationContext} {trustedIssuers : PyVal}
    {decodeNow registerNow : ℚ} {result : VerifyResult} {registry : R} :
    verifyAttestation lib env service token context trustedIssuers decodeNow
        registerNow = .ok (result, registry) ↔
      (∃ reason, beginVerification lib env service token context trustedIssuers
          decodeNow = .ok (.error reason) ∧
        result = .refused reason ∧ registry = service.jtiRegistry) ∨
      ∃ pending, beginVerification lib env service token context trustedIssuers
          decodeNow = .ok (.ok pending) ∧
        (result, registry) =
          finishVerification service.jtiRegistry pending registerNow := by
  rw [verifyAttestation, bind_eq_ok]
  constructor
  · rintro ⟨outcome, hbegin, h⟩
    cases outcome with
    | error reason =>
        cases h
        exact Or.inl ⟨reason, hbegin, rfl, rfl⟩
    | ok pending => exact Or.inr ⟨pending, hbegin, (Except.ok.inj h).symm⟩
  · rintro (⟨reason, hbegin, rfl, rfl⟩ | ⟨pending, hbegin, hfinish⟩)
    · exact ⟨.error reason, hbegin, rfl⟩
    · exact ⟨.ok pending, hbegin, by rw [hfinish]; rfl⟩

end QwedA2A
