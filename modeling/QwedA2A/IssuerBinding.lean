/-
Who a verified token speaks for.  Every acceptance is bound to the first identity
its public key is configured under, unless the verifier's own key is listed
again under its own issuer ID with another label and another deployment.
-/
import QwedA2A.SignedClaims

namespace QwedA2A

variable {Token R : Type}

/-- The identity under which a public key is configured first. -/
def firstIdentity (configured : List Candidate) (pem : PyStr) :
    Option Candidate :=
  configured.find? fun candidate => candidate.pem = pem

/-- The token's kid header is absent, or equals the candidate's label. -/
def KidBound (header : PyVal) (label : Option PyStr) : Prop :=
  ∀ entries kid, header = .dict entries →
    dictGet entries (py "kid") = some kid →
      kid = .pyNone ∨ ∃ text, kid = .str text ∧ label = some text

/-- What an acceptance stands for: a key that verifies the live token, bound to
the first identity of that key; claims that fit the context and that identity's
deployment; and one new replay slot. -/
def BoundAcceptance [ReplayRegistry R] (lib : CryptoLib Token) (env : Env)
    (service : A2ACryptoService R) (trustedIssuers : PyVal) (registry after : R)
    (token : Token) (context : AttestationContext) (decodeNow registerNow : ℚ) :
    Prop :=
  ∃ issuers candidate decoded rawClaims envelope claims first,
    loadTrustedIssuers lib env trustedIssuers = .ok issuers ∧
    candidate ∈ ownedKeys lib env service issuers ∧
    lib.decodeComplete token candidate.pem decodeNow = .ok decoded ∧
    decoded.payload = .dict rawClaims ∧
    parseEnvelope lib rawClaims = some envelope ∧
    PyNum.rat decodeNow < envelope.exp ∧
    firstIdentity (configuredKeys lib env service issuers) candidate.pem =
      some first ∧
    envelope.iss = first.issuer ∧
    KidBound decoded.header candidate.kid ∧
    parseClaims (claimBlock rawClaims) = some claims ∧
    ClaimsFit lib context first.deployment envelope claims ∧
    envelope.jti ≠ [] ∧
    OneSlotAdded registry after registerNow
      (registryKey service.issuerId envelope.iss envelope.jti)

/-- Every verification by the service under the mapping: acceptances are bound,
refusals leave every slot that is still retained, and no other. -/
def AttestationsBound (R : Type) [ReplayRegistry R] (lib : CryptoLib Token)
    (env : Env) (service : A2ACryptoService R) (trustedIssuers : PyVal) : Prop :=
  ∀ (registry : R) (token : Token) (context : AttestationContext)
    (decodeNow registerNow : ℚ) (result : VerifyResult) (after : R),
    verifyAttestation lib env { service with jtiRegistry := registry } token
        context trustedIssuers decodeNow registerNow = .ok (result, after) →
      (result.valid = true →
        BoundAcceptance lib env service trustedIssuers registry after token
          context decodeNow registerNow) ∧
      (result.valid = false →
        ∀ key, OnlyExpiredRemoved registry after registerNow key)

/-- The verifier's own public key is listed again under its own issuer ID, with
a label that is not its own and a deployment that is not its own. -/
def RelabelledLocalKey (lib : CryptoLib Token) (env : Env)
    (service : A2ACryptoService R) (issuers : Issuers) : Prop :=
  ∃ pair entry key label,
    ensureKeyPair lib env service = .ok pair ∧
    (service.issuerId, entry) ∈ issuers ∧
    key ∈ entry.keys ∧
    key.pem = lib.publicPem pair.key.publicKey ∧
    key.kid = some label ∧
    label ≠ pair.keyId ∧
    entry.deploymentId ≠ env.deploymentId

/-- No two configured keys share a fingerprint. -/
def DistinctFingerprints (lib : CryptoLib Token) (configured : List Candidate) :
    Prop :=
  ∀ candidate ∈ configured, ∀ other ∈ configured,
    pemFingerprint lib candidate.pem = pemFingerprint lib other.pem →
      candidate.pem = other.pem

/-- The issuer ID, the deployments and the labels are valid Unicode. -/
structure UnicodeIssuers (service : A2ACryptoService R) (issuers : Issuers) :
    Prop where
  issuerId : isUnicode service.issuerId = true
  deployment : ∀ issuer ∈ issuers, isUnicode issuer.2.deploymentId = true
  label : ∀ issuer ∈ issuers, ∀ key ∈ issuer.2.keys, ∀ label,
    key.kid = some label → isUnicode label = true

theorem kidMatches_bound {header : PyVal} {label : Option PyStr}
    (h : kidMatches header label = true) : KidBound header label := by
  rintro entries kid rfl hkid
  rw [kidMatches, hkid] at h
  cases kid with
  | pyNone => exact Or.inl rfl
  | str text => exact Or.inr ⟨text, rfl, (by simpa using h : some text = label).symm⟩
  | _ => cases h

/-- Two labels that both fit a header are equal, or the header has no kid and
fits every label. -/
theorem kidMatches_two {header : PyVal} {label other : Option PyStr}
    (h : kidMatches header label = true)
    (hother : kidMatches header other = false) :
    ∃ text, label = some text ∧ other ≠ some text := by
  cases header with
  | dict entries =>
      cases hkid : dictGet entries (py "kid") with
      | none => simp [kidMatches, hkid] at hother
      | some kid =>
          cases kid with
          | pyNone => simp [kidMatches, hkid] at hother
          | str text =>
              simp only [kidMatches, hkid, decide_eq_true_eq,
                decide_eq_false_iff_not] at h hother
              exact ⟨text, h.symm, Ne.symm hother⟩
          | _ => simp [kidMatches, hkid] at h
  | _ => cases hother

theorem mem_configuredKeys_iff {lib : CryptoLib Token} {env : Env}
    {service : A2ACryptoService R} {issuers : Issuers} {candidate : Candidate} :
    candidate ∈ configuredKeys lib env service issuers ↔
      (∃ pair, ensureKeyPair lib env service = .ok pair ∧
        candidate = localCandidate lib env service pair) ∨
      ∃ issuer ∈ issuers, candidate ∈ issuerCandidates issuer := by
  rw [configuredKeys, List.mem_append, List.mem_flatMap, localCandidates]
  cases ensureKeyPair lib env service <;> simp

/-- Every configured key is the text of a public key. -/
theorem configuredKeys_isPublicPem {lib : CryptoLib Token} {env : Env}
    {service : A2ACryptoService R} {trustedIssuers : PyVal} {issuers : Issuers}
    (hcurve : lib.LawfulCurve) (hkeyed : service.WellKeyed lib)
    (hload : loadTrustedIssuers lib env trustedIssuers = .ok issuers)
    {candidate : Candidate}
    (hmem : candidate ∈ configuredKeys lib env service issuers) :
    IsPublicPem lib candidate.pem := by
  rcases mem_configuredKeys_iff.mp hmem with
    ⟨pair, hpair, rfl⟩ | ⟨issuer, hissuer, hcandidate⟩
  · obtain ⟨pem, hown⟩ := ensureKeyPair_own hkeyed hpair
    exact ⟨_, hcurve.loaded pem pair.key (loadKeyPair_ok hown).2.2, rfl⟩
  · obtain ⟨raw, rfl⟩ := loadTrustedIssuers_ok hload
    obtain ⟨item, _, hnormal⟩ := mem_collectIssuers hissuer
    obtain ⟨key, hkey, rfl⟩ := List.mem_map.mp hcandidate
    exact normalizeIssuerEntry_keys hnormal key hkey

/-- Without collisions a key's first owner is its first identity's issuer. -/
theorem firstOwner_eq_firstIdentity {lib : CryptoLib Token}
    {configured : List Candidate} (hdistinct : DistinctFingerprints lib configured)
    {candidate : Candidate} (hmem : candidate ∈ configured) :
    firstOwner lib configured candidate.pem =
      (firstIdentity configured candidate.pem).map Candidate.issuer := by
  have hsame : configured.find? (fun other =>
      pemFingerprint lib other.pem = pemFingerprint lib candidate.pem) =
        firstIdentity configured candidate.pem := by
    apply List.find?_congr
    intro other hother
    rw [decide_eq_decide]
    exact ⟨hdistinct other hother candidate hmem, fun h => by rw [h]⟩
  rw [firstOwner, hsame]

/-- A candidate kept for its key has its first identity's issuer. -/
theorem firstIdentity_of_firstOwner {lib : CryptoLib Token}
    {configured : List Candidate} (hdistinct : DistinctFingerprints lib configured)
    {candidate : Candidate} (hmem : candidate ∈ configured)
    (howner : firstOwner lib configured candidate.pem = some candidate.issuer) :
    ∃ first ∈ configured,
      firstIdentity configured candidate.pem = some first ∧
        first.pem = candidate.pem ∧ first.issuer = candidate.issuer := by
  rw [firstOwner_eq_firstIdentity hdistinct hmem, Option.map_eq_some_iff]
    at howner
  obtain ⟨first, hfirst, hissuer⟩ := howner
  exact ⟨first, List.mem_of_find?_eq_some hfirst, hfirst,
    by simpa using List.find?_some hfirst, hissuer⟩

/-- The local key, when there is one, is tried first. -/
theorem ownedKeys_local {lib : CryptoLib Token} {env : Env}
    {service : A2ACryptoService R} {pair : KeyPair}
    (hpair : ensureKeyPair lib env service = .ok pair) (issuers : Issuers) :
    ∃ rest, ownedKeys lib env service issuers =
      localCandidate lib env service pair :: rest := by
  have hconfigured : configuredKeys lib env service issuers =
      localCandidate lib env service pair ::
        issuers.flatMap issuerCandidates := by
    rw [configuredKeys, localCandidates, hpair]
    rfl
  have howner : firstOwner lib (configuredKeys lib env service issuers)
      (localCandidate lib env service pair).pem =
        some (localCandidate lib env service pair).issuer := by
    rw [hconfigured, firstOwner]
    simp
  rw [ownedKeys, hconfigured, List.filter_cons_of_pos]
  · exact ⟨_, rfl⟩
  · rw [← hconfigured]
    simpa using howner

theorem beginVerification_of_local {lib : CryptoLib Token} {env : Env}
    {service : A2ACryptoService R} {token : Token} (context : AttestationContext)
    {trustedIssuers : PyVal} {decodeNow : ℚ} {issuers : Issuers}
    {pair : KeyPair} {rawClaims : PyDict} {envelope : AttestationEnvelope}
    (hpair : ensureKeyPair lib env service = .ok pair)
    (hload : loadTrustedIssuers lib env trustedIssuers = .ok issuers)
    (hattempt : attemptCandidate lib token decodeNow
      (localCandidate lib env service pair) =
        .ok (.verified rawClaims envelope)) :
    beginVerification lib env service token context trustedIssuers decodeNow =
      checkBeforeReplay lib service.issuerId context env.deploymentId rawClaims
        envelope := by
  obtain ⟨rest, hrest⟩ := ownedKeys_local hpair issuers
  rw [beginVerification, ensureKeyPair_hasCrypto hpair,
    candidateKeys_ok_iff.mpr ⟨issuers, hload, rfl⟩, hrest]
  simp only [Bool.not_true, Bool.false_eq_true, if_false, ok_bind,
    List.isEmpty_cons, selectCandidate, hattempt]
  rfl

/-- Keys of one registered issuer share a deployment. -/
theorem issuerCandidates_deployment {issuers : Issuers}
    (hnodup : (issuers.map Prod.fst).Nodup) {issuer other : PyStr × IssuerEntry}
    (hissuer : issuer ∈ issuers) (hother : other ∈ issuers)
    {candidate candidate' : Candidate}
    (hcandidate : candidate ∈ issuerCandidates issuer)
    (hcandidate' : candidate' ∈ issuerCandidates other)
    (hsame : candidate.issuer = candidate'.issuer) :
    candidate.deployment = candidate'.deployment := by
  obtain ⟨key, _, rfl⟩ := List.mem_map.mp hcandidate
  obtain ⟨key', _, rfl⟩ := List.mem_map.mp hcandidate'
  have hentry : issuer = other :=
    List.inj_on_of_nodup_map hnodup hissuer hother hsame
  rw [hentry]

/-- An owned candidate that decides has its first identity's deployment, unless
it is the local key under another label. -/
theorem deployment_of_selected {lib : CryptoLib Token} {env : Env}
    {service : A2ACryptoService R} {token : Token}
    {context : AttestationContext} {trustedIssuers : PyVal} {decodeNow : ℚ}
    {pending : PendingReplay} {issuers : Issuers} {candidate first : Candidate}
    {decoded : DecodedToken} {claims : QwedA2AClaims}
    (hreach : ReachesRegistry lib env service token context trustedIssuers
      decodeNow pending issuers candidate decoded claims)
    (hfirst : first ∈ configuredKeys lib env service issuers)
    (hpem : first.pem = candidate.pem)
    (hissuer : first.issuer = candidate.issuer)
    (hfind : firstIdentity (configuredKeys lib env service issuers)
      candidate.pem = some first)
    (hunlisted : ¬ RelabelledLocalKey lib env service issuers) :
    candidate.deployment = first.deployment := by
  obtain ⟨raw, rfl⟩ := loadTrustedIssuers_ok hreach.loaded
  have hnodup := collectIssuers_nodup lib raw
  have hmem := (List.mem_filter.mp hreach.owned).1
  rcases mem_configuredKeys_iff.mp hmem with
    ⟨pair, hpair, rfl⟩ | ⟨issuer, hregistered, hcandidate⟩
  · rw [configuredKeys, localCandidates, hpair] at hfind
    simp only [firstIdentity, List.singleton_append, List.find?_cons,
      decide_true] at hfind
    rw [Option.some.inj hfind]
  · rcases mem_configuredKeys_iff.mp hfirst with
      ⟨pair, hpair, rfl⟩ | ⟨other, hother, hfirst'⟩
    · -- The first identity is the local one: its attempt did not verify, so
      -- the labels differ, and an unlisted key leaves only equal deployments.
      by_contra hdeployment
      obtain ⟨rest, hrest⟩ := ownedKeys_local hpair (collectIssuers lib raw)
      have hselected := hreach.selected
      rw [hrest] at hselected
      rcases selectCandidate_head hselected with hhead | hhead
      · exact hdeployment (by rw [hhead])
      · have hmismatch : kidMatches decoded.header (some pair.keyId) = false := by
          rw [Bool.eq_false_iff]
          intro hkid
          refine hhead pending.rawClaims pending.envelope
            (attemptCandidate_verified_iff.mpr ⟨decoded, ?_, hreach.verified.payload,
              hreach.verified.typed, ?_, hkid⟩)
          · rw [hpem]
            exact hreach.verified.signature
          · rw [hissuer]
            exact hreach.verified.issuer
        obtain ⟨label, hlabel, hne⟩ :=
          kidMatches_two hreach.verified.kid hmismatch
        obtain ⟨key, hkey, rfl⟩ := List.mem_map.mp hcandidate
        have hown : issuer = (service.issuerId, issuer.2) :=
          Prod.ext hissuer.symm rfl
        refine hunlisted ⟨pair, issuer.2, key, label, hpair, hown ▸ hregistered,
          hkey, hpem.symm, hlabel, fun heq => hne (by rw [heq]), hdeployment⟩
    · exact issuerCandidates_deployment hnodup hregistered hother hcandidate
        hfirst' hissuer.symm

/-- Without a relabelled local key every verification is bound. -/
theorem attestationsBound_of_unlisted [ReplayRegistry R]
    [LawfulReplayRegistry R] {lib : CryptoLib Token} {env : Env}
    {service : A2ACryptoService R} {trustedIssuers : PyVal}
    (hjwt : lib.LawfulJwt)
    (hdistinct : ∀ issuers, loadTrustedIssuers lib env trustedIssuers =
      .ok issuers →
        DistinctFingerprints lib (configuredKeys lib env service issuers))
    (hunlisted : ∀ issuers, loadTrustedIssuers lib env trustedIssuers =
      .ok issuers → ¬ RelabelledLocalKey lib env service issuers) :
    AttestationsBound R lib env service trustedIssuers := by
  intro registry token context decodeNow registerNow result after hverify
  rcases verifyAttestation_ok_iff.mp hverify with
    ⟨reason, _, rfl, rfl⟩ | ⟨pending, hbegin, hfinish⟩
  · exact ⟨fun h => (by cases h), fun _ key => Or.inl rfl⟩
  · have hspec := finishVerification_spec registry pending registerNow
    rw [← hfinish] at hspec
    refine ⟨fun hvalid => ?_, hspec.2⟩
    obtain ⟨_, hslot⟩ := hspec.1 hvalid
    obtain ⟨issuers, candidate, decoded, claims, hreach⟩ :=
      beginVerification_ok hbegin
    obtain ⟨hmem, howner⟩ := List.mem_filter.mp hreach.owned
    obtain ⟨first, hfirst, hfind, hpem, hissuer⟩ :=
      firstIdentity_of_firstOwner (hdistinct issuers hreach.loaded) hmem
        (of_decide_eq_true howner)
    have hdeployment := deployment_of_selected hreach hfirst hpem hissuer hfind
      (hunlisted issuers hreach.loaded)
    refine ⟨issuers, candidate, decoded, pending.rawClaims, pending.envelope,
      claims, first, hreach.loaded, hreach.owned, hreach.verified.signature,
      hreach.verified.payload, hreach.verified.typed,
      hjwt.live _ _ _ _ _ _ hreach.verified.signature hreach.verified.payload
        hreach.verified.typed,
      hfind, hreach.verified.issuer.trans hissuer.symm,
      kidMatches_bound hreach.verified.kid, hreach.parsed,
      hdeployment ▸ hreach.fit, hreach.jti, hreach.key ▸ hslot⟩

/-- A token that decodes under a configured key, and fits that key's owner and
label, gets past the candidate loop: whichever candidate decides has its claims,
and fits them too. -/
theorem DecodesUnder.begins {lib : CryptoLib Token} {env : Env}
    {service : A2ACryptoService R} {token : Token} {trustedIssuers : PyVal}
    {issuers : Issuers} {now : ℚ} {pem : PyStr} {entries payload : PyDict}
    {envelope : AttestationEnvelope} {registered : Candidate}
    (h : DecodesUnder lib token now pem entries payload)
    (context : AttestationContext) (hcrypto : lib.hasCrypto = true)
    (hcurve : lib.LawfulCurve) (hkeyed : service.WellKeyed lib)
    (hload : loadTrustedIssuers lib env trustedIssuers = .ok issuers)
    (htyped : parseEnvelope lib payload = some envelope)
    (hmem : registered ∈ ownedKeys lib env service issuers)
    (hpem : registered.pem = pem) (hissuer : envelope.iss = registered.issuer)
    (hkid : kidMatches (.dict entries) registered.kid = true) :
    ∃ candidate ∈ ownedKeys lib env service issuers,
      envelope.iss = candidate.issuer ∧
      kidMatches (.dict entries) candidate.kid = true ∧
      beginVerification lib env service token context trustedIssuers now =
        checkBeforeReplay lib service.issuerId context candidate.deployment
          payload envelope := by
  have hpublic : ∀ candidate ∈ ownedKeys lib env service issuers,
      IsPublicPem lib candidate.pem := fun candidate howned =>
    configuredKeys_isPublicPem hcurve hkeyed hload (List.mem_filter.mp howned).1
  have hattempt : attemptCandidate lib token now registered =
      .ok (.verified payload envelope) := by
    rw [h.attempt (hpublic _ hmem), if_pos hpem]
    exact congrArg Except.ok
      (bindCandidate_verified_iff.mpr ⟨rfl, htyped, hissuer, hkid⟩)
  obtain ⟨candidate, howned, rawClaims, envelope', hverified, hbegin⟩ :=
    beginVerification_of_attempts context hcrypto hload
      (fun candidate howned => ⟨_, h.attempt (hpublic candidate howned)⟩)
      ⟨registered, hmem, payload, envelope, hattempt⟩
  obtain ⟨_, rfl, htyped', hissuer', hkid'⟩ :=
    h.verified (hpublic candidate howned) hverified
  rw [htyped] at htyped'
  cases htyped'
  exact ⟨candidate, howned, hissuer', hkid', hbegin⟩

theorem isNonemptyStr_ne_nil {s : PyStr} (h : isNonemptyStr (.str s) = true) :
    s ≠ [] := by
  rintro rfl
  exact absurd h (by decide)

def sampleRequest (hash : PyStr) : SignRequest where
  traceId := py "t"
  verdictStatus := py "verified"
  engine := py "finance_guard"
  senderId := py "a"
  receiverId := py "b"
  payloadHash := hash

theorem sampleRequest_unicode {hash : PyStr} (h : isUnicode hash = true) :
    (sampleRequest hash).Unicode where
  traceId := (by decide : isUnicode (py "t") = true)
  engine := (by decide : isUnicode (py "finance_guard") = true)
  senderId := (by decide : isUnicode (py "a") = true)
  receiverId := (by decide : isUnicode (py "b") = true)
  payloadHash := h
  sessionId _ hsome := by cases hsome

def sampleContext : AttestationContext where
  senderAgentId := py "a"
  receiverAgentId := py "b"
  payload := .pyNone

/-- A loadable key signs the sample request for any deployment, under any
label. -/
theorem sampleRequest_signed {lib : CryptoLib Token}
    (hsignatures : lib.IdealSignatures) (pair : KeyPair)
    (hloadable : lib.Loadable pair.key) {deployment : Env} {issuerId hash : PyStr}
    (hissuer : isUnicode issuerId = true)
    (hdeployment : isUnicode deployment.deploymentId = true)
    (hlabel : isUnicode pair.keyId = true) (hhash : isUnicode hash = true) :
    ∃ token entries, dictGet entries (py "kid") = some (.str pair.keyId) ∧
      DecodesUnder lib token 0 (lib.publicPem pair.key.publicKey) entries
        (signPayload deployment issuerId 1 (sampleRequest hash) .verified 0) := by
  have hplain : ∀ intOk : ℤ → Bool, intOk 0 = true → intOk 1 = true →
      (PyVal.dict (signPayload deployment issuerId 1 (sampleRequest hash)
        .verified 0)).isPlain intOk = true := fun intOk hzero hone =>
    signPayload_plain deployment 1 .verified 0 hissuer hdeployment
      (sampleRequest_unicode hhash) hzero hone
  have hheader : ∀ intOk : ℤ → Bool,
      (PyVal.dict (signHeader pair)).isPlain intOk = true := fun intOk =>
    signHeader_plain hlabel
  obtain ⟨token, htoken⟩ := hsignatures.signs pair.key _ (signHeader pair)
    hloadable (hplain _ (by decide) (by decide)) (hheader _)
    ⟨pair.keyId, signHeader_kid _⟩
  have hcurrent : CurrentClaims
      (signPayload deployment issuerId 1 (sampleRequest hash) .verified 0) 0 :=
    signPayload_current deployment issuerId 1 (sampleRequest hash) .verified 0
      (by norm_num) (by norm_num)
  obtain ⟨entries, hkid, hdecode⟩ := decodesUnder_of_signed hsignatures hloadable
    htoken (hplain _ rfl rfl) (hheader _) hcurrent
  exact ⟨token, entries, hkid.trans (signHeader_kid _), hdecode⟩

/-- The local key listed again is a candidate of its own. -/
theorem relisted_mem_ownedKeys {lib : CryptoLib Token} {env : Env}
    {service : A2ACryptoService R} {pair : KeyPair} {issuers : Issuers}
    {entry : IssuerEntry} {key : IssuerKey}
    (hpair : ensureKeyPair lib env service = .ok pair)
    (hentry : (service.issuerId, entry) ∈ issuers) (hkey : key ∈ entry.keys)
    (hpem : key.pem = lib.publicPem pair.key.publicKey) :
    (⟨service.issuerId, key.pem, entry.deploymentId, key.kid⟩ : Candidate) ∈
      ownedKeys lib env service issuers := by
  refine List.mem_filter.mpr ⟨mem_configuredKeys_iff.mpr (Or.inr ⟨_, hentry,
    List.mem_map.mpr ⟨key, hkey, rfl⟩⟩), decide_eq_true ?_⟩
  have hfirst : configuredKeys lib env service issuers =
      localCandidate lib env service pair ::
        issuers.flatMap issuerCandidates := by
    rw [configuredKeys, localCandidates, hpair]
    rfl
  rw [hfirst, firstOwner, List.find?_cons_of_pos]
  · rfl
  · simp [localCandidate, hpem]

/-- A candidate of the own issuer whose label is not the local key's comes from
the entry of the own issuer. -/
theorem deployment_of_relabelled {lib : CryptoLib Token} {env : Env}
    {service : A2ACryptoService R} {pair : KeyPair} {trustedIssuers : PyVal}
    {issuers : Issuers} {entry : IssuerEntry} {key : IssuerKey}
    {candidate : Candidate}
    (hpair : ensureKeyPair lib env service = .ok pair)
    (hload : loadTrustedIssuers lib env trustedIssuers = .ok issuers)
    (hentry : (service.issuerId, entry) ∈ issuers) (hkey : key ∈ entry.keys)
    (hmem : candidate ∈ configuredKeys lib env service issuers)
    (hissuer : candidate.issuer = service.issuerId)
    (hkid : candidate.kid ≠ some pair.keyId) :
    candidate.deployment = entry.deploymentId := by
  obtain ⟨raw, rfl⟩ := loadTrustedIssuers_ok hload
  rcases mem_configuredKeys_iff.mp hmem with
    ⟨own, hown, rfl⟩ | ⟨issuer, hregistered, hcandidate⟩
  · rw [hpair] at hown
    cases hown
    exact absurd rfl hkid
  · exact issuerCandidates_deployment (collectIssuers_nodup lib raw)
      hregistered hentry hcandidate (List.mem_map.mpr ⟨key, hkey, rfl⟩) hissuer

/-- A relabelled local key lets a token of the other deployment in: the local
attempt fails on the label, the listed key then verifies. -/
theorem relabelled_accepted [ReplayRegistry R] [LawfulReplayRegistry R]
    {lib : CryptoLib Token} {env : Env} (service : A2ACryptoService R)
    {trustedIssuers : PyVal} {issuers : Issuers}
    (hsignatures : lib.IdealSignatures) (hcurve : lib.LawfulCurve)
    (hdigests : lib.TextDigests) (hkeyed : service.WellKeyed lib)
    (hload : loadTrustedIssuers lib env trustedIssuers = .ok issuers)
    (hunicode : UnicodeIssuers service issuers)
    (hempty : ∀ key, ReplayRegistry.held service.jtiRegistry key = none)
    (hlisted : RelabelledLocalKey lib env service issuers) :
    ∃ token result after pair rawClaims claims,
      verifyAttestation lib env service token sampleContext trustedIssuers 0 0 =
        .ok (result, after) ∧ result.valid = true ∧
      ensureKeyPair lib env service = .ok pair ∧
      (∀ pem decoded, IsPublicPem lib pem →
        lib.decodeComplete token pem 0 = .ok decoded →
          pem = lib.publicPem pair.key.publicKey ∧
            decoded.payload = .dict rawClaims) ∧
      parseClaims (claimBlock rawClaims) = some claims ∧
      claims.deploymentId ≠ env.deploymentId := by
  obtain ⟨pair, entry, key, label, hpair, hentry, hkey, hpem, hkid, hlabel,
    hdeployment⟩ := hlisted
  obtain ⟨pem, hown⟩ := ensureKeyPair_own hkeyed hpair
  let other : Env :=
    { deploymentId := entry.deploymentId
      deploymentIdSet := isNonemptyStr_ne_nil entry.deploymentUsable }
  let hash := py "sha256:" ++ lib.sha256Hex (py "null")
  let payload := signPayload other service.issuerId 1 (sampleRequest hash)
    .verified 0
  let signed := signedEnvelope service.issuerId 1 (sampleRequest hash) 0
  have hsigned : parseEnvelope lib payload = some signed :=
    signPayload_envelope lib other service.issuerId 1 (sampleRequest hash)
      .verified 0
  have hclaims := signPayload_claims other service.issuerId 1
    (sampleRequest hash) .verified 0
  have hhash : isUnicode hash = true := by
    rw [isUnicode_append, hdigests.sha256]
    decide
  obtain ⟨token, entries, hheaderKid, hdecode⟩ :=
    sampleRequest_signed hsignatures { pair with keyId := label }
      ⟨pem, (loadKeyPair_ok hown).2.2⟩ hunicode.issuerId
      (show isUnicode other.deploymentId = true from
        hunicode.deployment _ hentry)
      (hunicode.label _ hentry key hkey label hkid) hhash
  obtain ⟨candidate, hmem, hissuer, hkidMatches, hbegin⟩ :=
    hdecode.begins sampleContext (ensureKeyPair_hasCrypto hpair) hcurve hkeyed
      hload hsigned (relisted_mem_ownedKeys hpair hentry hkey hpem) hpem rfl
      (by simp [kidMatches, hheaderKid, hkid])
  have hcandidateKid : some label = candidate.kid := by
    simpa only [kidMatches, hheaderKid, decide_eq_true_eq] using hkidMatches
  have hcandidateDeployment : candidate.deployment = entry.deploymentId :=
    deployment_of_relabelled hpair hload hentry hkey (List.mem_filter.mp hmem).1
      hissuer.symm fun heq =>
        hlabel (Option.some.inj (hcandidateKid.trans heq))
  have hcheck : checkBeforeReplay lib service.issuerId sampleContext
      candidate.deployment payload signed = .ok (.ok ⟨payload, signed,
        registryKey service.issuerId signed.iss signed.jti⟩) :=
    checkBeforeReplay_ok_iff.mpr ⟨⟨_, hclaims, hcandidateDeployment.symm, rfl,
      rfl, rfl, fun _ h => by cases h⟩, (by decide : py "t" ≠ []), rfl⟩
  obtain ⟨pending, hpending⟩ : ∃ pending, beginVerification lib env service
      token sampleContext trustedIssuers 0 = .ok (.ok pending) :=
    ⟨_, hbegin.trans hcheck⟩
  refine ⟨token, (finishVerification service.jtiRegistry pending 0).1,
    (finishVerification service.jtiRegistry pending 0).2, pair, payload, _,
    verifyAttestation_ok_iff.mpr (Or.inr ⟨pending, hpending, rfl⟩), ?_, hpair,
    ?_, hclaims, hdeployment⟩
  · rw [finishVerification_valid_iff]
    intro expiry hheld
    rw [hempty] at hheld
    cases hheld
  · intro pem' decoded hpem' hdecode'
    obtain ⟨hlocal, rfl⟩ := hdecode.ok hpem' hdecode'
    exact ⟨hlocal, rfl⟩

theorem not_attestationsBound_of_listed [ReplayRegistry R]
    [LawfulReplayRegistry R] {lib : CryptoLib Token} {env : Env}
    {service : A2ACryptoService R} {trustedIssuers : PyVal} {issuers : Issuers}
    (empty : R) (hempty : ∀ key, ReplayRegistry.held empty key = none)
    (hsignatures : lib.IdealSignatures) (hcurve : lib.LawfulCurve)
    (hdigests : lib.TextDigests) (hkeyed : service.WellKeyed lib)
    (hload : loadTrustedIssuers lib env trustedIssuers = .ok issuers)
    (hunicode : UnicodeIssuers service issuers)
    (hlisted : RelabelledLocalKey lib env service issuers) :
    ¬ AttestationsBound R lib env service trustedIssuers := by
  intro hbound
  obtain ⟨token, result, after, pair, rawClaims, claims, hverify, hvalid, hpair,
    honly, hclaims, hdeployment⟩ :=
    relabelled_accepted { service with jtiRegistry := empty } hsignatures hcurve
      hdigests hkeyed hload
      ⟨hunicode.issuerId, hunicode.deployment, hunicode.label⟩ hempty hlisted
  obtain ⟨issuers', candidate, decoded, found, envelope, claims', first, hload',
    hmem, hdecode, hpayload, _, _, hfirst, _, _, hclaims', hfit, _⟩ :=
    (hbound empty token sampleContext 0 0 result after hverify).1 hvalid
  obtain ⟨hpem, hraw⟩ := honly candidate.pem decoded
    (configuredKeys_isPublicPem hcurve hkeyed hload'
      (List.mem_filter.mp hmem).1) hdecode
  rw [hpayload] at hraw
  cases hraw
  rw [hclaims] at hclaims'
  cases hclaims'
  have hlocal : first = localCandidate lib env service pair := by
    rw [hpem, configuredKeys, localCandidates,
      show ensureKeyPair lib env service = .ok pair from hpair] at hfirst
    simpa [firstIdentity, localCandidate] using hfirst.symm
  exact hdeployment (by rw [hfit.deployment, hlocal]; rfl)

/-- Acceptance is bound to the first identity of the verifying key, with one new
replay slot, and refusals only let lapsed slots go, for every token, context and
registry exactly when the verifier's own key is not listed again under its own
issuer ID with another label and another deployment. -/
theorem attestations_bound_iff [ReplayRegistry R] [LawfulReplayRegistry R]
    (lib : CryptoLib Token) (env : Env) (service : A2ACryptoService R)
    (trustedIssuers : PyVal) (empty : R)
    (hempty : ∀ key, ReplayRegistry.held empty key = none)
    (hjwt : lib.LawfulJwt) (hsignatures : lib.IdealSignatures)
    (hcurve : lib.LawfulCurve) (hdigests : lib.TextDigests)
    (hkeyed : service.WellKeyed lib)
    (hdistinct : ∀ issuers, loadTrustedIssuers lib env trustedIssuers =
      .ok issuers →
        DistinctFingerprints lib (configuredKeys lib env service issuers))
    (hunicode : ∀ issuers, loadTrustedIssuers lib env trustedIssuers =
      .ok issuers → UnicodeIssuers service issuers) :
    AttestationsBound R lib env service trustedIssuers ↔
      ∀ issuers, loadTrustedIssuers lib env trustedIssuers = .ok issuers →
        ¬ RelabelledLocalKey lib env service issuers := by
  constructor
  · intro hbound issuers hload hlisted
    exact not_attestationsBound_of_listed empty hempty hsignatures hcurve hdigests
      hkeyed hload (hunicode issuers hload) hlisted hbound
  · exact attestationsBound_of_unlisted hjwt hdistinct

namespace Reference

/-- The service's own key under its own issuer ID, relabelled for a second
deployment. -/
def relabelledIssuers : PyDict :=
  [(.str (py "did:a"), issuerEntry (py "staging") (jwk (py "AQ") (py "old")))]

end Reference

/-- One key verifies for two deployments of its issuer. -/
theorem not_attestationsBound_relabelled :
    ¬ AttestationsBound JtiRegistry Reference.lib Reference.env Reference.service
      (.dict Reference.relabelledIssuers) := by
  let entry : IssuerEntry :=
    ⟨py "staging", [⟨py "PEM 1", some (py "old")⟩], by decide, by decide⟩
  have hload : loadTrustedIssuers Reference.lib Reference.env
      (.dict Reference.relabelledIssuers) = .ok [(py "did:a", entry)] := rfl
  refine not_attestationsBound_of_listed ({} : JtiRegistry) (fun _ => rfl)
    Reference.idealSignatures Reference.lawfulCurve Reference.textDigests
    (fun _ h => by cases h) hload ⟨by decide, ?_, ?_⟩ ?_
  · intro issuer hissuer
    rw [List.mem_singleton.mp hissuer]
    decide
  · intro issuer hissuer key hkey label hlabel
    rw [List.mem_singleton.mp hissuer] at hkey
    rw [List.mem_singleton.mp hkey] at hlabel
    cases hlabel
    decide
  · exact ⟨⟨py "did:a", py "did:a#key-k", ⟨py "key one", ⟨1, 1⟩⟩⟩, entry,
      ⟨py "PEM 1", some (py "old")⟩, py "old", rfl, List.mem_singleton_self _,
      List.mem_singleton_self _, rfl, rfl, by decide, by decide⟩

/-- With one ordinary peer configured, every acceptance is bound. -/
theorem attestations_bound_iff_peer :
    AttestationsBound JtiRegistry Reference.lib Reference.env Reference.service
      (.dict Reference.peerIssuers) := by
  let entry : IssuerEntry :=
    ⟨py "peer", [⟨py "PEM 2", some (py "b1")⟩], by decide, by decide⟩
  have hload : loadTrustedIssuers Reference.lib Reference.env
      (.dict Reference.peerIssuers) = .ok [(py "did:b", entry)] := rfl
  have honly : ∀ issuers, loadTrustedIssuers Reference.lib Reference.env
      (.dict Reference.peerIssuers) = .ok issuers →
        issuers = [(py "did:b", entry)] := fun issuers h =>
    (Except.ok.inj (hload.symm.trans h)).symm
  refine (attestations_bound_iff Reference.lib Reference.env Reference.service
    (.dict Reference.peerIssuers) ({} : JtiRegistry) (fun _ => rfl)
    Reference.lawfulJwt Reference.idealSignatures Reference.lawfulCurve
    Reference.textDigests (fun _ h => by cases h) ?_ ?_).mpr ?_
  · intro issuers h
    rw [honly issuers h]
    rw [DistinctFingerprints]
    decide +kernel
  · intro issuers h
    rw [honly issuers h]
    refine ⟨by decide, ?_, ?_⟩
    · intro issuer hissuer
      rw [List.mem_singleton.mp hissuer]
      decide
    · intro issuer hissuer key hkey label hlabel
      rw [List.mem_singleton.mp hissuer] at hkey
      rw [List.mem_singleton.mp hkey] at hlabel
      cases hlabel
      decide
  · rintro issuers h ⟨pair, found, key, label, _, hmem, _⟩
    rw [honly issuers h] at hmem
    exact absurd (congrArg Prod.fst (List.mem_singleton.mp hmem))
      (by decide : py "did:a" ≠ py "did:b")

end QwedA2A
