/-
When a verification answers at all.  Every reader of attacker-chosen text and of
operator-chosen configuration raises exceptions of its own; the candidate loop
lets one of them through.
-/
import QwedA2A.JsonScan
import QwedA2A.SignedClaims

namespace QwedA2A

variable {Token R : Type}

/-- `decode_complete` raises, under this key, what no handler around it names, such
as the UnicodeEncodeError of a token that has no UTF-8 encoding. -/
def EscapesDecode (lib : CryptoLib Token) (token : Token) (now : ℚ)
    (pem : PyStr) : Prop :=
  ∃ exc, lib.decodeComplete token pem now = .error (.uncaught exc)

/-- The key verifies the token and the token is bound to the key's owner. -/
def KeyVerifies (lib : CryptoLib Token) (token : Token) (now : ℚ)
    (candidate : Candidate) : Prop :=
  ∃ decoded rawClaims envelope,
    VerifiedBy lib token now candidate decoded rawClaims envelope

/-- A key under which decoding escapes is only tried behind one that
verifies. -/
def EscapesShielded (lib : CryptoLib Token) (token : Token) (now : ℚ)
    (candidates : List Candidate) : Prop :=
  ∀ past candidate later, candidates = past ++ candidate :: later →
    EscapesDecode lib token now candidate.pem →
      ∃ earlier ∈ past, KeyVerifies lib token now earlier

/-- A configured key verifies the token, and its `qwed_a2a` block has the types
it should. -/
def WellTypedUnderKey (lib : CryptoLib Token) (env : Env)
    (service : A2ACryptoService R) (token : Token) (trustedIssuers : PyVal)
    (now : ℚ) : Prop :=
  ∃ candidates candidate decoded rawClaims envelope claims,
    candidateKeys lib env service trustedIssuers = .ok candidates ∧
      candidate ∈ candidates ∧
      VerifiedBy lib token now candidate decoded rawClaims envelope ∧
      parseClaims (claimBlock rawClaims) = some claims

/-- The call returns its triple, and whatever no configured key verifies as a
well-typed token reads as a denial that leaves the registry alone. -/
def ReturnsTriple [ReplayRegistry R] (lib : CryptoLib Token) (env : Env)
    (service : A2ACryptoService R) (token : Token)
    (context : AttestationContext) (trustedIssuers : PyVal)
    (decodeNow registerNow : ℚ) : Prop :=
  ∃ result registry,
    verifyAttestation lib env service token context trustedIssuers decodeNow
      registerNow = .ok (result, registry) ∧
    (¬ WellTypedUnderKey lib env service token trustedIssuers decodeNow →
      (∃ reason, result = .refused reason) ∧ registry = service.jtiRegistry)

theorem escapesShielded_cons {lib : CryptoLib Token} {token : Token} {now : ℚ}
    {head : Candidate} {rest : List Candidate} :
    EscapesShielded lib token now (head :: rest) ↔
      ¬ EscapesDecode lib token now head.pem ∧
        (KeyVerifies lib token now head ∨
          EscapesShielded lib token now rest) := by
  constructor
  · intro h
    refine ⟨fun hescape => ?_, ?_⟩
    · obtain ⟨_, hmem, _⟩ := h [] head rest rfl hescape
      cases hmem
    · by_cases hhead : KeyVerifies lib token now head
      · exact Or.inl hhead
      · refine Or.inr fun past candidate later hsplit hescape => ?_
        obtain ⟨earlier, hmem, hverifies⟩ := h (head :: past) candidate later
          (by rw [hsplit, List.cons_append]) hescape
        rcases List.mem_cons.mp hmem with rfl | hmem
        · exact absurd hverifies hhead
        · exact ⟨earlier, hmem, hverifies⟩
  · rintro ⟨hhead, hrest⟩ past candidate later hsplit hescape
    cases past with
    | nil =>
        cases hsplit
        exact absurd hescape hhead
    | cons first past =>
        obtain ⟨hfirst, htail⟩ := List.cons.inj hsplit
        subst hfirst
        rcases hrest with hverifies | hrest
        · exact ⟨head, List.mem_cons_self, hverifies⟩
        · obtain ⟨earlier, hmem, hverifies⟩ :=
            hrest past candidate later htail hescape
          exact ⟨earlier, List.mem_cons_of_mem _ hmem, hverifies⟩

/-- An attempt raises or returns, and says which key verified. -/
theorem attemptCandidate_cases (lib : CryptoLib Token) (token : Token) (now : ℚ)
    (candidate : Candidate) :
    (∃ exc, attemptCandidate lib token now candidate = .error exc ∧
      EscapesDecode lib token now candidate.pem) ∨
    ∃ attempt, attemptCandidate lib token now candidate = .ok attempt ∧
      ¬ EscapesDecode lib token now candidate.pem ∧
      (KeyVerifies lib token now candidate ↔
        ∃ rawClaims envelope, attempt = .verified rawClaims envelope) := by
  cases hattempt : attemptCandidate lib token now candidate with
  | error exc =>
      exact Or.inl ⟨exc, rfl, exc, attemptCandidate_error_iff.mp hattempt⟩
  | ok attempt =>
      refine Or.inr ⟨attempt, rfl, ?_, ?_⟩
      · rintro ⟨exc, hescape⟩
        rw [attemptCandidate_error_iff.mpr hescape] at hattempt
        cases hattempt
      · constructor
        · rintro ⟨decoded, rawClaims, envelope, hverified⟩
          have h := attemptCandidate_verified_iff.mpr ⟨decoded, hverified⟩
          rw [hattempt] at h
          exact ⟨rawClaims, envelope, Except.ok.inj h⟩
        · rintro ⟨rawClaims, envelope, rfl⟩
          obtain ⟨decoded, hverified⟩ := attemptCandidate_verified_iff.mp hattempt
          exact ⟨decoded, rawClaims, envelope, hverified⟩

/-- The loop returns exactly when what escapes it is shielded. -/
theorem selectCandidate_returns_iff {lib : CryptoLib Token} {token : Token}
    {now : ℚ} {candidates : List Candidate}
    (expiredSeen kidMismatchSeen : Bool) :
    (∃ selection, selectCandidate lib token now expiredSeen kidMismatchSeen
        candidates = .ok selection) ↔
      EscapesShielded lib token now candidates := by
  induction candidates generalizing expiredSeen kidMismatchSeen with
  | nil =>
      refine iff_of_true ⟨_, rfl⟩ fun past candidate later hsplit => ?_
      exact absurd hsplit.symm (by simp)
  | cons head rest ih =>
      rw [escapesShielded_cons, selectCandidate]
      rcases attemptCandidate_cases lib token now head with
        ⟨exc, hattempt, hescape⟩ | ⟨attempt, hattempt, hescape, hverifies⟩
      · rw [hattempt, error_bind]
        simp [hescape]
      · rw [hattempt, ok_bind]
        cases attempt with
        | verified rawClaims envelope =>
            exact iff_of_true ⟨_, rfl⟩
              ⟨hescape, Or.inl (hverifies.mpr ⟨_, _, rfl⟩)⟩
        | expired => simpa [hescape, hverifies] using ih true kidMismatchSeen
        | kidMismatch => simpa [hescape, hverifies] using ih expiredSeen true
        | noMatch => simpa [hescape, hverifies] using ih expiredSeen kidMismatchSeen

/-- A malformed environment value reads as no issuers. -/
theorem loadTrustedIssuers_returns {lib : CryptoLib Token}
    {interp : PyJson.Interpreter} (hjson : lib.jsonLoads = PyJson.loads interp)
    (env : Env) (explicit : PyVal) :
    ∃ issuers, loadTrustedIssuers lib env explicit = .ok issuers := by
  cases explicit with
  | dict raw => exact ⟨_, rfl⟩
  | pyNone =>
      have hread : RaisesOnly (fun exc => isConfigError exc = true)
          (sanitizeIssuerConfigJson env.trustedIssuers >>= lib.jsonLoads) := by
        rw [hjson]
        apply RaisesOnly.bind
        · rw [sanitizeIssuerConfigJson]
          split_ifs <;> first | exact .ok _ | exact .error rfl
        · intro text _ exc h
          rcases PyJson.loads_raises interp text exc h with h | h | h <;>
            simp [isConfigError, h]
      rw [loadTrustedIssuers]
      split_ifs with hblank
      · exact ⟨[], rfl⟩
      · split
        next raw _ => exact ⟨_, rfl⟩
        next => exact ⟨_, rfl⟩
        next exc herror => exact ⟨[], if_pos (hread exc herror)⟩
  | _ => exact ⟨_, rfl⟩

theorem candidateKeys_of_noCrypto {lib : CryptoLib Token} {env : Env}
    {service : A2ACryptoService R} {trustedIssuers : PyVal}
    {candidates : List Candidate} (hcrypto : lib.hasCrypto = false)
    (h : candidateKeys lib env service trustedIssuers = .ok candidates) :
    candidates = [] := by
  obtain ⟨issuers, hload, rfl⟩ := candidateKeys_ok_iff.mp h
  obtain ⟨raw, rfl⟩ := loadTrustedIssuers_ok hload
  have hkey : ∀ jwk, jwkToPublicPem lib jwk = none := by
    intro jwk
    cases jwk <;> simp [jwkToPublicPem, hcrypto]
  have hissuers : collectIssuers lib raw = [] := by
    apply List.eq_nil_iff_forall_not_mem.mpr
    intro issuer hissuer
    obtain ⟨item, _, hnormal⟩ := mem_collectIssuers hissuer
    obtain ⟨entries, _, _, _, hkeys⟩ := normalizeIssuerEntry_eq_some hnormal
    exact issuer.2.keysUsable (by simp [hkeys, usableKeys, hkey])
  have hlocal : localCandidates lib env service = [] := by
    simp [localCandidates, ensureKeyPair, hcrypto]
  simp [ownedKeys, configuredKeys, hissuers, hlocal]

/-- Behind the loop only the payload's hash could raise. -/
theorem checkBeforeReplay_returns {lib : CryptoLib Token} {issuerId : PyStr}
    {context : AttestationContext} (deployment : PyStr) (rawClaims : PyDict)
    (envelope : AttestationEnvelope)
    (hpayload : ∃ hash, payloadHash lib context.payload = .ok hash) :
    ∃ outcome, checkBeforeReplay lib issuerId context deployment rawClaims
      envelope = .ok outcome := by
  obtain ⟨hash, hhash⟩ := hpayload
  rw [checkBeforeReplay]
  split
  · exact ⟨_, rfl⟩
  · simp only [hhash, ok_bind]
    split_ifs <;> exact ⟨_, rfl⟩

/-- The steps before the registry return exactly when the loop does. -/
theorem beginVerification_returns_iff {lib : CryptoLib Token} {env : Env}
    {service : A2ACryptoService R} (token : Token) {context : AttestationContext}
    {trustedIssuers : PyVal} (decodeNow : ℚ) {candidates : List Candidate}
    (hcandidates : candidateKeys lib env service trustedIssuers = .ok candidates)
    (hpayload : ∃ hash, payloadHash lib context.payload = .ok hash) :
    (∃ outcome, beginVerification lib env service token context trustedIssuers
        decodeNow = .ok outcome) ↔
      EscapesShielded lib token decodeNow candidates := by
  rw [← selectCandidate_returns_iff false false, beginVerification]
  cases hcrypto : lib.hasCrypto with
  | false =>
      obtain rfl := candidateKeys_of_noCrypto hcrypto hcandidates
      exact iff_of_true ⟨_, rfl⟩ ⟨_, rfl⟩
  | true =>
      rw [hcandidates]
      cases hempty : candidates.isEmpty with
      | true =>
          obtain rfl := List.isEmpty_iff.mp hempty
          exact iff_of_true ⟨_, rfl⟩ ⟨_, rfl⟩
      | false =>
          simp only [Bool.not_true, Bool.false_eq_true, if_false, ok_bind, hempty]
          constructor
          · rintro ⟨outcome, h⟩
            obtain ⟨selection, hselect, _⟩ := bind_eq_ok.mp h
            exact ⟨selection, hselect⟩
          · rintro ⟨selection, hselect⟩
            rw [hselect, ok_bind]
            cases selection with
            | rejected reason => exact ⟨_, rfl⟩
            | verified candidate rawClaims envelope =>
                exact checkBeforeReplay_returns candidate.deployment rawClaims
                  envelope hpayload

/-- Where decoding escapes under every key, the verification raises with any key to
try. -/
theorem not_returnsTriple_of_escapes [ReplayRegistry R] {lib : CryptoLib Token}
    {env : Env} {service : A2ACryptoService R} {token : Token}
    {context : AttestationContext} {trustedIssuers : PyVal} {decodeNow : ℚ}
    {candidates : List Candidate} (registerNow : ℚ)
    (hcandidates : candidateKeys lib env service trustedIssuers = .ok candidates)
    (hpayload : ∃ hash, payloadHash lib context.payload = .ok hash)
    (hsome : candidates ≠ [])
    (hescapes : ∀ pem, EscapesDecode lib token decodeNow pem) :
    ¬ ReturnsTriple lib env service token context trustedIssuers decodeNow
      registerNow := by
  rintro ⟨result, registry, hverify, _⟩
  obtain ⟨outcome, houtcome, _⟩ := bind_eq_ok.mp hverify
  have hshielded := (beginVerification_returns_iff token decodeNow hcandidates hpayload).mp
    ⟨outcome, houtcome⟩
  obtain ⟨head, rest, rfl⟩ := List.exists_cons_of_ne_nil hsome
  exact (escapesShielded_cons.mp hshielded).1 (hescapes head.pem)

namespace Reference

def interp : PyJson.Interpreter where
  floatRepr _ := []
  depth := 1000

/-- The text is encoded before anything else is looked at.  No text carries a
signature here. -/
def decodeText (token : PyStr) : Except DecodeError DecodedToken :=
  if isUnicode token then .error .invalidToken
  else
    .error (.uncaught ⟨.other (py "UnicodeEncodeError"),
      py "'utf-8' codec can't encode character: surrogates not allowed"⟩)

def textLib : CryptoLib PyStr where
  hasCrypto := true
  decodeComplete token _ _ := decodeText token
  encode _ _ _ := .error ⟨.typeError, py "Expecting a PEM-formatted key."⟩
  loadPemPrivateKey := loadPemPrivateKey
  onCurve := lib.onCurve
  publicPem := publicPem
  derFingerprint := lib.derFingerprint
  sha256Hex := lib.sha256Hex
  jsonLoads := PyJson.loads interp
  coerceNumericDate _ := none
  jsonDepth := 100
  sizeDepth := 101

theorem escapesDecode_iff {token pem : PyStr} {now : ℚ} :
    EscapesDecode textLib token now pem ↔ isUnicode token = false := by
  change (∃ exc, decodeText token = .error (.uncaught exc)) ↔ _
  rw [decodeText]
  cases isUnicode token <;> simp

end Reference

/-- `verify_attestation` returns its triple, a denial for whatever no key
verifies as well-typed, exactly when an exception that decoding lets through is
only met behind a key that verifies. -/
theorem verify_attestation_returns_iff [ReplayRegistry R] {lib : CryptoLib Token}
    {interp : PyJson.Interpreter} (hjson : lib.jsonLoads = PyJson.loads interp)
    (env : Env) (service : A2ACryptoService R) (token : Token)
    (context : AttestationContext) (trustedIssuers : PyVal)
    (decodeNow registerNow : ℚ)
    (hpayload : ∃ hash, payloadHash lib context.payload = .ok hash) :
    ReturnsTriple lib env service token context trustedIssuers decodeNow
        registerNow ↔
      ∀ candidates, candidateKeys lib env service trustedIssuers =
        .ok candidates → EscapesShielded lib token decodeNow candidates := by
  obtain ⟨issuers, hload⟩ := loadTrustedIssuers_returns hjson env trustedIssuers
  have hcandidates : candidateKeys lib env service trustedIssuers =
      .ok (ownedKeys lib env service issuers) :=
    candidateKeys_ok_iff.mpr ⟨issuers, hload, rfl⟩
  have hbegin := beginVerification_returns_iff token decodeNow hcandidates hpayload
  constructor
  · rintro ⟨result, registry, hverify, _⟩ candidates h
    rw [hcandidates] at h
    cases h
    obtain ⟨outcome, houtcome, _⟩ := bind_eq_ok.mp hverify
    exact hbegin.mp ⟨outcome, houtcome⟩
  · intro hshielded
    obtain ⟨outcome, houtcome⟩ := hbegin.mpr (hshielded _ hcandidates)
    rw [ReturnsTriple, verifyAttestation, houtcome, ok_bind]
    cases outcome with
    | error reason => exact ⟨_, _, rfl, fun _ => ⟨⟨reason, rfl⟩, rfl⟩⟩
    | ok pending =>
        refine ⟨_, _, rfl, fun hmalformed => absurd ?_ hmalformed⟩
        obtain ⟨issuers', candidate, decoded, claims, hreach⟩ :=
          beginVerification_ok houtcome
        exact ⟨_, candidate, decoded, pending.rawClaims, pending.envelope, claims,
          candidateKeys_ok_iff.mpr ⟨issuers', hreach.loaded, rfl⟩, hreach.owned,
          hreach.verified, hreach.parsed⟩

/-- A text that is no token gets its denial. -/
theorem verify_attestation_returns_iff_junk :
    ReturnsTriple Reference.textLib Reference.env Reference.service
      (py "e30.e30.AA") Reference.context .pyNone 0 0 := by
  refine (verify_attestation_returns_iff rfl Reference.env Reference.service
    (py "e30.e30.AA") Reference.context .pyNone 0 0 ⟨_, rfl⟩).mpr ?_
  intro candidates _ past candidate later _ hescape
  exact absurd (Reference.escapesDecode_iff.mp hescape) (by decide)

/-- A token that is a lone surrogate raises out of the verification: no handler names
UnicodeEncodeError. -/
theorem surrogate_escapes :
    Reference.textLib.jsonLoads = PyJson.loads Reference.interp ∧
    (∃ hash, payloadHash Reference.textLib Reference.context.payload =
      .ok hash) ∧
    ¬ ReturnsTriple Reference.textLib Reference.env Reference.service
      [0xD800] Reference.context .pyNone 0 0 :=
  ⟨rfl, ⟨_, rfl⟩, not_returnsTriple_of_escapes 0
    (candidateKeys_ok_iff.mpr ⟨[], rfl, rfl⟩) ⟨_, rfl⟩ (by decide +kernel) fun _ =>
      Reference.escapesDecode_iff.mpr (by decide)⟩

end QwedA2A
