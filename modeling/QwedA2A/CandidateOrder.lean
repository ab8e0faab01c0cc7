/-
Key order and entry order.  Trusted issuers may list their keys in any order,
and the mapping its entries, without a change in what a verification answers or
in the registry it leaves: the loop's outcome depends on which candidates
verify, and never on which of them is tried first.
-/
import QwedA2A.IssuerBinding
import QwedA2A.ReplayKeys

namespace QwedA2A

variable {Token R : Type}

/-- A public key either verifies a token's signature or not.  Keys that verify
it decode it alike; the others refuse it, before its dates are looked at, and an
exception outside the handlers is raised before any key is tried. -/
structure CryptoLib.DecodesByKey (lib : CryptoLib Token)
    (verifies : Token → PublicKey → Prop) : Prop where
  verified : ∀ token key other now, verifies token key → verifies token other →
    lib.decodeComplete token (lib.publicPem key) now =
      lib.decodeComplete token (lib.publicPem other) now
  refused : ∀ token key now, ¬ verifies token key →
    ∃ failure, failure ≠ .expiredSignature ∧
      lib.decodeComplete token (lib.publicPem key) now = .error failure
  unsigned : ∀ token key other now exc, ¬ verifies token key →
    lib.decodeComplete token (lib.publicPem key) now = .error (.uncaught exc) →
      lib.decodeComplete token (lib.publicPem other) now =
        .error (.uncaught exc)

def Selection.decision :
    Selection → Except PyStr (PyStr × PyDict × AttestationEnvelope)
  | .verified candidate rawClaims envelope =>
      .ok (candidate.deployment, rawClaims, envelope)
  | .rejected reason => .error reason

/-- The end of the candidate loop, up to the key that decided. -/
def loopDecision (lib : CryptoLib Token) (token : Token) (now : ℚ)
    (expiredSeen kidMismatchSeen : Bool) (candidates : List Candidate) :
    Except PyExc (Except PyStr (PyStr × PyDict × AttestationEnvelope)) :=
  (selectCandidate lib token now expiredSeen kidMismatchSeen candidates).map
    Selection.decision

/-- Two candidates that may be tried in either order. -/
structure Interchangeable (lib : CryptoLib Token) (token : Token) (now : ℚ)
    (candidate other : Candidate) : Prop where
  raised : ∀ exc, attemptCandidate lib token now candidate = .error exc →
    attemptCandidate lib token now other = .error exc ∨
      attemptCandidate lib token now other = .ok .noMatch
  verified : ∀ rawClaims envelope rawClaims' envelope',
    attemptCandidate lib token now candidate =
        .ok (.verified rawClaims envelope) →
      attemptCandidate lib token now other =
          .ok (.verified rawClaims' envelope') →
        candidate.deployment = other.deployment ∧ rawClaims = rawClaims' ∧
          envelope = envelope'

theorem loopDecision_of_verified {lib : CryptoLib Token} {token : Token}
    {now : ℚ} {candidate : Candidate} {rawClaims : PyDict}
    {envelope : AttestationEnvelope}
    (h : attemptCandidate lib token now candidate =
      .ok (.verified rawClaims envelope))
    (expiredSeen kidMismatchSeen : Bool) (rest : List Candidate) :
    loopDecision lib token now expiredSeen kidMismatchSeen (candidate :: rest) =
      .ok (.ok (candidate.deployment, rawClaims, envelope)) := by
  rw [loopDecision, selectCandidate, h]
  rfl

theorem loopDecision_cons_congr {lib : CryptoLib Token} {token : Token} {now : ℚ}
    {rest rest' : List Candidate}
    (h : ∀ expiredSeen kidMismatchSeen,
      loopDecision lib token now expiredSeen kidMismatchSeen rest =
        loopDecision lib token now expiredSeen kidMismatchSeen rest')
    (candidate : Candidate) (expiredSeen kidMismatchSeen : Bool) :
    loopDecision lib token now expiredSeen kidMismatchSeen (candidate :: rest) =
      loopDecision lib token now expiredSeen kidMismatchSeen
        (candidate :: rest') := by
  rw [loopDecision, selectCandidate, loopDecision, selectCandidate]
  cases attemptCandidate lib token now candidate with
  | error exc => rfl
  | ok attempt =>
      cases attempt with
      | verified rawClaims envelope => rfl
      | kidMismatch => exact h expiredSeen true
      | expired => exact h true kidMismatchSeen
      | noMatch => exact h expiredSeen kidMismatchSeen

theorem loopDecision_append_congr {lib : CryptoLib Token} {token : Token}
    {now : ℚ} {rest rest' : List Candidate} (front : List Candidate)
    (h : ∀ expiredSeen kidMismatchSeen,
      loopDecision lib token now expiredSeen kidMismatchSeen rest =
        loopDecision lib token now expiredSeen kidMismatchSeen rest') :
    ∀ expiredSeen kidMismatchSeen,
      loopDecision lib token now expiredSeen kidMismatchSeen (front ++ rest) =
        loopDecision lib token now expiredSeen kidMismatchSeen
          (front ++ rest') := by
  induction front with
  | nil => exact h
  | cons candidate front ih => exact loopDecision_cons_congr ih candidate

/-- Neighbours that are interchangeable can be swapped. -/
theorem loopDecision_swap {lib : CryptoLib Token} {token : Token} {now : ℚ}
    {candidate other : Candidate}
    (h : Interchangeable lib token now candidate other)
    (h' : Interchangeable lib token now other candidate)
    (expiredSeen kidMismatchSeen : Bool) (rest : List Candidate) :
    loopDecision lib token now expiredSeen kidMismatchSeen
        (candidate :: other :: rest) =
      loopDecision lib token now expiredSeen kidMismatchSeen
        (other :: candidate :: rest) := by
  cases hattempt : attemptCandidate lib token now candidate with
  | error exc =>
      rcases h.raised exc hattempt with hother | hother <;>
        simp [loopDecision, selectCandidate, hattempt, hother]
  | ok attempt =>
      cases hother : attemptCandidate lib token now other with
      | error exc =>
          rcases h'.raised exc hother with hfirst | hfirst
          · rw [hattempt] at hfirst
            cases hfirst
          · simp [loopDecision, selectCandidate, hfirst, hother]
      | ok attempt' =>
          cases attempt with
          | verified rawClaims envelope =>
              cases attempt' with
              | verified rawClaims' envelope' =>
                  obtain ⟨hdeployment, rfl, rfl⟩ :=
                    h.verified _ _ _ _ hattempt hother
                  rw [loopDecision_of_verified hattempt,
                    loopDecision_of_verified hother, hdeployment]
              | _ => simp [loopDecision, selectCandidate, hattempt, hother]
          | _ =>
              cases attempt' <;>
                simp [loopDecision, selectCandidate, hattempt, hother]

/-- The loop ends alike on every order of interchangeable candidates. -/
theorem loopDecision_perm {lib : CryptoLib Token} {token : Token} {now : ℚ}
    {candidates candidates' : List Candidate}
    (hperm : candidates.Perm candidates')
    (h : ∀ candidate ∈ candidates, ∀ other ∈ candidates,
      Interchangeable lib token now candidate other)
    (expiredSeen kidMismatchSeen : Bool) :
    loopDecision lib token now expiredSeen kidMismatchSeen candidates =
      loopDecision lib token now expiredSeen kidMismatchSeen candidates' := by
  induction hperm generalizing expiredSeen kidMismatchSeen with
  | nil => rfl
  | cons candidate _ ih =>
      refine loopDecision_cons_congr (ih fun first hfirst second hsecond => ?_)
        candidate expiredSeen kidMismatchSeen
      exact h first (List.mem_cons_of_mem _ hfirst) second
        (List.mem_cons_of_mem _ hsecond)
  | swap candidate other rest =>
      have hcandidate : candidate ∈ other :: candidate :: rest :=
        List.mem_cons_of_mem _ List.mem_cons_self
      exact loopDecision_swap (h other List.mem_cons_self candidate hcandidate)
        (h candidate hcandidate other List.mem_cons_self) _ _ rest
  | trans hfirst _ ih ih' =>
      rw [ih h, ih' fun first hmem second hmem' =>
        h first (hfirst.mem_iff.mpr hmem) second (hfirst.mem_iff.mpr hmem')]

/-- Checks that read the decision only end alike after both loops. -/
theorem bind_eq_of_decision {β : Type} {x y : Except PyExc Selection}
    (h : x.map Selection.decision = y.map Selection.decision)
    {check : Selection → Except PyExc β}
    (hcheck : ∀ candidate other rawClaims envelope,
      candidate.deployment = other.deployment →
        check (.verified candidate rawClaims envelope) =
          check (.verified other rawClaims envelope)) :
    (x >>= check) = (y >>= check) := by
  cases x with
  | error exc =>
      cases y with
      | error exc' => exact congrArg Except.error (Except.error.inj h)
      | ok selection => cases h
  | ok selection =>
      cases y with
      | error exc => cases h
      | ok selection' =>
          have hdecision := Except.ok.inj h
          cases selection with
          | rejected reason =>
              cases selection' with
              | rejected reason' =>
                  cases hdecision
                  rfl
              | verified other rawClaims' envelope' => cases hdecision
          | verified candidate rawClaims envelope =>
              cases selection' with
              | rejected reason' => cases hdecision
              | verified other rawClaims' envelope' =>
                  obtain ⟨hdeployment, rfl, rfl⟩ :
                      candidate.deployment = other.deployment ∧
                        rawClaims = rawClaims' ∧ envelope = envelope' := by
                    simpa [Selection.decision] using hdecision
                  exact hcheck candidate other rawClaims envelope hdeployment

/-- A refusal that no handler lets through is no match. -/
theorem attemptCandidate_noMatch {lib : CryptoLib Token} {token : Token}
    {now : ℚ} {candidate : Candidate} {failure : DecodeError}
    (h : lib.decodeComplete token candidate.pem now = .error failure)
    (hexpired : failure ≠ .expiredSignature)
    (huncaught : ∀ exc, failure ≠ .uncaught exc) :
    attemptCandidate lib token now candidate = .ok .noMatch := by
  rw [attemptCandidate, tryCandidateKey, h]
  cases failure with
  | expiredSignature => exact absurd rfl hexpired
  | uncaught exc => exact absurd rfl (huncaught exc)
  | _ => rfl

/-- Candidates with public keys are interchangeable when those of one issuer
have one deployment. -/
theorem interchangeable_of_decodesByKey {lib : CryptoLib Token}
    {verifies : Token → PublicKey → Prop} (hlib : lib.DecodesByKey verifies)
    (token : Token) (now : ℚ) {candidate other : Candidate}
    {key key' : PublicKey} (hkey : candidate.pem = lib.publicPem key)
    (hkey' : other.pem = lib.publicPem key')
    (hdeployment : candidate.issuer = other.issuer →
      candidate.deployment = other.deployment) :
    Interchangeable lib token now candidate other where
  raised exc hraise := by
    rw [attemptCandidate_error_iff, hkey] at hraise
    by_cases hverifies : verifies token key
    · by_cases hverifies' : verifies token key'
      · left
        rw [attemptCandidate_error_iff, hkey',
          hlib.verified token key' key now hverifies' hverifies, hraise]
      · obtain ⟨failure, hlive, hfail⟩ := hlib.refused token key' now hverifies'
        cases failure with
        | uncaught exc' =>
            have hsame := hlib.unsigned token key' key now exc' hverifies' hfail
            rw [hraise] at hsame
            cases hsame
            left
            rw [attemptCandidate_error_iff, hkey', hfail]
        | _ =>
            right
            exact attemptCandidate_noMatch (hkey' ▸ hfail) hlive (by simp)
    · left
      rw [attemptCandidate_error_iff, hkey']
      exact hlib.unsigned token key key' now exc hverifies hraise
  verified rawClaims envelope rawClaims' envelope' hfirst hsecond := by
    obtain ⟨decoded, hfirst⟩ := attemptCandidate_verified_iff.mp hfirst
    obtain ⟨decoded', hsecond⟩ := attemptCandidate_verified_iff.mp hsecond
    have hverifies : ∀ key decoded,
        lib.decodeComplete token (lib.publicPem key) now = .ok decoded →
          verifies token key := by
      intro key decoded hdecode
      by_contra hrefused
      obtain ⟨failure, _, hfail⟩ := hlib.refused token key now hrefused
      rw [hdecode] at hfail
      cases hfail
    have hdecode := hkey ▸ hfirst.signature
    have hdecode' := hkey' ▸ hsecond.signature
    rw [hlib.verified token key key' now (hverifies key decoded hdecode)
      (hverifies key' decoded' hdecode'), hdecode'] at hdecode
    cases hdecode
    have hraw : rawClaims = rawClaims' :=
      PyVal.dict.inj (hfirst.payload.symm.trans hsecond.payload)
    subst hraw
    have henvelope : envelope = envelope' :=
      Option.some.inj (hfirst.typed.symm.trans hsecond.typed)
    subst henvelope
    exact ⟨hdeployment (hfirst.issuer.symm.trans hsecond.issuer), rfl, rfl⟩

/-- The peers' candidates may be permuted behind the local key. -/
theorem ownedKeys_perm {lib : CryptoLib Token} (env : Env)
    (service : A2ACryptoService R) {issuers issuers' : Issuers}
    (hperm : (issuers.flatMap issuerCandidates).Perm
      (issuers'.flatMap issuerCandidates))
    (howner : ∀ candidate ∈ configuredKeys lib env service issuers,
      firstOwner lib (configuredKeys lib env service issuers) candidate.pem =
        firstOwner lib (configuredKeys lib env service issuers') candidate.pem) :
    ∃ front rest rest', ownedKeys lib env service issuers = front ++ rest ∧
      ownedKeys lib env service issuers' = front ++ rest' ∧
      rest.Perm rest' ∧ ∀ candidate ∈ rest,
        candidate ∈ issuers.flatMap issuerCandidates := by
  let owned := fun (found : Issuers) (candidate : Candidate) =>
    decide (firstOwner lib (configuredKeys lib env service found) candidate.pem =
      some candidate.issuer)
  have hkept : ∀ candidate ∈ configuredKeys lib env service issuers,
      owned issuers candidate = owned issuers' candidate :=
    fun candidate hmem => by simp only [owned, howner candidate hmem]
  have hfront : (localCandidates lib env service).filter (owned issuers) =
      (localCandidates lib env service).filter (owned issuers') :=
    List.filter_congr fun candidate hmem =>
      hkept candidate (List.mem_append_left _ hmem)
  have hrest : (issuers.flatMap issuerCandidates).filter (owned issuers) =
      (issuers.flatMap issuerCandidates).filter (owned issuers') :=
    List.filter_congr fun candidate hmem =>
      hkept candidate (List.mem_append_right _ hmem)
  refine ⟨(localCandidates lib env service).filter (owned issuers),
    (issuers.flatMap issuerCandidates).filter (owned issuers),
    (issuers'.flatMap issuerCandidates).filter (owned issuers'),
    List.filter_append .., ?_, ?_, fun candidate hmem =>
      (List.mem_filter.mp hmem).1⟩
  · rw [hfront]
    exact List.filter_append ..
  · rw [hrest]
    exact hperm.filter _

/-- The mapping the trusted issuers are read from: the explicit one, or the
environment's when it is None. -/
def trustedMapping (lib : CryptoLib Token) (env : Env) (explicit : PyVal) :
    Except PyExc PyDict :=
  match explicit with
  | .dict raw => .ok raw
  | .pyNone =>
      if (strip env.trustedIssuers).isEmpty then .ok []
      else
        match sanitizeIssuerConfigJson env.trustedIssuers >>= lib.jsonLoads with
        | .ok (.dict raw) => .ok raw
        | .ok _ => .ok []
        | .error exc => if isConfigError exc then .ok [] else .error exc
  | _ => .ok []

theorem loadTrustedIssuers_of_mapping {lib : CryptoLib Token} {env : Env}
    {explicit : PyVal} {mapping : PyDict}
    (h : trustedMapping lib env explicit = .ok mapping) :
    loadTrustedIssuers lib env explicit = .ok (collectIssuers lib mapping) := by
  cases explicit with
  | dict raw =>
      cases h
      rfl
  | pyNone =>
      rw [trustedMapping] at h
      rw [loadTrustedIssuers]
      split_ifs at h ⊢ with hblank
      · cases h
        rfl
      · cases hread : sanitizeIssuerConfigJson env.trustedIssuers >>=
            lib.jsonLoads with
        | ok value =>
            rw [hread] at h
            cases value <;> cases h <;> rfl
        | error exc =>
            simp only [hread] at h
            split_ifs at h with hconfig
            cases h
            exact if_pos hconfig
  | _ =>
      cases h
      rfl

theorem peerCandidate_isPublicPem {lib : CryptoLib Token} {mapping : PyDict}
    {issuer : PyStr × IssuerEntry} (hissuer : issuer ∈ collectIssuers lib mapping)
    {candidate : Candidate} (hmem : candidate ∈ issuerCandidates issuer) :
    IsPublicPem lib candidate.pem := by
  obtain ⟨item, _, hnormal⟩ := mem_collectIssuers hissuer
  obtain ⟨key, hkey, rfl⟩ := List.mem_map.mp hmem
  exact normalizeIssuerEntry_keys hnormal key hkey

/-- Two mappings of the environment or of the caller, behind which the peers'
candidates come in another order only, answer alike. -/
theorem beginVerification_of_perm {lib : CryptoLib Token}
    {verifies : Token → PublicKey → Prop} (hlib : lib.DecodesByKey verifies)
    {env env' : Env} {service : A2ACryptoService R} (token : Token)
    (context : AttestationContext) (decodeNow : ℚ) {explicit explicit' : PyVal}
    {mapping mapping' : PyDict}
    (hmapping : trustedMapping lib env explicit = .ok mapping)
    (hmapping' : trustedMapping lib env' explicit' = .ok mapping')
    {front rest rest' : List Candidate}
    (howned : ownedKeys lib env service (collectIssuers lib mapping) =
      front ++ rest)
    (howned' : ownedKeys lib env' service (collectIssuers lib mapping') =
      front ++ rest')
    (hperm : rest.Perm rest')
    (hrest : ∀ candidate ∈ rest,
      candidate ∈ (collectIssuers lib mapping).flatMap issuerCandidates) :
    beginVerification lib env service token context explicit decodeNow =
      beginVerification lib env' service token context explicit' decodeNow := by
  have hinterchangeable : ∀ candidate ∈ rest, ∀ other ∈ rest,
      Interchangeable lib token decodeNow candidate other := by
    intro candidate hmem other hmem'
    obtain ⟨issuer, hissuer, hcandidate⟩ :=
      List.mem_flatMap.mp (hrest candidate hmem)
    obtain ⟨issuer', hissuer', hother⟩ :=
      List.mem_flatMap.mp (hrest other hmem')
    obtain ⟨key, _, hkey⟩ := peerCandidate_isPublicPem hissuer hcandidate
    obtain ⟨key', _, hkey'⟩ := peerCandidate_isPublicPem hissuer' hother
    exact interchangeable_of_decodesByKey hlib token decodeNow hkey hkey'
      (issuerCandidates_deployment (collectIssuers_nodup lib mapping) hissuer
        hissuer' hcandidate hother)
  have hloop := loopDecision_append_congr front
    (loopDecision_perm hperm hinterchangeable) false false
  have hempty : (front ++ rest).isEmpty = (front ++ rest').isEmpty :=
    (hperm.append_left front).isEmpty_eq
  rw [beginVerification, beginVerification,
    candidateKeys_ok_iff.mpr ⟨_, loadTrustedIssuers_of_mapping hmapping, rfl⟩,
    candidateKeys_ok_iff.mpr ⟨_, loadTrustedIssuers_of_mapping hmapping', rfl⟩,
    howned, howned', ok_bind, ok_bind, hempty]
  split_ifs with hcrypto hnone
  · rfl
  · rfl
  · exact bind_eq_of_decision hloop fun _ _ _ _ hdeployment => by
      simp only [hdeployment]

/-- One entry of two mappings: the same, up to the order of its JWKS list. -/
def SameUpToKeyOrder (item item' : PyVal × PyVal) : Prop :=
  item.1 = item'.1 ∧
    (item.2 = item'.2 ∨
      ∃ entry entry', item.2 = .dict entry ∧ item'.2 = .dict entry' ∧
        dictGet entry (py "deployment_id") =
          dictGet entry' (py "deployment_id") ∧
        (entryKeys entry).Perm (entryKeys entry'))

/-- One issuer of two registries: the same, up to the order of its keys. -/
structure SameIssuer (issuer issuer' : PyStr × IssuerEntry) : Prop where
  issuerId : issuer.1 = issuer'.1
  deployment : issuer.2.deploymentId = issuer'.2.deploymentId
  keys : issuer.2.keys.Perm issuer'.2.keys

theorem SameIssuer.refl (issuer : PyStr × IssuerEntry) :
    SameIssuer issuer issuer :=
  ⟨rfl, rfl, List.Perm.refl _⟩

/-- An entry is usable, and stays the same up to key order, whatever the order
of its keys. -/
theorem normalizeIssuerEntry_sameIssuer (lib : CryptoLib Token)
    {item item' : PyVal × PyVal} (h : SameUpToKeyOrder item item') :
    Option.Rel SameIssuer (normalizeIssuerEntry lib item.1 item.2)
      (normalizeIssuerEntry lib item'.1 item'.2) := by
  obtain ⟨issuerId, found⟩ := item
  obtain ⟨issuerId', found'⟩ := item'
  obtain ⟨hid, hentry⟩ := h
  cases hid
  rcases hentry with hsame | ⟨entry, entry', hentry, hentry', hdeployment, hkeys⟩
  · cases hsame
    cases normalizeIssuerEntry lib issuerId found with
    | none => exact Option.Rel.none
    | some issuer => exact Option.Rel.some (SameIssuer.refl issuer)
  · cases hentry
    cases hentry'
    have husable : (usableKeys lib (entryKeys entry)).Perm
        (usableKeys lib (entryKeys entry')) := hkeys.filterMap _
    have hnone : usableKeys lib (entryKeys entry) = [] ↔
        usableKeys lib (entryKeys entry') = [] :=
      ⟨fun h => List.Perm.eq_nil (h ▸ husable.symm),
        fun h => List.Perm.eq_nil (h ▸ husable)⟩
    cases issuerId with
    | str issuer =>
        simp only [normalizeIssuerEntry, hdeployment]
        cases dictGet entry' (py "deployment_id") with
        | none => exact Option.Rel.none
        | some value =>
            cases value with
            | str deploymentId =>
                simp only [ne_eq, hnone]
                split_ifs with hvalid
                · exact Option.Rel.some ⟨rfl, rfl, husable⟩
                · exact Option.Rel.none
            | _ => exact Option.Rel.none
    | _ => exact Option.Rel.none

theorem setIssuer_sameIssuer {issuers issuers' : Issuers}
    (h : List.Forall₂ SameIssuer issuers issuers') {issuer issuer' : PyStr × IssuerEntry}
    (hsame : SameIssuer issuer issuer') :
    List.Forall₂ SameIssuer (setIssuer issuers issuer.1 issuer.2)
      (setIssuer issuers' issuer'.1 issuer'.2) := by
  have hknown : (issuers.any fun found => found.1 = issuer.1) =
      issuers'.any fun found => found.1 = issuer'.1 := by
    rw [hsame.issuerId]
    induction h with
    | nil => rfl
    | cons hhead _ ih => rw [List.any_cons, List.any_cons, ih, hhead.issuerId]
  rw [setIssuer, setIssuer, hknown]
  split_ifs
  · refine List.forall₂_map_left_iff.mpr (List.forall₂_map_right_iff.mpr ?_)
    refine h.imp fun found found' hfound => ?_
    rw [hfound.issuerId, hsame.issuerId]
    split_ifs
    · exact ⟨rfl, hsame.deployment, hsame.keys⟩
    · exact hfound
  · exact List.rel_append h (List.Forall₂.cons hsame List.Forall₂.nil)

/-- Permuting keys inside the entries permutes keys inside the issuers. -/
theorem collectIssuers_sameIssuer (lib : CryptoLib Token)
    {mapping mapping' : PyDict}
    (h : List.Forall₂ SameUpToKeyOrder mapping mapping') :
    List.Forall₂ SameIssuer (collectIssuers lib mapping)
      (collectIssuers lib mapping') := by
  refine List.rel_foldl ?_ List.Forall₂.nil h
  intro issuers issuers' hissuers item item' hitem
  have hnormal := normalizeIssuerEntry_sameIssuer lib hitem
  simp only
  generalize normalizeIssuerEntry lib item.1 item.2 = found at hnormal ⊢
  generalize normalizeIssuerEntry lib item'.1 item'.2 = found' at hnormal ⊢
  cases hnormal with
  | none => exact hissuers
  | some hsame => exact setIssuer_sameIssuer hissuers hsame

/-- The candidates of one issuer come in the order of its keys. -/
theorem issuerCandidates_perm {issuer issuer' : PyStr × IssuerEntry}
    (h : SameIssuer issuer issuer') :
    (issuerCandidates issuer).Perm (issuerCandidates issuer') := by
  rw [issuerCandidates, h.issuerId, h.deployment, issuerCandidates]
  exact h.keys.map _

theorem flatMap_issuerCandidates_perm {issuers issuers' : Issuers}
    (h : List.Forall₂ SameIssuer issuers issuers') :
    (issuers.flatMap issuerCandidates).Perm
      (issuers'.flatMap issuerCandidates) := by
  induction h with
  | nil => exact List.Perm.refl _
  | cons hhead _ ih =>
      rw [List.flatMap_cons, List.flatMap_cons]
      exact (issuerCandidates_perm hhead).append ih

theorem firstOwner_of_issuer (lib : CryptoLib Token) {candidates : List Candidate}
    {issuer : PyStr} (h : ∀ candidate ∈ candidates, candidate.issuer = issuer)
    (pem : PyStr) :
    firstOwner lib candidates pem =
      if candidates.any fun candidate =>
          pemFingerprint lib candidate.pem = pemFingerprint lib pem then
        some issuer
      else none := by
  rw [firstOwner]
  cases hfind : candidates.find? fun candidate =>
      pemFingerprint lib candidate.pem = pemFingerprint lib pem with
  | none =>
      rw [if_neg]
      · rfl
      · rw [List.any_eq_true]
        rintro ⟨candidate, hmem, hsame⟩
        exact List.find?_eq_none.mp hfind candidate hmem hsame
  | some found =>
      rw [if_pos]
      · rw [Option.map_some, h found (List.mem_of_find?_eq_some hfind)]
      · exact List.any_eq_true.mpr ⟨found, List.mem_of_find?_eq_some hfind,
          by simpa using List.find?_some hfind⟩

theorem firstOwner_issuerCandidates (lib : CryptoLib Token)
    {issuer issuer' : PyStr × IssuerEntry} (h : SameIssuer issuer issuer')
    (pem : PyStr) :
    firstOwner lib (issuerCandidates issuer) pem =
      firstOwner lib (issuerCandidates issuer') pem := by
  have hissuer : ∀ found : PyStr × IssuerEntry,
      ∀ candidate ∈ issuerCandidates found, candidate.issuer = found.1 := by
    intro found candidate hmem
    obtain ⟨key, _, rfl⟩ := List.mem_map.mp hmem
    rfl
  rw [firstOwner_of_issuer lib (hissuer issuer),
    firstOwner_of_issuer lib (hissuer issuer'), h.issuerId,
    (issuerCandidates_perm h).any_eq]

/-- The order of an issuer's keys decides no ownership. -/
theorem firstOwner_flatMap (lib : CryptoLib Token) {issuers issuers' : Issuers}
    (h : List.Forall₂ SameIssuer issuers issuers') (pem : PyStr) :
    firstOwner lib (issuers.flatMap issuerCandidates) pem =
      firstOwner lib (issuers'.flatMap issuerCandidates) pem := by
  induction h with
  | nil => rfl
  | cons hhead _ ih =>
      rw [List.flatMap_cons, List.flatMap_cons, firstOwner_append,
        firstOwner_append, ih, firstOwner_issuerCandidates lib hhead]

/-- As in every dictionary, no text key occurs twice. -/
def DistinctIssuerIds (mapping : PyDict) : Prop :=
  (mapping.filterMap fun item => strKey item.1).Nodup

/-- No public key is configured under two identities. -/
def OneIdentityPerKey (configured : List Candidate) : Prop :=
  ∀ candidate ∈ configured, ∀ other ∈ configured,
    candidate.pem = other.pem → candidate.issuer = other.issuer

theorem OneIdentityPerKey.perm {configured configured' : List Candidate}
    (h : OneIdentityPerKey configured) (hperm : configured.Perm configured') :
    OneIdentityPerKey configured' := fun candidate hmem other hmem' =>
  h candidate (hperm.mem_iff.mpr hmem) other (hperm.mem_iff.mpr hmem')

theorem DistinctFingerprints.perm {lib : CryptoLib Token}
    {configured configured' : List Candidate}
    (h : DistinctFingerprints lib configured)
    (hperm : configured.Perm configured') :
    DistinctFingerprints lib configured' := fun candidate hmem other hmem' =>
  h candidate (hperm.mem_iff.mpr hmem) other (hperm.mem_iff.mpr hmem')

/-- Entries under distinct IDs are registered in their order. -/
theorem collectIssuers_eq_filterMap (lib : CryptoLib Token) {mapping : PyDict}
    (h : DistinctIssuerIds mapping) :
    collectIssuers lib mapping =
      mapping.filterMap fun item => normalizeIssuerEntry lib item.1 item.2 := by
  induction mapping using List.reverseRecOn with
  | nil => rfl
  | append_singleton past item ih =>
      rw [DistinctIssuerIds, List.filterMap_append, List.nodup_append] at h
      obtain ⟨hpast, _, hnew⟩ := h
      rw [collectIssuers_append, List.filterMap_append, ih hpast]
      cases hnormal : normalizeIssuerEntry lib item.1 item.2 with
      | none => simp [hnormal]
      | some issuer =>
          obtain ⟨_, hid, _⟩ := normalizeIssuerEntry_eq_some hnormal
          have hunknown : ¬ (past.filterMap fun found =>
              normalizeIssuerEntry lib found.1 found.2).any
                (fun found => found.1 = issuer.1) = true := by
            rw [List.any_eq_true]
            rintro ⟨found, hfound, heq⟩
            obtain ⟨item', hitem', hnormal'⟩ := List.mem_filterMap.mp hfound
            obtain ⟨_, hid', _⟩ := normalizeIssuerEntry_eq_some hnormal'
            refine hnew issuer.1 (List.mem_filterMap.mpr ⟨item', hitem', ?_⟩)
              issuer.1 (by simp [hid, strKey]) rfl
            rw [hid', strKey, of_decide_eq_true heq]
          simp [setIssuer, hunknown, hnormal]

theorem firstOwner_of_oneIdentity {lib : CryptoLib Token}
    {configured : List Candidate} (hone : OneIdentityPerKey configured)
    (hdistinct : DistinctFingerprints lib configured) {candidate : Candidate}
    (hmem : candidate ∈ configured) :
    firstOwner lib configured candidate.pem = some candidate.issuer := by
  obtain ⟨owner, howner⟩ := Option.isSome_iff_exists.mp
    (firstOwner_isSome_of_mem lib hmem)
  rw [howner]
  rw [firstOwner, Option.map_eq_some_iff] at howner
  obtain ⟨first, hfind, rfl⟩ := howner
  have hfirst := List.mem_of_find?_eq_some hfind
  have hfingerprint : pemFingerprint lib first.pem =
      pemFingerprint lib candidate.pem := by simpa using List.find?_some hfind
  rw [hone first hfirst candidate hmem
    (hdistinct first hfirst candidate hmem hfingerprint)]

/-- The registered issuers come in the order of their entries. -/
theorem collectIssuers_perm (lib : CryptoLib Token) {mapping mapping' : PyDict}
    (hperm : mapping.Perm mapping') (h : DistinctIssuerIds mapping) :
    (collectIssuers lib mapping).Perm (collectIssuers lib mapping') := by
  have h' : DistinctIssuerIds mapping' :=
    (hperm.filterMap fun item : PyVal × PyVal => strKey item.1).nodup_iff.mp h
  rw [collectIssuers_eq_filterMap lib h, collectIssuers_eq_filterMap lib h']
  exact hperm.filterMap _

/-- Verification does not depend on the order of the keys inside an issuer's
JWKS list; nor, when no public key is configured under two identities, on the
order of the entries, whether or not one of them reuses the verifier's own
issuer ID.  The mapping may be the caller's or the environment's. -/
theorem verify_attestation_order_independent [ReplayRegistry R]
    {lib : CryptoLib Token} {verifies : Token → PublicKey → Prop}
    (hlib : lib.DecodesByKey verifies) (env : Env)
    (service : A2ACryptoService R) (token : Token)
    (context : AttestationContext) (decodeNow registerNow : ℚ)
    (text text' : PyStr) (explicit explicit' : PyVal) (mapping mapping' : PyDict)
    (hmapping : trustedMapping lib { env with trustedIssuers := text } explicit =
      .ok mapping)
    (hmapping' : trustedMapping lib { env with trustedIssuers := text' }
      explicit' = .ok mapping') :
    (List.Forall₂ SameUpToKeyOrder mapping mapping' →
      verifyAttestation lib { env with trustedIssuers := text } service token
          context explicit decodeNow registerNow =
        verifyAttestation lib { env with trustedIssuers := text' } service token
          context explicit' decodeNow registerNow) ∧
    (mapping.Perm mapping' → DistinctIssuerIds mapping →
      OneIdentityPerKey
          (configuredKeys lib env service (collectIssuers lib mapping)) →
        DistinctFingerprints lib
            (configuredKeys lib env service (collectIssuers lib mapping)) →
          verifyAttestation lib { env with trustedIssuers := text } service token
              context explicit decodeNow registerNow =
            verifyAttestation lib { env with trustedIssuers := text' } service
              token context explicit' decodeNow registerNow) := by
  constructor
  · intro hkeys
    have hissuers := collectIssuers_sameIssuer lib hkeys
    obtain ⟨front, rest, rest', howned, howned', hperm, hrest⟩ :=
      ownedKeys_perm env service
        (flatMap_issuerCandidates_perm hissuers) fun candidate _ => by
          rw [configuredKeys, configuredKeys, firstOwner_append,
            firstOwner_append, firstOwner_flatMap lib hissuers]
    rw [verifyAttestation, beginVerification_of_perm hlib token context decodeNow
      hmapping hmapping' howned howned' hperm hrest, verifyAttestation]
  · intro hentries hids hone hdistinct
    have hpeers := (collectIssuers_perm lib hentries hids).flatMap_right
      issuerCandidates
    have hconfigured :
        (configuredKeys lib env service (collectIssuers lib mapping)).Perm
          (configuredKeys lib env service (collectIssuers lib mapping')) :=
      hpeers.append_left _
    obtain ⟨front, rest, rest', howned, howned', hperm, hrest⟩ :=
      ownedKeys_perm env service hpeers fun candidate hmem => by
        rw [firstOwner_of_oneIdentity hone hdistinct hmem,
          firstOwner_of_oneIdentity (hone.perm hconfigured)
            (hdistinct.perm hconfigured) (hconfigured.mem_iff.mp hmem)]
    rw [verifyAttestation, beginVerification_of_perm hlib token context decodeNow
      hmapping hmapping' howned howned' hperm hrest, verifyAttestation]

namespace Reference

/-- Reference tokens verify under the key text of their signer. -/
theorem decodesByKey :
    lib.DecodesByKey fun token key => publicPem key = publicPem token.signer where
  verified token key other now hkey hother := by
    rw [lib_decodeComplete, lib_publicPem, hkey, hother]
  refused token key now hkey :=
    ⟨.invalidToken, DecodeError.noConfusion, if_neg hkey⟩
  unsigned token key other now exc hkey hraise := by
    rw [lib_decodeComplete, lib_publicPem, decodeComplete, if_neg hkey] at hraise
    cases hraise

/-- A peer whose key is listed under two labels, and next to it a second peer. -/
def labelledIssuers (first second : PyVal) : PyDict :=
  [(.str (py "did:b"), .dict
      [(.str (py "deployment_id"), .str (py "peer")),
        (.str (py "jwks"), .dict [(.str (py "keys"), .list [first, second])])]),
    (.str (py "did:c"), issuerEntry (py "third") (jwk (py "Aw") (py "c1")))]

def oldLabel : PyVal := jwk (py "Ag") (py "old")

def newLabel : PyVal := jwk (py "Ag") (py "new")

def verifyLabelled (mapping : PyDict) :
    Except PyExc (VerifyResult × JtiRegistry) :=
  verifyAttestation lib env service
    (minted peerEnv ⟨py "did:b", py "new", ⟨py "key two", ⟨2, 2⟩⟩⟩ 300 (py "t"))
    context (.dict mapping) 0 0

end Reference

/-- Two labels of one key, and two peers, in either order. -/
theorem verify_attestation_order_independent_two_labels :
    Reference.verifyLabelled
        (Reference.labelledIssuers Reference.oldLabel Reference.newLabel) =
      Reference.verifyLabelled
        (Reference.labelledIssuers Reference.newLabel Reference.oldLabel) ∧
    Reference.verifyLabelled
        (Reference.labelledIssuers Reference.oldLabel Reference.newLabel) =
      Reference.verifyLabelled
        (Reference.labelledIssuers Reference.oldLabel
          Reference.newLabel).reverse := by
  constructor
  · refine (verify_attestation_order_independent Reference.decodesByKey
      Reference.env Reference.service _ _ 0 0 [] [] (.dict _) (.dict _) _ _ rfl
      rfl).1 (List.Forall₂.cons ?_ (List.forall₂_same.mpr ?_))
    · exact ⟨rfl, Or.inr ⟨_, _, rfl, rfl, rfl, List.Perm.swap _ _ _⟩⟩
    · exact fun item _ => ⟨rfl, Or.inl rfl⟩
  · refine (verify_attestation_order_independent Reference.decodesByKey
      Reference.env Reference.service _ _ 0 0 [] [] (.dict _) (.dict _) _ _ rfl
      rfl).2 (List.reverse_perm _).symm ?_ ?_ ?_
    · rw [DistinctIssuerIds]
      decide +kernel
    · rw [OneIdentityPerKey]
      decide +kernel
    · rw [DistinctFingerprints]
      decide +kernel

end QwedA2A
