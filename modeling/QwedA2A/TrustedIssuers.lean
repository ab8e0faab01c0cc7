/-
Trusted issuers and the keys a verification tries.  The candidate loop keeps a
public key under the first identity that lists it; `candidates_eq_filter` says
so in one line.
-/
import QwedA2A.Jwk

namespace QwedA2A

variable {Token R : Type}

def isNonemptyStr : PyVal → Bool
  | .str s => !(strip s).isEmpty
  | _ => false

/-- One usable key of an issuer. -/
structure IssuerKey where
  pem : PyStr
  kid : Option PyStr
deriving DecidableEq

/-- A usable trusted issuer: a deployment ID and at least one key. -/
structure IssuerEntry where
  deploymentId : PyStr
  keys : List IssuerKey
  deploymentUsable : isNonemptyStr (.str deploymentId) = true
  keysUsable : keys ≠ []

/-- The `kid` label of a JWK, when it is text. -/
def kidLabel (key : PyVal) : Option PyStr :=
  match key with
  | .dict entries =>
      match dictGet entries (py "kid") with
      | some (.str kid) => some kid
      | _ => none
  | _ => none

/-- The keys of a JWKS list that convert to a public key. -/
def usableKeys (lib : CryptoLib Token) (keys : List PyVal) : List IssuerKey :=
  keys.filterMap fun key =>
    (jwkToPublicPem lib key).map fun pem => { pem, kid := kidLabel key }

def entryKeys (entry : PyDict) : List PyVal :=
  match dictGet entry (py "jwks") with
  | some (.dict jwks) =>
      match dictGet jwks (py "keys") with
      | some (.list keys) => keys
      | _ => []
  | _ => []

/-- Validate one trusted-issuer entry; `none` when unusable. -/
def normalizeIssuerEntry (lib : CryptoLib Token) (issuerId entry : PyVal) :
    Option (PyStr × IssuerEntry) :=
  match issuerId, entry with
  | .str issuer, .dict entry =>
      match dictGet entry (py "deployment_id") with
      | some (.str deploymentId) =>
          if h : isNonemptyStr (.str issuer) = true ∧
              isNonemptyStr (.str deploymentId) = true ∧
              usableKeys lib (entryKeys entry) ≠ [] then
            some (issuer,
              { deploymentId
                keys := usableKeys lib (entryKeys entry)
                deploymentUsable := h.2.1
                keysUsable := h.2.2 })
          else none
      | _ => none
  | _, _ => none

/-- The issuers in registration order, without duplicates. -/
abbrev Issuers := List (PyStr × IssuerEntry)

/-- `issuers[issuer_id] = entry`. -/
def setIssuer (issuers : Issuers) (issuerId : PyStr) (entry : IssuerEntry) :
    Issuers :=
  if issuers.any fun found => found.1 = issuerId then
    issuers.map fun found =>
      if found.1 = issuerId then (issuerId, entry) else found
  else issuers ++ [(issuerId, entry)]

def collectIssuers (lib : CryptoLib Token) (raw : PyDict) : Issuers :=
  raw.foldl (fun issuers item =>
    match normalizeIssuerEntry lib item.1 item.2 with
    | some (issuerId, entry) => setIssuer issuers issuerId entry
    | none => issuers) []

def issuerConfigMaxBytes : ℕ := 65536

/-- Validate trusted-issuer env JSON before it reaches `json.loads`. -/
def sanitizeIssuerConfigJson (value : PyStr) : Except PyExc PyStr :=
  let text := strip value
  if !isUnicode text then
    .error ⟨.valueError, py "surrogates not allowed"⟩
  else if issuerConfigMaxBytes < PyJson.utf8Size text then
    .error ⟨.valueError, py "Trusted-issuer config exceeds size limit"⟩
  else if !(py "\x7b").isPrefixOf text then
    .error ⟨.valueError, py "Trusted-issuer config must be a JSON object"⟩
  else if text.any fun c => c.val < 0x20 && c.val ≠ 9 && c.val ≠ 10 &&
      c.val ≠ 13 then
    .error ⟨.valueError, py "Trusted-issuer config contains control characters"⟩
  else .ok text

/-- The exceptions a malformed environment value may raise without being
noticed by the caller. -/
def isConfigError (exc : PyExc) : Bool :=
  exc.type = .valueError || exc.type = .jsonDecodeError ||
    exc.type = .typeError || exc.type = .recursionError

/-- The trusted-issuer set: the explicit one, or the environment's when it is
None. -/
def loadTrustedIssuers (lib : CryptoLib Token) (env : Env)
    (explicit : PyVal) : Except PyExc Issuers :=
  match explicit with
  | .dict raw => .ok (collectIssuers lib raw)
  | .pyNone =>
      if (strip env.trustedIssuers).isEmpty then .ok []
      else
        match sanitizeIssuerConfigJson env.trustedIssuers >>= lib.jsonLoads with
        | .ok (.dict raw) => .ok (collectIssuers lib raw)
        | .ok _ => .ok []
        | .error exc => if isConfigError exc then .ok [] else .error exc
  | _ => .ok []

/-- A key a verification tries, with the identity it is bound to. -/
structure Candidate where
  issuer : PyStr
  pem : PyStr
  deployment : PyStr
  kid : Option PyStr
deriving DecidableEq

def issuerCandidates (issuer : PyStr × IssuerEntry) : List Candidate :=
  issuer.2.keys.map fun key =>
    { issuer := issuer.1
      pem := key.pem
      deployment := issuer.2.deploymentId
      kid := key.kid }

def localCandidate (lib : CryptoLib Token) (env : Env)
    (service : A2ACryptoService R) (pair : KeyPair) : Candidate where
  issuer := service.issuerId
  pem := lib.publicPem pair.key.publicKey
  deployment := env.deploymentId
  kid := some pair.keyId

/-- Short stable fingerprint identifying one public key. -/
def pemFingerprint (lib : CryptoLib Token) (pem : PyStr) : PyStr :=
  (lib.sha256Hex pem).take 16

/-- The candidate list under construction, and the first owner of each key. -/
structure CandidateSet where
  candidates : List Candidate := []
  seenPems : ExpiringTable.Table PyStr PyStr := ∅

def addCandidate (lib : CryptoLib Token) (found : CandidateSet)
    (candidate : Candidate) : CandidateSet :=
  let fingerprint := pemFingerprint lib candidate.pem
  match found.seenPems.lookup fingerprint with
  | some owner =>
      if owner ≠ candidate.issuer then found
      else { found with candidates := found.candidates ++ [candidate] }
  | none =>
      { candidates := found.candidates ++ [candidate]
        seenPems := found.seenPems.insert fingerprint candidate.issuer }

def localCandidates (lib : CryptoLib Token) (env : Env)
    (service : A2ACryptoService R) : List Candidate :=
  match ensureKeyPair lib env service with
  | .ok pair => [localCandidate lib env service pair]
  | .error _ => []

/-- Every configured key with its identity, the local one first. -/
def configuredKeys (lib : CryptoLib Token) (env : Env)
    (service : A2ACryptoService R) (issuers : Issuers) : List Candidate :=
  localCandidates lib env service ++ issuers.flatMap issuerCandidates

/-- The verify candidates: every configured key under its first identity. -/
def candidateKeys (lib : CryptoLib Token) (env : Env)
    (service : A2ACryptoService R) (trustedIssuers : PyVal) :
    Except PyExc (List Candidate) := do
  let issuers ← loadTrustedIssuers lib env trustedIssuers
  let found := (configuredKeys lib env service issuers).foldl
    (addCandidate lib) {}
  pure found.candidates

/-- The text of a public key on the curve. -/
def IsPublicPem (lib : CryptoLib Token) (pem : PyStr) : Prop :=
  ∃ key, lib.onCurve key = true ∧ pem = lib.publicPem key

theorem jwkToPublicPem_isPublicPem {lib : CryptoLib Token} {jwk : PyVal}
    {pem : PyStr} (h : jwkToPublicPem lib jwk = some pem) :
    IsPublicPem lib pem := by
  cases jwk with
  | dict entries =>
      rw [jwkToPublicPem] at h
      split at h
      next kty crv x y _ _ _ _ _ =>
        split_ifs at h with hcurve
        split at h
        next x y _ _ =>
          split_ifs at h with hon
          cases h
          exact ⟨_, hon, rfl⟩
        next => cases h
      next => cases h
  | _ => cases h

/-- A usable entry is a mapping under a text key, with its usable keys. -/
theorem normalizeIssuerEntry_eq_some {lib : CryptoLib Token}
    {issuerId entry : PyVal} {issuer : PyStr × IssuerEntry}
    (h : normalizeIssuerEntry lib issuerId entry = some issuer) :
    ∃ entries, issuerId = .str issuer.1 ∧ entry = .dict entries ∧
      dictGet entries (py "deployment_id") =
        some (.str issuer.2.deploymentId) ∧
      issuer.2.keys = usableKeys lib (entryKeys entries) := by
  rw [normalizeIssuerEntry.eq_def] at h
  split at h
  next name entries =>
    split at h
    next deploymentId hdeployment =>
      split_ifs at h with husable
      cases h
      exact ⟨entries, rfl, rfl, hdeployment, rfl⟩
    next => cases h
  next => cases h

theorem normalizeIssuerEntry_keys {lib : CryptoLib Token}
    {issuerId entry : PyVal} {issuer : PyStr × IssuerEntry}
    (h : normalizeIssuerEntry lib issuerId entry = some issuer) :
    ∀ key ∈ issuer.2.keys, IsPublicPem lib key.pem := by
  obtain ⟨entries, _, _, _, hkeys⟩ := normalizeIssuerEntry_eq_some h
  intro key hkey
  rw [hkeys] at hkey
  obtain ⟨jwk, _, hjwk⟩ := List.mem_filterMap.mp hkey
  obtain ⟨pem, hpem, rfl⟩ := Option.map_eq_some_iff.mp hjwk
  exact jwkToPublicPem_isPublicPem hpem

theorem mem_setIssuer {issuers : Issuers} {issuerId : PyStr}
    {entry : IssuerEntry} {found : PyStr × IssuerEntry}
    (h : found ∈ setIssuer issuers issuerId entry) :
    found = (issuerId, entry) ∨ found ∈ issuers := by
  rw [setIssuer] at h
  split_ifs at h with hknown
  · obtain ⟨old, hold, rfl⟩ := List.mem_map.mp h
    by_cases hid : old.1 = issuerId
    · exact Or.inl (by simp [hid])
    · exact Or.inr (by simpa [hid] using hold)
  · rcases List.mem_append.mp h with hold | hnew
    · exact Or.inr hold
    · exact Or.inl (List.mem_singleton.mp hnew)

theorem mem_setIssuer_self (issuers : Issuers) (issuerId : PyStr)
    (entry : IssuerEntry) :
    (issuerId, entry) ∈ setIssuer issuers issuerId entry := by
  rw [setIssuer]
  split_ifs with hknown
  · obtain ⟨found, hfound, hid⟩ := List.any_eq_true.mp hknown
    exact List.mem_map.mpr ⟨found, hfound, if_pos (of_decide_eq_true hid)⟩
  · exact List.mem_append_right _ (List.mem_singleton_self _)

theorem mem_setIssuer_of_ne {issuers : Issuers} {issuerId : PyStr}
    {entry : IssuerEntry} {found : PyStr × IssuerEntry} (h : found ∈ issuers)
    (hne : found.1 ≠ issuerId) : found ∈ setIssuer issuers issuerId entry := by
  rw [setIssuer]
  split_ifs with hknown
  · exact List.mem_map.mpr ⟨found, h, if_neg hne⟩
  · exact List.mem_append_left _ h

/-- Setting an issuer keeps the issuer IDs distinct. -/
theorem setIssuer_nodup {issuers : Issuers}
    (h : (issuers.map Prod.fst).Nodup) (issuerId : PyStr) (entry : IssuerEntry) :
    ((setIssuer issuers issuerId entry).map Prod.fst).Nodup := by
  rw [setIssuer]
  split_ifs with hknown
  · have hkeys : (issuers.map fun found =>
        if found.1 = issuerId then (issuerId, entry) else found).map Prod.fst =
          issuers.map Prod.fst := by
      rw [List.map_map]
      apply List.map_congr_left
      intro found _
      by_cases hid : found.1 = issuerId <;> simp [hid]
    rw [hkeys]
    exact h
  · rw [List.map_append, List.nodup_append]
    refine ⟨h, List.nodup_singleton _, ?_⟩
    rintro key hkey other hother rfl
    obtain ⟨found, hfound, rfl⟩ := List.mem_map.mp hkey
    rw [List.map_singleton, List.mem_singleton] at hother
    exact hknown (List.any_eq_true.mpr ⟨found, hfound, by simpa using hother⟩)

/-- An item of the configuration sets its issuer's entry or is skipped. -/
theorem collectIssuers_append (lib : CryptoLib Token) (past : PyDict)
    (item : PyVal × PyVal) :
    collectIssuers lib (past ++ [item]) =
      match normalizeIssuerEntry lib item.1 item.2 with
      | some (issuerId, entry) =>
          setIssuer (collectIssuers lib past) issuerId entry
      | none => collectIssuers lib past := by
  rw [collectIssuers, List.foldl_append]
  rfl

/-- Every registered issuer came from some item of the configuration. -/
theorem mem_collectIssuers {lib : CryptoLib Token} {raw : PyDict}
    {issuer : PyStr × IssuerEntry} (h : issuer ∈ collectIssuers lib raw) :
    ∃ item ∈ raw, normalizeIssuerEntry lib item.1 item.2 = some issuer := by
  induction raw using List.reverseRecOn with
  | nil => cases h
  | append_singleton past item ih =>
      have hpast : issuer ∈ collectIssuers lib past →
          ∃ found ∈ past ++ [item],
            normalizeIssuerEntry lib found.1 found.2 = some issuer := by
        intro hold
        obtain ⟨found, hfound, hnormal⟩ := ih hold
        exact ⟨found, List.mem_append_left _ hfound, hnormal⟩
      rw [collectIssuers_append] at h
      split at h
      next issuerId entry hnormal =>
        rcases mem_setIssuer h with rfl | hold
        · exact ⟨item, List.mem_append_right _ (List.mem_singleton_self item),
            hnormal⟩
        · exact hpast hold
      next => exact hpast h

/-- An item whose key occurs once is registered as it normalizes. -/
theorem mem_collectIssuers_of_distinct {lib : CryptoLib Token} {raw : PyDict}
    (hdistinct : ∀ item ∈ raw, ∀ other ∈ raw, item.1 = other.1 → item = other)
    {item : PyVal × PyVal} (hitem : item ∈ raw) {issuer : PyStr × IssuerEntry}
    (hnormal : normalizeIssuerEntry lib item.1 item.2 = some issuer) :
    issuer ∈ collectIssuers lib raw := by
  induction raw using List.reverseRecOn with
  | nil => cases hitem
  | append_singleton past last ih =>
      have hpast := fun found hfound other hother =>
        hdistinct found (List.mem_append_left [last] hfound) other
          (List.mem_append_left [last] hother)
      rw [collectIssuers_append]
      rcases List.mem_append.mp hitem with hold | hnew
      · have hmem := ih hpast hold
        split
        next issuerId entry hlast =>
          by_cases hid : issuer.1 = issuerId
          · obtain ⟨_, hkey, _⟩ := normalizeIssuerEntry_eq_some hnormal
            obtain ⟨_, hkey', _⟩ := normalizeIssuerEntry_eq_some hlast
            have hsame : item = last := by
              apply hdistinct item hitem last
                (List.mem_append_right _ (List.mem_singleton_self last))
              rw [hkey, hkey', hid]
            rw [hsame, hlast] at hnormal
            cases hnormal
            exact mem_setIssuer_self _ _ _
          · exact mem_setIssuer_of_ne hmem hid
        next => exact hmem
      · rw [List.mem_singleton] at hnew
        subst hnew
        rw [hnormal]
        exact mem_setIssuer_self _ _ _

theorem collectIssuers_nodup (lib : CryptoLib Token) (raw : PyDict) :
    ((collectIssuers lib raw).map Prod.fst).Nodup := by
  induction raw using List.reverseRecOn with
  | nil => exact List.nodup_nil
  | append_singleton past item ih =>
      rw [collectIssuers_append]
      split
      next issuerId entry _ => exact setIssuer_nodup ih issuerId entry
      next => exact ih

/-- The loaded issuers are the collected entries of some object. -/
theorem loadTrustedIssuers_ok {lib : CryptoLib Token} {env : Env}
    {explicit : PyVal} {issuers : Issuers}
    (h : loadTrustedIssuers lib env explicit = .ok issuers) :
    ∃ raw, issuers = collectIssuers lib raw := by
  cases explicit with
  | dict raw => exact ⟨raw, (Except.ok.inj h).symm⟩
  | pyNone =>
      rw [loadTrustedIssuers] at h
      split_ifs at h with hblank
      · exact ⟨[], (Except.ok.inj h).symm⟩
      · split at h
        next raw _ => exact ⟨raw, (Except.ok.inj h).symm⟩
        next => exact ⟨[], (Except.ok.inj h).symm⟩
        next exc _ =>
          split_ifs at h with hconfig
          exact ⟨[], (Except.ok.inj h).symm⟩
  | _ => exact ⟨[], (Except.ok.inj h).symm⟩

/-- The issuer under which a public key is configured first. -/
def firstOwner (lib : CryptoLib Token) (configured : List Candidate)
    (pem : PyStr) : Option PyStr :=
  (configured.find? fun candidate =>
    pemFingerprint lib candidate.pem = pemFingerprint lib pem).map
      Candidate.issuer

theorem firstOwner_isSome_of_mem (lib : CryptoLib Token)
    {configured : List Candidate} {candidate : Candidate}
    (hmem : candidate ∈ configured) :
    (firstOwner lib configured candidate.pem).isSome = true := by
  rw [firstOwner, Option.isSome_map, List.find?_isSome]
  exact ⟨candidate, hmem, by simp⟩

theorem firstOwner_append (lib : CryptoLib Token)
    (configured later : List Candidate) (pem : PyStr) :
    firstOwner lib (configured ++ later) pem =
      (firstOwner lib configured pem).or (firstOwner lib later pem) := by
  rw [firstOwner, List.find?_append, firstOwner, firstOwner]
  cases configured.find? fun candidate =>
    pemFingerprint lib candidate.pem = pemFingerprint lib pem <;> rfl

theorem firstOwner_singleton (lib : CryptoLib Token) (candidate : Candidate)
    (pem : PyStr) :
    firstOwner lib [candidate] pem =
      if pemFingerprint lib candidate.pem = pemFingerprint lib pem then
        some candidate.issuer
      else none := by
  by_cases heq : pemFingerprint lib candidate.pem = pemFingerprint lib pem
  · simp [firstOwner, heq]
  · simp [firstOwner, heq]

theorem firstOwner_congr (lib : CryptoLib Token) (configured : List Candidate)
    {pem other : PyStr} (h : pemFingerprint lib pem = pemFingerprint lib other) :
    firstOwner lib configured pem = firstOwner lib configured other := by
  rw [firstOwner, h, firstOwner]

/-- Listing an owned key once more changes no ownership. -/
theorem firstOwner_append_owned (lib : CryptoLib Token) {past : List Candidate}
    {candidate : Candidate} {owner : PyStr}
    (howner : firstOwner lib past candidate.pem = some owner) (pem : PyStr) :
    firstOwner lib (past ++ [candidate]) pem = firstOwner lib past pem := by
  rw [firstOwner_append, firstOwner_singleton]
  split_ifs with heq
  · rw [← firstOwner_congr lib past heq, howner, Option.some_or]
  · rw [Option.or_none]

/-- Listing a key leaves the owners of the keys before it alone. -/
theorem filter_firstOwner_append (lib : CryptoLib Token) (past : List Candidate)
    (candidate : Candidate) :
    (past.filter fun found =>
      firstOwner lib (past ++ [candidate]) found.pem = some found.issuer) =
        past.filter fun found =>
          firstOwner lib past found.pem = some found.issuer := by
  apply List.filter_congr
  intro found hfound
  obtain ⟨owner, howner⟩ := Option.isSome_iff_exists.mp
    (firstOwner_isSome_of_mem lib hfound)
  rw [firstOwner_append, howner, Option.some_or]

/-- What the construction knows after any prefix of the configured keys. -/
theorem foldl_addCandidate (lib : CryptoLib Token)
    (configured : List Candidate) :
    (∀ pem, (configured.foldl (addCandidate lib) {}).seenPems.lookup
        (pemFingerprint lib pem) = firstOwner lib configured pem) ∧
      (configured.foldl (addCandidate lib) {}).candidates =
        configured.filter fun candidate =>
          firstOwner lib configured candidate.pem = some candidate.issuer := by
  induction configured using List.reverseRecOn with
  | nil => exact ⟨fun pem => rfl, rfl⟩
  | append_singleton past candidate ih =>
      obtain ⟨hseen, hkept⟩ := ih
      rw [List.foldl_append, List.foldl_cons, List.foldl_nil, List.filter_append,
        filter_firstOwner_append, ← hkept]
      cases howner : firstOwner lib past candidate.pem with
      | some owner =>
          have hlookup := (hseen candidate.pem).trans howner
          simp only [addCandidate, hlookup, firstOwner_append_owned lib howner]
          by_cases hissuer : owner = candidate.issuer
          · simp [hissuer, hseen, howner]
          · simp [hissuer, hseen, howner]
      | none =>
          have hlookup := (hseen candidate.pem).trans howner
          have hself : firstOwner lib (past ++ [candidate]) candidate.pem =
              some candidate.issuer := by
            rw [firstOwner_append, howner, firstOwner_singleton, if_pos rfl]
            rfl
          simp only [addCandidate, hlookup, List.filter_cons, hself,
            decide_true, if_true, List.filter_nil, and_true]
          intro pem
          rw [firstOwner_append, firstOwner_singleton]
          split_ifs with heq
          · rw [← heq, AList.lookup_insert, ← firstOwner_congr lib past heq,
              howner, Option.none_or]
          · rw [AList.lookup_insert_ne (Ne.symm heq), hseen, Option.or_none]

/-- The candidates are the configured keys whose issuer owns the key first. -/
theorem candidates_eq_filter (lib : CryptoLib Token)
    (configured : List Candidate) :
    (configured.foldl (addCandidate lib) {}).candidates =
      configured.filter fun candidate =>
        firstOwner lib configured candidate.pem = some candidate.issuer :=
  (foldl_addCandidate lib configured).2

end QwedA2A
