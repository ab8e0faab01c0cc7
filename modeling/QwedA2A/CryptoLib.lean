/-
What the gateway uses of PyJWT, `cryptography`, `hashlib` and `json`, as one
record of functions, and the documented behaviour proofs may rely on.  The local
key pair is loaded here.
-/
import QwedA2A.JtiRegistry
import QwedA2A.PyJson
import QwedA2A.PyFloat

namespace QwedA2A

/-- A point on P-256, by its affine coordinates. -/
structure PublicKey where
  x : ℕ
  y : ℕ
deriving DecidableEq

/-- An elliptic-curve private key object: its PKCS8 text and its public half. -/
structure PrivateKey where
  pem : PyStr
  publicKey : PublicKey
deriving DecidableEq

/-- What `load_pem_private_key` returns. -/
inductive LoadedKey where
  | ellipticCurve (curve : PyStr) (key : PrivateKey)
  | other (typeName : PyStr)

/-- Header and claims of a token whose signature verified. -/
structure DecodedToken where
  header : PyVal
  payload : PyVal

/-- The ways `jwt.decode_complete` raises, as the handlers tell them apart. -/
inductive DecodeError where
  | expiredSignature
  | invalidToken
  | typeError
  | overflowError
  | uncaught (exc : PyExc)

/-- The third-party functions behind the crypto service.  Keys are handed over
as PEM text; `decodeComplete` is given its clock reading.  `json.dumps` nests to
one depth under `payload_hash` and to another under `_payload_size`: they are not
called from the same number of frames. -/
structure CryptoLib (Token : Type) where
  hasCrypto : Bool
  decodeComplete : Token → PyStr → ℚ → Except DecodeError DecodedToken
  encode : PyDict → PyStr → PyDict → Except PyExc Token
  loadPemPrivateKey : PyStr → Except PyExc LoadedKey
  onCurve : PublicKey → Bool
  publicPem : PublicKey → PyStr
  derFingerprint : PublicKey → PyStr
  sha256Hex : PyStr → PyStr
  jsonLoads : PyStr → Except PyExc PyVal
  coerceNumericDate : PyVal → Option PyNum
  jsonDepth : ℕ
  sizeDepth : ℕ

/-- The process environment, read at import time or at each call.  The
deployment ID is checked at import. -/
structure Env where
  deploymentId : PyStr
  signingKeyPem : Option PyStr := none
  trustedIssuers : PyStr := []
  deploymentIdSet : deploymentId ≠ []

/-- ECDSA P-256 key pair for attestation signing. -/
structure KeyPair where
  issuerId : PyStr
  keyId : PyStr
  key : PrivateKey
deriving DecidableEq

/-- The crypto service.  `keyPair` is the pair loaded by an earlier call, if
any. -/
structure A2ACryptoService (R : Type) where
  issuerId : PyStr := py "did:qwed:a2a:local"
  validitySeconds : ℤ := 300
  pemKey : Option PyStr := none
  keyPair : Option KeyPair := none
  jtiRegistry : R
  issuedRegistry : JtiRegistry

def p256CurveName : PyStr := py "secp256r1"

section Service

variable {Token R : Type}

/-- Whether an injected registry reports a usable retention window. -/
def ttlCovers (registryTtl : PyVal) (validitySeconds : ℤ) : Bool :=
  match registryTtl with
  -- `isfinite` converts to a float first, so an integer out of its range fails.
  | .int n => (toFloat n).isFinite && decide (validitySeconds ≤ n)
  | .float (.real (some (some value))) _ => decide ((validitySeconds : ℚ) ≤ value)
  | _ => false

/-- The service with the default, process-local registry. -/
def A2ACryptoService.withDefaultRegistry (issuerId : PyStr)
    (validitySeconds : ℤ) (pemKey : Option PyStr) :
    A2ACryptoService JtiRegistry where
  issuerId := issuerId
  validitySeconds := validitySeconds
  pemKey := pemKey
  jtiRegistry := { ttl := validitySeconds }
  issuedRegistry := { ttl := validitySeconds }

/-- The service with an injected registry, which has to report its window. -/
def A2ACryptoService.withRegistry (issuerId : PyStr) (validitySeconds : ℤ)
    (pemKey : Option PyStr) (registry : R) (registryTtl : PyVal) :
    Except PyExc (A2ACryptoService R) :=
  if ttlCovers registryTtl validitySeconds then
    .ok
      { issuerId, validitySeconds, pemKey, jtiRegistry := registry
        issuedRegistry := { ttl := validitySeconds } }
  else
    .error ⟨.valueError, py "Injected replay registry must report a finite numeric ttl_seconds covering the token validity (" ++
      intText validitySeconds ++ py "s)"⟩

/-- The key identifier under which a key's tokens are labelled. -/
def keyLabel (lib : CryptoLib Token) (issuerId : PyStr) (key : PublicKey) :
    PyStr :=
  issuerId ++ py "#key-" ++ (lib.derFingerprint key).take 16

/-- `self._pem_key or os.environ.get("QWED_A2A_SIGNING_KEY_PEM")`. -/
def signingPem (env : Env) (service : A2ACryptoService R) : PyStr :=
  match service.pemKey with
  | some pem => if pem = [] then env.signingKeyPem.getD [] else pem
  | none => env.signingKeyPem.getD []

/-- Load a private key and label it; only P-256 will do. -/
def loadKeyPair (lib : CryptoLib Token) (issuerId pem : PyStr) :
    Except PyExc KeyPair :=
  match lib.loadPemPrivateKey pem with
  | .error _ =>
      .error ⟨.runtimeError, py "QWED_A2A_SIGNING_KEY_PEM must be an unencrypted EC P-256 private key in PEM format."⟩
  | .ok (.other typeName) =>
      .error ⟨.runtimeError, py "QWED_A2A_SIGNING_KEY_PEM must be an EC P-256 (prime256v1) private key. Got " ++
        typeName ++ py "."⟩
  | .ok (.ellipticCurve curve key) =>
      if curve = p256CurveName then
        .ok
          { issuerId, keyId := keyLabel lib issuerId key.publicKey, key }
      else
        .error ⟨.runtimeError, py "QWED_A2A_SIGNING_KEY_PEM must use curve SECP256R1 (prime256v1, P-256). Got curve " ++
          curve ++ py "."⟩

def ensureKeyPair (lib : CryptoLib Token) (env : Env)
    (service : A2ACryptoService R) : Except PyExc KeyPair :=
  if !lib.hasCrypto then
    .error ⟨.runtimeError, py "cryptography and PyJWT packages required. Install with: pip install cryptography PyJWT"⟩
  else
    match service.keyPair with
    | some pair => .ok pair
    | none =>
        let pem := signingPem env service
        if pem = [] then
          .error ⟨.runtimeError, py "QWED_A2A_SIGNING_KEY_PEM environment variable is not set. QWED-A2A requires a persistent signing key for audit continuity. Generate with: openssl ecparam -name prime256v1 -genkey -noout | openssl pkcs8 -topk8 -nocrypt"⟩
        else loadKeyPair lib service.issuerId pem

/-- The pair is the service's own: one it loaded itself under its issuer ID. -/
def OwnPair (lib : CryptoLib Token) (service : A2ACryptoService R)
    (pair : KeyPair) : Prop :=
  ∃ pem, loadKeyPair lib service.issuerId pem = .ok pair

/-- What the constructor and `ensureKeyPair` leave: a cached pair is the
service's own. -/
def A2ACryptoService.WellKeyed (lib : CryptoLib Token)
    (service : A2ACryptoService R) : Prop :=
  ∀ pair, service.keyPair = some pair → OwnPair lib service pair

/-- A loaded pair is labelled with the issuer and the key it holds. -/
theorem loadKeyPair_ok {lib : CryptoLib Token} {issuerId pem : PyStr}
    {pair : KeyPair} (h : loadKeyPair lib issuerId pem = .ok pair) :
    pair.issuerId = issuerId ∧
      pair.keyId = keyLabel lib issuerId pair.key.publicKey ∧
      lib.loadPemPrivateKey pem = .ok (.ellipticCurve p256CurveName pair.key) := by
  rw [loadKeyPair] at h
  split at h
  next => cases h
  next => cases h
  next curve key hload =>
    split_ifs at h with hcurve
    cases h
    exact ⟨rfl, rfl, by rw [hload, hcurve]⟩

theorem loadKeyPair_error {lib : CryptoLib Token} {issuerId pem : PyStr}
    {exc : PyExc} (h : loadKeyPair lib issuerId pem = .error exc) :
    exc.type = .runtimeError := by
  rw [loadKeyPair] at h
  split at h
  next => cases h; rfl
  next => cases h; rfl
  next curve key _ =>
    split_ifs at h with hcurve
    cases h
    rfl

theorem ensureKeyPair_hasCrypto {lib : CryptoLib Token} {env : Env}
    {service : A2ACryptoService R} {pair : KeyPair}
    (h : ensureKeyPair lib env service = .ok pair) : lib.hasCrypto = true := by
  rw [ensureKeyPair] at h
  obtain ⟨hcrypto, _⟩ := guard_eq_ok.mp h
  simpa using hcrypto

theorem ensureKeyPair_own {lib : CryptoLib Token} {env : Env}
    {service : A2ACryptoService R} {pair : KeyPair}
    (hkeyed : service.WellKeyed lib)
    (h : ensureKeyPair lib env service = .ok pair) :
    OwnPair lib service pair := by
  rw [ensureKeyPair] at h
  obtain ⟨_, h⟩ := guard_eq_ok.mp h
  cases hfound : service.keyPair with
  | some found =>
      rw [hfound] at h
      cases h
      exact hkeyed pair hfound
  | none =>
      rw [hfound] at h
      obtain ⟨_, hload⟩ := guard_eq_ok.mp h
      exact ⟨_, hload⟩

/-- Without a key the service still verifies peers: every failure to load one is
a RuntimeError. -/
theorem ensureKeyPair_error {lib : CryptoLib Token} {env : Env}
    {service : A2ACryptoService R} {exc : PyExc}
    (h : ensureKeyPair lib env service = .error exc) :
    exc.type = .runtimeError := by
  rw [ensureKeyPair] at h
  split_ifs at h with hcrypto
  · cases h
    rfl
  · cases hfound : service.keyPair with
    | some found =>
        rw [hfound] at h
        cases h
    | none =>
        rw [hfound] at h
        simp only at h
        split_ifs at h with hpem
        · cases h
          rfl
        · exact loadKeyPair_error h

end Service

end QwedA2A
