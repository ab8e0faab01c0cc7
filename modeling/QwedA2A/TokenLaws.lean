/-
The documented behaviour of the token library that proofs assume: liveness at
decode, claims fixed by the token, and signatures that verify under their own
key only.  A small reference library meets all of it.
-/
import QwedA2A.AttestationChecks

namespace QwedA2A

variable {Token : Type}

def strKey : PyVal → Option PyStr
  | .str s => some s
  | _ => none

mutual

/-- A value JSON carries unchanged: Unicode text, distinct text keys, no floats;
`intOk` bounds the integers. -/
def PyVal.isPlain (intOk : ℤ → Bool) : PyVal → Bool
  | .pyNone => true
  | .bool _ => true
  | .int n => intOk n
  | .float _ _ => false
  | .str s => isUnicode s
  | .list items => plainItems intOk items
  | .dict entries =>
      decide (entries.filterMap fun entry => strKey entry.1).Nodup &&
        plainEntries intOk entries
  | .other _ => false

def plainItems (intOk : ℤ → Bool) : List PyVal → Bool
  | [] => true
  | item :: rest => item.isPlain intOk && plainItems intOk rest

def plainEntries (intOk : ℤ → Bool) : List (PyVal × PyVal) → Bool
  | [] => true
  | (key, value) :: rest =>
      (match key with
        | .str s => isUnicode s
        | _ => false) && value.isPlain intOk && plainEntries intOk rest

end

def printableInt (n : ℤ) : Bool :=
  decide ((natText n.natAbs).length ≤ intMaxStrDigits)

/-- The registered claims the decoder requires, and dates that are current. -/
structure CurrentClaims (payload : PyDict) (now : ℚ) : Prop where
  iss : ∃ s, dictGet payload (py "iss") = some (.str s)
  sub : ∃ s, dictGet payload (py "sub") = some (.str s)
  jti : ∃ s, dictGet payload (py "jti") = some (.str s)
  iat : ∃ n : ℤ, dictGet payload (py "iat") = some (.int n) ∧ (n : ℚ) ≤ now
  exp : ∃ n : ℤ, dictGet payload (py "exp") = some (.int n) ∧ now < n

/-- What every decoded token satisfies. -/
structure CryptoLib.LawfulJwt (lib : CryptoLib Token) : Prop where
  live : ∀ token pem now decoded claims envelope,
    lib.decodeComplete token pem now = .ok decoded →
      decoded.payload = .dict claims → parseEnvelope lib claims = some envelope →
        PyNum.rat now < envelope.exp
  content : ∀ token pem pem' now now' decoded decoded',
    lib.decodeComplete token pem now = .ok decoded →
      lib.decodeComplete token pem' now' = .ok decoded' → decoded = decoded'

/-- Two calls that pass their checks on one token read the same claims, whatever
service, context and clock each has. -/
theorem CryptoLib.LawfulJwt.pending_eq {R R' : Type} {lib : CryptoLib Token}
    (hjwt : lib.LawfulJwt) {env env' : Env} {service : A2ACryptoService R}
    {service' : A2ACryptoService R'} {token : Token}
    {context context' : AttestationContext} {trustedIssuers trustedIssuers' : PyVal}
    {now now' : ℚ} {pending pending' : PendingReplay}
    (h : beginVerification lib env service token context trustedIssuers now =
      .ok (.ok pending))
    (h' : beginVerification lib env' service' token context' trustedIssuers'
      now' = .ok (.ok pending')) :
    pending.rawClaims = pending'.rawClaims ∧
      pending.envelope = pending'.envelope := by
  obtain ⟨_, _, decoded, _, hreach⟩ := beginVerification_ok h
  obtain ⟨_, _, decoded', _, hreach'⟩ := beginVerification_ok h'
  have hdecoded := hjwt.content _ _ _ _ _ _ _ hreach.verified.signature
    hreach'.verified.signature
  have hraw : pending.rawClaims = pending'.rawClaims := by
    have hpayload := hreach.verified.payload
    rw [hdecoded, hreach'.verified.payload] at hpayload
    exact (PyVal.dict.inj hpayload).symm
  refine ⟨hraw, ?_⟩
  have htyped := hreach.verified.typed
  rw [hraw, hreach'.verified.typed] at htyped
  exact (Option.some.inj htyped).symm

theorem beginVerification_key {R : Type} {lib : CryptoLib Token} {env : Env}
    {service : A2ACryptoService R} {token : Token}
    {context : AttestationContext} {trustedIssuers : PyVal} {now : ℚ}
    {pending : PendingReplay}
    (h : beginVerification lib env service token context trustedIssuers now =
      .ok (.ok pending)) :
    pending.key = registryKey service.issuerId pending.envelope.iss
      pending.envelope.jti := by
  obtain ⟨_, _, _, _, hreach⟩ := beginVerification_ok h
  exact hreach.key

theorem CryptoLib.LawfulJwt.pending_live {R : Type} {lib : CryptoLib Token}
    (hjwt : lib.LawfulJwt) {env : Env} {service : A2ACryptoService R}
    {token : Token} {context : AttestationContext} {trustedIssuers : PyVal}
    {now : ℚ} {pending : PendingReplay}
    (h : beginVerification lib env service token context trustedIssuers now =
      .ok (.ok pending)) :
    PyNum.rat now < pending.envelope.exp := by
  obtain ⟨_, _, _, _, hreach⟩ := beginVerification_ok h
  exact hjwt.live _ _ _ _ _ _ hreach.verified.signature hreach.verified.payload
    hreach.verified.typed

/-- A P-256 private key the library loads. -/
def CryptoLib.Loadable (lib : CryptoLib Token) (key : PrivateKey) : Prop :=
  ∃ pem, lib.loadPemPrivateKey pem = .ok (.ellipticCurve p256CurveName key)

/-- ES256 signatures and claim encoding round-trip, and a signature verifies
under the public half of its own key only. -/
structure CryptoLib.IdealSignatures (lib : CryptoLib Token) : Prop where
  signs : ∀ key payload header, lib.Loadable key →
    (PyVal.dict payload).isPlain printableInt = true →
      (PyVal.dict header).isPlain printableInt = true →
        (∃ kid, dictGet header (py "kid") = some (.str kid)) →
          ∃ token, lib.encode payload key.pem header = .ok token
  verifies : ∀ key payload header token now, lib.Loadable key →
    lib.encode payload key.pem header = .ok token →
      (PyVal.dict payload).isPlain (fun _ => true) = true →
        (PyVal.dict header).isPlain (fun _ => true) = true →
          CurrentClaims payload now →
            ∃ entries, lib.decodeComplete token (lib.publicPem key.publicKey) now =
                .ok ⟨.dict entries, .dict payload⟩ ∧
              dictGet entries (py "kid") = dictGet header (py "kid")
  foreign : ∀ key payload header token other now, lib.Loadable key →
    lib.encode payload key.pem header = .ok token →
      lib.onCurve other = true →
        lib.publicPem other ≠ lib.publicPem key.publicKey →
          lib.decodeComplete token (lib.publicPem other) now =
            .error .invalidToken

/-- Hex digests are ASCII text. -/
structure CryptoLib.TextDigests (lib : CryptoLib Token) : Prop where
  sha256 : ∀ text, isUnicode (lib.sha256Hex text) = true
  fingerprint : ∀ key, isUnicode (lib.derFingerprint key) = true

/-- A token of the reference library. -/
structure SignedToken where
  header : PyDict
  payload : PyDict
  signer : PublicKey

namespace Reference

def loadPemPrivateKey (pem : PyStr) : Except PyExc LoadedKey :=
  if pem = py "key one" then
    .ok (.ellipticCurve p256CurveName ⟨py "key one", ⟨1, 1⟩⟩)
  else if pem = py "key two" then
    .ok (.ellipticCurve p256CurveName ⟨py "key two", ⟨2, 2⟩⟩)
  else .error ⟨.valueError, py "Could not deserialize key data"⟩

def publicPem (key : PublicKey) : PyStr := py "PEM " ++ natText key.x

def encode (payload : PyDict) (pem : PyStr) (header : PyDict) :
    Except PyExc SignedToken :=
  match loadPemPrivateKey pem with
  | .ok (.ellipticCurve _ key) => .ok ⟨header, payload, key.publicKey⟩
  | .ok (.other _) => .error ⟨.typeError, py "Expecting an EC key"⟩
  | .error exc => .error exc

def decodeComplete (token : SignedToken) (pem : PyStr) (now : ℚ) :
    Except DecodeError DecodedToken :=
  if pem = publicPem token.signer then
    match dictGet token.payload (py "iat"), dictGet token.payload (py "exp") with
    | some (.int iat), some (.int exp) =>
        if now < iat then .error .invalidToken
        else if (exp : ℚ) ≤ now then .error .expiredSignature
        else .ok ⟨.dict token.header, .dict token.payload⟩
    | _, _ => .error .invalidToken
  else .error .invalidToken

def lib : CryptoLib SignedToken where
  hasCrypto := true
  decodeComplete := decodeComplete
  encode := encode
  loadPemPrivateKey := loadPemPrivateKey
  onCurve key := decide (key.x < 256 ^ 32) && decide (key.y < 256 ^ 32)
  publicPem := publicPem
  derFingerprint key := List.replicate key.x (PyChar.ofChar 'k')
  sha256Hex text := text.map fun c => Fin.ofNat _ (c.val % 128)
  jsonLoads _ := .error ⟨.jsonDecodeError, py "Expecting value"⟩
  coerceNumericDate _ := none
  jsonDepth := 100
  sizeDepth := 101

theorem lib_decodeComplete : lib.decodeComplete = decodeComplete := rfl

theorem lib_publicPem : lib.publicPem = publicPem := rfl

theorem decodeComplete_ok {token : SignedToken} {pem : PyStr} {now : ℚ}
    {decoded : DecodedToken}
    (h : decodeComplete token pem now = .ok decoded) :
    pem = publicPem token.signer ∧
      decoded = ⟨.dict token.header, .dict token.payload⟩ ∧
      ∃ exp : ℤ, dictGet token.payload (py "exp") = some (.int exp) ∧
        now < exp := by
  rw [decodeComplete] at h
  split_ifs at h with hpem
  split at h
  next iat exp hiat hexp =>
    split_ifs at h with hearly hexpired
    cases h
    exact ⟨hpem, rfl, exp, hexp, not_le.mp hexpired⟩
  next => cases h

theorem loadPemPrivateKey_ok {pem : PyStr} {key : PrivateKey}
    (h : loadPemPrivateKey pem = .ok (.ellipticCurve p256CurveName key)) :
    key = ⟨py "key one", ⟨1, 1⟩⟩ ∨ key = ⟨py "key two", ⟨2, 2⟩⟩ := by
  rw [loadPemPrivateKey] at h
  split_ifs at h with hone htwo
  · cases h; exact Or.inl rfl
  · cases h; exact Or.inr rfl

theorem lawfulJwt : lib.LawfulJwt where
  live token pem now decoded claims envelope hdecode hpayload henvelope := by
    obtain ⟨_, rfl, exp, hexp, hlive⟩ := decodeComplete_ok hdecode
    cases hpayload
    rw [parseEnvelope, hexp] at henvelope
    split at henvelope
    next hdate =>
      cases henvelope
      simp only [Option.bind_some, numericDate, Option.some.injEq] at hdate
      rw [← hdate]
      exact PyNum.rat_lt_rat.mpr hlive
    next => cases henvelope
  content token pem pem' now now' decoded decoded' h h' := by
    rw [(decodeComplete_ok h).2.1, (decodeComplete_ok h').2.1]

theorem loadable_encode {key : PrivateKey} (h : lib.Loadable key)
    (payload header : PyDict) :
    lib.encode payload key.pem header =
      .ok ⟨header, payload, key.publicKey⟩ := by
  obtain ⟨pem, hload⟩ := h
  rcases loadPemPrivateKey_ok hload with rfl | rfl
  · rfl
  · rfl

theorem idealSignatures : lib.IdealSignatures where
  signs key payload header hkey _ _ _ := ⟨_, loadable_encode hkey payload header⟩
  verifies key payload header token now hkey hencode _ _ hcurrent := by
    rw [loadable_encode hkey] at hencode
    cases hencode
    obtain ⟨iat, hiat, hstarted⟩ := hcurrent.iat
    obtain ⟨exp, hexp, hlive⟩ := hcurrent.exp
    refine ⟨header, ?_, rfl⟩
    rw [lib_decodeComplete, lib_publicPem]
    simp [decodeComplete, hiat, hexp, not_lt.mpr hstarted, not_le.mpr hlive]
  foreign key payload header token other now hkey hencode _ hpem := by
    rw [loadable_encode hkey] at hencode
    cases hencode
    exact if_neg hpem

theorem textDigests : lib.TextDigests where
  sha256 text := by
    simp only [isUnicode, lib, List.all_map, List.all_eq_true]
    intro c _
    have hsmall : c.val % 128 < 0x110000 := by omega
    simp only [Function.comp_apply, Fin.ofNat_eq_cast, Bool.or_eq_true,
      decide_eq_true_eq]
    left
    rw [Fin.val_natCast, Nat.mod_eq_of_lt hsmall]
    omega
  fingerprint key := by
    simp only [isUnicode, lib, List.all_eq_true]
    intro c hc
    rw [List.eq_of_mem_replicate hc]
    decide

theorem lawfulCurve : lib.LawfulCurve where
  coordinates key hon := by simpa [lib] using hon
  loaded pem key hload := by
    rcases loadPemPrivateKey_ok hload with rfl | rfl
    · rfl
    · rfl

end Reference

end QwedA2A
