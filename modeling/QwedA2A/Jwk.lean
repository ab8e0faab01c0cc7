/-
JWK import and export.  A coordinate leaves as unpadded base64url of its 32
big-endian bytes and comes back through the strict decoder; the exported key is
imported as the key it came from.
-/
import QwedA2A.CryptoLib
import QwedA2A.Radix64

namespace QwedA2A

open Radix64

def b64StdAlphabet : PyStr :=
  py "ABCDEFGHIJKLMNOPQRSTUVWXYZabcdefghijklmnopqrstuvwxyz0123456789+/"

/-- The alphabet of `urlsafe_b64encode`. -/
def b64UrlAlphabet : PyStr :=
  py "ABCDEFGHIJKLMNOPQRSTUVWXYZabcdefghijklmnopqrstuvwxyz0123456789-_"

def equalsSign : PyChar := PyChar.ofChar '='

/-- `s.rstrip(c)` for one character. -/
def rstripChar (c : PyChar) (s : PyStr) : PyStr :=
  (s.reverse.dropWhile (· = c)).reverse

/-- `s.translate(_B64URL_TO_B64_TABLE)` on one character. -/
def b64UrlToB64 (c : PyChar) : PyChar :=
  if c = PyChar.ofChar '-' then PyChar.ofChar '+'
  else if c = PyChar.ofChar '_' then PyChar.ofChar '/'
  else c

/-- `alphabet.find(char)`; `none` stands for -1. -/
def b64Index (c : PyChar) : Except PyExc ℕ :=
  match b64StdAlphabet.findIdx? (· = c) with
  | some index => .ok index
  | none => .error ⟨.valueError, py "Non-base64 character"⟩

/-- Decode padded standard-alphabet base64, rejecting junk. -/
def b64DecodeStrict (padded : PyStr) : Except PyExc (List ℕ) :=
  if padded.length % 4 ≠ 0 then
    .error ⟨.valueError, py "Bad base64 length"⟩
  else do
    let vals ← (rstripChar equalsSign padded).mapM b64Index
    match bytes? vals with
    | some out => .ok out
    | none => .error ⟨.valueError, py "Bad base64 padding"⟩

def b64UrlUint (s : PyStr) : Except PyExc ℕ :=
  if s.isEmpty ||
      s.any (fun c => !(b64UrlAlphabet.contains c) && c ≠ equalsSign) then
    .error ⟨.valueError, py "Non-base64url JWK coordinate"⟩
  else do
    let canonical := s.map b64UrlToB64
    let padded := canonical ++
      List.replicate ((4 - canonical.length % 4) % 4) equalsSign
    let raw ← b64DecodeStrict padded
    pure (ofBytesBE raw)

section Import

variable {Token R : Type}

/-- Convert an EC P-256 JWK to a PEM public key; `none` for anything else. -/
def jwkToPublicPem (lib : CryptoLib Token) (jwk : PyVal) : Option PyStr :=
  match jwk with
  | .dict entries =>
      match lib.hasCrypto, dictGet entries (py "kty"),
          dictGet entries (py "crv"), dictGet entries (py "x"),
          dictGet entries (py "y") with
      | true, some (.str kty), some (.str crv), some (.str x), some (.str y) =>
          if kty = py "EC" ∧ crv = py "P-256" then
            match b64UrlUint x, b64UrlUint y with
            | .ok x, .ok y =>
                if lib.onCurve ⟨x, y⟩ then some (lib.publicPem ⟨x, y⟩) else none
            | _, _ => none
          else none
      | _, _, _, _, _ => none
  | _ => none

/-- One character of `urlsafe_b64encode`. -/
def b64UrlChar (sextet : ℕ) : PyChar := b64UrlAlphabet.getD sextet equalsSign

/-- `base64.urlsafe_b64encode(raw)`. -/
def urlsafeB64Encode (raw : List ℕ) : PyStr :=
  (sextets raw).map b64UrlChar ++
    List.replicate ((3 - raw.length % 3) % 3) equalsSign

/-- `n.to_bytes(32, byteorder="big")`. -/
def toBytes32 (n : ℕ) : Except PyExc (List ℕ) :=
  if n < 256 ^ 32 then .ok (bytesBE 32 n)
  else .error ⟨.overflowError, py "int too big to convert"⟩

def coordinateText (raw : List ℕ) : PyStr :=
  rstripChar equalsSign (urlsafeB64Encode raw)

def publicKeyJwk (pair : KeyPair) : Except PyExc PyVal := do
  let x ← toBytes32 pair.key.publicKey.x
  let y ← toBytes32 pair.key.publicKey.y
  pure (.dict
    [(.str (py "kty"), .str (py "EC")),
      (.str (py "crv"), .str (py "P-256")),
      (.str (py "x"), .str (coordinateText x)),
      (.str (py "y"), .str (coordinateText y)),
      (.str (py "kid"), .str pair.keyId),
      (.str (py "use"), .str (py "sig")),
      (.str (py "alg"), .str (py "ES256"))])

def getPublicKeyJwk (lib : CryptoLib Token) (env : Env)
    (service : A2ACryptoService R) : Except PyExc PyVal := do
  publicKeyJwk (← ensureKeyPair lib env service)

end Import

theorem b64UrlChar_mem {v : ℕ} (hv : v < 64) :
    b64UrlAlphabet.contains (b64UrlChar v) = true := by
  have hall : ∀ v < 64, b64UrlAlphabet.contains (b64UrlChar v) = true := by
    decide +kernel
  exact hall v hv

theorem b64UrlChar_ne_equals {v : ℕ} (hv : v < 64) :
    b64UrlChar v ≠ equalsSign := by
  have hall : ∀ v < 64, b64UrlChar v ≠ equalsSign := by decide +kernel
  exact hall v hv

theorem b64UrlToB64_ne_equals {v : ℕ} (hv : v < 64) :
    b64UrlToB64 (b64UrlChar v) ≠ equalsSign := by
  have hall : ∀ v < 64, b64UrlToB64 (b64UrlChar v) ≠ equalsSign := by
    decide +kernel
  exact hall v hv

/-- The strict decoder finds each sextet where the encoder took it from. -/
theorem b64Index_b64UrlChar {v : ℕ} (hv : v < 64) :
    b64Index (b64UrlToB64 (b64UrlChar v)) = .ok v := by
  have hall : ∀ v < 64,
      b64StdAlphabet.findIdx? (· = b64UrlToB64 (b64UrlChar v)) = some v := by
    decide +kernel
  rw [b64Index, hall v hv]

theorem rstripChar_append_replicate {c : PyChar} {s : PyStr}
    (hclean : ∀ d ∈ s, d ≠ c) (count : ℕ) :
    rstripChar c (s ++ List.replicate count c) = s := by
  have hpad : (List.replicate count c ++ s.reverse).dropWhile (· = c) =
      s.reverse.dropWhile (· = c) := by
    rw [List.dropWhile_append_of_pos]
    intro d hd
    simpa using List.eq_of_mem_replicate hd
  have hkeep : s.reverse.dropWhile (· = c) = s.reverse := by
    cases hrev : s.reverse with
    | nil => rfl
    | cons head tail =>
        have hhead : head ≠ c :=
          hclean head (by rw [← List.mem_reverse, hrev]; simp)
        simp [hhead]
  rw [rstripChar, List.reverse_append, List.reverse_replicate, hpad, hkeep,
    List.reverse_reverse]

theorem coordinateText_eq {raw : List ℕ} (hraw : ∀ b ∈ raw, b < 256) :
    coordinateText raw = (sextets raw).map b64UrlChar := by
  refine rstripChar_append_replicate ?_ _
  intro d hd
  obtain ⟨v, hv, rfl⟩ := List.mem_map.mp hd
  exact b64UrlChar_ne_equals (sextets_lt hraw v hv)

theorem mapM_b64Index {vals : List ℕ} (hvals : ∀ v ∈ vals, v < 64) :
    (vals.map fun v => b64UrlToB64 (b64UrlChar v)).mapM b64Index =
      .ok vals := by
  induction vals with
  | nil => rfl
  | cons v rest ih =>
      rw [List.map_cons, List.mapM_cons, b64Index_b64UrlChar (hvals v (by simp)),
        ih fun w hw => hvals w (by simp [hw])]
      rfl

/-- The strict decoder undoes the exporter's encoding. -/
theorem b64UrlUint_coordinateText {raw : List ℕ} (hraw : ∀ b ∈ raw, b < 256)
    (hnonempty : raw ≠ []) :
    b64UrlUint (coordinateText raw) = .ok (ofBytesBE raw) := by
  have hlt := sextets_lt hraw
  have hlength := length_sextets raw
  have hpos : 0 < raw.length := List.length_pos_iff.mpr hnonempty
  rw [coordinateText_eq hraw]
  have hsome : ((sextets raw).map b64UrlChar).isEmpty = false := by
    rw [List.isEmpty_eq_false_iff, ne_eq, List.map_eq_nil_iff,
      ← List.length_eq_zero_iff]
    omega
  have hclean : ((sextets raw).map b64UrlChar).any
      (fun c => !(b64UrlAlphabet.contains c) && c ≠ equalsSign) = false := by
    rw [List.any_eq_false]
    intro c hc
    obtain ⟨v, hv, rfl⟩ := List.mem_map.mp hc
    simp only [b64UrlChar_mem (hlt v hv), Bool.not_true, Bool.false_and,
      Bool.false_eq_true, not_false_eq_true]
  have hcanonical : ((sextets raw).map b64UrlChar).map b64UrlToB64 =
      (sextets raw).map fun v => b64UrlToB64 (b64UrlChar v) := by
    rw [List.map_map]
    rfl
  have hstrip : ∀ count, rstripChar equalsSign
      (((sextets raw).map fun v => b64UrlToB64 (b64UrlChar v)) ++
        List.replicate count equalsSign) =
      (sextets raw).map fun v => b64UrlToB64 (b64UrlChar v) := by
    apply rstripChar_append_replicate
    intro d hd
    obtain ⟨v, hv, rfl⟩ := List.mem_map.mp hd
    exact b64UrlToB64_ne_equals (hlt v hv)
  have hwhole : (((sextets raw).map fun v => b64UrlToB64 (b64UrlChar v)) ++
      List.replicate ((4 - (sextets raw).length % 4) % 4) equalsSign).length %
        4 = 0 := by
    rw [List.length_append, List.length_map, List.length_replicate]
    omega
  rw [b64UrlUint, hsome, hclean, Bool.or_self,
    if_neg Bool.false_ne_true, hcanonical]
  simp only [List.length_map, b64DecodeStrict, hwhole, ne_eq, not_true_eq_false, if_false, hstrip,
    mapM_b64Index hlt, ok_bind, bytes?_sextets hraw]
  rfl

/-- A coordinate below `2 ^ 256` survives export and import. -/
theorem b64UrlUint_toBytes32 {n : ℕ} (hn : n < 256 ^ 32) :
    b64UrlUint (coordinateText (bytesBE 32 n)) = .ok n := by
  rw [b64UrlUint_coordinateText bytesBE_lt, ofBytesBE_bytesBE hn]
  intro hnil
  have hlength := length_bytesBE 32 n
  rw [hnil] at hlength
  exact absurd hlength (by decide)

/-- Points of the curve have coordinates that fit 32 bytes. -/
structure CryptoLib.LawfulCurve {Token : Type} (lib : CryptoLib Token) : Prop where
  coordinates : ∀ key, lib.onCurve key = true →
    key.x < 256 ^ 32 ∧ key.y < 256 ^ 32
  loaded : ∀ pem key,
    lib.loadPemPrivateKey pem = .ok (.ellipticCurve p256CurveName key) →
      lib.onCurve key.publicKey = true

/-- What is published for a key whose coordinates fit 32 bytes. -/
def publishedEntries (pair : KeyPair) : PyDict :=
  [(.str (py "kty"), .str (py "EC")),
    (.str (py "crv"), .str (py "P-256")),
    (.str (py "x"), .str (coordinateText (bytesBE 32 pair.key.publicKey.x))),
    (.str (py "y"), .str (coordinateText (bytesBE 32 pair.key.publicKey.y))),
    (.str (py "kid"), .str pair.keyId),
    (.str (py "use"), .str (py "sig")),
    (.str (py "alg"), .str (py "ES256"))]

theorem publicKeyJwk_eq {pair : KeyPair} (hx : pair.key.publicKey.x < 256 ^ 32)
    (hy : pair.key.publicKey.y < 256 ^ 32) :
    publicKeyJwk pair = .ok (.dict (publishedEntries pair)) := by
  simp only [publicKeyJwk, toBytes32, hx, hy, if_true]
  rfl

/-- What is published for a key on the curve is imported as that key. -/
theorem jwkToPublicPem_publishedEntries {Token : Type} {lib : CryptoLib Token}
    (hcrypto : lib.hasCrypto = true) {pair : KeyPair}
    (hon : lib.onCurve pair.key.publicKey = true)
    (hx : pair.key.publicKey.x < 256 ^ 32)
    (hy : pair.key.publicKey.y < 256 ^ 32) :
    jwkToPublicPem lib (.dict (publishedEntries pair)) =
      some (lib.publicPem pair.key.publicKey) := by
  simp +decide only [jwkToPublicPem, publishedEntries, hcrypto, dictGet_cons_str,
    if_true, if_false, b64UrlUint_toBytes32 hx, b64UrlUint_toBytes32 hy, hon]

/-- The exported JWK of a key on the curve is imported as that key, under the
label it was exported with. -/
theorem jwkToPublicPem_publicKeyJwk {Token : Type} {lib : CryptoLib Token}
    (hcrypto : lib.hasCrypto = true) (hcurve : lib.LawfulCurve) {pair : KeyPair}
    (hon : lib.onCurve pair.key.publicKey = true) :
    ∃ entries, publicKeyJwk pair = .ok (.dict entries) ∧
      jwkToPublicPem lib (.dict entries) =
        some (lib.publicPem pair.key.publicKey) ∧
      dictGet entries (py "kid") = some (.str pair.keyId) := by
  obtain ⟨hx, hy⟩ := hcurve.coordinates _ hon
  refine ⟨publishedEntries pair, publicKeyJwk_eq hx hy,
    jwkToPublicPem_publishedEntries hcrypto hon hx hy, ?_⟩
  simp +decide only [publishedEntries, dictGet_cons_str, if_true, if_false]

end QwedA2A
