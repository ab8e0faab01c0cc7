/-
The published key and the key that peers import.  Export writes the coordinates
with the library's encoder, import reads them with the strict decoder; between
them every coordinate is the identity.
-/
import QwedA2A.SignedClaims

namespace QwedA2A

open Radix64

/-- A coordinate comes back from its exported form as it was. -/
def CoordinateSurvives (n : ℕ) : Prop :=
  ∃ raw, toBytes32 n = .ok raw ∧ raw.length = 32 ∧
    b64UrlUint (coordinateText raw) = .ok n

/-- A coordinate that needs more than 32 bytes is not exported at all. -/
theorem coordinateSurvives_iff {n : ℕ} : CoordinateSurvives n ↔ n < 256 ^ 32 := by
  constructor
  · rintro ⟨raw, hraw, -⟩
    by_contra hbig
    rw [toBytes32, if_neg hbig] at hraw
    cases hraw
  · intro hfits
    exact ⟨bytesBE 32 n, if_pos hfits, length_bytesBE 32 n,
      b64UrlUint_toBytes32 hfits⟩

/-- Importing the JWK that a service exports gives the PEM of the service's own
public key, both coordinates unchanged, whatever bytes they start with. -/
theorem exported_jwk_imports_its_key {Token R : Type} (lib : CryptoLib Token)
    (env : Env) (service : A2ACryptoService R) (pair : KeyPair)
    (hpair : ensureKeyPair lib env service = .ok pair)
    (hon : lib.onCurve pair.key.publicKey = true)
    (hx : pair.key.publicKey.x < 2 ^ 256) (hy : pair.key.publicKey.y < 2 ^ 256) :
    ∃ jwk, getPublicKeyJwk lib env service = .ok jwk ∧
      jwkToPublicPem lib jwk = some (lib.publicPem pair.key.publicKey) ∧
      CoordinateSurvives pair.key.publicKey.x ∧
      CoordinateSurvives pair.key.publicKey.y := by
  have hcrypto := ensureKeyPair_hasCrypto hpair
  have hx' : pair.key.publicKey.x < 256 ^ 32 := by
    rwa [show 256 ^ 32 = 2 ^ 256 by norm_num]
  have hy' : pair.key.publicKey.y < 256 ^ 32 := by
    rwa [show 256 ^ 32 = 2 ^ 256 by norm_num]
  refine ⟨.dict (publishedEntries pair), ?_, ?_, coordinateSurvives_iff.mpr hx',
    coordinateSurvives_iff.mpr hy'⟩
  · rw [getPublicKeyJwk, hpair]
    exact publicKeyJwk_eq hx' hy'
  · exact jwkToPublicPem_publishedEntries hcrypto hon hx' hy'

/-- The reference key, whose coordinates are thirty-one zero bytes and a one. -/
theorem exported_jwk_imports_its_key_reference :
    ∃ jwk, getPublicKeyJwk Reference.lib Reference.env Reference.service = .ok jwk ∧
      jwkToPublicPem Reference.lib jwk =
        some (Reference.lib.publicPem Reference.keyPair.key.publicKey) ∧
      CoordinateSurvives 1 ∧ CoordinateSurvives 1 :=
  exported_jwk_imports_its_key Reference.lib Reference.env Reference.service
    Reference.keyPair (by decide +kernel) (by decide +kernel) (by decide)
    (by decide)

end QwedA2A
