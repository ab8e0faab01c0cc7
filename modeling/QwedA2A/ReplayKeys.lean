/-
Which attestations share a replay slot.  Own tokens are recorded under their jti
and peer tokens under issuer, NUL and jti, in one namespace.
-/
import QwedA2A.SignedClaims

namespace QwedA2A

variable {Token R : Type}

/-- One identity's slot text read as another's: a jti that spells out a peer's
slot, or an issuer ID that continues a shorter one past a NUL. -/
inductive Spells (issuerId : PyStr) : PyStr → PyStr → PyStr → PyStr → Prop
  | ownAsPeer (iss jti : PyStr) (hpeer : iss ≠ issuerId) :
      Spells issuerId issuerId (iss ++ [0] ++ jti) iss jti
  | peerAsPeer (iss rest jti : PyStr) (hshort : iss ≠ issuerId)
      (hlong : iss ++ [0] ++ rest ≠ issuerId) :
      Spells issuerId iss (rest ++ [0] ++ jti) (iss ++ [0] ++ rest) jti

/-- Two (iss, jti) pairs of which one spells the other's slot. -/
def Ambiguous (issuerId iss jti iss' jti' : PyStr) : Prop :=
  Spells issuerId iss jti iss' jti' ∨ Spells issuerId iss' jti' iss jti

theorem Spells.registryKey_eq {issuerId iss jti iss' jti' : PyStr}
    (h : Spells issuerId iss jti iss' jti') :
    registryKey issuerId iss jti = registryKey issuerId iss' jti' := by
  cases h with
  | ownAsPeer _ _ hpeer => simp [registryKey, hpeer]
  | peerAsPeer _ rest _ hshort hlong =>
      rw [registryKey, registryKey, if_pos hshort, if_pos hlong]
      simp only [List.append_assoc]

/-- Two texts joined at a NUL agree only when the parts do or one issuer text
continues the other past a NUL. -/
theorem joined_eq {iss jti iss' jti' : PyStr}
    (h : iss ++ [0] ++ jti = iss' ++ [0] ++ jti') :
    (iss = iss' ∧ jti = jti') ∨
      (∃ rest, iss' = iss ++ [0] ++ rest ∧ jti = rest ++ [0] ++ jti') ∨
      ∃ rest, iss = iss' ++ [0] ++ rest ∧ jti' = rest ++ [0] ++ jti := by
  rw [List.append_assoc, List.append_assoc, List.append_eq_append_iff] at h
  rcases h with ⟨gap, hiss, hrest⟩ | ⟨gap, hiss, hrest⟩
  · cases gap with
    | nil => exact Or.inl ⟨by simpa using hiss.symm, by simpa using hrest⟩
    | cons c gap =>
        simp only [List.cons_append, List.cons.injEq] at hrest
        obtain ⟨rfl, rfl⟩ := hrest
        exact Or.inr (Or.inl ⟨gap, by simpa using hiss, by simp⟩)
  · cases gap with
    | nil => exact Or.inl ⟨by simpa using hiss, by simpa using hrest.symm⟩
    | cons c gap =>
        simp only [List.cons_append, List.cons.injEq] at hrest
        obtain ⟨rfl, rfl⟩ := hrest
        exact Or.inr (Or.inr ⟨gap, by simpa using hiss, by simp⟩)

/-- The slot is injective but for the ambiguous pairs. -/
theorem registryKey_eq_iff {issuerId iss jti iss' jti' : PyStr}
    (hne : (iss, jti) ≠ (iss', jti')) :
    registryKey issuerId iss jti = registryKey issuerId iss' jti' ↔
      Ambiguous issuerId iss jti iss' jti' := by
  constructor
  · intro hkey
    by_cases hown : iss = issuerId <;> by_cases hown' : iss' = issuerId
    · subst hown
      simp only [registryKey, hown', ne_eq, not_true_eq_false, if_false] at hkey
      exact absurd (by rw [hkey, hown']) hne
    · subst hown
      simp only [registryKey, hown', ne_eq, not_true_eq_false, not_false_eq_true,
        if_false, if_true] at hkey
      rw [hkey]
      exact Or.inl (.ownAsPeer iss' jti' hown')
    · subst hown'
      simp only [registryKey, hown, ne_eq, not_true_eq_false, not_false_eq_true,
        if_false, if_true] at hkey
      rw [← hkey]
      exact Or.inr (.ownAsPeer iss jti hown)
    · simp only [registryKey, hown, hown', ne_eq, not_false_eq_true, if_true]
        at hkey
      rcases joined_eq hkey with ⟨rfl, rfl⟩ | ⟨rest, rfl, rfl⟩ | ⟨rest, rfl, rfl⟩
      · exact absurd rfl hne
      · exact Or.inl (.peerAsPeer iss rest jti' hown hown')
      · exact Or.inr (.peerAsPeer iss' rest jti hown' hown)
  · rintro (h | h)
    · exact h.registryKey_eq
    · exact h.registryKey_eq.symm

/-- The verification of one attestation against a registry state. -/
structure Presentation (Token : Type) where
  token : Token
  context : AttestationContext
  decodeNow : ℚ
  registerNow : ℚ
  ordered : decodeNow ≤ registerNow

/-- `verifyAttestation` on the service with the given registry state. -/
def Presentation.verify [ReplayRegistry R] (presentation : Presentation Token)
    (lib : CryptoLib Token) (env : Env) (service : A2ACryptoService R)
    (trustedIssuers : PyVal) (registry : R) : Except PyExc (VerifyResult × R) :=
  verifyAttestation lib env { service with jtiRegistry := registry }
    presentation.token presentation.context trustedIssuers presentation.decodeNow
    presentation.registerNow

/-- Accepting the first token never turns the acceptance of the second, later,
into a refusal. -/
def NeverShadows [ReplayRegistry R] (lib : CryptoLib Token) (env : Env)
    (service : A2ACryptoService R) (trustedIssuers : PyVal) (first second : Token) :
    Prop :=
  ∀ (registry registry' other other' : R) (p q : Presentation Token)
    (result result' refused : VerifyResult),
    p.token = first → q.token = second → p.registerNow ≤ q.registerNow →
      p.verify lib env service trustedIssuers registry = .ok (result, registry') →
        result.valid = true →
          q.verify lib env service trustedIssuers registry =
            .ok (result', other) → result'.valid = true →
            q.verify lib env service trustedIssuers registry' =
              .ok (refused, other') → refused.valid = true

section Shadow

variable [ReplayRegistry R] [LawfulReplayRegistry R] {lib : CryptoLib Token}
  {env : Env} {service : A2ACryptoService R} {trustedIssuers : PyVal}

omit [LawfulReplayRegistry R] in
/-- An accepted presentation passed its checks and found its slot free. -/
theorem verify_valid {presentation : Presentation Token} {registry registry' : R}
    {result : VerifyResult}
    (h : presentation.verify lib env service trustedIssuers registry =
      .ok (result, registry')) (hvalid : result.valid = true) :
    ∃ pending, beginVerification lib env service presentation.token
        presentation.context trustedIssuers presentation.decodeNow =
          .ok (.ok pending) ∧
      (result, registry') =
        finishVerification registry pending presentation.registerNow := by
  rcases verifyAttestation_ok_iff.mp h with
    ⟨reason, _, rfl, _⟩ | ⟨pending, hbegin, hfinish⟩
  · cases hvalid
  · exact ⟨pending, hbegin, hfinish⟩

/-- Asking for one slot leaves the others free that were free. -/
theorem finishVerification_other {registry : R} {pending pending' : PendingReplay}
    {now now' : ℚ} (hkey : pending'.key ≠ pending.key)
    (hvalid : (finishVerification registry pending' now').1.valid = true) :
    (finishVerification (finishVerification registry pending now).2 pending'
      now').1.valid = true := by
  rw [finishVerification_valid_iff] at hvalid ⊢
  intro expiry hheld
  rw [finishVerification_registry] at hheld
  rcases LawfulReplayRegistry.only _ _ _ _ _ _ hheld with hbefore | ⟨hsame, _⟩
  · exact hvalid expiry hbefore
  · exact absurd hsame hkey

/-- Tokens with different slots never shadow each other. -/
theorem neverShadows_of_key_ne (hjwt : lib.LawfulJwt) {first second : Token}
    {context context' : AttestationContext} {now now' : ℚ}
    {pending pending' : PendingReplay}
    (hfirst : beginVerification lib env service first context trustedIssuers now =
      .ok (.ok pending))
    (hsecond : beginVerification lib env service second context' trustedIssuers
      now' = .ok (.ok pending'))
    (hkey : pending'.key ≠ pending.key) :
    NeverShadows lib env service trustedIssuers first second := by
  intro registry registry' other other' p q result result' refused hp hq _ hfirstOk
    hvalid hsecondOk hvalid' hagain
  subst hp hq
  obtain ⟨found, hfound, hregister⟩ := verify_valid hfirstOk hvalid
  obtain ⟨found', hfound', hregister'⟩ := verify_valid hsecondOk hvalid'
  have hslot : found.key = pending.key := by
    rw [beginVerification_key hfound, beginVerification_key hfirst,
      (hjwt.pending_eq hfound hfirst).2]
  have hslot' : found'.key = pending'.key := by
    rw [beginVerification_key hfound', beginVerification_key hsecond,
      (hjwt.pending_eq hfound' hsecond).2]
  have hanswer : (refused, other') = finishVerification registry' found'
      q.registerNow := by
    have hverify : q.verify lib env service trustedIssuers registry' =
        .ok (finishVerification registry' found' q.registerNow) :=
      verifyAttestation_ok_iff.mpr (Or.inr ⟨found', hfound', rfl⟩)
    exact Except.ok.inj (hagain.symm.trans hverify)
  have hafter : registry' = (finishVerification registry found p.registerNow).2 :=
    congrArg Prod.snd hregister
  have hanswered : refused = (finishVerification registry' found'
      q.registerNow).1 := congrArg Prod.fst hanswer
  have hfreed : result' = (finishVerification registry found' q.registerNow).1 :=
    congrArg Prod.fst hregister'
  rw [hfreed] at hvalid'
  rw [hanswered, hafter]
  exact finishVerification_other (by rw [hslot, hslot']; exact hkey) hvalid'

/-- Tokens that share a slot: the earlier accepted one shadows the other while it
is live. -/
theorem shadows_of_key_eq (empty : R)
    (hempty : ∀ key, ReplayRegistry.held empty key = none) {first second : Token}
    {context context' : AttestationContext} {now now' time : ℚ}
    {pending pending' : PendingReplay}
    (hfirst : beginVerification lib env service first context trustedIssuers now =
      .ok (.ok pending))
    (hsecond : beginVerification lib env service second context' trustedIssuers
      now' = .ok (.ok pending'))
    (hkey : pending'.key = pending.key) (hnow : now ≤ time) (hnow' : now' ≤ time)
    (hlive : PyNum.rat time < pending.envelope.exp) :
    ¬ NeverShadows lib env service trustedIssuers first second := by
  intro hnever
  have hfree : ∀ (pending : PendingReplay),
      (finishVerification empty pending time).1.valid = true := by
    intro pending
    rw [finishVerification_valid_iff]
    intro expiry hheld
    rw [hempty] at hheld
    cases hheld
  have haccept := (LawfulReplayRegistry.accept_iff empty pending.key time
    (some pending.envelope.exp)).mpr
      ((finishVerification_valid_iff _ _ _).mp (hfree pending))
  obtain ⟨expiry, hheld, hcovers⟩ := LawfulReplayRegistry.registered _ _ _ _ haccept
  have hshadowed : (finishVerification (finishVerification empty pending time).2
      pending' time).1.valid = true :=
    hnever empty (finishVerification empty pending time).2 _ _
    ⟨first, context, now, time, hnow⟩ ⟨second, context', now', time, hnow'⟩
    _ _ _ rfl rfl le_rfl
    (verifyAttestation_ok_iff.mpr (Or.inr ⟨pending, hfirst, rfl⟩))
    (hfree pending)
    (verifyAttestation_ok_iff.mpr (Or.inr ⟨pending', hsecond, rfl⟩))
    (hfree pending')
    (verifyAttestation_ok_iff.mpr (Or.inr ⟨pending', hsecond, rfl⟩))
  rw [finishVerification_valid_iff] at hshadowed
  refine hshadowed expiry ?_ (hcovers time (Or.inr ⟨_, rfl, hlive⟩))
  rw [hkey, finishVerification, if_pos haccept]
  exact hheld

/-- Two attestations that pass their checks and differ in issuer or jti never
shadow each other, in either order, exactly when neither spells the other's
slot. -/
theorem attestations_never_shadow_iff (lib : CryptoLib Token) (env : Env)
    (service : A2ACryptoService R) (trustedIssuers : PyVal) (empty : R)
    (hempty : ∀ key, ReplayRegistry.held empty key = none) (hjwt : lib.LawfulJwt)
    (first second : Token) (context context' : AttestationContext) (now now' : ℚ)
    (pending pending' : PendingReplay)
    (hfirst : beginVerification lib env service first context trustedIssuers now =
      .ok (.ok pending))
    (hsecond : beginVerification lib env service second context' trustedIssuers
      now' = .ok (.ok pending'))
    (hne : (pending.envelope.iss, pending.envelope.jti) ≠
      (pending'.envelope.iss, pending'.envelope.jti)) :
    (NeverShadows lib env service trustedIssuers first second ∧
        NeverShadows lib env service trustedIssuers second first) ↔
      ¬ Ambiguous service.issuerId pending.envelope.iss pending.envelope.jti
        pending'.envelope.iss pending'.envelope.jti := by
  rw [← registryKey_eq_iff hne, ← beginVerification_key hfirst,
    ← beginVerification_key hsecond]
  constructor
  · rintro ⟨hforward, hbackward⟩ hkey
    rcases le_total now now' with hle | hle
    · exact shadows_of_key_eq empty hempty hsecond hfirst hkey le_rfl hle
        (hjwt.pending_live hsecond) hbackward
    · exact shadows_of_key_eq empty hempty hfirst hsecond hkey.symm le_rfl hle
        (hjwt.pending_live hfirst) hforward
  · intro hkey
    exact ⟨neverShadows_of_key_ne hjwt hfirst hsecond (Ne.symm hkey),
      neverShadows_of_key_ne hjwt hsecond hfirst hkey⟩

end Shadow

namespace Reference

def peerPair : KeyPair := ⟨py "did:b", py "b1", ⟨py "key two", ⟨2, 2⟩⟩⟩

def peerEnv : Env := { deploymentId := py "peer", deploymentIdSet := by decide }

def pending (env : Env) (pair : KeyPair) (traceId key : PyStr) : PendingReplay where
  rawClaims := (minted env pair 300 traceId).payload
  envelope := signedEnvelope pair.issuerId 300 (signRequest traceId) 0
  key := key

end Reference

/-- A trace ID that spells a peer's slot is shadowed by the peer's token. -/
theorem attestations_shadow_spelled :
    beginVerification Reference.lib Reference.env Reference.service
        (Reference.token (py "did:b\x00t")) Reference.context
        (.dict Reference.peerIssuers) 0 =
          .ok (.ok (Reference.pending Reference.env Reference.keyPair
            (py "did:b\x00t") (py "did:b\x00t"))) ∧
      beginVerification Reference.lib Reference.env Reference.service
        (Reference.minted Reference.peerEnv Reference.peerPair 300 (py "t"))
        Reference.context (.dict Reference.peerIssuers) 0 =
          .ok (.ok (Reference.pending Reference.peerEnv Reference.peerPair
            (py "t") (py "did:b\x00t"))) ∧
      ¬ NeverShadows Reference.lib Reference.env Reference.service
        (.dict Reference.peerIssuers)
        (Reference.minted Reference.peerEnv Reference.peerPair 300 (py "t"))
        (Reference.token (py "did:b\x00t")) := by
  have hown : beginVerification Reference.lib Reference.env Reference.service
      (Reference.token (py "did:b\x00t")) Reference.context
      (.dict Reference.peerIssuers) 0 =
        .ok (.ok (Reference.pending Reference.env Reference.keyPair
          (py "did:b\x00t") (py "did:b\x00t"))) := rfl
  have hpeer : beginVerification Reference.lib Reference.env Reference.service
      (Reference.minted Reference.peerEnv Reference.peerPair 300 (py "t"))
      Reference.context (.dict Reference.peerIssuers) 0 =
        .ok (.ok (Reference.pending Reference.peerEnv Reference.peerPair
          (py "t") (py "did:b\x00t"))) := rfl
  exact ⟨hown, hpeer, shadows_of_key_eq ({} : JtiRegistry)
    (fun _ => rfl) hpeer hown rfl le_rfl le_rfl
    (Reference.lawfulJwt.pending_live hpeer)⟩

/-- One trace ID used by both issuers shadows nothing. -/
theorem attestations_never_shadow_shared_trace :
    NeverShadows Reference.lib Reference.env Reference.service
        (.dict Reference.peerIssuers) (Reference.token (py "t"))
        (Reference.minted Reference.peerEnv Reference.peerPair 300 (py "t")) ∧
      NeverShadows Reference.lib Reference.env Reference.service
        (.dict Reference.peerIssuers)
        (Reference.minted Reference.peerEnv Reference.peerPair 300 (py "t"))
        (Reference.token (py "t")) := by
  refine (attestations_never_shadow_iff Reference.lib Reference.env
    Reference.service (.dict Reference.peerIssuers) ({} : JtiRegistry)
    (fun _ => rfl) Reference.lawfulJwt _ _ Reference.context Reference.context 0 0
    (Reference.pending Reference.env Reference.keyPair (py "t") (py "t"))
    (Reference.pending Reference.peerEnv Reference.peerPair (py "t")
      (py "did:b\x00t")) rfl rfl ?_).mpr ?_
  · decide
  · rw [← registryKey_eq_iff (by decide)]
    decide

end QwedA2A
