/-
The whole handoff.  Gateways of one issuer intercept messages and return attested
verdicts; receivers ask verifiers about whatever tokens they are handed, by
whomever.  What a verifier accepts from the issuer, some gateway has attested.
-/
import QwedA2A.InterceptRun
import QwedA2A.Replay
import QwedA2A.PayloadBinding

namespace QwedA2A

open EventRun PyJson

variable {ι Token Tree R : Type}

/-- The gateways that attest under one issuer ID, and the texts of their public
keys. -/
structure Fleet (ι Token Tree : Type) where
  lib : CryptoLib Token
  issuerId : PyStr
  gateway : ι → InterceptorSetup Token Tree
  keys : Set PyStr
  sameLib : ∀ i, (gateway i).lib = lib
  sameIssuer : ∀ i, (gateway i).crypto.issuerId = issuerId

/-- A stretch of a call at one of the gateways, or a step of a verification. -/
inductive HandoffEvent (ι Token R : Type) where
  | gateway (i : ι) (event : InterceptEvent)
  | verifier (event : VerifyEvent Token R)

/-- The gateways, and the verifiers that share a registry. -/
structure HandoffState (ι Token R : Type) where
  gateways : ι → InterceptState Token
  verifier : VerifyState Token R

/-- What a gateway writes into the attestation of a verdict. -/
def InterceptorSetup.attestedClaims (setup : InterceptorSetup Token Tree)
    (interception : Interception Token) (verdict : VerificationVerdict Token)
    (hash : PyStr) : PyDict :=
  signPayload setup.env setup.crypto.issuerId setup.crypto.validitySeconds
    { traceId := interception.entry.traceId
      verdictStatus := verdict.status.value
      engine := verdict.engineUsed
      senderId := interception.entry.message.senderAgentId
      receiverId := interception.entry.message.receiverAgentId
      payloadHash := hash }
    verdict.status (truncate interception.clock.signedAt)

/-- The call returned an attested verdict with these claims. -/
structure InterceptorSetup.Attests (setup : InterceptorSetup Token Tree)
    (interception : Interception Token) (verdict : VerificationVerdict Token)
    (claims : PyDict) : Prop where
  returned : interception.result = .ok verdict
  attested : verdict.attestationJwt.isSome = true
  written : ∃ hash, payloadHash setup.lib (.dict interception.entry.message.payload) =
    .ok hash ∧ claims = setup.attestedClaims interception verdict hash

namespace Fleet

variable (fleet : Fleet ι Token Tree)

section Machine

variable [DecidableEq ι] [ReplayRegistry R]

def step (state : HandoffState ι Token R) :
    HandoffEvent ι Token R → HandoffState ι Token R
  | .gateway i event =>
      { state with
        gateways := Function.update state.gateways i
          ((fleet.gateway i).step (state.gateways i) event) }
  | .verifier event =>
      { state with verifier := verifyStep fleet.lib state.verifier event }

/-- The state after a run, from gateways around their boundaries. -/
def after (boundary : ι → TrustBoundary) (registry : R)
    (run : List (HandoffEvent ι Token R)) : HandoffState ι Token R :=
  final fleet.step
    { gateways := fun i => (fleet.gateway i).start (boundary i)
      verifier := { registry } } run

def gatewayRun (i : ι) (run : List (HandoffEvent ι Token R)) :
    List InterceptEvent :=
  run.filterMap fun event =>
    match event with
    | .gateway j event => if j = i then some event else none
    | .verifier _ => none

/-- Some gateway has returned a verdict attested with these claims. -/
def AttestedIn (state : HandoffState ι Token R) (claims : PyDict) : Prop :=
  ∃ i, ∃ interception ∈ (state.gateways i).ended, ∃ verdict,
    (fleet.gateway i).Attests interception verdict claims

/-- The keys a verifying service has for the issuer are the gateways'. -/
def KnownTo (request : VerifyCall Token R) : Prop :=
  ∀ issuers candidate,
    loadTrustedIssuers fleet.lib request.env request.trustedIssuers = .ok issuers →
      candidate ∈ ownedKeys fleet.lib request.env request.service issuers →
        candidate.issuer = fleet.issuerId → candidate.pem ∈ fleet.keys

/-- A token that verifies under a gateway's key says what a gateway has attested,
wherever the token itself comes from. -/
def Unforged (state : HandoffState ι Token R) (token : Token) (now : ℚ) : Prop :=
  ∀ pem ∈ fleet.keys, ∀ decoded,
    fleet.lib.decodeComplete token pem now = .ok decoded →
      ∃ claims, decoded.payload = .dict claims ∧ fleet.AttestedIn state claims

/-- What is assumed of a verification: its service knows the issuer's keys, and
the token is not forged. -/
def Faithful (boundary : ι → TrustBoundary) (registry : R)
    (past : List (HandoffEvent ι Token R)) : HandoffEvent ι Token R → Prop
  | .verifier (.decode _ request now) =>
      fleet.KnownTo request ∧
        fleet.Unforged (fleet.after boundary registry past) request.token now
  | _ => True

variable {boundary : ι → TrustBoundary} {registry : R}
  {past run : List (HandoffEvent ι Token R)}

theorem after_snoc (past : List (HandoffEvent ι Token R))
    (event : HandoffEvent ι Token R) :
    fleet.after boundary registry (past ++ [event]) =
      fleet.step (fleet.after boundary registry past) event :=
  final_snoc fleet.step _ past event

theorem after_gateways (i : ι) :
    (fleet.after boundary registry run).gateways i =
      (fleet.gateway i).after (boundary i) (gatewayRun i run) := by
  induction run using List.reverseRecOn with
  | nil => rfl
  | append_singleton past event ih =>
      rw [after_snoc, gatewayRun, List.filterMap_append]
      cases event with
      | gateway j event =>
          by_cases hgateway : j = i
          · subst hgateway
            simp only [step, Function.update_self, List.filterMap_cons, if_true,
              List.filterMap_nil]
            rw [ih]
            exact (InterceptorSetup.after_snoc _ _ _ _).symm
          · simp only [step, List.filterMap_cons, hgateway, if_false,
              List.filterMap_nil, List.append_nil]
            rw [Function.update_of_ne (Ne.symm hgateway)]
            exact ih
      | verifier event => simpa [step, gatewayRun] using ih

/-- What waits for the registry or was accepted passed its checks at a decode of
the run. -/
theorem decoded_run (boundary : ι → TrustBoundary) (registry : R)
    (run : List (HandoffEvent ι Token R)) :
    FromCalls (fun request pending => ∃ past call now,
        past ++ [.verifier (.decode call request now)] <+: run ∧
          request.begin fleet.lib now = .ok (.ok pending))
      (fleet.after boundary registry run).verifier := by
  induction run using List.reverseRecOn with
  | nil => exact ⟨fun _ _ _ h => (nomatch h), fun _ h => nomatch h⟩
  | append_singleton past event ih =>
      have hearlier : FromCalls (fun request pending => ∃ before call now,
          before ++ [.verifier (.decode call request now)] <+: past ++ [event] ∧
            request.begin fleet.lib now = .ok (.ok pending))
          (fleet.after boundary registry past).verifier := by
        refine ⟨fun call request pending hwaiting => ?_, fun acceptance hmem => ?_⟩
        · obtain ⟨before, call, now, hbefore, hbegin⟩ :=
            ih.waiting call request pending hwaiting
          exact ⟨before, call, now, hbefore.trans (List.prefix_append _ _), hbegin⟩
        · obtain ⟨before, call, now, hbefore, hbegin⟩ := ih.accepted acceptance hmem
          exact ⟨before, call, now, hbefore.trans (List.prefix_append _ _), hbegin⟩
      rw [after_snoc]
      cases event with
      | gateway i event => exact hearlier
      | verifier event =>
          refine hearlier.step event fun call request now pending hdecode hbegin => ?_
          subst hdecode
          exact ⟨past, call, now, List.prefix_rfl, hbegin⟩

end Machine

end Fleet

/-- What an acceptance and the call behind it agree on. -/
structure Agree (fleet : Fleet ι Token Tree) (setup : InterceptorSetup Token Tree)
    (acceptance : Acceptance Token R) (interception : Interception Token)
    (verdict : VerificationVerdict Token) : Prop where
  returned : interception.result = .ok verdict
  trace : acceptance.pending.envelope.jti = interception.entry.traceId
  sender : acceptance.request.context.senderAgentId =
    interception.entry.message.senderAgentId
  receiver : acceptance.request.context.receiverAgentId =
    interception.entry.message.receiverAgentId
  sameHash : payloadHash fleet.lib acceptance.request.context.payload =
    payloadHash fleet.lib (.dict interception.entry.message.payload)
  payload : ∀ {isFloat : ℚ → PyStr → Prop}, FloatRepr isFloat →
    fleet.lib.CollisionFree →
      JsonValue (fun s => isUnicode s = true) isFloat
        acceptance.request.context.payload →
      JsonValue (fun s => isUnicode s = true) isFloat
        (.dict interception.entry.message.payload) →
        SameValue acceptance.request.context.payload
          (.dict interception.entry.message.payload)
  admissible : isAdmissible (.dict acceptance.pending.rawClaims) = true →
    Interceptor.Admitted setup.fixed interception.entry.boundary
      interception.entry.message interception.entry.clock interception.pool

/-- An attested verdict that was returned as VERIFIED was admitted. -/
theorem InterceptorSetup.Atomic.admitted {setup : InterceptorSetup Token Tree}
    {trust : TrustBoundary} {run : List InterceptEvent}
    {interception : Interception Token} {verdict : VerificationVerdict Token}
    (h : setup.Atomic trust run interception)
    (hreturned : interception.result = .ok verdict)
    (hverified : verdict.status = .verified) :
    Interceptor.Admitted setup.fixed interception.entry.boundary
      interception.entry.message interception.entry.clock interception.pool := by
  obtain ⟨draft, hdraft, hbuild⟩ :=
    Interceptor.intercept_ok (h.result.symm.trans hreturned)
  have hstatus := (Interceptor.buildVerdict_ok hbuild).1
  obtain ⟨hmeasured, htrusted, hfinancial, henabled, hfinished, hresult⟩ :=
    Interceptor.draft_verified hdraft (hstatus.symm.trans hverified)
  exact ⟨hmeasured, htrusted, hfinancial, henabled, hfinished, hresult⟩

/-- A verification that reads a gateway's claims agrees with the call behind
them. -/
theorem agree_of_attests {fleet : Fleet ι Token Tree} {i : ι}
    {trust : TrustBoundary} {run : List InterceptEvent}
    {acceptance : Acceptance Token R} {interception : Interception Token}
    {verdict : VerificationVerdict Token} {now : ℚ} {issuers : Issuers}
    {candidate : Candidate} {decoded : DecodedToken} {claims : QwedA2AClaims}
    (hattests : (fleet.gateway i).Attests interception verdict
      acceptance.pending.rawClaims)
    (hatomic : (fleet.gateway i).Atomic trust run interception)
    (hreach : ReachesRegistry fleet.lib acceptance.request.env
      acceptance.request.service acceptance.request.token
      acceptance.request.context acceptance.request.trustedIssuers now
      acceptance.pending issuers candidate decoded claims) :
    Agree fleet (fleet.gateway i) acceptance interception verdict := by
  obtain ⟨hreturned, _, hash, hhash, hclaims⟩ := hattests
  rw [fleet.sameLib] at hhash
  have henvelope := hreach.verified.typed
  have hparsed := hreach.parsed
  rw [hclaims, InterceptorSetup.attestedClaims] at henvelope hparsed
  rw [signPayload_envelope, Option.some.injEq] at henvelope
  rw [signPayload_claims, Option.some.injEq] at hparsed
  have hsender := hreach.fit.sender
  have hreceiver := hreach.fit.receiver
  have hcontext := hreach.fit.payload
  rw [← hparsed] at hsender hreceiver
  rw [← henvelope] at hcontext
  refine
    { returned := hreturned
      trace := by rw [← henvelope]; rfl
      sender := hsender.symm
      receiver := hreceiver.symm
      sameHash := hcontext.trans hhash.symm
      payload := fun hrepr hfree hleft hright => ?_
      admissible := fun hadmissible => ?_ }
  · exact sameValue_of_hash hrepr hfree hleft hright hcontext hhash
  · rw [hclaims, InterceptorSetup.attestedClaims, signPayload_admissible]
      at hadmissible
    exact hatomic.admitted hreturned (of_decide_eq_true hadmissible)

/-- Whatever receivers are handed, and however calls, verifications and operators
interleave: a token accepted as the issuer's was attested by one of its gateways
before it was decoded, in a call for the same sender, receiver and payload; and if
its claims are admissible, that call was let through by the boundary of its
moment and verified its payload within the budget. -/
theorem handoff_agreement [DecidableEq ι] [ReplayRegistry R]
    (fleet : Fleet ι Token Tree) (boundary : ι → TrustBoundary) (registry : R)
    (run : List (HandoffEvent ι Token R))
    (hfaithful : Admissible (fleet.Faithful boundary registry) run)
    (acceptance : Acceptance Token R)
    (haccepted : acceptance ∈ (fleet.after boundary registry run).verifier.accepted)
    (hissuer : acceptance.pending.envelope.iss = fleet.issuerId) :
    ∃ past call now, past ++ [.verifier (.decode call acceptance.request now)] <+:
        run ∧
      ∃ i, ∃ interception ∈
          ((fleet.after boundary registry past).gateways i).ended, ∃ verdict,
        (fleet.gateway i).Atomic (boundary i) (Fleet.gatewayRun i past)
          interception ∧
        Agree fleet (fleet.gateway i) acceptance interception verdict := by
  obtain ⟨past, call, now, hpast, hbegin⟩ :=
    (fleet.decoded_run boundary registry run).accepted acceptance haccepted
  obtain ⟨issuers, candidate, decoded, claims, hreach⟩ := beginVerification_ok hbegin
  obtain ⟨rest, hrest⟩ := hpast
  obtain ⟨hknown, hunforged⟩ := hfaithful past
    (.verifier (.decode call acceptance.request now)) rest (by
      rw [← hrest, List.append_assoc]
      rfl)
  have hkey : candidate.pem ∈ fleet.keys :=
    hknown issuers candidate hreach.loaded hreach.owned
      (hreach.verified.issuer.symm.trans hissuer)
  obtain ⟨signed, hsigned, i, interception, hended, verdict, hattests⟩ :=
    hunforged candidate.pem hkey decoded hreach.verified.signature
  rw [hreach.verified.payload, PyVal.dict.injEq] at hsigned
  rw [← hsigned] at hattests
  have hatomic : (fleet.gateway i).Atomic (boundary i) (Fleet.gatewayRun i past)
      interception := by
    rw [fleet.after_gateways] at hended
    exact ((fleet.gateway i).traced _ _).ended interception hended
  exact ⟨past, call, now, ⟨rest, hrest⟩, i, interception, hended, verdict, hatomic,
    agree_of_attests hattests hatomic hreach⟩

namespace Reference

def fleet : Fleet Unit SignedToken Unit where
  lib := lib
  issuerId := py "did:a"
  gateway _ := setup
  keys := {py "PEM 1"}
  sameLib _ := rfl
  sameIssuer _ := rfl

def invoiceHash : PyStr :=
  (payloadHash lib (.dict invoice)).toOption.getD []

def invoiceToken : SignedToken :=
  ⟨signHeader keyPair,
    signPayload env (py "did:a") 300
      ⟨py "t", py "verified", py "finance_guard", py "a", py "b", invoiceHash, none⟩
      .verified (truncate 1), ⟨1, 1⟩⟩

def fleetIssuers : PyDict :=
  [(.str (py "did:a"), issuerEntry (py "prod") (jwk (py "AQ") (py "did:a#key-k")))]

def invoiceRequest : VerifyCall SignedToken JtiRegistry where
  instanceId := 0
  env := env
  service := otherService
  token := invoiceToken
  context := ⟨py "a", py "b", .dict invoice, none⟩
  trustedIssuers := .dict fleetIssuers

def handedOver : List (HandoffEvent Unit SignedToken JtiRegistry) :=
  [.gateway () (invoiceCall 0 (py "t") 0),
    .gateway () (.resume 0 .finishes (verdictClock 1)),
    .verifier (.decode 0 invoiceRequest 2), .verifier (.register 0 3)]

theorem fleet_knownTo : fleet.KnownTo invoiceRequest := by
  let entry : IssuerEntry :=
    ⟨py "prod", [⟨py "PEM 1", some (py "did:a#key-k")⟩], by decide, by decide⟩
  have hload : loadTrustedIssuers lib env (.dict fleetIssuers) =
      .ok [(py "did:a", entry)] := rfl
  have hkeys : ((ownedKeys lib env otherService [(py "did:a", entry)]).all
      fun candidate => candidate.issuer ≠ py "did:a" ∨
        candidate.pem = py "PEM 1") = true := by
    decide +kernel
  intro issuers candidate hissuers hmem hissuer
  cases hload.symm.trans hissuers
  exact (of_decide_eq_true (List.all_eq_true.mp hkeys candidate hmem)).resolve_left
    (not_not.mpr hissuer)

def invoiceEnded : List (Interception SignedToken) :=
  ((fleet.after (fun _ => .fresh 60 true) ({} : JtiRegistry)
    (handedOver.take 2)).gateways ()).ended

theorem invoiceToken_attested :
    fleet.AttestedIn (fleet.after (fun _ => .fresh 60 true) ({} : JtiRegistry)
      (handedOver.take 2)) invoiceToken.payload := by
  have hentered : invoiceEnded.map (fun interception =>
      (interception.entry.traceId, interception.entry.message.senderAgentId,
        interception.entry.message.receiverAgentId)) =
      [(py "t", py "a", py "b")] := by
    decide +kernel
  have hreturned : invoiceEnded.map (fun interception =>
      (interception.clock.signedAt, interception.result.toOption.map fun verdict =>
        (verdict.status, verdict.engineUsed, verdict.attestationJwt.isSome))) =
      [(1, some (.verified, py "finance_guard", true))] := by
    decide +kernel
  have hhashed : invoiceEnded.map (fun interception =>
      (payloadHash lib (.dict interception.entry.message.payload)).toOption) =
      [some invoiceHash] := by
    decide +kernel
  obtain ⟨interception, rest, hended, hfirst, _⟩ := List.map_eq_cons_iff.mp hentered
  rw [hended, List.map_cons, List.cons.injEq] at hreturned hhashed
  have hsecond := hreturned.1
  have hhash := hhashed.1
  simp only [Prod.mk.injEq] at hfirst hsecond
  obtain ⟨htrace, hsender, hreceiver⟩ := hfirst
  obtain ⟨hclock, hresult⟩ := hsecond
  refine ⟨(), interception, ?_, ?_⟩
  · rw [← invoiceEnded, hended]
    exact List.mem_cons_self
  cases hverdict : interception.result with
  | error exc =>
      rw [hverdict] at hresult
      cases hresult
  | ok verdict =>
      rw [hverdict] at hresult
      simp only [Except.toOption, Option.map_some, Option.some.injEq,
        Prod.mk.injEq] at hresult
      obtain ⟨hstatus, hengine, hattested⟩ := hresult
      refine ⟨verdict, hverdict, hattested, invoiceHash, ?_, ?_⟩
      · cases hpayload : payloadHash lib (.dict interception.entry.message.payload)
          with
        | error exc =>
            rw [hpayload] at hhash
            cases hhash
        | ok hash =>
            rw [hpayload] at hhash
            cases hhash
            exact hpayload
      · rw [InterceptorSetup.attestedClaims, htrace, hsender, hreceiver, hclock,
          hstatus, hengine]
        rfl

theorem handedOver_faithful :
    Admissible (fleet.Faithful (fun _ => .fresh 60 true) ({} : JtiRegistry))
      handedOver := by
  refine @Admissible.snoc _ _ [_, _, _] _ ?_ trivial
  refine @Admissible.snoc _ _ [_, _] _ ?_ ⟨fleet_knownTo, ?_⟩
  · refine @Admissible.snoc _ _ [_] _ ?_ trivial
    exact @Admissible.snoc _ _ [] _ (Admissible.nil _) trivial
  · intro pem _ decoded hdecode
    obtain ⟨_, rfl, _⟩ := decodeComplete_ok hdecode
    exact ⟨invoiceToken.payload, rfl, invoiceToken_attested⟩

end Reference

/-- The peer accepts the attestation of the invoice, and it is the gateway's. -/
theorem handoff_agreement_invoice :
    ∃ acceptance, (Reference.fleet.after (fun _ => .fresh 60 true)
        ({} : JtiRegistry) Reference.handedOver).verifier.accepted = [acceptance] ∧
      ∃ interception verdict, Agree Reference.fleet (Reference.fleet.gateway ())
        acceptance interception verdict := by
  have hsummary : (Reference.fleet.after (fun _ => .fresh 60 true)
      ({} : JtiRegistry) Reference.handedOver).verifier.accepted.map
        (fun acceptance => acceptance.pending.envelope.iss) = [py "did:a"] := by
    decide +kernel
  obtain ⟨acceptance, rest, haccepted, hissuer, hrest⟩ :=
    List.map_eq_cons_iff.mp hsummary
  rw [List.map_eq_nil_iff.mp hrest] at haccepted
  obtain ⟨_, _, _, _, _, interception, _, verdict, _, hagree⟩ :=
    handoff_agreement Reference.fleet (fun _ => .fresh 60 true) ({} : JtiRegistry)
      Reference.handedOver Reference.handedOver_faithful acceptance
      (by rw [haccepted]; exact List.mem_cons_self) hissuer
  exact ⟨acceptance, haccepted, interception, verdict, hagree⟩

end QwedA2A
