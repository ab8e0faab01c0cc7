/-
How often one token is accepted, on one service and across the services that
share a registry.
-/
import QwedA2A.Replay

namespace QwedA2A

open EventRun

variable {Token R : Type} [ReplayRegistry R]

/-- A condition on the registry's answers: what has to hold between each earlier
acceptance of a token and the call that presents it again. -/
def RegistersMeeting
    (condition : VerifyState Token R → Acceptance Token R →
      VerifyCall Token R → PendingReplay → ℚ → Prop)
    (lib : CryptoLib Token) (registry : R) (past : List (VerifyEvent Token R)) :
    VerifyEvent Token R → Prop
  | .decode _ _ _ => True
  | .register call now =>
      ∀ request pending,
        (verifyRun lib registry past).waiting call = some (request, pending) →
          ∀ acceptance ∈ (verifyRun lib registry past).accepted,
            acceptance.request.token = request.token →
              condition (verifyRun lib registry past) acceptance request pending
                now

/-- Neither this reading nor any the registry was asked with since has reached
the end of an earlier acceptance's retention. -/
def StillRetained (state : VerifyState Token R)
    (acceptance : Acceptance Token R) (_request : VerifyCall Token R)
    (_pending : PendingReplay) (now : ℚ) : Prop :=
  ∀ reading ∈ state.since acceptance ++ [now],
    acceptance.Retained (ReplayRegistry.ttlSeconds state.registry) reading

/-- Two services give a token's issuer the same role: both own or both peer. -/
def SameRole (first second : VerifyCall Token R) (iss : PyStr) : Prop :=
  iss = first.service.issuerId ↔ iss = second.service.issuerId

/-- A live token accepted by another instance: both instances give its issuer the
same role, and the registry was asked with no later reading since. -/
def AgreesAcross (state : VerifyState Token R)
    (acceptance : Acceptance Token R) (request : VerifyCall Token R)
    (pending : PendingReplay) (now : ℚ) : Prop :=
  acceptance.request.instanceId ≠ request.instanceId →
    PyNum.rat now < pending.envelope.exp →
      SameRole acceptance.request request pending.envelope.iss ∧
        ∀ reading ∈ state.since acceptance, reading ≤ now

/-- No token is accepted twice. -/
def AcceptedAtMostOnce (accepted : List (Acceptance Token R)) : Prop :=
  (accepted.map fun acceptance => acceptance.request.token).Nodup

/-- No token accepted by one instance is accepted by another while it is live. -/
def NeverAcrossInstances (accepted : List (Acceptance Token R)) : Prop :=
  accepted.Pairwise fun first second =>
    first.request.token = second.request.token →
      first.request.instanceId ≠ second.request.instanceId →
        ¬ PyNum.rat second.acceptedAt < second.pending.envelope.exp

/-- The call asks a service of this issuer. -/
def VerifyEvent.OfIssuer (issuerId : PyStr) : VerifyEvent Token R → Prop
  | .decode _ request _ => request.service.issuerId = issuerId
  | .register _ _ => True

/-- The call presents this token. -/
def VerifyEvent.Presents (token : Token) : VerifyEvent Token R → Prop
  | .decode _ request _ => request.token = token
  | .register _ _ => True

/-- A property of pairs of acceptances holds throughout a run when each answer
keeps it between the new acceptance and the earlier ones. -/
theorem pairwise_accepted {lib : CryptoLib Token} {registry : R}
    {events : List (VerifyEvent Token R)}
    {related : Acceptance Token R → Acceptance Token R → Prop}
    (hanswer : ∀ past call now rest request pending,
      events = past ++ VerifyEvent.register call now :: rest →
        (verifyRun lib registry past).waiting call = some (request, pending) →
          (finishVerification (verifyRun lib registry past).registry pending
            now).1.valid = true →
            ∀ acceptance ∈ (verifyRun lib registry past).accepted,
              related acceptance ⟨request, pending, now,
                (verifyRun lib registry past).readings.length + 1⟩) :
    (verifyRun lib registry events).accepted.Pairwise related := by
  induction events using List.reverseRecOn with
  | nil => exact List.Pairwise.nil
  | append_singleton past event ih =>
      have hpast := ih fun before call now rest request pending heq =>
        hanswer before call now (rest ++ [event]) request pending (by simp [heq])
      rw [verifyRun, final_snoc]
      change (verifyStep lib (verifyRun lib registry past) event).accepted.Pairwise
        related
      cases event with
      | decode call request now =>
          rw [verifyStep]
          split
          · exact hpast
          · exact hpast
      | register call now =>
          rw [verifyStep]
          split
          · exact hpast
          next request pending hwaiting =>
            simp only [VerifyState.answer]
            split
            next hvalid =>
              refine List.pairwise_append.mpr
                ⟨hpast, List.pairwise_singleton _ _, ?_⟩
              intro acceptance hmem new hnew
              rw [List.mem_singleton.mp hnew]
              exact hanswer past call now [] request pending rfl hwaiting hvalid
                acceptance hmem
            next => exact hpast

variable [LawfulReplayRegistry R]

omit [ReplayRegistry R] [LawfulReplayRegistry R] in
theorem envelope_eq_of_token {lib : CryptoLib Token} (hjwt : lib.LawfulJwt)
    {first second : VerifyCall Token R} {pending pending' : PendingReplay}
    {now now' : ℚ} (htoken : first.token = second.token)
    (hfirst : first.begin lib now = .ok (.ok pending))
    (hsecond : second.begin lib now' = .ok (.ok pending')) :
    pending.envelope = pending'.envelope := by
  rw [VerifyCall.begin, htoken] at hfirst
  exact (hjwt.pending_eq hfirst hsecond).2

omit [ReplayRegistry R] [LawfulReplayRegistry R] in
/-- Two checked calls on one token ask for the same slot when their services give
its issuer the same role. -/
theorem key_eq_of_sameRole {lib : CryptoLib Token} (hjwt : lib.LawfulJwt)
    {first second : VerifyCall Token R} {pending pending' : PendingReplay}
    {now now' : ℚ} (htoken : first.token = second.token)
    (hfirst : first.begin lib now = .ok (.ok pending))
    (hsecond : second.begin lib now' = .ok (.ok pending'))
    (hrole : SameRole first second pending'.envelope.iss) :
    pending.key = pending'.key := by
  rw [beginVerification_key hfirst, beginVerification_key hsecond,
    envelope_eq_of_token hjwt htoken hfirst hsecond, registryKey, registryKey]
  simp only [ne_eq, ite_not]
  by_cases hown : pending'.envelope.iss = first.service.issuerId
  · rw [if_pos hown, if_pos (hrole.mp hown)]
  · rw [if_neg hown, if_neg fun h => hown (hrole.mpr h)]

omit [LawfulReplayRegistry R] in
theorem passed_run (lib : CryptoLib Token) (registry : R)
    (events : List (VerifyEvent Token R)) :
    FromCalls (fun request pending => ∃ now, request.begin lib now =
      .ok (.ok pending)) (verifyRun lib registry events) :=
  fromCalls_run fun _ _ _ _ now _ _ hbegin => ⟨now, hbegin⟩

/-- Services of one issuer accept no token twice as long as none of them reaches the
registry after the end of an earlier acceptance's retention. -/
theorem acceptedAtMostOnce_of_retained {lib : CryptoLib Token} (hjwt : lib.LawfulJwt)
    {registry : R} {issuerId : PyStr} {events : List (VerifyEvent Token R)}
    (hservice : ∀ event ∈ events, event.OfIssuer issuerId)
    (hretained : Admissible (RegistersMeeting StillRetained lib registry) events) :
    AcceptedAtMostOnce (verifyRun lib registry events).accepted := by
  rw [AcceptedAtMostOnce, List.Nodup, List.pairwise_map]
  apply pairwise_accepted
  intro past call now rest request pending heq hwaiting hvalid acceptance hmem
    htoken
  have hpassed := passed_run lib registry past
  have hissuers : FromCalls (fun request _ => request.service.issuerId = issuerId)
      (verifyRun lib registry past) := by
    apply fromCalls_run
    intro event hevent _ request _ _ hdecode _
    have hof := hservice event (heq ▸ List.mem_append_left _ hevent)
    rw [hdecode] at hof
    exact hof
  obtain ⟨_, hfirst⟩ := hpassed.accepted acceptance hmem
  obtain ⟨_, hsecond⟩ := hpassed.waiting call request pending hwaiting
  have hrole : SameRole acceptance.request request pending.envelope.iss := by
    rw [SameRole, hissuers.accepted acceptance hmem,
      hissuers.waiting call request pending hwaiting]
  have hrecorded := recorded_run lib registry past
  have hstill := hretained past _ rest heq request pending hwaiting acceptance
    hmem htoken
  rw [StillRetained, hrecorded.window] at hstill
  have hrefused := hrecorded.refused hmem
    (key_eq_of_sameRole hjwt htoken hfirst hsecond hrole) hstill
  rw [hrefused] at hvalid
  cases hvalid

omit [LawfulReplayRegistry R] in
/-- Every acceptance of a run that only ever presents one token is of that
token. -/
theorem accepted_token_run (lib : CryptoLib Token) (registry : R)
    {events : List (VerifyEvent Token R)} {token : Token}
    (hevents : ∀ event ∈ events, event.Presents token) :
    ∀ acceptance ∈ (verifyRun lib registry events).accepted,
      acceptance.request.token = token := by
  have h : FromCalls (fun request _ => request.token = token)
      (verifyRun lib registry events) :=
    fromCalls_run fun event hmem _ _ _ _ hdecode _ => by
      have hpresents := hevents event hmem
      rw [hdecode] at hpresents
      exact hpresents
  exact h.accepted

omit [LawfulReplayRegistry R] in
theorem not_acceptedAtMostOnce {lib : CryptoLib Token} {registry : R}
    {events : List (VerifyEvent Token R)} {token : Token}
    (hevents : ∀ event ∈ events, event.Presents token)
    (htwice : 2 ≤ (verifyRun lib registry events).accepted.length) :
    ¬ AcceptedAtMostOnce (verifyRun lib registry events).accepted := by
  intro honce
  have hall : (verifyRun lib registry events).accepted.map
      (fun acceptance => acceptance.request.token) =
        List.replicate (verifyRun lib registry events).accepted.length token := by
    rw [List.eq_replicate_iff, List.length_map]
    refine ⟨rfl, fun presented hpresented => ?_⟩
    obtain ⟨acceptance, hmem, rfl⟩ := List.mem_map.mp hpresented
    exact accepted_token_run lib registry hevents acceptance hmem
  rw [AcceptedAtMostOnce, hall, List.nodup_replicate] at honce
  omega

namespace Reference

def call (instanceId : ℕ) (service : A2ACryptoService JtiRegistry)
    (trustedIssuers : PyDict) (token : SignedToken) :
    VerifyCall SignedToken JtiRegistry :=
  ⟨instanceId, env, service, token, context, .dict trustedIssuers⟩

def shortService : A2ACryptoService JtiRegistry :=
  .withDefaultRegistry (py "did:a") 10 (some (py "key one"))

def shortCall : VerifyCall SignedToken JtiRegistry :=
  call 1 shortService [] (minted env keyPair 10 (py "t"))

/-- Two calls one after the other; the second decodes its token `decodedAt` and
reaches the registry `registeredAt`. -/
def presented (first second : VerifyCall SignedToken JtiRegistry)
    (decodedAt registeredAt : ℚ) : List (VerifyEvent SignedToken JtiRegistry) :=
  [.decode 1 first 0, .register 1 1, .decode 2 second decodedAt,
    .register 2 registeredAt]

theorem presented_forall {property : VerifyEvent SignedToken JtiRegistry → Prop}
    {first second : VerifyCall SignedToken JtiRegistry}
    (hfirst : ∀ call now, property (.decode call first now))
    (hsecond : ∀ call now, property (.decode call second now))
    (hregister : ∀ call now, property (.register call now))
    (decodedAt registeredAt : ℚ) :
    ∀ event ∈ presented first second decodedAt registeredAt, property event := by
  intro event hevent
  simp only [presented, List.mem_cons, List.not_mem_nil, or_false] at hevent
  rcases hevent with rfl | rfl | rfl | rfl
  · exact hfirst 1 0
  · exact hregister 1 1
  · exact hsecond 2 decodedAt
  · exact hregister 2 registeredAt

/-- The condition is only asked of the second call: before the first there is no
acceptance. -/
theorem presented_admissible
    {condition : VerifyState SignedToken JtiRegistry → Acceptance SignedToken JtiRegistry →
      VerifyCall SignedToken JtiRegistry → PendingReplay → ℚ → Prop}
    {registry : JtiRegistry} {first second : VerifyCall SignedToken JtiRegistry}
    {decodedAt registeredAt : ℚ}
    (h : RegistersMeeting condition lib registry
      [.decode 1 first 0, .register 1 1, .decode 2 second decodedAt]
      (.register 2 registeredAt)) :
    Admissible (RegistersMeeting condition lib registry)
      (presented first second decodedAt registeredAt) := by
  have hnone : (verifyRun lib registry [.decode 1 first 0]).accepted = [] := by
    change (verifyStep lib { registry } (.decode 1 first 0)).accepted = []
    rw [verifyStep]
    split <;> rfl
  refine (((Admissible.nil _).snoc trivial).snoc ?_).snoc trivial |>.snoc h
  intro request pending _ acceptance hmem
  rw [List.nil_append, hnone] at hmem
  cases hmem

/-- One token presented twice, alive both times when it is decoded. -/
def presentedTwice (registeredAt : ℚ) :
    List (VerifyEvent SignedToken JtiRegistry) :=
  presented shortCall shortCall 9 registeredAt

def firstAsPeer : PyDict :=
  [(.str (py "did:a"), issuerEntry (py "prod") (jwk (py "AQ") (py "did:a#key-k")))]

/-- A token of the first service presented to it and then to another instance. -/
def presentedAcross (second : VerifyCall SignedToken JtiRegistry) :
    List (VerifyEvent SignedToken JtiRegistry) :=
  presented (call 1 service [] (token (py "t"))) second 2 3

end Reference

/-- On one service with the default registry, every run in which no call reaches
the registry after the end of an earlier acceptance's retention accepts no token
twice. -/
theorem token_accepted_once (lib : CryptoLib Token) (hjwt : lib.LawfulJwt)
    (issuerId : PyStr) (validitySeconds : ℤ) (pemKey : Option PyStr)
    (events : List (VerifyEvent Token JtiRegistry))
    (hservice : ∀ event ∈ events, event.OfIssuer issuerId)
    (hretained : Admissible (RegistersMeeting StillRetained lib
      (A2ACryptoService.withDefaultRegistry issuerId validitySeconds
        pemKey).jtiRegistry) events) :
    AcceptedAtMostOnce (verifyRun lib (A2ACryptoService.withDefaultRegistry
      issuerId validitySeconds pemKey).jtiRegistry events).accepted :=
  acceptedAtMostOnce_of_retained hjwt hservice hretained

/-- The slot lapses between the two steps of the second call, and the token is
accepted again. -/
theorem token_accepted_twice :
    ClockMonotone VerifyEvent.reads (Reference.presentedTwice 11) ∧
      (∀ event ∈ Reference.presentedTwice 11, event.OfIssuer (py "did:a")) ∧
      ¬ AcceptedAtMostOnce (verifyRun Reference.lib
        (A2ACryptoService.withDefaultRegistry (py "did:a") 10
          (some (py "key one"))).jtiRegistry
        (Reference.presentedTwice 11)).accepted := by
  refine ⟨?_, ?_, ?_⟩
  · norm_num [ClockMonotone, Reference.presentedTwice, Reference.presented,
      VerifyEvent.reads]
  · exact Reference.presented_forall (fun _ _ => rfl) (fun _ _ => rfl)
      (fun _ _ => trivial) 9 11
  · have hpresents : ∀ event ∈ Reference.presentedTwice 11,
        event.Presents Reference.shortCall.token :=
      Reference.presented_forall (fun _ _ => rfl) (fun _ _ => rfl)
        (fun _ _ => trivial) 9 11
    exact not_acceptedAtMostOnce hpresents (by decide +kernel)

/-- Presented again before the slot lapses, the token is refused. -/
theorem token_accepted_once_retained :
    AcceptedAtMostOnce (verifyRun Reference.lib
      (A2ACryptoService.withDefaultRegistry (py "did:a") 10
        (some (py "key one"))).jtiRegistry
      (Reference.presentedTwice 10)).accepted := by
  refine token_accepted_once Reference.lib Reference.lawfulJwt (py "did:a") 10
    (some (py "key one")) (Reference.presentedTwice 10)
    (Reference.presented_forall (fun _ _ => rfl) (fun _ _ => rfl)
      (fun _ _ => trivial) 9 10) (Reference.presented_admissible ?_)
  intro request pending _ acceptance hmem _ reading hreading
  have haccepted : (verifyRun Reference.lib Reference.shortService.jtiRegistry
      [.decode 1 Reference.shortCall 0, .register 1 1,
        .decode 2 Reference.shortCall 9]).accepted.map
          (fun earlier => (earlier.acceptedAt, earlier.position)) =
            [(1, 1)] := by decide +kernel
  have hfacts : (acceptance.acceptedAt, acceptance.position) ∈
      [((1 : ℚ), 1)] := haccepted ▸ List.mem_map_of_mem hmem
  rw [List.mem_singleton, Prod.mk.injEq] at hfacts
  have hnow : reading = 10 := by
    rw [VerifyState.since, hfacts.2] at hreading
    exact List.mem_singleton.mp hreading
  left
  rw [(recorded_run _ _ _).window, hfacts.1, hnow]
  change PyNum.rat 10 < toFloat (1 + ((10 : ℤ) : ℚ))
  decide +kernel

/-- Across services that share a registry, every run in which two instances that
meet one live token give its issuer the same role accepts it at one of them
only. -/
theorem token_accepted_by_one_instance (lib : CryptoLib Token)
    (hjwt : lib.LawfulJwt) (registry : R) (events : List (VerifyEvent Token R))
    (hagree : Admissible (RegistersMeeting AgreesAcross lib registry) events) :
    NeverAcrossInstances (verifyRun lib registry events).accepted := by
  apply pairwise_accepted
  intro past call now rest request pending heq hwaiting hvalid acceptance hmem
    htoken hinstance hlive
  have hpassed := passed_run lib registry past
  obtain ⟨_, hfirst⟩ := hpassed.accepted acceptance hmem
  obtain ⟨_, hsecond⟩ := hpassed.waiting call request pending hwaiting
  obtain ⟨hrole, hlatest⟩ := hagree past _ rest heq request pending hwaiting
    acceptance hmem htoken hinstance hlive
  have hrefused := (recorded_run lib registry past).refused hmem
    (key_eq_of_sameRole hjwt htoken hfirst hsecond hrole) fun reading hreading => by
      have hle : reading ≤ now := by
        rcases List.mem_append.mp hreading with hearlier | hnow
        · exact hlatest reading hearlier
        · exact (List.mem_singleton.mp hnow).le
      right
      rw [envelope_eq_of_token hjwt htoken hfirst hsecond]
      exact PyNum.lt_of_le_of_lt (PyNum.rat_le_rat.mpr hle) hlive
  rw [hrefused] at hvalid
  cases hvalid

/-- Its issuer and a peer that trusts it record one token under different slots,
and both accept it alive. -/
theorem token_accepted_by_issuer_and_peer :
    ClockMonotone VerifyEvent.reads (Reference.presentedAcross
        (Reference.call 2 Reference.otherService Reference.firstAsPeer
          (Reference.token (py "t")))) ∧
      ¬ NeverAcrossInstances (verifyRun Reference.lib
        Reference.service.jtiRegistry
        (Reference.presentedAcross
          (Reference.call 2 Reference.otherService Reference.firstAsPeer
            (Reference.token (py "t"))))).accepted := by
  refine ⟨?_, fun hnever => ?_⟩
  · norm_num [ClockMonotone, Reference.presentedAcross, Reference.presented,
      VerifyEvent.reads]
  · set events := Reference.presentedAcross
      (Reference.call 2 Reference.otherService Reference.firstAsPeer
        (Reference.token (py "t")))
    have hrun : (verifyRun Reference.lib Reference.service.jtiRegistry
        events).accepted.map (fun acceptance =>
          (acceptance.request.instanceId,
            decide (PyNum.rat acceptance.acceptedAt <
              acceptance.pending.envelope.exp))) = [(1, true), (2, true)] := by
      decide +kernel
    have hpresents : ∀ event ∈ events, event.Presents (Reference.token (py "t")) :=
      Reference.presented_forall (fun _ _ => rfl) (fun _ _ => rfl)
        (fun _ _ => trivial) 2 3
    have htokens := accepted_token_run Reference.lib Reference.service.jtiRegistry
      hpresents
    obtain ⟨first, rest, haccepted, hfirst, hrest⟩ := List.map_eq_cons_iff.mp hrun
    obtain ⟨second, _, rfl, hsecond, _⟩ := List.map_eq_cons_iff.mp hrest
    rw [haccepted] at hnever htokens
    simp only [Prod.mk.injEq, decide_eq_true_eq] at hfirst hsecond
    refine List.rel_of_pairwise_cons hnever List.mem_cons_self ?_ ?_ hsecond.2
    · rw [htokens first (by simp), htokens second (by simp)]
    · rw [hfirst.1, hsecond.1]
      decide

/-- Two workers of the issuer share a registry, and one of them accepts. -/
theorem token_accepted_by_one_worker :
    NeverAcrossInstances (verifyRun Reference.lib Reference.service.jtiRegistry
      (Reference.presentedAcross (Reference.call 2 Reference.service []
        (Reference.token (py "t"))))).accepted := by
  refine token_accepted_by_one_instance Reference.lib Reference.lawfulJwt
    Reference.service.jtiRegistry _ (Reference.presented_admissible ?_)
  intro request pending hwaiting acceptance hmem _ _ _
  have hservice : FromCalls (fun request _ => request.service = Reference.service)
      (verifyRun Reference.lib Reference.service.jtiRegistry
        [.decode 1 (Reference.call 1 Reference.service []
            (Reference.token (py "t"))) 0, .register 1 1,
          .decode 2 (Reference.call 2 Reference.service []
            (Reference.token (py "t"))) 2]) := by
    apply fromCalls_run
    intro event hevent call request now pending hdecode _
    simp only [List.mem_cons, List.not_mem_nil, or_false] at hevent
    rcases hevent with rfl | rfl | rfl <;> cases hdecode <;> rfl
  have hposition : (verifyRun Reference.lib Reference.service.jtiRegistry
      [.decode 1 (Reference.call 1 Reference.service []
          (Reference.token (py "t"))) 0, .register 1 1,
        .decode 2 (Reference.call 2 Reference.service []
          (Reference.token (py "t"))) 2]).accepted.map (·.position) =
            [1] := by decide +kernel
  refine ⟨?_, fun reading hreading => ?_⟩
  · rw [SameRole, hservice.accepted acceptance hmem,
      hservice.waiting 2 request pending hwaiting]
  · have hone : acceptance.position ∈ [1] :=
      hposition ▸ List.mem_map_of_mem hmem
    rw [VerifyState.since, List.mem_singleton.mp hone] at hreading
    cases hreading

end QwedA2A
