/-
Services around an injected registry.  The constructor takes a registry only when the
retention window it reports covers the validity of the tokens; behind that gate a token
is accepted once for as long as it is valid.
-/
import QwedA2A.ReplayOnce

namespace QwedA2A

open EventRun

variable {Token R : Type}

/-- The seconds that a `ttl_seconds` attribute holds. -/
def reportedSeconds : PyVal → Option ℚ
  | .int n => some n
  | .float (.real (some (some value))) _ => some value
  | _ => none

/-- Only a window that covers the validity passes the gate. -/
theorem ttlCovers_reported {registryTtl : PyVal} {validitySeconds : ℤ}
    (h : ttlCovers registryTtl validitySeconds = true) :
    ∃ ttl, reportedSeconds registryTtl = some ttl ∧ (validitySeconds : ℚ) ≤ ttl := by
  rw [ttlCovers.eq_def] at h
  split at h
  next n =>
    rw [Bool.and_eq_true, decide_eq_true_eq] at h
    exact ⟨n, rfl, by exact_mod_cast h.2⟩
  next value _ => exact ⟨value, rfl, of_decide_eq_true h⟩
  next => cases h

/-- A service of an issuer that was built around the registry, at whatever time it
loaded its key. -/
def BuiltAround (registry : R) (registryTtl : PyVal) (issuerId : PyStr)
    (service : A2ACryptoService R) : Prop :=
  ∃ validitySeconds pemKey built,
    A2ACryptoService.withRegistry issuerId validitySeconds pemKey registry registryTtl =
      .ok built ∧
    service.issuerId = built.issuerId ∧ service.validitySeconds = built.validitySeconds

/-- A registry reports the window that it keeps. -/
def Truthful [ReplayRegistry R] (registry : R) (registryTtl : PyVal) : Prop :=
  ∀ ttl, reportedSeconds registryTtl = some ttl → ReplayRegistry.ttlSeconds registry = ttl

/-- The call asks a service of the issuer around the registry. -/
def VerifyEvent.Around (registry : R) (registryTtl : PyVal) (issuerId : PyStr) :
    VerifyEvent Token R → Prop
  | .decode _ request _ => BuiltAround registry registryTtl issuerId request.service
  | .register _ _ => True

/-- Neither this reading nor any the registry was asked with since has reached the end
of the validity that begins with an earlier acceptance, or else the end of the token. -/
def WithinValidity (state : VerifyState Token R) (acceptance : Acceptance Token R)
    (_request : VerifyCall Token R) (_pending : PendingReplay) (now : ℚ) : Prop :=
  ∀ reading ∈ state.since acceptance ++ [now],
    acceptance.Retained acceptance.request.service.validitySeconds reading

theorem Acceptance.Retained.mono {acceptance : Acceptance Token R} {ttl ttl' time : ℚ}
    (h : acceptance.Retained ttl time) (hle : ttl ≤ ttl') :
    acceptance.Retained ttl' time := by
  rcases h with hwindow | hexp
  · exact Or.inl (PyNum.lt_of_lt_of_le hwindow (toFloat_mono (add_le_add_right hle _)))
  · exact Or.inr hexp

theorem BuiltAround.issuerId_eq {registry : R} {registryTtl : PyVal} {issuerId : PyStr}
    {service : A2ACryptoService R} (h : BuiltAround registry registryTtl issuerId service) :
    service.issuerId = issuerId := by
  obtain ⟨validitySeconds, pemKey, built, hbuilt, hissuer, _⟩ := h
  rw [A2ACryptoService.withRegistry] at hbuilt
  split_ifs at hbuilt
  cases hbuilt
  exact hissuer

/-- The gate of the constructor: the registry keeps a slot at least as long as a token
of the service is valid. -/
theorem BuiltAround.validity_le [ReplayRegistry R] {registry : R}
    {registryTtl : PyVal} {issuerId : PyStr} {service : A2ACryptoService R}
    (h : BuiltAround registry registryTtl issuerId service)
    (htruthful : Truthful registry registryTtl) :
    (service.validitySeconds : ℚ) ≤ ReplayRegistry.ttlSeconds registry := by
  obtain ⟨validitySeconds, pemKey, built, hbuilt, _, hvalidity⟩ := h
  rw [A2ACryptoService.withRegistry] at hbuilt
  split_ifs at hbuilt with hcovers
  cases hbuilt
  obtain ⟨ttl, hreported, hle⟩ := ttlCovers_reported hcovers
  rw [hvalidity, htruthful ttl hreported]
  exact hle

variable [ReplayRegistry R] [LawfulReplayRegistry R]

/-- Services of one issuer that were all built around one injected registry accept no
token twice in any run in which the registry is not asked about it again after the
validity that begins with its acceptance. -/
theorem injected_registry_accepts_once (lib : CryptoLib Token) (hjwt : lib.LawfulJwt)
    (registry : R) (registryTtl : PyVal) (htruthful : Truthful registry registryTtl)
    (issuerId : PyStr) (events : List (VerifyEvent Token R))
    (haround : ∀ event ∈ events, event.Around registry registryTtl issuerId)
    (hvalid : Admissible (RegistersMeeting WithinValidity lib registry) events) :
    AcceptedAtMostOnce (verifyRun lib registry events).accepted := by
  apply acceptedAtMostOnce_of_retained hjwt
  · intro event hevent
    have hbuilt := haround event hevent
    cases event with
    | decode call request now => exact hbuilt.issuerId_eq
    | register call now => trivial
  · intro past event rest heq
    have hwindow : FromCalls (fun request _ =>
        (request.service.validitySeconds : ℚ) ≤ ReplayRegistry.ttlSeconds registry)
        (verifyRun lib registry past) := by
      apply fromCalls_run
      intro event hevent _ request _ _ hdecode _
      have hbuilt := haround event (heq ▸ List.mem_append_left _ hevent)
      rw [hdecode] at hbuilt
      exact hbuilt.validity_le htruthful
    have hmeets := hvalid past event rest heq
    cases event with
    | decode call request now => trivial
    | register call now =>
        intro request pending hwaiting acceptance hmem htoken reading hreading
        rw [(recorded_run lib registry past).window]
        exact (hmeets request pending hwaiting acceptance hmem htoken reading hreading).mono
          (hwindow.accepted acceptance hmem)

namespace Reference

def sharedRegistry : JtiRegistry := { ttl := 30 }

def worker (validitySeconds : ℤ) : A2ACryptoService JtiRegistry where
  issuerId := py "did:a"
  validitySeconds := validitySeconds
  pemKey := some (py "key one")
  jtiRegistry := sharedRegistry
  issuedRegistry := { ttl := validitySeconds }

/-- A token that one worker accepts at 1 and another is asked about at 9. -/
def presentedToWorkers : List (VerifyEvent SignedToken JtiRegistry) :=
  presented (call 1 (worker 10) [] (minted env keyPair 10 (py "t")))
    (call 2 (worker 20) [] (minted env keyPair 10 (py "t"))) 8 9

theorem worker_builtAround {validitySeconds : ℤ} (h : validitySeconds ≤ 30) :
    BuiltAround sharedRegistry (.int 30) (py "did:a") (worker validitySeconds) := by
  refine ⟨validitySeconds, some (py "key one"), worker validitySeconds, ?_, rfl, rfl⟩
  have hcovers : ttlCovers (.int 30) validitySeconds = true := by
    rw [ttlCovers, Bool.and_eq_true, decide_eq_true_eq]
    exact ⟨by decide +kernel, h⟩
  rw [A2ACryptoService.withRegistry, if_pos hcovers]
  rfl

end Reference

/-- The second worker refuses what the first one accepted. -/
theorem injected_registry_accepts_once_workers :
    AcceptedAtMostOnce (verifyRun Reference.lib Reference.sharedRegistry
      Reference.presentedToWorkers).accepted := by
  refine injected_registry_accepts_once Reference.lib Reference.lawfulJwt
    Reference.sharedRegistry (.int 30) ?_ (py "did:a") Reference.presentedToWorkers
    (Reference.presented_forall (fun _ _ => Reference.worker_builtAround (by decide))
      (fun _ _ => Reference.worker_builtAround (by decide)) (fun _ _ => trivial) 8 9) ?_
  · rintro ttl hreported
    cases hreported
    rfl
  apply Reference.presented_admissible
  intro request pending _ acceptance hmem _ reading hreading
  have haccepted : (verifyRun Reference.lib Reference.sharedRegistry
      [.decode 1 (Reference.call 1 (Reference.worker 10) []
          (Reference.minted Reference.env Reference.keyPair 10 (py "t"))) 0,
        .register 1 1,
        .decode 2 (Reference.call 2 (Reference.worker 20) []
          (Reference.minted Reference.env Reference.keyPair 10 (py "t"))) 8]).accepted.map
          (fun earlier => (earlier.acceptedAt, earlier.position,
            earlier.request.service.validitySeconds)) = [(1, 1, 10)] := by
    decide +kernel
  have hfacts : (acceptance.acceptedAt, acceptance.position,
      acceptance.request.service.validitySeconds) ∈ [((1 : ℚ), 1, (10 : ℤ))] :=
    haccepted ▸ List.mem_map_of_mem hmem
  rw [List.mem_singleton, Prod.mk.injEq, Prod.mk.injEq] at hfacts
  have hnow : reading = 9 := by
    rw [VerifyState.since, hfacts.2.1] at hreading
    exact List.mem_singleton.mp hreading
  left
  rw [hfacts.1, hfacts.2.2, hnow]
  decide +kernel

end QwedA2A
