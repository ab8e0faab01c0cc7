/-
Verification calls interleaved on one replay registry.  A call decodes at one
clock reading and asks the registry with a later one; in between other calls, of
any service that shares the registry, may register, evict and be accepted.
-/
import QwedA2A.SignedClaims
import QwedA2A.EventRun

namespace QwedA2A

open EventRun

variable {Token R : Type}

/-- One `verify_attestation` call: the service instance asked, and its
arguments. -/
structure VerifyCall (Token R : Type) where
  instanceId : ℕ
  env : Env
  service : A2ACryptoService R
  token : Token
  context : AttestationContext
  trustedIssuers : PyVal

/-- The two steps of a call, each with the clock reading it uses.  The registry
is asked under its lock, with a reading taken before. -/
inductive VerifyEvent (Token R : Type) where
  | decode (call : ℕ) (request : VerifyCall Token R) (now : ℚ)
  | register (call : ℕ) (now : ℚ)

def VerifyEvent.reads : VerifyEvent Token R → List ℚ
  | .decode _ _ now => [now]
  | .register _ now => [now]

/-- A call that returned True; `position` counts the registry's answers up to
this one. -/
structure Acceptance (Token R : Type) where
  request : VerifyCall Token R
  pending : PendingReplay
  acceptedAt : ℚ
  position : ℕ

/-- The shared registry and the clock readings it was asked with, the calls
between their two steps, and the acceptances so far. -/
structure VerifyState (Token R : Type) where
  registry : R
  readings : List ℚ := []
  waiting : ℕ → Option (VerifyCall Token R × PendingReplay) := fun _ => none
  accepted : List (Acceptance Token R) := []

/-- The readings the registry was asked with after an acceptance. -/
def VerifyState.since (state : VerifyState Token R)
    (acceptance : Acceptance Token R) : List ℚ :=
  state.readings.drop acceptance.position

/-- The checks before the registry, on the request of a call. -/
def VerifyCall.begin (lib : CryptoLib Token) (request : VerifyCall Token R)
    (now : ℚ) : Except PyExc (Except PyStr PendingReplay) :=
  beginVerification lib request.env request.service request.token request.context
    request.trustedIssuers now

/-- The retention of an acceptance: the later of its TTL window, as the floats add
up, and the token's own expiry has not been reached. -/
def Acceptance.Retained (acceptance : Acceptance Token R) (ttl time : ℚ) : Prop :=
  PyNum.rat time < toFloat (acceptance.acceptedAt + ttl) ∨
    PyNum.rat time < acceptance.pending.envelope.exp

section Machine

variable [ReplayRegistry R]

/-- The state after the registry was asked for a waiting call. -/
def VerifyState.answer (state : VerifyState Token R) (call : ℕ)
    (request : VerifyCall Token R) (pending : PendingReplay) (now : ℚ) :
    VerifyState Token R :=
  let answer := finishVerification state.registry pending now
  { registry := answer.2
    readings := state.readings ++ [now]
    waiting := Function.update state.waiting call none
    accepted :=
      if answer.1.valid then
        state.accepted ++ [⟨request, pending, now, state.readings.length + 1⟩]
      else state.accepted }

def verifyStep (lib : CryptoLib Token) (state : VerifyState Token R) :
    VerifyEvent Token R → VerifyState Token R
  | .decode call request now =>
      match request.begin lib now with
      | .ok (.ok pending) =>
          { state with
            waiting := Function.update state.waiting call
              (some (request, pending)) }
      -- The call has returned a refusal, or raised.
      | _ => { state with waiting := Function.update state.waiting call none }
  | .register call now =>
      match state.waiting call with
      | none => state
      | some (request, pending) => state.answer call request pending now

def verifyRun (lib : CryptoLib Token) (registry : R)
    (events : List (VerifyEvent Token R)) : VerifyState Token R :=
  final (verifyStep lib) { registry } events

/-- A call whose two steps run without a step of another in between is a
`verifyAttestation` call on the shared registry. -/
theorem verifyStep_verifyAttestation {lib : CryptoLib Token}
    {state : VerifyState Token R} {request : VerifyCall Token R}
    {decodeNow registerNow : ℚ} {result : VerifyResult} {registry : R}
    (h : verifyAttestation lib request.env
      { request.service with jtiRegistry := state.registry } request.token
      request.context request.trustedIssuers decodeNow registerNow =
        .ok (result, registry)) (call : ℕ) :
    (verifyStep lib (verifyStep lib state (.decode call request decodeNow))
        (.register call registerNow)).registry = registry ∧
      (verifyStep lib (verifyStep lib state (.decode call request decodeNow))
        (.register call registerNow)).accepted.map (·.request) =
          state.accepted.map (·.request) ++
            if result.valid then [request] else [] := by
  rcases verifyAttestation_ok_iff.mp h with
    ⟨reason, hbegin, rfl, rfl⟩ | ⟨pending, hbegin, hfinish⟩
  · have hrefused : request.begin lib decodeNow = .ok (.error reason) := hbegin
    simp [verifyStep, hrefused, VerifyResult.refused]
  · have hpassed : request.begin lib decodeNow = .ok (.ok pending) := hbegin
    change (result, registry) =
      finishVerification state.registry pending registerNow at hfinish
    simp only [verifyStep, hpassed, Function.update_self, VerifyState.answer,
      ← hfinish, true_and]
    split <;> simp

/-- What a step leaves of a call: it is waiting or accepted because it passed its
checks, or because it was before. -/
structure FromCalls (property : VerifyCall Token R → PendingReplay → Prop)
    (state : VerifyState Token R) : Prop where
  waiting : ∀ call request pending,
    state.waiting call = some (request, pending) → property request pending
  accepted : ∀ acceptance ∈ state.accepted,
    property acceptance.request acceptance.pending

theorem FromCalls.answer
    {property : VerifyCall Token R → PendingReplay → Prop}
    {state : VerifyState Token R} (h : FromCalls property state) {call : ℕ}
    {request : VerifyCall Token R} {pending : PendingReplay}
    (hwaiting : state.waiting call = some (request, pending)) (now : ℚ) :
    FromCalls property (state.answer call request pending now) where
  waiting other request' pending' hother := by
    simp only [VerifyState.answer] at hother
    by_cases hcall : other = call
    · simp [hcall] at hother
    · rw [Function.update_of_ne hcall] at hother
      exact h.waiting other request' pending' hother
  accepted acceptance hmem := by
    simp only [VerifyState.answer] at hmem
    split at hmem
    · rcases List.mem_append.mp hmem with hpast | hnew
      · exact h.accepted acceptance hpast
      · rw [List.mem_singleton.mp hnew]
        exact h.waiting call request pending hwaiting
    · exact h.accepted acceptance hmem

theorem FromCalls.step {lib : CryptoLib Token}
    {property : VerifyCall Token R → PendingReplay → Prop}
    {state : VerifyState Token R} (h : FromCalls property state)
    (event : VerifyEvent Token R)
    (hevent : ∀ call request now pending, event = .decode call request now →
      request.begin lib now = .ok (.ok pending) → property request pending) :
    FromCalls property (verifyStep lib state event) := by
  cases event with
  | register call now =>
      rw [verifyStep]
      split
      · exact h
      next request pending hwaiting => exact h.answer hwaiting now
  | decode call request now =>
      rw [verifyStep]
      split
      next pending hbegin =>
        refine ⟨fun other request' pending' hother => ?_, h.accepted⟩
        by_cases hcall : other = call
        · simp only [hcall, Function.update_self] at hother
          cases hother
          exact hevent call request now pending rfl hbegin
        · simp only [Function.update_of_ne hcall] at hother
          exact h.waiting other request' pending' hother
      next =>
        refine ⟨fun other request' pending' hother => ?_, h.accepted⟩
        by_cases hcall : other = call
        · simp [hcall] at hother
        · simp only [Function.update_of_ne hcall] at hother
          exact h.waiting other request' pending' hother

/-- Whatever waits or was accepted in a run comes from a call of that run. -/
theorem fromCalls_run {lib : CryptoLib Token} {registry : R}
    {property : VerifyCall Token R → PendingReplay → Prop}
    {events : List (VerifyEvent Token R)}
    (hevents : ∀ event ∈ events, ∀ call request now pending,
      event = .decode call request now →
        request.begin lib now = .ok (.ok pending) → property request pending) :
    FromCalls property (verifyRun lib registry events) := by
  induction events using List.reverseRecOn with
  | nil => exact ⟨fun _ _ _ h => (by cases h), fun _ h => by cases h⟩
  | append_singleton past event ih =>
      rw [verifyRun, final_snoc]
      refine (ih fun earlier hmem =>
        hevents earlier (List.mem_append_left _ hmem)).step event ?_
      exact hevents event (List.mem_append_right _ (List.mem_singleton_self _))

/-- What the registry and the acceptances say to each other: as long as every
reading the registry was asked with finds an acceptance retained, its slot is
held for the whole retention. -/
structure Recorded (ttl : ℚ) (state : VerifyState Token R) : Prop where
  window : ReplayRegistry.ttlSeconds state.registry = ttl
  counted : ∀ acceptance ∈ state.accepted,
    acceptance.position ≤ state.readings.length
  slot : ∀ acceptance ∈ state.accepted,
    (∀ reading ∈ state.since acceptance, acceptance.Retained ttl reading) →
      ∃ expiry,
        ReplayRegistry.held state.registry acceptance.pending.key =
          some expiry ∧
        ∀ time, acceptance.Retained ttl time → Live expiry time

variable [LawfulReplayRegistry R]

/-- A token accepted before is refused while its slot is retained. -/
theorem Recorded.refused {ttl : ℚ} {state : VerifyState Token R}
    (h : Recorded ttl state) {acceptance : Acceptance Token R}
    (hmem : acceptance ∈ state.accepted) {pending : PendingReplay} {now : ℚ}
    (hkey : acceptance.pending.key = pending.key)
    (hretained : ∀ reading ∈ state.since acceptance ++ [now],
      acceptance.Retained ttl reading) :
    (finishVerification state.registry pending now).1.valid = false := by
  obtain ⟨expiry, hheld, hlive⟩ := h.slot acceptance hmem fun reading hreading =>
    hretained reading (List.mem_append_left _ hreading)
  rw [Bool.eq_false_iff, ne_eq, finishVerification_valid_iff]
  intro hfree
  exact hfree expiry (hkey ▸ hheld) (hlive now (hretained now (by simp)))

/-- Asking the registry keeps the slots of what was accepted before, and takes
one for what is accepted now. -/
theorem Recorded.answer {ttl : ℚ} {state : VerifyState Token R}
    (h : Recorded ttl state) (call : ℕ) (request : VerifyCall Token R)
    (pending : PendingReplay) (now : ℚ) :
    Recorded ttl (state.answer call request pending now) := by
  have hpast : ∀ acceptance ∈ state.accepted,
      (∀ reading ∈ (state.readings ++ [now]).drop acceptance.position,
        acceptance.Retained ttl reading) →
      ∃ expiry, ReplayRegistry.held
          (finishVerification state.registry pending now).2
            acceptance.pending.key = some expiry ∧
        ∀ time, acceptance.Retained ttl time → Live expiry time := by
    intro acceptance hmem hretained
    rw [List.drop_append_of_le_length (h.counted acceptance hmem)] at hretained
    obtain ⟨expiry, hheld, hlive⟩ := h.slot acceptance hmem fun reading hreading =>
      hretained reading (List.mem_append_left _ hreading)
    refine ⟨expiry, ?_, hlive⟩
    rw [finishVerification_registry]
    exact LawfulReplayRegistry.kept _ _ _ _ _ _ hheld
      (hlive now (hretained now (by simp)))
  refine ⟨?_, ?_, ?_⟩
  · rw [← h.window, ← LawfulReplayRegistry.ttl_kept state.registry pending.key now
      (some pending.envelope.exp), ← finishVerification_registry]
    rfl
  · intro acceptance hmem
    simp only [VerifyState.answer, List.length_append, List.length_singleton]
      at hmem ⊢
    split at hmem
    · rcases List.mem_append.mp hmem with hold | hnew
      · exact Nat.le_succ_of_le (h.counted acceptance hold)
      · rw [List.mem_singleton.mp hnew]
    · exact Nat.le_succ_of_le (h.counted acceptance hmem)
  · intro acceptance hmem hretained
    simp only [VerifyState.answer] at hmem
    split at hmem
    next hvalid =>
      rcases List.mem_append.mp hmem with hold | hnew
      · exact hpast acceptance hold hretained
      · rw [List.mem_singleton] at hnew
        subst hnew
        have haccept := (LawfulReplayRegistry.accept_iff state.registry
          pending.key now (some pending.envelope.exp)).mpr
            ((finishVerification_valid_iff _ _ _).mp hvalid)
        obtain ⟨expiry, hheld, hcovers⟩ := LawfulReplayRegistry.registered _ _ _ _
          haccept
        rw [h.window] at hcovers
        refine ⟨expiry, ?_, fun time htime => hcovers time ?_⟩
        · rw [← finishVerification_registry] at hheld
          exact hheld
        · rcases htime with hwindow | hlive
          · exact Or.inl hwindow
          · exact Or.inr ⟨_, rfl, hlive⟩
    next => exact hpast acceptance hmem hretained

theorem Recorded.step {ttl : ℚ} {state : VerifyState Token R}
    (h : Recorded ttl state) (lib : CryptoLib Token)
    (event : VerifyEvent Token R) : Recorded ttl (verifyStep lib state event) := by
  cases event with
  | decode call request now =>
      rw [verifyStep]
      split
      · exact ⟨h.window, h.counted, h.slot⟩
      · exact ⟨h.window, h.counted, h.slot⟩
  | register call now =>
      rw [verifyStep]
      split
      · exact h
      next request pending _ => exact h.answer call request pending now

theorem recorded_run (lib : CryptoLib Token) (registry : R)
    (events : List (VerifyEvent Token R)) :
    Recorded (ReplayRegistry.ttlSeconds registry)
      (verifyRun lib registry events) := by
  induction events using List.reverseRecOn with
  | nil => exact ⟨rfl, fun _ h => (by cases h), fun _ h => by cases h⟩
  | append_singleton past event ih =>
      rw [verifyRun, final_snoc]
      exact ih.step lib event

end Machine

end QwedA2A
