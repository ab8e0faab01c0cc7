/-
Concurrent `sign_verdict` calls on one issuance record.  A call reads the clock,
reserves its trace with a later reading, and then encodes for as long as it
takes; an encode that fails withdraws the reservation of the trace.
-/
import QwedA2A.SignedClaims
import QwedA2A.EventRun

namespace QwedA2A

open EventRun

variable {Token R : Type}

/-- What a call has fixed before it reserves its trace. -/
structure Prepared where
  request : SignRequest
  verdict : VerdictStatus
  pair : KeyPair
  issuedAt : ℤ
  exp : ℤ

/-- Where a call stands.  A reservation carries the end of the slot it made. -/
inductive SignPhase (Token : Type) where
  | idle
  | ready (prepared : Prepared)
  | reserved (prepared : Prepared) (slotEnd : PyNum)
  | returned (prepared : Prepared) (slotEnd : PyNum) (token : Token)
      (mintedAt : ℚ)
  | raised (exc : PyExc)

/-- The steps of a call.  What the encoder returned or raised comes with the
step that ends the call. -/
inductive SignEvent (Token : Type) where
  | begin (call : ℕ) (request : SignRequest) (now : ℚ)
  | reserve (call : ℕ) (now : ℚ)
  | finish (call : ℕ) (encoded : Except PyExc Token) (now : ℚ)

def SignEvent.reads : SignEvent Token → List ℚ
  | .begin _ _ now => [now]
  | .reserve _ now => [now]
  | .finish _ _ now => [now]

structure SignState (Token : Type) where
  issued : JtiRegistry
  phase : ℕ → SignPhase Token := fun _ => .idle

def SignState.move (state : SignState Token) (call : ℕ) (phase : SignPhase Token)
    (issued : JtiRegistry) : SignState Token where
  issued := issued
  phase := Function.update state.phase call phase

@[simp] theorem SignState.move_self (state : SignState Token) (call : ℕ)
    (phase : SignPhase Token) (issued : JtiRegistry) :
    (state.move call phase issued).phase call = phase := by
  simp [SignState.move]

theorem SignState.move_ne (state : SignState Token) {call other : ℕ}
    (hne : other ≠ call) (phase : SignPhase Token) (issued : JtiRegistry) :
    (state.move call phase issued).phase other = state.phase other := by
  simp [SignState.move, hne]

/-- Verdict first, key next, then the clock: what a call fixes, or raises. -/
def prepare (lib : CryptoLib Token) (env : Env) (service : A2ACryptoService R)
    (request : SignRequest) (now : ℚ) : Except PyExc Prepared :=
  match VerdictStatus.ofValue request.verdictStatus with
  | none => .error unknownVerdictExc
  | some verdict =>
      match ensureKeyPair lib env service with
      | .error exc => .error exc
      | .ok pair =>
          .ok
            { request, verdict, pair, issuedAt := truncate now
              exp := truncate now + service.validitySeconds }

def signStep (lib : CryptoLib Token) (env : Env) (service : A2ACryptoService R)
    (state : SignState Token) : SignEvent Token → SignState Token
  | .begin call request now =>
      match state.phase call with
      | .idle =>
          match prepare lib env service request now with
          | .ok prepared => state.move call (.ready prepared) state.issued
          | .error exc => state.move call (.raised exc) state.issued
      | _ => state
  | .reserve call now =>
      match state.phase call with
      | .ready prepared =>
          match reserveTrace state.issued prepared.request.traceId prepared.exp
              now with
          | (true, issued) =>
              state.move call (.reserved prepared
                (state.issued.retention now (some (.rat prepared.exp)))) issued
          | (false, issued) =>
              state.move call (.raised duplicateTraceExc) issued
      | _ => state
  | .finish call encoded now =>
      match state.phase call with
      | .reserved prepared slotEnd =>
          match encoded with
          | .ok token =>
              state.move call (.returned prepared slotEnd token now) state.issued
          | .error exc =>
              state.move call (.raised exc)
                (state.issued.release prepared.request.traceId)
      | _ => state

/-- The state after a run of steps on the issuance record of the service. -/
def signRun (lib : CryptoLib Token) (env : Env) (service : A2ACryptoService R)
    (events : List (SignEvent Token)) : SignState Token :=
  final (signStep lib env service) { issued := service.issuedRegistry } events

def SignPhase.outcome : SignPhase Token → Option (Except PyExc Token)
  | .returned _ _ token _ => some (.ok token)
  | .raised exc => some (.error exc)
  | _ => none

def encodePrepared (lib : CryptoLib Token) (env : Env)
    (service : A2ACryptoService R) (prepared : Prepared) : Except PyExc Token :=
  lib.encode
    (signPayload env service.issuerId service.validitySeconds prepared.request
      prepared.verdict prepared.issuedAt)
    prepared.pair.key.pem (signHeader prepared.pair)

theorem signVerdict_eq_prepare (lib : CryptoLib Token) (env : Env)
    (service : A2ACryptoService R) (request : SignRequest)
    (signedAt reservedAt : ℚ) :
    signVerdict lib env service request signedAt reservedAt =
      match prepare lib env service request signedAt with
      | .error exc => (.error exc, service.issuedRegistry)
      | .ok prepared =>
          match reserveTrace service.issuedRegistry prepared.request.traceId
              prepared.exp reservedAt with
          | (false, issued) => (.error duplicateTraceExc, issued)
          | (true, issued) =>
              match encodePrepared lib env service prepared with
              | .error exc => (.error exc, issued.release request.traceId)
              | .ok token => (.ok token, issued) := by
  rw [signVerdict, prepare]
  cases VerdictStatus.ofValue request.verdictStatus with
  | none => rfl
  | some verdict =>
      cases ensureKeyPair lib env service with
      | error exc => rfl
      | ok pair => rfl

/-- What a call prepares: the verdict, the key pair and the token's times. -/
theorem prepare_ok {lib : CryptoLib Token} {env : Env}
    {service : A2ACryptoService R} {request : SignRequest} {now : ℚ}
    {prepared : Prepared}
    (h : prepare lib env service request now = .ok prepared) :
    VerdictStatus.ofValue request.verdictStatus = some prepared.verdict ∧
      ensureKeyPair lib env service = .ok prepared.pair ∧
      prepared.request = request ∧ prepared.issuedAt = truncate now ∧
      prepared.exp = prepared.issuedAt + service.validitySeconds := by
  rw [prepare] at h
  split at h
  next => cases h
  next verdict hverdict =>
    split at h
    next => cases h
    next pair hpair =>
      cases h
      exact ⟨hverdict, hpair, rfl, rfl, rfl⟩

section Steps

variable {lib : CryptoLib Token} {env : Env} {service : A2ACryptoService R}
  {state : SignState Token} {call : ℕ}

theorem signStep_begin {request : SignRequest} {now : ℚ} {prepared : Prepared}
    (hidle : state.phase call = .idle)
    (hprepare : prepare lib env service request now = .ok prepared) :
    signStep lib env service state (.begin call request now) =
      state.move call (.ready prepared) state.issued := by
  simp [signStep, hidle, hprepare]

theorem signStep_begin_raised {request : SignRequest} {now : ℚ} {exc : PyExc}
    (hidle : state.phase call = .idle)
    (hprepare : prepare lib env service request now = .error exc) :
    signStep lib env service state (.begin call request now) =
      state.move call (.raised exc) state.issued := by
  simp [signStep, hidle, hprepare]

theorem signStep_reserve {now : ℚ} {prepared : Prepared} {issued : JtiRegistry}
    (hready : state.phase call = .ready prepared)
    (hreserve : reserveTrace state.issued prepared.request.traceId prepared.exp
      now = (true, issued)) :
    signStep lib env service state (.reserve call now) =
      state.move call (.reserved prepared
        (state.issued.retention now (some (.rat prepared.exp)))) issued := by
  simp [signStep, hready, hreserve]

theorem signStep_reserve_duplicate {now : ℚ} {prepared : Prepared}
    {issued : JtiRegistry} (hready : state.phase call = .ready prepared)
    (hreserve : reserveTrace state.issued prepared.request.traceId prepared.exp
      now = (false, issued)) :
    signStep lib env service state (.reserve call now) =
      state.move call (.raised duplicateTraceExc) issued := by
  simp [signStep, hready, hreserve]

theorem signStep_finish {now : ℚ} {prepared : Prepared} {slotEnd : PyNum}
    (hreserved : state.phase call = .reserved prepared slotEnd) (token : Token) :
    signStep lib env service state (.finish call (.ok token) now) =
      state.move call (.returned prepared slotEnd token now) state.issued := by
  simp [signStep, hreserved]

theorem signStep_finish_raised {now : ℚ} {prepared : Prepared} {slotEnd : PyNum}
    (hreserved : state.phase call = .reserved prepared slotEnd) (exc : PyExc) :
    signStep lib env service state (.finish call (.error exc) now) =
      state.move call (.raised exc)
        (state.issued.release prepared.request.traceId) := by
  simp [signStep, hreserved]

/-- A step of a call that has nothing to do with it changes nothing. -/
theorem signStep_raised {exc : PyExc} (hraised : state.phase call = .raised exc)
    (now : ℚ) (encoded : Except PyExc Token) :
    signStep lib env service state (.reserve call now) = state ∧
      signStep lib env service state (.finish call encoded now) = state := by
  simp [signStep, hraised]

/-- Three steps of one call in a row are a `signVerdict` call on the record. -/
theorem signStep_signVerdict {request : SignRequest} {signedAt reservedAt : ℚ}
    (hidle : state.phase call = .idle) (encoded : Except PyExc Token)
    (hencoded : ∀ prepared, prepare lib env service request signedAt =
      .ok prepared → encoded = encodePrepared lib env service prepared)
    (mintedAt : ℚ) :
    let after := final (signStep lib env service) state
      [.begin call request signedAt, .reserve call reservedAt,
        .finish call encoded mintedAt]
    let direct := signVerdict lib env
      { service with issuedRegistry := state.issued } request signedAt reservedAt
    (after.phase call).outcome = some direct.1 ∧ after.issued = direct.2 := by
  intro after direct
  have hafter : after = signStep lib env service (signStep lib env service
      (signStep lib env service state (.begin call request signedAt))
        (.reserve call reservedAt)) (.finish call encoded mintedAt) := rfl
  have hdirect : direct = _ := signVerdict_eq_prepare lib env
    { service with issuedRegistry := state.issued } request signedAt reservedAt
  rw [show prepare lib env { service with issuedRegistry := state.issued } request
    signedAt = prepare lib env service request signedAt from rfl] at hdirect
  cases hprepared : prepare lib env service request signedAt with
  | error exc =>
      rw [hprepared] at hdirect
      rw [hafter, hdirect, signStep_begin_raised hidle hprepared,
        (signStep_raised (SignState.move_self _ _ _ _) _ encoded).1,
        (signStep_raised (SignState.move_self _ _ _ _) mintedAt _).2]
      simp [SignState.move, SignPhase.outcome]
  | ok prepared =>
      rw [hprepared] at hdirect
      obtain ⟨_, _, hrequest, _⟩ := prepare_ok hprepared
      have hencode : encodePrepared lib env
          { service with issuedRegistry := state.issued } prepared = encoded :=
        (hencoded prepared hprepared).symm
      rcases hreserve : reserveTrace state.issued prepared.request.traceId
        prepared.exp reservedAt with ⟨accepted, issued⟩
      simp only [hreserve, hencode] at hdirect
      rw [hafter, hdirect, signStep_begin hidle hprepared]
      cases accepted with
      | false =>
          rw [signStep_reserve_duplicate (SignState.move_self _ _ _ _) hreserve,
            (signStep_raised (SignState.move_self _ _ _ _) mintedAt _).2]
          simp [SignState.move, SignPhase.outcome]
      | true =>
          rw [signStep_reserve (SignState.move_self _ _ _ _) hreserve]
          cases encoded with
          | error exc =>
              rw [signStep_finish_raised (SignState.move_self _ _ _ _)]
              simp [SignState.move, SignPhase.outcome, hrequest]
          | ok token =>
              rw [signStep_finish (SignState.move_self _ _ _ _)]
              simp [SignState.move, SignPhase.outcome]

end Steps

end QwedA2A
