/-
The key pair under concurrent calls.  `_ensure_key_pair` looks at the cached pair
without the lock and again under it, and reads the environment in between.  Calls
interleave at each of these steps.
-/
import QwedA2A.TokenLaws
import QwedA2A.OnceCell

namespace QwedA2A

variable {Token R : Type}

def loadMissing (lib : CryptoLib Token) (service : A2ACryptoService R) (env : Env) :
    Except PyExc KeyPair :=
  ensureKeyPair lib env { service with keyPair := none }

/-- The calls of `_ensure_key_pair` on a new service, step by step.  A call that gets
past the guard on the packages checks the cached pair, waits for the lock, checks
again, reads the environment and loads the key, and stores the pair. -/
def keyPairCalls (lib : CryptoLib Token) (service : A2ACryptoService R)
    (run : List (OnceCell.Event Env)) : OnceCell.State KeyPair PyExc :=
  OnceCell.after (loadMissing lib service) run

theorem loadMissing_ok {lib : CryptoLib Token} {service : A2ACryptoService R}
    {env : Env} {pair : KeyPair} (h : loadMissing lib service env = .ok pair) :
    loadKeyPair lib service.issuerId (signingPem env service) = .ok pair := by
  obtain ⟨_, h⟩ := guard_eq_ok.mp h
  exact (guard_eq_ok.mp h).2

theorem loadMissing_error {lib : CryptoLib Token} {service : A2ACryptoService R}
    {env : Env} {exc : PyExc} (hcrypto : lib.hasCrypto = true)
    (h : loadMissing lib service env = .error exc) :
    signingPem env service = [] ∨
      loadKeyPair lib service.issuerId (signingPem env service) = .error exc := by
  rcases guard_eq_error.mp h with ⟨hmissing, _⟩ | ⟨_, h⟩
  · rw [hcrypto] at hmissing
    cases hmissing
  · exact (guard_eq_error.mp h).imp And.left And.right

/-- A call with a pair at hand answers with it, whatever the environment. -/
theorem ensureKeyPair_some {lib : CryptoLib Token} (hcrypto : lib.hasCrypto = true)
    (env : Env) (service : A2ACryptoService R) (pair : KeyPair) :
    ensureKeyPair lib env { service with keyPair := some pair } = .ok pair := by
  rw [ensureKeyPair, hcrypto]
  rfl

section Calls

variable {lib : CryptoLib Token} {service : A2ACryptoService R}
  {run : List (OnceCell.Event Env)}

/-- Every answer is one the sequential function gives at some moment of the run. -/
theorem keyPairCalls_refines (hcrypto : lib.hasCrypto = true) {call : ℕ}
    {result : Except PyExc (Option KeyPair)}
    (h : (keyPairCalls lib service run).phase call = .done result) :
    ∃ moment env, moment <+: run ∧
      result = (ensureKeyPair lib env
        { service with keyPair := (keyPairCalls lib service moment).cell }).map some := by
  rcases OnceCell.done_cases h with
    ⟨pair, maker, rfl, hcell, past, env, _, _⟩ | ⟨exc, rfl, past, env, hmakes, herror⟩
  · refine ⟨run, env, List.prefix_rfl, ?_⟩
    have hfilled : (keyPairCalls lib service run).cell = some pair := hcell
    rw [hfilled, ensureKeyPair_some hcrypto]
    rfl
  · refine ⟨past, env, (List.prefix_append _ _).trans hmakes.happened, ?_⟩
    have hempty : (keyPairCalls lib service past).cell = none := hmakes.missing
    have hfails : ensureKeyPair lib env { service with keyPair := none } = .error exc :=
      herror
    rw [hempty, hfails]
    rfl

/-- A call that answers with a pair answers with the service's own, cached from then
on. -/
theorem keyPairCalls_own {call : ℕ} {found : Option KeyPair}
    (h : (keyPairCalls lib service run).phase call = .done (.ok found)) :
    ∃ pair, found = some pair ∧ OwnPair lib service pair ∧
      ∀ later, (keyPairCalls lib service (run ++ later)).cell = some pair := by
  rcases OnceCell.done_cases h with
    ⟨pair, maker, hfound, hcell, past, env, _, hload⟩ | ⟨exc, hfound, _⟩
  · cases hfound
    exact ⟨pair, rfl, ⟨_, loadMissing_ok hload⟩, OnceCell.cell_append hcell⟩
  · cases hfound

/-- A call that fails read, under the lock and with no pair cached, an environment
without a key that loads. -/
theorem keyPairCalls_error (hcrypto : lib.hasCrypto = true) {call : ℕ} {exc : PyExc}
    (h : (keyPairCalls lib service run).phase call = .done (.error exc)) :
    exc.type = .runtimeError ∧
      ∃ past env, past ++ [.make call env] <+: run ∧
        (keyPairCalls lib service past).holder = some call ∧
        (keyPairCalls lib service past).cell = none ∧
        (signingPem env service = [] ∨
          loadKeyPair lib service.issuerId (signingPem env service) = .error exc) := by
  rcases OnceCell.done_cases h with
    ⟨pair, maker, hresult, _⟩ | ⟨raised, hresult, past, env, hmakes, herror⟩
  · cases hresult
  · cases hresult
    refine ⟨ensureKeyPair_error herror, past, env, hmakes.happened, ?_, hmakes.missing,
      loadMissing_error hcrypto herror⟩
    apply (OnceCell.sound_after _ past call).held
    rw [hmakes.making]
    trivial

end Calls

/-- However its calls interleave, and whatever the environment holds at each of them,
a service loads its key pair at most once: every answer is one the sequential function
gives at some moment, two answers never differ in the pair, a failed call leaves
neither a pair nor the lock behind, and no call is ever stuck. -/
theorem key_pair_loaded_once (lib : CryptoLib Token) (service : A2ACryptoService R)
    (hcrypto : lib.hasCrypto = true) (run : List (OnceCell.Event Env)) :
    (∀ call result, (keyPairCalls lib service run).phase call = .done result →
      ∃ moment env, moment <+: run ∧
        result = (ensureKeyPair lib env
          { service with
            keyPair := (keyPairCalls lib service moment).cell }).map some) ∧
    (∀ call found, (keyPairCalls lib service run).phase call = .done (.ok found) →
      ∃ pair, found = some pair ∧ OwnPair lib service pair ∧
        ∀ later, (keyPairCalls lib service (run ++ later)).cell = some pair) ∧
    (∀ past past' call call' env env' pair pair',
      OnceCell.MakesAt (loadMissing lib service) run past call env →
        loadMissing lib service env = .ok pair →
          OnceCell.MakesAt (loadMissing lib service) run past' call' env' →
            loadMissing lib service env' = .ok pair' → past = past' ∧ env = env') ∧
    (∀ call exc, (keyPairCalls lib service run).phase call = .done (.error exc) →
      exc.type = .runtimeError ∧
        ∃ past env, past ++ [.make call env] <+: run ∧
          (keyPairCalls lib service past).holder = some call ∧
          (keyPairCalls lib service past).cell = none ∧
          (signingPem env service = [] ∨
            loadKeyPair lib service.issuerId (signingPem env service) = .error exc)) ∧
    (∀ call, (keyPairCalls lib service run).holder = some call →
      ((keyPairCalls lib service run).phase call).inside) ∧
    ∀ call, ∃ later result,
      (keyPairCalls lib service (run ++ later)).phase call = .done result := by
  refine ⟨?_, ?_, ?_, ?_, ?_, ?_⟩
  · intro call result h
    exact keyPairCalls_refines hcrypto h
  · intro call found h
    exact keyPairCalls_own h
  · intro past past' call call' env env' pair pair' hmakes hpair hmakes' hpair'
    exact hmakes.unique hpair hmakes' hpair'
  · intro call exc h
    exact keyPairCalls_error hcrypto h
  · intro call hheld
    exact OnceCell.inside_of_holder hheld
  · intro call
    have : Nonempty Env := ⟨{ deploymentId := [PyChar.ofChar 'd'], deploymentIdSet := by decide }⟩
    exact OnceCell.can_end (loadMissing lib service) run call

namespace Reference

def keyEnv (pem : Option PyStr) : Env where
  deploymentId := py "race"
  signingKeyPem := pem
  trustedIssuers := []
  deploymentIdSet := by decide

def racedService : A2ACryptoService JtiRegistry :=
  .withDefaultRegistry (py "did:qwed:a2a:race") 300 none

/-- One call fails before there is a key; of the two others each finds a different
one, but the second has to wait for the lock. -/
def keyRace : List (OnceCell.Event Env) :=
  [.check 2, .acquire 2, .recheck 2, .make 2 (keyEnv none), .check 0, .check 1,
    .acquire 1, .release 2, .acquire 0, .acquire 1, .recheck 0,
    .make 0 (keyEnv (some (py "key one"))), .store 0, .fetch 0, .release 0,
    .acquire 1, .recheck 1, .make 1 (keyEnv (some (py "key two"))), .fetch 1, .release 1]

def racedPair : KeyPair where
  issuerId := py "did:qwed:a2a:race"
  keyId := py "did:qwed:a2a:race#key-k"
  key := ⟨py "key one", ⟨1, 1⟩⟩

end Reference

theorem key_pair_loaded_once_race :
    (keyPairCalls Reference.lib Reference.racedService Reference.keyRace).phase 0 =
      .done (.ok (some Reference.racedPair)) ∧
    (keyPairCalls Reference.lib Reference.racedService Reference.keyRace).phase 1 =
      .done (.ok (some Reference.racedPair)) ∧
    OwnPair Reference.lib Reference.racedService Reference.racedPair ∧
    ∃ exc : PyExc, exc.type = .runtimeError ∧
      (keyPairCalls Reference.lib Reference.racedService Reference.keyRace).phase 2 =
        .done (.error exc) := by
  obtain ⟨_, hown, _, hfails, _⟩ := key_pair_loaded_once Reference.lib
    Reference.racedService rfl Reference.keyRace
  have hfirst : (keyPairCalls Reference.lib Reference.racedService
      Reference.keyRace).phase 0 = .done (.ok (some Reference.racedPair)) := rfl
  have hfailed : (keyPairCalls Reference.lib Reference.racedService
      Reference.keyRace).phase 2 = .done (.error _) := rfl
  obtain ⟨pair, hpair, hloaded, _⟩ := hown 0 _ hfirst
  cases hpair
  exact ⟨hfirst, rfl, hloaded, _, (hfails 2 _ hfailed).1, hfailed⟩

end QwedA2A
