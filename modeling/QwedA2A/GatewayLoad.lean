/-
Publication and initialization of the interceptor singleton.  A reconfiguration
loads first and publishes then; the first `get_interceptor` publishes first, so
the two come apart where its load raises.
-/
import QwedA2A.Gateway

namespace QwedA2A

open EventRun

/-- The calls on the singleton, each with the environment text it meets. -/
inductive GatewayCall where
  | get (trustedEnv : PyStr)
  | configure (config : GatewayConfig) (trustedEnv : PyStr)

namespace GatewayCall

def op : GatewayCall → GatewayOp
  | .get trustedEnv => .getInterceptor trustedEnv
  | .configure config trustedEnv => .configureInterceptor config trustedEnv

end GatewayCall

namespace Gateway

variable (platform : Platform)

def callStep (gateway : Gateway) (call : GatewayCall) : Gateway :=
  gateway.step platform call.op

/-- What a call returns; a reconfiguration returns no interceptor. -/
def answer (gateway : Gateway) : GatewayCall → Except PyExc (Option GatewayInterceptor)
  | .get trustedEnv => (gateway.getInterceptor platform trustedEnv).1.map some
  | .configure config trustedEnv =>
      (gateway.configureInterceptor platform config trustedEnv).1.map fun _ => none

/-- A new interceptor with its environment load completed; `none` when its
construction or its load raises. -/
def freshlyLoaded (config : Option GatewayConfig) (trustedEnv : PyStr) :
    Option GatewayInterceptor :=
  match GatewayInterceptor.init platform config with
  | .error _ => none
  | .ok created =>
      match (created.loadTrustedAgents platform trustedEnv).1 with
      | .error _ => none
      | .ok () => some (created.loadTrustedAgents platform trustedEnv).2

def completes (gateway : Gateway) : GatewayCall → List GatewayInterceptor
  | .get trustedEnv =>
      match gateway.interceptor with
      | some _ => []
      | none => (freshlyLoaded platform none trustedEnv).toList
  | .configure config trustedEnv =>
      (freshlyLoaded platform (some config) trustedEnv).toList

/-- The gateway after a sequence of calls from the start of the process. -/
def afterCalls (calls : List GatewayCall) : Gateway :=
  final (callStep platform) {} calls

/-- The interceptors whose load a sequence of calls completes, in order. -/
def completed (calls : List GatewayCall) : List GatewayInterceptor :=
  emitted (callStep platform) (completes platform) {} calls

/-- The promise of one call: what it returns is the interceptor that was loaded to
the end last, and a call that raises leaves the singleton as it was. -/
structure CallKeepsLoaded (past : List GatewayCall) (call : GatewayCall) : Prop where
  returned : ∀ interceptor,
    (afterCalls platform past).answer platform call = .ok (some interceptor) →
      (completed platform (past ++ [call])).getLast? = some interceptor
  unchanged : ∀ exc, (afterCalls platform past).answer platform call = .error exc →
    (afterCalls platform (past ++ [call])).interceptor =
      (afterCalls platform past).interceptor

/-- A `get_interceptor` that has to create the singleton, and can, meets an
environment that loads. -/
def CreatesLoaded (past : List GatewayCall) : GatewayCall → Prop
  | .get trustedEnv =>
      (afterCalls platform past).interceptor = none → platform.hasCrypto = true →
        ¬ EnvRaises platform.interp trustedEnv
  | .configure _ _ => True

variable {platform}

theorem afterCalls_snoc (past : List GatewayCall) (call : GatewayCall) :
    afterCalls platform (past ++ [call]) =
      (afterCalls platform past).callStep platform call :=
  final_snoc (callStep platform) {} past call

theorem completed_snoc (past : List GatewayCall) (call : GatewayCall) :
    completed platform (past ++ [call]) =
      completed platform past ++ (afterCalls platform past).completes platform call :=
  emitted_snoc (callStep platform) (completes platform) {} past call

/-- Construction raises without the crypto packages, and the load where the
environment does. -/
theorem freshlyLoaded_cases (platform : Platform) (config : Option GatewayConfig)
    (trustedEnv : PyStr) :
    (∃ exc, GatewayInterceptor.init platform config = .error exc ∧
        platform.hasCrypto = false ∧ freshlyLoaded platform config trustedEnv = none) ∨
      ∃ created, GatewayInterceptor.init platform config = .ok created ∧
        platform.hasCrypto = true ∧
        ((∃ exc, EnvRaises platform.interp trustedEnv ∧
            (created.loadTrustedAgents platform trustedEnv).1 = .error exc ∧
            freshlyLoaded platform config trustedEnv = none) ∨
          (¬ EnvRaises platform.interp trustedEnv ∧
            (created.loadTrustedAgents platform trustedEnv).1 = .ok () ∧
            freshlyLoaded platform config trustedEnv =
              some (created.loadTrustedAgents platform trustedEnv).2)) := by
  cases hinit : GatewayInterceptor.init platform config with
  | error exc =>
      refine Or.inl ⟨exc, rfl, ?_, by simp only [freshlyLoaded, hinit]⟩
      simp only [GatewayInterceptor.init] at hinit
      split_ifs at hinit with hcrypto
      exact Bool.eq_false_iff.mpr hcrypto
  | ok created =>
      have hcrypto : platform.hasCrypto = true := by
        simp only [GatewayInterceptor.init] at hinit
        split_ifs at hinit with hcrypto
        exact hcrypto
      refine Or.inr ⟨created, rfl, hcrypto, ?_⟩
      by_cases hraises : EnvRaises platform.interp trustedEnv
      · obtain ⟨exc, hexc⟩ := loadTrustedAgents_of_raises created hraises
        exact Or.inl ⟨exc, hraises, hexc, by simp only [freshlyLoaded, hinit, hexc]⟩
      · have hload := loadTrustedAgents_of_not_raises created hraises
        exact Or.inr ⟨hraises, hload, by simp only [freshlyLoaded, hinit, hload]⟩

/-- A reconfiguration publishes what it has loaded, or nothing. -/
theorem configure_loaded (platform : Platform) (gateway : Gateway) (config : GatewayConfig)
    (trustedEnv : PyStr) :
    (∃ exc, freshlyLoaded platform (some config) trustedEnv = none ∧
        gateway.configureInterceptor platform config trustedEnv =
          (.error exc, gateway)) ∨
      ∃ next, freshlyLoaded platform (some config) trustedEnv = some next ∧
        gateway.configureInterceptor platform config trustedEnv =
          (.ok (), ⟨some next⟩) := by
  rw [configureInterceptor]
  rcases freshlyLoaded_cases platform (some config) trustedEnv with
    ⟨exc, hinit, _, hfresh⟩ |
      ⟨created, hinit, _, ⟨exc, _, hload, hfresh⟩ | ⟨_, hload, hfresh⟩⟩
  · exact Or.inl ⟨exc, hfresh, by rw [hinit]⟩
  · exact Or.inl ⟨exc, hfresh, by simp only [hinit, hload]⟩
  · exact Or.inr ⟨_, hfresh, by simp only [hinit, hload]⟩

/-- The first `get_interceptor` publishes what it has built, loaded or not. -/
theorem get_first (platform : Platform) {gateway : Gateway}
    (hnone : gateway.interceptor = none) (trustedEnv : PyStr) :
    (platform.hasCrypto = false ∧ freshlyLoaded platform none trustedEnv = none ∧
        ∃ exc, gateway.getInterceptor platform trustedEnv = (.error exc, gateway)) ∨
      (platform.hasCrypto = true ∧ EnvRaises platform.interp trustedEnv ∧
        ∃ exc published, gateway.getInterceptor platform trustedEnv =
          (.error exc, ⟨some published⟩)) ∨
      (¬ EnvRaises platform.interp trustedEnv ∧
        ∃ next, freshlyLoaded platform none trustedEnv = some next ∧
          gateway.getInterceptor platform trustedEnv = (.ok next, ⟨some next⟩)) := by
  rw [getInterceptor, hnone]
  rcases freshlyLoaded_cases platform none trustedEnv with
    ⟨exc, hinit, hcrypto, hfresh⟩ |
      ⟨created, hinit, hcrypto, ⟨exc, hraises, hload, _⟩ | ⟨hloads, hload, hfresh⟩⟩
  · exact Or.inl ⟨hcrypto, hfresh, exc, by rw [hinit]⟩
  · refine Or.inr (Or.inl ⟨hcrypto, hraises, exc,
      (created.loadTrustedAgents platform trustedEnv).2, ?_⟩)
    simp only [hinit, hload]
    rfl
  · refine Or.inr (Or.inr ⟨hloads, _, hfresh, ?_⟩)
    simp only [hinit, hload]
    rfl

/-- The singleton is the interceptor that was loaded to the end last. -/
def HoldsLastLoaded (platform : Platform) (calls : List GatewayCall) : Prop :=
  (afterCalls platform calls).interceptor = (completed platform calls).getLast?

/-- The call leaves the singleton, and returns no other. -/
structure LeavesSingleton (platform : Platform) (gateway : Gateway)
    (call : GatewayCall) : Prop where
  same : (gateway.callStep platform call).interceptor = gateway.interceptor
  completes : gateway.completes platform call = []
  returned : ∀ interceptor, gateway.answer platform call = .ok (some interceptor) →
    gateway.interceptor = some interceptor

/-- The call publishes an interceptor whose load it has completed. -/
structure Publishes (platform : Platform) (gateway : Gateway) (call : GatewayCall)
    (next : GatewayInterceptor) : Prop where
  current : (gateway.callStep platform call).interceptor = some next
  completes : gateway.completes platform call = [next]
  returns : ∀ exc, gateway.answer platform call ≠ .error exc
  returned : ∀ interceptor, gateway.answer platform call = .ok (some interceptor) →
    interceptor = next

theorem configure_spec (gateway : Gateway) (config : GatewayConfig)
    (trustedEnv : PyStr) :
    LeavesSingleton platform gateway (.configure config trustedEnv) ∨
      ∃ next, Publishes platform gateway (.configure config trustedEnv) next := by
  rcases configure_loaded platform gateway config trustedEnv with
    ⟨exc, hfresh, hconfigure⟩ | ⟨next, hfresh, hconfigure⟩
  · refine Or.inl ⟨?_, ?_, fun interceptor hanswer => ?_⟩
    · rw [callStep, GatewayCall.op, step, hconfigure]
    · rw [completes, hfresh, Option.toList_none]
    · rw [answer, hconfigure] at hanswer
      cases hanswer
  · refine Or.inr ⟨next, ?_, ?_, fun exc hanswer => ?_, fun interceptor hanswer => ?_⟩
    · rw [callStep, GatewayCall.op, step, hconfigure]
    · rw [completes, hfresh, Option.toList_some]
    · rw [answer, hconfigure] at hanswer
      cases hanswer
    · rw [answer, hconfigure] at hanswer
      cases hanswer

theorem get_spec (gateway : Gateway) (trustedEnv : PyStr)
    (hloads : gateway.interceptor = none → platform.hasCrypto = true →
      ¬ EnvRaises platform.interp trustedEnv) :
    LeavesSingleton platform gateway (.get trustedEnv) ∨
      ∃ next, Publishes platform gateway (.get trustedEnv) next := by
  cases hcurrent : gateway.interceptor with
  | some current =>
      have hget := getInterceptor_of_some platform trustedEnv hcurrent
      refine Or.inl ⟨?_, ?_, fun interceptor hanswer => ?_⟩
      · rw [callStep, GatewayCall.op, step, hget]
      · rw [completes, hcurrent]
      · rw [answer, hget] at hanswer
        cases hanswer
        exact hcurrent
  | none =>
      rcases get_first platform hcurrent trustedEnv with
        ⟨_, hfresh, exc, hget⟩ | ⟨hcrypto, hraises, _⟩ | ⟨_, next, hfresh, hget⟩
      · refine Or.inl ⟨?_, ?_, fun interceptor hanswer => ?_⟩
        · rw [callStep, GatewayCall.op, step, hget]
        · rw [completes, hcurrent, hfresh, Option.toList_none]
        · rw [answer, hget] at hanswer
          cases hanswer
      · exact absurd hraises (hloads hcurrent hcrypto)
      · refine Or.inr ⟨next, ?_, ?_, fun exc hanswer => ?_, fun interceptor hanswer => ?_⟩
        · rw [callStep, GatewayCall.op, step, hget]
        · rw [completes, hcurrent, hfresh, Option.toList_some]
        · rw [answer, hget] at hanswer
          cases hanswer
        · rw [answer, hget] at hanswer
          cases hanswer
          rfl

/-- A call that creates nothing partly loaded leaves the singleton or publishes a
loaded one. -/
theorem call_spec {past : List GatewayCall} {call : GatewayCall}
    (hcreates : CreatesLoaded platform past call) :
    LeavesSingleton platform (afterCalls platform past) call ∨
      ∃ next, Publishes platform (afterCalls platform past) call next := by
  cases call with
  | get trustedEnv => exact get_spec _ trustedEnv hcreates
  | configure config trustedEnv => exact configure_spec _ config trustedEnv

/-- Such a call keeps its promise, and the singleton the last one loaded. -/
theorem call_keeps_loaded {past : List GatewayCall} {call : GatewayCall}
    (h : HoldsLastLoaded platform past) (hcreates : CreatesLoaded platform past call) :
    CallKeepsLoaded platform past call ∧ HoldsLastLoaded platform (past ++ [call]) := by
  rcases call_spec hcreates with hleaves | ⟨next, hpublishes⟩
  · have hsame : (afterCalls platform (past ++ [call])).interceptor =
        (afterCalls platform past).interceptor := by
      rw [afterCalls_snoc, hleaves.same]
    have hkept : completed platform (past ++ [call]) = completed platform past := by
      rw [completed_snoc, hleaves.completes, List.append_nil]
    refine ⟨⟨fun interceptor hanswer => ?_, fun _ _ => hsame⟩, ?_⟩
    · rw [hkept, ← h, hleaves.returned interceptor hanswer]
    · rw [HoldsLastLoaded, hsame, hkept, h]
  · have hlast : (completed platform (past ++ [call])).getLast? = some next := by
      rw [completed_snoc, hpublishes.completes, List.getLast?_concat]
    refine ⟨⟨fun interceptor hanswer => ?_, fun exc hanswer => ?_⟩, ?_⟩
    · rw [hlast, hpublishes.returned interceptor hanswer]
    · exact absurd hanswer (hpublishes.returns exc)
    · rw [HoldsLastLoaded, hlast, afterCalls_snoc, hpublishes.current]

theorem holdsLastLoaded {calls : List GatewayCall}
    (h : Admissible (CreatesLoaded platform) calls) : HoldsLastLoaded platform calls :=
  h.invariant (HoldsLastLoaded platform) rfl fun _ _ hpast hcreates =>
    (call_keeps_loaded hpast hcreates).2

/-- A first `get_interceptor` whose load raises has changed the singleton. -/
theorem createsLoaded_of_keeps {past : List GatewayCall} {call : GatewayCall}
    (h : CallKeepsLoaded platform past call) : CreatesLoaded platform past call := by
  cases call with
  | configure config trustedEnv => trivial
  | get trustedEnv =>
      intro hcurrent hcrypto hraises
      rcases get_first platform hcurrent trustedEnv with
        ⟨hmissing, _⟩ | ⟨_, _, exc, published, hget⟩ | ⟨hloads, _⟩
      · rw [hcrypto] at hmissing
        cases hmissing
      · have hraise : (afterCalls platform past).answer platform (.get trustedEnv) =
            .error exc := by
          rw [answer, hget]
          rfl
        have hsame := h.unchanged exc hraise
        rw [afterCalls_snoc, callStep, GatewayCall.op, step, hget, hcurrent] at hsame
        cases hsame
      · exact hloads hraises

end Gateway

/-- In a sequence of calls every interceptor returned has completed its load, and
every call that raises leaves the singleton alone, exactly when no call that creates
the singleton in `get_interceptor` meets an environment on which the load raises. -/
theorem singleton_loaded_iff (platform : Platform) (calls : List GatewayCall) :
    Admissible (Gateway.CallKeepsLoaded platform) calls ↔
      Admissible (Gateway.CreatesLoaded platform) calls := by
  constructor
  · intro h past call rest heq
    exact Gateway.createsLoaded_of_keeps (h past call rest heq)
  · intro h past call rest heq
    have hpast : Admissible (Gateway.CreatesLoaded platform) past :=
      h.of_prefix ⟨call :: rest, heq.symm⟩
    exact (Gateway.call_keeps_loaded (Gateway.holdsLastLoaded hpast)
      (h past call rest heq)).1

/-- Two grants, the second with an expiry of 310 digits. -/
def halfLoadedEnv : PyStr :=
  py "[\x7b\"agent_id\":\"a\"\x7d,\x7b\"agent_id\":\"b\",\"valid_until\":1" ++
    List.replicate 309 0x30 ++ py "\x7d]"

/-- The first call raises; the second returns an interceptor that knows the first
grant only, and no load has been completed. -/
theorem failed_load_is_published :
    (Gateway.answer samplePlatform {} (.get halfLoadedEnv)).isOk = false ∧
      (∃ interceptor,
        (Gateway.afterCalls samplePlatform [.get halfLoadedEnv]).answer samplePlatform
          (.get []) = .ok (some interceptor) ∧
        (interceptor.trust.trustedAgents.lookup (py "a")).isSome = true ∧
        interceptor.trust.trustedAgents.lookup (py "b") = none) ∧
      Gateway.completed samplePlatform [.get halfLoadedEnv, .get []] = [] ∧
      ¬ Admissible (Gateway.CallKeepsLoaded samplePlatform)
        [.get halfLoadedEnv, .get []] := by
  have hraised : (Gateway.answer samplePlatform {} (.get halfLoadedEnv)).isOk =
      false := by
    decide +kernel
  have hpublished :
      (match (Gateway.afterCalls samplePlatform [.get halfLoadedEnv]).interceptor with
        | some interceptor =>
            (interceptor.trust.trustedAgents.lookup (py "a")).isSome &&
              (interceptor.trust.trustedAgents.lookup (py "b")).isNone
        | none => false) = true := by
    decide +kernel
  have hnone : Gateway.completed samplePlatform [.get halfLoadedEnv, .get []] = [] :=
    List.isEmpty_iff.mp (by decide +kernel)
  cases hcurrent : (Gateway.afterCalls samplePlatform [.get halfLoadedEnv]).interceptor with
  | none =>
      rw [hcurrent] at hpublished
      cases hpublished
  | some interceptor =>
      rw [hcurrent] at hpublished
      obtain ⟨hfirst, hsecond⟩ := Bool.and_eq_true_iff.mp hpublished
      have hreturned : (Gateway.afterCalls samplePlatform
          [.get halfLoadedEnv]).answer samplePlatform (.get []) =
          .ok (some interceptor) := by
        rw [Gateway.answer, Gateway.getInterceptor_of_some _ _ hcurrent]
        rfl
      refine ⟨hraised, ⟨interceptor, hreturned, hfirst, Option.isNone_iff_eq_none.mp
        hsecond⟩, hnone, fun h => ?_⟩
      have hlast := (h [.get halfLoadedEnv] (.get []) [] rfl).returned interceptor
        hreturned
      rw [List.singleton_append, hnone] at hlast
      cases hlast

end QwedA2A
