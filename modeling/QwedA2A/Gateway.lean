/-
The gateway's interceptor singleton: created on first use, and swapped by a
reconfiguration at runtime.  The swap installs a boundary without any block, so
blocks outlive it only where the reload itself lifts them.
-/
import QwedA2A.EnvGrants
import QwedA2A.TrustHistory

namespace QwedA2A

open EventRun

/-- What an interceptor is built on: how JSON is read, and whether the packages
behind the attestations are there. -/
structure Platform where
  interp : PyJson.Interpreter
  hasCrypto : Bool

/-- The part of the runtime configuration that a boundary is built from. -/
structure GatewayConfig where
  trustedAgents : Option (List PyStr) := none

/-- What the gateway keeps of an interceptor. -/
structure GatewayInterceptor where
  config : GatewayConfig
  trust : TrustBoundary

/-- The module state: the singleton, once there is one. -/
structure Gateway where
  interceptor : Option GatewayInterceptor := none

def cryptoMissingExc : PyExc :=
  ⟨.runtimeError, py "QWED-A2A requires 'cryptography' and 'PyJWT' packages. Install with: pip install qwed-a2a. Operating without JWT attestations violates fail-closed policy."⟩

/-- Unscoped grants for the agents a configuration trusts. -/
def GatewayConfig.grants (config : GatewayConfig) : List Grant :=
  (config.trustedAgents.getD []).map fun agentId => (agentId, {})

/-- A new interceptor around a boundary that denies by default. -/
def GatewayInterceptor.init (platform : Platform)
    (config : Option GatewayConfig) : Except PyExc GatewayInterceptor :=
  let config := config.getD {}
  let trust := (TrustBoundary.fresh 60 false).trustAll config.grants
  if platform.hasCrypto then .ok ⟨config, trust⟩ else .error cryptoMissingExc

def GatewayInterceptor.loadTrustedAgents (platform : Platform)
    (interceptor : GatewayInterceptor) (trustedEnv : PyStr) :
    Except PyExc Unit × GatewayInterceptor :=
  if trustedEnv = [] then (.ok (), interceptor)
  else
    let result := interceptor.trust.loadFromEnv platform.interp trustedEnv
    (result.1, { interceptor with trust := result.2 })

namespace Gateway

def getInterceptor (platform : Platform) (gateway : Gateway)
    (trustedEnv : PyStr) : Except PyExc GatewayInterceptor × Gateway :=
  match gateway.interceptor with
  | some interceptor => (.ok interceptor, gateway)
  | none =>
      match GatewayInterceptor.init platform none with
      | .error exc => (.error exc, gateway)
      | .ok created =>
          -- The singleton is assigned before its load, whatever that raises.
          let result := created.loadTrustedAgents platform trustedEnv
          (result.1.map fun _ => result.2, ⟨some result.2⟩)

/-- Reconfigure the interceptor at runtime: build, load, then swap. -/
def configureInterceptor (platform : Platform) (gateway : Gateway)
    (config : GatewayConfig) (trustedEnv : PyStr) : Except PyExc Unit × Gateway :=
  match GatewayInterceptor.init platform (some config) with
  | .error exc => (.error exc, gateway)
  | .ok created =>
      let result := created.loadTrustedAgents platform trustedEnv
      match result.1 with
      | .error exc => (.error exc, gateway)
      | .ok () => (.ok (), ⟨some result.2⟩)

end Gateway

/-- The operations of the gateway, each with the environment text it meets.  A
boundary operation goes to the boundary of `get_interceptor()`. -/
inductive GatewayOp where
  | getInterceptor (trustedEnv : PyStr)
  | configureInterceptor (config : GatewayConfig) (trustedEnv : PyStr)
  | onBoundary (trustedEnv : PyStr) (op : BoundaryOp)

/-- What a gateway operation did: an operation on the current boundary, or the
installation of a boundary with new grants. -/
inductive GatewayEvent where
  | did (op : BoundaryOp)
  | reloaded (grants : List Grant)

namespace Gateway

def step (platform : Platform) (gateway : Gateway) : GatewayOp → Gateway
  | .getInterceptor trustedEnv => (gateway.getInterceptor platform trustedEnv).2
  | .configureInterceptor config trustedEnv =>
      (gateway.configureInterceptor platform config trustedEnv).2
  | .onBoundary trustedEnv op =>
      let result := gateway.getInterceptor platform trustedEnv
      match result.1 with
      | .error _ => result.2
      | .ok interceptor =>
          ⟨some { interceptor with trust := interceptor.trust.step op }⟩

def reloadGrants (platform : Platform) (config : GatewayConfig)
    (trustedEnv : PyStr) : List Grant :=
  config.grants ++ madeGrants platform.interp trustedEnv

def performed (platform : Platform) (gateway : Gateway) :
    GatewayOp → List GatewayEvent
  | .getInterceptor _ => []
  | .configureInterceptor config trustedEnv =>
      match (gateway.configureInterceptor platform config trustedEnv).1 with
      | .error _ => []
      | .ok () => [.reloaded (reloadGrants platform config trustedEnv)]
  | .onBoundary trustedEnv op =>
      match (gateway.getInterceptor platform trustedEnv).1 with
      | .error _ => []
      | .ok _ => [.did op]

/-- The gateway after a run from the start of the process. -/
def after (platform : Platform) (run : List GatewayOp) : Gateway :=
  final (step platform) {} run

def history (platform : Platform) (run : List GatewayOp) : List GatewayEvent :=
  emitted (step platform) (performed platform) {} run

theorem after_snoc (platform : Platform) (past : List GatewayOp) (op : GatewayOp) :
    after platform (past ++ [op]) = (after platform past).step platform op :=
  final_snoc (step platform) {} past op

theorem history_snoc (platform : Platform) (past : List GatewayOp)
    (op : GatewayOp) :
    history platform (past ++ [op]) =
      history platform past ++ (after platform past).performed platform op :=
  emitted_snoc (step platform) (performed platform) {} past op

end Gateway

namespace GatewayEvent

/-- Events that set or clear the block of an agent: its blocks, and the grants
that name it, reloaded ones included. -/
def setsBlock (agentId : PyStr) : GatewayEvent → Bool
  | .did op => op.setsBlock agentId
  | .reloaded grants => grants.any fun grant => grant.1 = agentId

def setsPair (senderId receiverId : PyStr) : GatewayEvent → Bool
  | .did op => op.setsPair senderId receiverId
  | .reloaded _ => false

end GatewayEvent

/-- The agent was blocked, and no grant has named it since. -/
def AgentBlocked (history : List GatewayEvent) (agentId : PyStr) : Prop :=
  lastMatch (GatewayEvent.setsBlock agentId) history =
    some (.did (.blockAgent agentId))

/-- The pair was blocked, and not unblocked since. -/
def PairBlocked (history : List GatewayEvent) (senderId receiverId : PyStr) :
    Prop :=
  lastMatch (GatewayEvent.setsPair senderId receiverId) history =
    some (.did (.blockPair senderId receiverId))

/-- A block that covers the communication of a pair. -/
def Covered (history : List GatewayEvent) (senderId receiverId : PyStr) : Prop :=
  AgentBlocked history senderId ∨ AgentBlocked history receiverId ∨
    PairBlocked history senderId receiverId

/-- After a run no `evaluate` against a block is allowed, on the interceptor
that `get_interceptor` returns then. -/
def BlocksHold (platform : Platform) (run : List GatewayOp) : Prop :=
  ∀ trustedEnv interceptor senderId receiverId payloadType clock,
    ((Gateway.after platform run).getInterceptor platform trustedEnv).1 =
      .ok interceptor →
    Covered (Gateway.history platform run) senderId receiverId →
      (interceptor.trust.evaluate senderId receiverId payloadType clock).1.1 =
        false

/-- A reconfiguration that loses no block: it raises, or it meets a boundary
without blocked pairs whose blocked agents are all granted by the reload. -/
def KeepsBlocks (platform : Platform) (past : List GatewayOp) : GatewayOp → Prop
  | .configureInterceptor config trustedEnv =>
      platform.hasCrypto = true → ¬ EnvRaises platform.interp trustedEnv →
      ∀ interceptor, (Gateway.after platform past).interceptor = some interceptor →
        interceptor.trust.blockedPairs = ∅ ∧
        ∀ agentId ∈ interceptor.trust.blockedAgents,
          ∃ grant ∈ Gateway.reloadGrants platform config trustedEnv,
            grant.1 = agentId
  | _ => True

namespace TrustBoundary

/-- No block of either agent or of the pair lets a request through. -/
theorem evaluate_of_blocked {tb : TrustBoundary} {senderId receiverId : PyStr}
    (h : senderId ∈ tb.blockedAgents ∨ receiverId ∈ tb.blockedAgents ∨
      (senderId, receiverId) ∈ tb.blockedPairs)
    (payloadType : Option PyStr) (clock : Clock) :
    (tb.evaluate senderId receiverId payloadType clock).1.1 = false := by
  cases hstages : tb.checkStages senderId receiverId payloadType clock.now with
  | some reason => rw [evaluate_of_refused hstages]
  | none =>
      have hpasses := (tb.admitted_iff_passes senderId receiverId payloadType
        clock.now).mp hstages
      rcases h with hsender | hreceiver | hpair
      · exact absurd hsender hpasses.sender_unblocked
      · exact absurd hreceiver hpasses.receiver_unblocked
      · exact absurd hpair hpasses.pair_unblocked

/-- Only the operations on an agent's block change it. -/
theorem mem_blockedAgents_step {tb : TrustBoundary} {op : BoundaryOp}
    {agentId : PyStr} (hother : op.setsBlock agentId = false) :
    agentId ∈ (tb.step op).blockedAgents ↔ agentId ∈ tb.blockedAgents := by
  cases op with
  | blockAgent other =>
      have hne : agentId ≠ other := by
        rintro rfl
        simp [BoundaryOp.setsBlock] at hother
      simp [step, TrustBoundary.blockAgent, hne]
  | trustAgent other entry =>
      have hne : agentId ≠ other := by
        rintro rfl
        simp [BoundaryOp.setsBlock] at hother
      simp [step, TrustBoundary.trustAgent, hne]
  | revokeAgent other => rw [step, revokeAgent_state]
  | blockPair senderId receiverId => rfl
  | unblockPair senderId receiverId => rfl
  | evaluate senderId receiverId payloadType clock =>
      rw [step, (evaluate_summary tb senderId receiverId payloadType clock).2.1]

/-- Only the operations on a pair change its block. -/
theorem mem_blockedPairs_step {tb : TrustBoundary} {op : BoundaryOp}
    {senderId receiverId : PyStr}
    (hother : op.setsPair senderId receiverId = false) :
    (senderId, receiverId) ∈ (tb.step op).blockedPairs ↔
      (senderId, receiverId) ∈ tb.blockedPairs := by
  cases op with
  | blockPair sender receiver =>
      have hne : (senderId, receiverId) ≠ (sender, receiver) := by
        intro heq
        cases heq
        simp [BoundaryOp.setsPair] at hother
      simp [step, TrustBoundary.blockPair, hne]
  | unblockPair sender receiver =>
      have hne : (senderId, receiverId) ≠ (sender, receiver) := by
        intro heq
        cases heq
        simp [BoundaryOp.setsPair] at hother
      simp [step, TrustBoundary.unblockPair, hne]
  | blockAgent agentId => rfl
  | trustAgent agentId entry => rfl
  | revokeAgent agentId => rw [step, revokeAgent_state]
  | evaluate sender receiver payloadType clock =>
      rw [step, (evaluate_summary tb sender receiver payloadType clock).2.2.1]

end TrustBoundary

/-- The boundary enforces every block of the history. -/
structure Enforces (history : List GatewayEvent) (tb : TrustBoundary) : Prop where
  agents : ∀ agentId, AgentBlocked history agentId → agentId ∈ tb.blockedAgents
  pairs : ∀ senderId receiverId, PairBlocked history senderId receiverId →
    (senderId, receiverId) ∈ tb.blockedPairs

namespace Enforces

variable {history : List GatewayEvent} {tb : TrustBoundary}

theorem nil (tb : TrustBoundary) : Enforces [] tb where
  agents := fun _ h => nomatch h
  pairs := fun _ _ h => nomatch h

/-- A boundary operation sets the block it is about and keeps the others. -/
theorem did (h : Enforces history tb) (op : BoundaryOp) :
    Enforces (history ++ [.did op]) (tb.step op) where
  agents := by
    intro agentId hblocked
    rw [AgentBlocked, lastMatch_snoc] at hblocked
    split_ifs at hblocked with hsets
    · cases hblocked
      exact Finset.mem_insert_self agentId tb.blockedAgents
    · rw [TrustBoundary.mem_blockedAgents_step (Bool.eq_false_iff.mpr hsets)]
      exact h.agents agentId hblocked
  pairs := by
    intro senderId receiverId hblocked
    rw [PairBlocked, lastMatch_snoc] at hblocked
    split_ifs at hblocked with hsets
    · cases hblocked
      exact Finset.mem_insert_self (senderId, receiverId) tb.blockedPairs
    · rw [TrustBoundary.mem_blockedPairs_step (Bool.eq_false_iff.mpr hsets)]
      exact h.pairs senderId receiverId hblocked

/-- A boundary without blocked pairs can be replaced by any other, when the
grants that come with it name every blocked agent. -/
theorem reloaded (h : Enforces history tb) {grants : List Grant}
    (hpairs : tb.blockedPairs = ∅)
    (hagents : ∀ agentId ∈ tb.blockedAgents, ∃ grant ∈ grants, grant.1 = agentId)
    (next : TrustBoundary) : Enforces (history ++ [.reloaded grants]) next where
  agents := by
    intro agentId hblocked
    rw [AgentBlocked, lastMatch_snoc] at hblocked
    split_ifs at hblocked with hnamed
    · cases hblocked
    · obtain ⟨grant, hmem, hgrant⟩ := hagents agentId (h.agents agentId hblocked)
      exact absurd (List.any_eq_true.mpr ⟨grant, hmem, decide_eq_true hgrant⟩)
        hnamed
  pairs := by
    intro senderId receiverId hblocked
    rw [PairBlocked, lastMatch_snoc] at hblocked
    have hold := h.pairs senderId receiverId hblocked
    rw [hpairs] at hold
    exact absurd hold (Finset.notMem_empty _)

end Enforces

/-- Before there is an interceptor nothing was done; after that its boundary
enforces what was. -/
def InForce (history : List GatewayEvent) (gateway : Gateway) : Prop :=
  match gateway.interceptor with
  | none => history = []
  | some interceptor => Enforces history interceptor.trust

namespace Gateway

variable {platform : Platform} {gateway : Gateway} {trustedEnv : PyStr}

theorem getInterceptor_of_some (platform : Platform) (trustedEnv : PyStr)
    {interceptor : GatewayInterceptor}
    (h : gateway.interceptor = some interceptor) :
    gateway.getInterceptor platform trustedEnv = (.ok interceptor, gateway) := by
  simp only [getInterceptor, h]

/-- Whatever the first load raises, the call loses no block: there was none. -/
theorem getInterceptor_inForce (platform : Platform) (trustedEnv : PyStr)
    {history : List GatewayEvent} (h : InForce history gateway) :
    InForce history (gateway.getInterceptor platform trustedEnv).2 ∧
      ∀ interceptor,
        (gateway.getInterceptor platform trustedEnv).1 = .ok interceptor →
          (gateway.getInterceptor platform trustedEnv).2.interceptor =
            some interceptor := by
  cases hcurrent : gateway.interceptor with
  | some interceptor =>
      rw [getInterceptor_of_some _ _ hcurrent]
      refine ⟨h, fun other hother => ?_⟩
      cases hother
      exact hcurrent
  | none =>
      simp only [InForce, hcurrent] at h
      subst h
      cases hinit : GatewayInterceptor.init platform none with
      | error exc =>
          simp only [getInterceptor, hcurrent, hinit]
          exact ⟨by simp only [InForce, hcurrent], fun _ hother => nomatch hother⟩
      | ok created =>
          simp only [getInterceptor, hcurrent, hinit]
          refine ⟨Enforces.nil _, fun other hother => ?_⟩
          cases hload : (created.loadTrustedAgents platform trustedEnv).1 with
          | error exc =>
              rw [hload] at hother
              cases hother
          | ok _ =>
              rw [hload] at hother
              cases hother
              rfl

theorem not_envRaises_nil (interp : PyJson.Interpreter) : ¬ EnvRaises interp [] := by
  have hloads : PyJson.loads interp (strip []) = .error PyJson.expectingValue :=
    TrustBoundary.loads_nil interp
  rintro (⟨exc, hexc, hdecode, _⟩ | ⟨items, hitems, _⟩)
  · cases hloads.symm.trans hexc
    exact hdecode rfl
  · cases hloads.symm.trans hitems

theorem loadTrustedAgents_of_not_raises (interceptor : GatewayInterceptor)
    (h : ¬ EnvRaises platform.interp trustedEnv) :
    (interceptor.loadTrustedAgents platform trustedEnv).1 = .ok () := by
  rw [GatewayInterceptor.loadTrustedAgents]
  split_ifs
  · rfl
  · simp only [TrustBoundary.loadFromEnv_of_not_raises _ h]

theorem loadTrustedAgents_of_raises (interceptor : GatewayInterceptor)
    (h : EnvRaises platform.interp trustedEnv) :
    ∃ exc, (interceptor.loadTrustedAgents platform trustedEnv).1 = .error exc := by
  have hne : trustedEnv ≠ [] := by
    rintro rfl
    exact not_envRaises_nil _ h
  obtain ⟨exc, hexc⟩ := TrustBoundary.loadFromEnv_of_raises interceptor.trust h
  refine ⟨exc, ?_⟩
  rw [GatewayInterceptor.loadTrustedAgents, if_neg hne]
  exact hexc

/-- A reconfiguration swaps exactly when nothing it does raises. -/
theorem configureInterceptor_cases (platform : Platform) (gateway : Gateway)
    (config : GatewayConfig) (trustedEnv : PyStr) :
    (∃ exc, gateway.configureInterceptor platform config trustedEnv =
      (.error exc, gateway)) ∨
    (platform.hasCrypto = true ∧ ¬ EnvRaises platform.interp trustedEnv ∧
      ∃ next, gateway.configureInterceptor platform config trustedEnv =
        (.ok (), ⟨some next⟩)) := by
  rw [configureInterceptor]
  cases hinit : GatewayInterceptor.init platform (some config) with
  | error exc => exact Or.inl ⟨exc, rfl⟩
  | ok created =>
      have hcrypto : platform.hasCrypto = true := by
        simp only [GatewayInterceptor.init] at hinit
        split_ifs at hinit with hcrypto
        exact hcrypto
      by_cases hraises : EnvRaises platform.interp trustedEnv
      · obtain ⟨exc, hexc⟩ := loadTrustedAgents_of_raises created hraises
        exact Or.inl ⟨exc, by simp only [hexc]⟩
      · have hload := loadTrustedAgents_of_not_raises created hraises
        exact Or.inr ⟨hcrypto, hraises,
          (created.loadTrustedAgents platform trustedEnv).2, by simp only [hload]⟩

/-- A step that keeps the blocks keeps them in force. -/
theorem step_inForce {past : List GatewayOp} {op : GatewayOp}
    (h : InForce (history platform past) (after platform past))
    (hkeeps : KeepsBlocks platform past op) :
    InForce (history platform (past ++ [op])) (after platform (past ++ [op])) := by
  rw [history_snoc, after_snoc]
  cases op with
  | getInterceptor trustedEnv =>
      rw [performed, List.append_nil]
      exact (getInterceptor_inForce platform trustedEnv h).1
  | onBoundary trustedEnv op =>
      obtain ⟨hinForce, hcurrent⟩ := getInterceptor_inForce platform trustedEnv h
      simp only [performed, step]
      cases hget : ((after platform past).getInterceptor platform trustedEnv).1 with
      | error exc =>
          simp only [List.append_nil]
          exact hinForce
      | ok interceptor =>
          rw [InForce, hcurrent interceptor hget] at hinForce
          exact hinForce.did op
  | configureInterceptor config trustedEnv =>
      simp only [performed, step]
      rcases configureInterceptor_cases platform (after platform past) config
        trustedEnv with ⟨exc, hraise⟩ | ⟨hcrypto, hraises, next, hswap⟩
      · simp only [hraise, List.append_nil]
        exact h
      · simp only [hswap]
        cases hcurrent : (after platform past).interceptor with
        | none =>
            rw [InForce, hcurrent] at h
            rw [h]
            exact (Enforces.nil (TrustBoundary.fresh 60 false)).reloaded rfl
              (fun _ hmem => absurd hmem (Finset.notMem_empty _)) next.trust
        | some interceptor =>
            obtain ⟨hpairs, hagents⟩ := hkeeps hcrypto hraises interceptor hcurrent
            rw [InForce, hcurrent] at h
            exact h.reloaded hpairs hagents next.trust

theorem after_inForce {run : List GatewayOp}
    (h : Admissible (KeepsBlocks platform) run) :
    InForce (history platform run) (after platform run) :=
  h.invariant (fun run => InForce (history platform run) (after platform run)) rfl
    fun _ _ hpast hkeeps => step_inForce hpast hkeeps

end Gateway

/-- In a run whose reconfigurations lose no block, every block holds in every
state on the way: until an `unblock_pair` of the pair, or a grant that names the
agent. -/
theorem blocks_hold_throughout (platform : Platform) (run : List GatewayOp)
    (h : Admissible (KeepsBlocks platform) run) :
    ∀ past, past <+: run → BlocksHold platform past := by
  intro past hpast trustedEnv interceptor senderId receiverId payloadType clock
    hget hcovered
  obtain ⟨hinForce, hcurrent⟩ := Gateway.getInterceptor_inForce platform trustedEnv
    (Gateway.after_inForce (h.of_prefix hpast))
  rw [InForce, hcurrent interceptor hget] at hinForce
  refine TrustBoundary.evaluate_of_blocked ?_ payloadType clock
  rcases hcovered with hsender | hreceiver | hpair
  · exact Or.inl (hinForce.agents senderId hsender)
  · exact Or.inr (Or.inl (hinForce.agents receiverId hreceiver))
  · exact Or.inr (Or.inr (hinForce.pairs senderId receiverId hpair))

/-- A platform with the crypto packages, under the usual recursion limit. -/
def samplePlatform : Platform := ⟨⟨fun _ => [], 1000⟩, true⟩

/-- A blocked agent, a reconfiguration that grants it, and a blocked pair. -/
def grantedReload : List GatewayOp :=
  [.onBoundary [] (.blockAgent (py "b")), .configureInterceptor {} (py "b"),
    .onBoundary [] (.blockPair (py "b") (py "c"))]

theorem grantedReload_keeps :
    Admissible (KeepsBlocks samplePlatform) grantedReload := by
  refine @Admissible.snoc _ _ [_, _] _ ?_ trivial
  refine @Admissible.snoc _ _ [_] _ ?_ ?_
  · exact @Admissible.snoc _ _ [] _ (Admissible.nil _) trivial
  · intro _ _ interceptor hcurrent
    have hgranted : ((Gateway.reloadGrants samplePlatform {} (py "b")).any
        fun grant => grant.1 = py "b") = true := by
      decide +kernel
    rw [← Option.some.inj hcurrent]
    refine ⟨rfl, fun agentId hmem => ?_⟩
    obtain ⟨grant, hgrant, hname⟩ := List.any_eq_true.mp hgranted
    have hblocked : agentId ∈ insert (py "b") (∅ : Finset PyStr) := hmem
    rcases Finset.mem_insert.mp hblocked with rfl | hempty
    · exact ⟨grant, hgrant, of_decide_eq_true hname⟩
    · exact absurd hempty (Finset.notMem_empty _)

/-- Both blocks hold after that run. -/
theorem blocks_hold_throughout_grantedReload :
    BlocksHold samplePlatform grantedReload :=
  blocks_hold_throughout samplePlatform grantedReload grantedReload_keeps
    grantedReload List.prefix_rfl

/-- A pair is blocked, the gateway is reconfigured, and the environment still
grants the sender. -/
def liftedPair : List GatewayOp :=
  [.onBoundary (py "a") (.blockPair (py "a") (py "b")),
    .configureInterceptor {} (py "a")]

/-- The reconfiguration lifts the block of the pair. -/
theorem reconfiguration_lifts_block : ¬ BlocksHold samplePlatform liftedPair := by
  intro h
  have hcovered : Covered (Gateway.history samplePlatform liftedPair) (py "a")
      (py "b") :=
    Or.inr (Or.inr rfl)
  have hallowed :
      (match ((Gateway.after samplePlatform liftedPair).getInterceptor
          samplePlatform []).1 with
        | .ok interceptor =>
            (interceptor.trust.evaluate (py "a") (py "b") none ⟨0, 0, 0⟩).1.1
        | .error _ => false) = true := by
    decide +kernel
  cases hget : ((Gateway.after samplePlatform liftedPair).getInterceptor
      samplePlatform []).1 with
  | error exc =>
      rw [hget] at hallowed
      cases hallowed
  | ok interceptor =>
      rw [hget] at hallowed
      have hrefused := h [] interceptor _ _ none ⟨0, 0, 0⟩ hget hcovered
      exact Bool.false_ne_true (hrefused.symm.trans hallowed)

end QwedA2A
