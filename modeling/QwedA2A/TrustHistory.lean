/-
What the boundary decides before the rate limiter, judged from the operations
alone.  The stored sets and grants are a summary of the history: the summary
loses only grants that no later decision could use.
-/
import QwedA2A.TrustBoundary

namespace QwedA2A

open EventRun ExpiringTable

namespace BoundaryOp

/-- Operations that set or clear the global block of an agent. -/
def setsBlock (agentId : PyStr) : BoundaryOp → Bool
  | .blockAgent other => other = agentId
  | .trustAgent other _ => other = agentId
  | _ => false

def setsPair (senderId receiverId : PyStr) : BoundaryOp → Bool
  | .blockPair sender receiver => sender = senderId && receiver = receiverId
  | .unblockPair sender receiver => sender = senderId && receiver = receiverId
  | _ => false

def setsGrant (agentId : PyStr) : BoundaryOp → Bool
  | .blockAgent other => other = agentId
  | .trustAgent other _ => other = agentId
  | .revokeAgent other => other = agentId
  | _ => false

/-- The wall-clock readings of an operation: one for each `evaluate`. -/
def wallReads : BoundaryOp → List ℚ
  | .evaluate _ _ _ clock => [clock.now]
  | _ => []

end BoundaryOp

/-- The agent was blocked and not trusted again since. -/
def BlockedIn (ops : List BoundaryOp) (agentId : PyStr) : Prop :=
  lastMatch (BoundaryOp.setsBlock agentId) ops = some (.blockAgent agentId)

/-- The last operation on the pair blocked it. -/
def PairBlockedIn (ops : List BoundaryOp) (senderId receiverId : PyStr) : Prop :=
  lastMatch (BoundaryOp.setsPair senderId receiverId) ops =
    some (.blockPair senderId receiverId)

/-- The agent's last grant, when neither a revocation nor a block followed it
and it has not expired. -/
def liveGrant (ops : List BoundaryOp) (agentId : PyStr) (now : ℚ) :
    Option TrustEntry :=
  match lastMatch (BoundaryOp.setsGrant agentId) ops with
  | some (.trustAgent _ entry) => if entry.isValid now then some entry else none
  | _ => none

/-- A live grant, if there is one, lists the peer and the payload type. -/
def GrantAdmits (grant : Option TrustEntry) (peerId : PyStr)
    (payloadType : Option PyStr) : Prop :=
  ∀ entry, grant = some entry →
    (∀ receivers, entry.allowedReceivers = some receivers →
      peerId ∈ receivers) ∧
    ∀ type, payloadType = some type →
      ∀ types, entry.allowedPayloadTypes = some types → type ∈ types

/-- The history rule for reaching the rate limiter. -/
structure HistoryAdmits (defaultAllow : Bool) (ops : List BoundaryOp)
    (senderId receiverId : PyStr) (payloadType : Option PyStr) (now : ℚ) :
    Prop where
  sender_unblocked : ¬ BlockedIn ops senderId
  receiver_unblocked : ¬ BlockedIn ops receiverId
  pair_unblocked : ¬ PairBlockedIn ops senderId receiverId
  sender_granted : defaultAllow = false → (liveGrant ops senderId now).isSome
  sender_scope : GrantAdmits (liveGrant ops senderId now) receiverId payloadType
  receiver_scope :
    GrantAdmits (liveGrant ops receiverId now) senderId payloadType

theorem TrustEntry.isValid_of_le {entry : TrustEntry} {now later : ℚ}
    (hle : now ≤ later) (hvalid : entry.isValid later = true) :
    entry.isValid now = true := by
  cases hlimit : entry.validUntil with
  | none => simp [TrustEntry.isValid, hlimit]
  | some limit =>
      simp only [TrustEntry.isValid, hlimit, decide_eq_true_eq] at hvalid ⊢
      exact PyNum.le_trans (PyNum.rat_le_rat.mpr hle) hvalid

theorem scopeBlocks_eq_false_iff (grant : Option TrustEntry) (peerId : PyStr)
    (payloadType : Option PyStr) :
    TrustBoundary.scopeBlocks grant peerId payloadType = false ↔
      GrantAdmits grant peerId payloadType := by
  cases grant with
  | none => simp [TrustBoundary.scopeBlocks, GrantAdmits]
  | some entry =>
      simp only [TrustBoundary.scopeBlocks, GrantAdmits, Bool.or_eq_false_iff,
        Option.some.injEq, forall_eq']
      cases entry.allowedReceivers <;> cases payloadType <;>
        cases entry.allowedPayloadTypes <;> simp

/-- Only an operation on the agent's block changes its block. -/
theorem blockedIn_snoc_of_other {past : List BoundaryOp} {op : BoundaryOp}
    {agentId : PyStr} (hother : op.setsBlock agentId = false) :
    BlockedIn (past ++ [op]) agentId ↔ BlockedIn past agentId := by
  simp [BlockedIn, lastMatch_snoc, hother]

theorem pairBlockedIn_snoc_of_other {past : List BoundaryOp} {op : BoundaryOp}
    {senderId receiverId : PyStr}
    (hother : op.setsPair senderId receiverId = false) :
    PairBlockedIn (past ++ [op]) senderId receiverId ↔
      PairBlockedIn past senderId receiverId := by
  simp [PairBlockedIn, lastMatch_snoc, hother]

theorem liveGrant_snoc_of_other {past : List BoundaryOp} {op : BoundaryOp}
    {agentId : PyStr} (hother : op.setsGrant agentId = false) (now : ℚ) :
    liveGrant (past ++ [op]) agentId now = liveGrant past agentId now := by
  simp [liveGrant, lastMatch_snoc, hother]

/-- What the stored state must say about a history.  The grants are compared
at instants no earlier than any reading of the history: expired ones may or may
not have been evicted. -/
structure Summarises (defaultAllow : Bool) (ops : List BoundaryOp)
    (tb : TrustBoundary) : Prop where
  mode : tb.defaultAllow = defaultAllow
  blocked : ∀ agentId, agentId ∈ tb.blockedAgents ↔ BlockedIn ops agentId
  pairs : ∀ senderId receiverId,
    (senderId, receiverId) ∈ tb.blockedPairs ↔
      PairBlockedIn ops senderId receiverId
  grants : ∀ agentId now,
    (∀ time ∈ ops.flatMap BoundaryOp.wallReads, time ≤ now) →
      TrustBoundary.nullifyIfExpired (tb.trustedAgents.lookup agentId) now =
        liveGrant ops agentId now

namespace TrustBoundary

theorem nullifyIfExpired_sweep (table : Table PyStr TrustEntry)
    (agentId : PyStr) {evicted now : ℚ} (hle : evicted ≤ now) :
    nullifyIfExpired
        ((sweep (fun entry => !entry.isValid evicted) table).lookup agentId)
        now =
      nullifyIfExpired (table.lookup agentId) now := by
  rw [lookup_sweep]
  cases table.lookup agentId with
  | none => rfl
  | some entry =>
      cases hevicted : entry.isValid evicted with
      | true => simp [nullifyIfExpired, Option.filter, hevicted]
      | false =>
          have hnow : entry.isValid now = false := by
            rw [← Bool.not_eq_true]
            intro hvalid
            exact absurd (TrustEntry.isValid_of_le hle hvalid) (by simp [hevicted])
          simp [nullifyIfExpired, Option.filter, hevicted, hnow]

/-- Evicting expired grants changes no decision from that instant on. -/
theorem checkStages_evictExpiredTrust (tb : TrustBoundary)
    (senderId receiverId : PyStr) (payloadType : Option PyStr)
    {now later : ℚ} (mono : ℚ) (hle : now ≤ later) :
    (tb.evictExpiredTrust now mono).checkStages senderId receiverId
        payloadType later =
      tb.checkStages senderId receiverId payloadType later := by
  rw [evictExpiredTrust]
  cases sweepDue tb.lastTrustEvictionMono mono with
  | false => rfl
  | true =>
      simp only [↓reduceIte, checkStages, checkTrust,
        nullifyIfExpired_sweep tb.trustedAgents _ hle]

/-- The stages before the limiter decide by the history rule. -/
theorem checkStages_eq_none_iff {defaultAllow : Bool} {ops : List BoundaryOp}
    {tb : TrustBoundary} (h : Summarises defaultAllow ops tb)
    (senderId receiverId : PyStr) (payloadType : Option PyStr) {now : ℚ}
    (hnow : ∀ time ∈ ops.flatMap BoundaryOp.wallReads, time ≤ now) :
    tb.checkStages senderId receiverId payloadType now = none ↔
      HistoryAdmits defaultAllow ops senderId receiverId payloadType now := by
  have hsender : tb.liveEntry senderId now = liveGrant ops senderId now :=
    h.grants senderId now hnow
  have hreceiver : tb.liveEntry receiverId now = liveGrant ops receiverId now :=
    h.grants receiverId now hnow
  have hscope := scopeBlocks_eq_false_iff (liveGrant ops senderId now)
    receiverId payloadType
  have hinbound := scopeBlocks_eq_false_iff (liveGrant ops receiverId now)
    senderId payloadType
  rw [← hsender] at hscope
  rw [← hreceiver] at hinbound
  rw [← Admitted, admitted_iff_passes]
  constructor
  · intro hpass
    refine ⟨?_, ?_, ?_, ?_, ?_, ?_⟩
    · rw [← h.blocked]
      exact hpass.sender_unblocked
    · rw [← h.blocked]
      exact hpass.receiver_unblocked
    · rw [← h.pairs]
      exact hpass.pair_unblocked
    · rw [← h.mode, ← hsender]
      exact hpass.sender_granted
    · rw [← hsender]
      exact hscope.mp hpass.sender_scope
    · rw [← hreceiver]
      exact hinbound.mp hpass.receiver_scope
  · intro hadmits
    refine ⟨?_, ?_, ?_, ?_, ?_, ?_⟩
    · rw [h.blocked]
      exact hadmits.sender_unblocked
    · rw [h.blocked]
      exact hadmits.receiver_unblocked
    · rw [h.pairs]
      exact hadmits.pair_unblocked
    · rw [h.mode, hsender]
      exact hadmits.sender_granted
    · exact hscope.mpr (hsender ▸ hadmits.sender_scope)
    · exact hinbound.mpr (hreceiver ▸ hadmits.receiver_scope)

/-- `evaluate` touches no blocklist, and of the grants only those that no
later decision sees. -/
theorem evaluate_summary (tb : TrustBoundary) (senderId receiverId : PyStr)
    (payloadType : Option PyStr) (clock : Clock) :
    let next := (tb.evaluate senderId receiverId payloadType clock).2
    next.defaultAllow = tb.defaultAllow ∧
      next.blockedAgents = tb.blockedAgents ∧
      next.blockedPairs = tb.blockedPairs ∧
      ∀ agentId now, clock.now ≤ now →
        nullifyIfExpired (next.trustedAgents.lookup agentId) now =
          nullifyIfExpired (tb.trustedAgents.lookup agentId) now := by
  cases h : tb.checkStages senderId receiverId payloadType clock.now with
  | some reason =>
      simp [evaluate_of_refused h]
  | none =>
      simp only [evaluate_of_passed h, rateLimit_state,
        evictColdBuckets_defaultAllow, evictColdBuckets_blockedAgents,
        evictColdBuckets_blockedPairs, evictColdBuckets_trustedAgents]
      refine ⟨evictExpiredTrust_defaultAllow tb _ _,
        evictExpiredTrust_blockedAgents tb _ _,
        evictExpiredTrust_blockedPairs tb _ _, ?_⟩
      intro agentId now hle
      rw [evictExpiredTrust]
      split_ifs with hdue
      · exact nullifyIfExpired_sweep tb.trustedAgents agentId hle
      · rfl

end TrustBoundary

theorem summarises_fresh (maxRequestsPerMinute : ℤ) (defaultAllow : Bool) :
    Summarises defaultAllow []
      (TrustBoundary.fresh maxRequestsPerMinute defaultAllow) where
  mode := rfl
  blocked agentId := by simp [TrustBoundary.fresh, BlockedIn]
  pairs senderId receiverId := by simp [TrustBoundary.fresh, PairBlockedIn]
  grants agentId now _ := rfl

namespace Summarises

variable {defaultAllow : Bool} {past : List BoundaryOp} {tb : TrustBoundary}

/-- The grants of the past, compared at an instant the longer run allows. -/
theorem grants_past (h : Summarises defaultAllow past tb) {op : BoundaryOp}
    (agentId : PyStr) {now : ℚ}
    (hnow : ∀ time ∈ (past ++ [op]).flatMap BoundaryOp.wallReads, time ≤ now) :
    TrustBoundary.nullifyIfExpired (tb.trustedAgents.lookup agentId) now =
      liveGrant past agentId now :=
  h.grants agentId now fun time htime => hnow time (by
    rw [List.flatMap_append]
    exact List.mem_append_left _ htime)

theorem blockAgent (h : Summarises defaultAllow past tb) (agentId : PyStr) :
    Summarises defaultAllow (past ++ [.blockAgent agentId])
      (tb.blockAgent agentId) where
  mode := h.mode
  blocked other := by
    by_cases heq : agentId = other
    · simp [TrustBoundary.blockAgent, BlockedIn, lastMatch_snoc,
        BoundaryOp.setsBlock, heq]
    · rw [blockedIn_snoc_of_other (by simp [BoundaryOp.setsBlock, heq]),
        ← h.blocked]
      simp [TrustBoundary.blockAgent, Ne.symm heq]
  pairs senderId receiverId := by
    rw [pairBlockedIn_snoc_of_other rfl]
    exact h.pairs senderId receiverId
  grants other now hnow := by
    by_cases heq : agentId = other
    · subst heq
      simp [TrustBoundary.blockAgent, TrustBoundary.nullifyIfExpired,
        liveGrant, lastMatch_snoc, BoundaryOp.setsGrant]
    · rw [liveGrant_snoc_of_other (by simp [BoundaryOp.setsGrant, heq]),
        ← h.grants_past other hnow]
      simp [TrustBoundary.blockAgent, AList.lookup_erase_ne (Ne.symm heq)]

theorem trustAgent (h : Summarises defaultAllow past tb) (agentId : PyStr)
    (entry : TrustEntry) :
    Summarises defaultAllow (past ++ [.trustAgent agentId entry])
      (tb.trustAgent agentId entry) where
  mode := h.mode
  blocked other := by
    by_cases heq : agentId = other
    · simp [TrustBoundary.trustAgent, BlockedIn, lastMatch_snoc,
        BoundaryOp.setsBlock, heq]
    · rw [blockedIn_snoc_of_other (by simp [BoundaryOp.setsBlock, heq]),
        ← h.blocked]
      simp [TrustBoundary.trustAgent, Ne.symm heq]
  pairs senderId receiverId := by
    rw [pairBlockedIn_snoc_of_other rfl]
    exact h.pairs senderId receiverId
  grants other now hnow := by
    by_cases heq : agentId = other
    · subst heq
      cases hvalid : entry.isValid now <;>
        simp [TrustBoundary.trustAgent, TrustBoundary.nullifyIfExpired,
          liveGrant, lastMatch_snoc, BoundaryOp.setsGrant, Option.filter, hvalid]
    · rw [liveGrant_snoc_of_other (by simp [BoundaryOp.setsGrant, heq]),
        ← h.grants_past other hnow]
      simp [TrustBoundary.trustAgent, AList.lookup_insert_ne (Ne.symm heq)]

theorem revokeAgent (h : Summarises defaultAllow past tb) (agentId : PyStr) :
    Summarises defaultAllow (past ++ [.revokeAgent agentId])
      (tb.revokeAgent agentId).2 := by
  rw [TrustBoundary.revokeAgent_state]
  refine ⟨h.mode, ?_, ?_, ?_⟩
  · intro other
    rw [blockedIn_snoc_of_other rfl]
    exact h.blocked other
  · intro senderId receiverId
    rw [pairBlockedIn_snoc_of_other rfl]
    exact h.pairs senderId receiverId
  · intro other now hnow
    by_cases heq : agentId = other
    · subst heq
      simp [TrustBoundary.nullifyIfExpired, liveGrant, lastMatch_snoc,
        BoundaryOp.setsGrant]
    · rw [liveGrant_snoc_of_other (by simp [BoundaryOp.setsGrant, heq]),
        ← h.grants_past other hnow]
      simp [AList.lookup_erase_ne (Ne.symm heq)]

theorem blockPair (h : Summarises defaultAllow past tb)
    (senderId receiverId : PyStr) :
    Summarises defaultAllow (past ++ [.blockPair senderId receiverId])
      (tb.blockPair senderId receiverId) where
  mode := h.mode
  blocked agentId := by
    rw [blockedIn_snoc_of_other rfl]
    exact h.blocked agentId
  pairs sender receiver := by
    by_cases heq : senderId = sender ∧ receiverId = receiver
    · obtain ⟨rfl, rfl⟩ := heq
      simp [TrustBoundary.blockPair, PairBlockedIn, lastMatch_snoc,
        BoundaryOp.setsPair]
    · rw [pairBlockedIn_snoc_of_other (by
          simpa [BoundaryOp.setsPair] using heq), ← h.pairs]
      simp only [TrustBoundary.blockPair, Finset.mem_insert, Prod.mk.injEq,
        or_iff_right_iff_imp]
      rintro ⟨rfl, rfl⟩
      exact absurd ⟨rfl, rfl⟩ heq
  grants agentId now hnow := by
    rw [liveGrant_snoc_of_other rfl]
    exact h.grants_past agentId hnow

theorem unblockPair (h : Summarises defaultAllow past tb)
    (senderId receiverId : PyStr) :
    Summarises defaultAllow (past ++ [.unblockPair senderId receiverId])
      (tb.unblockPair senderId receiverId) where
  mode := h.mode
  blocked agentId := by
    rw [blockedIn_snoc_of_other rfl]
    exact h.blocked agentId
  pairs sender receiver := by
    by_cases heq : senderId = sender ∧ receiverId = receiver
    · obtain ⟨rfl, rfl⟩ := heq
      simp [TrustBoundary.unblockPair, PairBlockedIn, lastMatch_snoc,
        BoundaryOp.setsPair]
    · rw [pairBlockedIn_snoc_of_other (by
          simpa [BoundaryOp.setsPair] using heq), ← h.pairs]
      simp only [TrustBoundary.unblockPair, Finset.mem_erase, ne_eq,
        Prod.mk.injEq, and_iff_right_iff_imp]
      rintro _ ⟨rfl, rfl⟩
      exact heq ⟨rfl, rfl⟩
  grants agentId now hnow := by
    rw [liveGrant_snoc_of_other rfl]
    exact h.grants_past agentId hnow

theorem evaluate (h : Summarises defaultAllow past tb)
    (senderId receiverId : PyStr) (payloadType : Option PyStr)
    (clock : TrustBoundary.Clock) :
    Summarises defaultAllow
      (past ++ [.evaluate senderId receiverId payloadType clock])
      (tb.evaluate senderId receiverId payloadType clock).2 := by
  obtain ⟨hmode, hblocked, hpairs, hgrants⟩ :=
    tb.evaluate_summary senderId receiverId payloadType clock
  refine ⟨hmode.trans h.mode, ?_, ?_, ?_⟩
  · intro agentId
    rw [hblocked, blockedIn_snoc_of_other rfl]
    exact h.blocked agentId
  · intro sender receiver
    rw [hpairs, pairBlockedIn_snoc_of_other rfl]
    exact h.pairs sender receiver
  · intro agentId now hnow
    have hclock : clock.now ≤ now :=
      hnow clock.now (by simp [BoundaryOp.wallReads])
    rw [hgrants agentId now hclock, liveGrant_snoc_of_other rfl]
    exact h.grants_past agentId hnow

theorem step (h : Summarises defaultAllow past tb) (op : BoundaryOp) :
    Summarises defaultAllow (past ++ [op]) (tb.step op) := by
  cases op with
  | blockAgent agentId => exact h.blockAgent agentId
  | trustAgent agentId entry => exact h.trustAgent agentId entry
  | revokeAgent agentId => exact h.revokeAgent agentId
  | blockPair senderId receiverId => exact h.blockPair senderId receiverId
  | unblockPair senderId receiverId => exact h.unblockPair senderId receiverId
  | evaluate senderId receiverId payloadType clock =>
      exact h.evaluate senderId receiverId payloadType clock

end Summarises

theorem summarises_after (maxRequestsPerMinute : ℤ) (defaultAllow : Bool)
    (ops : List BoundaryOp) :
    Summarises defaultAllow ops
      (TrustBoundary.after maxRequestsPerMinute defaultAllow ops) := by
  induction ops using List.reverseRecOn with
  | nil => exact summarises_fresh maxRequestsPerMinute defaultAllow
  | append_singleton past op ih =>
      rw [TrustBoundary.after_snoc]
      exact ih.step op

/-- An `evaluate` at the end of a run reaches the rate limiter exactly when the
history admits it; otherwise it changes nothing; and no eviction of expired
grants, at whatever instant up to now, could have changed the outcome. -/
theorem evaluate_reaches_limiter_iff_history (maxRequestsPerMinute : ℤ)
    (defaultAllow : Bool) (ops : List BoundaryOp) (senderId receiverId : PyStr)
    (payloadType : Option PyStr) (clock : TrustBoundary.Clock)
    (hclock : ClockMonotone BoundaryOp.wallReads
      (ops ++ [.evaluate senderId receiverId payloadType clock])) :
    let tb := TrustBoundary.after maxRequestsPerMinute defaultAllow ops
    let refusal := tb.checkStages senderId receiverId payloadType clock.now
    (refusal = none ↔
      HistoryAdmits defaultAllow ops senderId receiverId payloadType clock.now) ∧
    (refusal = none →
      tb.evaluate senderId receiverId payloadType clock =
        (tb.evictExpiredTrust clock.now clock.mono).rateLimit senderId
          receiverId clock.nowMono) ∧
    (∀ reason, refusal = some reason →
      tb.evaluate senderId receiverId payloadType clock =
        ((false, some reason), tb)) ∧
    ∀ evicted mono, evicted ≤ clock.now →
      (tb.evictExpiredTrust evicted mono).checkStages senderId receiverId
        payloadType clock.now = refusal := by
  intro tb refusal
  have hnow : ∀ time ∈ ops.flatMap BoundaryOp.wallReads, time ≤ clock.now :=
    fun time htime => hclock.le_last htime (by simp [BoundaryOp.wallReads])
  refine ⟨?_, ?_, ?_, ?_⟩
  · exact TrustBoundary.checkStages_eq_none_iff
      (summarises_after maxRequestsPerMinute defaultAllow ops)
      senderId receiverId payloadType hnow
  · exact fun hpass => TrustBoundary.evaluate_of_passed hpass
  · exact fun reason href => TrustBoundary.evaluate_of_refused href
  · exact fun evicted mono hle =>
      tb.checkStages_evictExpiredTrust senderId receiverId payloadType mono hle

/-- A request before a grant until second 10, and another agent's after it. -/
def grantedBetween : List BoundaryOp :=
  [.evaluate (py "a") (py "b") none ⟨1, 1, 1⟩,
    .trustAgent (py "a") { validUntil := some (.rat 10) },
    .evaluate (py "c") (py "b") none ⟨4, 4, 4⟩]

/-- The grant admits its agent at second 5. -/
theorem evaluate_reaches_limiter_before_expiry :
    (TrustBoundary.after 60 false grantedBetween).checkStages
      (py "a") (py "b") none 5 = none :=
  (evaluate_reaches_limiter_iff_history 60 false grantedBetween (py "a") (py "b")
    none ⟨5, 5, 5⟩ (by norm_num [grantedBetween, ClockMonotone,
      BoundaryOp.wallReads])).1.mpr {
      sender_unblocked := by
        simp [grantedBetween, BlockedIn, lastMatch, BoundaryOp.setsBlock]
      receiver_unblocked := by
        simp [grantedBetween, BlockedIn, lastMatch, BoundaryOp.setsBlock]
      pair_unblocked := by
        simp [grantedBetween, PairBlockedIn, lastMatch, BoundaryOp.setsPair]
      sender_granted := by
        norm_num [grantedBetween, liveGrant, lastMatch, BoundaryOp.setsGrant,
          TrustEntry.isValid]
      sender_scope := by
        simp [grantedBetween, GrantAdmits, liveGrant, lastMatch, BoundaryOp.setsGrant,
          TrustEntry.isValid]
      receiver_scope := by
        have hne : py "a" ≠ py "b" := by decide
        simp [grantedBetween, GrantAdmits, liveGrant, lastMatch, BoundaryOp.setsGrant,
          hne] }

end QwedA2A
