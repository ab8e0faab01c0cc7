/-
The trust boundary: agent and pair blocklists, scoped expiring grants, and one
token bucket per pair.  `evaluate` is split at the point where the rate limiter
is reached; everything before that point reads the state and leaves it alone.
-/
import QwedA2A.PyValue
import QwedA2A.ExpiringTable
import QwedA2A.EventRun

namespace QwedA2A

open ExpiringTable

def redact (agentId : PyStr) : PyStr :=
  if agentId = [] then py "<empty>"
  else if agentId.length ≤ 4 then py "****"
  else agentId.take 2 ++ py "***" ++ agentId.drop (agentId.length - 2)

/-- Token-bucket rate limiter for a single agent pair. -/
structure TokenBucket where
  tokens : ℚ
  capacity : ℚ
  refillRate : ℚ
  lastRefill : ℚ := 0

/-- Refill for the elapsed time, then take one token if there is one. -/
def TokenBucket.consume (bucket : TokenBucket) (now : ℚ) : Bool × TokenBucket :=
  let elapsed := now - bucket.lastRefill
  let tokens := min bucket.capacity (bucket.tokens + elapsed * bucket.refillRate)
  if 1 ≤ tokens then
    (true, { bucket with tokens := tokens - 1, lastRefill := now })
  else
    (false, { bucket with tokens := tokens, lastRefill := now })

/-- Scoped, expiring trust grant for a single agent.  `none` is an
unrestricted scope, respectively no expiry. -/
structure TrustEntry where
  allowedReceivers : Option (Finset PyStr) := none
  allowedPayloadTypes : Option (Finset PyStr) := none
  validUntil : Option PyNum := none

def TrustEntry.isValid (entry : TrustEntry) (now : ℚ) : Bool :=
  match entry.validUntil with
  | none => true
  | some limit => decide (PyNum.rat now ≤ limit)

/-- The boundary's state.  `none` for an eviction time stands for the initial
minus infinity. -/
structure TrustBoundary where
  maxRequestsPerMinute : ℤ := 60
  defaultAllow : Bool := false
  blockedAgents : Finset PyStr := ∅
  trustedAgents : Table PyStr TrustEntry := ∅
  blockedPairs : Finset (PyStr × PyStr) := ∅
  rateLimits : Table (PyStr × PyStr) TokenBucket := ∅
  lastEviction : Option ℚ := none
  lastTrustEvictionMono : Option ℚ := none

namespace TrustBoundary

def evictionTtl : ℚ := 300

/-- Whether a sweep is due: at least a minute since the last one. -/
def sweepDue (last : Option ℚ) (now : ℚ) : Bool :=
  match last with
  | none => true
  | some time => !decide (now - time < 60)

def blockAgent (tb : TrustBoundary) (agentId : PyStr) : TrustBoundary :=
  { tb with
    blockedAgents := insert agentId tb.blockedAgents
    trustedAgents := tb.trustedAgents.erase agentId }

def trustAgent (tb : TrustBoundary) (agentId : PyStr) (entry : TrustEntry) :
    TrustBoundary :=
  { tb with
    trustedAgents := tb.trustedAgents.insert agentId entry
    blockedAgents := tb.blockedAgents.erase agentId }

/-- The returned flag tells whether the agent was trusted. -/
def revokeAgent (tb : TrustBoundary) (agentId : PyStr) : Bool × TrustBoundary :=
  if agentId ∈ tb.trustedAgents then
    (true, { tb with trustedAgents := tb.trustedAgents.erase agentId })
  else (false, tb)

/-- Whatever it returns, a revocation leaves no grant of the agent. -/
theorem revokeAgent_state (tb : TrustBoundary) (agentId : PyStr) :
    (tb.revokeAgent agentId).2 =
      { tb with trustedAgents := tb.trustedAgents.erase agentId } := by
  rw [revokeAgent]
  split_ifs with hmem
  · rfl
  · have hsame : tb.trustedAgents.erase agentId = tb.trustedAgents :=
      AList.ext (List.kerase_of_notMem_keys hmem)
    rw [hsame]

def blockPair (tb : TrustBoundary) (senderId receiverId : PyStr) :
    TrustBoundary :=
  { tb with blockedPairs := insert (senderId, receiverId) tb.blockedPairs }

def unblockPair (tb : TrustBoundary) (senderId receiverId : PyStr) :
    TrustBoundary :=
  { tb with blockedPairs := tb.blockedPairs.erase (senderId, receiverId) }

/-- Drop expired grants, at most once a minute of the monotonic clock. -/
def evictExpiredTrust (tb : TrustBoundary) (now mono : ℚ) : TrustBoundary :=
  if sweepDue tb.lastTrustEvictionMono mono then
    { tb with
      lastTrustEvictionMono := some mono
      trustedAgents := sweep (fun entry => !entry.isValid now) tb.trustedAgents }
  else tb

/-- Drop the buckets of pairs idle beyond the TTL, at most once a minute. -/
def evictColdBuckets (tb : TrustBoundary) (now : ℚ) : TrustBoundary :=
  if sweepDue tb.lastEviction now then
    { tb with
      lastEviction := some now
      rateLimits :=
        sweep (fun bucket => decide (evictionTtl < now - bucket.lastRefill))
          tb.rateLimits }
  else tb

/-- A scope list, where present, that does not contain the peer, or a payload
type list that does not contain the given type. -/
def scopeBlocks (entry : Option TrustEntry) (peerId : PyStr)
    (payloadType : Option PyStr) : Bool :=
  match entry with
  | none => false
  | some entry =>
      (match entry.allowedReceivers with
        | none => false
        | some receivers => decide (peerId ∉ receivers)) ||
      (match payloadType, entry.allowedPayloadTypes with
        | some type, some types => decide (type ∉ types)
        | _, _ => false)

/-- On a sender entry `allowedReceivers` lists the receivers it may reach. -/
def senderScopeBlocks (entry : Option TrustEntry) (receiverId : PyStr)
    (payloadType : Option PyStr) : Bool :=
  scopeBlocks entry receiverId payloadType

/-- On a receiver entry `allowedReceivers` lists the senders that may reach
it. -/
def receiverScopeBlocks (entry : Option TrustEntry) (senderId : PyStr)
    (payloadType : Option PyStr) : Bool :=
  scopeBlocks entry senderId payloadType

def nullifyIfExpired (entry : Option TrustEntry) (now : ℚ) : Option TrustEntry :=
  entry.filter fun found => found.isValid now

/-- Rejection reason of the trust entries, if any.  The allowlist gate stands
between the sender scope and the receiver scope. -/
def checkTrust (tb : TrustBoundary) (senderId receiverId : PyStr)
    (payloadType : Option PyStr) (now : ℚ) (enforceAllowlist : Bool) :
    Option PyStr :=
  let senderEntry := nullifyIfExpired (tb.trustedAgents.lookup senderId) now
  let receiverEntry := nullifyIfExpired (tb.trustedAgents.lookup receiverId) now
  if senderScopeBlocks senderEntry receiverId payloadType then
    some (py "Sender '" ++ redact senderId ++
      py "' trust scope does not allow this communication")
  else if enforceAllowlist && senderEntry.isNone then
    some (py "Sender '" ++ redact senderId ++
      py "' is not in the trust allowlist")
  else if receiverScopeBlocks receiverEntry senderId payloadType then
    some (py "Receiver '" ++ redact receiverId ++
      py "' trust scope rejects this communication")
  else none

/-- The stages of `evaluate` before the rate limiter: the rejection reason, or
`none` when the request reaches the limiter. -/
def checkStages (tb : TrustBoundary) (senderId receiverId : PyStr)
    (payloadType : Option PyStr) (now : ℚ) : Option PyStr :=
  if senderId ∈ tb.blockedAgents then
    some (py "Sender '" ++ redact senderId ++ py "' is globally blocked")
  else if receiverId ∈ tb.blockedAgents then
    some (py "Receiver '" ++ redact receiverId ++ py "' is globally blocked")
  else if (senderId, receiverId) ∈ tb.blockedPairs then
    some (py "Communication pair " ++ redact senderId ++ py "->" ++
      redact receiverId ++ py " is blocked")
  else
    tb.checkTrust senderId receiverId payloadType now (!tb.defaultAllow)

def liveEntry (tb : TrustBoundary) (agentId : PyStr) (now : ℚ) :
    Option TrustEntry :=
  nullifyIfExpired (tb.trustedAgents.lookup agentId) now

/-- The request reaches the rate limiter. -/
def Admitted (tb : TrustBoundary) (senderId receiverId : PyStr)
    (payloadType : Option PyStr) (now : ℚ) : Prop :=
  tb.checkStages senderId receiverId payloadType now = none

instance (tb : TrustBoundary) (senderId receiverId : PyStr)
    (payloadType : Option PyStr) (now : ℚ) :
    Decidable (tb.Admitted senderId receiverId payloadType now) :=
  inferInstanceAs (Decidable (_ = none))

/-- Every check that stands before the rate limiter lets the request on. -/
structure Passes (tb : TrustBoundary) (senderId receiverId : PyStr)
    (payloadType : Option PyStr) (now : ℚ) : Prop where
  sender_unblocked : senderId ∉ tb.blockedAgents
  receiver_unblocked : receiverId ∉ tb.blockedAgents
  pair_unblocked : (senderId, receiverId) ∉ tb.blockedPairs
  sender_granted : tb.defaultAllow = false → (tb.liveEntry senderId now).isSome
  sender_scope :
    senderScopeBlocks (tb.liveEntry senderId now) receiverId payloadType = false
  receiver_scope :
    receiverScopeBlocks (tb.liveEntry receiverId now) senderId payloadType = false

/-- The stages refuse nothing exactly when each of their checks passes. -/
theorem admitted_iff_passes (tb : TrustBoundary) (senderId receiverId : PyStr)
    (payloadType : Option PyStr) (now : ℚ) :
    tb.Admitted senderId receiverId payloadType now ↔
      tb.Passes senderId receiverId payloadType now := by
  rw [Admitted, checkStages, checkTrust]
  constructor
  · intro hpass
    split_ifs at hpass with hsender hreceiver hpair hscope hgate hinbound
    refine ⟨hsender, hreceiver, hpair, ?_, ?_, ?_⟩
    · intro hmode
      simpa [hmode, liveEntry, Option.isSome_iff_ne_none] using hgate
    · exact Bool.eq_false_iff.mpr hscope
    · exact Bool.eq_false_iff.mpr hinbound
  · rintro ⟨hsender, hreceiver, hpair, hgate, hscope, hinbound⟩
    have hopen : (!tb.defaultAllow &&
        (nullifyIfExpired (tb.trustedAgents.lookup senderId) now).isNone) =
          false := by
      cases hmode : tb.defaultAllow with
      | true => rfl
      | false => simpa [liveEntry, Option.isSome_iff_ne_none] using hgate hmode
    rw [liveEntry] at hscope hinbound
    simp [hsender, hreceiver, hpair, hscope, hinbound, hopen]

/-- The bucket of a pair that has none yet: full, refilled just now. -/
def freshBucket (tb : TrustBoundary) (nowMono : ℚ) : TokenBucket where
  tokens := tb.maxRequestsPerMinute
  capacity := tb.maxRequestsPerMinute
  refillRate := tb.maxRequestsPerMinute / 60
  lastRefill := nowMono

/-- The bucket of a pair after the sweep, asked for one token. -/
def limiterResult (tb : TrustBoundary) (senderId receiverId : PyStr)
    (nowMono : ℚ) : Bool × TokenBucket :=
  (((tb.evictColdBuckets nowMono).rateLimits.lookup (senderId, receiverId)).getD
    (tb.freshBucket nowMono)).consume nowMono

/-- Rate limiting, reached by requests that passed every earlier stage. -/
def rateLimit (tb : TrustBoundary) (senderId receiverId : PyStr)
    (nowMono : ℚ) : (Bool × Option PyStr) × TrustBoundary :=
  let swept := tb.evictColdBuckets nowMono
  let result := tb.limiterResult senderId receiverId nowMono
  let tb := { swept with
    rateLimits := swept.rateLimits.insert (senderId, receiverId) result.2 }
  if result.1 then ((true, none), tb)
  else
    ((false, some (py "Rate limit exceeded for " ++ redact senderId ++
      py "->" ++ redact receiverId ++ py ": " ++
      intText tb.maxRequestsPerMinute ++ py "/minute")), tb)

/-- The trust eviction touches the grants and its own clock. -/
theorem evictExpiredTrust_frame (tb : TrustBoundary) (now mono : ℚ) :
    tb.evictExpiredTrust now mono =
      { tb with
        lastTrustEvictionMono :=
          (tb.evictExpiredTrust now mono).lastTrustEvictionMono
        trustedAgents := (tb.evictExpiredTrust now mono).trustedAgents } := by
  rw [evictExpiredTrust]
  split_ifs with hdue
  · rfl
  · rfl

theorem evictExpiredTrust_blockedAgents (tb : TrustBoundary) (now mono : ℚ) :
    (tb.evictExpiredTrust now mono).blockedAgents = tb.blockedAgents := by
  rw [evictExpiredTrust_frame]

theorem evictExpiredTrust_blockedPairs (tb : TrustBoundary) (now mono : ℚ) :
    (tb.evictExpiredTrust now mono).blockedPairs = tb.blockedPairs := by
  rw [evictExpiredTrust_frame]

theorem evictExpiredTrust_defaultAllow (tb : TrustBoundary) (now mono : ℚ) :
    (tb.evictExpiredTrust now mono).defaultAllow = tb.defaultAllow := by
  rw [evictExpiredTrust_frame]

theorem evictExpiredTrust_rateLimits (tb : TrustBoundary) (now mono : ℚ) :
    (tb.evictExpiredTrust now mono).rateLimits = tb.rateLimits := by
  rw [evictExpiredTrust_frame]

theorem evictExpiredTrust_maxRequests (tb : TrustBoundary) (now mono : ℚ) :
    (tb.evictExpiredTrust now mono).maxRequestsPerMinute =
      tb.maxRequestsPerMinute := by
  rw [evictExpiredTrust_frame]

/-- The bucket eviction touches the buckets and its own clock. -/
theorem evictColdBuckets_frame (tb : TrustBoundary) (now : ℚ) :
    tb.evictColdBuckets now =
      { tb with
        lastEviction := (tb.evictColdBuckets now).lastEviction
        rateLimits := (tb.evictColdBuckets now).rateLimits } := by
  rw [evictColdBuckets]
  split_ifs with hdue
  · rfl
  · rfl

@[simp] theorem evictColdBuckets_trustedAgents (tb : TrustBoundary) (now : ℚ) :
    (tb.evictColdBuckets now).trustedAgents = tb.trustedAgents := by
  rw [evictColdBuckets_frame]

@[simp] theorem evictColdBuckets_blockedAgents (tb : TrustBoundary) (now : ℚ) :
    (tb.evictColdBuckets now).blockedAgents = tb.blockedAgents := by
  rw [evictColdBuckets_frame]

@[simp] theorem evictColdBuckets_blockedPairs (tb : TrustBoundary) (now : ℚ) :
    (tb.evictColdBuckets now).blockedPairs = tb.blockedPairs := by
  rw [evictColdBuckets_frame]

@[simp] theorem evictColdBuckets_defaultAllow (tb : TrustBoundary) (now : ℚ) :
    (tb.evictColdBuckets now).defaultAllow = tb.defaultAllow := by
  rw [evictColdBuckets_frame]

@[simp] theorem evictColdBuckets_maxRequests (tb : TrustBoundary) (now : ℚ) :
    (tb.evictColdBuckets now).maxRequestsPerMinute =
      tb.maxRequestsPerMinute := by
  rw [evictColdBuckets_frame]

theorem rateLimit_allowed (tb : TrustBoundary) (senderId receiverId : PyStr)
    (nowMono : ℚ) :
    (tb.rateLimit senderId receiverId nowMono).1.1 =
      (tb.limiterResult senderId receiverId nowMono).1 := by
  rw [rateLimit]
  split_ifs with hallowed
  · exact hallowed.symm
  · exact (Bool.eq_false_iff.mpr hallowed).symm

/-- The limiter writes one bucket, whatever it answers. -/
theorem rateLimit_state (tb : TrustBoundary) (senderId receiverId : PyStr)
    (nowMono : ℚ) :
    (tb.rateLimit senderId receiverId nowMono).2 =
      { tb.evictColdBuckets nowMono with
        rateLimits := (tb.evictColdBuckets nowMono).rateLimits.insert
          (senderId, receiverId)
          (tb.limiterResult senderId receiverId nowMono).2 } := by
  rw [rateLimit]
  split_ifs with hallowed
  · rfl
  · rfl

/-- What one `evaluate` call reads off the clocks: the wall clock on entry,
the monotonic clock of the trust eviction, and that of the rate limiter. -/
structure Clock where
  now : ℚ
  mono : ℚ
  nowMono : ℚ

/-- Whether a sender may reach a receiver now, with the reason when not. -/
def evaluate (tb : TrustBoundary) (senderId receiverId : PyStr)
    (payloadType : Option PyStr) (clock : Clock) :
    (Bool × Option PyStr) × TrustBoundary :=
  match tb.checkStages senderId receiverId payloadType clock.now with
  | some reason => ((false, some reason), tb)
  | none =>
      (tb.evictExpiredTrust clock.now clock.mono).rateLimit senderId receiverId
        clock.nowMono

/-- An `evaluate` refused before the limiter changes no state. -/
theorem evaluate_of_refused {tb : TrustBoundary} {senderId receiverId : PyStr}
    {payloadType : Option PyStr} {clock : Clock} {reason : PyStr}
    (h : tb.checkStages senderId receiverId payloadType clock.now =
      some reason) :
    tb.evaluate senderId receiverId payloadType clock =
      ((false, some reason), tb) := by
  simp [evaluate, h]

/-- An `evaluate` that passes the stages goes to the limiter. -/
theorem evaluate_of_passed {tb : TrustBoundary} {senderId receiverId : PyStr}
    {payloadType : Option PyStr} {clock : Clock}
    (h : tb.checkStages senderId receiverId payloadType clock.now = none) :
    tb.evaluate senderId receiverId payloadType clock =
      (tb.evictExpiredTrust clock.now clock.mono).rateLimit senderId receiverId
        clock.nowMono := by
  simp [evaluate, h]

end TrustBoundary

/-- The operations of a boundary, each with what it reads. -/
inductive BoundaryOp where
  | blockAgent (agentId : PyStr)
  | trustAgent (agentId : PyStr) (entry : TrustEntry)
  | revokeAgent (agentId : PyStr)
  | blockPair (senderId receiverId : PyStr)
  | unblockPair (senderId receiverId : PyStr)
  | evaluate (senderId receiverId : PyStr) (payloadType : Option PyStr)
      (clock : TrustBoundary.Clock)

namespace TrustBoundary

def step (tb : TrustBoundary) : BoundaryOp → TrustBoundary
  | .blockAgent agentId => tb.blockAgent agentId
  | .trustAgent agentId entry => tb.trustAgent agentId entry
  | .revokeAgent agentId => (tb.revokeAgent agentId).2
  | .blockPair senderId receiverId => tb.blockPair senderId receiverId
  | .unblockPair senderId receiverId => tb.unblockPair senderId receiverId
  | .evaluate senderId receiverId payloadType clock =>
      (tb.evaluate senderId receiverId payloadType clock).2

def fresh (maxRequestsPerMinute : ℤ) (defaultAllow : Bool) : TrustBoundary :=
  { maxRequestsPerMinute, defaultAllow }

/-- The boundary after a run of operations from a fresh one. -/
def after (maxRequestsPerMinute : ℤ) (defaultAllow : Bool)
    (ops : List BoundaryOp) : TrustBoundary :=
  EventRun.final step (fresh maxRequestsPerMinute defaultAllow) ops

theorem after_snoc (maxRequestsPerMinute : ℤ) (defaultAllow : Bool)
    (past : List BoundaryOp) (op : BoundaryOp) :
    after maxRequestsPerMinute defaultAllow (past ++ [op]) =
      (after maxRequestsPerMinute defaultAllow past).step op :=
  EventRun.final_snoc step _ past op

end TrustBoundary

end QwedA2A
