/-
The trust boundary under concurrent callers.  Each method is a program of the single
reads and writes its body makes; `_locked` runs it under the instance lock.
-/
import QwedA2A.Monitor
import QwedA2A.TrustHistory
import QwedA2A.RateLimit

namespace QwedA2A

open EventRun ExpiringTable Monitor

/-- What the two clocks show at one instant. -/
structure Instant where
  wall : ℚ
  mono : ℚ

/-- The locked methods, with their arguments. -/
inductive BoundaryCall where
  | blockAgent (agentId : PyStr)
  | trustAgent (agentId : PyStr) (entry : TrustEntry)
  | revokeAgent (agentId : PyStr)
  | blockPair (senderId receiverId : PyStr)
  | unblockPair (senderId receiverId : PyStr)
  | isTrusted (agentId : PyStr) (now : Option ℚ)
  | evaluate (senderId receiverId : PyStr) (payloadType : Option PyStr)
  | trustedAgentCount

/-- What they return. -/
inductive BoundaryAnswer where
  | none
  | flag (found : Bool)
  | decision (allowed : Bool) (reason : Option PyStr)
  | count (agents : ℕ)

namespace TrustBoundary

/-- Whether an agent has a valid (non-expired) trust entry. -/
def isTrusted (tb : TrustBoundary) (agentId : PyStr) (now : ℚ) : Bool :=
  match tb.trustedAgents.lookup agentId with
  | none => false
  | some entry => entry.isValid now

def countTrustedAgents (tb : TrustBoundary) (now : ℚ) : ℕ :=
  tb.trustedAgents.entries.countP fun entry => entry.2.isValid now

/-- A method body under the lock. -/
abbrev Body := Program TrustBoundary Instant BoundaryAnswer

def refuse (reason : PyStr) : Body := .answer (.decision false (some reason))

def evictExpiredTrustBody (now : ℚ) (next : Body) : Body :=
  .input fun instant =>
  .fetch fun tb =>
    if sweepDue tb.lastTrustEvictionMono instant.mono then
      .update (fun tb => { tb with lastTrustEvictionMono := some instant.mono }) <|
      .fetch fun tb =>
        .updates ((deadKeys (fun entry => !entry.isValid now) tb.trustedAgents).map
          fun aid tb => { tb with trustedAgents := tb.trustedAgents.erase aid }) next
    else next

def evictColdBucketsBody (now : ℚ) (next : Body) : Body :=
  .fetch fun tb =>
    if sweepDue tb.lastEviction now then
      .update (fun tb => { tb with lastEviction := some now }) <|
      .fetch fun tb =>
        .updates ((deadKeys (fun bucket => decide (evictionTtl < now - bucket.lastRefill))
          tb.rateLimits).map
            fun pair tb => { tb with rateLimits := tb.rateLimits.erase pair }) next
    else next

def modifyBucket (pair : PyStr × PyStr) (change : TokenBucket → TokenBucket)
    (tb : TrustBoundary) : TrustBoundary :=
  match tb.rateLimits.lookup pair with
  | none => tb
  | some bucket =>
      { tb with rateLimits := tb.rateLimits.insert pair (change bucket) }

/-- `consume` on a bucket of the table; it is never missing there. -/
def consumeBody (pair : PyStr × PyStr) (now : ℚ) (next : Bool → Body) : Body :=
  .fetch fun tb =>
    match tb.rateLimits.lookup pair with
    | none => next false
    | some bucket =>
        let elapsed := now - bucket.lastRefill
        .update (modifyBucket pair fun bucket =>
          { bucket with
            tokens := min bucket.capacity
              (bucket.tokens + elapsed * bucket.refillRate) }) <|
        .update (modifyBucket pair fun bucket => { bucket with lastRefill := now }) <|
        .fetch fun tb =>
          match tb.rateLimits.lookup pair with
          | none => next false
          | some bucket =>
              if 1 ≤ bucket.tokens then
                .update (modifyBucket pair fun bucket =>
                  { bucket with tokens := bucket.tokens - 1 }) (next true)
              else next false

def rateLimitBody (senderId receiverId : PyStr) : Body :=
  .input fun instant =>
  let pair := (senderId, receiverId)
  evictColdBucketsBody instant.mono <|
  .fetch fun tb =>
    let rest : Body := consumeBody pair instant.mono fun allowed =>
      if allowed then .answer (.decision true none)
      else
        .fetch fun tb =>
          refuse (py "Rate limit exceeded for " ++ redact senderId ++ py "->" ++
            redact receiverId ++ py ": " ++ intText tb.maxRequestsPerMinute ++
            py "/minute")
    if pair ∈ tb.rateLimits then rest
    else
      .update (fun tb => { tb with
        rateLimits := tb.rateLimits.insert pair (tb.freshBucket instant.mono) }) rest

def checkTrustBody (senderId receiverId : PyStr) (payloadType : Option PyStr) (now : ℚ)
    (next : Body) : Body :=
  .fetch fun tb =>
  let senderEntry := tb.trustedAgents.lookup senderId
  .fetch fun tb =>
  let receiverEntry := tb.trustedAgents.lookup receiverId
  .fetch fun tb =>
    if senderScopeBlocks (nullifyIfExpired senderEntry now) receiverId payloadType then
      refuse (py "Sender '" ++ redact senderId ++
        py "' trust scope does not allow this communication")
    else if !tb.defaultAllow && (nullifyIfExpired senderEntry now).isNone then
      refuse (py "Sender '" ++ redact senderId ++
        py "' is not in the trust allowlist")
    else if receiverScopeBlocks (nullifyIfExpired receiverEntry now) senderId
        payloadType then
      refuse (py "Receiver '" ++ redact receiverId ++
        py "' trust scope rejects this communication")
    else next

def evaluateBody (senderId receiverId : PyStr) (payloadType : Option PyStr) : Body :=
  .input fun instant =>
  .fetch fun tb =>
  if senderId ∈ tb.blockedAgents then
    refuse (py "Sender '" ++ redact senderId ++ py "' is globally blocked")
  else
  .fetch fun tb =>
  if receiverId ∈ tb.blockedAgents then
    refuse (py "Receiver '" ++ redact receiverId ++ py "' is globally blocked")
  else
  .fetch fun tb =>
  if (senderId, receiverId) ∈ tb.blockedPairs then
    refuse (py "Communication pair " ++ redact senderId ++ py "->" ++
      redact receiverId ++ py " is blocked")
  else
    checkTrustBody senderId receiverId payloadType instant.wall <|
    evictExpiredTrustBody instant.wall <|
    rateLimitBody senderId receiverId

def body : BoundaryCall → Body
  | .blockAgent agentId =>
      .update (fun tb => { tb with blockedAgents := insert agentId tb.blockedAgents }) <|
      .update (fun tb => { tb with trustedAgents := tb.trustedAgents.erase agentId }) <|
      .answer .none
  | .trustAgent agentId entry =>
      .update (fun tb =>
        { tb with trustedAgents := tb.trustedAgents.insert agentId entry }) <|
      .update (fun tb => { tb with blockedAgents := tb.blockedAgents.erase agentId }) <|
      .answer .none
  | .revokeAgent agentId =>
      .fetch fun tb =>
        if agentId ∈ tb.trustedAgents then
          .update (fun tb =>
            { tb with trustedAgents := tb.trustedAgents.erase agentId }) <|
          .answer (.flag true)
        else .answer (.flag false)
  | .blockPair senderId receiverId =>
      .update (fun tb => { tb with
        blockedPairs := insert (senderId, receiverId) tb.blockedPairs }) <|
      .answer .none
  | .unblockPair senderId receiverId =>
      .update (fun tb => { tb with
        blockedPairs := tb.blockedPairs.erase (senderId, receiverId) }) <|
      .answer .none
  | .isTrusted agentId (some now) =>
      .fetch fun tb => .answer (.flag (tb.isTrusted agentId now))
  | .isTrusted agentId none =>
      .input fun instant =>
      .fetch fun tb => .answer (.flag (tb.isTrusted agentId instant.wall))
  | .evaluate senderId receiverId payloadType =>
      evaluateBody senderId receiverId payloadType
  | .trustedAgentCount =>
      .input fun instant =>
      .fetch fun tb => .answer (.count (tb.countTrustedAgents instant.wall))

def decided (result : (Bool × Option PyStr) × TrustBoundary) :
    BoundaryAnswer × TrustBoundary :=
  (.decision result.1.1 result.1.2, result.2)

section Alone

variable (tb : TrustBoundary) (readings : List Instant)

theorem eraseTrusted_eq (keys : List PyStr) :
    (keys.map fun aid (tb : TrustBoundary) =>
        { tb with trustedAgents := tb.trustedAgents.erase aid }).foldl
          (fun found change => change found) tb =
      { tb with trustedAgents := eraseAll tb.trustedAgents keys } := by
  induction keys generalizing tb with
  | nil => rfl
  | cons aid rest ih =>
      rw [List.map_cons, List.foldl_cons, ih]
      rfl

theorem eraseBuckets_eq (keys : List (PyStr × PyStr)) :
    (keys.map fun pair (tb : TrustBoundary) =>
        { tb with rateLimits := tb.rateLimits.erase pair }).foldl
          (fun found change => change found) tb =
      { tb with rateLimits := eraseAll tb.rateLimits keys } := by
  induction keys generalizing tb with
  | nil => rfl
  | cons pair rest ih =>
      rw [List.map_cons, List.foldl_cons, ih]
      rfl

theorem evictExpiredTrustBody_alone (now : ℚ) (next : Body) (instant : Instant) :
    (evictExpiredTrustBody now next).alone tb (instant :: readings) =
      next.alone (tb.evictExpiredTrust now instant.mono) readings := by
  rw [evictExpiredTrustBody, Program.alone_input, Program.alone_fetch, evictExpiredTrust]
  split_ifs with hdue
  · rw [Program.alone_update, Program.alone_fetch, Program.alone_updates,
      eraseTrusted_eq]
    rfl
  · rfl

theorem evictColdBucketsBody_alone (now : ℚ) (next : Body) :
    (evictColdBucketsBody now next).alone tb readings =
      next.alone (tb.evictColdBuckets now) readings := by
  rw [evictColdBucketsBody, Program.alone_fetch, evictColdBuckets]
  split_ifs with hdue
  · rw [Program.alone_update, Program.alone_fetch, Program.alone_updates,
      eraseBuckets_eq]
    rfl
  · rfl

theorem modifyBucket_insert (pair : PyStr × PyStr)
    (change : TokenBucket → TokenBucket) (bucket : TokenBucket) :
    modifyBucket pair change { tb with rateLimits := tb.rateLimits.insert pair bucket } =
      { tb with rateLimits := tb.rateLimits.insert pair (change bucket) } := by
  simp only [modifyBucket, AList.lookup_insert, AList.insert_insert]

theorem modifyBucket_of_lookup {pair : PyStr × PyStr} {bucket : TokenBucket}
    (h : tb.rateLimits.lookup pair = some bucket)
    (change : TokenBucket → TokenBucket) :
    modifyBucket pair change tb =
      { tb with rateLimits := tb.rateLimits.insert pair (change bucket) } := by
  simp only [modifyBucket, h]

theorem consumeBody_alone {pair : PyStr × PyStr} {bucket : TokenBucket} (now : ℚ)
    (next : Bool → Body) (h : tb.rateLimits.lookup pair = some bucket) :
    (consumeBody pair now next).alone tb readings =
      (next (bucket.consume now).1).alone
        { tb with rateLimits := tb.rateLimits.insert pair (bucket.consume now).2 }
        readings := by
  rw [consumeBody, Program.alone_fetch]
  simp only [h, Program.alone_update, Program.alone_fetch, modifyBucket_of_lookup tb h,
    modifyBucket_insert, AList.lookup_insert, TokenBucket.consume]
  split_ifs with hone
  · simp only [Program.alone_update, modifyBucket_insert]
  · rfl

theorem rateLimitBody_alone (senderId receiverId : PyStr) (instant : Instant) :
    (rateLimitBody senderId receiverId).alone tb (instant :: readings) =
      (Program.answer (decided (tb.rateLimit senderId receiverId instant.mono)).1 :
        Body).alone (tb.rateLimit senderId receiverId instant.mono).2 readings := by
  rw [rateLimitBody, Program.alone_input, evictColdBucketsBody_alone,
    Program.alone_fetch]
  have hfresh : (tb.evictColdBuckets instant.mono).freshBucket instant.mono =
      tb.freshBucket instant.mono := by
    simp only [freshBucket, evictColdBuckets_maxRequests]
  split_ifs with hmem
  · obtain ⟨bucket, hbucket⟩ := Option.isSome_iff_exists.mp (AList.lookup_isSome.mpr hmem)
    rw [consumeBody_alone _ _ _ _ hbucket]
    simp only [rateLimit, limiterResult, hbucket, Option.getD_some, decided]
    split_ifs with hallowed
    · rfl
    · rw [Program.alone_fetch, refuse]
  · have hnone := AList.lookup_eq_none.mpr hmem
    rw [Program.alone_update, consumeBody_alone _ _ _ _ (AList.lookup_insert _), hfresh]
    simp only [rateLimit, limiterResult, hnone, Option.getD_none, decided,
      AList.insert_insert]
    split_ifs with hallowed
    · rfl
    · rw [Program.alone_fetch, refuse]

theorem checkTrustBody_alone (senderId receiverId : PyStr) (payloadType : Option PyStr)
    (now : ℚ) (next : Body) :
    (checkTrustBody senderId receiverId payloadType now next).alone tb readings =
      match tb.checkTrust senderId receiverId payloadType now (!tb.defaultAllow) with
      | some reason => (refuse reason).alone tb readings
      | none => next.alone tb readings := by
  simp only [checkTrustBody, checkTrust, Program.alone_fetch]
  split_ifs with hscope hgate hinbound
  · rfl
  · rfl
  · rfl
  · rfl

/-- The clock readings of a decision: one if it was refused before the limiter, three
if it was not. -/
def clockOf : List Instant → Clock
  | [first, second, third] => ⟨first.wall, second.mono, third.mono⟩
  | first :: _ => ⟨first.wall, first.mono, first.mono⟩
  | [] => ⟨0, 0, 0⟩

/-- After its first reading a decision goes through the stages. -/
theorem evaluateBody_stages (senderId receiverId : PyStr) (payloadType : Option PyStr)
    (instant : Instant) :
    (evaluateBody senderId receiverId payloadType).alone tb (instant :: readings) =
      match tb.checkStages senderId receiverId payloadType instant.wall with
      | some reason => (refuse reason).alone tb readings
      | none =>
          (evictExpiredTrustBody instant.wall (rateLimitBody senderId receiverId)).alone
            tb readings := by
  rw [evaluateBody, Program.alone_input, Program.alone_fetch, checkStages]
  by_cases hsender : senderId ∈ tb.blockedAgents
  · rw [if_pos hsender, if_pos hsender]
  rw [if_neg hsender, if_neg hsender, Program.alone_fetch]
  by_cases hreceiver : receiverId ∈ tb.blockedAgents
  · rw [if_pos hreceiver, if_pos hreceiver]
  rw [if_neg hreceiver, if_neg hreceiver, Program.alone_fetch]
  by_cases hpair : (senderId, receiverId) ∈ tb.blockedPairs
  · rw [if_pos hpair, if_pos hpair]
  rw [if_neg hpair, if_neg hpair]
  exact checkTrustBody_alone tb readings senderId receiverId payloadType instant.wall _

/-- A decision that ends has answered as `evaluate`, on the readings it took. -/
theorem evaluateBody_alone (senderId receiverId : PyStr) (payloadType : Option PyStr)
    {result : BoundaryAnswer} {next : TrustBoundary}
    (h : (evaluateBody senderId receiverId payloadType).alone tb readings =
      some (result, next)) :
    readings ≠ [] ∧ (result, next) = decided
      (tb.evaluate senderId receiverId payloadType (clockOf readings)) := by
  cases readings with
  | nil => cases h
  | cons first rest =>
      refine ⟨List.cons_ne_nil first rest, ?_⟩
      rw [evaluateBody_stages] at h
      split at h
      next reason hreason =>
        rw [refuse] at h
        obtain ⟨rfl, rfl, rfl⟩ := Program.alone_answer_eq_some h
        have hreason' : next.checkStages senderId receiverId payloadType
            (clockOf [first]).now = some reason := hreason
        rw [evaluate_of_refused hreason']
        rfl
      next hpass =>
        cases rest with
        | nil => cases h
        | cons second rest =>
            rw [evictExpiredTrustBody_alone] at h
            cases rest with
            | nil => cases h
            | cons third rest =>
                rw [rateLimitBody_alone] at h
                obtain ⟨rfl, rfl, rfl⟩ := Program.alone_answer_eq_some h
                have hpass' : tb.checkStages senderId receiverId payloadType
                    (clockOf [first, second, third]).now = none := hpass
                rw [evaluate_of_passed hpass']
                rfl

end Alone

end TrustBoundary

/-- A call with the readings it took, as an operation; queries are none. -/
def BoundaryCall.operation : BoundaryCall → List Instant → List BoundaryOp
  | .blockAgent agentId, _ => [.blockAgent agentId]
  | .trustAgent agentId entry, _ => [.trustAgent agentId entry]
  | .revokeAgent agentId, _ => [.revokeAgent agentId]
  | .blockPair senderId receiverId, _ => [.blockPair senderId receiverId]
  | .unblockPair senderId receiverId, _ => [.unblockPair senderId receiverId]
  | .evaluate senderId receiverId payloadType, readings =>
      [.evaluate senderId receiverId payloadType (TrustBoundary.clockOf readings)]
  | .isTrusted _ _, _ => []
  | .trustedAgentCount, _ => []

/-- What a call answers if it has the boundary to itself. -/
def BoundaryCall.answer (tb : TrustBoundary) :
    BoundaryCall → List Instant → BoundaryAnswer
  | .revokeAgent agentId, _ => .flag (tb.revokeAgent agentId).1
  | .evaluate senderId receiverId payloadType, readings =>
      (TrustBoundary.decided (tb.evaluate senderId receiverId payloadType
        (TrustBoundary.clockOf readings))).1
  | .isTrusted agentId now, readings =>
      .flag (tb.isTrusted agentId (now.getD (TrustBoundary.clockOf readings).now))
  | .trustedAgentCount, readings =>
      .count (tb.countTrustedAgents (TrustBoundary.clockOf readings).now)
  | _, _ => .none

namespace TrustBoundary

/-- On its own a body answers as its method and leaves the boundary as its
operation. -/
theorem body_implements :
    Implements body step BoundaryCall.operation BoundaryCall.answer := by
  intro call tb next readings result h
  cases call with
  | blockAgent agentId =>
      rw [body, Program.alone_update, Program.alone_update] at h
      obtain ⟨rfl, rfl, rfl⟩ := Program.alone_answer_eq_some h
      exact ⟨rfl, rfl⟩
  | trustAgent agentId entry =>
      rw [body, Program.alone_update, Program.alone_update] at h
      obtain ⟨rfl, rfl, rfl⟩ := Program.alone_answer_eq_some h
      exact ⟨rfl, rfl⟩
  | revokeAgent agentId =>
      rw [body, Program.alone_fetch] at h
      simp only [BoundaryCall.answer, BoundaryCall.operation, final, List.foldl_cons,
        List.foldl_nil, step, revokeAgent]
      split_ifs at h ⊢ with hmem
      · rw [Program.alone_update] at h
        obtain ⟨rfl, rfl, rfl⟩ := Program.alone_answer_eq_some h
        exact ⟨rfl, rfl⟩
      · obtain ⟨rfl, rfl, rfl⟩ := Program.alone_answer_eq_some h
        exact ⟨rfl, rfl⟩
  | blockPair senderId receiverId =>
      rw [body, Program.alone_update] at h
      obtain ⟨rfl, rfl, rfl⟩ := Program.alone_answer_eq_some h
      exact ⟨rfl, rfl⟩
  | unblockPair senderId receiverId =>
      rw [body, Program.alone_update] at h
      obtain ⟨rfl, rfl, rfl⟩ := Program.alone_answer_eq_some h
      exact ⟨rfl, rfl⟩
  | isTrusted agentId now =>
      cases now with
      | some now =>
          rw [body, Program.alone_fetch] at h
          obtain ⟨rfl, rfl, rfl⟩ := Program.alone_answer_eq_some h
          exact ⟨rfl, rfl⟩
      | none =>
          cases readings with
          | nil => cases h
          | cons instant rest =>
              rw [body, Program.alone_input, Program.alone_fetch] at h
              obtain ⟨rfl, rfl, rfl⟩ := Program.alone_answer_eq_some h
              exact ⟨rfl, rfl⟩
  | evaluate senderId receiverId payloadType =>
      obtain ⟨_, hdecided⟩ := evaluateBody_alone tb readings senderId receiverId
        payloadType h
      cases hdecided
      exact ⟨rfl, rfl⟩
  | trustedAgentCount =>
      cases readings with
      | nil => cases h
      | cons instant rest =>
          rw [body, Program.alone_input, Program.alone_fetch] at h
          obtain ⟨rfl, rfl, rfl⟩ := Program.alone_answer_eq_some h
          exact ⟨rfl, rfl⟩

end TrustBoundary

end QwedA2A
