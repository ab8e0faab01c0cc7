/-
How long a rate-limit bucket stays.  Sweeps are throttled, and any pair's request
may be the one that sweeps; still no bucket outlives the idle TTL by more than
the throttle.
-/
import QwedA2A.RateLimit

namespace QwedA2A

open EventRun ExpiringTable

theorem TokenBucket.consume_lastRefill (bucket : TokenBucket) (now : ℚ) :
    (bucket.consume now).2.lastRefill = now := by
  rw [consume]
  split_ifs with hallowed
  · rfl
  · rfl

namespace TrustBoundary

/-- What the sweeps have left, given the clock readings so far and the instants
at which each pair used the limiter: no bucket was idle beyond the TTL at the
last sweep, and a bucket's last refill is a use by its pair. -/
structure Swept (reads : List ℚ) (used : PyStr × PyStr → List ℚ)
    (tb : TrustBoundary) : Prop where
  read : ∀ last, tb.lastEviction = some last → last ∈ reads
  warm : ∀ pair bucket, tb.rateLimits.lookup pair = some bucket →
    ∃ last, tb.lastEviction = some last ∧ last - evictionTtl ≤ bucket.lastRefill
  used : ∀ pair bucket, tb.rateLimits.lookup pair = some bucket →
    bucket.lastRefill ∈ used pair

/-- No bucket's last refill is as old as the TTL and the throttle together. -/
def Recent (now : ℚ) (tb : TrustBoundary) : Prop :=
  ∀ pair bucket, tb.rateLimits.lookup pair = some bucket →
    now - (evictionTtl + 60) < bucket.lastRefill

theorem swept_fresh (limit : ℤ) (defaultAllow : Bool) :
    Swept [] (fun _ => []) (fresh limit defaultAllow) where
  read last h := by cases h
  warm pair bucket h := by simp [fresh] at h
  used pair bucket h := by simp [fresh] at h

/-- A request that reaches the limiter asks one bucket; the sweep before it has
left the others. -/
theorem lookup_of_rateLimit {tb : TrustBoundary} {senderId receiverId : PyStr}
    {now : ℚ} {pair : PyStr × PyStr} {bucket : TokenBucket}
    (h : (tb.rateLimit senderId receiverId now).2.rateLimits.lookup pair =
      some bucket) :
    (pair = (senderId, receiverId) ∧ bucket.lastRefill = now) ∨
      (tb.evictColdBuckets now).rateLimits.lookup pair = some bucket := by
  rw [rateLimit_state] at h
  rcases lookup_of_lookup_insert h with ⟨hpair, rfl⟩ | hold
  · exact Or.inl ⟨hpair, TokenBucket.consume_lastRefill _ now⟩
  · exact Or.inr hold

namespace Swept

variable {reads : List ℚ} {used : PyStr × PyStr → List ℚ} {tb : TrustBoundary}

/-- Only the limiter's own fields matter, and more readings and uses do no
harm. -/
theorem mono (h : Swept reads used tb) {other : TrustBoundary}
    (htable : other.rateLimits = tb.rateLimits)
    (hlast : other.lastEviction = tb.lastEviction) {reads' : List ℚ}
    {used' : PyStr × PyStr → List ℚ} (hreads : reads ⊆ reads')
    (hused : ∀ pair, used pair ⊆ used' pair) : Swept reads' used' other where
  read last hsome := hreads (h.read last (by rw [← hlast, hsome]))
  warm := by rw [htable, hlast]; exact h.warm
  used pair bucket hlookup :=
    hused pair (h.used pair bucket (by rw [← htable, hlookup]))

/-- Whether a sweep was due or not, behind it the last one is less than a minute
old and has left nothing idle beyond the TTL. -/
theorem evictColdBuckets (h : Swept reads used tb) {now : ℚ}
    (hnow : ∀ time ∈ reads, time ≤ now) :
    ∃ last ∈ now :: reads, (tb.evictColdBuckets now).lastEviction = some last ∧
      last ≤ now ∧ now - last < 60 ∧
      ∀ pair bucket, (tb.evictColdBuckets now).rateLimits.lookup pair =
        some bucket →
          last - evictionTtl ≤ bucket.lastRefill ∧ bucket.lastRefill ∈ used pair := by
  rw [TrustBoundary.evictColdBuckets]
  split
  case isTrue =>
      refine ⟨now, List.mem_cons_self, rfl, le_rfl, by norm_num, ?_⟩
      intro pair bucket hlookup
      obtain ⟨hold, hlive⟩ := lookup_of_lookup_sweep hlookup
      have hidle := not_lt.mp (of_decide_eq_false hlive)
      exact ⟨by linarith, h.used pair bucket hold⟩
  case isFalse hdue =>
      cases hlast : tb.lastEviction with
      | none => simp [sweepDue, hlast] at hdue
      | some last =>
          have hread := h.read last hlast
          refine ⟨last, List.mem_cons_of_mem _ hread, rfl, hnow last hread, ?_, ?_⟩
          · simpa [sweepDue, hlast] using hdue
          · intro pair bucket hlookup
            obtain ⟨_, hlast', hwarm⟩ := h.warm pair bucket hlookup
            cases hlast.symm.trans hlast'
            exact ⟨hwarm, h.used pair bucket hlookup⟩

variable {now : ℚ} (senderId receiverId : PyStr)

/-- Behind a request that reaches the limiter every bucket is recent: the asked
one was refilled just now, the others are warm since a sweep less than a minute
ago. -/
theorem recent_rateLimit (h : Swept reads used tb)
    (hnow : ∀ time ∈ reads, time ≤ now) :
    Recent now (tb.rateLimit senderId receiverId now).2 := by
  obtain ⟨last, _, _, _, hthrottled, hleft⟩ := h.evictColdBuckets hnow
  have httl : evictionTtl = 300 := rfl
  intro pair bucket hlookup
  rcases lookup_of_rateLimit hlookup with ⟨_, hrefill⟩ | hold
  · linarith
  · have hwarm := (hleft pair bucket hold).1
    linarith

/-- The request keeps the invariant, with its own reading and use. -/
theorem rateLimit (h : Swept reads used tb) (hnow : ∀ time ∈ reads, time ≤ now)
    {used' : PyStr × PyStr → List ℚ} (hused : ∀ pair, used pair ⊆ used' pair)
    (huse : now ∈ used' (senderId, receiverId)) :
    Swept (now :: reads) used' (tb.rateLimit senderId receiverId now).2 := by
  obtain ⟨last, hread, hlast, hle, _, hleft⟩ := h.evictColdBuckets hnow
  have hlast' : (tb.rateLimit senderId receiverId now).2.lastEviction =
      some last := by rw [rateLimit_state]; exact hlast
  have httl : evictionTtl = 300 := rfl
  refine ⟨?_, ?_, ?_⟩
  · intro other hother
    cases hlast'.symm.trans hother
    exact hread
  · intro pair bucket hlookup
    refine ⟨last, hlast', ?_⟩
    rcases lookup_of_rateLimit hlookup with ⟨_, hrefill⟩ | hold
    · linarith
    · exact (hleft pair bucket hold).1
  · intro pair bucket hlookup
    rcases lookup_of_rateLimit hlookup with ⟨rfl, hrefill⟩ | hold
    · rw [hrefill]
      exact huse
    · exact hused pair (hleft pair bucket hold).2

end Swept

/-- Operations that do not reach the limiter do not sweep its table. -/
theorem step_lastEviction (tb : TrustBoundary) (op : BoundaryOp)
    (hop : ∀ senderId receiverId payloadType clock,
      op = .evaluate senderId receiverId payloadType clock →
        tb.checkStages senderId receiverId payloadType clock.now ≠ none) :
    (tb.step op).lastEviction = tb.lastEviction := by
  cases op with
  | revokeAgent agentId => rw [step, revokeAgent_state]
  | evaluate senderId receiverId payloadType clock =>
      have hrefused := hop senderId receiverId payloadType clock rfl
      obtain ⟨reason, hreason⟩ := Option.ne_none_iff_exists'.mp hrefused
      rw [step, evaluate_of_refused hreason]
  | _ => rfl

/-- The trust eviction before the limiter leaves its table as swept. -/
theorem Swept.evictExpiredTrust {reads : List ℚ}
    {used : PyStr × PyStr → List ℚ} {tb : TrustBoundary}
    (h : Swept reads used tb) (now mono : ℚ) :
    Swept reads used (tb.evictExpiredTrust now mono) :=
  h.mono (evictExpiredTrust_rateLimits tb now mono)
    (by rw [evictExpiredTrust_frame]) (List.Subset.refl _)
    fun _ => List.Subset.refl _

/-- The table is swept in every run whose monotonic clock never goes back. -/
theorem swept_after (limit : ℤ) (defaultAllow : Bool) (ops : List BoundaryOp)
    (hclock : ClockMonotone BoundaryOp.monoReads ops) :
    Swept (ops.flatMap BoundaryOp.monoReads)
      (fun pair => limiterRequests limit defaultAllow pair ops)
      (after limit defaultAllow ops) := by
  induction ops using List.reverseRecOn with
  | nil => exact swept_fresh limit defaultAllow
  | append_singleton past op ih =>
      have hpast := ih hclock.init
      have hused : ∀ pair, limiterRequests limit defaultAllow pair past ⊆
          limiterRequests limit defaultAllow pair (past ++ [op]) := by
        intro pair
        rw [limiterRequests_snoc]
        exact List.subset_append_left _ _
      rw [after_snoc, List.flatMap_append]
      by_cases hop : ∀ senderId receiverId payloadType clock,
          op = .evaluate senderId receiverId payloadType clock →
            (after limit defaultAllow past).checkStages senderId receiverId
              payloadType clock.now ≠ none
      · exact hpast.mono (step_frame _ op hop).1 (step_lastEviction _ op hop)
          (List.subset_append_left _ _) hused
      · push Not at hop
        obtain ⟨senderId, receiverId, payloadType, clock, rfl, hreach⟩ := hop
        have hnow : ∀ time ∈ past.flatMap BoundaryOp.monoReads,
            time ≤ clock.nowMono := fun time htime =>
          hclock.le_last htime (by simp [BoundaryOp.monoReads])
        have huse : clock.nowMono ∈ limiterRequests limit defaultAllow
            (senderId, receiverId)
            (past ++ [.evaluate senderId receiverId payloadType clock]) := by
          rw [limiterRequests_snoc]
          exact List.mem_append_right _ (by simp [limiterRequest, hreach])
        have hlimited := (hpast.evictExpiredTrust clock.now clock.mono).rateLimit
          senderId receiverId hnow hused huse
        rw [step, evaluate_of_passed hreach]
        refine hlimited.mono rfl rfl ?_ fun _ => List.Subset.refl _
        intro time htime
        rcases List.mem_cons.mp htime with rfl | hold
        · exact List.mem_append_right _ (by simp [BoundaryOp.monoReads])
        · exact List.mem_append_left _ hold

end TrustBoundary

/-- Right after a request that reaches the limiter at some instant, every bucket
in the table was last refilled within the 360 seconds before it, by a request of
its own pair that reached the limiter. -/
theorem buckets_used_within_window (limit : ℤ) (defaultAllow : Bool)
    (ops : List BoundaryOp) (senderId receiverId : PyStr)
    (payloadType : Option PyStr) (clock : TrustBoundary.Clock)
    (hclock : ClockMonotone BoundaryOp.monoReads
      (ops ++ [.evaluate senderId receiverId payloadType clock]))
    (hreach : (TrustBoundary.after limit defaultAllow ops).checkStages senderId
      receiverId payloadType clock.now = none) :
    let run := ops ++ [.evaluate senderId receiverId payloadType clock]
    ∀ pair bucket, (TrustBoundary.after limit defaultAllow run).rateLimits.lookup
        pair = some bucket →
      clock.nowMono - 360 ≤ bucket.lastRefill ∧
        bucket.lastRefill ≤ clock.nowMono ∧
        bucket.lastRefill ∈
          TrustBoundary.limiterRequests limit defaultAllow pair run := by
  intro run pair bucket hlookup
  have hnow : ∀ time ∈ ops.flatMap BoundaryOp.monoReads, time ≤ clock.nowMono :=
    fun time htime => hclock.le_last htime (by simp [BoundaryOp.monoReads])
  have hrecent : TrustBoundary.Recent clock.nowMono
      (TrustBoundary.after limit defaultAllow run) := by
    rw [TrustBoundary.after_snoc, TrustBoundary.step,
      TrustBoundary.evaluate_of_passed hreach]
    exact ((TrustBoundary.swept_after limit defaultAllow ops
      hclock.init).evictExpiredTrust clock.now clock.mono).recent_rateLimit
        senderId receiverId hnow
  have hold := hrecent pair bucket hlookup
  rw [TrustBoundary.evictionTtl] at hold
  refine ⟨by linarith, ?_, ?_⟩
  · have hlast : (run.flatMap BoundaryOp.monoReads).getLast? =
        some clock.nowMono := by simp [run, BoundaryOp.monoReads]
    exact (TrustBoundary.polices_after limit defaultAllow run hclock clock.nowMono
      fun time => hclock.le_getLast hlast).refilled pair bucket hlookup
  · exact (TrustBoundary.swept_after limit defaultAllow run hclock).used pair
      bucket hlookup

/-- A pair used at 0, another at 300, where the sweep finds the first one warm. -/
def sweptOnce : List BoundaryOp :=
  [.evaluate (py "a") (py "b") none ⟨0, 0, 0⟩,
    .evaluate (py "c") (py "d") none ⟨300, 300, 300⟩]

/-- At 359 no sweep is due, and the bucket last used at 0 is still there. -/
theorem buckets_used_within_window_unswept :
    (359 : ℚ) - 360 ≤ 0 ∧ (0 : ℚ) ≤ 359 ∧
      (0 : ℚ) ∈ TrustBoundary.limiterRequests 60 true (py "a", py "b")
        (sweptOnce ++ [.evaluate (py "c") (py "d") none ⟨359, 359, 359⟩]) := by
  have hrefill : ((TrustBoundary.after 60 true (sweptOnce ++
      [.evaluate (py "c") (py "d") none ⟨359, 359, 359⟩])).rateLimits.lookup
        (py "a", py "b")).map TokenBucket.lastRefill = some 0 := by
    decide +kernel
  obtain ⟨bucket, hlookup, hzero⟩ := Option.map_eq_some_iff.mp hrefill
  rw [← hzero]
  exact buckets_used_within_window 60 true sweptOnce (py "c") (py "d") none
    ⟨359, 359, 359⟩
    (by norm_num [sweptOnce, ClockMonotone, BoundaryOp.monoReads])
    (by decide +kernel) (py "a", py "b") bucket hlookup

end QwedA2A
