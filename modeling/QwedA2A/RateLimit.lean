/-
The rate limiter over whole runs.  Lazy refill, the capacity cap, the idle
eviction and the re-creation of a full bucket together admit a pair exactly as
its arrival curve allows, whatever the other pairs do.
-/
import QwedA2A.TrustBoundary
import QwedA2A.ArrivalCurve

namespace QwedA2A

open EventRun ExpiringTable ArrivalCurve

/-- The monotonic-clock readings of an operation, in the order taken. -/
def BoundaryOp.monoReads : BoundaryOp → List ℚ
  | .evaluate _ _ _ clock => [clock.mono, clock.nowMono]
  | _ => []

namespace TrustBoundary

/-- The instant at which an operation is a request of the pair that reaches the
rate limiter. -/
def limiterRequest (pair : PyStr × PyStr) (tb : TrustBoundary) :
    BoundaryOp → List ℚ
  | .evaluate senderId receiverId payloadType clock =>
      if (senderId, receiverId) = pair ∧
          tb.checkStages senderId receiverId payloadType clock.now = none then
        [clock.nowMono]
      else []
  | _ => []

/-- The instant at which an operation is an admitted request of the pair. -/
def admission (pair : PyStr × PyStr) (tb : TrustBoundary) :
    BoundaryOp → List ℚ
  | .evaluate senderId receiverId payloadType clock =>
      if (senderId, receiverId) = pair ∧
          (tb.evaluate senderId receiverId payloadType clock).1.1 = true then
        [clock.nowMono]
      else []
  | _ => []

/-- The admitted requests of a pair in a run from a fresh boundary. -/
def admissions (maxRequestsPerMinute : ℤ) (defaultAllow : Bool)
    (pair : PyStr × PyStr) (ops : List BoundaryOp) : List ℚ :=
  emitted step (admission pair) (fresh maxRequestsPerMinute defaultAllow) ops

/-- The requests of a pair that reach the limiter in such a run. -/
def limiterRequests (maxRequestsPerMinute : ℤ) (defaultAllow : Bool)
    (pair : PyStr × PyStr) (ops : List BoundaryOp) : List ℚ :=
  emitted step (limiterRequest pair) (fresh maxRequestsPerMinute defaultAllow)
    ops

end TrustBoundary

/-- The stored part of a bucket that its level depends on. -/
def TokenBucket.toCurve (bucket : TokenBucket) : Bucket ℚ :=
  ⟨bucket.tokens, bucket.lastRefill⟩

/-- `consume` compares the refilled level with one token. -/
theorem TokenBucket.consume_eq (bucket : TokenBucket) (now : ℚ) :
    bucket.consume now =
      let available := level bucket.capacity bucket.refillRate
        (some bucket.toCurve) now
      if 1 ≤ available then
        (true, { bucket with tokens := available - 1, lastRefill := now })
      else (false, { bucket with tokens := available, lastRefill := now }) := rfl

namespace TrustBoundary

/-- The bucket's rates are the boundary's. -/
def BucketFits (limit : ℤ) (bucket : TokenBucket) : Prop :=
  bucket.capacity = limit ∧ bucket.refillRate = limit / 60

theorem freshBucket_fits {tb : TrustBoundary} {limit : ℤ}
    (hmax : tb.maxRequestsPerMinute = limit) (now : ℚ) :
    BucketFits limit (tb.freshBucket now) := by
  simp [BucketFits, freshBucket, hmax]

/-- The level the limiter sees: that of the stored bucket, or a full one. -/
theorem getD_freshBucket_level {tb : TrustBoundary} {limit : ℤ}
    (hmax : tb.maxRequestsPerMinute = limit)
    (stored : Option TokenBucket) (now : ℚ) :
    level (limit : ℚ) (limit / 60)
        (some (stored.getD (tb.freshBucket now)).toCurve) now =
      level (limit : ℚ) (limit / 60) (stored.map TokenBucket.toCurve) now := by
  cases stored with
  | none => simp [TokenBucket.toCurve, freshBucket, hmax]
  | some bucket => rfl

/-- What the limiter's table must say at `now` about the requests admitted so
far: its buckets have the boundary's rates and, when requests can pass at all,
each pair's bucket tracks the curve of that pair's admissions. -/
structure Polices (limit : ℤ) (admitted : PyStr × PyStr → List ℚ)
    (tb : TrustBoundary) (now : ℚ) : Prop where
  max : tb.maxRequestsPerMinute = limit
  fits : ∀ pair bucket, tb.rateLimits.lookup pair = some bucket →
    BucketFits limit bucket
  nonneg : 0 ≤ limit → ∀ pair bucket,
    tb.rateLimits.lookup pair = some bucket → 0 ≤ bucket.tokens
  refilled : ∀ pair bucket, tb.rateLimits.lookup pair = some bucket →
    bucket.lastRefill ≤ now
  past : ∀ pair, ∀ time ∈ admitted pair, time ≤ now
  tracks : 0 ≤ limit → ∀ pair,
    Tracks (limit : ℚ) (limit / 60)
      ((tb.rateLimits.lookup pair).map TokenBucket.toCurve) (admitted pair) now

theorem rate_nonneg {limit : ℤ} (hlimit : 0 ≤ limit) : 0 ≤ (limit : ℚ) / 60 :=
  div_nonneg (by exact_mod_cast hlimit) (by norm_num)

theorem polices_fresh (limit : ℤ) (defaultAllow : Bool) (now : ℚ) :
    Polices limit (fun _ => []) (fresh limit defaultAllow) now where
  max := rfl
  fits pair bucket h := by simp [fresh] at h
  nonneg _ pair bucket h := by simp [fresh] at h
  refilled pair bucket h := by simp [fresh] at h
  past pair time h := by simp at h
  tracks hlimit pair := tracks_full (rate_nonneg hlimit) limit now

namespace Polices

variable {limit : ℤ} {admitted : PyStr × PyStr → List ℚ} {tb : TrustBoundary}
  {now : ℚ}

theorem mono (h : Polices limit admitted tb now) {later : ℚ}
    (hle : now ≤ later) : Polices limit admitted tb later where
  max := h.max
  fits := h.fits
  nonneg := h.nonneg
  refilled pair bucket hlookup := (h.refilled pair bucket hlookup).trans hle
  past pair time htime := (h.past pair time htime).trans hle
  tracks hlimit pair := (h.tracks hlimit pair).mono hle

theorem of_same_table (h : Polices limit admitted tb now) {other : TrustBoundary}
    (hmax : other.maxRequestsPerMinute = tb.maxRequestsPerMinute)
    (htable : other.rateLimits = tb.rateLimits) :
    Polices limit admitted other now where
  max := hmax.trans h.max
  fits := by rw [htable]; exact h.fits
  nonneg := by rw [htable]; exact h.nonneg
  refilled := by rw [htable]; exact h.refilled
  past := h.past
  tracks := by rw [htable]; exact h.tracks

/-- An evicted bucket had the time to fill up: 300 idle seconds are five times
what a full refill takes. -/
theorem evictColdBuckets (h : Polices limit admitted tb now) :
    Polices limit admitted (tb.evictColdBuckets now) now := by
  rw [TrustBoundary.evictColdBuckets]
  split
  case isFalse => exact h
  case isTrue =>
      refine ⟨h.max, ?_, ?_, ?_, h.past, ?_⟩
      · intro pair bucket hlookup
        exact h.fits pair bucket (lookup_of_lookup_sweep hlookup).1
      · intro hlimit pair bucket hlookup
        exact h.nonneg hlimit pair bucket (lookup_of_lookup_sweep hlookup).1
      · intro pair bucket hlookup
        exact h.refilled pair bucket (lookup_of_lookup_sweep hlookup).1
      · intro hlimit pair
        have hold := h.tracks hlimit pair
        cases hlookup : tb.rateLimits.lookup pair with
        | none =>
            simpa [lookup_sweep, hlookup] using hold
        | some bucket =>
            rw [hlookup] at hold
            by_cases hidle : evictionTtl < now - bucket.lastRefill
            · rw [lookup_sweep_of_dead hlookup (by simpa using hidle)]
              apply hold.forget (rate_nonneg hlimit)
              have htokens := h.nonneg hlimit pair bucket hlookup
              have hrate := rate_nonneg hlimit
              have hrefill : 300 * ((limit : ℚ) / 60) ≤
                  (now - bucket.lastRefill) * (limit / 60) :=
                mul_le_mul_of_nonneg_right hidle.le hrate
              have hcap : (0 : ℚ) ≤ limit := by exact_mod_cast hlimit
              simp only [TokenBucket.toCurve]
              linarith
            · rw [lookup_sweep_of_live hlookup (by simpa using hidle)]
              exact hold

/-- The limiter's answer and the bucket it stores, in terms of the level it
sees after the sweep. -/
theorem limiterResult_eq (h : Polices limit admitted tb now)
    (senderId receiverId : PyStr) :
    ∃ bucket : TokenBucket, BucketFits limit bucket ∧
      ∃ available : ℚ, available = level (limit : ℚ) (limit / 60)
        (((tb.evictColdBuckets now).rateLimits.lookup
          (senderId, receiverId)).map TokenBucket.toCurve) now ∧
      tb.limiterResult senderId receiverId now =
        if 1 ≤ available then
          (true, { bucket with tokens := available - 1, lastRefill := now })
        else (false, { bucket with tokens := available, lastRefill := now }) := by
  have hswept := h.evictColdBuckets
  have hmax := h.max
  refine ⟨((tb.evictColdBuckets now).rateLimits.lookup
    (senderId, receiverId)).getD (tb.freshBucket now), ?_, _, rfl, ?_⟩
  · cases hcase : (tb.evictColdBuckets now).rateLimits.lookup
        (senderId, receiverId) with
    | none => exact freshBucket_fits hmax now
    | some bucket => exact hswept.fits _ bucket hcase
  · cases hcase : (tb.evictColdBuckets now).rateLimits.lookup
        (senderId, receiverId) with
    | none =>
        have hfits := freshBucket_fits hmax now
        rw [limiterResult, TokenBucket.consume_eq, hcase, Option.getD_none,
          hfits.1, hfits.2, ← getD_freshBucket_level hmax]
        rfl
    | some bucket =>
        have hfits := hswept.fits _ bucket hcase
        rw [limiterResult, TokenBucket.consume_eq, hcase, Option.getD_some,
          hfits.1, hfits.2]
        rfl

/-- The limiter admits a request exactly when the pair's curve does. -/
theorem limiterResult_iff (h : Polices limit admitted tb now)
    (senderId receiverId : PyStr) :
    (tb.limiterResult senderId receiverId now).1 = true ↔
      FitsCurve (limit : ℚ) (limit / 60) (admitted (senderId, receiverId))
        now 1 := by
  obtain ⟨bucket, _, available, havailable, hresult⟩ :=
    h.limiterResult_eq senderId receiverId
  have hallowed : (tb.limiterResult senderId receiverId now).1 = true ↔
      1 ≤ available := by
    rw [hresult]
    split <;> simp_all
  rw [hallowed, havailable]
  by_cases hlimit : 0 ≤ limit
  · exact h.evictColdBuckets.tracks hlimit (senderId, receiverId) now le_rfl 1
  · -- With a negative limit no window can hold even one request.
    have hneg : (limit : ℚ) < 0 := by exact_mod_cast not_le.mp hlimit
    constructor
    · intro hlevel
      have hcap := level_le_capacity (limit : ℚ) (limit / 60)
        (((tb.evictColdBuckets now).rateLimits.lookup
          (senderId, receiverId)).map TokenBucket.toCurve) now
      linarith
    · intro hfit
      have hnow := hfit now le_rfl
      have hcount : (0 : ℚ) ≤ countSince (admitted (senderId, receiverId)) now :=
        Nat.cast_nonneg _
      rw [sub_self, mul_zero, add_zero] at hnow
      linarith

/-- With a non-negative limit no bucket's level is negative. -/
theorem level_nonneg (h : Polices limit admitted tb now) (hlimit : 0 ≤ limit)
    (pair : PyStr × PyStr) :
    0 ≤ level (limit : ℚ) (limit / 60)
      ((tb.rateLimits.lookup pair).map TokenBucket.toCurve) now := by
  have hcap : (0 : ℚ) ≤ limit := by exact_mod_cast hlimit
  cases hcase : tb.rateLimits.lookup pair with
  | none => exact hcap
  | some bucket =>
      have htokens := h.nonneg hlimit pair bucket hcase
      have hrefill : 0 ≤ (now - bucket.lastRefill) * ((limit : ℚ) / 60) :=
        mul_nonneg (sub_nonneg.mpr (h.refilled pair bucket hcase))
          (rate_nonneg hlimit)
      exact le_min hcap (add_nonneg htokens hrefill)

/-- Storing the asked bucket keeps the table in step with the admissions. -/
theorem rateLimit (h : Polices limit admitted tb now)
    (senderId receiverId : PyStr) :
    Polices limit
      (fun pair =>
        if (senderId, receiverId) = pair ∧
            (tb.rateLimit senderId receiverId now).1.1 = true then
          admitted pair ++ [now]
        else admitted pair)
      (tb.rateLimit senderId receiverId now).2 now := by
  have hswept := h.evictColdBuckets
  obtain ⟨bucket, hfits, available, havailable, hresult⟩ :=
    h.limiterResult_eq senderId receiverId
  rw [rateLimit_allowed, rateLimit_state]
  refine ⟨by simpa using h.max, ?_, ?_, ?_, ?_, ?_⟩
  · intro pair found hlookup
    rcases lookup_of_lookup_insert hlookup with ⟨_, rfl⟩ | hold
    · rw [hresult]
      split <;> exact hfits
    · exact hswept.fits pair found hold
  · intro hlimit pair found hlookup
    rcases lookup_of_lookup_insert hlookup with ⟨_, rfl⟩ | hold
    · have hlevel := hswept.level_nonneg hlimit (senderId, receiverId)
      rw [← havailable] at hlevel
      rw [hresult]
      split
      next hone => exact sub_nonneg.mpr hone
      next hone => exact hlevel
    · exact hswept.nonneg hlimit pair found hold
  · intro pair found hlookup
    rcases lookup_of_lookup_insert hlookup with ⟨_, rfl⟩ | hold
    · rw [hresult]
      split <;> exact le_rfl
    · exact hswept.refilled pair found hold
  · intro pair time htime
    split at htime
    · rcases List.mem_append.mp htime with hold | hnew
      · exact h.past pair time hold
      · rw [List.mem_singleton] at hnew
        exact hnew.le
    · exact h.past pair time htime
  · intro hlimit pair
    have hrate := rate_nonneg hlimit
    have hold := hswept.tracks hlimit pair
    by_cases hpair : pair = (senderId, receiverId)
    · subst hpair
      rw [AList.lookup_insert, hresult, Option.map_some, havailable]
      split
      next hone =>
        simpa [hone, TokenBucket.toCurve] using
          hold.admit hrate (h.past (senderId, receiverId))
      next hone =>
        simpa [hone, TokenBucket.toCurve] using hold.refuse hrate
    · rw [AList.lookup_insert_ne hpair, if_neg fun hboth => hpair hboth.1.symm]
      exact hold

end Polices

theorem admissions_snoc (limit : ℤ) (defaultAllow : Bool)
    (pair : PyStr × PyStr) (past : List BoundaryOp) (op : BoundaryOp) :
    admissions limit defaultAllow pair (past ++ [op]) =
      admissions limit defaultAllow pair past ++
        admission pair (after limit defaultAllow past) op :=
  emitted_snoc step (admission pair) (fresh limit defaultAllow) past op

theorem limiterRequests_snoc (limit : ℤ) (defaultAllow : Bool)
    (pair : PyStr × PyStr) (past : List BoundaryOp) (op : BoundaryOp) :
    limiterRequests limit defaultAllow pair (past ++ [op]) =
      limiterRequests limit defaultAllow pair past ++
        limiterRequest pair (after limit defaultAllow past) op :=
  emitted_snoc step (limiterRequest pair) (fresh limit defaultAllow) past op

/-- Operations other than a request that reaches the limiter leave its table
alone and admit nothing. -/
theorem step_frame (tb : TrustBoundary) (op : BoundaryOp)
    (hop : ∀ senderId receiverId payloadType clock,
      op = .evaluate senderId receiverId payloadType clock →
        tb.checkStages senderId receiverId payloadType clock.now ≠ none) :
    (tb.step op).rateLimits = tb.rateLimits ∧
      (tb.step op).maxRequestsPerMinute = tb.maxRequestsPerMinute ∧
      (∀ pair, admission pair tb op = []) ∧
      ∀ pair, limiterRequest pair tb op = [] := by
  cases op with
  | blockAgent agentId => exact ⟨rfl, rfl, fun _ => rfl, fun _ => rfl⟩
  | trustAgent agentId entry => exact ⟨rfl, rfl, fun _ => rfl, fun _ => rfl⟩
  | revokeAgent agentId =>
      refine ⟨?_, ?_, fun _ => rfl, fun _ => rfl⟩ <;>
        simp only [step, revokeAgent] <;> split <;> rfl
  | blockPair senderId receiverId =>
      exact ⟨rfl, rfl, fun _ => rfl, fun _ => rfl⟩
  | unblockPair senderId receiverId =>
      exact ⟨rfl, rfl, fun _ => rfl, fun _ => rfl⟩
  | evaluate senderId receiverId payloadType clock =>
      have hrefused := hop senderId receiverId payloadType clock rfl
      obtain ⟨reason, hreason⟩ := Option.ne_none_iff_exists'.mp hrefused
      simp [step, evaluate, admission, limiterRequest, hreason]

/-- The limiter's table polices every run whose monotonic clock never goes
back. -/
theorem polices_after (limit : ℤ) (defaultAllow : Bool)
    (ops : List BoundaryOp)
    (hclock : ClockMonotone BoundaryOp.monoReads ops) (now : ℚ)
    (hnow : ∀ time ∈ ops.flatMap BoundaryOp.monoReads, time ≤ now) :
    Polices limit (fun pair => admissions limit defaultAllow pair ops)
      (after limit defaultAllow ops) now := by
  induction ops using List.reverseRecOn generalizing now with
  | nil => exact polices_fresh limit defaultAllow now
  | append_singleton past op ih =>
      have hpast : ∀ time ∈ past.flatMap BoundaryOp.monoReads, time ≤ now :=
        fun time htime => hnow time (by
          rw [List.flatMap_append]
          exact List.mem_append_left _ htime)
      simp only [admissions_snoc]
      rw [after_snoc]
      by_cases hop : ∀ senderId receiverId payloadType clock,
          op = .evaluate senderId receiverId payloadType clock →
            (after limit defaultAllow past).checkStages senderId receiverId
              payloadType clock.now ≠ none
      · obtain ⟨htable, hmax, hsame, _⟩ := step_frame _ op hop
        simp only [hsame, List.append_nil]
        exact (ih hclock.init now hpast).of_same_table hmax htable
      · push Not at hop
        obtain ⟨senderId, receiverId, payloadType, clock, rfl, hreach⟩ := hop
        have hbefore := ih hclock.init clock.nowMono fun time htime =>
          hclock.le_last htime (by simp [BoundaryOp.monoReads])
        have hevicted := hbefore.of_same_table
          (evictExpiredTrust_maxRequests _ clock.now clock.mono)
          (evictExpiredTrust_rateLimits _ clock.now clock.mono)
        have hlimited := (hevicted.rateLimit senderId receiverId).mono
          (hnow clock.nowMono (by simp [BoundaryOp.monoReads]))
        rw [← evaluate_of_passed hreach] at hlimited
        have hgrown : ∀ pair,
            admissions limit defaultAllow pair past ++
                admission pair (after limit defaultAllow past)
                  (.evaluate senderId receiverId payloadType clock) =
              if (senderId, receiverId) = pair ∧
                  ((after limit defaultAllow past).evaluate senderId receiverId
                    payloadType clock).1.1 = true then
                admissions limit defaultAllow pair past ++ [clock.nowMono]
              else admissions limit defaultAllow pair past := by
          intro pair
          simp only [admission]
          split <;> simp
        simp only [hgrown]
        exact hlimited

end TrustBoundary

/-- The requests of the pair admitted in the window from `start` to `stop`. -/
def windowCount (times : List ℚ) (start stop : ℚ) : ℕ :=
  times.countP fun time => decide (start ≤ time ∧ time ≤ stop)

theorem windowCount_eq_countSince {times : List ℚ} {start stop : ℚ}
    (hpast : ∀ time ∈ times, time ≤ stop) :
    windowCount times start stop = countSince times start := by
  rw [windowCount, countSince]
  apply List.countP_congr
  intro time htime
  simp [hpast time htime]

/-- Refusing one more request is exceeding the curve in some window. -/
theorem not_fitsCurve_iff {limit : ℤ} {admitted : List ℚ} {now : ℚ}
    (hpast : ∀ time ∈ admitted, time ≤ now) :
    ¬ FitsCurve (limit : ℚ) (limit / 60) admitted now 1 ↔
      ∃ start ≤ now, (limit : ℚ) + limit / 60 * (now - start) <
        windowCount (admitted ++ [now]) start now := by
  have hall : ∀ time ∈ admitted ++ [now], time ≤ now := by
    intro time htime
    rcases List.mem_append.mp htime with hold | hnew
    · exact hpast time hold
    · exact (List.mem_singleton.mp hnew).le
  have hcount : ∀ start ≤ now,
      ((windowCount (admitted ++ [now]) start now : ℕ) : ℚ) =
        countSince admitted start + 1 := by
    intro start hstart
    rw [windowCount_eq_countSince hall, countSince_snoc, if_pos hstart]
    push_cast
    rfl
  rw [FitsCurve]
  push Not
  constructor
  · rintro ⟨start, hstart, hover⟩
    exact ⟨start, hstart, by rwa [hcount start hstart]⟩
  · rintro ⟨start, hstart, hover⟩
    exact ⟨start, hstart, by rwa [hcount start hstart] at hover⟩

namespace TrustBoundary

/-- At a request that reaches the limiter the answer is the curve's. -/
theorem evaluate_allowed_iff_fits {limit : ℤ} {defaultAllow : Bool}
    {ops : List BoundaryOp} {senderId receiverId : PyStr}
    {payloadType : Option PyStr} {clock : Clock}
    (hclock : ClockMonotone BoundaryOp.monoReads
      (ops ++ [.evaluate senderId receiverId payloadType clock]))
    (hreach : (after limit defaultAllow ops).checkStages senderId receiverId
      payloadType clock.now = none) :
    ((after limit defaultAllow ops).evaluate senderId receiverId payloadType
        clock).1.1 = true ↔
      FitsCurve (limit : ℚ) (limit / 60)
        (admissions limit defaultAllow (senderId, receiverId) ops)
        clock.nowMono 1 := by
  have hpolices := polices_after limit defaultAllow ops hclock.init
    clock.nowMono fun time htime =>
      hclock.le_last htime (by simp [BoundaryOp.monoReads])
  have hevicted := hpolices.of_same_table
    (evictExpiredTrust_maxRequests _ clock.now clock.mono)
    (evictExpiredTrust_rateLimits _ clock.now clock.mono)
  rw [evaluate_of_passed hreach, rateLimit_allowed]
  exact hevicted.limiterResult_iff senderId receiverId

/-- A pair's admissions are its curve's choice among its own requests: what
other pairs do, and what is evicted when, has no say. -/
theorem admissions_eq_police (limit : ℤ) (defaultAllow : Bool)
    (pair : PyStr × PyStr) (ops : List BoundaryOp)
    (hclock : ClockMonotone BoundaryOp.monoReads ops) :
    admissions limit defaultAllow pair ops =
      police (limit : ℚ) (limit / 60)
        (limiterRequests limit defaultAllow pair ops) := by
  induction ops using List.reverseRecOn with
  | nil => rfl
  | append_singleton past op ih =>
      have hpast := ih hclock.init
      rw [admissions_snoc, limiterRequests_snoc]
      by_cases hop : ∀ senderId receiverId payloadType clock,
          op = .evaluate senderId receiverId payloadType clock →
            (after limit defaultAllow past).checkStages senderId receiverId
              payloadType clock.now ≠ none
      · obtain ⟨_, _, hsame, hrequest⟩ := step_frame _ op hop
        rw [hsame, hrequest, List.append_nil, List.append_nil]
        exact hpast
      · push Not at hop
        obtain ⟨senderId, receiverId, payloadType, clock, rfl, hreach⟩ := hop
        have hanswer := evaluate_allowed_iff_fits hclock hreach
        by_cases hpair : (senderId, receiverId) = pair
        · subst hpair
          simp only [limiterRequest, hreach, and_self, if_true, police_snoc]
          rw [← hpast]
          by_cases hallowed : ((after limit defaultAllow past).evaluate senderId
              receiverId payloadType clock).1.1 = true
          · have hfits := hanswer.mp hallowed
            simp only [admission, hallowed, hfits, and_self, if_true]
          · have hfits := mt hanswer.mpr hallowed
            rw [if_neg hfits]
            simp [admission, hallowed]
        · simp only [admission, limiterRequest, hpair, false_and, if_false,
            List.append_nil]
          exact hpast

end TrustBoundary

/-- A request that reaches the limiter is refused exactly when admitting it
would put too many admitted requests of its pair in some window ending now; and
the pair's admissions are those its arrival curve makes of the pair's own
requests, so neither eviction nor other pairs have a say. -/
theorem rate_limit_is_arrival_curve (limit : ℤ) (defaultAllow : Bool)
    (ops : List BoundaryOp) (senderId receiverId : PyStr)
    (payloadType : Option PyStr) (clock : TrustBoundary.Clock)
    (hclock : ClockMonotone BoundaryOp.monoReads
      (ops ++ [.evaluate senderId receiverId payloadType clock]))
    (hreach : (TrustBoundary.after limit defaultAllow ops).checkStages senderId
      receiverId payloadType clock.now = none) :
    let tb := TrustBoundary.after limit defaultAllow ops
    let pair := (senderId, receiverId)
    let admitted := TrustBoundary.admissions limit defaultAllow pair ops
    ((tb.evaluate senderId receiverId payloadType clock).1.1 = false ↔
      ∃ start ≤ clock.nowMono,
        (limit : ℚ) + limit / 60 * (clock.nowMono - start) <
          windowCount (admitted ++ [clock.nowMono]) start clock.nowMono) ∧
    admitted = police (limit : ℚ) (limit / 60)
      (TrustBoundary.limiterRequests limit defaultAllow pair ops) := by
  intro tb pair admitted
  refine ⟨?_, TrustBoundary.admissions_eq_police limit defaultAllow pair ops
    hclock.init⟩
  have hpast : ∀ time ∈ admitted, time ≤ clock.nowMono :=
    (TrustBoundary.polices_after limit defaultAllow ops hclock.init
      clock.nowMono fun time htime =>
        hclock.le_last htime (by simp [BoundaryOp.monoReads])).past pair
  rw [← not_fitsCurve_iff hpast,
    ← TrustBoundary.evaluate_allowed_iff_fits hclock hreach, Bool.not_eq_true]

/-- One request a minute: the second request of the pair, half a minute after
the first, is refused, so some window is full. -/
theorem rate_limit_is_arrival_curve_one_per_minute :
    ∃ start ≤ (30 : ℚ), ((1 : ℤ) : ℚ) + (1 : ℤ) / 60 * (30 - start) <
      windowCount (TrustBoundary.admissions 1 true (py "a", py "b")
        [.evaluate (py "a") (py "b") none ⟨0, 0, 0⟩] ++ [30]) start 30 := by
  have hclock : ClockMonotone BoundaryOp.monoReads
      [.evaluate (py "a") (py "b") none ⟨0, 0, 0⟩,
        .evaluate (py "a") (py "b") none ⟨30, 30, 30⟩] := by
    norm_num [ClockMonotone, BoundaryOp.monoReads]
  have hrefused : ((TrustBoundary.after 1 true
      [.evaluate (py "a") (py "b") none ⟨0, 0, 0⟩]).evaluate (py "a") (py "b")
        none ⟨30, 30, 30⟩).1.1 = false := by
    decide +kernel
  exact (rate_limit_is_arrival_curve 1 true
    [.evaluate (py "a") (py "b") none ⟨0, 0, 0⟩] (py "a") (py "b") none
    ⟨30, 30, 30⟩ hclock (by decide +kernel)).1.mp hrefused

end QwedA2A
