/-
A lazily refilled token bucket and the arrival curve it enforces.  The bucket's
level is the slack of the tightest window of admitted arrivals, so comparing
the level with one token decides the whole curve.
-/
import Mathlib.Algebra.Order.Field.Basic
import Mathlib.Tactic

namespace ArrivalCurve

universe u

section Counting

variable {T : Type u} [LinearOrder T]

/-- How many of the arrivals lie at or after `start`. -/
def countSince (arrivals : List T) (start : T) : ℕ :=
  arrivals.countP fun arrival => decide (start ≤ arrival)

@[simp] theorem countSince_nil (start : T) : countSince [] start = 0 := rfl

theorem countSince_snoc (arrivals : List T) (last start : T) :
    countSince (arrivals ++ [last]) start =
      countSince arrivals start + if start ≤ last then 1 else 0 := by
  by_cases h : start ≤ last <;> simp [countSince, h]

/-- No arrival is counted by a window that starts after all of them. -/
theorem countSince_eq_zero {arrivals : List T} {start : T}
    (h : ∀ arrival ∈ arrivals, arrival < start) :
    countSince arrivals start = 0 := by
  rw [countSince, List.countP_eq_zero]
  intro arrival hmem
  simpa using h arrival hmem

end Counting

variable {K : Type u} [Field K] [LinearOrder K]

/-- Tokens left after the last request, and the time of that request. -/
structure Bucket (K : Type u) where
  tokens : K
  last : K

/-- The tokens available at `now`.  A bucket that was never touched, or was
forgotten, is full. -/
def level (capacity rate : K) : Option (Bucket K) → K → K
  | none, _ => capacity
  | some bucket, now =>
      min capacity (bucket.tokens + (now - bucket.last) * rate)

@[simp] theorem level_none (capacity rate now : K) :
    level capacity rate none now = capacity := rfl

@[simp] theorem level_some (capacity rate now : K) (bucket : Bucket K) :
    level capacity rate (some bucket) now =
      min capacity (bucket.tokens + (now - bucket.last) * rate) := rfl

/-- `amount` more arrivals at `now` keep every window that ends at `now` under
the curve `capacity + rate * length`. -/
def FitsCurve (capacity rate : K) (arrivals : List K) (now amount : K) : Prop :=
  ∀ start ≤ now,
    (countSince arrivals start : K) + amount ≤ capacity + rate * (now - start)

open Classical in
/-- The requests an arrival curve admits, decided one after the other. -/
noncomputable def police (capacity rate : K) (requests : List K) : List K :=
  requests.foldl
    (fun admitted now =>
      if FitsCurve capacity rate admitted now 1 then admitted ++ [now]
      else admitted) []

open Classical in
theorem police_snoc (capacity rate : K) (past : List K) (now : K) :
    police capacity rate (past ++ [now]) =
      if FitsCurve capacity rate (police capacity rate past) now 1 then
        police capacity rate past ++ [now]
      else police capacity rate past := by
  rw [police, List.foldl_append]
  rfl

/-- No window holds more admitted requests than the curve allows. -/
theorem police_window [IsStrictOrderedRing K] {capacity rate : K}
    (hcapacity : 0 ≤ capacity) (hrate : 0 ≤ rate) (requests : List K)
    {start stop : K} (h : start ≤ stop) :
    (((police capacity rate requests).countP fun time =>
        decide (start ≤ time ∧ time ≤ stop) : ℕ) : K) ≤
      capacity + rate * (stop - start) := by
  induction requests using List.reverseRecOn with
  | nil =>
      have hslack := mul_nonneg hrate (sub_nonneg.mpr h)
      simpa [police] using add_nonneg hcapacity hslack
  | append_singleton past now ih =>
      classical
      rw [police_snoc]
      split_ifs with hfits
      · rw [List.countP_append, List.countP_singleton]
        by_cases hinside : start ≤ now ∧ now ≤ stop
        · have hwithin : ((police capacity rate past).countP fun time =>
              decide (start ≤ time ∧ time ≤ stop)) ≤
                countSince (police capacity rate past) start := by
            refine List.countP_mono_left fun time _ htime => ?_
            rw [decide_eq_true_eq] at htime ⊢
            exact htime.1
          have hcurve := hfits start hinside.1
          have hlonger : rate * (now - start) ≤ rate * (stop - start) :=
            mul_le_mul_of_nonneg_left (sub_le_sub_right hinside.2 start) hrate
          have hcast : (((police capacity rate past).countP fun time =>
              decide (start ≤ time ∧ time ≤ stop) : ℕ) : K) ≤
                countSince (police capacity rate past) start :=
            Nat.cast_le.mpr hwithin
          simp only [hinside, and_self, decide_true, if_true, Nat.cast_add,
            Nat.cast_one]
          linarith
        · simpa [hinside] using ih
      · exact ih

/-- From `since` on, the bucket's level is exactly the slack of the curve. -/
def Tracks (capacity rate : K) (bucket : Option (Bucket K))
    (arrivals : List K) (since : K) : Prop :=
  ∀ now, since ≤ now → ∀ amount,
    amount ≤ level capacity rate bucket now ↔
      FitsCurve capacity rate arrivals now amount

theorem Tracks.mono {capacity rate : K} {bucket : Option (Bucket K)}
    {arrivals : List K} {since later : K}
    (h : Tracks capacity rate bucket arrivals since) (hle : since ≤ later) :
    Tracks capacity rate bucket arrivals later :=
  fun now hnow => h now (hle.trans hnow)

/-- Two buckets with the same levels from `since` on track the same curve. -/
theorem Tracks.congr {capacity rate : K} {bucket other : Option (Bucket K)}
    {arrivals : List K} {since : K}
    (h : Tracks capacity rate bucket arrivals since)
    (hlevel : ∀ now, since ≤ now →
      level capacity rate other now = level capacity rate bucket now) :
    Tracks capacity rate other arrivals since := by
  intro now hnow amount
  rw [hlevel now hnow]
  exact h now hnow amount

theorem level_le_capacity (capacity rate : K) (bucket : Option (Bucket K))
    (now : K) : level capacity rate bucket now ≤ capacity := by
  cases bucket with
  | none => exact le_rfl
  | some bucket => exact min_le_left _ _

variable [IsStrictOrderedRing K]

/-- Before any arrival the full bucket tracks the curve. -/
theorem tracks_full {rate : K} (hrate : 0 ≤ rate) (capacity since : K) :
    Tracks capacity rate none [] since := by
  intro now _ amount
  simp only [level_none, FitsCurve, countSince_nil, Nat.cast_zero, zero_add]
  constructor
  · intro hamount start hstart
    have hgrow : 0 ≤ rate * (now - start) :=
      mul_nonneg hrate (sub_nonneg.mpr hstart)
    linarith
  · intro hfits
    simpa using hfits now le_rfl

/-- Storing the refilled level changes no later level. -/
theorem level_refill {capacity rate : K} (hrate : 0 ≤ rate)
    (bucket : Option (Bucket K)) {now later : K} (hle : now ≤ later) :
    level capacity rate (some ⟨level capacity rate bucket now, now⟩) later =
      level capacity rate bucket later := by
  have hgrow : 0 ≤ (later - now) * rate :=
    mul_nonneg (sub_nonneg.mpr hle) hrate
  cases bucket with
  | none =>
      rw [level_some, level_none]
      exact min_eq_left (by linarith)
  | some bucket =>
      have hsum : bucket.tokens + (now - bucket.last) * rate +
          (later - now) * rate =
            bucket.tokens + (later - bucket.last) * rate := by ring
      rw [level_some, level_some, level_some, ← min_add_add_right, ← min_assoc, hsum,
        min_eq_left (by linarith : capacity ≤ capacity + (later - now) * rate)]

/-- A refused request refills the bucket and leaves the curve as it was. -/
theorem Tracks.refuse {capacity rate : K} (hrate : 0 ≤ rate)
    {bucket : Option (Bucket K)} {arrivals : List K} {now : K}
    (h : Tracks capacity rate bucket arrivals now) :
    Tracks capacity rate (some ⟨level capacity rate bucket now, now⟩)
      arrivals now :=
  h.congr fun _ hlater => level_refill hrate bucket hlater

/-- An admitted request takes one token and adds one arrival. -/
theorem Tracks.admit {capacity rate : K} (hrate : 0 ≤ rate)
    {bucket : Option (Bucket K)} {arrivals : List K} {now : K}
    (h : Tracks capacity rate bucket arrivals now)
    (hpast : ∀ arrival ∈ arrivals, arrival ≤ now) :
    Tracks capacity rate (some ⟨level capacity rate bucket now - 1, now⟩)
      (arrivals ++ [now]) now := by
  intro later hlater amount
  have hgrow : 0 ≤ (later - now) * rate :=
    mul_nonneg (sub_nonneg.mpr hlater) hrate
  -- A window of the extended list that reaches back to `now` is a window of
  -- the old list with one arrival more and a longer end.
  have hslack := h now le_rfl (amount + 1 - (later - now) * rate)
  rw [level_some, le_min_iff]
  constructor
  · rintro ⟨hcap, htokens⟩ start hstart
    rw [countSince_snoc]
    by_cases hin : start ≤ now
    · have hold := hslack.mp (by linarith) start hin
      simp only [hin, ↓reduceIte, Nat.cast_add, Nat.cast_one]
      linarith
    · have hzero : countSince arrivals start = 0 :=
        countSince_eq_zero fun arrival hmem =>
          (hpast arrival hmem).trans_lt (not_le.mp hin)
      have hpos : 0 ≤ rate * (later - start) :=
        mul_nonneg hrate (sub_nonneg.mpr hstart)
      simp only [hzero, hin, ↓reduceIte, add_zero, Nat.cast_zero]
      linarith
  · intro hfits
    have htail : ∀ start ≤ now,
        (countSince arrivals start : K) + 1 + amount ≤
          capacity + rate * (later - start) := by
      intro start hstart
      have hnew := hfits start (hstart.trans hlater)
      simpa [countSince_snoc, hstart] using hnew
    refine ⟨?_, ?_⟩
    · have hlast := hfits later le_rfl
      rw [sub_self, mul_zero, add_zero] at hlast
      have hcount : (0 : K) ≤ (countSince (arrivals ++ [now]) later : K) :=
        Nat.cast_nonneg _
      linarith
    · have hlevel := hslack.mpr fun start hstart => by
        have hwindow := htail start hstart
        linarith
      linarith

/-- A bucket that has had the time to fill up can be forgotten. -/
theorem Tracks.forget {capacity rate : K} (hrate : 0 ≤ rate)
    {bucket : Bucket K} {arrivals : List K} {now : K}
    (h : Tracks capacity rate (some bucket) arrivals now)
    (hfull : capacity ≤ bucket.tokens + (now - bucket.last) * rate) :
    Tracks capacity rate none arrivals now := by
  apply h.congr
  intro later hlater
  have hgrow : 0 ≤ (later - now) * rate :=
    mul_nonneg (sub_nonneg.mpr hlater) hrate
  have hsum : bucket.tokens + (later - bucket.last) * rate =
      bucket.tokens + (now - bucket.last) * rate + (later - now) * rate := by
    ring
  rw [level_none, level_some]
  exact (min_eq_left (by linarith)).symm

end ArrivalCurve
