/-
The intercept metrics.  Counters are kept per outcome, engine and sender, and
the report derives its rates from them; a run of recordings leaves the tally of
what was recorded.
-/
import QwedA2A.Schema
import QwedA2A.PyFloat
import QwedA2A.ExpiringTable

namespace QwedA2A

open ExpiringTable

/-- `a + b` of floats. -/
def PyNum.add : PyNum → PyNum → PyNum
  | .real (some (some a)), .real (some (some b)) => toFloat (a + b)
  | .nan, _ => .nan
  | _, .nan => .nan
  | .real x, .real y =>
      -- One of them is infinite; opposite infinities have no sum.
      if x = ⊥ ∧ y = ((⊤ : WithTop ℚ) : WithBot (WithTop ℚ)) ∨
          x = ((⊤ : WithTop ℚ) : WithBot (WithTop ℚ)) ∧ y = ⊥ then .nan
      else if x = ⊥ ∨ y = ⊥ then .negInf
      else .inf

/-- `value / count` of a float and a positive count. -/
def PyNum.divCount (value : PyNum) (count : ℕ) : PyNum :=
  match value with
  | .real (some (some a)) => toFloat (a / count)
  | other => other

/-- The multiple of `10 ^ -digits` nearest to a number, ties to even. -/
def roundDecimal (digits : ℕ) (x : ℚ) : ℚ :=
  (if x < 0 then -1 else 1) * Binary64.roundEven (|x| * 10 ^ digits) / 10 ^ digits

/-- `round(value, digits)`: the float nearest to the rounded value. -/
def PyNum.round (digits : ℕ) : PyNum → PyNum
  | .real (some (some a)) => toFloat (roundDecimal digits a)
  | other => other

/-- Aggregated metrics for interceptor performance monitoring. -/
structure InterceptMetrics where
  totalIntercepts : ℕ := 0
  totalVerified : ℕ := 0
  totalBlocked : ℕ := 0
  totalUnverifiable : ℕ := 0
  totalHeuristicPass : ℕ := 0
  totalErrors : ℕ := 0
  totalLatencyMs : PyNum := .rat 0
  byEngine : Table PyStr ℕ := ∅
  bySender : Table PyStr ℕ := ∅

/-- `counts[key] = counts.get(key, 0) + 1`. -/
def countUp (counts : Table PyStr ℕ) (key : PyStr) : Table PyStr ℕ :=
  counts.insert key ((counts.lookup key).getD 0 + 1)

namespace InterceptMetrics

/-- Deprecated alias of `totalVerified`. -/
def totalForwarded (metrics : InterceptMetrics) : ℕ := metrics.totalVerified

def averageLatencyMs (metrics : InterceptMetrics) : PyNum :=
  if metrics.totalIntercepts = 0 then .rat 0
  else metrics.totalLatencyMs.divCount metrics.totalIntercepts

def blockRate (metrics : InterceptMetrics) : PyNum :=
  if metrics.totalIntercepts = 0 then .rat 0
  else toFloat (metrics.totalBlocked / metrics.totalIntercepts)

def outcomes (metrics : InterceptMetrics) : VerdictStatus → ℕ
  | .verified => metrics.totalVerified
  | .blocked => metrics.totalBlocked
  | .unverifiable => metrics.totalUnverifiable
  | .heuristicPass => metrics.totalHeuristicPass
  | .error => metrics.totalErrors

def countStatus (metrics : InterceptMetrics) : VerdictStatus → InterceptMetrics
  | .verified => { metrics with totalVerified := metrics.totalVerified + 1 }
  | .blocked => { metrics with totalBlocked := metrics.totalBlocked + 1 }
  | .unverifiable =>
      { metrics with totalUnverifiable := metrics.totalUnverifiable + 1 }
  | .heuristicPass =>
      { metrics with totalHeuristicPass := metrics.totalHeuristicPass + 1 }
  | .error => { metrics with totalErrors := metrics.totalErrors + 1 }

def countEngine (metrics : InterceptMetrics) (engine : Option PyStr) :
    InterceptMetrics :=
  match engine with
  | none => metrics
  | some name =>
      if name = [] then metrics
      else { metrics with byEngine := countUp metrics.byEngine name }

end InterceptMetrics

/-- What `/a2a/metrics` returns. -/
structure MetricsReport where
  totalIntercepts : ℕ
  totalVerified : ℕ
  totalForwarded : ℕ
  totalBlocked : ℕ
  totalUnverifiable : ℕ
  totalHeuristicPass : ℕ
  totalErrors : ℕ
  averageLatencyMs : PyNum
  blockRate : PyNum
  byEngine : Table PyStr ℕ
  bySender : Table PyStr ℕ

def InterceptMetrics.toDict (metrics : InterceptMetrics) : MetricsReport where
  totalIntercepts := metrics.totalIntercepts
  totalVerified := metrics.totalVerified
  totalForwarded := metrics.totalVerified
  totalBlocked := metrics.totalBlocked
  totalUnverifiable := metrics.totalUnverifiable
  totalHeuristicPass := metrics.totalHeuristicPass
  totalErrors := metrics.totalErrors
  averageLatencyMs := metrics.averageLatencyMs.round 2
  blockRate := metrics.blockRate.round 4
  byEngine := metrics.byEngine
  bySender := metrics.bySender

/-- An intercept as the aggregator is told of it. -/
structure InterceptRecord where
  status : VerdictStatus
  engine : Option PyStr
  senderId : PyStr
  latencyMs : PyNum

/-- Record an intercept event in the metrics aggregator. -/
def recordIntercept (metrics : InterceptMetrics) (record : InterceptRecord) :
    InterceptMetrics :=
  let counted :=
    { metrics with
      totalIntercepts := metrics.totalIntercepts + 1
      totalLatencyMs := metrics.totalLatencyMs.add record.latencyMs
      bySender := countUp metrics.bySender record.senderId }
  (counted.countStatus record.status).countEngine record.engine

/-- The metrics are the tally of some recordings. -/
structure Tally (records : List InterceptRecord) (metrics : InterceptMetrics) :
    Prop where
  total : metrics.totalIntercepts = records.length
  outcome : ∀ status, metrics.outcomes status =
    records.countP fun record => record.status = status
  latency : metrics.totalLatencyMs =
    records.foldl (fun sum record => sum.add record.latencyMs) (.rat 0)
  engine : ∀ name, (metrics.byEngine.lookup name).getD 0 =
    records.countP fun record => name ≠ [] ∧ record.engine = some name
  sender : ∀ name, (metrics.bySender.lookup name).getD 0 =
    records.countP fun record => record.senderId = name

theorem lookup_countUp (counts : Table PyStr ℕ) (key other : PyStr) :
    ((countUp counts key).lookup other).getD 0 =
      (counts.lookup other).getD 0 + if key = other then 1 else 0 := by
  rw [countUp]
  by_cases hkey : other = key
  · subst hkey
    simp
  · rw [AList.lookup_insert_ne hkey, if_neg (Ne.symm hkey), add_zero]

namespace InterceptMetrics

variable (metrics : InterceptMetrics) (status other : VerdictStatus)
  (engine : Option PyStr)

theorem countStatus_outcomes :
    (metrics.countStatus status).outcomes other =
      metrics.outcomes other + if status = other then 1 else 0 := by
  cases status <;> cases other <;> rfl

theorem countStatus_totalIntercepts :
    (metrics.countStatus status).totalIntercepts = metrics.totalIntercepts := by
  cases status <;> rfl

theorem countStatus_totalLatencyMs :
    (metrics.countStatus status).totalLatencyMs = metrics.totalLatencyMs := by
  cases status <;> rfl

theorem countStatus_byEngine :
    (metrics.countStatus status).byEngine = metrics.byEngine := by
  cases status <;> rfl

theorem countStatus_bySender :
    (metrics.countStatus status).bySender = metrics.bySender := by
  cases status <;> rfl

/-- Naming an engine touches the engine counts alone. -/
theorem countEngine_frame :
    metrics.countEngine engine =
      { metrics with byEngine := (metrics.countEngine engine).byEngine } := by
  cases engine with
  | none => rfl
  | some name =>
      rw [countEngine]
      split_ifs with hempty
      · rfl
      · rfl

theorem lookup_countEngine (name : PyStr) :
    ((metrics.countEngine engine).byEngine.lookup name).getD 0 =
      (metrics.byEngine.lookup name).getD 0 +
        if name ≠ [] ∧ engine = some name then 1 else 0 := by
  cases engine with
  | none => simp [countEngine]
  | some found =>
      rw [countEngine]
      split_ifs with hempty hboth hboth
      · exact absurd (hempty ▸ Option.some.inj hboth.2) hboth.1.symm
      · rfl
      · rw [lookup_countUp, if_pos (Option.some.inj hboth.2)]
      · rw [lookup_countUp, if_neg]
        rintro rfl
        exact hboth ⟨hempty, rfl⟩

theorem countEngine_outcomes :
    (metrics.countEngine engine).outcomes other = metrics.outcomes other := by
  rw [countEngine_frame]
  cases other <;> rfl

end InterceptMetrics

namespace Tally

theorem nil : Tally [] {} where
  total := rfl
  outcome status := by cases status <;> rfl
  latency := rfl
  engine _ := rfl
  sender _ := rfl

/-- A recording adds one to each count it belongs to. -/
theorem snoc {records : List InterceptRecord} {metrics : InterceptMetrics}
    (h : Tally records metrics) (record : InterceptRecord) :
    Tally (records ++ [record]) (recordIntercept metrics record) where
  total := by
    rw [recordIntercept, InterceptMetrics.countEngine_frame,
      InterceptMetrics.countStatus_totalIntercepts, h.total, List.length_append,
      List.length_singleton]
  outcome status := by
    rw [recordIntercept, InterceptMetrics.countEngine_outcomes,
      InterceptMetrics.countStatus_outcomes, List.countP_append,
      List.countP_singleton, ← h.outcome]
    cases status <;> simp [InterceptMetrics.outcomes]
  latency := by
    rw [recordIntercept, InterceptMetrics.countEngine_frame,
      InterceptMetrics.countStatus_totalLatencyMs, h.latency, List.foldl_append]
    rfl
  engine name := by
    rw [recordIntercept, InterceptMetrics.lookup_countEngine,
      InterceptMetrics.countStatus_byEngine, h.engine, List.countP_append,
      List.countP_singleton]
    simp
  sender name := by
    rw [recordIntercept, InterceptMetrics.countEngine_frame,
      InterceptMetrics.countStatus_bySender, lookup_countUp, h.sender,
      List.countP_append, List.countP_singleton]
    simp

end Tally

end QwedA2A
