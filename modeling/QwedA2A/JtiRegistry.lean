/-
The replay registries.  `JtiRegistry` keeps one retention expiry per key and
sweeps lapsed slots on every registration; `ReplayRegistry` is the contract an
injected implementation has to meet, and the default one meets it.
-/
import QwedA2A.PyFloat
import QwedA2A.ExpiringTable

namespace QwedA2A

open ExpiringTable

/-- A retention expiry that has not been reached: an eviction at `now` leaves
the slot in place. -/
def Live (expiry : PyNum) (now : ℚ) : Prop := ¬ expiry ≤ PyNum.rat now

instance (expiry : PyNum) (now : ℚ) : Decidable (Live expiry now) :=
  inferInstanceAs (Decidable (¬ _))

theorem Live.earlier {expiry : PyNum} {now later : ℚ} (h : Live expiry later)
    (hle : now ≤ later) : Live expiry now :=
  fun hexpired => h (PyNum.le_trans hexpired (PyNum.rat_le_rat.mpr hle))

/-- Consumption-side contract of a replay registry: keyed slots with a
retention expiry. -/
class ReplayRegistry (R : Type) where
  ttlSeconds : R → ℚ
  held : R → PyStr → Option PyNum
  checkAndRegister : R → PyStr → ℚ → Option PyNum → Bool × R

/-- How long a slot has to be retained: the later of the window and the token's
own expiry. -/
def Covers (expiry windowEnd : PyNum) (validUntil : Option PyNum) : Prop :=
  ∀ time : ℚ,
    (.rat time < windowEnd ∨ ∃ limit, validUntil = some limit ∧ .rat time < limit) →
      Live expiry time

/-- Insert-if-absent, retention over the token's whole lifetime, and no live
slot ever evicted.  The window ends at a float, like the instants it is told. -/
class LawfulReplayRegistry (R : Type) [ReplayRegistry R] : Prop where
  accept_iff : ∀ (registry : R) key now validUntil,
    (ReplayRegistry.checkAndRegister registry key now validUntil).1 = true ↔
      ∀ expiry, ReplayRegistry.held registry key = some expiry →
        ¬ Live expiry now
  registered : ∀ (registry : R) key now validUntil,
    (ReplayRegistry.checkAndRegister registry key now validUntil).1 = true →
      ∃ expiry,
        ReplayRegistry.held
          (ReplayRegistry.checkAndRegister registry key now validUntil).2 key =
            some expiry ∧
        Covers expiry (toFloat (now + ReplayRegistry.ttlSeconds registry)) validUntil
  kept : ∀ (registry : R) key now validUntil other expiry,
    ReplayRegistry.held registry other = some expiry → Live expiry now →
      ReplayRegistry.held
        (ReplayRegistry.checkAndRegister registry key now validUntil).2 other =
          some expiry
  only : ∀ (registry : R) key now validUntil other expiry,
    ReplayRegistry.held
      (ReplayRegistry.checkAndRegister registry key now validUntil).2 other =
        some expiry →
      ReplayRegistry.held registry other = some expiry ∨
        (other = key ∧
          (ReplayRegistry.checkAndRegister registry key now validUntil).1 = true)
  ttl_kept : ∀ (registry : R) key now validUntil,
    ReplayRegistry.ttlSeconds
      (ReplayRegistry.checkAndRegister registry key now validUntil).2 =
        ReplayRegistry.ttlSeconds registry

/-- Thread-safe, TTL-based jti replay-prevention registry; the values are
retention expiries. -/
structure JtiRegistry where
  seen : Table PyStr PyNum := ∅
  ttl : ℚ := 300

namespace JtiRegistry

/-- Drop every entry whose retention expired, wherever it sits. -/
def evict (registry : JtiRegistry) (now : ℚ) : JtiRegistry :=
  { registry with
    seen := sweep (fun expiry => decide (expiry ≤ .rat now)) registry.seen }

/-- The later of TTL-expiry, which is a sum of floats, and the token's own expiry. -/
def retention (registry : JtiRegistry) (now : ℚ) (validUntil : Option PyNum) :
    PyNum :=
  let expiry := toFloat (now + registry.ttl)
  match validUntil with
  | none => expiry
  | some limit => if expiry < limit then limit else expiry

def checkAndRegister (registry : JtiRegistry) (jti : PyStr) (now : ℚ)
    (validUntil : Option PyNum) : Bool × JtiRegistry :=
  let registry := registry.evict now
  match registry.seen.lookup jti with
  | some _ => (false, registry)
  | none =>
      (true, { registry with
        seen := registry.seen.insert jti (registry.retention now validUntil) })

def release (registry : JtiRegistry) (jti : PyStr) : JtiRegistry :=
  { registry with seen := registry.seen.erase jti }

def held (registry : JtiRegistry) (jti : PyStr) : Option PyNum :=
  registry.seen.lookup jti

theorem held_evict (registry : JtiRegistry) (now : ℚ) (jti : PyStr) :
    (registry.evict now).held jti =
      (registry.held jti).filter fun expiry => decide (Live expiry now) := by
  simp only [held, evict, lookup_sweep]
  congr 1
  funext expiry
  rw [Bool.eq_iff_iff, Bool.not_eq_true', decide_eq_false_iff_not,
    decide_eq_true_iff, Live]

theorem held_release_ne (registry : JtiRegistry) {jti other : PyStr}
    (hne : other ≠ jti) : (registry.release jti).held other = registry.held other := by
  simp [held, release, AList.lookup_erase_ne hne]

theorem held_evict_eq_none_iff (registry : JtiRegistry) (now : ℚ) (jti : PyStr) :
    (registry.evict now).held jti = none ↔
      ∀ expiry, registry.held jti = some expiry → ¬ Live expiry now := by
  rw [held_evict, Option.filter_eq_none_iff]
  simp

/-- A registration that finds a live slot only evicts. -/
theorem checkAndRegister_of_held {registry : JtiRegistry} {jti : PyStr}
    {now : ℚ} {expiry : PyNum} (validUntil : Option PyNum)
    (hheld : registry.held jti = some expiry) (hlive : Live expiry now) :
    registry.checkAndRegister jti now validUntil =
      (false, registry.evict now) := by
  have hstill : (registry.evict now).seen.lookup jti = some expiry := by
    have h := held_evict registry now jti
    rw [hheld, Option.filter_some, if_pos (by simpa using hlive)] at h
    exact h
  simp [checkAndRegister, hstill]

theorem checkAndRegister_of_free {registry : JtiRegistry} {jti : PyStr}
    {now : ℚ} (validUntil : Option PyNum)
    (hfree : ∀ expiry, registry.held jti = some expiry → ¬ Live expiry now) :
    registry.checkAndRegister jti now validUntil =
      (true, { registry.evict now with
        seen := (registry.evict now).seen.insert jti
          (registry.retention now validUntil) }) := by
  have hnone : (registry.evict now).seen.lookup jti = none :=
    (held_evict_eq_none_iff registry now jti).mpr hfree
  simp only [checkAndRegister, hnone]
  rfl

theorem checkAndRegister_accept_iff (registry : JtiRegistry) (jti : PyStr)
    (now : ℚ) (validUntil : Option PyNum) :
    (registry.checkAndRegister jti now validUntil).1 = true ↔
      ∀ expiry, registry.held jti = some expiry → ¬ Live expiry now := by
  constructor
  · intro haccept expiry hheld hlive
    rw [checkAndRegister_of_held validUntil hheld hlive] at haccept
    exact Bool.false_ne_true haccept
  · intro hfree
    rw [checkAndRegister_of_free validUntil hfree]

/-- The slots after a registration, whatever its answer. -/
theorem held_checkAndRegister (registry : JtiRegistry) (jti : PyStr) (now : ℚ)
    (validUntil : Option PyNum) (other : PyStr) :
    (registry.checkAndRegister jti now validUntil).2.held other =
      if other = jti ∧
          (registry.checkAndRegister jti now validUntil).1 = true then
        some (registry.retention now validUntil)
      else
        (registry.held other).filter fun expiry => decide (Live expiry now) := by
  rw [← held_evict]
  by_cases hfree : ∀ expiry, registry.held jti = some expiry → ¬ Live expiry now
  · rw [checkAndRegister_of_free validUntil hfree]
    by_cases hother : other = jti
    · subst hother
      simp [held]
    · simp [held, hother, AList.lookup_insert_ne hother]
  · push Not at hfree
    obtain ⟨expiry, hheld, hlive⟩ := hfree
    rw [checkAndRegister_of_held validUntil hheld hlive]
    simp

@[simp] theorem checkAndRegister_ttl (registry : JtiRegistry) (jti : PyStr)
    (now : ℚ) (validUntil : Option PyNum) :
    (registry.checkAndRegister jti now validUntil).2.ttl = registry.ttl := by
  rw [checkAndRegister]
  cases (registry.evict now).seen.lookup jti with
  | none => rfl
  | some expiry => rfl

/-- The recorded expiry outlives both the window and the token. -/
theorem retention_covers (registry : JtiRegistry) (now : ℚ)
    (validUntil : Option PyNum) :
    Covers (registry.retention now validUntil) (toFloat (now + registry.ttl))
      validUntil := by
  intro time htime hexpired
  cases validUntil with
  | none =>
      rcases htime with hbefore | ⟨limit, hlimit, _⟩
      · exact PyNum.not_le_of_lt hbefore hexpired
      · cases hlimit
  | some limit =>
      simp only [retention] at hexpired
      split at hexpired
      next hlonger =>
        rcases htime with hbefore | ⟨found, hfound, hlive⟩
        · have hpast := PyNum.lt_of_lt_of_le hlonger hexpired
          exact PyNum.not_le_of_lt hbefore (PyNum.le_of_lt hpast)
        · cases hfound
          exact PyNum.not_le_of_lt hlive hexpired
      next hshorter =>
        rcases htime with hbefore | ⟨found, hfound, hlive⟩
        · exact PyNum.not_le_of_lt hbefore hexpired
        · cases hfound
          exact hshorter (PyNum.lt_of_le_of_lt hexpired hlive)

instance : ReplayRegistry JtiRegistry where
  ttlSeconds := ttl
  held := held
  checkAndRegister := checkAndRegister

instance : LawfulReplayRegistry JtiRegistry where
  accept_iff := checkAndRegister_accept_iff
  registered registry key now validUntil haccept := by
    refine ⟨registry.retention now validUntil, ?_,
      retention_covers registry now validUntil⟩
    have h := held_checkAndRegister registry key now validUntil key
    rw [if_pos ⟨rfl, haccept⟩] at h
    exact h
  kept registry key now validUntil other expiry hheld hlive := by
    change registry.held other = some expiry at hheld
    have h := held_checkAndRegister registry key now validUntil other
    split at h
    next hnew =>
      obtain ⟨rfl, haccept⟩ := hnew
      exact absurd hlive
        ((checkAndRegister_accept_iff registry other now validUntil).mp haccept
          expiry hheld)
    next =>
      rw [hheld, Option.filter_some, if_pos (by simpa using hlive)] at h
      exact h
  only registry key now validUntil other expiry hheld := by
    change (registry.checkAndRegister key now validUntil).2.held other =
      some expiry at hheld
    have h := held_checkAndRegister registry key now validUntil other
    split at h
    next hnew => exact Or.inr hnew
    next =>
      rw [h, Option.filter_eq_some_iff] at hheld
      exact Or.inl hheld.1
  ttl_kept := checkAndRegister_ttl

end JtiRegistry

end QwedA2A
