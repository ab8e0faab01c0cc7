/-
The replay registry against its own history.  Slots lapse in another order than
they were made, and a sweep happens only when something is registered; what the
registry holds is nevertheless what the calls so far say.
-/
import QwedA2A.JtiRegistry
import QwedA2A.EventRun

namespace QwedA2A

open EventRun

/-- The calls on a registry. -/
inductive JtiCall where
  | register (jti : PyStr) (now : ℚ) (validUntil : Option PyNum)
  | release (jti : PyStr)

def JtiCall.reads : JtiCall → List ℚ
  | .register _ now _ => [now]
  | .release _ => []

namespace JtiRegistry

def step (registry : JtiRegistry) : JtiCall → JtiRegistry
  | .register jti now validUntil => (registry.checkAndRegister jti now validUntil).2
  | .release jti => registry.release jti

def after (ttl : ℚ) (calls : List JtiCall) : JtiRegistry :=
  final step { ttl } calls

def answer (ttl : ℚ) (past : List JtiCall) (jti : PyStr) (now : ℚ)
    (validUntil : Option PyNum) : Bool :=
  ((after ttl past).checkAndRegister jti now validUntil).1

/-- The later of the window's end and the token's expiry is still to come.  The
window ends at the float nearest to the sum. -/
def StillToCome (windowEnd : ℚ) (validUntil : Option PyNum) (now : ℚ) : Prop :=
  .rat now < toFloat windowEnd ∨ ∃ limit, validUntil = some limit ∧ .rat now < limit

/-- The same, of a window that ends at the sum itself. -/
def StillToComeExactly (windowEnd : ℚ) (validUntil : Option PyNum) (now : ℚ) : Prop :=
  now < windowEnd ∨ ∃ limit, validUntil = some limit ∧ .rat now < limit

/-- An earlier call registered the key at some time, nothing has released it since,
and the later of the window's end and the token's expiry is still to come. -/
def LiveRegistration (ttl : ℚ) (past : List JtiCall) (jti : PyStr) (now : ℚ) : Prop :=
  ∃ before time validUntil rest,
    past = before ++ .register jti time validUntil :: rest ∧
      answer ttl before jti time validUntil = true ∧ .release jti ∉ rest ∧
        StillToComeExactly (time + ttl) validUntil now

/-- No registration's window ends, by rounding, on the other side of a reading taken
then or later: where the token does not outlive that reading, it is before the sum
exactly when it is before the float. -/
def RoundedHarmlessly (ttl : ℚ) (calls : List JtiCall) : Prop :=
  ∀ jti time validUntil, .register jti time validUntil ∈ calls →
    ∀ now ∈ calls.flatMap JtiCall.reads, time ≤ now →
      (StillToCome (time + ttl) validUntil now ↔
        StillToComeExactly (time + ttl) validUntil now)

variable {ttl : ℚ}

theorem after_snoc (past : List JtiCall) (call : JtiCall) :
    after ttl (past ++ [call]) = (after ttl past).step call :=
  final_snoc step _ past call

@[simp] theorem after_ttl (past : List JtiCall) : (after ttl past).ttl = ttl := by
  induction past using List.reverseRecOn with
  | nil => rfl
  | append_singleton past call ih =>
      rw [after_snoc]
      cases call with
      | register jti now validUntil =>
          rw [step, checkAndRegister_ttl, ih]
      | release jti => exact ih

/-- A slot's expiry is after an instant when the window's end or the token's own
expiry is. -/
theorem live_retention_iff (registry : JtiRegistry) (time now : ℚ)
    (validUntil : Option PyNum) :
    Live (registry.retention time validUntil) now ↔
      StillToCome (time + registry.ttl) validUntil now := by
  refine ⟨fun hlive => ?_, registry.retention_covers time validUntil now⟩
  have hsum := toFloat_ne_nan (time + registry.ttl)
  cases validUntil with
  | none => exact Or.inl (PyNum.lt_of_not_le hsum hlive)
  | some limit =>
      simp only [retention] at hlive
      split at hlive
      next hlonger =>
        have hlimit : limit ≠ .nan := fun hnan => PyNum.not_lt_nan _ (hnan ▸ hlonger)
        exact Or.inr ⟨limit, rfl, PyNum.lt_of_not_le hlimit hlive⟩
      next => exact Or.inl (PyNum.lt_of_not_le hsum hlive)

/-- A registration that answered True and has not been released, with the expiry
its slot was given. -/
def Reserved (ttl : ℚ) (past : List JtiCall) (jti : PyStr) (expiry : PyNum) : Prop :=
  ∃ before time validUntil rest,
    past = before ++ .register jti time validUntil :: rest ∧
      answer ttl before jti time validUntil = true ∧ .release jti ∉ rest ∧
        expiry = (after ttl before).retention time validUntil

/-- Where no sum is rounded across a reading, the live registrations are those whose
slots are live. -/
theorem liveRegistration_iff {past : List JtiCall} {jti : PyStr} {now : ℚ}
    (hrounded : ∀ time validUntil, .register jti time validUntil ∈ past →
      (StillToCome (time + ttl) validUntil now ↔
        StillToComeExactly (time + ttl) validUntil now)) :
    LiveRegistration ttl past jti now ↔
      ∃ expiry, Reserved ttl past jti expiry ∧ Live expiry now := by
  constructor
  · rintro ⟨before, time, validUntil, rest, hpast, haccept, hkept, hcoming⟩
    refine ⟨_, ⟨before, time, validUntil, rest, hpast, haccept, hkept, rfl⟩, ?_⟩
    rw [live_retention_iff, after_ttl, hrounded time validUntil (by simp [hpast])]
    exact hcoming
  · rintro ⟨_, ⟨before, time, validUntil, rest, hpast, haccept, hkept, rfl⟩, hlive⟩
    rw [live_retention_iff, after_ttl, hrounded time validUntil (by simp [hpast])] at hlive
    exact ⟨before, time, validUntil, rest, hpast, haccept, hkept, hlive⟩

/-- One more call leaves the reservations it does not release, and a registration
that answers True makes one. -/
theorem reserved_snoc {past : List JtiCall} {call : JtiCall} {jti : PyStr}
    {expiry : PyNum} :
    Reserved ttl (past ++ [call]) jti expiry ↔
      Reserved ttl past jti expiry ∧ call ≠ .release jti ∨
        ∃ now validUntil, call = .register jti now validUntil ∧
          answer ttl past jti now validUntil = true ∧
            expiry = (after ttl past).retention now validUntil := by
  constructor
  · rintro ⟨before, time, validUntil, rest, hpast, haccept, hkept, hexpiry⟩
    rcases List.eq_nil_or_concat rest with rfl | ⟨rest, last, rfl⟩
    · obtain ⟨rfl, hlast⟩ := List.append_inj' hpast rfl
      cases hlast
      exact Or.inr ⟨time, validUntil, rfl, haccept, hexpiry⟩
    · rw [List.concat_eq_append, ← List.cons_append, ← List.append_assoc] at hpast
      obtain ⟨rfl, hlast⟩ := List.append_inj' hpast rfl
      cases hlast
      simp only [List.concat_eq_append, List.mem_append, List.mem_singleton, not_or] at hkept
      exact Or.inl ⟨⟨before, time, validUntil, rest, rfl, haccept, hkept.1, hexpiry⟩,
        fun heq => hkept.2 heq.symm⟩
  · rintro (⟨⟨before, time, validUntil, rest, rfl, haccept, hkept, hexpiry⟩, hcall⟩ |
      ⟨now, validUntil, rfl, haccept, hexpiry⟩)
    · refine ⟨before, time, validUntil, rest ++ [call], by simp, haccept, ?_, hexpiry⟩
      simp only [List.mem_append, List.mem_singleton, not_or]
      exact ⟨hkept, fun heq => hcall heq.symm⟩
    · exact ⟨past, now, validUntil, [], rfl, haccept, by simp, hexpiry⟩

/-- A run's slots are reservations, and a reservation not yet lapsed at any reading
still has its slot. -/
structure Faithful (ttl : ℚ) (past : List JtiCall) : Prop where
  reserved : ∀ jti expiry, (after ttl past).held jti = some expiry →
    Reserved ttl past jti expiry
  kept : ∀ jti expiry, Reserved ttl past jti expiry →
    (∀ time ∈ past.flatMap JtiCall.reads, Live expiry time) →
      (after ttl past).held jti = some expiry

theorem Faithful.nil (ttl : ℚ) : Faithful ttl [] where
  reserved _ _ hheld := by simp [after, final, held] at hheld
  kept _ _ h _ := by
    obtain ⟨before, _, _, _, hpast, -⟩ := h
    simp at hpast

theorem held_release_self (registry : JtiRegistry) (jti : PyStr) :
    (registry.release jti).held jti = none := by
  simp [held, release]

theorem Faithful.register {past : List JtiCall} (h : Faithful ttl past) (key : PyStr)
    (now : ℚ) (validUntil : Option PyNum) :
    Faithful ttl (past ++ [.register key now validUntil]) := by
  have hslot : ∀ jti, (after ttl (past ++ [.register key now validUntil])).held jti =
      if jti = key ∧ answer ttl past key now validUntil = true then
        some ((after ttl past).retention now validUntil)
      else ((after ttl past).held jti).filter fun expiry => decide (Live expiry now) := by
    intro jti
    rw [after_snoc, step, held_checkAndRegister]
    rfl
  refine ⟨fun jti expiry hheld => ?_, fun jti expiry hreserved hlive => ?_⟩
  · rw [hslot] at hheld
    split_ifs at hheld with hnew
    · obtain ⟨rfl, haccept⟩ := hnew
      exact reserved_snoc.mpr (Or.inr ⟨now, validUntil, rfl, haccept,
        (Option.some.inj hheld).symm⟩)
    · rw [Option.filter_eq_some_iff] at hheld
      exact reserved_snoc.mpr (Or.inl ⟨h.reserved jti expiry hheld.1, by simp⟩)
  · rw [hslot]
    rw [List.flatMap_append, List.flatMap_singleton] at hlive
    rcases reserved_snoc.mp hreserved with ⟨hpast, -⟩ | ⟨_, _, hcall, haccept, rfl⟩
    · have hnow : Live expiry now := hlive now (List.mem_append_right _ (by simp [JtiCall.reads]))
      have hheld : (after ttl past).held jti = some expiry :=
        h.kept jti expiry hpast fun time hmem => hlive time (List.mem_append_left _ hmem)
      have hold : ¬ (jti = key ∧ answer ttl past key now validUntil = true) := by
        rintro ⟨rfl, haccept⟩
        exact (checkAndRegister_accept_iff _ _ _ _).mp haccept expiry hheld hnow
      rw [if_neg hold, hheld, Option.filter_some, if_pos (by simpa using hnow)]
    · cases hcall
      rw [if_pos ⟨rfl, haccept⟩]

theorem Faithful.release {past : List JtiCall} (h : Faithful ttl past) (key : PyStr) :
    Faithful ttl (past ++ [.release key]) := by
  refine ⟨fun jti expiry hheld => ?_, fun jti expiry hreserved hlive => ?_⟩
  · rw [after_snoc, step] at hheld
    have hne : jti ≠ key := by
      rintro rfl
      rw [held_release_self] at hheld
      cases hheld
    rw [held_release_ne _ hne] at hheld
    refine reserved_snoc.mpr (Or.inl ⟨h.reserved jti expiry hheld, ?_⟩)
    simpa using hne.symm
  · rcases reserved_snoc.mp hreserved with ⟨hpast, hcall⟩ | ⟨_, _, hcall, -⟩
    · have hne : jti ≠ key := by
        rintro rfl
        exact hcall rfl
      rw [after_snoc, step, held_release_ne _ hne]
      refine h.kept jti expiry hpast fun time hmem => hlive time ?_
      rw [List.flatMap_append]
      exact List.mem_append_left _ hmem
    · cases hcall

theorem faithful_after (ttl : ℚ) (past : List JtiCall) : Faithful ttl past := by
  induction past using List.reverseRecOn with
  | nil => exact .nil ttl
  | append_singleton past call ih =>
      cases call with
      | register jti now validUntil => exact ih.register jti now validUntil
      | release jti => exact ih.release jti

/-- At a reading no earlier than any before, a live slot is held exactly for the live
registrations. -/
theorem exists_live_held_iff {past : List JtiCall} {jti : PyStr} {now : ℚ}
    (hclock : ∀ time ∈ past.flatMap JtiCall.reads, time ≤ now)
    (hrounded : ∀ time validUntil, .register jti time validUntil ∈ past →
      (StillToCome (time + ttl) validUntil now ↔
        StillToComeExactly (time + ttl) validUntil now)) :
    (∃ expiry, (after ttl past).held jti = some expiry ∧ Live expiry now) ↔
      LiveRegistration ttl past jti now := by
  rw [liveRegistration_iff hrounded]
  constructor
  · rintro ⟨expiry, hheld, hlive⟩
    exact ⟨expiry, (faithful_after ttl past).reserved jti expiry hheld, hlive⟩
  · rintro ⟨expiry, hreserved, hlive⟩
    exact ⟨expiry, (faithful_after ttl past).kept jti expiry hreserved
      fun time hmem => hlive.earlier (hclock time hmem), hlive⟩

/-- After a registration whose own slot is live every slot is. -/
theorem live_of_held_register {past : List JtiCall} {key jti : PyStr} {now : ℚ}
    {validUntil : Option PyNum} {expiry : PyNum}
    (hnew : StillToCome (now + ttl) validUntil now)
    (hheld : (after ttl (past ++ [.register key now validUntil])).held jti = some expiry) :
    Live expiry now := by
  rw [after_snoc, step, held_checkAndRegister] at hheld
  split_ifs at hheld with hmade
  · cases hheld
    rwa [live_retention_iff, after_ttl]
  · rw [Option.filter_eq_some_iff] at hheld
    simpa using hheld.2

end JtiRegistry

end QwedA2A
