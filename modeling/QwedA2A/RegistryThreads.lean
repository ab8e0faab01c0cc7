/-
The replay registry under concurrent callers.  A registration reads its clock before
it takes the lock, so the calls come with readings in any order; what the registry
answers is said without assuming one.
-/
import QwedA2A.Monitor
import QwedA2A.JtiHistory

namespace QwedA2A

open EventRun ExpiringTable Monitor

namespace JtiRegistry

variable {ttl : ℚ}

/-- A registration that answered True and has been neither released nor swept since:
no reading of the registrations after it had reached its expiry. -/
def Retained (ttl : ℚ) (past : List JtiCall) (jti : PyStr) (expiry : PyNum) : Prop :=
  ∃ before time validUntil rest,
    past = before ++ .register jti time validUntil :: rest ∧
      answer ttl before jti time validUntil = true ∧ .release jti ∉ rest ∧
        expiry = (after ttl before).retention time validUntil ∧
          ∀ now ∈ rest.flatMap JtiCall.reads, Live expiry now

/-- One more call leaves the registrations that it neither releases nor sweeps, and one
that answers True makes one. -/
theorem retained_snoc {past : List JtiCall} {call : JtiCall} {jti : PyStr}
    {expiry : PyNum} :
    Retained ttl (past ++ [call]) jti expiry ↔
      (Retained ttl past jti expiry ∧ call ≠ .release jti ∧
        ∀ now ∈ call.reads, Live expiry now) ∨
        ∃ now validUntil, call = .register jti now validUntil ∧
          answer ttl past jti now validUntil = true ∧
            expiry = (after ttl past).retention now validUntil := by
  constructor
  · rintro ⟨before, time, validUntil, rest, hpast, haccept, hkept, hexpiry, hlive⟩
    rcases List.eq_nil_or_concat rest with rfl | ⟨rest, last, rfl⟩
    · obtain ⟨rfl, hlast⟩ := List.append_inj' hpast rfl
      cases hlast
      exact Or.inr ⟨time, validUntil, rfl, haccept, hexpiry⟩
    · rw [List.concat_eq_append, ← List.cons_append, ← List.append_assoc] at hpast
      obtain ⟨rfl, hlast⟩ := List.append_inj' hpast rfl
      cases hlast
      rw [List.concat_eq_append] at hkept hlive
      simp only [List.mem_append, List.mem_singleton, not_or] at hkept
      rw [List.flatMap_append, List.flatMap_singleton] at hlive
      refine Or.inl ⟨⟨before, time, validUntil, rest, rfl, haccept, hkept.1, hexpiry,
        fun now hnow => hlive now (List.mem_append_left _ hnow)⟩, ?_, ?_⟩
      · exact fun heq => hkept.2 heq.symm
      · exact fun now hnow => hlive now (List.mem_append_right _ hnow)
  · rintro (⟨⟨before, time, validUntil, rest, rfl, haccept, hkept, hexpiry, hlive⟩,
      hcall, hnow⟩ | ⟨now, validUntil, rfl, haccept, hexpiry⟩)
    · refine ⟨before, time, validUntil, rest ++ [call], by simp, haccept, ?_, hexpiry, ?_⟩
      · simp only [List.mem_append, List.mem_singleton, not_or]
        exact ⟨hkept, fun heq => hcall heq.symm⟩
      · intro found hfound
        rw [List.flatMap_append, List.flatMap_singleton] at hfound
        rcases List.mem_append.mp hfound with hold | hlast
        · exact hlive found hold
        · exact hnow found hlast
    · exact ⟨past, now, validUntil, [], rfl, haccept, by simp, hexpiry, by simp⟩

/-- The slots are exactly the retained registrations. -/
theorem held_iff_retained (ttl : ℚ) (past : List JtiCall) (jti : PyStr)
    (expiry : PyNum) :
    (after ttl past).held jti = some expiry ↔ Retained ttl past jti expiry := by
  induction past using List.reverseRecOn generalizing expiry with
  | nil =>
      constructor
      · intro hheld
        simp [after, final, held] at hheld
      · rintro ⟨before, _, _, _, hpast, _⟩
        simp at hpast
  | append_singleton past call ih =>
      rw [after_snoc, retained_snoc, ← ih]
      cases call with
      | release key =>
          rw [step]
          by_cases hkey : jti = key
          · subst hkey
            simp [held_release_self]
          · rw [held_release_ne _ hkey]
            simp [JtiCall.reads, Ne.symm hkey]
      | register key now validUntil =>
          rw [step, held_checkAndRegister]
          split_ifs with hnew
          · obtain ⟨rfl, haccept⟩ := hnew
            have hfree : ∀ found, (after ttl past).held jti = some found →
                ¬ Live found now :=
              (checkAndRegister_accept_iff _ _ _ _).mp haccept
            constructor
            · intro heq
              exact Or.inr ⟨now, validUntil, rfl, haccept, (Option.some.inj heq).symm⟩
            · rintro (⟨hheld, _, hlive⟩ | ⟨_, _, hcall, _, rfl⟩)
              · exact absurd (hlive now (by simp [JtiCall.reads])) (hfree expiry hheld)
              · cases hcall
                rfl
          · rw [Option.filter_eq_some_iff]
            constructor
            · rintro ⟨hheld, hlive⟩
              refine Or.inl ⟨hheld, by simp, ?_⟩
              simpa [JtiCall.reads] using hlive
            · rintro (⟨hheld, _, hlive⟩ | ⟨_, _, hcall, haccept, _⟩)
              · exact ⟨hheld, by simpa [JtiCall.reads] using hlive⟩
              · cases hcall
                exact absurd ⟨rfl, haccept⟩ hnew

/-- A registration is refused exactly on account of one that is still retained and
whose expiry its own reading has not reached. -/
theorem answer_eq_false_iff (ttl : ℚ) (past : List JtiCall) (jti : PyStr) (now : ℚ)
    (validUntil : Option PyNum) :
    answer ttl past jti now validUntil = false ↔
      ∃ expiry, Retained ttl past jti expiry ∧ Live expiry now := by
  rw [← Bool.not_eq_true, answer, checkAndRegister_accept_iff]
  push Not
  simp only [held_iff_retained]

/-- A key is registered again only after a release or a reading at or past the expiry of
its slot. -/
theorem second_registration {before between : List JtiCall} {jti : PyStr}
    {time now : ℚ} {validUntil validUntil' : Option PyNum}
    (hfirst : answer ttl before jti time validUntil = true)
    (hsecond : answer ttl (before ++ .register jti time validUntil :: between) jti now
      validUntil' = true) :
    .release jti ∈ between ∨
      ∃ reading ∈ between.flatMap JtiCall.reads ++ [now],
        ¬ StillToCome (time + ttl) validUntil reading := by
  by_contra hnone
  push Not at hnone
  obtain ⟨hkept, hlive⟩ := hnone
  have hall : ∀ reading ∈ between.flatMap JtiCall.reads ++ [now],
      Live ((after ttl before).retention time validUntil) reading := by
    intro reading hreading
    rw [live_retention_iff, after_ttl]
    exact hlive reading hreading
  have hrefused : answer ttl (before ++ .register jti time validUntil :: between) jti now
      validUntil' = false := by
    rw [answer_eq_false_iff]
    refine ⟨_, ⟨before, time, validUntil, between, rfl, hfirst, hkept, rfl, ?_⟩, ?_⟩
    · exact fun reading hreading => hall reading (List.mem_append_left _ hreading)
    · exact hall now (List.mem_append_right _ (List.mem_singleton_self now))
  rw [hsecond] at hrefused
  cases hrefused

end JtiRegistry

/-- The methods, with their arguments; a registration has read its clock. -/
inductive RegistryCall where
  | checkAndRegister (jti : PyStr) (now : ℚ) (validUntil : Option PyNum)
  | release (jti : PyStr)
  | len

/-- What they return. -/
inductive RegistryAnswer where
  | none
  | flag (registered : Bool)
  | length (entries : ℕ)

def RegistryCall.operation : RegistryCall → List Unit → List JtiCall
  | .checkAndRegister jti now validUntil, _ => [.register jti now validUntil]
  | .release jti, _ => [.release jti]
  | .len, _ => []

/-- What a call answers if it has the registry to itself. -/
def RegistryCall.answer (registry : JtiRegistry) :
    RegistryCall → List Unit → RegistryAnswer
  | .checkAndRegister jti now validUntil, _ =>
      .flag (registry.checkAndRegister jti now validUntil).1
  | .release _, _ => .none
  | .len, _ => .length registry.seen.entries.length

namespace JtiRegistry

/-- The body of each method, read by read and write by write. -/
def body : RegistryCall → Program JtiRegistry Unit RegistryAnswer
  | .checkAndRegister jti now validUntil =>
      .fetch fun registry =>
      .updates ((deadKeys (fun expiry => decide (expiry ≤ .rat now)) registry.seen).map
        fun jti registry => { registry with seen := registry.seen.erase jti }) <|
      .fetch fun registry =>
        if jti ∈ registry.seen then .answer (.flag false)
        else
          .fetch fun registry =>
          let expiry := registry.retention now validUntil
          .update (fun registry =>
            { registry with seen := registry.seen.insert jti expiry }) <|
          .answer (.flag true)
  | .release jti =>
      .update (fun registry => { registry with seen := registry.seen.erase jti }) <|
      .answer .none
  | .len => .fetch fun registry => .answer (.length registry.seen.entries.length)

theorem eraseSeen_eq (registry : JtiRegistry) (keys : List PyStr) :
    (keys.map fun jti (registry : JtiRegistry) =>
        { registry with seen := registry.seen.erase jti }).foldl
          (fun found change => change found) registry =
      { registry with seen := eraseAll registry.seen keys } := by
  induction keys generalizing registry with
  | nil => rfl
  | cons jti rest ih =>
      rw [List.map_cons, List.foldl_cons, ih]
      rfl

/-- On its own each body does what its method does. -/
theorem body_implements :
    Implements body step RegistryCall.operation RegistryCall.answer := by
  intro call registry next readings result h
  cases call with
  | release jti =>
      rw [body, Program.alone_update] at h
      obtain ⟨_, rfl, rfl⟩ := Program.alone_answer_eq_some h
      exact ⟨rfl, rfl⟩
  | len =>
      rw [body, Program.alone_fetch] at h
      obtain ⟨_, rfl, rfl⟩ := Program.alone_answer_eq_some h
      exact ⟨rfl, rfl⟩
  | checkAndRegister jti now validUntil =>
      rw [body, Program.alone_fetch, Program.alone_updates, eraseSeen_eq,
        Program.alone_fetch] at h
      change Program.alone (if jti ∈ (registry.evict now).seen then _ else _)
        (registry.evict now) readings = _ at h
      have hstep : final step registry [.register jti now validUntil] =
          (registry.checkAndRegister jti now validUntil).2 := rfl
      rw [RegistryCall.operation, hstep, RegistryCall.answer, checkAndRegister]
      split_ifs at h with hmem
      · obtain ⟨expiry, hexpiry⟩ :=
          Option.isSome_iff_exists.mp (AList.lookup_isSome.mpr hmem)
        obtain ⟨_, rfl, rfl⟩ := Program.alone_answer_eq_some h
        simp only [hexpiry]
        exact ⟨trivial, trivial⟩
      · rw [Program.alone_fetch, Program.alone_update] at h
        obtain ⟨_, rfl, rfl⟩ := Program.alone_answer_eq_some h
        simp only [AList.lookup_eq_none.mpr hmem]
        exact ⟨trivial, trivial⟩

end JtiRegistry

/-- A step of some thread. -/
abbrev RegistryEvent := Monitor.Event Unit RegistryCall

/-- A call that has left the registry. -/
abbrev RegistryEntry := Monitor.Entry Unit RegistryAnswer RegistryCall

def registryAfter (ttl : ℚ) (run : List RegistryEvent) :
    Monitor.State JtiRegistry Unit RegistryAnswer RegistryCall :=
  Monitor.after JtiRegistry.body { seen := ∅, ttl } run

/-- The logged calls as calls of the sequential registry. -/
def registryCalls (log : List RegistryEntry) : List JtiCall :=
  Monitor.operations RegistryCall.operation log

section Threads

variable {ttl : ℚ} {run : List RegistryEvent}

theorem registryAfter_answer {caller : ℕ} {call : RegistryCall} {result : RegistryAnswer}
    (h : (registryAfter ttl run).call caller = .returned call result) :
    ∃ before readings rest,
      (registryAfter ttl run).log = before ++ ⟨caller, call, readings, result⟩ :: rest ∧
      result = call.answer (.after ttl (registryCalls before)) readings :=
  JtiRegistry.body_implements.answered h

/-- A reading that a logged registration brought was brought by a call. -/
theorem entered_of_reads {log : List RegistryEntry} {now : ℚ}
    (hlog : ∀ entry ∈ log, .enter entry.caller entry.method ∈ run)
    (h : now ∈ (registryCalls log).flatMap JtiCall.reads) :
    ∃ caller jti validUntil,
      .enter caller (.checkAndRegister jti now validUntil) ∈ run := by
  obtain ⟨call, hcall, hnow⟩ := List.mem_flatMap.mp h
  obtain ⟨⟨caller, method, readings, result⟩, hentry, hmethod⟩ := List.mem_flatMap.mp hcall
  have hentered := hlog _ hentry
  cases method with
  | checkAndRegister jti read validUntil =>
      cases List.mem_singleton.mp hmethod
      cases List.mem_singleton.mp hnow
      exact ⟨caller, jti, validUntil, hentered⟩
  | release jti =>
      cases List.mem_singleton.mp hmethod
      cases hnow
  | len => cases hmethod

theorem entered_of_release {log : List RegistryEntry} {jti : PyStr}
    (hlog : ∀ entry ∈ log, .enter entry.caller entry.method ∈ run)
    (h : .release jti ∈ registryCalls log) :
    ∃ caller, .enter caller (.release jti) ∈ run := by
  obtain ⟨⟨caller, method, readings, result⟩, hentry, hmethod⟩ := List.mem_flatMap.mp h
  have hentered := hlog _ hentry
  cases method with
  | checkAndRegister key now validUntil => cases List.mem_singleton.mp hmethod
  | release key =>
      cases List.mem_singleton.mp hmethod
      exact ⟨caller, hentered⟩
  | len => cases hmethod

/-- Of two calls that both registered a key, the one that left first was released, or
its expiry was reached by a reading. -/
theorem registered_twice {caller caller' : ℕ} {jti : PyStr} {time time' : ℚ}
    {validUntil validUntil' : Option PyNum} {readings readings' : List Unit}
    {before between rest : List RegistryEntry}
    (hlog : (registryAfter ttl run).log = before ++
      ⟨caller, .checkAndRegister jti time validUntil, readings, .flag true⟩ :: between ++
      ⟨caller', .checkAndRegister jti time' validUntil', readings', .flag true⟩ :: rest) :
    (∃ other, .enter other (.release jti) ∈ run) ∨
      ∃ other key now limit, .enter other (.checkAndRegister key now limit) ∈ run ∧
        ¬ JtiRegistry.StillToCome (time + ttl) validUntil now := by
  have hentered : ∀ entry ∈ (registryAfter ttl run).log,
      .enter entry.caller entry.method ∈ run := fun _ => Monitor.entered_of_log
  have hcalls : registryCalls (before ++
      ⟨caller, .checkAndRegister jti time validUntil, readings, .flag true⟩ :: between) =
        registryCalls before ++ .register jti time validUntil :: registryCalls between := by
    rw [registryCalls, registryCalls, registryCalls, operations, operations, operations,
      List.flatMap_append, List.flatMap_cons]
    rfl
  have hfirst : JtiRegistry.answer ttl (registryCalls before) jti time validUntil =
      true := by
    have hlogged := JtiRegistry.body_implements.logged
      (hlog.trans (List.append_assoc _ _ _))
    exact (RegistryAnswer.flag.inj hlogged).symm
  have hsecond : JtiRegistry.answer ttl (registryCalls before ++
      .register jti time validUntil :: registryCalls between) jti time' validUntil' =
        true := by
    have hlogged := JtiRegistry.body_implements.logged hlog
    rw [← hcalls]
    exact (RegistryAnswer.flag.inj hlogged).symm
  rw [hlog] at hentered
  rcases JtiRegistry.second_registration hfirst hsecond with
    hrelease | ⟨reading, hreading, hpast⟩
  · left
    apply entered_of_release _ hrelease
    intro entry hentry
    exact hentered entry (by simp [hentry])
  · right
    rcases List.mem_append.mp hreading with hbetween | hlast
    · obtain ⟨other, key, limit, hother⟩ : ∃ other key limit,
          .enter other (.checkAndRegister key reading limit) ∈ run := by
        apply entered_of_reads _ hbetween
        intro entry hentry
        exact hentered entry (by simp [hentry])
      exact ⟨other, key, reading, limit, hother, hpast⟩
    · obtain rfl := List.mem_singleton.mp hlast
      refine ⟨caller', jti, reading, validUntil', ?_, hpast⟩
      exact hentered _ (List.mem_append_right _ List.mem_cons_self)

end Threads

/-- However concurrent calls of one registry interleave, and whatever their clocks have
shown them before they came to the lock: each answers as it would alone after the calls
that left before it; a registration is refused exactly on account of one that has been
neither released nor reached, at its expiry, by a reading since; so two callers register
one key only if some call releases it or some reading is at or past the expiry of the
one or the other; and no call is stuck. -/
theorem registry_calls_serialise (ttl : ℚ) (run : List RegistryEvent) :
    (∀ caller call result,
      (registryAfter ttl run).call caller = .returned call result →
        .enter caller call ∈ run ∧ ∃ before readings rest,
          (registryAfter ttl run).log =
            before ++ ⟨caller, call, readings, result⟩ :: rest ∧
          result = call.answer (.after ttl (registryCalls before)) readings ∧
          ∀ jti now validUntil registered,
            call = .checkAndRegister jti now validUntil →
              result = .flag registered →
                (registered = false ↔ ∃ expiry,
                  JtiRegistry.Retained ttl (registryCalls before) jti expiry ∧
                    Live expiry now)) ∧
    ((registryAfter ttl run).holder = none →
      (registryAfter ttl run).shared =
        .after ttl (registryCalls (registryAfter ttl run).log)) ∧
    (∀ caller caller' jti time time' validUntil validUntil',
      caller ≠ caller' →
        (registryAfter ttl run).call caller =
          .returned (.checkAndRegister jti time validUntil) (.flag true) →
        (registryAfter ttl run).call caller' =
          .returned (.checkAndRegister jti time' validUntil') (.flag true) →
        (∃ other, .enter other (.release jti) ∈ run) ∨
          ∃ other key now limit, .enter other (.checkAndRegister key now limit) ∈ run ∧
            (¬ JtiRegistry.StillToCome (time + ttl) validUntil now ∨
              ¬ JtiRegistry.StillToCome (time' + ttl) validUntil' now)) ∧
    ∀ caller call, ((registryAfter ttl run).call caller).method = some call →
      ∃ later result,
        (registryAfter ttl (run ++ later)).call caller = .returned call result := by
  refine ⟨?_, JtiRegistry.body_implements.shared, ?_, fun caller call hcall =>
    Monitor.can_return JtiRegistry.body _ run hcall⟩
  · intro caller call result hreturned
    obtain ⟨before, readings, rest, hlog, hanswer⟩ := registryAfter_answer hreturned
    refine ⟨?_, before, readings, rest, hlog, hanswer, ?_⟩
    · have hmem : (⟨caller, call, readings, result⟩ : RegistryEntry) ∈
          (registryAfter ttl run).log := by
        rw [hlog]
        simp
      exact Monitor.entered_of_log hmem
    · rintro jti now validUntil registered rfl rfl
      rw [RegistryAnswer.flag.inj hanswer]
      exact JtiRegistry.answer_eq_false_iff ttl _ jti now validUntil
  · intro caller caller' jti time time' validUntil validUntil' hne hreturned hreturned'
    obtain ⟨before, readings, rest, hlog, _⟩ := registryAfter_answer hreturned
    obtain ⟨before', readings', rest', hlog', _⟩ := registryAfter_answer hreturned'
    rcases Monitor.log_order hlog hlog' hne with
      ⟨between, hboth⟩ | ⟨between, hboth⟩
    · rcases registered_twice hboth with hrelease | ⟨other, key, now, limit, hother, hpast⟩
      · exact Or.inl hrelease
      · exact Or.inr ⟨other, key, now, limit, hother, Or.inl hpast⟩
    · rcases registered_twice hboth with hrelease | ⟨other, key, now, limit, hother, hpast⟩
      · exact Or.inl hrelease
      · exact Or.inr ⟨other, key, now, limit, hother, Or.inr hpast⟩

end QwedA2A
