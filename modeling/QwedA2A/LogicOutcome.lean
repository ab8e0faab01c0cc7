/-
What the logic guard decides.  The loop is read through what each assertion says;
the outcome then depends on the set of assertions and not on their order.
-/
import QwedA2A.LogicGuard

namespace QwedA2A

section Assertions

variable (ud : UnicodeData)

/-- The assertion is a mapping that says the key, plainly or negated. -/
def Says (assertion : PyVal) (key : PyStr) (negated : Bool) : Prop :=
  ∃ entries claim, assertion = .dict entries ∧
    dictGet entries (py "claim") = some (.str claim) ∧
    normalizeClaim ud claim = key ∧ key ≠ [] ∧
    (dictGet entries (py "negated")).getD (.bool false) = .bool negated

/-- The assertion is no mapping, has a claim that is no string or normalizes to
nothing, or a polarity that is no boolean. -/
def Malformed (assertion : PyVal) : Prop :=
  (∀ entries, assertion ≠ .dict entries) ∨
    ∃ entries, assertion = .dict entries ∧
      ((∀ claim, dictGet entries (py "claim") = some (.str claim) →
          normalizeClaim ud claim = []) ∨
        ∃ value, dictGet entries (py "negated") = some value ∧
          ∀ negated, value ≠ .bool negated)

/-- The payload's assertions are not a non-empty list of well-formed entries. -/
def Unreadable (payload : PyDict) : Prop :=
  ∀ assertions, dictGet payload (py "assertions") = some (.list assertions) →
    assertions = [] ∨ ∃ assertion ∈ assertions, Malformed ud assertion

/-- Two entries say the key with opposite polarity. -/
def Contradicted (payload : PyDict) (key : PyStr) : Prop :=
  ∃ assertions, dictGet payload (py "assertions") = some (.list assertions) ∧
    (∃ assertion ∈ assertions, Says ud assertion key false) ∧
    ∃ assertion ∈ assertions, Says ud assertion key true

/-- Both payloads list the same assertions, in any order and any number of
times. -/
def SameAssertions (payload other : PyDict) : Prop :=
  ∃ assertions assertions',
    dictGet payload (py "assertions") = some (.list assertions) ∧
    dictGet other (py "assertions") = some (.list assertions') ∧
    ∀ assertion, assertion ∈ assertions ↔ assertion ∈ assertions'

end Assertions

variable {ud : UnicodeData}

theorem Says.not_malformed {assertion : PyVal} {key : PyStr} {negated : Bool}
    (h : Says ud assertion key negated) : ¬ Malformed ud assertion := by
  obtain ⟨entries, claim, rfl, hclaim, hkey, hne, hnegated⟩ := h
  rintro (hmapping | ⟨_, heq, hempty | ⟨value, hvalue, hbool⟩⟩)
  · exact hmapping entries rfl
  · cases heq
    exact hne (hkey ▸ hempty claim hclaim)
  · cases heq
    rw [hvalue, Option.getD_some] at hnegated
    exact hbool negated hnegated

/-- The claim's key and polarity enter one of the two sets. -/
def Claims.record (claims : Claims) (key : PyStr) : Bool → Claims
  | true => { claims with negative := key :: claims.negative }
  | false => { claims with positive := key :: claims.positive }

/-- The key is held with this polarity. -/
def Claims.Has (claims : Claims) (key : PyStr) : Bool → Prop
  | true => key ∈ claims.negative
  | false => key ∈ claims.positive

theorem Claims.has_record {claims : Claims} {key key' : PyStr}
    {negated negated' : Bool} :
    (claims.record key negated).Has key' negated' ↔
      (key' = key ∧ negated' = negated) ∨ claims.Has key' negated' := by
  cases negated <;> cases negated' <;> simp [record, Has]

/-- A well-formed assertion adds what it says; any other ends the run. -/
theorem addAssertion_spec (ud : UnicodeData) (claims : Claims) (assertion : PyVal) :
    (∃ key negated, Says ud assertion key negated ∧
        addAssertion ud claims assertion = .ok (claims.record key negated)) ∨
      (Malformed ud assertion ∧ ∃ reason,
        addAssertion ud claims assertion = .error (logicUnverifiable reason)) := by
  cases assertion with
  | dict entries =>
      by_cases hempty : claimKey ud entries = []
      · refine Or.inr ⟨Or.inr ⟨entries, rfl, Or.inl ?_⟩, ⟨_, if_pos hempty⟩⟩
        intro claim hclaim
        rwa [claimKey, hclaim] at hempty
      · obtain ⟨claim, hclaim⟩ : ∃ claim,
            dictGet entries (py "claim") = some (.str claim) := by
          rw [claimKey] at hempty
          split at hempty
          next claim hclaim => exact ⟨claim, hclaim⟩
          next => exact absurd rfl hempty
        have hkey : normalizeClaim ud claim = claimKey ud entries := by
          rw [claimKey, hclaim]
        rw [addAssertion, if_neg hempty]
        split
        next htrue =>
          exact Or.inl ⟨_, true, ⟨entries, claim, rfl, hclaim, hkey, hempty, htrue⟩,
            rfl⟩
        next hfalse =>
          exact Or.inl ⟨_, false, ⟨entries, claim, rfl, hclaim, hkey, hempty, hfalse⟩,
            rfl⟩
        next htrue hfalse =>
          refine Or.inr ⟨Or.inr ⟨entries, rfl, Or.inr ?_⟩, ⟨_, rfl⟩⟩
          cases hvalue : dictGet entries (py "negated") with
          | none => exact absurd (by rw [hvalue]; rfl) hfalse
          | some value =>
              refine ⟨value, rfl, fun negated => ?_⟩
              rintro rfl
              cases negated
              · exact hfalse (by rw [hvalue]; rfl)
              · exact htrue (by rw [hvalue]; rfl)
  | _ => exact Or.inr ⟨Or.inl fun entries => PyVal.noConfusion, ⟨_, rfl⟩⟩

theorem Says.unique {assertion : PyVal} {key key' : PyStr} {negated negated' : Bool}
    (h : Says ud assertion key negated) (h' : Says ud assertion key' negated') :
    key' = key ∧ negated' = negated := by
  obtain ⟨entries, claim, rfl, hclaim, rfl, -, hnegated⟩ := h
  obtain ⟨_, claim', heq, hclaim', rfl, -, hnegated'⟩ := h'
  cases heq
  rw [hclaim] at hclaim'
  cases hclaim'
  rw [hnegated] at hnegated'
  cases hnegated'
  exact ⟨rfl, rfl⟩

/-- The whole loop: a malformed entry at any position decides it, and otherwise
the two sets hold what the entries say. -/
theorem foldlM_addAssertion (ud : UnicodeData) (assertions : List PyVal) (claims : Claims) :
    ((∃ assertion ∈ assertions, Malformed ud assertion) ∧ ∃ reason,
        assertions.foldlM (addAssertion ud) claims =
          .error (logicUnverifiable reason)) ∨
      ((¬ ∃ assertion ∈ assertions, Malformed ud assertion) ∧ ∃ final,
        assertions.foldlM (addAssertion ud) claims = .ok final ∧
        ∀ key negated, final.Has key negated ↔
          claims.Has key negated ∨
            ∃ assertion ∈ assertions, Says ud assertion key negated) := by
  induction assertions generalizing claims with
  | nil => exact Or.inr ⟨by simp, claims, rfl, by simp⟩
  | cons assertion rest ih =>
      rw [List.foldlM_cons]
      rcases addAssertion_spec ud claims assertion with
        ⟨key, negated, hsaid, hadd⟩ | ⟨hmalformed, reason, hadd⟩
      · rw [hadd, ok_bind]
        rcases ih (claims.record key negated) with
          ⟨⟨bad, hbad, hmalformed⟩, hrest⟩ | ⟨hclean, final, hfinal, hhas⟩
        · exact Or.inl ⟨⟨bad, List.mem_cons_of_mem _ hbad, hmalformed⟩, hrest⟩
        · refine Or.inr ⟨?_, final, hfinal, fun key' negated' => ?_⟩
          · rw [List.exists_mem_cons_iff]
            exact not_or.mpr ⟨hsaid.not_malformed, hclean⟩
          · rw [hhas, Claims.has_record, List.exists_mem_cons_iff]
            have hfirst : Says ud assertion key' negated' ↔
                key' = key ∧ negated' = negated :=
              ⟨hsaid.unique, fun h => by obtain ⟨rfl, rfl⟩ := h; exact hsaid⟩
            rw [hfirst]
            tauto
      · exact Or.inl ⟨⟨assertion, List.mem_cons_self, hmalformed⟩, reason, by
          rw [hadd]; rfl⟩

/-- The reported keys are those held with both polarities, each once and in
order. -/
theorem Claims.mem_contradictions {claims : Claims} {key : PyStr} :
    key ∈ claims.contradictions ↔ claims.Has key false ∧ claims.Has key true := by
  simp [contradictions, Has, List.mem_insertionSort]

theorem Claims.contradictions_sorted (claims : Claims) :
    claims.contradictions.Pairwise (· < ·) := by
  have hle : claims.contradictions.Pairwise (· ≤ ·) :=
    List.pairwise_insertionSort (· ≤ ·) _
  have hne : claims.contradictions.Nodup :=
    (List.perm_insertionSort (· ≤ ·) _).nodup_iff.mpr (List.nodup_dedup _)
  exact (hle.and hne).imp fun h => lt_of_le_of_ne h.1 h.2

/-- A strictly ordered list is determined by its members. -/
theorem eq_of_strictly_sorted {keys keys' : List PyStr}
    (hkeys : keys.Pairwise (· < ·)) (hkeys' : keys'.Pairwise (· < ·))
    (hsame : ∀ key, key ∈ keys ↔ key ∈ keys') : keys = keys' :=
  List.Perm.eq_of_pairwise' (hkeys.imp le_of_lt) (hkeys'.imp le_of_lt)
    ((List.perm_ext_iff_of_nodup (hkeys.imp ne_of_lt) (hkeys'.imp ne_of_lt)).mpr
      hsame)

theorem not_unreadable {payload : PyDict} {assertions : List PyVal}
    (hassertions : dictGet payload (py "assertions") = some (.list assertions)) :
    ¬ Unreadable ud payload ↔
      assertions ≠ [] ∧ ¬ ∃ assertion ∈ assertions, Malformed ud assertion := by
  rw [← not_or, not_iff_not]
  refine ⟨fun h => h assertions hassertions, fun h other hother => ?_⟩
  rw [hassertions] at hother
  cases hother
  exact h

theorem contradicted_iff {payload : PyDict} {assertions : List PyVal}
    (hassertions : dictGet payload (py "assertions") = some (.list assertions))
    {key : PyStr} :
    Contradicted ud payload key ↔
      (∃ assertion ∈ assertions, Says ud assertion key false) ∧
        ∃ assertion ∈ assertions, Says ud assertion key true := by
  refine ⟨?_, fun h => ⟨assertions, hassertions, h⟩⟩
  rintro ⟨other, hother, h⟩
  rw [hassertions] at hother
  cases hother
  exact h

/-- A block: not verified, under no other status. -/
def EngineResult.IsBlock (result : EngineResult) : Prop :=
  result.verified = false ∧ result.status = none

/-- The result for the contradicted keys of a readable payload. -/
structure Decided (ud : UnicodeData) (payload : PyDict) (result : EngineResult)
    (keys : List PyStr) : Prop where
  sorted : keys.Pairwise (· < ·)
  members : ∀ key, key ∈ keys ↔ Contradicted ud payload key
  passed : keys = [] →
    result.status = some (py "heuristic_pass") ∧ result.contradictions = none
  blocked : keys ≠ [] →
    result.status = none ∧ result.contradictions = some keys

theorem verifyLogic_spec (ud : UnicodeData) (payload : PyDict) :
    (Unreadable ud payload ∧ ∃ reason,
        verifyLogic ud payload = logicUnverifiable reason) ∨
      (¬ Unreadable ud payload ∧
        ∃ keys, Decided ud payload (verifyLogic ud payload) keys) := by
  rw [verifyLogic]
  split
  next hempty =>
    refine Or.inl ⟨fun assertions hassertions => Or.inl ?_, _, rfl⟩
    rw [hassertions] at hempty
    exact PyVal.list.inj hempty
  next assertions hne hlist =>
    have hassertions : dictGet payload (py "assertions") =
        some (.list assertions) := by
      cases hget : dictGet payload (py "assertions") with
      | none => rw [hget] at hlist; exact absurd hlist.symm (by simpa using hne)
      | some value => rw [hget] at hlist; exact congrArg some hlist
    rcases foldlM_addAssertion ud assertions {} with
      ⟨hmalformed, reason, hfold⟩ | ⟨hclean, final, hfold, hhas⟩
    · refine Or.inl ⟨fun other hother => Or.inr ?_, reason, by rw [hfold]⟩
      rw [hassertions] at hother
      cases hother
      exact hmalformed
    · refine Or.inr ⟨(not_unreadable hassertions).mpr ⟨by simpa using hne, hclean⟩,
        final.contradictions, final.contradictions_sorted, fun key => ?_, ?_, ?_⟩
      · rw [Claims.mem_contradictions, contradicted_iff hassertions, hhas, hhas]
        simp [Claims.Has]
      · intro hnone
        simp only [hfold, hnone, if_true, and_self]
      · intro hsome
        simp only [hfold, hsome, if_false, and_self]
  next hne hlist =>
    refine Or.inl ⟨fun assertions hassertions => ?_, _, rfl⟩
    rw [hassertions] at hlist
    exact absurd rfl (hlist assertions)

namespace Decided

variable {payload : PyDict} {result : EngineResult} {keys : List PyStr}

/-- The list is the only strictly ordered one of the contradicted keys. -/
theorem eq (h : Decided ud payload result keys) {keys' : List PyStr}
    (hsorted : keys'.Pairwise (· < ·))
    (hmembers : ∀ key, key ∈ keys' ↔ Contradicted ud payload key) : keys' = keys := by
  apply eq_of_strictly_sorted hsorted h.sorted
  intro key
  rw [hmembers, h.members]

theorem ne_nil_iff (h : Decided ud payload result keys) :
    keys ≠ [] ↔ ∃ key, Contradicted ud payload key := by
  simp only [← h.members, ne_eq, List.eq_nil_iff_forall_not_mem, not_forall, not_not]

theorem block_iff (h : Decided ud payload result keys)
    (hnever : result.verified = false) :
    result.IsBlock ↔ ∃ key, Contradicted ud payload key := by
  rw [← h.ne_nil_iff, EngineResult.IsBlock]
  refine ⟨?_, fun hsome => ⟨hnever, (h.blocked hsome).1⟩⟩
  rintro ⟨-, hstatus⟩ hnone
  rw [(h.passed hnone).1] at hstatus
  cases hstatus

theorem pass_iff (h : Decided ud payload result keys) :
    result.status = some (py "heuristic_pass") ↔
      ¬ ∃ key, Contradicted ud payload key := by
  rw [← h.ne_nil_iff, not_not]
  refine ⟨fun hstatus => ?_, fun hnone => (h.passed hnone).1⟩
  by_contra hsome
  rw [(h.blocked hsome).1] at hstatus
  cases hstatus

theorem status_ne (h : Decided ud payload result keys) :
    result.status ≠ some (py "unverifiable") := by
  by_cases hnone : keys = []
  · rw [(h.passed hnone).1]
    decide
  · rw [(h.blocked hnone).1]
    decide

theorem reported_iff (h : Decided ud payload result keys) (keys' : List PyStr) :
    result.contradictions = some keys' ↔
      keys' ≠ [] ∧ keys'.Pairwise (· < ·) ∧
        ∀ key, key ∈ keys' ↔ Contradicted ud payload key := by
  constructor
  · intro hreported
    by_cases hnone : keys = []
    · rw [(h.passed hnone).2] at hreported
      cases hreported
    · rw [(h.blocked hnone).2] at hreported
      cases hreported
      exact ⟨hnone, h.sorted, h.members⟩
  · rintro ⟨hne, hsorted, hmembers⟩
    obtain rfl := h.eq hsorted hmembers
    exact (h.blocked hne).2

end Decided

theorem unreadable_congr {payload other : PyDict} (h : SameAssertions payload other) :
    Unreadable ud other ↔ Unreadable ud payload := by
  obtain ⟨assertions, assertions', hpayload, hother, hsame⟩ := h
  have hempty : assertions' = [] ↔ assertions = [] := by
    simp only [List.eq_nil_iff_forall_not_mem, hsame]
  rw [← not_iff_not, not_unreadable hpayload, not_unreadable hother]
  simp only [ne_eq, hempty, hsame]

theorem contradicted_congr {payload other : PyDict} (h : SameAssertions payload other)
    (key : PyStr) : Contradicted ud other key ↔ Contradicted ud payload key := by
  obtain ⟨assertions, assertions', hpayload, hother, hsame⟩ := h
  simp only [contradicted_iff hpayload, contradicted_iff hother, hsame]

/-- Neither order nor repetition of the assertions changes the status or the
reported keys. -/
theorem verifyLogic_congr {payload other : PyDict} (h : SameAssertions payload other) :
    (verifyLogic ud other).status = (verifyLogic ud payload).status ∧
      (verifyLogic ud other).contradictions =
        (verifyLogic ud payload).contradictions := by
  rcases verifyLogic_spec ud payload with
    ⟨hun, reason, hresult⟩ | ⟨hread, keys, hdecided⟩
  · rcases verifyLogic_spec ud other with ⟨_, reason', hresult'⟩ | ⟨hread', _⟩
    · rw [hresult, hresult']
      exact ⟨rfl, rfl⟩
    · exact absurd ((unreadable_congr h).mpr hun) hread'
  · rcases verifyLogic_spec ud other with ⟨hun', _⟩ | ⟨_, keys', hdecided'⟩
    · exact absurd ((unreadable_congr h).mp hun') hread
    · obtain rfl : keys' = keys := hdecided.eq hdecided'.sorted fun key => by
        rw [hdecided'.members, contradicted_congr h]
      by_cases hnone : keys' = []
      · obtain ⟨hstatus, hreported⟩ := hdecided.passed hnone
        obtain ⟨hstatus', hreported'⟩ := hdecided'.passed hnone
        exact ⟨hstatus'.trans hstatus.symm, hreported'.trans hreported.symm⟩
      · obtain ⟨hstatus, hreported⟩ := hdecided.blocked hnone
        obtain ⟨hstatus', hreported'⟩ := hdecided'.blocked hnone
        exact ⟨hstatus'.trans hstatus.symm, hreported'.trans hreported.symm⟩

/-- The logic guard on every payload: unverifiable exactly when the assertions are
not readable, else a block that reports exactly the contradicted keys, else a
heuristic pass; by the set of the assertions alone, and never verified. -/
theorem verifyLogic_decides (ud : UnicodeData) (payload : PyDict) :
    ((verifyLogic ud payload).status = some (py "unverifiable") ↔
        Unreadable ud payload) ∧
      ((verifyLogic ud payload).IsBlock ↔
        ¬ Unreadable ud payload ∧ ∃ key, Contradicted ud payload key) ∧
      ((verifyLogic ud payload).status = some (py "heuristic_pass") ↔
        ¬ Unreadable ud payload ∧ ¬ ∃ key, Contradicted ud payload key) ∧
      (∀ keys, (verifyLogic ud payload).contradictions = some keys ↔
        ¬ Unreadable ud payload ∧ keys ≠ [] ∧ keys.Pairwise (· < ·) ∧
          ∀ key, key ∈ keys ↔ Contradicted ud payload key) ∧
      (∀ other, SameAssertions payload other →
        (verifyLogic ud other).status = (verifyLogic ud payload).status ∧
          (verifyLogic ud other).contradictions =
            (verifyLogic ud payload).contradictions) ∧
      (verifyLogic ud payload).verified = false := by
  have hnever := verifyLogic_not_verified ud payload
  rcases verifyLogic_spec ud payload with
    ⟨hun, reason, hresult⟩ | ⟨hread, keys, hdecided⟩
  · have hpass : py "unverifiable" ≠ py "heuristic_pass" := by decide
    refine ⟨?_, ?_, ?_, fun keys => ?_, fun _ => verifyLogic_congr, hnever⟩
    all_goals simp [hresult, logicUnverifiable, EngineResult.IsBlock, hun, hpass]
  · refine ⟨?_, ?_, ?_, fun keys' => ?_, fun _ => verifyLogic_congr, hnever⟩
    · exact iff_of_false hdecided.status_ne hread
    · exact (hdecided.block_iff hnever).trans (and_iff_right hread).symm
    · exact hdecided.pass_iff.trans (and_iff_right hread).symm
    · exact (hdecided.reported_iff keys').trans (and_iff_right hread).symm

end QwedA2A
