/-
The two normalizers of agent IDs.  A message field is checked before it is
stripped, a configured ID after, and only a message field has to be Unicode; they
differ where the padding or a lone surrogate decides.
-/
import Mathlib.Data.List.DropRight
import QwedA2A.PyValue

namespace QwedA2A

/-- `any(ord(c) < 32 for c in text)`. -/
def hasControl (text : PyStr) : Bool := text.any fun c => c.val < 32

def validateAgentIdFormat (v : PyStr) : Except PyExc PyStr :=
  if hasControl v then
    .error ⟨.valueError, py "Agent ID must not contain control characters"⟩
  else .ok (strip v)

/-- A sender or receiver field: its length limits, then its validator; `none` is a
ValidationError.  A length is only taken of a text without lone surrogates. -/
def agentIdField (raw : PyStr) : Option PyStr :=
  if isUnicode raw = false ∨ raw.length < 1 ∨ 256 < raw.length then none
  else (validateAgentIdFormat raw).toOption

/-- Normalize an env-configured agent ID; `none` when it is unusable. -/
def validAgentId (agent : PyVal) : Option PyStr :=
  match agent with
  | .str agent =>
      let normalized := strip agent
      if normalized = [] ∨ 256 < normalized.length then none
      else if hasControl normalized then none
      else some normalized
  | _ => none

/-- An agent ID in its canonical form. -/
structure CanonicalId (text : PyStr) : Prop where
  nonempty : text ≠ []
  short : text.length ≤ 256
  plain : hasControl text = false
  stripped : strip text = text

/-- The normalizers agree on a text, and what either accepts is canonical. -/
structure SameAgent (raw : PyStr) : Prop where
  agree : ∀ text, agentIdField raw = some text ↔ validAgentId (.str raw) = some text
  canonical : ∀ text, agentIdField raw = some text ∨
    validAgentId (.str raw) = some text → CanonicalId text

/-- The raw form decides nothing: a blank text is empty, too long or has a control
character, and a text around a canonical ID is not too long and has neither a control
character nor a lone surrogate. -/
structure FormHarmless (raw : PyStr) : Prop where
  blank : strip raw = [] → raw = [] ∨ 256 < raw.length ∨ hasControl raw = true
  padded : CanonicalId (strip raw) →
    raw.length ≤ 256 ∧ hasControl raw = false ∧ isUnicode raw = true

theorem strip_eq (s : PyStr) :
    strip s = (s.dropWhile PyChar.isSpace).rdropWhile PyChar.isSpace := rfl

theorem strip_isPrefix (s : PyStr) : strip s <+: s.dropWhile PyChar.isSpace :=
  List.rdropWhile_prefix PyChar.isSpace _

theorem strip_isInfix (s : PyStr) : strip s <:+: s :=
  (strip_isPrefix s).isInfix.trans (List.dropWhile_suffix PyChar.isSpace).isInfix

theorem strip_strip (s : PyStr) : strip (strip s) = strip s := by
  have hlead : (strip s).dropWhile PyChar.isSpace = strip s := by
    rw [List.dropWhile_eq_self_iff]
    intro hpos
    have hlt : 0 < (s.dropWhile PyChar.isSpace).length :=
      hpos.trans_le (strip_isPrefix s).length_le
    have hfirst := List.dropWhile_get_zero_not PyChar.isSpace s hlt
    rwa [List.get_eq_getElem, ← (strip_isPrefix s).getElem hpos] at hfirst
  rw [strip_eq (strip s), hlead, strip_eq, List.rdropWhile_idempotent]

theorem hasControl_strip {raw : PyStr} (h : hasControl raw = false) :
    hasControl (strip raw) = false := by
  rw [hasControl, List.any_eq_false] at h ⊢
  exact fun c hc => h c ((strip_isInfix raw).subset hc)

theorem isUnicode_of_blank {raw : PyStr} (h : strip raw = []) :
    isUnicode raw = true := by
  rw [strip_eq, List.rdropWhile_eq_nil_iff] at h
  have hspaces : ∀ c ∈ raw, c.isSpace = true := by
    rw [← List.dropWhile_eq_nil_iff]
    by_contra hne
    have hpos := List.length_pos_of_ne_nil hne
    have hfirst := List.dropWhile_get_zero_not PyChar.isSpace raw hpos
    exact hfirst (h _ (List.get_mem _ _))
  rw [isUnicode, List.all_eq_true]
  intro c hc
  have hspace := hspaces c hc
  simp only [PyChar.isSpace, Bool.or_eq_true, decide_eq_true_eq, Bool.and_eq_true,
    beq_iff_eq] at hspace ⊢
  omega

theorem agentIdField_eq_some {raw text : PyStr} :
    agentIdField raw = some text ↔
      (isUnicode raw = true ∧ raw ≠ [] ∧ raw.length ≤ 256 ∧ hasControl raw = false) ∧
        text = strip raw := by
  rw [agentIdField, validateAgentIdFormat, ← List.length_pos_iff]
  cases isUnicode raw with
  | false => simp
  | true =>
      cases hasControl raw with
      | true => simp [Except.toOption]
      | false =>
          simp only [Except.toOption, Bool.true_eq_false, Bool.false_eq_true, if_false,
            false_or]
          split_ifs with hlength
          · simp only [false_iff]
            omega
          · simp only [Option.some_inj, and_true, true_and]
            constructor
            · rintro rfl
              exact ⟨by omega, rfl⟩
            · rintro ⟨_, rfl⟩
              rfl

theorem validAgentId_eq_some {raw text : PyStr} :
    validAgentId (.str raw) = some text ↔ CanonicalId (strip raw) ∧ text = strip raw := by
  have hcanonical : CanonicalId (strip raw) ↔ strip raw ≠ [] ∧
      (strip raw).length ≤ 256 ∧ hasControl (strip raw) = false :=
    ⟨fun h => ⟨h.nonempty, h.short, h.plain⟩,
      fun ⟨hne, hshort, hplain⟩ => ⟨hne, hshort, hplain, strip_strip raw⟩⟩
  rw [validAgentId, hcanonical]
  split_ifs with hsize hcontrol
  · simp only [false_iff]
    rintro ⟨⟨hne, hshort, _⟩, _⟩
    rcases hsize with hempty | hlong
    · exact hne hempty
    · exact absurd hlong (not_lt.mpr hshort)
  · simp [hcontrol]
  · rw [not_or, not_lt] at hsize
    simp [hsize, hcontrol, eq_comm]

/-- The normalizers agree, and accept canonical IDs only, exactly on the texts whose
raw form decides nothing. -/
theorem normalizers_agree_iff (raw : PyStr) : SameAgent raw ↔ FormHarmless raw := by
  constructor
  · intro h
    refine ⟨fun hblank => ?_, fun hcanonical => ?_⟩
    · by_contra hplain
      rw [not_or, not_or, not_lt, Bool.not_eq_true] at hplain
      have haccepted := agentIdField_eq_some.mpr
        ⟨⟨isUnicode_of_blank hblank, hplain⟩, rfl⟩
      exact (h.canonical _ (Or.inl haccepted)).nonempty hblank
    · have haccepted := (h.agree (strip raw)).mpr
        (validAgentId_eq_some.mpr ⟨hcanonical, rfl⟩)
      obtain ⟨hunicode, _, hshort, hplain⟩ := (agentIdField_eq_some.mp haccepted).1
      exact ⟨hshort, hplain, hunicode⟩
  · intro h
    have hsame : (isUnicode raw = true ∧ raw ≠ [] ∧ raw.length ≤ 256 ∧
        hasControl raw = false) ↔ CanonicalId (strip raw) := by
      constructor
      · rintro ⟨_, hne, hshort, hplain⟩
        refine ⟨fun hblank => ?_, (strip_isInfix raw).length_le.trans hshort,
          hasControl_strip hplain, strip_strip raw⟩
        rcases h.blank hblank with hempty | hlong | hcontrol
        · exact hne hempty
        · exact absurd hlong (not_lt.mpr hshort)
        · rw [hplain] at hcontrol
          cases hcontrol
      · intro hcanonical
        obtain ⟨hshort, hplain, hunicode⟩ := h.padded hcanonical
        refine ⟨hunicode, ?_, hshort, hplain⟩
        rintro rfl
        exact hcanonical.nonempty rfl
    have hagree : ∀ text, agentIdField raw = some text ↔
        validAgentId (.str raw) = some text := by
      intro text
      rw [agentIdField_eq_some, validAgentId_eq_some, hsame]
    refine ⟨hagree, fun text haccepted => ?_⟩
    have hvalid : validAgentId (.str raw) = some text :=
      haccepted.elim (hagree text).mp id
    obtain ⟨hcanonical, rfl⟩ := validAgentId_eq_some.mp hvalid
    exact hcanonical

/-- A field of blanks is accepted as the empty ID; a trailing line feed, padding
beyond 256 characters and a lone surrogate are refused; the configured IDs are read
the other way. -/
theorem padding_decides :
    (agentIdField (py "   ") = some [] ∧ validAgentId (.str (py "   ")) = none) ∧
      (agentIdField (py "agent\n") = none ∧
        validAgentId (.str (py "agent\n")) = some (py "agent")) ∧
      (agentIdField (List.replicate 256 0x20 ++ py "a") = none ∧
        validAgentId (.str (List.replicate 256 0x20 ++ py "a")) = some (py "a")) ∧
      (agentIdField [0xD800] = none ∧ validAgentId (.str [0xD800]) = some [0xD800]) ∧
      ¬ SameAgent (py "   ") := by
  have hblank : agentIdField (py "   ") = some [] := by decide +kernel
  refine ⟨⟨hblank, by decide +kernel⟩, ⟨by decide +kernel, by decide +kernel⟩,
    ⟨by decide +kernel, by decide +kernel⟩, ⟨by decide +kernel, by decide +kernel⟩,
    fun h => ?_⟩
  exact (h.canonical [] (Or.inl hblank)).nonempty rfl

end QwedA2A
