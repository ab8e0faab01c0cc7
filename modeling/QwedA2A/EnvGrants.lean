/-
The grants that QWED_A2A_TRUSTED_AGENTS writes, and those the loader makes of it.
They agree unless the parser raises more than JSONDecodeError, or an expiry has no
float.
-/
import QwedA2A.TrustEnv
import QwedA2A.JsonScan
import QwedA2A.EventRun

namespace QwedA2A

open PyJson EventRun

/-- A grant: an agent, its scopes and its expiry. -/
abbrev Grant := PyStr × TrustEntry

/-- An element with a usable ID and usable scopes: the grant but for its expiry,
and the expiry as it is written. -/
structure ScopedElement where
  agentId : PyStr
  receivers : Option (Finset PyStr)
  types : Option (Finset PyStr)
  expiry : PyVal

def ScopedElement.grant (element : ScopedElement)
    (validUntil : Option PyNum) : Grant :=
  (element.agentId, ⟨element.receivers, element.types, validUntil⟩)

/-- The scope a field writes: none, or the set of a non-empty list of strings. -/
def writtenScope (raw : PyVal) : Option (Option (Finset PyStr)) :=
  match raw with
  | .pyNone => some none
  | .list items => do
      let texts ← items.mapM PyVal.text
      if texts = [] then none else some (some texts.toFinset)
  | _ => none

/-- An object with a non-blank string ID and well-formed scopes. -/
def scopedElement (item : PyVal) : Option ScopedElement :=
  match item with
  | .dict entries => do
      let rawId ← (getOrNone entries (py "agent_id")).text
      let receivers ← writtenScope (getOrNone entries (py "allowed_receivers"))
      let types ← writtenScope (getOrNone entries (py "allowed_payload_types"))
      if strip rawId = [] then none
      else
        some ⟨strip rawId, receivers, types, getOrNone entries (py "valid_until")⟩
  | _ => none

/-- The expiry a field writes: none, a finite number, or a string for one.  A string
writes the float nearest to its number, and the number itself where there is none. -/
def writtenExpiry (raw : PyVal) : Option (Option PyNum) :=
  match raw with
  | .pyNone => some none
  | .int n => some (some (.rat n))
  | .float value _ => if value.isFinite then some (some value) else none
  | .str text =>
      (PyFloat.written text).map fun number =>
        some (.rat ((Binary64.nearest number).getD number))
  | _ => none

def writtenGrant (item : PyVal) : Option Grant := do
  let element ← scopedElement item
  let validUntil ← writtenExpiry element.expiry
  some (element.grant validUntil)

/-- The grants the variable writes: one per well-formed element of a JSON array,
and one per non-blank part of a text that is neither JSON nor opens like it. -/
def writtenGrants (interp : Interpreter) (envValue : PyStr) : List Grant :=
  let text := strip envValue
  match loads interp text with
  | .ok (.list items) => items.filterMap writtenGrant
  | .ok _ => []
  | .error exc =>
      if exc.type = .jsonDecodeError ∧ ¬ (py "[").isPrefixOf text = true ∧
          ¬ (py "\x7b").isPrefixOf text = true then
        (((text.splitOn 0x2C).map strip).filter (· ≠ [])).map fun part => (part, {})
      else []

def grantAll (table : ExpiringTable.Table PyStr TrustEntry)
    (grants : List Grant) : ExpiringTable.Table PyStr TrustEntry :=
  grants.foldl (fun table grant => table.insert grant.1 grant.2) table

/-- Whatever the boundary held, loading the variable raises nothing and updates
the grants by exactly what is written. -/
def LoadsExactly (interp : Interpreter) (envValue : PyStr) : Prop :=
  ∀ tb : TrustBoundary,
    (tb.loadFromEnv interp envValue).1 = .ok () ∧
    ∀ agentId, (tb.loadFromEnv interp envValue).2.trustedAgents.lookup agentId =
      (grantAll tb.trustedAgents (writtenGrants interp envValue)).lookup agentId

def writesFor (agentId : PyStr) (item : PyVal) : Bool :=
  (writtenGrant item).any fun grant => grant.1 = agentId

/-- The expiry is a string for a number beyond the floats. -/
def OverflowingText (raw : PyVal) : Prop :=
  ∃ text number, raw = .str text ∧ PyFloat.written text = some number ∧
    Binary64.topPower - Binary64.halfPlace ≤ |number|

/-- The element is well-formed but for an integer expiry beyond the floats. -/
def OverflowingInteger (item : PyVal) : Prop :=
  ∃ element n, scopedElement item = some element ∧ element.expiry = .int n ∧
    Binary64.topPower - Binary64.halfPlace ≤ |(n : ℚ)|

/-- The texts whose grants are all made: the parser raises nothing but
JSONDecodeError, no integer expiry of an otherwise well-formed element is beyond
the floats, and neither is the number that a string writes in any agent's last
well-formed element. -/
structure EnvLoadable (interp : Interpreter) (envValue : PyStr) : Prop where
  reads : ¬ (py "\x7b").isPrefixOf (strip envValue) = true →
    ∀ exc, loads interp (strip envValue) = .error exc →
      exc.type = .jsonDecodeError
  integers : ∀ items, loads interp (strip envValue) = .ok (.list items) →
    ∀ item ∈ items, ¬ OverflowingInteger item
  texts : ∀ items, loads interp (strip envValue) = .ok (.list items) →
    ∀ agentId item element, lastMatch (writesFor agentId) items = some item →
      scopedElement item = some element → ¬ OverflowingText element.expiry

theorem parseScopeList_eq_written (raw : PyVal) :
    TrustBoundary.parseScopeList raw = writtenScope raw := by
  cases raw with
  | list items =>
      cases items with
      | nil => rfl
      | cons first rest =>
          rw [TrustBoundary.parseScopeList, writtenScope,
            if_neg (List.cons_ne_nil first rest), List.mapM_cons]
          cases first.text with
          | none => rfl
          | some text =>
              cases rest.mapM PyVal.text with
              | none => rfl
              | some texts => rfl
  | _ => rfl

/-- The expiry the loader grants with, unless it skips or raises. -/
def madeExpiry (raw : PyVal) : Option (Option PyNum) :=
  match TrustBoundary.parseValidUntil raw with
  | .ok (validUntil, false) => some validUntil
  | _ => none

/-- The grant the loader makes of an element, unless it skips or raises. -/
def madeGrant (item : PyVal) : Option Grant := do
  let element ← scopedElement item
  let validUntil ← madeExpiry element.expiry
  some (element.grant validUntil)

theorem isFinite_eq_false_iff (x : ℚ) :
    (toFloat x).isFinite = false ↔
      Binary64.topPower - Binary64.halfPlace ≤ |x| := by
  rw [← Bool.not_eq_true, toFloat_isFinite_iff, not_lt]

theorem parseValidUntil_error_iff {raw : PyVal} {exc : PyExc} :
    TrustBoundary.parseValidUntil raw = .error exc ↔
      exc = floatOverflowExc ∧ ∃ n, raw = .int n ∧
        Binary64.topPower - Binary64.halfPlace ≤ |(n : ℚ)| := by
  cases raw with
  | int n =>
      rw [TrustBoundary.parseValidUntil]
      simp only [PyVal.int.injEq, exists_eq_left', ← isFinite_eq_false_iff]
      cases (toFloat n).isFinite <;> simp [eq_comm]
  | float value repr =>
      rw [TrustBoundary.parseValidUntil]
      split_ifs <;> simp
  | str text =>
      rw [TrustBoundary.parseValidUntil]
      split
      · simp
      · split_ifs <;> simp
  | _ => simp [TrustBoundary.parseValidUntil]

/-- A string for a number beyond the floats writes an expiry that is not granted
with. -/
theorem expiry_of_overflow {raw : PyVal} (h : OverflowingText raw) :
    madeExpiry raw = none ∧
      ∃ number, writtenExpiry raw = some (some (.rat number)) ∧
        Binary64.topPower - Binary64.halfPlace ≤ |number| := by
  obtain ⟨text, number, rfl, hwritten, hlarge⟩ := h
  have hread := PyFloat.ofText_of_written hwritten
  have hinfinite := (isFinite_eq_false_iff number).mpr hlarge
  have hnone := (Binary64.nearest_eq_none_iff number).mpr hlarge
  constructor
  · simp [madeExpiry, TrustBoundary.parseValidUntil, hread, hinfinite]
  · exact ⟨number, by simp [writtenExpiry, hwritten, hnone], hlarge⟩

/-- Every other string is granted with what it writes, and skipped when it writes
nothing. -/
theorem madeExpiry_str {text : PyStr} (h : ¬ OverflowingText (.str text)) :
    madeExpiry (.str text) = writtenExpiry (.str text) := by
  cases hwritten : PyFloat.written text with
  | some number =>
      have hsmall : ¬ Binary64.topPower - Binary64.halfPlace ≤ |number| :=
        fun hlarge => h ⟨text, number, rfl, hwritten, hlarge⟩
      obtain ⟨value, hvalue⟩ := Option.ne_none_iff_exists'.mp
        (mt (Binary64.nearest_eq_none_iff number).mp hsmall)
      have hread : PyFloat.ofText text = some (.rat value) := by
        rw [PyFloat.ofText_of_written hwritten, toFloat, hvalue]
      simp [madeExpiry, TrustBoundary.parseValidUntil, writtenExpiry, hread,
        hwritten, hvalue]
  | none =>
      cases hread : PyFloat.ofText text with
      | none =>
          simp [madeExpiry, TrustBoundary.parseValidUntil, writtenExpiry, hread,
            hwritten]
      | some value =>
          have hinfinite := PyFloat.isFinite_of_not_written hwritten hread
          simp [madeExpiry, TrustBoundary.parseValidUntil, writtenExpiry, hread,
            hwritten, hinfinite]

/-- Within the floats every written expiry is granted with. -/
theorem madeExpiry_eq_written {raw : PyVal}
    (hint : ∀ n, raw = .int n →
      ¬ Binary64.topPower - Binary64.halfPlace ≤ |(n : ℚ)|)
    (htext : ¬ OverflowingText raw) : madeExpiry raw = writtenExpiry raw := by
  cases raw with
  | int n =>
      have hfinite : (toFloat n).isFinite = true := by
        rw [toFloat_isFinite_iff, ← not_le]
        exact hint n rfl
      simp [madeExpiry, TrustBoundary.parseValidUntil, writtenExpiry, hfinite]
  | float value repr =>
      cases hfinite : value.isFinite <;>
        simp [madeExpiry, TrustBoundary.parseValidUntil, writtenExpiry, hfinite]
  | str text => exact madeExpiry_str htext
  | _ => simp [madeExpiry, TrustBoundary.parseValidUntil, writtenExpiry]

/-- An expiry granted with is within the floats, when the floats themselves
are. -/
theorem madeExpiry_lt {raw : PyVal} (hraw : FloatsInRange raw) {q : ℚ}
    (h : madeExpiry raw = some (some (.rat q))) :
    |q| < Binary64.topPower - Binary64.halfPlace := by
  cases hraw with
  | int n =>
      simp only [madeExpiry, TrustBoundary.parseValidUntil] at h
      cases hfinite : (toFloat n).isFinite with
      | true =>
          simp only [hfinite, if_true, Option.some.injEq] at h
          rw [← PyNum.rat_injective h]
          exact (toFloat_isFinite_iff _).mp hfinite
      | false => simp [hfinite] at h
  | float repr hrange =>
      simp only [madeExpiry, TrustBoundary.parseValidUntil] at h
      split_ifs at h
      exact hrange q (by simpa using h)
  | str text =>
      simp only [madeExpiry, TrustBoundary.parseValidUntil] at h
      cases hread : PyFloat.ofText text with
      | none => simp [hread] at h
      | some value =>
          rw [hread] at h
          cases hfinite : value.isFinite with
          | true =>
              simp only [hfinite, if_true, Option.some.injEq] at h
              exact PyFloat.ofText_inRange hread q h
          | false => simp [hfinite] at h
  | _ => cases h

namespace TrustBoundary

def trustAll (tb : TrustBoundary) (grants : List Grant) : TrustBoundary :=
  grants.foldl (fun tb grant => tb.trustAgent grant.1 grant.2) tb

theorem trustAll_trustedAgents (tb : TrustBoundary) (grants : List Grant) :
    (tb.trustAll grants).trustedAgents = grantAll tb.trustedAgents grants := by
  induction grants generalizing tb with
  | nil => rfl
  | cons grant rest ih => exact ih (tb.trustAgent grant.1 grant.2)

def loadScoped (tb : TrustBoundary) (element : ScopedElement) :
    Except PyExc (Bool × TrustBoundary) := do
  let (validUntil, skip) ← parseValidUntil element.expiry
  if skip then pure (false, tb)
  else pure (true, tb.trustAgent element.agentId
    ⟨element.receivers, element.types, validUntil⟩)

theorem loadJsonEntry_eq (tb : TrustBoundary) (item : PyVal) :
    tb.loadJsonEntry item =
      (scopedElement item).elim (.ok (false, tb)) tb.loadScoped := by
  cases item with
  | dict entries =>
      rw [loadJsonEntry, scopedElement, parseScopeList_eq_written,
        parseScopeList_eq_written]
      cases hid : getOrNone entries (py "agent_id") with
      | str rawId =>
          cases writtenScope (getOrNone entries (py "allowed_receivers")) with
          | none => by_cases hblank : strip rawId = [] <;> simp [PyVal.text, hblank]
          | some receivers =>
              cases writtenScope
                  (getOrNone entries (py "allowed_payload_types")) with
              | none =>
                  by_cases hblank : strip rawId = [] <;>
                    simp [PyVal.text, hblank]
              | some types =>
                  by_cases hblank : strip rawId = [] <;>
                    simp [PyVal.text, hblank, loadScoped]
      | _ => rfl
  | _ => rfl

theorem loadJsonEntry_of_overflow (tb : TrustBoundary) {item : PyVal}
    (h : OverflowingInteger item) :
    tb.loadJsonEntry item = .error floatOverflowExc := by
  obtain ⟨element, n, helement, hexpiry, hlarge⟩ := h
  have hraise := parseValidUntil_error_iff.mpr ⟨rfl, n, hexpiry, hlarge⟩
  rw [loadJsonEntry_eq, helement, Option.elim_some, loadScoped, hraise, error_bind]

theorem loadJsonEntry_of_not_overflow (tb : TrustBoundary) {item : PyVal}
    (h : ¬ OverflowingInteger item) :
    tb.loadJsonEntry item =
      .ok ((madeGrant item).isSome, tb.trustAll (madeGrant item).toList) := by
  rw [loadJsonEntry_eq, madeGrant]
  cases helement : scopedElement item with
  | none => rfl
  | some element =>
      cases hparse : parseValidUntil element.expiry with
      | error exc =>
          obtain ⟨_, n, hexpiry, hlarge⟩ := parseValidUntil_error_iff.mp hparse
          exact absurd ⟨element, n, helement, hexpiry, hlarge⟩ h
      | ok parsed =>
          obtain ⟨validUntil, skip⟩ := parsed
          cases skip <;>
            simp [madeExpiry, loadScoped, hparse, trustAll, ScopedElement.grant] <;>
            rfl

/-- The loop makes the grants of its elements, as long as none raises. -/
theorem loadJsonItems_of_not_overflow (count : ℕ) (tb : TrustBoundary)
    {items : List PyVal} (h : ∀ item ∈ items, ¬ OverflowingInteger item) :
    ∃ loaded, tb.loadJsonItems count items =
      (.ok loaded, tb.trustAll (items.filterMap madeGrant)) := by
  induction items generalizing count tb with
  | nil => exact ⟨_, rfl⟩
  | cons item rest ih =>
      obtain ⟨hfirst, hrest⟩ := List.forall_mem_cons.mp h
      rw [loadJsonItems, loadJsonEntry_of_not_overflow tb hfirst]
      obtain ⟨loaded, hloaded⟩ := ih
        (if (madeGrant item).isSome then count + 1 else count)
        (tb.trustAll (madeGrant item).toList) hrest
      refine ⟨loaded, hloaded.trans ?_⟩
      cases hgrant : madeGrant item <;> simp [hgrant, trustAll]

/-- An element that raises ends the loop with its exception. -/
theorem loadJsonItems_of_overflow (count : ℕ) (tb : TrustBoundary)
    {items : List PyVal} (h : ∃ item ∈ items, OverflowingInteger item) :
    (tb.loadJsonItems count items).1 = .error floatOverflowExc := by
  induction items generalizing count tb with
  | nil =>
      obtain ⟨item, hmem, _⟩ := h
      cases hmem
  | cons item rest ih =>
      by_cases hfirst : OverflowingInteger item
      · rw [loadJsonItems, loadJsonEntry_of_overflow tb hfirst]
      · rw [loadJsonItems, loadJsonEntry_of_not_overflow tb hfirst]
        obtain ⟨other, hmem, hother⟩ := h
        rcases List.mem_cons.mp hmem with rfl | hmem
        · exact absurd hother hfirst
        · exact ih _ _ ⟨other, hmem, hother⟩

/-- The parts of a comma-separated text are granted without scope. -/
theorem trustParts_eq (tb : TrustBoundary) (text : PyStr) :
    tb.trustParts text = tb.trustAll
      ((((text.splitOn 0x2C).map strip).filter (· ≠ [])).map
        fun part => (part, {})) := by
  rw [trustParts, trustAll]
  induction text.splitOn 0x2C generalizing tb with
  | nil => rfl
  | cons part rest ih =>
      by_cases hblank : strip part = []
      · simp [hblank, ih]
      · simp [hblank, ih]

end TrustBoundary

theorem skipBlanks_strip (text : PyStr) : skipBlanks (strip text) = strip text := by
  have hblank : ∀ c : PyChar, isBlank c = true → c.isSpace = true := by
    intro c hc
    simp only [isBlank, PyChar.isSpace, Bool.or_eq_true, decide_eq_true_eq,
      Bool.and_eq_true, beq_iff_eq] at hc ⊢
    omega
  have hprefix : strip text <+: text.dropWhile PyChar.isSpace := by
    rw [strip, ← List.reverse_suffix, List.reverse_reverse]
    exact List.dropWhile_suffix _
  rw [skipBlanks]
  cases hstrip : strip text with
  | nil => rfl
  | cons c rest =>
      rw [hstrip] at hprefix
      obtain ⟨later, hlater⟩ := hprefix
      have hspace : c.isSpace = false := by
        have hhead := List.head?_dropWhile_not PyChar.isSpace text
        rw [← hlater] at hhead
        simpa using hhead
      rw [List.dropWhile_cons_of_neg]
      intro hc
      rw [hblank c hc] at hspace
      cases hspace

namespace TrustBoundary

variable {interp : Interpreter} {envValue : PyStr}

theorem loadFromEnv_of_list (tb : TrustBoundary) {items : List PyVal}
    (h : loads interp (strip envValue) = .ok (.list items)) :
    tb.loadFromEnv interp envValue =
      ((tb.loadJsonItems 0 items).1.map fun _ => (), (tb.loadJsonItems 0 items).2) := by
  have hopen := loads_list (skipBlanks_strip envValue) h
  have hne : envValue ≠ [] := by
    rintro rfl
    cases hopen
  simp only [loadFromEnv, if_neg hne, hopen, if_true, loadJsonEntries, h,
    PyVal.iter]

theorem loadFromEnv_of_other (tb : TrustBoundary) {value : PyVal}
    (h : loads interp (strip envValue) = .ok value)
    (hvalue : ∀ items, value ≠ .list items) :
    tb.loadFromEnv interp envValue = (.ok (), tb) := by
  have hopen : ¬ (py "[").isPrefixOf (strip envValue) = true := by
    intro hopen
    obtain ⟨items, hitems⟩ := loads_bracket hopen h
    exact hvalue items hitems
  rw [loadFromEnv]
  by_cases hempty : envValue = []
  · rw [if_pos hempty]
  · by_cases hbrace : (py "\x7b").isPrefixOf (strip envValue) = true
    · simp only [if_neg hempty, if_neg hopen, if_pos hbrace]
    · simp only [if_neg hempty, if_neg hopen, if_neg hbrace, h]

theorem writtenGrants_of_error {exc : PyExc}
    (h : loads interp (strip envValue) = .error exc) :
    writtenGrants interp envValue =
      if exc.type = .jsonDecodeError ∧
          ¬ (py "[").isPrefixOf (strip envValue) = true ∧
          ¬ (py "\x7b").isPrefixOf (strip envValue) = true then
        ((((strip envValue).splitOn 0x2C).map strip).filter (· ≠ [])).map
          fun part => (part, {})
      else [] := by
  simp only [writtenGrants, h]

theorem loads_nil (interp : Interpreter) :
    loads interp [] = .error expectingValue := by
  obtain ⟨floatRepr, depth⟩ := interp
  cases depth <;> rfl

theorem not_brace_of_bracket {text : PyStr}
    (h : (py "[").isPrefixOf text = true) :
    ¬ (py "\x7b").isPrefixOf text = true := by
  obtain ⟨rest, rfl⟩ := List.isPrefixOf_iff_prefix.mp h
  exact Bool.false_ne_true

/-- A text that is not JSON is read as comma-separated, unless it opens like an
array or an object. -/
theorem loadFromEnv_of_error (tb : TrustBoundary) {exc : PyExc}
    (h : loads interp (strip envValue) = .error exc) :
    tb.loadFromEnv interp envValue =
      if exc.type = .jsonDecodeError ∨
          (py "\x7b").isPrefixOf (strip envValue) = true then
        (.ok (), tb.trustAll (writtenGrants interp envValue))
      else (.error exc, tb) := by
  rw [loadFromEnv, writtenGrants_of_error h]
  by_cases hempty : envValue = []
  · subst hempty
    cases (loads_nil interp).symm.trans h
    rfl
  · by_cases hopen : (py "[").isPrefixOf (strip envValue) = true
    · have hbrace := not_brace_of_bracket hopen
      by_cases hdecode : exc.type = .jsonDecodeError
      · simp [hempty, hopen, hdecode, loadJsonEntries, h, trustAll]; rfl
      · simp [hempty, hopen, hdecode, hbrace, loadJsonEntries, h]; rfl
    · by_cases hbrace : (py "\x7b").isPrefixOf (strip envValue) = true
      · simp [hempty, hopen, hbrace, trustAll]
      · by_cases hdecode : exc.type = .jsonDecodeError
        · simp [hempty, hopen, hbrace, hdecode, h, trustParts_eq]
        · simp [hempty, hopen, hbrace, hdecode, h]

end TrustBoundary

theorem lookup_grantAll (table : ExpiringTable.Table PyStr TrustEntry)
    (grants : List Grant) (agentId : PyStr) :
    (grantAll table grants).lookup agentId =
      ((lastMatch (fun grant => decide (grant.1 = agentId)) grants).map
        Prod.snd).or (table.lookup agentId) := by
  induction grants using List.reverseRecOn with
  | nil => rfl
  | append_singleton past grant ih =>
      rw [lastMatch_snoc, grantAll, List.foldl_append]
      simp only [List.foldl_cons, List.foldl_nil]
      by_cases hagent : grant.1 = agentId
      · subst hagent
        simp [AList.lookup_insert]
      · rw [AList.lookup_insert_ne (Ne.symm hagent),
          if_neg (by simpa using hagent)]
        exact ih

theorem madeGrant_eq_written {item : PyVal} (hint : ¬ OverflowingInteger item)
    (htexts : ∀ element, scopedElement item = some element →
      ¬ OverflowingText element.expiry) : madeGrant item = writtenGrant item := by
  rw [madeGrant, writtenGrant]
  cases helement : scopedElement item with
  | none => rfl
  | some element =>
      have hexpiry : madeExpiry element.expiry = writtenExpiry element.expiry :=
        madeExpiry_eq_written
          (fun n hn hlarge => hint ⟨element, n, helement, hn, hlarge⟩)
          (htexts element helement)
      simp only [Option.bind_eq_bind, Option.bind_some, hexpiry]

/-- Whatever is granted is written: no element yields a wider grant. -/
theorem madeGrant_written {item : PyVal} {grant : Grant}
    (h : madeGrant item = some grant) : writtenGrant item = some grant := by
  obtain ⟨element, helement, hmade⟩ := Option.bind_eq_some_iff.mp h
  obtain ⟨validUntil, hexpiry, _⟩ := Option.bind_eq_some_iff.mp hmade
  rw [← madeGrant_eq_written, h]
  · rintro ⟨other, n, hother, hn, hlarge⟩
    cases helement.symm.trans hother
    have hraise := parseValidUntil_error_iff.mpr ⟨rfl, n, hn, hlarge⟩
    rw [madeExpiry, hraise] at hexpiry
    cases hexpiry
  · intro other hother htexts
    cases helement.symm.trans hother
    rw [(expiry_of_overflow htexts).1] at hexpiry
    cases hexpiry

theorem scopedElement_inRange {item : PyVal} {element : ScopedElement}
    (hitem : FloatsInRange item) (h : scopedElement item = some element) :
    FloatsInRange element.expiry := by
  cases hitem with
  | @dict entries hentries =>
      simp only [scopedElement, Option.bind_eq_bind, Option.bind_eq_some_iff] at h
      obtain ⟨rawId, _, receivers, _, types, _, h⟩ := h
      split_ifs at h
      cases h
      rw [getOrNone]
      cases hfield : dictGet entries (py "valid_until") with
      | none => exact .pyNone
      | some value => exact hentries _ (mem_of_dictGet hfield)
  | _ => cases h

/-- The texts that make the loader raise: the parser does, with more than
JSONDecodeError, or an element's integer expiry does. -/
def EnvRaises (interp : Interpreter) (envValue : PyStr) : Prop :=
  (∃ exc, loads interp (strip envValue) = .error exc ∧
    exc.type ≠ .jsonDecodeError ∧
    ¬ (py "\x7b").isPrefixOf (strip envValue) = true) ∨
  ∃ items, loads interp (strip envValue) = .ok (.list items) ∧
    ∃ item ∈ items, OverflowingInteger item

def madeGrants (interp : Interpreter) (envValue : PyStr) : List Grant :=
  match loads interp (strip envValue) with
  | .ok (.list items) => items.filterMap madeGrant
  | _ => writtenGrants interp envValue

theorem madeGrants_of_list {interp : Interpreter} {envValue : PyStr}
    {items : List PyVal} (h : loads interp (strip envValue) = .ok (.list items)) :
    madeGrants interp envValue = items.filterMap madeGrant := by
  simp only [madeGrants, h]

theorem madeGrants_of_other {interp : Interpreter} {envValue : PyStr}
    (h : ¬ ∃ items, loads interp (strip envValue) = .ok (.list items)) :
    madeGrants interp envValue = writtenGrants interp envValue := by
  rw [madeGrants]
  split
  · next items hitems => exact absurd ⟨items, hitems⟩ h
  · rfl

theorem writtenGrants_of_list {interp : Interpreter} {envValue : PyStr}
    {items : List PyVal} (h : loads interp (strip envValue) = .ok (.list items)) :
    writtenGrants interp envValue = items.filterMap writtenGrant := by
  simp only [writtenGrants, h]

theorem TrustBoundary.loadFromEnv_of_not_raises (tb : TrustBoundary) {interp : Interpreter}
    {envValue : PyStr} (h : ¬ EnvRaises interp envValue) :
    tb.loadFromEnv interp envValue =
      (.ok (), tb.trustAll (madeGrants interp envValue)) := by
  cases hloads : loads interp (strip envValue) with
  | error exc =>
      have hskip : exc.type = .jsonDecodeError ∨
          (py "\x7b").isPrefixOf (strip envValue) = true := by
        by_contra hraise
        rw [not_or] at hraise
        exact h (Or.inl ⟨exc, hloads, hraise.1, hraise.2⟩)
      rw [tb.loadFromEnv_of_error hloads, if_pos hskip]
      simp only [madeGrants, hloads]
  | ok value =>
      cases value with
      | list items =>
          have hint : ∀ item ∈ items, ¬ OverflowingInteger item :=
            fun item hmem hoverflow =>
              h (Or.inr ⟨items, hloads, item, hmem, hoverflow⟩)
          obtain ⟨loaded, hrun⟩ := tb.loadJsonItems_of_not_overflow 0 hint
          rw [tb.loadFromEnv_of_list hloads, hrun, madeGrants_of_list hloads]
          rfl
      | _ =>
          rw [tb.loadFromEnv_of_other hloads fun items hitems => nomatch hitems]
          simp only [madeGrants, hloads, writtenGrants]
          rfl

theorem TrustBoundary.loadFromEnv_of_raises (tb : TrustBoundary) {interp : Interpreter}
    {envValue : PyStr} (h : EnvRaises interp envValue) :
    ∃ exc, (tb.loadFromEnv interp envValue).1 = .error exc := by
  rcases h with ⟨exc, hloads, hdecode, hbrace⟩ | ⟨items, hloads, hoverflow⟩
  · refine ⟨exc, ?_⟩
    rw [tb.loadFromEnv_of_error hloads, if_neg (not_or.mpr ⟨hdecode, hbrace⟩)]
  · refine ⟨floatOverflowExc, ?_⟩
    rw [tb.loadFromEnv_of_list hloads, tb.loadJsonItems_of_overflow 0 hoverflow]
    rfl

theorem not_envRaises_of_loadsExactly {interp : Interpreter} {envValue : PyStr}
    (h : LoadsExactly interp envValue) : ¬ EnvRaises interp envValue := by
  intro hraises
  have hok := (h (TrustBoundary.fresh 0 false)).1
  obtain ⟨exc, hexc⟩ :=
    TrustBoundary.loadFromEnv_of_raises (TrustBoundary.fresh 0 false) hraises
  cases hok.symm.trans hexc

section

variable {interp : Interpreter} {envValue : PyStr} {items : List PyVal}

/-- The grants made end in the same table as those written, when no element
raises and the deciding ones have a float for an expiry. -/
theorem lookup_madeGrants (hint : ∀ item ∈ items, ¬ OverflowingInteger item)
    (htexts : ∀ agentId item element,
      lastMatch (writesFor agentId) items = some item →
      scopedElement item = some element → ¬ OverflowingText element.expiry)
    (table : ExpiringTable.Table PyStr TrustEntry) (agentId : PyStr) :
    (grantAll table (items.filterMap madeGrant)).lookup agentId =
      (grantAll table (items.filterMap writtenGrant)).lookup agentId := by
  have hnarrow : ∀ item ∈ items,
      ((madeGrant item).any fun grant => grant.1 = agentId) = true →
        writesFor agentId item = true := by
    intro item _ hmade
    cases hgrant : madeGrant item with
    | none => simp [hgrant] at hmade
    | some grant =>
        rw [writesFor, madeGrant_written hgrant, ← hgrant]
        exact hmade
  rw [lookup_grantAll, lookup_grantAll, lastMatch_filterMap, lastMatch_filterMap]
  congr 2
  change Option.bind _ madeGrant =
    (lastMatch (writesFor agentId) items).bind writtenGrant
  cases hlast : lastMatch (writesFor agentId) items with
  | none =>
      have hnone : lastMatch (fun item =>
          (madeGrant item).any fun grant => grant.1 = agentId) items = none := by
        rw [lastMatch_eq_none_iff] at hlast ⊢
        intro item hmem
        rw [← Bool.not_eq_true]
        intro hmade
        exact Bool.false_ne_true
          ((hlast item hmem).symm.trans (hnarrow item hmem hmade))
      rw [hnone]
      rfl
  | some item =>
      obtain ⟨hmem, hwrites⟩ := lastMatch_spec hlast
      have hsame : madeGrant item = writtenGrant item :=
        madeGrant_eq_written (hint item hmem) (htexts agentId item · hlast)
      have hmade := lastMatch_of_imp hnarrow hlast (by rw [hsame]; exact hwrites)
      rw [hmade, Option.bind_some, Option.bind_some, hsame]

/-- What is granted of a text is within the floats. -/
theorem madeGrant_lt (hloads : loads interp (strip envValue) = .ok (.list items))
    {grant : Grant} (hmem : grant ∈ items.filterMap madeGrant) {q : ℚ}
    (hexpiry : grant.2.validUntil = some (.rat q)) :
    |q| < Binary64.topPower - Binary64.halfPlace := by
  obtain ⟨item, hitem, hmade⟩ := List.mem_filterMap.mp hmem
  obtain ⟨element, helement, hmade⟩ := Option.bind_eq_some_iff.mp hmade
  obtain ⟨validUntil, hvalid, hgrant⟩ := Option.bind_eq_some_iff.mp hmade
  cases hgrant
  cases loads_inRange hloads with
  | list hitems =>
      refine madeExpiry_lt (scopedElement_inRange (hitems item hitem) helement) ?_
      rw [hvalid, ← hexpiry]
      rfl

/-- An agent whose last element has a string for a number beyond the floats misses
the expiry that is written there. -/
theorem texts_of_loadsExactly
    (hloads : loads interp (strip envValue) = .ok (.list items))
    (h : LoadsExactly interp envValue) {agentId : PyStr} {item : PyVal}
    {element : ScopedElement}
    (hlast : lastMatch (writesFor agentId) items = some item)
    (helement : scopedElement item = some element) :
    ¬ OverflowingText element.expiry := by
  intro hoverflow
  obtain ⟨_, n, hwritten, hlarge⟩ := expiry_of_overflow hoverflow
  have hgrant : writtenGrant item = some (element.grant (some (.rat n))) := by
    rw [writtenGrant, helement]
    simp only [Option.bind_eq_bind, Option.bind_some, hwritten]
  have hlookup := (h (TrustBoundary.fresh 0 false)).2 agentId
  rw [TrustBoundary.loadFromEnv_of_not_raises _ (not_envRaises_of_loadsExactly h),
    TrustBoundary.trustAll_trustedAgents, madeGrants_of_list hloads,
    writtenGrants_of_list hloads, lookup_grantAll, lookup_grantAll,
    lastMatch_filterMap writtenGrant] at hlookup
  change _ = (Option.map Prod.snd
    ((lastMatch (writesFor agentId) items).bind writtenGrant)).or _ at hlookup
  rw [hlast, Option.bind_some, hgrant, Option.map_some, Option.some_or] at hlookup
  cases hmade : lastMatch (fun grant => decide (grant.1 = agentId))
      (items.filterMap madeGrant) with
  | none =>
      rw [hmade] at hlookup
      cases hlookup
  | some grant =>
      rw [hmade, Option.map_some, Option.some_or] at hlookup
      have hbound := madeGrant_lt hloads (lastMatch_spec hmade).1
        (congrArg TrustEntry.validUntil (Option.some.inj hlookup))
      exact absurd hlarge (not_le.mpr hbound)

end

/-- The variable is loaded without an exception and grants exactly what is
written in it, whatever was granted before, if and only if the parser raises
nothing but JSONDecodeError and every written expiry that decides has a float. -/
theorem load_from_env_exact_iff (interp : Interpreter) (envValue : PyStr) :
    LoadsExactly interp envValue ↔ EnvLoadable interp envValue := by
  constructor
  · intro h
    have hraises := not_envRaises_of_loadsExactly h
    refine ⟨?_, ?_, ?_⟩
    · intro hbrace exc hexc
      by_contra hdecode
      exact hraises (Or.inl ⟨exc, hexc, hdecode, hbrace⟩)
    · intro items hitems item hmem hoverflow
      exact hraises (Or.inr ⟨items, hitems, item, hmem, hoverflow⟩)
    · intro items hitems agentId item element hlast helement
      exact texts_of_loadsExactly hitems h hlast helement
  · intro h tb
    have hraises : ¬ EnvRaises interp envValue := by
      rintro (⟨exc, hexc, hdecode, hbrace⟩ | ⟨items, hitems, item, hmem, hoverflow⟩)
      · exact hdecode (h.reads hbrace exc hexc)
      · exact h.integers items hitems item hmem hoverflow
    rw [tb.loadFromEnv_of_not_raises hraises]
    refine ⟨rfl, fun agentId => ?_⟩
    rw [TrustBoundary.trustAll_trustedAgents]
    by_cases hlist : ∃ items, loads interp (strip envValue) = .ok (.list items)
    · obtain ⟨items, hitems⟩ := hlist
      rw [madeGrants_of_list hitems, writtenGrants_of_list hitems]
      exact lookup_madeGrants (h.integers items hitems) (h.texts items hitems)
        tb.trustedAgents agentId
    · rw [madeGrants_of_other hlist]

/-- A one-element array whose expiry is an integer of 310 digits. -/
def overflowingEnv : PyStr :=
  py "[\x7b\"agent_id\":\"a\",\"valid_until\":1" ++ List.replicate 309 0x30 ++
    py "\x7d]"

/-- OverflowError escapes from the loader. -/
theorem load_from_env_overflow_escapes :
    ¬ LoadsExactly ⟨fun _ => [], 100⟩ overflowingEnv := by
  intro h
  have hraise : ((TrustBoundary.fresh 0 false).loadFromEnv ⟨fun _ => [], 100⟩
      overflowingEnv).1.isOk = false := by
    decide +kernel
  rw [(h (TrustBoundary.fresh 0 false)).1] at hraise
  cases hraise

end QwedA2A
