/-
The logic guard: claims are compared after normalization, and a claim both
asserted and negated is a contradiction.  What it finds is never a verified
result.
-/
import QwedA2A.Schema
import QwedA2A.PyJson

namespace QwedA2A

/-- What the guard uses of `unicodedata` and of the case and printability tables
of `str`. -/
structure UnicodeData where
  isFormat : PyChar → Bool
  isPrintable : PyChar → Bool
  nfkc : PyStr → PyStr
  casefold : PyStr → PyStr

def isControl (c : PyChar) : Bool :=
  decide (c.val < 0x20 ∨ (0x7F ≤ c.val ∧ c.val ≤ 0x9F))

def ignorableNonCf (c : PyChar) : Bool :=
  let n := c.val
  n == 0x34F || n == 0x115F || n == 0x1160 || n == 0x17B4 || n == 0x17B5 ||
    (0x180B ≤ n && n ≤ 0x180F) || (0x2060 ≤ n && n ≤ 0x206F) || n == 0x3164 ||
    (0xFE00 ≤ n && n ≤ 0xFE0F) || n == 0xFFA0 || (0xFFF0 ≤ n && n ≤ 0xFFF8) ||
    (0xE0000 ≤ n && n ≤ 0xE0FFF)

def asciiInvisible (c : PyChar) : Bool :=
  decide (c.val < 0x09 ∨ (0x0E ≤ c.val ∧ c.val < 0x1C) ∨ c.val = 0x7F)

def normalizeClaim (ud : UnicodeData) (claim : PyStr) : PyStr :=
  if claim.all fun c => c.val < 0x80 then
    let claim :=
      if claim.all fun c => 0x20 ≤ c.val && c.val ≤ 0x7E then claim
      else claim.filter fun c => !asciiInvisible c
    joinWith (py " ") (splitWords (claim.map lowerAscii))
  else
    let text := claim.filter fun c => !ignorableNonCf c
    let text := text.filter fun c =>
      !(ud.isFormat c || (isControl c && !c.isSpace))
    let text := ud.nfkc (ud.casefold (ud.nfkc text))
    joinWith (py " ") (splitWords text)

/-- One character of a string's `repr`, inside the given quote. -/
def reprChar (ud : UnicodeData) (quote c : PyChar) : PyStr :=
  if c = quote ∨ c.val = 0x5C then [0x5C, c]
  else if c.val = 0x09 then py "\\t"
  else if c.val = 0x0A then py "\\n"
  else if c.val = 0x0D then py "\\r"
  else if (0x20 ≤ c.val ∧ c.val < 0x7F) ∨ (0x7F < c.val ∧ ud.isPrintable c = true) then
    [c]
  else if c.val < 0x100 then
    py "\\x" ++ [PyJson.hexDigit (c.val / 16), PyJson.hexDigit c.val]
  else if c.val < 0x10000 then PyJson.unicodeEscape c.val
  else
    py "\\U00" ++ [PyJson.hexDigit (c.val / 1048576),
      PyJson.hexDigit (c.val / 65536), PyJson.hexDigit (c.val / 4096),
      PyJson.hexDigit (c.val / 256), PyJson.hexDigit (c.val / 16),
      PyJson.hexDigit c.val]

/-- `repr` of a string: double quotes when it holds a single one only. -/
def reprStr (ud : UnicodeData) (s : PyStr) : PyStr :=
  let quote : PyChar := if 0x27 ∈ s ∧ 0x22 ∉ s then 0x22 else 0x27
  quote :: s.flatMap (reprChar ud quote) ++ [quote]

/-- `str` of a list of strings. -/
def reprList (ud : UnicodeData) (items : List PyStr) : PyStr :=
  py "[" ++ joinWith (py ", ") (items.map (reprStr ud)) ++ py "]"

def logicUnverifiable (reason : PyStr) : EngineResult where
  verified := false
  status := some (py "unverifiable")
  engine := py "logic_guard"
  reason := reason

/-- Claims asserted and claims negated so far. -/
structure Claims where
  positive : List PyStr := []
  negative : List PyStr := []

/-- The comparison key of an assertion; empty when it has no usable claim. -/
def claimKey (ud : UnicodeData) (entries : PyDict) : PyStr :=
  match dictGet entries (py "claim") with
  | some (.str claim) => normalizeClaim ud claim
  | _ => []

/-- One assertion of the list; the first malformed one ends the run. -/
def addAssertion (ud : UnicodeData) (claims : Claims) (assertion : PyVal) :
    Except EngineResult Claims :=
  match assertion with
  | .dict entries =>
      let key := claimKey ud entries
      if key = [] then
        .error (logicUnverifiable (py "LOGIC_ASSERTION payload contains incomplete assertion entry: each assertion must include a non-empty string claim."))
      else
        match (dictGet entries (py "negated")).getD (.bool false) with
        | .bool true => .ok { claims with negative := key :: claims.negative }
        | .bool false => .ok { claims with positive := key :: claims.positive }
        | _ =>
            .error (logicUnverifiable (py "LOGIC_ASSERTION payload contains malformed assertion entry: negated must be a boolean."))
  | _ =>
      .error (logicUnverifiable (py "LOGIC_ASSERTION payload contains malformed assertion entry: each assertion must be a mapping."))

/-- `sorted(positive & negative)`. -/
def Claims.contradictions (claims : Claims) : List PyStr :=
  (claims.positive.filter fun key => decide (key ∈ claims.negative)).dedup.insertionSort
    (· ≤ ·)

def verifyLogic (ud : UnicodeData) (payload : PyDict) : EngineResult :=
  match (dictGet payload (py "assertions")).getD (.list []) with
  | .list [] =>
      logicUnverifiable (py "LOGIC_ASSERTION payload missing required field: assertions list must be non-empty for verification.")
  | .list assertions =>
      match assertions.foldlM (addAssertion ud) {} with
      | .error result => result
      | .ok claims =>
          if claims.contradictions = [] then
            { verified := false
              status := some (py "heuristic_pass")
              engine := py "logic_guard"
              reason := py "No direct contradictions found after normalization. This is a heuristic result — homoglyph variants and semantic contradictions are not detected." }
          else
            { verified := false
              engine := py "logic_guard"
              reason := py "Logical contradiction detected: claims both asserted and negated: " ++
                reprList ud claims.contradictions
              contradictions := some claims.contradictions }
  | _ =>
      logicUnverifiable (py "LOGIC_ASSERTION payload missing required field: assertions must be a list for verification.")

/-- Every malformed assertion is reported as unverifiable. -/
theorem addAssertion_error {ud : UnicodeData} {claims : Claims} {assertion : PyVal}
    {result : EngineResult} (h : addAssertion ud claims assertion = .error result) :
    ∃ reason, result = logicUnverifiable reason := by
  cases assertion with
  | dict entries =>
      rw [addAssertion] at h
      rcases guard_eq_error.mp h with ⟨_, rfl⟩ | ⟨_, h⟩
      · exact ⟨_, rfl⟩
      split at h
      next => cases h
      next => cases h
      next => cases h; exact ⟨_, rfl⟩
  | _ => cases h; exact ⟨_, rfl⟩

theorem foldlM_addAssertion_error {ud : UnicodeData} {assertions : List PyVal}
    {claims : Claims} {result : EngineResult}
    (h : assertions.foldlM (addAssertion ud) claims = .error result) :
    ∃ reason, result = logicUnverifiable reason := by
  induction assertions generalizing claims with
  | nil => cases h
  | cons assertion rest ih =>
      rw [List.foldlM_cons] at h
      rcases bind_eq_error.mp h with hfirst | ⟨next, _, hrest⟩
      · exact addAssertion_error hfirst
      · exact ih hrest

/-- The logic guard never reports a verified result. -/
theorem verifyLogic_not_verified (ud : UnicodeData) (payload : PyDict) :
    (verifyLogic ud payload).verified = false := by
  rw [verifyLogic]
  split
  next => rfl
  next assertions _ =>
    split
    next result hresult =>
      obtain ⟨reason, rfl⟩ := foldlM_addAssertion_error hresult
      rfl
    next claims _ =>
      split_ifs with hempty
      · rfl
      · rfl
  next => rfl

end QwedA2A
