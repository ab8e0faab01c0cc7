/-
Trust grants read from QWED_A2A_TRUSTED_AGENTS: a JSON array of scoped entries, or
agent IDs between commas.
-/
import QwedA2A.TrustBoundary
import QwedA2A.JsonLoads

namespace QwedA2A

open PyJson

/-- `entries.get(key)`. -/
def getOrNone (entries : PyDict) (key : PyStr) : PyVal :=
  (dictGet entries key).getD .pyNone

def PyVal.text : PyVal → Option PyStr
  | .str s => some s
  | _ => none

/-- `for item in value`. -/
def PyVal.iter : PyVal → Except PyExc (List PyVal)
  | .list items => .ok items
  | .dict entries => .ok (entries.map Prod.fst)
  | .str s => .ok (s.map fun c => .str [c])
  | _ => .error ⟨.typeError, py "object is not iterable"⟩

def floatOverflowExc : PyExc :=
  ⟨.overflowError, py "int too large to convert to float"⟩

namespace TrustBoundary

/-- Validate and convert a scope list; `none` is the skip marker. -/
def parseScopeList (raw : PyVal) : Option (Option (Finset PyStr)) :=
  match raw with
  | .pyNone => some none
  | .list items =>
      if items = [] then none
      else (items.mapM PyVal.text).map fun texts => some texts.toFinset
  | _ => none

/-- Parse and validate an expiry: the value, and whether to skip the entry. -/
def parseValidUntil (raw : PyVal) : Except PyExc (Option PyNum × Bool) :=
  match raw with
  | .pyNone => .ok (none, false)
  | .int n =>
      -- `math.isfinite` converts to a float before it looks.
      if (toFloat n).isFinite then .ok (some (.rat n), false)
      else .error floatOverflowExc
  | .float value _ =>
      if value.isFinite then .ok (some value, false) else .ok (none, true)
  | .str text =>
      match PyFloat.ofText text with
      | none => .ok (none, true)
      | some value =>
          if value.isFinite then .ok (some value, false) else .ok (none, true)
  | _ => .ok (none, true)

/-- Parse and load one element; the flag tells whether it was loaded. -/
def loadJsonEntry (tb : TrustBoundary) (item : PyVal) :
    Except PyExc (Bool × TrustBoundary) :=
  match item with
  | .dict entries =>
      match getOrNone entries (py "agent_id") with
      | .str rawId =>
          if strip rawId = [] then .ok (false, tb)
          else
            match parseScopeList (getOrNone entries (py "allowed_receivers")),
                parseScopeList (getOrNone entries (py "allowed_payload_types")) with
            | some receivers, some types => do
                let (validUntil, skip) ←
                  parseValidUntil (getOrNone entries (py "valid_until"))
                if skip then pure (false, tb)
                else pure (true, tb.trustAgent (strip rawId)
                  ⟨receivers, types, validUntil⟩)
            | _, _ => .ok (false, tb)
      | _ => .ok (false, tb)
  | _ => .ok (false, tb)

/-- The loop over the elements; an exception leaves the grants made so far. -/
def loadJsonItems (count : ℕ) (tb : TrustBoundary) :
    List PyVal → Except PyExc Bool × TrustBoundary
  | [] => (.ok (decide (0 < count)), tb)
  | item :: rest =>
      match tb.loadJsonEntry item with
      | .error exc => (.error exc, tb)
      | .ok (loaded, tb) => loadJsonItems (if loaded then count + 1 else count) tb rest

def loadJsonEntries (interp : Interpreter) (tb : TrustBoundary)
    (envValue : PyStr) : Except PyExc Bool × TrustBoundary :=
  match loads interp envValue with
  | .error exc =>
      if exc.type = .jsonDecodeError then (.ok false, tb) else (.error exc, tb)
  | .ok value =>
      match value.iter with
      | .error exc => (.error exc, tb)
      | .ok items => loadJsonItems 0 tb items

/-- Trust every non-blank part of a comma-separated text, without scope. -/
def trustParts (tb : TrustBoundary) (text : PyStr) : TrustBoundary :=
  (text.splitOn 0x2C).foldl (fun tb part =>
    if strip part = [] then tb else tb.trustAgent (strip part) {}) tb

def loadFromEnv (interp : Interpreter) (tb : TrustBoundary) (envValue : PyStr) :
    Except PyExc Unit × TrustBoundary :=
  if envValue = [] then (.ok (), tb)
  else
    let stripped := strip envValue
    if (py "[").isPrefixOf stripped then
      let result := loadJsonEntries interp tb stripped
      (result.1.map fun _ => (), result.2)
    else if (py "\x7b").isPrefixOf stripped then (.ok (), tb)
    else
      match loads interp stripped with
      | .ok _ => (.ok (), tb)
      | .error exc =>
          if exc.type = .jsonDecodeError then (.ok (), tb.trustParts stripped)
          else (.error exc, tb)

end TrustBoundary

end QwedA2A
