/-
The code guard: a size cap, a parse, and two scans for dangerous constructs.
What it finds is never a verified result.
-/
import QwedA2A.Schema
import QwedA2A.PyJson

namespace QwedA2A

/-- The parser and the two scans the guard runs, over the parser's trees. -/
structure CodeAnalysis (Tree : Type) where
  parse : PyStr → Except PyExc Tree
  scanAstThreats : Tree → List PyStr
  scanRegexThreats : PyStr → List PyStr

def maxCodeBytes : ℕ := 256 * 1024

def codeBlocked (reason : PyStr) : EngineResult where
  verified := false
  engine := py "code_guard"
  reason := reason

variable {Tree : Type}

def scanCode (analysis : CodeAnalysis Tree) (code : PyStr) (tree : Tree) :
    EngineResult :=
  let astThreats := analysis.scanAstThreats tree
  let regexThreats := analysis.scanRegexThreats code
  if astThreats ≠ [] then
    { codeBlocked (py "Dangerous constructs detected via AST analysis: " ++
        joinWith (py ", ") astThreats) with
      threats := some astThreats
      analysis := some (py "ast") }
  else if regexThreats ≠ [] then
    { codeBlocked (py "Suspicious patterns detected via heuristic scan: " ++
        joinWith (py ", ") regexThreats) with
      threats := some regexThreats
      analysis := some (py "regex") }
  else
    { verified := false
      status := some (py "heuristic_pass")
      engine := py "code_guard"
      reason := py "AST analysis and heuristic scan found no known dangerous constructs. This is a heuristic result — novel or deeply obfuscated attack patterns may not be detected."
      analysis := some (py "ast+regex") }

def verifyCode (analysis : CodeAnalysis Tree) (payload : PyDict) :
    Except PyExc EngineResult :=
  let code := (dictGet payload (py "code")).getD (.str [])
  if !code.truthy then
    .ok
      { verified := false
        status := some (py "heuristic_pass")
        engine := py "code_guard"
        reason := py "No code to analyze" }
  else
    match code with
    | .str code =>
        if maxCodeBytes < PyJson.utf8Size code then
          .ok (codeBlocked (py "Code exceeds the " ++ natText maxCodeBytes ++
            py "-byte analysis limit — cannot verify"))
        else
          match analysis.parse code with
          | .error exc =>
              if exc.type = .syntaxError then
                .ok (codeBlocked (py "Code failed AST parsing — cannot verify: " ++
                  exc.message))
              else .error exc
          | .ok tree => .ok (scanCode analysis code tree)
    | _ =>
        .ok
          { verified := false
            status := some (py "unverifiable")
            engine := py "code_guard"
            reason := py "CODE_EXECUTION payload code must be a string." }

theorem scanCode_not_verified (analysis : CodeAnalysis Tree) (code : PyStr)
    (tree : Tree) : (scanCode analysis code tree).verified = false := by
  rw [scanCode]
  split_ifs with hthreats hanalysis
  · rfl
  · rfl
  · rfl

/-- The code guard never reports a verified result. -/
theorem verifyCode_not_verified {analysis : CodeAnalysis Tree} {payload : PyDict}
    {result : EngineResult} (h : verifyCode analysis payload = .ok result) :
    result.verified = false := by
  rw [verifyCode] at h
  split_ifs at h with hempty
  · cases h; rfl
  · split at h
    next code _ =>
      split_ifs at h with hlarge
      · cases h; rfl
      · split at h
        next exc _ =>
          split_ifs at h with hsyntax
          cases h
          rfl
        next tree _ =>
          cases h
          exact scanCode_not_verified _ _ _
    next => cases h; rfl

end QwedA2A
