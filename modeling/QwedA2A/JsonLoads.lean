/-
`json.loads` on a text.  Containers recurse on the nesting the interpreter
allows; the loops inside a container run over its text.  A malformed text raises
JSONDecodeError, an oversized integer ValueError, deep nesting RecursionError.
-/
import QwedA2A.PyJson
import QwedA2A.PyFloat

namespace QwedA2A

namespace PyJson

/-- The interpreter `json.loads` runs in: how floats print, and how many
containers may nest before it gives up. -/
structure Interpreter where
  floatRepr : PyNum → PyStr
  depth : ℕ

def decodeExc (message : PyStr) : PyExc := ⟨.jsonDecodeError, message⟩

def expectingValue : PyExc := decodeExc (py "Expecting value")

def unterminatedString : PyExc := decodeExc (py "Unterminated string starting at")

def invalidUnicodeEscape : PyExc := decodeExc (py "Invalid \\uXXXX escape")

def expectingComma : PyExc := decodeExc (py "Expecting ',' delimiter")

def expectingName : PyExc :=
  decodeExc (py "Expecting property name enclosed in double quotes")

/-- JSON white space, which is less than `str.isspace`. -/
def isBlank (c : PyChar) : Bool :=
  c.val = 0x20 || c.val = 0x09 || c.val = 0x0A || c.val = 0x0D

def skipBlanks (text : PyStr) : PyStr := text.dropWhile isBlank

def hexDigitValue (c : PyChar) : Option ℕ :=
  if 0x30 ≤ c.val ∧ c.val ≤ 0x39 then some (c.val - 0x30)
  else if 0x61 ≤ c.val ∧ c.val ≤ 0x66 then some (c.val - 0x57)
  else if 0x41 ≤ c.val ∧ c.val ≤ 0x46 then some (c.val - 0x37)
  else none

def scanHex4 : PyStr → Option (ℕ × PyStr)
  | a :: b :: c :: d :: rest => do
      let a ← hexDigitValue a
      let b ← hexDigitValue b
      let c ← hexDigitValue c
      let d ← hexDigitValue d
      some (4096 * a + 256 * b + 16 * c + d, rest)
  | _ => none

/-- The character behind a backslash, other than `u`. -/
def simpleEscape (c : PyChar) : Option PyChar :=
  if c.val = 0x22 ∨ c.val = 0x5C ∨ c.val = 0x2F then some c
  else if c.val = 0x62 then some 0x08
  else if c.val = 0x66 then some 0x0C
  else if c.val = 0x6E then some 0x0A
  else if c.val = 0x72 then some 0x0D
  else if c.val = 0x74 then some 0x09
  else none

/-- A low surrogate that follows as an escape of its own, if one does. -/
def scanLowSurrogate (text : PyStr) : Except PyExc (Option (ℕ × PyStr)) :=
  match text with
  | slash :: u :: rest =>
      if slash.val = 0x5C ∧ u.val = 0x75 then
        match scanHex4 rest with
        | none => .error invalidUnicodeEscape
        | some (low, rest) =>
            if 0xDC00 ≤ low ∧ low ≤ 0xDFFF then .ok (some (low, rest)) else .ok none
      else .ok none
  | _ => .ok none

/-- The character an escape stands for; surrogate pairs are joined. -/
def scanEscape (text : PyStr) : Except PyExc (PyChar × PyStr) :=
  match text with
  | [] => .error unterminatedString
  | c :: rest =>
      if c.val = 0x75 then
        match scanHex4 rest with
        | none => .error invalidUnicodeEscape
        | some (unit, rest) =>
            if 0xD800 ≤ unit ∧ unit ≤ 0xDBFF then do
              match ← scanLowSurrogate rest with
              | some (low, rest) =>
                  pure (Fin.ofNat _
                    (0x10000 + 0x400 * (unit - 0xD800) + (low - 0xDC00)), rest)
              | none => pure (Fin.ofNat _ unit, rest)
            else .ok (Fin.ofNat _ unit, rest)
      else
        match simpleEscape c with
        | some c => .ok (c, rest)
        | none => .error (decodeExc (py "Invalid \\escape: "))

/-- The rest of a string, up to its closing quote; control characters have to be
escaped. -/
def scanString : ℕ → PyStr → Except PyExc (PyStr × PyStr)
  | fuel + 1, c :: rest =>
      if c.val = 0x22 then .ok ([], rest)
      else if c.val = 0x5C then do
        let (char, rest) ← scanEscape rest
        let (chars, rest) ← scanString fuel rest
        pure (char :: chars, rest)
      else if c.val < 0x20 then
        .error (decodeExc (py "Invalid control character at"))
      else do
        let (chars, rest) ← scanString fuel rest
        pure (c :: chars, rest)
  | _, _ => .error unterminatedString

def wholeDigits (text : PyStr) : PyStr :=
  match text with
  | [] => []
  | c :: _ => if c.val = 0x30 then [c] else text.takeWhile PyDecimal.isDigit

def fractionDigits (text : PyStr) : PyStr :=
  match text with
  | [] => []
  | c :: rest =>
      if c.val = 0x2E then rest.takeWhile PyDecimal.isDigit else []

/-- An exponent with its digits, and what follows it; without digits there is
none. -/
def scanExponent (text : PyStr) : Option (ℤ × PyStr) :=
  match text with
  | [] => none
  | c :: rest =>
      if c.val = 0x65 ∨ c.val = 0x45 then
        let (negative, rest) := PyDecimal.splitSign rest
        let digits := rest.takeWhile PyDecimal.isDigit
        if digits = [] then none
        else
          some (if negative then -(PyDecimal.digitsValue digits : ℤ)
            else PyDecimal.digitsValue digits, rest.dropWhile PyDecimal.isDigit)
      else none

/-- `int(digits)` under the interpreter's digit limit. -/
def intLiteral (negative : Bool) (digits : PyStr) : Except PyExc PyVal :=
  if intMaxStrDigits < digits.length then
    .error ⟨.valueError, py "Exceeds the limit (4300 digits) for integer string conversion: value has " ++
      natText digits.length ++
      py " digits; use sys.set_int_max_str_digits() to increase the limit"⟩
  else
    .ok (.int (if negative then -(PyDecimal.digitsValue digits : ℤ)
      else PyDecimal.digitsValue digits))

/-- An optional minus: whether it is there, and the rest. -/
def splitMinus (text : PyStr) : Bool × PyStr :=
  if text.head?.map Fin.val = some 0x2D then (true, text.tail) else (false, text)

def afterFraction (text : PyStr) : PyStr :=
  if fractionDigits text = [] then text
  else text.drop ((fractionDigits text).length + 1)

/-- `repr` of the float that a literal is read as: zero keeps its sign. -/
def Interpreter.signedRepr (interp : Interpreter) (negative : Bool) (value : PyNum) :
    PyStr :=
  if negative = true ∧ value = .rat 0 then py "-" ++ interp.floatRepr value
  else interp.floatRepr value

def floatLiteral (interp : Interpreter) (negative : Bool)
    (whole fraction : PyStr) (exponent : ℤ) : PyVal :=
  let coefficient : ℤ := PyDecimal.digitsValue (whole ++ fraction)
  let value := toFloat (DecimalRounding.Decimal.value
    ⟨if negative then -coefficient else coefficient, exponent - fraction.length⟩)
  .float value (interp.signedRepr negative value)

/-- A number: an integer, unless a fraction or an exponent makes it a float. -/
def scanNumber (interp : Interpreter) (text : PyStr) :
    Except PyExc (PyVal × PyStr) :=
  let negative := (splitMinus text).1
  let body := (splitMinus text).2
  let whole := wholeDigits body
  let fraction := fractionDigits (body.drop whole.length)
  let rest := afterFraction (body.drop whole.length)
  if whole = [] then .error expectingValue
  else
    match scanExponent rest with
    | some (exponent, rest) =>
        .ok (floatLiteral interp negative whole fraction exponent, rest)
    | none =>
        if fraction = [] then do
          let value ← intLiteral negative whole
          pure (value, rest)
        else .ok (floatLiteral interp negative whole fraction 0, rest)

def literals (interp : Interpreter) : List (PyStr × PyVal) :=
  [(py "null", .pyNone), (py "true", .bool true), (py "false", .bool false),
    (py "NaN", .float .nan (interp.floatRepr .nan)),
    (py "Infinity", .float .inf (interp.floatRepr .inf)),
    (py "-Infinity", .float .negInf (interp.floatRepr .negInf))]

def scanScalar (interp : Interpreter) (text : PyStr) :
    Except PyExc (PyVal × PyStr) :=
  match (literals interp).find? fun literal => literal.1.isPrefixOf text with
  | some literal => .ok (literal.2, text.drop literal.1.length)
  | none => scanNumber interp text

abbrev Scanner (α : Type) := PyStr → Except PyExc (α × PyStr)

/-- The elements of a container that is not empty, separated by commas, and its
closing character. -/
def scanElements {α : Type} (element : Scanner α) (close : ℕ) (missing : PyExc) :
    ℕ → Scanner (List α)
  | 0, _ => .error missing
  | fuel + 1, text => do
      let (item, rest) ← element text
      match skipBlanks rest with
      | [] => .error expectingComma
      | c :: rest =>
          if c.val = close then pure ([item], rest)
          else if c.val = 0x2C then do
            let (items, rest) ←
              scanElements element close missing fuel (skipBlanks rest)
            pure (item :: items, rest)
          else .error expectingComma

/-- The items of an array that is not empty, and its closing bracket. -/
def scanItems (inner : Scanner PyVal) : ℕ → Scanner (List PyVal) :=
  scanElements inner 0x5D expectingValue

def scanArray (inner : Scanner PyVal) : Scanner PyVal := fun text =>
  let text := skipBlanks text
  if text.head?.map Fin.val = some 0x5D then .ok (.list [], text.tail)
  else do
    let (items, rest) ← scanItems inner text.length text
    pure (.list items, rest)

/-- One member of an object: its name, a colon, and its value. -/
def scanMember (inner : Scanner PyVal) : Scanner (PyStr × PyVal) := fun text =>
  match text with
  | [] => .error expectingName
  | c :: rest =>
      if c.val = 0x22 then do
        let (name, rest) ← scanString rest.length rest
        match skipBlanks rest with
        | [] => .error (decodeExc (py "Expecting ':' delimiter"))
        | c :: rest =>
            if c.val = 0x3A then do
              let (value, rest) ← inner (skipBlanks rest)
              pure ((name, value), rest)
            else .error (decodeExc (py "Expecting ':' delimiter"))
      else .error expectingName

/-- The members of an object that is not empty, and its closing brace. -/
def scanMembers (inner : Scanner PyVal) : ℕ → Scanner (List (PyStr × PyVal)) :=
  scanElements (scanMember inner) 0x7D expectingName

/-- `entries[name] = value`: a repeated name keeps its place. -/
def setEntry (entries : PyDict) (name : PyStr) (value : PyVal) : PyDict :=
  if (dictGet entries name).isSome then
    entries.map fun entry =>
      match entry.1 with
      | .str found => if found = name then (.str name, value) else entry
      | _ => entry
  else entries ++ [(.str name, value)]

def scanObject (inner : Scanner PyVal) : Scanner PyVal := fun text =>
  let text := skipBlanks text
  if text.head?.map Fin.val = some 0x7D then .ok (.dict [], text.tail)
  else do
    let (members, rest) ← scanMembers inner text.length text
    pure (.dict (members.foldl
      (fun entries member => setEntry entries member.1 member.2) []), rest)

def nestingExc (kind : PyStr) : PyExc :=
  ⟨.recursionError, py "maximum recursion depth exceeded while decoding a JSON " ++
    kind ++ py " from a unicode string"⟩

def scanNested (nested : Option (Scanner PyVal)) (kind : PyStr)
    (container : Scanner PyVal → Scanner PyVal) : Scanner PyVal := fun text =>
  match nested with
  | none => .error (nestingExc kind)
  | some inner => container inner text

/-- One value; `nested` reads the values inside a container. -/
def scanWith (interp : Interpreter) (nested : Option (Scanner PyVal)) :
    Scanner PyVal
  | [] => .error expectingValue
  | c :: rest =>
      if c.val = 0x22 then do
        let (text, rest) ← scanString rest.length rest
        pure (.str text, rest)
      else if c.val = 0x5B then scanNested nested (py "array") scanArray rest
      else if c.val = 0x7B then scanNested nested (py "object") scanObject rest
      else scanScalar interp (c :: rest)

def scanValue (interp : Interpreter) : ℕ → Scanner PyVal
  | 0 => scanWith interp none
  | depth + 1 => scanWith interp (some (scanValue interp depth))

/-- `json.loads(text)`. -/
def loads (interp : Interpreter) (text : PyStr) : Except PyExc PyVal :=
  if text.head?.map Fin.val = some 0xFEFF then
    .error (decodeExc (py "Unexpected UTF-8 BOM (decode using utf-8-sig)"))
  else do
    let (value, rest) ← scanValue interp interp.depth (skipBlanks text)
    if skipBlanks rest = [] then pure value
    else .error (decodeExc (py "Extra data"))

/-- A text that opens with a bracket is read as a list or not at all. -/
theorem loads_bracket {interp : Interpreter} {text : PyStr} {value : PyVal}
    (hopen : (py "[").isPrefixOf text = true)
    (h : loads interp text = .ok value) : ∃ items, value = .list items := by
  obtain ⟨tail, rfl⟩ := List.isPrefixOf_iff_prefix.mp hopen
  obtain ⟨_, h⟩ := guard_eq_ok.mp h
  obtain ⟨⟨found, rest⟩, hscan, h⟩ := bind_eq_ok.mp h
  have hfound : found = value := by
    simp only at h
    split_ifs at h
    exact Except.ok.inj h
  subst hfound
  have hskip : skipBlanks (py "[" ++ tail) = 0x5B :: tail := rfl
  have hnested : ∃ nested, scanNested nested (py "array") scanArray tail =
      .ok (found, rest) := by
    cases hdepth : interp.depth with
    | zero => exact ⟨none, by rw [hdepth, hskip] at hscan; exact hscan⟩
    | succ depth =>
        exact ⟨some (scanValue interp depth), by
          rw [hdepth, hskip] at hscan
          exact hscan⟩
  obtain ⟨nested, hnested⟩ := hnested
  cases nested with
  | none => cases hnested
  | some inner =>
      simp only [scanNested, scanArray] at hnested
      split_ifs at hnested
      · cases hnested
        exact ⟨[], rfl⟩
      · obtain ⟨⟨items, last⟩, _, hitems⟩ := bind_eq_ok.mp hnested
        cases hitems
        exact ⟨items, rfl⟩

theorem scanScalar_ne_list {interp : Interpreter} {text : PyStr}
    {items : List PyVal} {rest : PyStr} :
    scanScalar interp text ≠ .ok (.list items, rest) := by
  intro h
  rw [scanScalar] at h
  split at h
  next literal hliteral =>
    have hmem := List.mem_of_find?_eq_some hliteral
    have hlist : literal.2 = .list items := (Prod.mk.inj (Except.ok.inj h)).1
    simp only [literals, List.mem_cons, List.not_mem_nil, or_false] at hmem
    rcases hmem with rfl | rfl | rfl | rfl | rfl | rfl <;> cases hlist
  next =>
    rw [scanNumber] at h
    obtain ⟨_, h⟩ := guard_eq_ok.mp h
    split at h
    · cases h
    · split_ifs at h
      · obtain ⟨number, hnumber, h⟩ := bind_eq_ok.mp h
        cases h
        obtain ⟨_, hnumber⟩ := guard_eq_ok.mp hnumber
        cases hnumber
      · cases h

/-- A list stands behind a bracket, at whatever nesting. -/
theorem scanWith_list {interp : Interpreter} {nested : Option (Scanner PyVal)}
    {text : PyStr} {items : List PyVal} {rest : PyStr}
    (h : scanWith interp nested text = .ok (.list items, rest)) :
    (py "[").isPrefixOf text = true := by
  cases text with
  | nil => cases h
  | cons c tail =>
      rw [scanWith] at h
      split_ifs at h with hquote harray hobject
      · obtain ⟨⟨chars, last⟩, _, h⟩ := bind_eq_ok.mp h
        cases h
      · rw [List.isPrefixOf_iff_prefix]
        exact ⟨tail, congrArg (· :: tail) (Fin.ext harray.symm)⟩
      · cases nested with
        | none => cases h
        | some inner =>
            simp only [scanNested, scanObject] at h
            split_ifs at h
            · cases h
            · obtain ⟨⟨members, last⟩, _, h⟩ := bind_eq_ok.mp h
              cases h
      · exact absurd h scanScalar_ne_list

/-- A text that does not begin with a blank and is read as a list opens with a
bracket. -/
theorem loads_list {interp : Interpreter} {text : PyStr} {items : List PyVal}
    (hstart : skipBlanks text = text)
    (h : loads interp text = .ok (.list items)) :
    (py "[").isPrefixOf text = true := by
  obtain ⟨_, h⟩ := guard_eq_ok.mp h
  obtain ⟨⟨found, rest⟩, hscan, h⟩ := bind_eq_ok.mp h
  simp only at h
  split_ifs at h
  cases h
  rw [hstart] at hscan
  cases hdepth : interp.depth with
  | zero =>
      rw [hdepth] at hscan
      exact scanWith_list hscan
  | succ depth =>
      rw [hdepth] at hscan
      exact scanWith_list hscan

end PyJson

end QwedA2A
