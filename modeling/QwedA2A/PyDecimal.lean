/-
Python's `decimal.Decimal` under the default context: reading a number from the
text of a value, and the arithmetic, each operation rounded once.
-/
import QwedA2A.PyValue
import QwedA2A.DecimalRounding

namespace QwedA2A

open DecimalRounding

/-- What `Decimal(text)` can be. -/
inductive PyDecimal where
  | finite (number : Decimal)
  | infinite
  | nan
deriving DecidableEq

namespace PyDecimal

def digitZeros : List ℕ :=
  [0x30, 0x660, 0x6F0, 0x7C0, 0x966, 0x9E6, 0xA66, 0xAE6, 0xB66, 0xBE6, 0xC66,
    0xCE6, 0xD66, 0xDE6, 0xE50, 0xED0, 0xF20, 0x1040, 0x1090, 0x17E0, 0x1810,
    0x1946, 0x19D0, 0x1A80, 0x1A90, 0x1B50, 0x1BB0, 0x1C40, 0x1C50, 0xA620,
    0xA8D0, 0xA900, 0xA9D0, 0xA9F0, 0xAA50, 0xABF0, 0xFF10, 0x104A0, 0x10D30,
    0x11066, 0x110F0, 0x11136, 0x111D0, 0x112F0, 0x11450, 0x114D0, 0x11650,
    0x116C0, 0x11730, 0x118E0, 0x11950, 0x11C50, 0x11D50, 0x11DA0, 0x16A60,
    0x16AC0, 0x16B50, 0x1D7CE, 0x1D7D8, 0x1D7E2, 0x1D7EC, 0x1D7F6, 0x1E140,
    0x1E2F0, 0x1E950, 0x1FBF0]

/-- The ASCII form of one character of a numeral, if it has one. -/
def asciiChar (c : PyChar) : Option PyChar :=
  if 0 < c.val ∧ c.val ≤ 127 then some c
  else if c.isSpace then some 0x20
  else
    (digitZeros.find? fun first => decide (first ≤ c.val ∧ c.val < first + 10)).map
      fun first => Fin.ofNat _ (0x30 + (c.val - first))

/-- The text as the parser reads it: stripped, without underscores, in ASCII. -/
def asciiText (text : PyStr) : Option PyStr :=
  ((strip text).filter fun c => c.val ≠ 0x5F).mapM asciiChar

def isDigit (c : PyChar) : Bool := decide (0x30 ≤ c.val ∧ c.val ≤ 0x39)

def digitsValue (digits : PyStr) : ℕ :=
  digits.foldl (fun value c => 10 * value + (c.val - 0x30)) 0

/-- An optional sign: whether it is a minus, and the rest. -/
def splitSign (text : PyStr) : Bool × PyStr :=
  match text with
  | c :: rest =>
      if c.val = 0x2D then (true, rest)
      else if c.val = 0x2B then (false, rest)
      else (false, text)
  | [] => (false, [])

/-- What may follow the digits: nothing, or an exponent. -/
def exponentOf (text : PyStr) : Option ℤ :=
  match text with
  | [] => some 0
  | c :: rest =>
      let (negative, digits) := splitSign rest
      if (lowerAscii c).val = 0x65 ∧ digits ≠ [] ∧ digits.all isDigit = true then
        some (if negative then -(digitsValue digits : ℤ) else digitsValue digits)
      else none

def parseFinite (negative : Bool) (text : PyStr) : Option Decimal :=
  let whole := text.takeWhile isDigit
  let rest := text.dropWhile isDigit
  let pointed := rest.head?.map Fin.val = some 0x2E
  let fraction := if pointed then rest.tail.takeWhile isDigit else []
  let rest := if pointed then rest.tail.dropWhile isDigit else rest
  if whole ++ fraction = [] then none
  else
    (exponentOf rest).map fun exponent =>
      let coefficient : ℤ := digitsValue (whole ++ fraction)
      ⟨if negative then -coefficient else coefficient,
        exponent - fraction.length⟩

def maxPrecision : ℕ := 999999999999999999

def inRange (number : Decimal) : Bool :=
  decide (numDigits number.coefficient.natAbs ≤ maxPrecision ∧
    number.adjusted ≤ maxPrecision ∧
    -(2 * (maxPrecision : ℤ) - 1) ≤ number.exponent)

def parseSpecial (text : PyStr) : Option PyDecimal :=
  let lower := text.map lowerAscii
  let named := lower.takeWhile fun c => !isDigit c
  let digits := lower.dropWhile fun c => !isDigit c
  if lower = py "inf" ∨ lower = py "infinity" then some .infinite
  else if (named = py "nan" ∨ named = py "snan") ∧ digits.all isDigit = true then
    some .nan
  else none

/-- `Decimal(text)`; `none` is InvalidOperation. -/
def ofText (text : PyStr) : Option PyDecimal := do
  let (negative, body) := splitSign (← asciiText text)
  match parseSpecial body with
  | some special => some special
  | none =>
      let number ← parseFinite negative body
      if inRange number then some (.finite number) else none

end PyDecimal

def invalidOperationExc : PyExc :=
  ⟨.invalidOperation, py "[<class 'decimal.InvalidOperation'>]"⟩

/-- `Decimal(str(value))`. -/
def decimalOf (value : PyVal) : Except PyExc PyDecimal := do
  match ← value.scalarText with
  | none => .error invalidOperationExc
  | some text =>
      match PyDecimal.ofText text with
      | some number => .ok number
      | none => .error invalidOperationExc

/-- The default context: 28 digits, half-even, overflow trapped. -/
def defaultContext : Context := ⟨28, 999999, -1000026⟩

/-- The rounded result of an operation, or the trapped overflow. -/
def contextResult (exact : Decimal) : Except PyExc Decimal :=
  match defaultContext.fix exact with
  | some result => .ok result
  | none => .error ⟨.decimalOverflow, py "[<class 'decimal.Overflow'>]"⟩

def decimalAdd (a b : Decimal) : Except PyExc Decimal :=
  contextResult (a.addExact b)

def decimalSub (a b : Decimal) : Except PyExc Decimal :=
  contextResult (a.addExact b.neg)

def decimalMul (a b : Decimal) : Except PyExc Decimal :=
  contextResult (a.mulExact b)

/-- `number.quantize(Decimal("0.01"), rounding=ROUND_HALF_UP)`. -/
def quantizeCents (number : Decimal) : Except PyExc Decimal :=
  match defaultContext.quantizeHalfUp number (-2) with
  | some result => .ok result
  | none => .error invalidOperationExc

/-- `str(number)` of a quantized amount, which is always in plain notation. -/
def centsText (number : Decimal) : PyStr :=
  let digits := number.coefficient.natAbs
  let whole := natText (digits / 100)
  let fraction := [Fin.ofNat _ (0x30 + digits / 10 % 10),
    Fin.ofNat _ (0x30 + digits % 10)]
  (if number.coefficient < 0 then py "-" else []) ++ whole ++ py "." ++ fraction

/-- A numeral has its value, whatever it is written with. -/
example : PyDecimal.ofText (py " -1_2.50e3 ") = some (.finite ⟨-1250, 1⟩) := by
  decide +kernel

theorem contextResult_ok {exact result : Decimal}
    (h : contextResult exact = .ok result) :
    defaultContext.fix exact = some result := by
  rw [contextResult] at h
  split at h
  next found hfix =>
    cases h
    exact hfix
  next => cases h

theorem decimalAdd_nonneg {a b result : Decimal} (h : decimalAdd a b = .ok result)
    (ha : 0 ≤ a.value) (hb : 0 ≤ b.value) : 0 ≤ result.value := by
  apply defaultContext.fix_value_nonneg (contextResult_ok h)
  rw [Decimal.addExact_value]
  exact add_nonneg ha hb

theorem decimalMul_nonneg {a b result : Decimal} (h : decimalMul a b = .ok result)
    (ha : 0 ≤ a.value) (hb : 0 ≤ b.value) : 0 ≤ result.value := by
  apply defaultContext.fix_value_nonneg (contextResult_ok h)
  rw [Decimal.mulExact_value]
  exact mul_nonneg ha hb

/-- A sum or a product is exact exactly when its exact value fits. -/
theorem decimalAdd_value_iff {a b result : Decimal}
    (h : decimalAdd a b = .ok result) :
    result.value = a.value + b.value ↔
      defaultContext.Fits (a.value + b.value) := by
  rw [← Decimal.addExact_value]
  exact Context.fix_value_iff (by decide) (contextResult_ok h)

theorem decimalMul_value_iff {a b result : Decimal}
    (h : decimalMul a b = .ok result) :
    result.value = a.value * b.value ↔
      defaultContext.Fits (a.value * b.value) := by
  rw [← Decimal.mulExact_value]
  exact Context.fix_value_iff (by decide) (contextResult_ok h)

def cents (x : ℚ) : ℤ := ⌊100 * x + 1 / 2⌋

def maxCents : ℕ := 10 ^ 28

theorem quantizeCents_ok_iff {number result : Decimal} (h : 0 ≤ number.value) :
    quantizeCents number = .ok result ↔
      result = ⟨cents number.value, -2⟩ ∧ cents number.value < maxCents := by
  have hcents : (number.rescaleHalfUp (-2)).coefficient = cents number.value := by
    rw [Decimal.rescaleHalfUp_coefficient h, cents]
    congr 2
    norm_num
    ring
  have hnumber : number.rescaleHalfUp (-2) = ⟨cents number.value, -2⟩ :=
    calc number.rescaleHalfUp (-2)
        = ⟨(number.rescaleHalfUp (-2)).coefficient,
            (number.rescaleHalfUp (-2)).exponent⟩ := rfl
      _ = ⟨cents number.value, -2⟩ := by
          rw [hcents, Decimal.rescaleHalfUp_exponent]
  have hnonneg : 0 ≤ cents number.value :=
    Int.floor_nonneg.mpr (by positivity)
  have hdigits : numDigits (cents number.value).natAbs ≤ 28 ↔
      cents number.value < maxCents := by
    rw [numDigits_le_iff (by norm_num), maxCents]
    omega
  rw [quantizeCents, Context.quantizeHalfUp]
  simp only [hnumber, defaultContext, hdigits]
  by_cases hsmall : cents number.value < maxCents
  · simp [hsmall, eq_comm]
  · simp [hsmall]

end QwedA2A
