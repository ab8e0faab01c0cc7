/-
Python's `float`: rounding a number to binary64, and reading the text of one.
-/
import QwedA2A.PyDecimal
import QwedA2A.Binary64

namespace QwedA2A

/-- `float("-inf")`. -/
def PyNum.negInf : PyNum := .real ⊥

/-- `math.isfinite` of a float. -/
def PyNum.isFinite : PyNum → Bool
  | .real (some (some _)) => true
  | _ => false

@[simp] theorem PyNum.isFinite_rat (q : ℚ) : (PyNum.rat q).isFinite = true := rfl

@[simp] theorem PyNum.isFinite_inf : PyNum.inf.isFinite = false := rfl

@[simp] theorem PyNum.isFinite_negInf : PyNum.negInf.isFinite = false := rfl

/-- The float nearest to a number: infinite beyond the largest. -/
def toFloat (x : ℚ) : PyNum :=
  match Binary64.nearest x with
  | some y => .rat y
  | none => if x < 0 then .negInf else .inf

theorem toFloat_ne_nan (x : ℚ) : toFloat x ≠ .nan := by
  rw [toFloat]
  split
  · exact fun h => nomatch h
  · split_ifs <;> exact fun h => nomatch h

theorem toFloat_isFinite_iff (x : ℚ) :
    (toFloat x).isFinite = true ↔ |x| < Binary64.topPower - Binary64.halfPlace := by
  rw [← not_le, ← Binary64.nearest_eq_none_iff, toFloat]
  cases Binary64.nearest x with
  | some y => simp
  | none => split_ifs <;> simp

theorem toFloat_mono {x y : ℚ} (h : x ≤ y) : toFloat x ≤ toFloat y := by
  have hlarge : ∀ a b : ℚ, |a| ≤ |b| → Binary64.nearest a = none →
      Binary64.nearest b = none := by
    intro a b hab ha
    rw [Binary64.nearest_eq_none_iff] at ha ⊢
    exact ha.trans hab
  have hleast : PyNum.negInf ≤ toFloat y := by
    cases hy : toFloat y with
    | real value => exact (bot_le : (⊥ : WithBot (WithTop ℚ)) ≤ value)
    | nan => exact absurd hy (toFloat_ne_nan y)
  rw [toFloat]
  cases hx : Binary64.nearest x with
  | none =>
      by_cases hneg : x < 0
      · rwa [if_pos hneg]
      · have hy := hlarge x y (by
          rw [abs_of_nonneg (not_lt.mp hneg), abs_of_nonneg ((not_lt.mp hneg).trans h)]
          exact h) hx
        have hpos : ¬ y < 0 := fun hy => hneg (h.trans_lt hy)
        rw [toFloat, hy, if_neg hneg]
        simp only [if_neg hpos]
        exact le_refl (⊤ : WithBot (WithTop ℚ))
  | some p =>
      rw [toFloat]
      cases hy : Binary64.nearest y with
      | some q => exact PyNum.rat_le_rat.mpr (Binary64.nearest_mono h hx hy)
      | none =>
          have hpos : ¬ y < 0 := by
            intro hneg
            have hnone := hlarge y x (by
              rw [abs_of_neg hneg, abs_of_neg (h.trans_lt hneg)]
              exact neg_le_neg h) hy
            rw [hnone] at hx
            cases hx
          simp only [if_neg hpos]
          exact WithBot.coe_le_coe.mpr (le_top : ((p : WithTop ℚ)) ≤ ⊤)

/-- Not a finite number beyond the largest float. -/
def PyNum.InRange (value : PyNum) : Prop :=
  ∀ q, value = .rat q → |q| < Binary64.topPower - Binary64.halfPlace

theorem PyNum.rat_injective {p q : ℚ} (h : PyNum.rat p = .rat q) : p = q := by
  have hreal := PyNum.real.inj h
  exact WithTop.coe_injective (WithBot.coe_injective hreal)

theorem toFloat_inRange (x : ℚ) : (toFloat x).InRange := by
  intro q h
  rw [toFloat] at h
  split at h
  next y hnearest =>
    rw [← PyNum.rat_injective h]
    exact Binary64.abs_lt_of_nearest hnearest
  next => split_ifs at h <;> cases h

namespace PyFloat

/-- The separators around a numeral that `float` skips. -/
def isSpace (c : PyChar) : Bool :=
  (9 ≤ c.val && c.val ≤ 13) || c.val == 0x20 || (127 ≤ c.val && c.isSpace)

def trim (text : PyStr) : PyStr :=
  ((text.dropWhile isSpace).reverse.dropWhile isSpace).reverse

/-- Remove underscores, each of which has to stand between two digits. -/
def dropUnderscores (afterDigit : Bool) : PyStr → Option PyStr
  | [] => some []
  | c :: rest =>
      if c.val = 0x5F then
        if afterDigit && rest.head?.any PyDecimal.isDigit then
          dropUnderscores false rest
        else none
      else (dropUnderscores (PyDecimal.isDigit c) rest).map (c :: ·)

/-- What the text of a number says: infinity, no number, or a decimal number. -/
inductive Numeral where
  | infinite (negative : Bool)
  | nan
  | finite (number : DecimalRounding.Decimal)

def numeral (text : PyStr) : Option Numeral := do
  let ascii ← (trim text).mapM PyDecimal.asciiChar
  let (negative, body) := PyDecimal.splitSign (← dropUnderscores false ascii)
  let name := body.map lowerAscii
  if name = py "inf" ∨ name = py "infinity" then some (.infinite negative)
  else if name = py "nan" then some .nan
  else (PyDecimal.parseFinite negative body).map .finite

def Numeral.float : Numeral → PyNum
  | .infinite negative => if negative then .negInf else .inf
  | .nan => .nan
  | .finite number => toFloat number.value

/-- `float(text)`; `none` is a ValueError. -/
def ofText (text : PyStr) : Option PyNum := (numeral text).map Numeral.float

/-- The number a text writes, whether or not it has a float. -/
def written (text : PyStr) : Option ℚ :=
  match numeral text with
  | some (.finite number) => some number.value
  | _ => none

theorem ofText_of_written {text : PyStr} {q : ℚ} (h : written text = some q) :
    ofText text = some (toFloat q) := by
  rw [written] at h
  split at h
  next number hnumeral =>
    rw [ofText, hnumeral, ← Option.some.inj h]
    rfl
  next => cases h

/-- Only a number that is written is read as a finite float. -/
theorem isFinite_of_not_written {text : PyStr} {value : PyNum}
    (h : written text = none) (hread : ofText text = some value) :
    value.isFinite = false := by
  obtain ⟨found, hnumeral, rfl⟩ := Option.map_eq_some_iff.mp hread
  cases found with
  | infinite negative => cases negative <;> rfl
  | nan => rfl
  | finite number => simp [written, hnumeral] at h

theorem ofText_inRange {text : PyStr} {value : PyNum}
    (h : ofText text = some value) : value.InRange := by
  obtain ⟨found, _, rfl⟩ := Option.map_eq_some_iff.mp h
  cases found with
  | infinite negative => cases negative <;> exact fun q hq => nomatch hq
  | nan => exact fun q hq => nomatch hq
  | finite number => exact toFloat_inRange number.value

/-- A number is written with a sign, a point and any decimal digits. -/
example : written (py " +1_2.50e1\n") = some 125 ∧
    written ([0x661, 0x662].map (Fin.ofNat _)) = some 12 := by
  decide +kernel

end PyFloat

end QwedA2A
