/-
Decimal floating point in one rounding context.  A number is a coefficient times
a power of ten; an operation is exact up to one half-even rounding to the
precision of the context, and loses nothing exactly when the exact result fits.
-/
import Mathlib.Data.Nat.Log
import Mathlib.Algebra.Order.Floor.Ring
import Mathlib.Data.Rat.Floor
import Mathlib.Tactic

namespace DecimalRounding

/-- A finite decimal number. -/
structure Decimal where
  coefficient : ℤ
  exponent : ℤ
deriving DecidableEq, Repr

def Decimal.value (d : Decimal) : ℚ := d.coefficient * (10 : ℚ) ^ d.exponent

def numDigits (n : ℕ) : ℕ := Nat.log 10 n + 1

theorem lt_pow_numDigits (n : ℕ) : n < 10 ^ numDigits n :=
  Nat.lt_pow_succ_log_self (by norm_num) n

theorem pow_numDigits_le {n : ℕ} (hn : n ≠ 0) : 10 ^ (numDigits n - 1) ≤ n :=
  Nat.pow_log_le_self 10 hn

theorem numDigits_le_iff {n k : ℕ} (hk : k ≠ 0) : numDigits n ≤ k ↔ n < 10 ^ k := by
  rcases Nat.eq_zero_or_pos n with rfl | hn
  · simp [numDigits, Nat.one_le_iff_ne_zero, hk]
  · rw [numDigits, Nat.succ_le_iff, Nat.log_lt_iff_lt_pow (by norm_num) hn.ne']

/-- The integer nearest to `n / d`, ties to even. -/
def divHalfEven (n d : ℕ) : ℕ :=
  if 2 * (n % d) < d ∨ (2 * (n % d) = d ∧ n / d % 2 = 0) then n / d else n / d + 1

/-- The integer nearest to `n / d`, ties upward. -/
def divHalfUp (n d : ℕ) : ℕ := (2 * n + d) / (2 * d)

theorem divHalfEven_of_dvd {n d : ℕ} (hd : 0 < d) (h : d ∣ n) :
    divHalfEven n d = n / d := by
  rw [divHalfEven, Nat.mod_eq_zero_of_dvd h, if_pos (Or.inl (by omega))]

theorem divHalfEven_mul_eq_iff {n d : ℕ} (hd : 0 < d) :
    divHalfEven n d * d = n ↔ d ∣ n := by
  constructor
  · intro h
    exact ⟨divHalfEven n d, by rw [mul_comm]; exact h.symm⟩
  · intro h
    rw [divHalfEven_of_dvd hd h, Nat.div_mul_cancel h]

theorem divHalfEven_le {n d : ℕ} : divHalfEven n d ≤ n / d + 1 := by
  unfold divHalfEven
  split
  · exact Nat.le_succ _
  · exact le_rfl

theorem divHalfUp_eq_floor {n d : ℕ} (hd : 0 < d) :
    (divHalfUp n d : ℤ) = ⌊(n : ℚ) / d + 1 / 2⌋ := by
  have hcast : (n : ℚ) / d + 1 / 2 = ((2 * n + d : ℕ) : ℚ) / ((2 * d : ℕ) : ℚ) := by
    have hne : (d : ℚ) ≠ 0 := by exact_mod_cast hd.ne'
    push_cast
    field_simp
  rw [hcast, Rat.floor_natCast_div_natCast]
  rfl

def Decimal.mulExact (a b : Decimal) : Decimal :=
  ⟨a.coefficient * b.coefficient, a.exponent + b.exponent⟩

/-- The coefficient a decimal has at a smaller exponent. -/
def Decimal.scaledTo (d : Decimal) (exponent : ℤ) : ℤ :=
  d.coefficient * 10 ^ (d.exponent - exponent).toNat

def Decimal.addExact (a b : Decimal) : Decimal :=
  let exponent := min a.exponent b.exponent
  ⟨a.scaledTo exponent + b.scaledTo exponent, exponent⟩

def Decimal.neg (d : Decimal) : Decimal := ⟨-d.coefficient, d.exponent⟩

def Decimal.abs (d : Decimal) : Decimal := ⟨|d.coefficient|, d.exponent⟩

theorem Decimal.scaledTo_value (d : Decimal) {exponent : ℤ}
    (hle : exponent ≤ d.exponent) :
    (d.scaledTo exponent : ℚ) * (10 : ℚ) ^ exponent = d.value := by
  have hsplit : (10 : ℚ) ^ d.exponent =
      10 ^ (d.exponent - exponent).toNat * (10 : ℚ) ^ exponent := by
    rw [← zpow_natCast, ← zpow_add₀ (by norm_num),
      Int.toNat_of_nonneg (by omega), sub_add_cancel]
  rw [Decimal.value, Decimal.scaledTo, hsplit]
  push_cast
  ring

theorem Decimal.mulExact_value (a b : Decimal) :
    (a.mulExact b).value = a.value * b.value := by
  simp only [Decimal.value, Decimal.mulExact, zpow_add₀ (by norm_num : (10 : ℚ) ≠ 0)]
  push_cast
  ring

theorem Decimal.addExact_value (a b : Decimal) :
    (a.addExact b).value = a.value + b.value := by
  rw [← a.scaledTo_value (min_le_left a.exponent b.exponent),
    ← b.scaledTo_value (min_le_right a.exponent b.exponent), ← add_mul]
  simp only [Decimal.value, Decimal.addExact]
  push_cast
  rfl

theorem Decimal.neg_value (d : Decimal) : d.neg.value = -d.value := by
  simp [Decimal.value, Decimal.neg]

theorem Decimal.abs_value (d : Decimal) : d.abs.value = |d.value| := by
  rw [Decimal.value, Decimal.abs, Decimal.value, abs_mul,
    abs_of_pos (zpow_pos (by norm_num : (0 : ℚ) < 10) d.exponent)]
  push_cast
  rfl

theorem Decimal.value_nonneg_iff (d : Decimal) : 0 ≤ d.value ↔ 0 ≤ d.coefficient := by
  rw [Decimal.value,
    mul_nonneg_iff_of_pos_right (zpow_pos (by norm_num : (0 : ℚ) < 10) d.exponent)]
  exact_mod_cast Iff.rfl

/-- Significant digits, the largest adjusted exponent, and the exponent of the
smallest subnormal. -/
structure Context where
  precision : ℕ
  maxAdjusted : ℤ
  minExponent : ℤ

def Decimal.adjusted (d : Decimal) : ℤ :=
  d.exponent + (numDigits d.coefficient.natAbs - 1)

def Context.dropped (ctx : Context) (d : Decimal) : ℕ :=
  max (numDigits d.coefficient.natAbs - ctx.precision)
    (ctx.minExponent - d.exponent).toNat

def Context.round (ctx : Context) (d : Decimal) : Decimal :=
  ⟨d.coefficient.sign *
      divHalfEven d.coefficient.natAbs (10 ^ ctx.dropped d),
    d.exponent + ctx.dropped d⟩

/-- The result of an operation; `none` on overflow.  The exponent of a zero is
clamped instead. -/
def Context.fix (ctx : Context) (d : Decimal) : Option Decimal :=
  if d.coefficient = 0 then
    some ⟨0, max ctx.minExponent (min d.exponent ctx.maxAdjusted)⟩
  else if ctx.maxAdjusted < (ctx.round d).adjusted then none
  else some (ctx.round d)

/-- A number the context holds without rounding. -/
def Context.Fits (ctx : Context) (x : ℚ) : Prop :=
  ∃ coefficient exponent : ℤ, x = coefficient * (10 : ℚ) ^ exponent ∧
    coefficient.natAbs < 10 ^ ctx.precision ∧ ctx.minExponent ≤ exponent

theorem Context.round_value (ctx : Context) (d : Decimal) :
    (ctx.round d).value = d.coefficient.sign *
      ((divHalfEven d.coefficient.natAbs (10 ^ ctx.dropped d) *
        10 ^ ctx.dropped d : ℕ) : ℚ) * (10 : ℚ) ^ d.exponent := by
  rw [Decimal.value, Context.round, zpow_add₀ (by norm_num), zpow_natCast]
  push_cast
  ring

/-- The dropped digits of a number that fits are zeros. -/
theorem Context.dropped_dvd {ctx : Context} {d : Decimal}
    (hfits : ctx.Fits d.value) :
    10 ^ ctx.dropped d ∣ d.coefficient.natAbs := by
  rcases eq_or_ne d.coefficient 0 with hzero | hne
  · simp [hzero]
  obtain ⟨c, e, hvalue, hsmall, hmin⟩ := hfits
  rw [Decimal.value] at hvalue
  rcases le_total d.exponent e with hle | hle
  · have hpad : d.coefficient.natAbs = c.natAbs * 10 ^ (e - d.exponent).toNat := by
      have h := Decimal.scaledTo_value ⟨c, e⟩ hle
      have hpos : (10 : ℚ) ^ d.exponent ≠ 0 := (zpow_pos (by norm_num) _).ne'
      have heq : d.coefficient = Decimal.scaledTo ⟨c, e⟩ d.exponent := by
        have hcast := mul_right_cancel₀ hpos (hvalue.trans h.symm)
        exact_mod_cast hcast
      rw [heq, Decimal.scaledTo, Int.natAbs_mul, Int.natAbs_pow]
      rfl
    rw [hpad]
    refine Dvd.dvd.mul_left (pow_dvd_pow 10 (max_le ?_ (by omega))) _
    by_contra hlong
    push Not at hlong
    have hdigits := pow_numDigits_le (Int.natAbs_ne_zero.mpr hne)
    have hbound : d.coefficient.natAbs <
        10 ^ (ctx.precision + (e - d.exponent).toNat) := by
      rw [hpad, pow_add]
      exact Nat.mul_lt_mul_of_pos_right hsmall (by positivity)
    have := (Nat.pow_lt_pow_iff_right (by norm_num : 1 < 10)).mp
      (hdigits.trans_lt hbound)
    omega
  · have hshort : c.natAbs = d.coefficient.natAbs * 10 ^ (d.exponent - e).toNat := by
      have h := Decimal.scaledTo_value d hle
      have hpos : (10 : ℚ) ^ e ≠ 0 := (zpow_pos (by norm_num) _).ne'
      have heq : c = d.scaledTo e := by
        have hcast := mul_right_cancel₀ hpos (hvalue.symm.trans h.symm)
        exact_mod_cast hcast
      rw [heq, Decimal.scaledTo, Int.natAbs_mul, Int.natAbs_pow]
      rfl
    have hle' : d.coefficient.natAbs ≤ c.natAbs := by
      rw [hshort]
      exact Nat.le_mul_of_pos_right _ (by positivity)
    have hprecision : numDigits d.coefficient.natAbs ≤ ctx.precision := by
      have hlt := (pow_numDigits_le (Int.natAbs_ne_zero.mpr hne)).trans_lt
        (hle'.trans_lt hsmall)
      have := (Nat.pow_lt_pow_iff_right (by norm_num : 1 < 10)).mp hlt
      rw [numDigits] at this ⊢
      omega
    have hnone : ctx.dropped d = 0 := by
      rw [Context.dropped]
      omega
    simp [hnone]

/-- An operation whose exact result fits loses nothing. -/
theorem Context.fix_value_of_fits {ctx : Context} {d r : Decimal}
    (hfix : ctx.fix d = some r) (hfits : ctx.Fits d.value) : r.value = d.value := by
  rw [Context.fix] at hfix
  split_ifs at hfix with hzero hoverflow
  · cases hfix
    simp [Decimal.value, hzero]
  · cases hfix
    rw [ctx.round_value, (divHalfEven_mul_eq_iff (by positivity)).mpr
      (Context.dropped_dvd hfits), Decimal.value]
    congr 1
    rw [Nat.cast_natAbs]
    exact_mod_cast Int.sign_mul_abs d.coefficient

theorem Context.le_exponent_add_dropped (ctx : Context) (d : Decimal) :
    ctx.minExponent ≤ d.exponent + ctx.dropped d := by
  have h : (ctx.minExponent - d.exponent).toNat ≤ ctx.dropped d := le_max_right _ _
  omega

/-- A rounded coefficient has the precision's digits, or is the power of ten just
above them. -/
theorem Context.divHalfEven_dropped_le (ctx : Context) (d : Decimal) :
    divHalfEven d.coefficient.natAbs (10 ^ ctx.dropped d) ≤ 10 ^ ctx.precision := by
  have hlt : d.coefficient.natAbs < 10 ^ ctx.precision * 10 ^ ctx.dropped d := by
    apply (lt_pow_numDigits _).trans_le
    rw [← pow_add]
    have h : numDigits d.coefficient.natAbs - ctx.precision ≤ ctx.dropped d :=
      le_max_left _ _
    exact Nat.pow_le_pow_right (by norm_num) (by omega)
  have hdiv : d.coefficient.natAbs / 10 ^ ctx.dropped d < 10 ^ ctx.precision :=
    Nat.div_lt_of_lt_mul (by rw [mul_comm]; exact hlt)
  exact divHalfEven_le.trans hdiv

theorem Context.fits_of_fix {ctx : Context} (hprecision : 0 < ctx.precision)
    {d r : Decimal} (hfix : ctx.fix d = some r) : ctx.Fits r.value := by
  rw [Context.fix] at hfix
  split_ifs at hfix with hzero hoverflow
  · cases hfix
    exact ⟨0, ctx.minExponent, by simp [Decimal.value], by simp, le_rfl⟩
  · cases hfix
    have hsign : d.coefficient.sign.natAbs = 1 := Int.natAbs_sign_of_ne_zero hzero
    have hmin := ctx.le_exponent_add_dropped d
    rcases (ctx.divHalfEven_dropped_le d).lt_or_eq with hlt | heq
    · refine ⟨_, _, rfl, ?_, hmin⟩
      rw [Context.round, Int.natAbs_mul, hsign, one_mul, Int.natAbs_natCast]
      exact hlt
    · refine ⟨d.coefficient.sign * 10 ^ (ctx.precision - 1),
        d.exponent + ctx.dropped d + 1, ?_, ?_, by omega⟩
      · rw [Decimal.value, Context.round, heq, zpow_add_one₀ (by norm_num)]
        obtain ⟨k, hk⟩ : ∃ k, ctx.precision = k + 1 :=
          ⟨ctx.precision - 1, by omega⟩
        rw [hk, Nat.add_sub_cancel, pow_succ]
        push_cast
        ring
      · rw [Int.natAbs_mul, hsign, one_mul, Int.natAbs_pow]
        exact Nat.pow_lt_pow_right (by norm_num) (by omega)

/-- An operation loses nothing exactly when its exact result fits. -/
theorem Context.fix_value_iff {ctx : Context} (hprecision : 0 < ctx.precision)
    {d r : Decimal} (hfix : ctx.fix d = some r) :
    r.value = d.value ↔ ctx.Fits d.value :=
  ⟨fun h => h ▸ ctx.fits_of_fix hprecision hfix, Context.fix_value_of_fits hfix⟩

theorem Context.round_coefficient_nonneg {ctx : Context} {d : Decimal}
    (h : 0 ≤ d.coefficient) : 0 ≤ (ctx.round d).coefficient :=
  mul_nonneg (Int.sign_nonneg_iff.mpr h) (Int.natCast_nonneg _)

theorem Context.fix_value_nonneg {ctx : Context} {d r : Decimal}
    (hfix : ctx.fix d = some r) (h : 0 ≤ d.value) : 0 ≤ r.value := by
  rw [Decimal.value_nonneg_iff] at h ⊢
  rw [Context.fix] at hfix
  split_ifs at hfix with hzero hoverflow
  · cases hfix
    exact le_rfl
  · cases hfix
    exact ctx.round_coefficient_nonneg h

/-- Half-up rounding to a given exponent, away from zero on ties. -/
def Decimal.rescaleHalfUp (d : Decimal) (exponent : ℤ) : Decimal :=
  if exponent ≤ d.exponent then ⟨d.scaledTo exponent, exponent⟩
  else
    ⟨d.coefficient.sign *
      divHalfUp d.coefficient.natAbs (10 ^ (exponent - d.exponent).toNat), exponent⟩

/-- The quantized number; `none` when its coefficient is too long. -/
def Context.quantizeHalfUp (ctx : Context) (d : Decimal) (exponent : ℤ) :
    Option Decimal :=
  let quantized := d.rescaleHalfUp exponent
  if numDigits quantized.coefficient.natAbs ≤ ctx.precision then some quantized
  else none

@[simp] theorem Decimal.rescaleHalfUp_exponent (d : Decimal) (exponent : ℤ) :
    (d.rescaleHalfUp exponent).exponent = exponent := by
  rw [Decimal.rescaleHalfUp]
  split_ifs with hle
  · rfl
  · rfl

/-- On a number that is not negative, quantizing adds half a unit and cuts off. -/
theorem Decimal.rescaleHalfUp_coefficient {d : Decimal} (h : 0 ≤ d.value)
    (exponent : ℤ) :
    (d.rescaleHalfUp exponent).coefficient =
      ⌊d.value / (10 : ℚ) ^ exponent + 1 / 2⌋ := by
  have hpos : (0 : ℚ) < (10 : ℚ) ^ exponent := zpow_pos (by norm_num) exponent
  rw [Decimal.rescaleHalfUp]
  split_ifs with hle
  · rw [← d.scaledTo_value hle, mul_div_assoc, div_self hpos.ne', mul_one,
      Int.floor_intCast_add]
    norm_num
  · push Not at hle
    have hc := d.value_nonneg_iff.mp h
    have hquotient : d.value / (10 : ℚ) ^ exponent =
        (d.coefficient.natAbs : ℚ) / (10 ^ (exponent - d.exponent).toNat : ℕ) := by
      have hsplit : (10 : ℚ) ^ exponent = (10 : ℚ) ^ d.exponent *
          10 ^ (exponent - d.exponent).toNat := by
        rw [← zpow_natCast, ← zpow_add₀ (by norm_num),
          Int.toNat_of_nonneg (by omega), add_sub_cancel]
      have hbase : (10 : ℚ) ^ d.exponent ≠ 0 := (zpow_pos (by norm_num) _).ne'
      have hcast : (d.coefficient.natAbs : ℚ) = d.coefficient := by
        rw [Nat.cast_natAbs, abs_of_nonneg hc]
      rw [Decimal.value, hsplit, hcast]
      push_cast
      field_simp
    rw [hquotient, ← divHalfUp_eq_floor (by positivity)]
    rcases hc.eq_or_lt with hzero | hsome
    · have hunit : 0 < 10 ^ (exponent - d.exponent).toNat := by positivity
      have hcut : 10 ^ (exponent - d.exponent).toNat /
          (2 * 10 ^ (exponent - d.exponent).toNat) = 0 :=
        Nat.div_eq_of_lt (by omega)
      simp [← hzero, divHalfUp, hcut]
    · rw [Int.sign_eq_one_of_pos hsome, one_mul]

end DecimalRounding
