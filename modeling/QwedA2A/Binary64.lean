/-
Rounding to binary64.  A rational becomes the nearest multiple of its last
place, ties to even; from 2 ^ 1024 - 2 ^ 970 on the nearest number is no longer
finite.
-/
import QwedA2A.DecimalRounding
import Mathlib.Data.Int.Log

namespace Binary64

open DecimalRounding

/-- The integer nearest to a non-negative rational, ties to even. -/
def roundEven (q : ℚ) : ℕ := divHalfEven q.num.natAbs q.den

/-- The exponent of the last place: 53 significant bits, and none below the
smallest subnormal. -/
def lastPlace (x : ℚ) : ℤ := max (Int.log 2 |x| - 52) (-1074)

/-- The nearest binary64 magnitude, were the exponent unbounded. -/
def magnitude (x : ℚ) : ℚ :=
  roundEven (|x| / (2 : ℚ) ^ lastPlace x) * (2 : ℚ) ^ lastPlace x

def topPower : ℚ := 2 ^ 1024

def halfPlace : ℚ := 2 ^ 970

def nearest (x : ℚ) : Option ℚ :=
  if topPower ≤ magnitude x then none
  else if x < 0 then some (-magnitude x)
  else some (magnitude x)

/-- A quotient by its whole part and its remainder. -/
theorem eq_div_add_mod {q : ℚ} (hq : 0 ≤ q) :
    q = ((q.num.natAbs / q.den : ℕ) : ℚ) +
      ((q.num.natAbs % q.den : ℕ) : ℚ) / q.den := by
  have hden : (q.den : ℚ) ≠ 0 := by exact_mod_cast q.den_nz
  have hnum : (q.num.natAbs : ℚ) = q.num := by
    simpa only [Int.cast_natCast] using congrArg (fun z : ℤ => (z : ℚ))
      (Int.natAbs_of_nonneg (Rat.num_nonneg.mpr hq))
  have hsplit : (q.num.natAbs : ℚ) = q.den * ((q.num.natAbs / q.den : ℕ) : ℚ) +
      ((q.num.natAbs % q.den : ℕ) : ℚ) := by
    exact_mod_cast (Nat.div_add_mod q.num.natAbs q.den).symm
  rw [eq_comm, ← mul_right_inj' hden, mul_add, mul_div_cancel₀ _ hden, ← hsplit,
    hnum, Rat.den_mul_eq_num]

theorem roundEven_le {q : ℚ} (hq : 0 ≤ q) : (roundEven q : ℚ) ≤ q + 1 / 2 := by
  have hden : (0 : ℚ) < q.den := by exact_mod_cast q.den_pos
  have hsplit := eq_div_add_mod hq
  rw [roundEven, divHalfEven]
  split_ifs with hdown
  · have hmod : (0 : ℚ) ≤ ((q.num.natAbs % q.den : ℕ) : ℚ) / q.den := by positivity
    linarith
  · have hup : q.den ≤ 2 * (q.num.natAbs % q.den) := by omega
    have hmod : 1 / 2 ≤ ((q.num.natAbs % q.den : ℕ) : ℚ) / q.den := by
      rw [div_le_div_iff₀ (by norm_num) hden]
      have hcast : (q.den : ℚ) ≤ 2 * ((q.num.natAbs % q.den : ℕ) : ℚ) := by
        exact_mod_cast hup
      linarith
    push_cast
    linarith

theorem le_roundEven_add_half {q : ℚ} (hq : 0 ≤ q) : q ≤ roundEven q + 1 / 2 := by
  have hden : (0 : ℚ) < q.den := by exact_mod_cast q.den_pos
  have hsplit := eq_div_add_mod hq
  rw [roundEven, divHalfEven]
  split_ifs with hdown
  · have hhalf : 2 * (q.num.natAbs % q.den) ≤ q.den := by omega
    have hmod : ((q.num.natAbs % q.den : ℕ) : ℚ) / q.den ≤ 1 / 2 := by
      rw [div_le_div_iff₀ hden (by norm_num)]
      have hcast : 2 * ((q.num.natAbs % q.den : ℕ) : ℚ) ≤ q.den := by exact_mod_cast hhalf
      linarith
    linarith
  · have hmod : ((q.num.natAbs % q.den : ℕ) : ℚ) / q.den < 1 := by
      rw [div_lt_one hden]
      exact_mod_cast Nat.mod_lt _ q.den_pos
    push_cast
    linarith

theorem roundEven_mono {q r : ℚ} (hq : 0 ≤ q) (h : q ≤ r) : roundEven q ≤ roundEven r := by
  by_contra hless
  have hstep : (roundEven r : ℚ) + 1 ≤ roundEven q := by exact_mod_cast not_le.mp hless
  -- Both lie halfway, so they are the same number.
  have hup := roundEven_le hq
  have hdown := le_roundEven_add_half (hq.trans h)
  have hsame : q = r := by linarith
  rw [hsame] at hless
  exact hless le_rfl

theorem roundEven_le_of_le {q : ℚ} (hq : 0 ≤ q) {n : ℕ} (h : q ≤ n) : roundEven q ≤ n := by
  have hround := roundEven_mono hq h
  rwa [roundEven, roundEven, Rat.num_natCast, Rat.den_natCast, Int.natAbs_natCast,
    divHalfEven_of_dvd Nat.one_pos (one_dvd n), Nat.div_one] at hround

theorem whole_le_roundEven (q : ℚ) : q.num.natAbs / q.den ≤ roundEven q := by
  rw [roundEven, divHalfEven]
  split_ifs
  · exact le_rfl
  · exact Nat.le_succ _

theorem le_whole {q : ℚ} {n : ℕ} (h : (n : ℚ) ≤ q) : n ≤ q.num.natAbs / q.den := by
  have hden : (0 : ℚ) < q.den := by exact_mod_cast q.den_pos
  have hmod : ((q.num.natAbs % q.den : ℕ) : ℚ) / q.den < 1 := by
    rw [div_lt_one hden]
    exact_mod_cast Nat.mod_lt _ q.den_pos
  have hsplit := eq_div_add_mod (le_trans (Nat.cast_nonneg n) h)
  have hlt : (n : ℚ) < ((q.num.natAbs / q.den : ℕ) : ℚ) + 1 := by linarith
  exact Nat.lt_succ_iff.mp (by exact_mod_cast hlt)

/-- A natural number below a rational stays below its rounding. -/
theorem le_roundEven {q : ℚ} {n : ℕ} (h : (n : ℚ) ≤ q) : n ≤ roundEven q :=
  (le_whole h).trans (whole_le_roundEven q)

/-- From halfway above an odd number on, the rounding goes up. -/
theorem succ_le_roundEven {q : ℚ} {n : ℕ} (hodd : n % 2 = 1)
    (h : (n : ℚ) + 1 / 2 ≤ q) : n + 1 ≤ roundEven q := by
  have hle : (n : ℚ) ≤ q := by linarith
  rcases (le_whole hle).lt_or_eq with hlt | hwhole
  · exact le_trans hlt (whole_le_roundEven q)
  · have hden : (0 : ℚ) < q.den := by exact_mod_cast q.den_pos
    have hsplit := eq_div_add_mod (le_trans (Nat.cast_nonneg n) hle)
    rw [← hwhole] at hsplit
    have hmod : 1 / 2 ≤ ((q.num.natAbs % q.den : ℕ) : ℚ) / q.den := by linarith
    rw [div_le_div_iff₀ (by norm_num) hden] at hmod
    have hup : q.den ≤ 2 * (q.num.natAbs % q.den) := by
      have hcast : (q.den : ℚ) ≤ 2 * ((q.num.natAbs % q.den : ℕ) : ℚ) := by linarith
      exact_mod_cast hcast
    rw [roundEven, divHalfEven, ← hwhole, if_neg (by omega)]

theorem lastPlace_scaled (x : ℚ) :
    |x| / (2 : ℚ) ^ lastPlace x * (2 : ℚ) ^ lastPlace x = |x| :=
  div_mul_cancel₀ _ (by positivity)

/-- Rounding moves a magnitude up by half a last place at most. -/
theorem magnitude_le (x : ℚ) :
    magnitude x ≤ |x| + (2 : ℚ) ^ (lastPlace x - 1) := by
  have hround := roundEven_le (show 0 ≤ |x| / (2 : ℚ) ^ lastPlace x by positivity)
  have hplace : (0 : ℚ) < 2 ^ lastPlace x := by positivity
  have hmul := mul_le_mul_of_nonneg_right hround hplace.le
  rw [add_mul, lastPlace_scaled] at hmul
  rw [magnitude, zpow_sub_one₀ (by norm_num : (2 : ℚ) ≠ 0)]
  linarith

/-- A multiple of the last place below a magnitude stays below its rounding. -/
theorem le_magnitude {x : ℚ} {n : ℕ} (h : (n : ℚ) * (2 : ℚ) ^ lastPlace x ≤ |x|) :
    (n : ℚ) * (2 : ℚ) ^ lastPlace x ≤ magnitude x := by
  have hplace : (0 : ℚ) < 2 ^ lastPlace x := by positivity
  have hround := le_roundEven ((le_div_iff₀ hplace).mpr h)
  rw [magnitude]
  exact mul_le_mul_of_nonneg_right (by exact_mod_cast hround) hplace.le

theorem lastPlace_le_of_lt {x : ℚ} {k : ℤ} (hk : 1 ≤ k)
    (h : |x| < (2 : ℚ) ^ k) : lastPlace x ≤ k - 53 := by
  rcases (abs_nonneg x).eq_or_lt with hzero | hpos
  · rw [lastPlace, ← hzero, Int.log_zero_right]
    omega
  · have hlog := (Int.lt_zpow_iff_log_lt (b := 2) Nat.one_lt_two hpos).mp h
    rw [lastPlace]
    omega

theorem le_lastPlace_of_le {x : ℚ} {k : ℤ} (h : (2 : ℚ) ^ k ≤ |x|) :
    k - 52 ≤ lastPlace x := by
  have hpos : 0 < |x| := lt_of_lt_of_le (by positivity) h
  have hlog := (Int.zpow_le_iff_le_log (b := 2) Nat.one_lt_two hpos).mp h
  rw [lastPlace]
  omega

/-- Above the subnormals the leading power of two is a multiple of the last place. -/
theorem zpow_log_le_magnitude {x : ℚ} (hpos : 0 < |x|)
    (hplace : lastPlace x = Int.log 2 |x| - 52) :
    (2 : ℚ) ^ Int.log 2 |x| ≤ magnitude x := by
  have hlead : ((2 ^ 52 : ℕ) : ℚ) * (2 : ℚ) ^ lastPlace x = 2 ^ Int.log 2 |x| := by
    rw [hplace, zpow_sub₀ (by norm_num), Nat.cast_pow, Nat.cast_ofNat,
      show (2 : ℚ) ^ (52 : ℤ) = 2 ^ 52 from zpow_natCast 2 52]
    exact mul_div_cancel₀ _ (by positivity)
  have hmagnitude := le_magnitude
    (hlead.trans_le (Int.zpow_log_le_self (b := 2) Nat.one_lt_two hpos))
  rwa [hlead] at hmagnitude

/-- A magnitude below a power of two is not rounded beyond it. -/
theorem magnitude_le_zpow {x : ℚ} {k : ℤ} (hplace : lastPlace x ≤ k)
    (h : |x| ≤ (2 : ℚ) ^ k) : magnitude x ≤ (2 : ℚ) ^ k := by
  have hscale : (0 : ℚ) < 2 ^ lastPlace x := by positivity
  obtain ⟨n, hn⟩ := Int.eq_ofNat_of_zero_le (sub_nonneg.mpr hplace)
  have hpower : ((2 ^ n : ℕ) : ℚ) * (2 : ℚ) ^ lastPlace x = 2 ^ k := by
    rw [Nat.cast_pow, Nat.cast_ofNat, ← zpow_natCast, ← zpow_add₀ (by norm_num)]
    congr 1
    omega
  have hround : roundEven (|x| / (2 : ℚ) ^ lastPlace x) ≤ 2 ^ n :=
    roundEven_le_of_le (by positivity) (by rw [div_le_iff₀ hscale, hpower]; exact h)
  rw [magnitude, ← hpower]
  exact mul_le_mul_of_nonneg_right (by exact_mod_cast hround) hscale.le

theorem magnitude_mono {x y : ℚ} (h : |x| ≤ |y|) : magnitude x ≤ magnitude y := by
  rcases (abs_nonneg x).eq_or_lt with hzero | hpos
  · have hsmall : magnitude x = 0 := by
      rw [magnitude, ← hzero, zero_div, show roundEven 0 = 0 from rfl, Nat.cast_zero, zero_mul]
    rw [hsmall, magnitude]
    positivity
  · have hlog := Int.log_mono_right (b := 2) hpos h
    rcases lt_or_ge (lastPlace x) (lastPlace y) with hless | hmore
    · rw [lastPlace, lastPlace] at hless
      have hbelow : |x| < (2 : ℚ) ^ Int.log 2 |y| :=
        (Int.lt_zpow_iff_log_lt (b := 2) Nat.one_lt_two hpos).mpr (by omega)
      calc magnitude x ≤ (2 : ℚ) ^ Int.log 2 |y| :=
            magnitude_le_zpow (by rw [lastPlace]; omega) hbelow.le
        _ ≤ magnitude y :=
            zpow_log_le_magnitude (hpos.trans_le h) (by rw [lastPlace]; omega)
    · have hsame : lastPlace x = lastPlace y := by
        rw [lastPlace, lastPlace] at *
        omega
      have hscale : (0 : ℚ) < 2 ^ lastPlace y := by positivity
      have hround := roundEven_mono (show 0 ≤ |x| / (2 : ℚ) ^ lastPlace y by positivity)
        (div_le_div_of_nonneg_right h hscale.le)
      rw [magnitude, magnitude, hsame]
      exact mul_le_mul_of_nonneg_right (by exact_mod_cast hround) hscale.le

theorem halfPlace_pos : 0 < halfPlace := by
  rw [halfPlace]
  positivity

theorem topPower_eq_zpow : topPower = (2 : ℚ) ^ (1024 : ℤ) :=
  (zpow_natCast 2 1024).symm

theorem halfPlace_eq_zpow : halfPlace = (2 : ℚ) ^ (970 : ℤ) :=
  (zpow_natCast 2 970).symm

theorem topPower_eq : topPower = 2 ^ 54 * halfPlace := by
  rw [topPower, halfPlace, ← pow_add]

theorem zpow_1023_eq : (2 : ℚ) ^ (1023 : ℤ) = 2 ^ 53 * halfPlace := by
  rw [show (1023 : ℤ) = 53 + 970 from rfl, zpow_add₀ (by norm_num),
    ← halfPlace_eq_zpow, show (2 : ℚ) ^ (53 : ℤ) = 2 ^ 53 from zpow_natCast 2 53]

theorem scale_of_lastPlace {x : ℚ} (h : lastPlace x = 971) :
    (2 : ℚ) ^ lastPlace x = 2 * halfPlace := by
  rw [h, show (971 : ℤ) = 1 + 970 from rfl, zpow_add₀ (by norm_num),
    ← halfPlace_eq_zpow, zpow_one]

/-- The nearest number is finite exactly below 2 ^ 1024 - 2 ^ 970. -/
theorem topPower_le_magnitude_iff (x : ℚ) :
    topPower ≤ magnitude x ↔ topPower - halfPlace ≤ |x| := by
  have hhalf := halfPlace_pos
  have htop := topPower_eq
  constructor
  · intro h
    by_contra hsmall
    rw [not_le] at hsmall
    have hplace : lastPlace x ≤ 1024 - 53 :=
      lastPlace_le_of_lt (by norm_num) (by rw [← topPower_eq_zpow]; linarith)
    have hpow : (2 : ℚ) ^ (lastPlace x - 1) ≤ 2 ^ (970 : ℤ) :=
      zpow_le_zpow_right₀ (by norm_num) (by omega)
    rw [← halfPlace_eq_zpow] at hpow
    have hle := magnitude_le x
    linarith
  · intro h
    by_cases hlarge : (2 : ℚ) ^ (1024 : ℤ) ≤ |x|
    · have hpos : 0 < |x| := lt_of_lt_of_le (by positivity) hlarge
      have hlog := (Int.zpow_le_iff_le_log (b := 2) Nat.one_lt_two hpos).mp hlarge
      have hplace : lastPlace x = Int.log 2 |x| - 52 := by
        rw [lastPlace]
        omega
      rw [topPower_eq_zpow]
      exact (zpow_le_zpow_right₀ (by norm_num) hlog).trans
        (zpow_log_le_magnitude hpos hplace)
    · have hplace : lastPlace x = 971 := by
        refine le_antisymm ?_ ?_
        · exact lastPlace_le_of_lt (by norm_num) (not_le.mp hlarge)
        · refine le_lastPlace_of_le (k := 1023) ?_
          rw [zpow_1023_eq]
          linarith
      have hscale := scale_of_lastPlace hplace
      have hround : 2 ^ 53 - 1 + 1 ≤ roundEven (|x| / (2 : ℚ) ^ lastPlace x) := by
        refine succ_le_roundEven (by norm_num) ?_
        rw [hscale, le_div_iff₀ (by linarith)]
        push_cast
        linarith
      have hround' : (2 : ℚ) ^ 53 ≤ roundEven (|x| / (2 : ℚ) ^ lastPlace x) := by
        exact_mod_cast hround
      rw [magnitude]
      rw [hscale] at hround' ⊢
      have hmul := mul_le_mul_of_nonneg_right hround'
        (show 0 ≤ 2 * halfPlace by linarith)
      linarith

theorem magnitude_nonneg (x : ℚ) : 0 ≤ magnitude x := by
  rw [magnitude]
  positivity

theorem nearest_eq_some {x y : ℚ} (h : nearest x = some y) :
    y = if x < 0 then -magnitude x else magnitude x := by
  rw [nearest] at h
  split_ifs at h ⊢ with hlarge hneg
  · exact (Option.some.inj h).symm
  · exact (Option.some.inj h).symm

/-- Rounding keeps the order of the numbers that stay finite. -/
theorem nearest_mono {x y p q : ℚ} (h : x ≤ y) (hx : nearest x = some p)
    (hy : nearest y = some q) : p ≤ q := by
  have hx0 := magnitude_nonneg x
  have hy0 := magnitude_nonneg y
  rw [nearest_eq_some hx, nearest_eq_some hy]
  rcases lt_or_ge x 0 with hxneg | hxpos
  · rw [if_pos hxneg]
    rcases lt_or_ge y 0 with hyneg | hypos
    · rw [if_pos hyneg]
      exact neg_le_neg (magnitude_mono (by
        rw [abs_of_neg hxneg, abs_of_neg hyneg]
        exact neg_le_neg h))
    · rw [if_neg (not_lt.mpr hypos)]
      linarith
  · have hypos := hxpos.trans h
    rw [if_neg (not_lt.mpr hxpos), if_neg (not_lt.mpr hypos)]
    exact magnitude_mono (by rwa [abs_of_nonneg hxpos, abs_of_nonneg hypos])

/-- A finite magnitude leaves room for half a last place above it. -/
theorem magnitude_lt_of_lt_topPower {x : ℚ} (h : magnitude x < topPower) :
    magnitude x < topPower - halfPlace := by
  have hhalf := halfPlace_pos
  have htop := topPower_eq
  have hx : |x| < topPower - halfPlace := by
    rw [← not_le, ← topPower_le_magnitude_iff, not_le]
    exact h
  by_cases hlarge : (2 : ℚ) ^ (1023 : ℤ) ≤ |x|
  · have hplace : lastPlace x = 971 := by
      refine le_antisymm ?_ (le_lastPlace_of_le hlarge)
      exact lastPlace_le_of_lt (k := 1024) (by norm_num)
        (by rw [← topPower_eq_zpow]; linarith)
    have hscale := scale_of_lastPlace hplace
    rw [magnitude, hscale] at h ⊢
    have hround : (roundEven (|x| / (2 * halfPlace)) : ℚ) < 2 ^ 53 := by
      by_contra hlarge
      have hmul := mul_le_mul_of_nonneg_right (not_lt.mp hlarge)
        (show 0 ≤ 2 * halfPlace by linarith)
      linarith
    have hround' : (roundEven (|x| / (2 * halfPlace)) : ℚ) ≤ 2 ^ 53 - 1 := by
      have hnat : roundEven (|x| / (2 * halfPlace)) < 2 ^ 53 := by
        exact_mod_cast hround
      have hpred : roundEven (|x| / (2 * halfPlace)) + 1 ≤ 2 ^ 53 := hnat
      have hcast : (roundEven (|x| / (2 * halfPlace)) : ℚ) + 1 ≤ 2 ^ 53 := by
        exact_mod_cast hpred
      linarith
    have hmul := mul_le_mul_of_nonneg_right hround'
      (show 0 ≤ 2 * halfPlace by linarith)
    linarith only [hmul, htop, hhalf]
  · have hplace : lastPlace x ≤ 1023 - 53 :=
      lastPlace_le_of_lt (by norm_num) (not_le.mp hlarge)
    have hpow : (2 : ℚ) ^ (lastPlace x - 1) ≤ 2 ^ (970 : ℤ) :=
      zpow_le_zpow_right₀ (by norm_num) (by omega)
    rw [← halfPlace_eq_zpow] at hpow
    have hle := magnitude_le x
    have hsmall := not_le.mp hlarge
    rw [zpow_1023_eq] at hsmall
    linarith only [hle, hpow, hsmall, htop, hhalf]

theorem abs_lt_of_nearest {x y : ℚ} (h : nearest x = some y) :
    |y| < topPower - halfPlace := by
  have hnonneg := magnitude_nonneg x
  rw [nearest] at h
  split_ifs at h with hlarge hneg
  · rw [← Option.some.inj h, abs_neg, abs_of_nonneg hnonneg]
    exact magnitude_lt_of_lt_topPower (not_le.mp hlarge)
  · rw [← Option.some.inj h, abs_of_nonneg hnonneg]
    exact magnitude_lt_of_lt_topPower (not_le.mp hlarge)

theorem nearest_eq_none_iff (x : ℚ) :
    nearest x = none ↔ topPower - halfPlace ≤ |x| := by
  rw [← topPower_le_magnitude_iff, nearest]
  split_ifs with hlarge hneg <;> simp [hlarge]

end Binary64
