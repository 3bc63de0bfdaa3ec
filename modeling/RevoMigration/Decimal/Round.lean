import Mathlib.Data.Int.Log
import Mathlib.Data.Rat.Floor
import Mathlib.Tactic.Linarith
import Mathlib.Tactic.Positivity

/-!
# The decimal context of the migration scripts

`revo_bridge.py` and `generate_genesis_config.py` both set `getcontext().prec = 28` at module load and keep the
other fields of Python's default context: rounding `ROUND_HALF_EVEN`, `Emax = 999999`, `Emin = -999999`, traps on
`InvalidOperation`, `DivisionByZero` and `Overflow`. Every operation of the `decimal` module returns its exact
result rounded by the context. This module states that rounding on the rationals (`roundQ`):

* `roundQ x` keeps `prec` digits from the leading digit of `x` but no digit below `10 ^ etiny` (subnormal
  results), ties to the even neighbour;
* it is monotone on the non-negative rationals (`roundQ_mono`), exact on the values with at most `prec` digits
  (`roundQ_of_representable`), and from `10 ^ emin` on it is off by at most half a unit of the last kept digit
  (`roundQ_le_mul`).
-/

namespace RevoMigration.Decimal

/-- `getcontext().prec = 28`. -/
def prec : ℕ := 28

/-- `Emax` of the default context. -/
def emax : ℤ := 999999

/-- `Emin` of the default context. -/
def emin : ℤ := -999999

/-- The exponent of the smallest subnormal digit, `Emin - prec + 1`. -/
def etiny : ℤ := emin - prec + 1

/-! ## Rounding to an integer -/

/-- `ROUND_HALF_EVEN` to an integer. -/
def roundHalfEven (y : ℚ) : ℤ :=
  if Int.fract y < 1 / 2 then ⌊y⌋
  else if 1 / 2 < Int.fract y then ⌊y⌋ + 1
  else if ⌊y⌋ % 2 = 0 then ⌊y⌋ else ⌊y⌋ + 1

@[simp] theorem roundHalfEven_intCast (n : ℤ) : roundHalfEven n = n := by
  simp [roundHalfEven]

@[simp] theorem roundHalfEven_zero : roundHalfEven 0 = 0 := by
  simpa using roundHalfEven_intCast 0

theorem abs_roundHalfEven_sub_le (y : ℚ) : |(roundHalfEven y : ℚ) - y| ≤ 1 / 2 := by
  have hd : |(⌊y⌋ : ℚ) - y| = Int.fract y := by
    rw [abs_sub_comm]; exact abs_of_nonneg (Int.fract_nonneg y)
  have hu : |((⌊y⌋ + 1 : ℤ) : ℚ) - y| = 1 - Int.fract y := by
    rw [Int.cast_add, Int.cast_one, abs_of_nonneg (by linarith [Int.lt_floor_add_one y])]
    rw [Int.fract]; ring
  unfold roundHalfEven
  split_ifs with hlt hgt
  · rw [hd]; exact hlt.le
  · rw [hu]; linarith only [hgt]
  · rw [hd]; exact not_lt.mp hgt
  · rw [hu]; linarith only [not_lt.mp hlt]

/-- Rounding to the nearest integer is monotone: two roundings in the wrong order would have to be the two
neighbours of one tie. -/
theorem roundHalfEven_mono {y z : ℚ} (h : y ≤ z) : roundHalfEven y ≤ roundHalfEven z := by
  by_contra hc
  have hlt : (roundHalfEven z : ℚ) + 1 ≤ roundHalfEven y := by
    exact_mod_cast Int.add_one_le_iff.mpr (not_le.mp hc)
  have hy := abs_le.mp (abs_roundHalfEven_sub_le y)
  have hz := abs_le.mp (abs_roundHalfEven_sub_le z)
  obtain rfl : y = z := le_antisymm h (by linarith)
  exact hc le_rfl

theorem roundHalfEven_nonneg {y : ℚ} (hy : 0 ≤ y) : 0 ≤ roundHalfEven y := by
  simpa using roundHalfEven_mono hy

/-! ## The leading digit -/

/-- The exponent of the leading digit of `x`: `Decimal.adjusted()` of the exact result. -/
def adjustedQ (x : ℚ) : ℤ := Int.log 10 |x|

theorem zpow_adjustedQ_le {x : ℚ} (hx : x ≠ 0) : (10 : ℚ) ^ adjustedQ x ≤ |x| := by
  simpa using Int.zpow_log_le_self (b := 10) (by norm_num) (abs_pos.mpr hx)

theorem lt_zpow_adjustedQ (x : ℚ) : |x| < (10 : ℚ) ^ (adjustedQ x + 1) := by
  simpa using Int.lt_zpow_succ_log_self (b := 10) (by norm_num) |x|

theorem adjustedQ_eq {x : ℚ} {e : ℤ} (h1 : (10 : ℚ) ^ e ≤ |x|) (h2 : |x| < 10 ^ (e + 1)) :
    adjustedQ x = e := by
  have hx : 0 < |x| := lt_of_lt_of_le (zpow_pos (by norm_num) e) h1
  have hle := (Int.zpow_le_iff_le_log (b := 10) (by norm_num) hx).mp (by simpa using h1)
  have hlt := (Int.lt_zpow_iff_log_lt (b := 10) (by norm_num) hx).mp (by simpa using h2)
  unfold adjustedQ
  omega

theorem adjustedQ_mono {x y : ℚ} (hx : x ≠ 0) (h : |x| ≤ |y|) : adjustedQ x ≤ adjustedQ y :=
  Int.log_mono_right (abs_pos.mpr hx) h

@[simp] theorem adjustedQ_zpow (k : ℤ) : adjustedQ ((10 : ℚ) ^ k) = k := by
  have hk : |(10 : ℚ) ^ k| = 10 ^ k := abs_of_pos (zpow_pos (by norm_num) k)
  exact adjustedQ_eq (by rw [hk]) (by rw [hk]; exact zpow_lt_zpow_right₀ (by norm_num) (by omega))

theorem adjustedQ_mul_zpow {x : ℚ} (hx : x ≠ 0) (k : ℤ) : adjustedQ (x * 10 ^ k) = adjustedQ x + k := by
  have hk : (0 : ℚ) < 10 ^ k := zpow_pos (by norm_num) k
  have h10 : (10 : ℚ) ≠ 0 := by norm_num
  apply adjustedQ_eq
  · rw [abs_mul, abs_of_pos hk, zpow_add₀ h10]
    exact mul_le_mul_of_nonneg_right (zpow_adjustedQ_le hx) hk.le
  · rw [abs_mul, abs_of_pos hk, add_right_comm, zpow_add₀ h10]
    exact mul_lt_mul_of_pos_right (lt_zpow_adjustedQ x) hk

/-! ## Rounding to the context -/

/-- The exponent of the last digit the context keeps of `x`. -/
def quantumQ (x : ℚ) : ℤ := max (adjustedQ x - (prec - 1)) etiny

/-- The exact result `x` rounded by the context, before the overflow check. -/
def roundQ (x : ℚ) : ℚ := roundHalfEven (x / 10 ^ quantumQ x) * 10 ^ quantumQ x

theorem etiny_le_quantumQ (x : ℚ) : etiny ≤ quantumQ x := le_max_right _ _

theorem adjustedQ_le_quantumQ (x : ℚ) : adjustedQ x ≤ quantumQ x + (prec - 1) := by
  unfold quantumQ; omega

theorem quantumQ_mono {x y : ℚ} (hx : x ≠ 0) (h : |x| ≤ |y|) : quantumQ x ≤ quantumQ y :=
  max_le_max (by linarith [adjustedQ_mono hx h]) le_rfl

/-- From `10 ^ emin` on, the context keeps exactly `prec` digits. -/
theorem quantumQ_of_normal {x : ℚ} (hx : emin ≤ adjustedQ x) : quantumQ x = adjustedQ x - (prec - 1) := by
  unfold quantumQ etiny at *; omega

@[simp] theorem roundQ_zero : roundQ 0 = 0 := by simp [roundQ]

/-- `x` scaled to its last kept digit lies strictly between `-10 ^ prec` and `10 ^ prec`. -/
theorem abs_div_zpow_quantumQ_lt (x : ℚ) : |x / 10 ^ quantumQ x| < 10 ^ prec := by
  have hq : (0 : ℚ) < 10 ^ quantumQ x := zpow_pos (by norm_num) _
  rw [abs_div, abs_of_pos hq, div_lt_iff₀ hq, ← zpow_natCast, ← zpow_add₀ (by norm_num)]
  calc |x| < 10 ^ (adjustedQ x + 1) := lt_zpow_adjustedQ x
    _ ≤ 10 ^ ((prec : ℤ) + quantumQ x) :=
      zpow_le_zpow_right₀ (by norm_num) (by have := adjustedQ_le_quantumQ x; unfold prec at *; omega)

theorem abs_roundQ_sub_le (x : ℚ) : |roundQ x - x| ≤ 10 ^ quantumQ x / 2 := by
  have hq : (0 : ℚ) < 10 ^ quantumQ x := zpow_pos (by norm_num) _
  have h := abs_roundHalfEven_sub_le (x / 10 ^ quantumQ x)
  have he : roundQ x - x = ((roundHalfEven (x / 10 ^ quantumQ x) : ℚ) - x / 10 ^ quantumQ x) * 10 ^ quantumQ x := by
    rw [roundQ, sub_mul, div_mul_cancel₀ _ hq.ne']
  rw [he, abs_mul, abs_of_pos hq]
  calc _ ≤ 1 / 2 * 10 ^ quantumQ x := mul_le_mul_of_nonneg_right h hq.le
    _ = _ := by ring

theorem roundQ_nonneg {x : ℚ} (hx : 0 ≤ x) : 0 ≤ roundQ x := by
  have hq : (0 : ℚ) < 10 ^ quantumQ x := zpow_pos (by norm_num) _
  have := roundHalfEven_nonneg (div_nonneg hx hq.le)
  unfold roundQ; positivity

/-- A non-negative `x` rounds to at most `10 ^ prec` units of its last kept digit. -/
theorem roundQ_le_zpow (x : ℚ) : roundQ x ≤ 10 ^ (quantumQ x + prec) := by
  have hq : (0 : ℚ) < 10 ^ quantumQ x := zpow_pos (by norm_num) _
  have hlt := (abs_lt.mp (abs_div_zpow_quantumQ_lt x)).2
  have hm := roundHalfEven_mono (z := ((10 ^ prec : ℤ) : ℚ)) (by push_cast; exact hlt.le)
  rw [roundHalfEven_intCast] at hm
  rw [roundQ, zpow_add₀ (by norm_num), zpow_natCast, mul_comm ((10 : ℚ) ^ quantumQ x)]
  exact mul_le_mul_of_nonneg_right (by exact_mod_cast hm) hq.le

/-- A positive `x` that keeps `prec` digits rounds to at least the power of ten below it. -/
theorem zpow_adjustedQ_le_roundQ {x : ℚ} (hx : 0 < x) (hn : quantumQ x = adjustedQ x - (prec - 1)) :
    (10 : ℚ) ^ adjustedQ x ≤ roundQ x := by
  have hq : (0 : ℚ) < 10 ^ quantumQ x := zpow_pos (by norm_num) _
  have hlow : ((10 ^ (prec - 1) : ℤ) : ℚ) ≤ x / 10 ^ quantumQ x := by
    rw [le_div_iff₀ hq]
    push_cast
    rw [← zpow_natCast, ← zpow_add₀ (by norm_num), hn]
    have := zpow_adjustedQ_le hx.ne'
    rw [abs_of_pos hx] at this
    convert this using 2
    unfold prec; omega
  have hm := roundHalfEven_mono hlow
  rw [roundHalfEven_intCast] at hm
  rw [roundQ, show adjustedQ x = (prec - 1 : ℕ) + quantumQ x by unfold prec at *; omega,
    zpow_add₀ (by norm_num), zpow_natCast]
  exact mul_le_mul_of_nonneg_right (by exact_mod_cast hm) hq.le

/-- **Monotonicity.** With the same last digit this is `roundHalfEven_mono`; otherwise `y` keeps its leading
digit, which lies above every value `x` can round to. -/
theorem roundQ_mono {x y : ℚ} (hx : 0 ≤ x) (h : x ≤ y) : roundQ x ≤ roundQ y := by
  rcases hx.eq_or_lt with rfl | hx
  · simpa using roundQ_nonneg h
  have hy : 0 < y := lt_of_lt_of_le hx h
  have hq := quantumQ_mono (y := y) hx.ne' (by rwa [abs_of_pos hx, abs_of_pos hy])
  rcases hq.eq_or_lt with hq | hq
  · have hs : (0 : ℚ) < 10 ^ quantumQ y := zpow_pos (by norm_num) _
    have hr : (roundHalfEven (x / 10 ^ quantumQ y) : ℚ) ≤ roundHalfEven (y / 10 ^ quantumQ y) := by
      exact_mod_cast roundHalfEven_mono ((div_le_div_iff_of_pos_right hs).mpr h)
    rw [roundQ, roundQ, hq]
    exact mul_le_mul_of_nonneg_right hr hs.le
  · have hn : quantumQ y = adjustedQ y - (prec - 1) := by
      have := etiny_le_quantumQ x
      unfold quantumQ at *; omega
    calc roundQ x ≤ 10 ^ (quantumQ x + prec) := roundQ_le_zpow x
      _ ≤ 10 ^ adjustedQ y := zpow_le_zpow_right₀ (by norm_num) (by omega)
      _ ≤ roundQ y := zpow_adjustedQ_le_roundQ hy hn

/-- Half a unit of the `prec`-th digit, relative to the leading one: `5E-28`. -/
def unitRoundoff : ℚ := 1 / (2 * 10 ^ (prec - 1))

/-- **Relative error.** From `10 ^ emin` on, rounding adds at most `unitRoundoff` of the value. -/
theorem roundQ_le_mul {x : ℚ} (hx : 10 ^ emin ≤ x) : roundQ x ≤ x * (1 + unitRoundoff) := by
  have hpos : 0 < x := lt_of_lt_of_le (zpow_pos (by norm_num) _) hx
  have hadj : emin ≤ adjustedQ x := by
    simpa using adjustedQ_mono (x := (10 : ℚ) ^ emin) (zpow_ne_zero _ (by norm_num))
      (by rwa [abs_of_pos (zpow_pos (by norm_num) _), abs_of_pos hpos])
  have hlead := zpow_adjustedQ_le hpos.ne'
  rw [abs_of_pos hpos] at hlead
  have hq : (10 : ℚ) ^ quantumQ x / 2 = 10 ^ adjustedQ x * unitRoundoff := by
    rw [quantumQ_of_normal hadj, zpow_sub₀ (by norm_num), unitRoundoff]
    norm_num [prec]
    ring
  have herr := (abs_le.mp (abs_roundQ_sub_le x)).2
  have hu : (0 : ℚ) ≤ unitRoundoff := by unfold unitRoundoff; positivity
  calc roundQ x ≤ x + 10 ^ adjustedQ x * unitRoundoff := by linarith
    _ ≤ x + x * unitRoundoff := add_le_add_left (mul_le_mul_of_nonneg_right hlead hu) x
    _ = x * (1 + unitRoundoff) := by ring

/-! ## Values the context holds exactly -/

/-- The values of the context: at most `prec` digits, the last one not below `10 ^ etiny`. -/
def Representable (x : ℚ) : Prop := ∃ m j : ℤ, |m| < 10 ^ prec ∧ etiny ≤ j ∧ x = m * 10 ^ j

/-- Rounding `m * 10 ^ j` at a last digit `q ≤ j` gives it back. -/
theorem roundHalfEven_mul_zpow {m j q : ℤ} (h : q ≤ j) :
    (roundHalfEven (m * 10 ^ j / 10 ^ q) : ℚ) * 10 ^ q = m * 10 ^ j := by
  obtain ⟨t, rfl⟩ : ∃ t : ℕ, j = q + t := ⟨(j - q).toNat, by omega⟩
  have h10 : (10 : ℚ) ^ q ≠ 0 := zpow_ne_zero _ (by norm_num)
  have he : (m : ℚ) * 10 ^ (q + t) / 10 ^ q = ((m * 10 ^ t : ℤ) : ℚ) := by
    push_cast
    rw [zpow_add₀ (by norm_num), zpow_natCast]
    field_simp
    ring
  rw [he, roundHalfEven_intCast]
  push_cast
  rw [zpow_add₀ (by norm_num), zpow_natCast]
  ring

theorem adjustedQ_intCast_lt {m : ℤ} (hm0 : m ≠ 0) (hm : |m| < 10 ^ prec) : adjustedQ (m : ℚ) < prec := by
  by_contra hc
  have h1 := zpow_adjustedQ_le (x := (m : ℚ)) (by exact_mod_cast hm0)
  have h2 : (10 : ℚ) ^ (prec : ℤ) ≤ 10 ^ adjustedQ (m : ℚ) := zpow_le_zpow_right₀ (by norm_num) (by omega)
  have h3 : |(m : ℚ)| < 10 ^ (prec : ℤ) := by rw [zpow_natCast]; exact_mod_cast hm
  linarith

theorem roundQ_of_representable {x : ℚ} (h : Representable x) : roundQ x = x := by
  obtain ⟨m, j, hm, hj, rfl⟩ := h
  rcases eq_or_ne m 0 with rfl | hm0
  · simp
  have hadj := adjustedQ_intCast_lt hm0 hm
  have hq : quantumQ ((m : ℚ) * 10 ^ j) ≤ j := by
    have := adjustedQ_mul_zpow (x := (m : ℚ)) (by exact_mod_cast hm0) j
    unfold quantumQ
    omega
  exact roundHalfEven_mul_zpow hq

theorem representable_roundQ (x : ℚ) : Representable (roundQ x) := by
  have hb := abs_lt.mp (abs_div_zpow_quantumQ_lt x)
  have h1 := roundHalfEven_mono (z := ((10 ^ prec : ℤ) : ℚ)) (by push_cast; exact hb.2.le)
  have h2 := roundHalfEven_mono (y := ((-10 ^ prec : ℤ) : ℚ)) (by push_cast; exact hb.1.le)
  rw [roundHalfEven_intCast] at h1 h2
  have hq := etiny_le_quantumQ x
  by_cases hM : |roundHalfEven (x / 10 ^ quantumQ x)| < 10 ^ prec
  · exact ⟨_, _, hM, hq, rfl⟩
  · -- a carry into a new leading digit: `±10 ^ prec` units are `±10 ^ (prec - 1)` of the next digit
    have hc : roundHalfEven (x / 10 ^ quantumQ x) = 10 ^ prec ∨ roundHalfEven (x / 10 ^ quantumQ x) = -10 ^ prec := by
      rw [abs_lt] at hM
      omega
    have h10 : (10 : ℚ) ^ (quantumQ x + 1) = 10 ^ quantumQ x * 10 := by rw [zpow_add₀ (by norm_num), zpow_one]
    rcases hc with hc | hc
    · exact ⟨10 ^ (prec - 1), quantumQ x + 1, by norm_num [prec], by omega,
        by rw [roundQ, hc, h10]; norm_num [prec]; ring⟩
    · exact ⟨-10 ^ (prec - 1), quantumQ x + 1, by norm_num [prec], by omega,
        by rw [roundQ, hc, h10]; norm_num [prec]; ring⟩

theorem Representable.mul_zpow {x : ℚ} (h : Representable x) {k : ℤ} (hk : 0 ≤ k) :
    Representable (x * 10 ^ k) := by
  obtain ⟨m, j, hm, hj, rfl⟩ := h
  exact ⟨m, j + k, hm, by omega, by rw [zpow_add₀ (by norm_num)]; ring⟩

theorem representable_zpow {k : ℤ} (hk : etiny ≤ k) : Representable ((10 : ℚ) ^ k) :=
  ⟨1, k, by norm_num [prec], hk, by simp⟩

theorem representable_intCast {m : ℤ} (hm : |m| < 10 ^ prec) : Representable (m : ℚ) :=
  ⟨m, 0, hm, by norm_num [etiny, emin, prec], by simp⟩

/-- A value at most a value of the context rounds to at most that value. -/
theorem roundQ_le_of_le_representable {x y : ℚ} (hx : 0 ≤ x) (h : x ≤ y) (hy : Representable y) :
    roundQ x ≤ y :=
  roundQ_of_representable hy ▸ roundQ_mono hx h

end RevoMigration.Decimal
