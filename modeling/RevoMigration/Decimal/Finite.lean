import RevoMigration.Decimal.Round
import Mathlib.Data.Nat.Log

/-!
# Finite decimals and the context's arithmetic

A finite `Decimal` is a coefficient and an exponent (`Dec`, value `Dec.val`). The operations the scripts use
(`*`, `/`, `+` of two decimals, `int()`) are computed here on integers only, so that they evaluate by `decide`:
the exact result is a fraction `n / d * 10 ^ e`, its leading digit comes from the digit counts of `n` and `d`
(`adjustedFrac`), and its rounding from an integer division and its remainder (`roundHalfEvenFrac`).

Each operation computes the context's rounding of the exact rational result (`fixQ`): `fixFrac_val`,
`Dec.mul_val`, `Dec.div_val`, `Dec.add_val`, and `Dec.toInt_eq_floor` for `int()`.
-/

namespace RevoMigration.Decimal

/-! ## Digit counts -/

/-- The number of decimal digits of `n`, counting at most `fuel` of them. -/
def digitsAux : ℕ → ℕ → ℕ
  | 0, _ => 0
  | fuel + 1, n => if n = 0 then 0 else digitsAux fuel (n / 10) + 1

/-- The number of decimal digits of `n`: `len(str(n))` for `n > 0`. -/
def numDigits (n : ℕ) : ℕ := digitsAux n n

theorem digitsAux_eq : ∀ {fuel n : ℕ}, n ≤ fuel → digitsAux fuel n = if n = 0 then 0 else Nat.log 10 n + 1
  | 0, n, h => by simp [digitsAux, Nat.le_zero.mp h]
  | fuel + 1, n, h => by
    rcases Nat.eq_zero_or_pos n with rfl | hn
    · simp [digitsAux]
    have ih : digitsAux fuel (n / 10) = _ := digitsAux_eq (by omega)
    simp only [digitsAux, hn.ne', if_false, ih]
    split_ifs with h10
    · rw [Nat.log_of_lt (by omega)]
    · rw [Nat.log_div_base, Nat.sub_add_cancel (Nat.log_pos (by norm_num) (by omega))]

theorem numDigits_eq {n : ℕ} (hn : 0 < n) : numDigits n = Nat.log 10 n + 1 := by
  simp [numDigits, digitsAux_eq le_rfl, hn.ne']

/-- `n` has its leading digit at `10 ^ (numDigits n - 1)`. -/
theorem numDigits_spec {n : ℕ} (hn : 0 < n) : 10 ^ (numDigits n - 1) ≤ n ∧ n < 10 ^ numDigits n := by
  rw [numDigits_eq hn, Nat.add_sub_cancel]
  exact ⟨Nat.pow_log_le_self 10 hn.ne', Nat.lt_pow_succ_log_self (by norm_num) n⟩

@[simp] theorem adjustedQ_abs (x : ℚ) : adjustedQ |x| = adjustedQ x := by
  simp [adjustedQ]

/-- The leading digit of `N / d` from cross-multiplied bounds in `ℕ`. -/
theorem adjustedQ_div_of_bounds {N d a b : ℕ} (hd : 0 < d) (h1 : 10 ^ a * d ≤ N * 10 ^ b)
    (h2 : N * 10 ^ b < 10 ^ (a + 1) * d) : adjustedQ ((N : ℚ) / d) = (a : ℤ) - b := by
  have hd' : (0 : ℚ) < d := by exact_mod_cast hd
  have hb : (0 : ℚ) < 10 ^ b := by positivity
  have hx : 0 ≤ (N : ℚ) / d := by positivity
  apply adjustedQ_eq <;> rw [abs_of_nonneg hx]
  · rw [zpow_sub₀ (by norm_num), zpow_natCast, zpow_natCast, div_le_div_iff₀ hb hd']
    exact_mod_cast h1
  · rw [sub_add_eq_add_sub, zpow_sub₀ (by norm_num), ← Nat.cast_succ, zpow_natCast, zpow_natCast,
      div_lt_div_iff₀ hd' hb]
    exact_mod_cast h2

/-- The exponent of the leading digit of `n / d` (`n ≠ 0`, `0 < d`), from the digit counts of both. -/
def adjustedFrac (n : ℤ) (d : ℕ) : ℤ :=
  if d * 10 ^ (numDigits n.natAbs - 1) ≤ n.natAbs * 10 ^ (numDigits d - 1) then
    (numDigits n.natAbs : ℤ) - numDigits d
  else (numDigits n.natAbs : ℤ) - numDigits d - 1

theorem adjustedFrac_eq {n : ℤ} {d : ℕ} (hn : n ≠ 0) (hd : 0 < d) : adjustedFrac n d = adjustedQ (n / d) := by
  have hN : 0 < n.natAbs := Int.natAbs_pos.mpr hn
  obtain ⟨A, hA⟩ : ∃ A, numDigits n.natAbs = A + 1 := ⟨_, numDigits_eq hN⟩
  obtain ⟨B, hB⟩ : ∃ B, numDigits d = B + 1 := ⟨_, numDigits_eq hd⟩
  have hNb := numDigits_spec hN
  have hdb := numDigits_spec hd
  rw [hA, Nat.add_sub_cancel] at hNb
  rw [hB, Nat.add_sub_cancel] at hdb
  have habs : |(n : ℚ) / d| = (n.natAbs : ℚ) / d := by
    rw [abs_div, Nat.abs_cast, Nat.cast_natAbs, Int.cast_abs]
  rw [← adjustedQ_abs, habs]
  unfold adjustedFrac
  simp only [hA, hB, Nat.add_sub_cancel]
  split_ifs with hc
  · rw [adjustedQ_div_of_bounds (a := A) (b := B) hd (by linarith) ?_]
    · push_cast; ring
    · calc n.natAbs * 10 ^ B < 10 ^ (A + 1) * 10 ^ B := Nat.mul_lt_mul_of_pos_right hNb.2 (by positivity)
        _ ≤ 10 ^ (A + 1) * d := Nat.mul_le_mul_left _ hdb.1
  · rw [adjustedQ_div_of_bounds (a := A) (b := B + 1) hd (Nat.mul_le_mul hNb.1 hdb.2.le) ?_]
    · push_cast; ring
    · calc n.natAbs * 10 ^ (B + 1) = n.natAbs * 10 ^ B * 10 := by ring
        _ < d * 10 ^ A * 10 := Nat.mul_lt_mul_of_pos_right (not_le.mp hc) (by norm_num)
        _ = 10 ^ (A + 1) * d := by ring

/-! ## Rounding a fraction -/

/-- `ROUND_HALF_EVEN` of `num / den` (`0 < den`) from the integer quotient and remainder. -/
def roundHalfEvenFrac (num : ℤ) (den : ℕ) : ℤ :=
  if 2 * (num % den) < den then num / den
  else if (den : ℤ) < 2 * (num % den) then num / den + 1
  else if num / den % 2 = 0 then num / den else num / den + 1

theorem roundHalfEvenFrac_eq (num : ℤ) {den : ℕ} (hd : 0 < den) :
    roundHalfEvenFrac num den = roundHalfEven (num / den) := by
  have hd' : (0 : ℚ) < den := by exact_mod_cast hd
  have hfl : ⌊(num : ℚ) / den⌋ = num / (den : ℤ) := Rat.floor_intCast_div_natCast num den
  have hfr : Int.fract ((num : ℚ) / den) = ((num % (den : ℤ) : ℤ) : ℚ) / den := by
    rw [Int.fract, hfl, eq_div_iff hd'.ne', sub_mul, div_mul_cancel₀ _ hd'.ne']
    have := Int.emod_add_ediv num den
    rw [← sub_eq_zero]
    have h : ((num % (den : ℤ) : ℤ) : ℚ) = num - den * (num / (den : ℤ) : ℤ) := by
      rw [eq_sub_iff_add_eq]; exact_mod_cast this
    rw [h]; ring
  have h1 : ((num % (den : ℤ) : ℤ) : ℚ) / den < 1 / 2 ↔ 2 * (num % (den : ℤ)) < den := by
    rw [div_lt_div_iff₀ hd' two_pos, one_mul, mul_comm]
    norm_cast
  have h2 : 1 / 2 < ((num % (den : ℤ) : ℤ) : ℚ) / den ↔ (den : ℤ) < 2 * (num % (den : ℤ)) := by
    rw [div_lt_div_iff₀ two_pos hd', one_mul, mul_comm]
    norm_cast
  simp only [roundHalfEvenFrac, roundHalfEven, hfl, hfr, h1, h2]

/-! ## Finite decimals -/

/-- A finite `Decimal`: coefficient (with the sign) and exponent. -/
structure Dec where
  coeff : ℤ
  exp : ℤ
  deriving DecidableEq, Repr

/-- The value `coeff * 10 ^ exp`. -/
def Dec.val (x : Dec) : ℚ := x.coeff * 10 ^ x.exp

/-- `Decimal.adjusted()`: the exponent of the leading digit. -/
def Dec.adjusted (x : Dec) : ℤ := x.exp + numDigits x.coeff.natAbs - 1

/-- `Decimal(n)` of a Python `int`: exact, whatever the precision. -/
def Dec.ofInt (n : ℤ) : Dec := ⟨n, 0⟩

@[simp] theorem Dec.val_ofInt (n : ℤ) : (Dec.ofInt n).val = n := by simp [Dec.ofInt, Dec.val]

theorem Dec.val_eq_zero {x : Dec} : x.val = 0 ↔ x.coeff = 0 := by
  simp [Dec.val, zpow_ne_zero]

theorem Dec.adjusted_eq {x : Dec} (h : x.coeff ≠ 0) : x.adjusted = adjustedQ x.val := by
  have hN : 0 < x.coeff.natAbs := Int.natAbs_pos.mpr h
  have hq := adjustedFrac_eq (d := 1) h one_pos
  simp only [Nat.cast_one, div_one] at hq
  rw [Dec.val, adjustedQ_mul_zpow (by exact_mod_cast h), ← hq, Dec.adjusted, adjustedFrac]
  have := numDigits_spec hN
  have h1 : numDigits 1 = 1 := by decide
  simp only [h1, Nat.sub_self, pow_zero, Nat.cast_one]
  split_ifs <;> omega

/-- The exact value `n / d * 10 ^ e` (`0 < d`) rounded by the context: the last kept digit `q` and the count of
its units. -/
def roundFrac (n : ℤ) (d : ℕ) (e : ℤ) : Dec :=
  let q := max (adjustedFrac n d + e - (prec - 1)) etiny
  if q ≤ e then ⟨roundHalfEvenFrac (n * 10 ^ (e - q).toNat) d, q⟩
  else ⟨roundHalfEvenFrac n (d * 10 ^ (q - e).toNat), q⟩

@[simp] theorem roundHalfEvenFrac_zero (den : ℕ) : roundHalfEvenFrac 0 den = 0 := by
  simp [roundHalfEvenFrac]

theorem roundFrac_val (n : ℤ) {d : ℕ} (hd : 0 < d) (e : ℤ) : (roundFrac n d e).val = roundQ (n / d * 10 ^ e) := by
  have hd' : (0 : ℚ) < d := by exact_mod_cast hd
  rcases eq_or_ne n 0 with rfl | hn
  · simp [roundFrac, Dec.val]
  have hx : (n : ℚ) / d ≠ 0 := div_ne_zero (by exact_mod_cast hn) hd'.ne'
  set q := max (adjustedFrac n d + e - (prec - 1)) etiny with hqdef
  have hq : quantumQ ((n : ℚ) / d * 10 ^ e) = q := by
    rw [quantumQ, adjustedQ_mul_zpow hx, ← adjustedFrac_eq hn hd]
  have h10 : (10 : ℚ) ≠ 0 := by norm_num
  simp only [roundFrac, roundQ, hq, ← hqdef, Dec.val]
  split_ifs with hle
  · obtain ⟨t, ht⟩ := Int.eq_ofNat_of_zero_le (sub_nonneg.mpr hle)
    have he : (10 : ℚ) ^ e = 10 ^ q * 10 ^ t := by
      rw [← zpow_natCast, ← zpow_add₀ h10, ← ht, add_sub_cancel]
    have harg : ((n * 10 ^ t : ℤ) : ℚ) / d = n / d * 10 ^ e / 10 ^ q := by
      rw [he, mul_comm (10 ^ q : ℚ), ← mul_assoc, mul_div_cancel_right₀ _ (zpow_ne_zero q h10)]
      push_cast; ring
    rw [ht, Int.toNat_natCast, roundHalfEvenFrac_eq _ hd, harg]
  · obtain ⟨t, ht⟩ := Int.eq_ofNat_of_zero_le (sub_nonneg.mpr (not_le.mp hle).le)
    have hq' : (10 : ℚ) ^ q = 10 ^ e * 10 ^ t := by
      rw [← zpow_natCast, ← zpow_add₀ h10, ← ht, add_sub_cancel]
    have harg : (n : ℚ) / ((d * 10 ^ t : ℕ) : ℚ) = n / d * 10 ^ e / 10 ^ q := by
      rw [hq', ← div_div, mul_div_cancel_right₀ _ (zpow_ne_zero e h10), div_div]
      push_cast; rfl
    rw [ht, Int.toNat_natCast, roundHalfEvenFrac_eq _ (by positivity), harg]

/-! ## The operations -/

/-- The exceptions the scripts' arithmetic can raise: the signals the context traps, and the errors of `int()` on
a NaN (`ValueError`) and on an infinity (`OverflowError`). -/
inductive PyError
  | invalidOperation
  | divisionByZero
  | overflow
  | valueError
  | overflowError
  deriving DecidableEq, Repr

instance decEqExcept {ε α : Type} [DecidableEq ε] [DecidableEq α] : DecidableEq (Except ε α)
  | .error e, .error e' => decidable_of_iff (e = e') (by simp)
  | .ok a, .ok a' => decidable_of_iff (a = a') (by simp)
  | .error _, .ok _ => isFalse (by simp)
  | .ok _, .error _ => isFalse (by simp)

section ExceptBind

variable {ε α β : Type}

@[simp] theorem ok_bind (a : α) (f : α → Except ε β) : (Except.ok a >>= f) = f a := rfl

@[simp] theorem error_bind (e : ε) (f : α → Except ε β) : (Except.error e >>= f) = Except.error e := rfl

theorem bind_eq_ok {m : Except ε α} {f : α → Except ε β} {b : β} (h : m >>= f = .ok b) :
    ∃ a, m = .ok a ∧ f a = .ok b := by
  cases m with
  | error e => cases h
  | ok a => exact ⟨a, rfl, h⟩

theorem map_eq_ok {m : Except ε α} {f : α → β} {b : β} (h : m.map f = .ok b) : ∃ a, m = .ok a ∧ f a = b := by
  cases m with
  | error e => cases h
  | ok a => exact ⟨a, rfl, Except.ok.inj h⟩

end ExceptBind

/-- The context applied to an exact result: rounded, or `Overflow` when the rounded value's leading digit is above
`Emax`. -/
def fixQ (x : ℚ) : Except PyError ℚ :=
  if roundQ x ≠ 0 ∧ emax < adjustedQ (roundQ x) then .error .overflow else .ok (roundQ x)

theorem fixQ_cases (x : ℚ) : fixQ x = .error .overflow ∨ fixQ x = .ok (roundQ x) := by
  unfold fixQ; split_ifs <;> simp

theorem fixQ_eq_ok {x y : ℚ} (h : fixQ x = .ok y) : y = roundQ x := by
  rcases fixQ_cases x with h' | h' <;> rw [h'] at h <;> cases h
  rfl

/-- Below a power of ten the context holds, a non-negative result neither overflows nor rounds past it. -/
theorem fixQ_of_le_zpow {x : ℚ} {k : ℤ} (hx : 0 ≤ x) (hxk : x ≤ 10 ^ k) (hk : etiny ≤ k) (hke : k ≤ emax) :
    fixQ x = .ok (roundQ x) ∧ roundQ x ≤ 10 ^ k := by
  have hle := roundQ_le_of_le_representable hx hxk (representable_zpow hk)
  refine ⟨if_neg fun ⟨h0, hover⟩ => ?_, hle⟩
  have hpos : 0 < roundQ x := lt_of_le_of_ne (roundQ_nonneg hx) (Ne.symm h0)
  have := adjustedQ_mono (y := (10 : ℚ) ^ k) h0 (by rwa [abs_of_pos hpos, abs_of_pos (zpow_pos (by norm_num) k)])
  rw [adjustedQ_zpow] at this
  omega

/-- A smaller non-negative exact result than one that does not overflow does not overflow either. -/
theorem fixQ_of_le {x x' y' : ℚ} (hx : 0 ≤ x) (h : x ≤ x') (h' : fixQ x' = .ok y') :
    fixQ x = .ok (roundQ x) ∧ roundQ x ≤ y' := by
  have hy' := fixQ_eq_ok h'
  have hle := roundQ_mono hx h
  refine ⟨if_neg fun ⟨h0, hover⟩ => ?_, hy' ▸ hle⟩
  have hpos : 0 < roundQ x := lt_of_le_of_ne (roundQ_nonneg hx) (Ne.symm h0)
  have hpos' : 0 < roundQ x' := lt_of_lt_of_le hpos hle
  have hok : ¬ (roundQ x' ≠ 0 ∧ emax < adjustedQ (roundQ x')) := by
    intro hc; unfold fixQ at h'; rw [if_pos hc] at h'; cases h'
  have := adjustedQ_mono (y := roundQ x') h0 (by rwa [abs_of_pos hpos, abs_of_pos hpos'])
  exact hok ⟨hpos'.ne', by omega⟩

/-- `_fix` of the exact result `n / d * 10 ^ e`. -/
def fixFrac (n : ℤ) (d : ℕ) (e : ℤ) : Except PyError Dec :=
  if (roundFrac n d e).coeff ≠ 0 ∧ emax < (roundFrac n d e).adjusted then .error .overflow
  else .ok (roundFrac n d e)

theorem fixFrac_val (n : ℤ) {d : ℕ} (hd : 0 < d) (e : ℤ) :
    Dec.val <$> fixFrac n d e = fixQ (n / d * 10 ^ e) := by
  have hc : ((roundFrac n d e).coeff ≠ 0 ∧ emax < (roundFrac n d e).adjusted) ↔
      ((roundFrac n d e).val ≠ 0 ∧ emax < adjustedQ (roundFrac n d e).val) := by
    rw [Ne, Ne, Dec.val_eq_zero]
    exact and_congr_right fun h => by rw [Dec.adjusted_eq h]
  unfold fixFrac fixQ
  rw [← roundFrac_val n hd e]
  by_cases h : (roundFrac n d e).coeff ≠ 0 ∧ emax < (roundFrac n d e).adjusted
  · rw [if_pos h, if_pos (hc.mp h)]; rfl
  · rw [if_neg h, if_neg (mt hc.mpr h)]; rfl

/-- `x * y`. -/
def Dec.mul (x y : Dec) : Except PyError Dec := fixFrac (x.coeff * y.coeff) 1 (x.exp + y.exp)

/-- `x / y`: `0 / 0` is `InvalidOperation`, `x / 0` is `DivisionByZero`. -/
def Dec.div (x y : Dec) : Except PyError Dec :=
  if y.coeff = 0 then .error (if x.coeff = 0 then .invalidOperation else .divisionByZero)
  else fixFrac (x.coeff * y.coeff.sign) y.coeff.natAbs (x.exp - y.exp)

/-- `x + y`, both aligned on the smaller exponent. -/
def Dec.add (x y : Dec) : Except PyError Dec :=
  fixFrac (x.coeff * 10 ^ (x.exp - min x.exp y.exp).toNat + y.coeff * 10 ^ (y.exp - min x.exp y.exp).toNat) 1
    (min x.exp y.exp)

/-- `int(x)`: the digits above the point, truncated toward zero. -/
def Dec.toInt (x : Dec) : ℤ :=
  if 0 ≤ x.exp then x.coeff * 10 ^ x.exp.toNat
  else x.coeff.sign * (x.coeff.natAbs / 10 ^ (-x.exp).toNat : ℕ)

theorem Dec.mul_val (x y : Dec) : Dec.val <$> x.mul y = fixQ (x.val * y.val) := by
  rw [Dec.mul, fixFrac_val _ one_pos, Dec.val, Dec.val]
  push_cast
  rw [zpow_add₀ (by norm_num)]
  ring_nf

theorem Dec.div_val (x : Dec) {y : Dec} (hy : y.coeff ≠ 0) : Dec.val <$> x.div y = fixQ (x.val / y.val) := by
  have h10 : (10 : ℚ) ≠ 0 := by norm_num
  rw [Dec.div, if_neg hy, fixFrac_val _ (Int.natAbs_pos.mpr hy), Dec.val, Dec.val, zpow_sub₀ h10]
  congr 1
  rcases lt_or_gt_of_ne hy with h | h
  · have hn : ((y.coeff.natAbs : ℕ) : ℚ) = -y.coeff := by
      rw [Nat.cast_natAbs, Int.cast_abs, abs_of_neg (by exact_mod_cast h)]
    rw [Int.sign_eq_neg_one_of_neg h, hn]
    push_cast
    ring
  · have hn : ((y.coeff.natAbs : ℕ) : ℚ) = y.coeff := by
      rw [Nat.cast_natAbs, Int.cast_abs, abs_of_pos (by exact_mod_cast h)]
    rw [Int.sign_eq_one_of_pos h, hn]
    push_cast
    ring

theorem Dec.add_val (x y : Dec) : Dec.val <$> x.add y = fixQ (x.val + y.val) := by
  have h10 : (10 : ℚ) ≠ 0 := by norm_num
  obtain ⟨a, ha⟩ := Int.eq_ofNat_of_zero_le (sub_nonneg.mpr (min_le_left x.exp y.exp))
  obtain ⟨b, hb⟩ := Int.eq_ofNat_of_zero_le (sub_nonneg.mpr (min_le_right x.exp y.exp))
  have hx : (10 : ℚ) ^ x.exp = 10 ^ a * 10 ^ min x.exp y.exp := by
    rw [← zpow_natCast, ← zpow_add₀ h10, ← ha, sub_add_cancel]
  have hy : (10 : ℚ) ^ y.exp = 10 ^ b * 10 ^ min x.exp y.exp := by
    rw [← zpow_natCast, ← zpow_add₀ h10, ← hb, sub_add_cancel]
  rw [Dec.add, fixFrac_val _ one_pos, Dec.val, Dec.val, ha, hb, Int.toNat_natCast, Int.toNat_natCast, hx, hy]
  push_cast
  ring_nf

/-- Truncation toward zero, what `int()` does to a finite value. -/
def truncQ (x : ℚ) : ℤ := if 0 ≤ x then ⌊x⌋ else ⌈x⌉

theorem truncQ_of_nonneg {x : ℚ} (hx : 0 ≤ x) : truncQ x = ⌊x⌋ := if_pos hx

theorem truncQ_mono {x y : ℚ} (hx : 0 ≤ x) (h : x ≤ y) : truncQ x ≤ truncQ y := by
  rw [truncQ_of_nonneg hx, truncQ_of_nonneg (hx.trans h)]
  exact Int.floor_mono h

theorem Dec.toInt_eq (x : Dec) : x.toInt = truncQ x.val := by
  have h10 : (10 : ℚ) ≠ 0 := by norm_num
  have hp : (0 : ℚ) < 10 ^ x.exp := zpow_pos (by norm_num) _
  unfold Dec.toInt truncQ
  split_ifs with he hv hv
  · obtain ⟨k, hk⟩ := Int.eq_ofNat_of_zero_le he
    rw [Dec.val, hk, zpow_natCast, Int.toNat_natCast]
    exact_mod_cast (Int.floor_intCast _).symm
  · obtain ⟨k, hk⟩ := Int.eq_ofNat_of_zero_le he
    rw [Dec.val, hk, zpow_natCast, Int.toNat_natCast]
    exact_mod_cast (Int.ceil_intCast _).symm
  · obtain ⟨k, hk⟩ := Int.eq_ofNat_of_zero_le (neg_nonneg.mpr (not_le.mp he).le)
    have hc : 0 ≤ x.coeff := by
      by_contra h
      exact absurd hv (not_le.mpr (mul_neg_of_neg_of_pos (by exact_mod_cast not_le.mp h) hp))
    have hval : x.val = ((x.coeff.natAbs : ℤ) : ℚ) / ((10 ^ k : ℕ) : ℚ) := by
      rw [Dec.val, show x.exp = -(k : ℤ) by omega, zpow_neg, zpow_natCast, Int.natAbs_of_nonneg hc]
      push_cast; ring
    rw [hval, hk, Int.toNat_natCast, Rat.floor_intCast_div_natCast]
    rcases hc.eq_or_lt with h0 | hpos
    · simp [← h0]
    · rw [Int.sign_eq_one_of_pos hpos, one_mul]; norm_cast
  · obtain ⟨k, hk⟩ := Int.eq_ofNat_of_zero_le (neg_nonneg.mpr (not_le.mp he).le)
    have hc : x.coeff < 0 := by
      by_contra h
      exact hv (mul_nonneg (by exact_mod_cast not_lt.mp h) hp.le)
    have hval : x.val = -(((x.coeff.natAbs : ℤ) : ℚ) / ((10 ^ k : ℕ) : ℚ)) := by
      rw [Dec.val, show x.exp = -(k : ℤ) by omega, zpow_neg, zpow_natCast, Int.ofNat_natAbs_of_nonpos hc.le]
      push_cast; ring
    rw [hval, Int.ceil_neg, hk, Int.toNat_natCast, Rat.floor_intCast_div_natCast, Int.sign_eq_neg_one_of_neg hc]
    push_cast
    ring

end RevoMigration.Decimal
