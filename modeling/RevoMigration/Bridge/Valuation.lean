import Mathlib.Tactic.GCongr
import RevoMigration.Decimal.Value

/-!
# `calculate_revo_amount`

The REVO amount a deposit is worth: the token amount in whole tokens, times the token's USD price, over the REVO
price, in REVO base units, each step a `Decimal` operation of the 28-digit context and the last an `int()`
(`calculateRevoAmount`). For a supported token with finite prices this is `calcQ`, the same chain on the values
(`calculateRevoAmount_eq_calcQ`).
-/

namespace RevoMigration.Bridge

open RevoMigration.Decimal

/-- `str.lower()` on ASCII text, as addresses, hex data and topics are: the letters `A` to `Z` become lowercase and
every other character is kept, where Python would also lowercase a non-ASCII letter. -/
def lower (s : String) : String := ⟨s.data.map Char.toLower⟩

/-- `CXS_TOKEN_ADDRESS`: the native token. -/
def cxsTokenAddress : String := "0x0000000000000000000000000000000000000000"

/-- `NEXTEP_TOKEN_ADDRESS`. -/
def nextepTokenAddress : String := "0x432e4997060f2385bdb32cdc8be815c6b22a8a61"

/-- `CXS_DECIMALS`. -/
def cxsDecimals : ℕ := 18

/-- `NEXTEP_DECIMALS`. -/
def nextepDecimals : ℕ := 18

/-- `REVO_DECIMALS`. -/
def revoDecimals : ℕ := 18

/-- The branch of `calculate_revo_amount` on the lowercased token address: its decimals and its price, `none` for
an unsupported token. -/
def tokenPriceOf (tokenAddress : String) (cxsPrice nextepPrice : PyDecimal) : Option (ℕ × PyDecimal) :=
  if tokenAddress = lower cxsTokenAddress then some (cxsDecimals, cxsPrice)
  else if tokenAddress = lower nextepTokenAddress then some (nextepDecimals, nextepPrice)
  else none

/-- `calculate_revo_amount(token_address, token_amount, cxs_price, nextep_price, revo_price)`; `revoPrice` is the
command-line float, read both as a float (`revo_price <= 0`) and through `Decimal(str(revo_price))`. -/
def calculateRevoAmount (tokenAddress : String) (tokenAmount : ℕ) (cxsPrice nextepPrice revoPrice : PyDecimal) :
    Except PyError ℤ :=
  if revoPrice.floatLeZero then .ok 0
  else match tokenPriceOf (lower tokenAddress) cxsPrice nextepPrice with
    | none => .ok 0
    | some (tokenDecimals, tokenPrice) => do
      let tokenAmountDecimal ← (PyDecimal.ofInt tokenAmount).div (PyDecimal.ofInt (10 ^ tokenDecimals))
      let usdValue ← tokenAmountDecimal.mul tokenPrice
      let revoAmount ← usdValue.div revoPrice
      let revoAmountBaseUnits ← revoAmount.mul (PyDecimal.ofInt (10 ^ revoDecimals))
      revoAmountBaseUnits.toInt

/-! ## The chain on the values -/

/-- `calculate_revo_amount` on the values: every operation the context's rounding of its exact result. -/
def calcQ (tokenDecimals tokenAmount : ℕ) (tokenPrice revoPrice : ℚ) : Except PyError ℤ := do
  let tokenAmountDecimal ← fixQ (tokenAmount / 10 ^ tokenDecimals)
  let usdValue ← fixQ (tokenAmountDecimal * tokenPrice)
  let revoAmount ← fixQ (usdValue / revoPrice)
  let revoAmountBaseUnits ← fixQ (revoAmount * 10 ^ revoDecimals)
  pure (truncQ revoAmountBaseUnits)

/-- One step of the simulation: a finite result related to its value. -/
theorem map_finite_bind {β : Type} {m : Except PyError Dec} {v : Except PyError ℚ} (h : Dec.val <$> m = v)
    {f : PyDecimal → Except PyError β} {g : ℚ → Except PyError β} (hfg : ∀ x, f (.finite x) = g x.val) :
    (PyDecimal.finite <$> m) >>= f = v >>= g := by
  subst h
  cases m with
  | error e => rfl
  | ok x => exact hfg x

theorem calculateRevoAmount_eq_calcQ {tokenAddress : String} {cxsPrice nextepPrice : PyDecimal} {d : ℕ} {p r : Dec}
    (ht : tokenPriceOf (lower tokenAddress) cxsPrice nextepPrice = some (d, .finite p)) (hr : 0 < r.coeff)
    (a : ℕ) : calculateRevoAmount tokenAddress a cxsPrice nextepPrice (.finite r) = calcQ d a p.val r.val := by
  have hfl : (PyDecimal.finite r).floatLeZero = false := by simp [PyDecimal.floatLeZero, not_le.mpr hr]
  have h10 : (10 : ℤ) ^ d ≠ 0 := pow_ne_zero _ (by norm_num)
  simp only [calculateRevoAmount, hfl, ht, PyDecimal.ofInt, PyDecimal.div_finite, calcQ, Bool.false_eq_true,
    if_false]
  refine map_finite_bind (by simpa using Dec.div_val (Dec.ofInt a) (y := Dec.ofInt (10 ^ d)) h10) fun x1 => ?_
  refine map_finite_bind (Dec.mul_val x1 p) fun x2 => ?_
  refine map_finite_bind (Dec.div_val x2 hr.ne') fun x3 => ?_
  refine map_finite_bind (by simpa using Dec.mul_val x3 (Dec.ofInt (10 ^ revoDecimals))) fun x4 => ?_
  simp [Dec.toInt_eq]
  rfl

/-! ## Rounding never costs more than three relative roundings -/

/-- A non-negative value below one truncates to zero. -/
theorem truncQ_eq_zero {y : ℚ} (h0 : 0 ≤ y) (h1 : y < 1) : truncQ y = 0 := by
  rw [truncQ_of_nonneg h0, Int.floor_eq_zero_iff]
  exact ⟨h0, h1⟩

/-- The last multiplication by `10 ^ 18` is exact: the rounded REVO amount has at most `prec` digits. -/
theorem roundQ_mul_revoDecimals (y : ℚ) : roundQ (roundQ y * 10 ^ revoDecimals) = roundQ y * 10 ^ revoDecimals := by
  have h := (representable_roundQ y).mul_zpow (k := (revoDecimals : ℤ)) (by norm_num [revoDecimals])
  rw [zpow_natCast] at h
  exact roundQ_of_representable h

/-- A REVO amount below `10 ^ -18` is no base unit. -/
theorem truncQ_mul_revoDecimals_eq_zero {y : ℚ} (h0 : 0 ≤ y) {k : ℤ} (hk : k ≤ -19) (hy : y ≤ 10 ^ k) :
    truncQ (y * 10 ^ revoDecimals) = 0 := by
  refine truncQ_eq_zero (mul_nonneg h0 (by positivity)) ?_
  calc y * 10 ^ revoDecimals ≤ 10 ^ k * 10 ^ (18 : ℤ) := by
        rw [revoDecimals, ← zpow_natCast]; exact mul_le_mul_of_nonneg_right hy (by positivity)
    _ < 1 := by rw [← zpow_add₀ (by norm_num)]; exact zpow_lt_one_of_neg₀ (by norm_num) (by omega)

/-- **The over-mint bound.** Whatever the amount and the token price, with a REVO price of a float's size the
rounded chain exceeds the exact `a * p / r` by at most three relative roundings. -/
theorem truncQ_chain_le {a : ℕ} {p r : ℚ} (hp : 0 < p) (hr : (10 : ℚ) ^ (-324 : ℤ) ≤ r) :
    (truncQ (roundQ (roundQ (roundQ (roundQ (a / 10 ^ 18) * p) / r) * 10 ^ revoDecimals)) : ℚ) ≤
      a * p / r * (1 + unitRoundoff) ^ 3 := by
  have hr0 : 0 < r := lt_of_lt_of_le (zpow_pos (by norm_num) _) hr
  have hu : 0 ≤ unitRoundoff := by unfold unitRoundoff; positivity
  have hb : 0 ≤ (a : ℚ) * p / r * (1 + unitRoundoff) ^ 3 := by positivity
  rw [roundQ_mul_revoDecimals]
  set x1 : ℚ := a / 10 ^ 18
  set y1 := roundQ x1
  set y2 := roundQ (y1 * p)
  set y3 := roundQ (y2 / r)
  have hx1 : 0 ≤ x1 := by positivity
  have hy1 : 0 ≤ y1 := roundQ_nonneg hx1
  have hy2 : 0 ≤ y2 := roundQ_nonneg (mul_nonneg hy1 hp.le)
  have hy3 : 0 ≤ y3 := roundQ_nonneg (div_nonneg hy2 hr0.le)
  have h18 : (0 : ℚ) < 10 ^ revoDecimals := by positivity
  have hsmall : ∀ k : ℤ, k ≤ -19 → y3 ≤ 10 ^ k →
      (truncQ (y3 * 10 ^ revoDecimals) : ℚ) ≤ a * p / r * (1 + unitRoundoff) ^ 3 := fun k hk hy => by
    rw [truncQ_mul_revoDecimals_eq_zero hy3 hk hy, Int.cast_zero]; exact hb
  have hT : (10 : ℚ) ^ emin ≤ 10 ^ (-18 : ℤ) := zpow_le_zpow_right₀ (by norm_num) (by norm_num [emin])
  rcases Nat.eq_zero_or_pos a with rfl | ha
  · simp [x1, y1, y2, y3, truncQ]
  have hx1T : (10 : ℚ) ^ emin ≤ x1 := by
    refine hT.trans ?_
    rw [show (10 : ℚ) ^ (-18 : ℤ) = 1 / 10 ^ 18 by norm_num]
    exact div_le_div_of_nonneg_right (by exact_mod_cast ha) (by positivity)
  have hy1le := roundQ_le_mul hx1T
  by_cases h2 : (10 : ℚ) ^ emin ≤ y1 * p
  · have hy2le := roundQ_le_mul h2
    by_cases h3 : (10 : ℚ) ^ emin ≤ y2 / r
    · have hy3le := roundQ_le_mul h3
      rw [truncQ_of_nonneg (mul_nonneg hy3 h18.le)]
      refine (Int.floor_le _).trans ?_
      calc y3 * 10 ^ revoDecimals ≤ y2 / r * (1 + unitRoundoff) * 10 ^ revoDecimals :=
            mul_le_mul_of_nonneg_right hy3le h18.le
        _ ≤ y1 * p * (1 + unitRoundoff) / r * (1 + unitRoundoff) * 10 ^ revoDecimals := by
            gcongr
        _ ≤ x1 * (1 + unitRoundoff) * p * (1 + unitRoundoff) / r * (1 + unitRoundoff) * 10 ^ revoDecimals := by
            gcongr
        _ = a * p / r * (1 + unitRoundoff) ^ 3 := by simp only [x1, revoDecimals]; ring
    · exact hsmall emin (by norm_num [emin]) (roundQ_le_of_le_representable (div_nonneg hy2 hr0.le) (not_le.mp h3).le
        (representable_zpow (by norm_num [etiny, emin, prec])))
  · have hy2T : y2 ≤ 10 ^ emin := roundQ_le_of_le_representable (mul_nonneg hy1 hp.le) (not_le.mp h2).le
      (representable_zpow (by norm_num [etiny, emin, prec]))
    refine hsmall (emin + 324) (by norm_num [emin]) (roundQ_le_of_le_representable (div_nonneg hy2 hr0.le) ?_
      (representable_zpow (by norm_num [etiny, emin, prec])))
    calc y2 / r ≤ 10 ^ emin / 10 ^ (-324 : ℤ) :=
          div_le_div₀ (zpow_pos (by norm_num) _).le hy2T (zpow_pos (by norm_num) _) hr
      _ = 10 ^ (emin + 324) := by rw [← zpow_sub₀ (by norm_num)]; norm_num

theorem calcQ_overflow_or_le {a : ℕ} {p r : ℚ} (hp : 0 < p) (hr : (10 : ℚ) ^ (-324 : ℤ) ≤ r) :
    calcQ 18 a p r = .error .overflow ∨
      ∃ R, calcQ 18 a p r = .ok R ∧ (R : ℚ) ≤ a * p / r * (1 + unitRoundoff) ^ 3 := by
  simp only [calcQ]
  rcases fixQ_cases ((a : ℚ) / 10 ^ 18) with h1 | h1 <;> simp only [h1, error_bind, ok_bind, true_or]
  rcases fixQ_cases (roundQ ((a : ℚ) / 10 ^ 18) * p) with h2 | h2 <;>
    simp only [h2, error_bind, ok_bind, true_or]
  rcases fixQ_cases (roundQ (roundQ ((a : ℚ) / 10 ^ 18) * p) / r) with h3 | h3 <;>
    simp only [h3, error_bind, ok_bind, true_or]
  rcases fixQ_cases (roundQ (roundQ (roundQ ((a : ℚ) / 10 ^ 18) * p) / r) * 10 ^ revoDecimals) with h4 | h4 <;>
    simp only [h4, error_bind, ok_bind, true_or]
  exact Or.inr ⟨_, rfl, truncQ_chain_le hp hr⟩

/-- With the amount a `uint256` and both prices of a float's size, no step overflows: the exact intermediate
values stay below `10 ^ 60`, `10 ^ 369`, `10 ^ 693` and `10 ^ 711`. -/
theorem calcQ_ok_of_float {a : ℕ} {p r : ℚ} (ha : a < 2 ^ 256) (hp : 0 ≤ p) (hp' : p ≤ 2 * 10 ^ (308 : ℤ))
    (hr : (10 : ℚ) ^ (-324 : ℤ) ≤ r) : ∃ R, calcQ 18 a p r = .ok R := by
  have hk : ∀ k : ℤ, 0 ≤ k → k ≤ 711 → etiny ≤ k ∧ k ≤ emax := fun k h0 h1 =>
    ⟨by unfold etiny emin prec; omega, by unfold emax; omega⟩
  have hr0 : 0 < r := lt_of_lt_of_le (zpow_pos (by norm_num) _) hr
  have h10 : (10 : ℚ) ≠ 0 := by norm_num
  have hx1 : (a : ℚ) / 10 ^ 18 ≤ 10 ^ (60 : ℤ) := by
    have : (a : ℚ) < 2 ^ 256 := by exact_mod_cast ha
    rw [div_le_iff₀ (by positivity)]
    norm_num
    linarith
  obtain ⟨e1, b1⟩ := fixQ_of_le_zpow (by positivity) hx1 (hk 60 (by norm_num) (by norm_num)).1
    (hk 60 (by norm_num) (by norm_num)).2
  have hy1 : 0 ≤ roundQ ((a : ℚ) / 10 ^ 18) := roundQ_nonneg (by positivity)
  have hx2 : roundQ ((a : ℚ) / 10 ^ 18) * p ≤ 10 ^ (369 : ℤ) :=
    calc _ ≤ (10 : ℚ) ^ (60 : ℤ) * (2 * 10 ^ (308 : ℤ)) := mul_le_mul b1 hp' hp (by positivity)
      _ ≤ 10 ^ (369 : ℤ) := by norm_num
  obtain ⟨e2, b2⟩ := fixQ_of_le_zpow (mul_nonneg hy1 hp) hx2 (hk 369 (by norm_num) (by norm_num)).1
    (hk 369 (by norm_num) (by norm_num)).2
  have hy2 : 0 ≤ roundQ (roundQ ((a : ℚ) / 10 ^ 18) * p) := roundQ_nonneg (mul_nonneg hy1 hp)
  have hx3 : roundQ (roundQ ((a : ℚ) / 10 ^ 18) * p) / r ≤ 10 ^ (693 : ℤ) :=
    calc _ ≤ (10 : ℚ) ^ (369 : ℤ) / 10 ^ (-324 : ℤ) :=
          div_le_div₀ (by positivity) b2 (zpow_pos (by norm_num) _) hr
      _ = 10 ^ (693 : ℤ) := by rw [← zpow_sub₀ h10]; norm_num
  obtain ⟨e3, b3⟩ := fixQ_of_le_zpow (div_nonneg hy2 hr0.le) hx3 (hk 693 (by norm_num) (by norm_num)).1
    (hk 693 (by norm_num) (by norm_num)).2
  have hx4 : roundQ (roundQ (roundQ ((a : ℚ) / 10 ^ 18) * p) / r) * 10 ^ revoDecimals ≤ 10 ^ (711 : ℤ) :=
    calc _ ≤ (10 : ℚ) ^ (693 : ℤ) * 10 ^ revoDecimals := mul_le_mul_of_nonneg_right b3 (by positivity)
      _ = 10 ^ (711 : ℤ) := by rw [revoDecimals, ← zpow_natCast, ← zpow_add₀ h10]; norm_num
  obtain ⟨e4, -⟩ := fixQ_of_le_zpow (mul_nonneg (roundQ_nonneg (div_nonneg hy2 hr0.le)) (by positivity)) hx4
    (hk 711 (by norm_num) (by norm_num)).1 (hk 711 (by norm_num) (by norm_num)).2
  exact ⟨_, by simp only [calcQ, e1, e2, e3, e4, ok_bind]; rfl⟩

/-- Every value `Decimal(str(f))` of a positive finite double `f` lies in this range (from `5E-324` to
`1.7976931348623157E+308`). -/
def FloatRange (x : ℚ) : Prop := (10 : ℚ) ^ (-324 : ℤ) ≤ x ∧ x ≤ 2 * 10 ^ (308 : ℤ)

/-- With a `uint256` amount and finite prices of a float's size, `calculate_revo_amount` returns. -/
theorem calculateRevoAmount_returns (tokenAddress : String) {a : ℕ} (ha : a < 2 ^ 256) {p q r : Dec}
    (hp : FloatRange p.val) (hq : FloatRange q.val) (hr : FloatRange r.val) :
    ∃ R, calculateRevoAmount tokenAddress a (.finite p) (.finite q) (.finite r) = .ok R := by
  have hpos : ∀ x : Dec, FloatRange x.val → 0 < x.val := fun x hx =>
    lt_of_lt_of_le (zpow_pos (by norm_num) _) hx.1
  have hr0 : 0 < r.coeff := Dec.val_pos_iff.mp (hpos r hr)
  by_cases h1 : lower tokenAddress = lower cxsTokenAddress
  · rw [calculateRevoAmount_eq_calcQ (by rw [tokenPriceOf, if_pos h1]) hr0]
    exact calcQ_ok_of_float ha (hpos p hp).le hp.2 hr.1
  by_cases h2 : lower tokenAddress = lower nextepTokenAddress
  · rw [calculateRevoAmount_eq_calcQ (by rw [tokenPriceOf, if_neg h1, if_pos h2]) hr0]
    exact calcQ_ok_of_float ha (hpos q hq).le hq.2 hr.1
  · refine ⟨0, ?_⟩
    simp only [calculateRevoAmount, PyDecimal.floatLeZero, decide_eq_true_eq, not_le.mpr hr0, if_false,
      tokenPriceOf, if_neg h1, if_neg h2]

/-- **Valuation within rounding.** For a supported token with a positive price and a REVO price of a float's
size, `calculate_revo_amount` either raises `Overflow` or mints at most the exact `a * p / r` base units enlarged
by three relative roundings; for a `uint256` amount and a token price at most `2E+308` it always returns. -/
theorem calculateRevoAmount_le_rounded {tokenAddress : String} {cxsPrice nextepPrice : PyDecimal} {p r : Dec}
    (ht : tokenPriceOf (lower tokenAddress) cxsPrice nextepPrice = some (18, .finite p)) (hp : 0 < p.val)
    (hr : FloatRange r.val) (a : ℕ) :
    (calculateRevoAmount tokenAddress a cxsPrice nextepPrice (.finite r) = .error .overflow ∨
      ∃ R, calculateRevoAmount tokenAddress a cxsPrice nextepPrice (.finite r) = .ok R ∧
        (R : ℚ) ≤ a * p.val / r.val * (1 + unitRoundoff) ^ 3) ∧
    (a < 2 ^ 256 → p.val ≤ 2 * 10 ^ (308 : ℤ) →
      ∃ R, calculateRevoAmount tokenAddress a cxsPrice nextepPrice (.finite r) = .ok R) := by
  have hr0 : 0 < r.coeff := Dec.val_pos_iff.mp (lt_of_lt_of_le (zpow_pos (by norm_num) _) hr.1)
  rw [calculateRevoAmount_eq_calcQ ht hr0]
  exact ⟨calcQ_overflow_or_le hp hr.1, fun ha hpf => calcQ_ok_of_float ha hp.le hpf hr.1⟩

theorem calculateRevoAmount_le_rounded_at_one :
    tokenPriceOf (lower cxsTokenAddress) (.finite ⟨10, -1⟩) .nan = some (18, .finite ⟨10, -1⟩) ∧
    0 < (⟨10, -1⟩ : Dec).val ∧ FloatRange (⟨10, -1⟩ : Dec).val ∧
    ((calculateRevoAmount cxsTokenAddress (10 ^ 18) (.finite ⟨10, -1⟩) .nan (.finite ⟨10, -1⟩) = .error .overflow ∨
      ∃ R, calculateRevoAmount cxsTokenAddress (10 ^ 18) (.finite ⟨10, -1⟩) .nan (.finite ⟨10, -1⟩) = .ok R ∧
        (R : ℚ) ≤ ((10 ^ 18 : ℕ) : ℚ) * (⟨10, -1⟩ : Dec).val / (⟨10, -1⟩ : Dec).val * (1 + unitRoundoff) ^ 3) ∧
    ((10 ^ 18 : ℕ) < 2 ^ 256 → (⟨10, -1⟩ : Dec).val ≤ 2 * 10 ^ (308 : ℤ) →
      ∃ R, calculateRevoAmount cxsTokenAddress (10 ^ 18) (.finite ⟨10, -1⟩) .nan (.finite ⟨10, -1⟩) = .ok R)) := by
  have ht : tokenPriceOf (lower cxsTokenAddress) (.finite ⟨10, -1⟩) .nan = some (18, .finite ⟨10, -1⟩) := by decide
  have hp : 0 < (⟨10, -1⟩ : Dec).val := by norm_num [Dec.val]
  have hr : FloatRange (⟨10, -1⟩ : Dec).val := by norm_num [FloatRange, Dec.val]
  exact ⟨ht, hp, hr, calculateRevoAmount_le_rounded ht hp hr (10 ^ 18)⟩

/-- The spec's scenario A: one CXS at `$0.05` is half a REVO at `$0.10`. -/
example : calculateRevoAmount cxsTokenAddress (10 ^ 18) (.finite ⟨5, -2⟩) .nan (.finite ⟨1, -1⟩) =
    .ok (5 * 10 ^ 17) := by decide

/-- `10 ^ 29 - 1` base units at a price of `1.0` against a REVO price of `1.0`: the 29-digit token amount rounds up
to `10 ^ 11` tokens, and one base unit more than the exact value is minted. -/
theorem calculateRevoAmount_exceeds_floor :
    calculateRevoAmount cxsTokenAddress (10 ^ 29 - 1) (.finite ⟨10, -1⟩) (.finite ⟨10, -1⟩) (.finite ⟨10, -1⟩) =
      .ok (10 ^ 29) ∧
    ⌊((10 ^ 29 - 1 : ℕ) : ℚ) * (⟨10, -1⟩ : Dec).val / (⟨10, -1⟩ : Dec).val⌋ < 10 ^ 29 := by
  refine ⟨by decide, ?_⟩
  norm_num [Dec.val]

/-- Each step is a monotone rounding, so a smaller amount or token price, or a larger REVO price, never gives a
larger result, as long as the larger computation returns. -/
theorem calcQ_mono {a a' : ℕ} {p p' r r' : ℚ} (ha : a ≤ a') (hp : 0 ≤ p) (hpp : p ≤ p') (hr' : 0 < r')
    (hrr : r' ≤ r) {R' : ℤ} (h' : calcQ 18 a' p' r' = .ok R') : ∃ R, calcQ 18 a p r = .ok R ∧ R ≤ R' := by
  unfold calcQ at h'
  obtain ⟨y1', e1', h'⟩ := bind_eq_ok h'
  obtain ⟨y2', e2', h'⟩ := bind_eq_ok h'
  obtain ⟨y3', e3', h'⟩ := bind_eq_ok h'
  obtain ⟨y4', e4', h'⟩ := bind_eq_ok h'
  obtain rfl : truncQ y4' = R' := Except.ok.inj h'
  have hx1 : (0 : ℚ) ≤ a / 10 ^ 18 := by positivity
  obtain ⟨e1, b1⟩ := fixQ_of_le hx1 (div_le_div_of_nonneg_right (by exact_mod_cast ha) (by positivity)) e1'
  have hy1 := roundQ_nonneg hx1
  obtain ⟨e2, b2⟩ := fixQ_of_le (mul_nonneg hy1 hp) (mul_le_mul b1 hpp hp (hy1.trans b1)) e2'
  have hy2 := roundQ_nonneg (mul_nonneg hy1 hp)
  have hr : 0 < r := hr'.trans_le hrr
  obtain ⟨e3, b3⟩ := fixQ_of_le (div_nonneg hy2 hr.le) (div_le_div₀ (hy2.trans b2) b2 hr' hrr) e3'
  have hx4 : 0 ≤ roundQ (roundQ (roundQ ((a : ℚ) / 10 ^ 18) * p) / r) * 10 ^ revoDecimals :=
    mul_nonneg (roundQ_nonneg (div_nonneg hy2 hr.le)) (by positivity)
  obtain ⟨e4, b4⟩ := fixQ_of_le hx4 (mul_le_mul_of_nonneg_right b3 (by positivity)) e4'
  exact ⟨_, by simp only [calcQ, e1, e2, e3, e4, ok_bind]; rfl, truncQ_mono (roundQ_nonneg hx4) b4⟩

/-- **Monotone valuation.** For a supported token, whenever the valuation of the larger amount and token price
at the smaller REVO price returns, the valuation of the smaller inputs returns too, and no more. -/
theorem calculateRevoAmount_mono {tokenAddress : String} {cxsPrice nextepPrice cxsPrice' nextepPrice' : PyDecimal}
    {p p' r r' : Dec} {a a' : ℕ} {R' : ℤ}
    (ht : tokenPriceOf (lower tokenAddress) cxsPrice nextepPrice = some (18, .finite p))
    (ht' : tokenPriceOf (lower tokenAddress) cxsPrice' nextepPrice' = some (18, .finite p'))
    (ha : a ≤ a') (hp : 0 < p.val) (hpp : p.val ≤ p'.val) (hr' : 0 < r'.val) (hrr : r'.val ≤ r.val)
    (h' : calculateRevoAmount tokenAddress a' cxsPrice' nextepPrice' (.finite r') = .ok R') :
    ∃ R, calculateRevoAmount tokenAddress a cxsPrice nextepPrice (.finite r) = .ok R ∧ R ≤ R' := by
  rw [calculateRevoAmount_eq_calcQ ht' (Dec.val_pos_iff.mp hr')] at h'
  rw [calculateRevoAmount_eq_calcQ ht (Dec.val_pos_iff.mp (hr'.trans_le hrr))]
  exact calcQ_mono ha hp.le hpp hr' hrr h'

theorem calculateRevoAmount_mono_at_half :
    tokenPriceOf (lower cxsTokenAddress) (.finite ⟨5, -1⟩) .nan = some (18, .finite ⟨5, -1⟩) ∧
    tokenPriceOf (lower cxsTokenAddress) (.finite ⟨10, -1⟩) .nan = some (18, .finite ⟨10, -1⟩) ∧
    (10 ^ 17 ≤ 10 ^ 18) ∧ 0 < (⟨5, -1⟩ : Dec).val ∧ (⟨5, -1⟩ : Dec).val ≤ (⟨10, -1⟩ : Dec).val ∧
    0 < (⟨10, -1⟩ : Dec).val ∧ (⟨10, -1⟩ : Dec).val ≤ (⟨20, -1⟩ : Dec).val ∧
    calculateRevoAmount cxsTokenAddress (10 ^ 18) (.finite ⟨10, -1⟩) .nan (.finite ⟨10, -1⟩) = .ok (10 ^ 18) ∧
    ∃ R, calculateRevoAmount cxsTokenAddress (10 ^ 17) (.finite ⟨5, -1⟩) .nan (.finite ⟨20, -1⟩) = .ok R ∧
      R ≤ 10 ^ 18 := by
  have ht : tokenPriceOf (lower cxsTokenAddress) (.finite ⟨5, -1⟩) .nan = some (18, .finite ⟨5, -1⟩) := by decide
  have ht' : tokenPriceOf (lower cxsTokenAddress) (.finite ⟨10, -1⟩) .nan = some (18, .finite ⟨10, -1⟩) := by
    decide
  have h' : calculateRevoAmount cxsTokenAddress (10 ^ 18) (.finite ⟨10, -1⟩) .nan (.finite ⟨10, -1⟩) =
      .ok (10 ^ 18) := by decide
  have ha : 10 ^ 17 ≤ 10 ^ 18 := by norm_num
  have hp : 0 < (⟨5, -1⟩ : Dec).val := by norm_num [Dec.val]
  have hpp : (⟨5, -1⟩ : Dec).val ≤ (⟨10, -1⟩ : Dec).val := by norm_num [Dec.val]
  have hr' : 0 < (⟨10, -1⟩ : Dec).val := by norm_num [Dec.val]
  have hrr : (⟨10, -1⟩ : Dec).val ≤ (⟨20, -1⟩ : Dec).val := by norm_num [Dec.val]
  exact ⟨ht, ht', ha, hp, hpp, hr', hrr, h', calculateRevoAmount_mono ht ht' ha hp hpp hr' hrr h'⟩

/-- One CXS at a price of `1.0` is valued at one REVO, but at a price of `1E+999999` the product overflows the
context and the call raises instead of returning a larger amount. -/
theorem calculateRevoAmount_overflows_at_larger_price :
    calculateRevoAmount cxsTokenAddress (10 ^ 18) (.finite ⟨10, -1⟩) .nan (.finite ⟨10, -1⟩) = .ok (10 ^ 18) ∧
    calculateRevoAmount cxsTokenAddress (10 ^ 18) (.finite ⟨1, 999999⟩) .nan (.finite ⟨10, -1⟩) =
      .error .overflow := by
  decide

end RevoMigration.Bridge
