import RevoMigration.Decimal.Value

/-!
# The balances of the genesis file

`generate_genesis_config` lists every wallet whose `revo_tokens > 0` as an account and as a balance of
`convert_to_base_units(revo_tokens, decimals)` base units, adds up the `revo_tokens` of those wallets in the 28-digit
context, and declares the base units of that sum as the supply. `generateGenesisConfig_spec` says what every genesis
it returns holds: the accounts and the balances are the funded wallets in order, each balance the non-negative base
units of its own wallet, and the supply the base units of the rounded running sum (`addWallets_ok` for the loop).

The base units are truncated wallet by wallet but the supply only once, so a funded wallet worth less than one base
unit gets a balance of zero, and the balances need not add up to the supply (`generateGenesisConfig_unbalanced`).
-/

namespace RevoMigration.Genesis

open RevoMigration.Decimal

/-! ## The code -/

/-- `convert_to_base_units(amount, decimals)`: `int(Decimal(amount) * Decimal(10) ** Decimal(decimals))`, which the
code writes out as a string of digits. The power of ten is exact within the context's exponent limits. -/
def convertToBaseUnits (amount : PyDecimal) (decimals : ℤ) : Except PyError ℤ := do
  let multiplier ← PyDecimal.finite <$> fixFrac 1 1 decimals
  let baseUnits ← amount.mul multiplier
  baseUnits.toInt

/-- `revo_tokens > 0`; a NaN raises `InvalidOperation`. -/
def funded (revoTokens : PyDecimal) : Except PyError Bool := do
  let o ← revoTokens.compareZero
  pure (decide (o = .gt))

/-- What `generate_genesis_config` computes: the addresses of `auth.accounts`, the address and `arevo` amount of each
entry of `bank.balances`, the `arevo` amount of `bank.supply`, and that of the governance `min_deposit`. -/
structure GenesisConfig where
  accounts : List String
  balances : List (String × ℤ)
  supply : ℤ
  minDeposit : ℤ
deriving DecidableEq, Repr

/-- The loop of `generate_genesis_config` over the wallets, threading `total_supply`, `accounts` and `balances`. -/
def addWallets (decimals : ℤ) :
    PyDecimal → List String → List (String × ℤ) → List (String × PyDecimal) →
      Except PyError (PyDecimal × List String × List (String × ℤ))
  | totalSupply, accounts, balances, [] => .ok (totalSupply, accounts, balances)
  | totalSupply, accounts, balances, (address, revoTokens) :: wallets => do
    if ← funded revoTokens then
      let baseUnits ← convertToBaseUnits revoTokens decimals
      let totalSupply ← totalSupply.add revoTokens
      addWallets decimals totalSupply (accounts ++ [address]) (balances ++ [(address, baseUnits)]) wallets
    else addWallets decimals totalSupply accounts balances wallets

/-- `generate_genesis_config(revo_data, chain_id, chain_name, consensus_params, decimals)` on the items of
`revo_data["wallets"]`, each with its `Decimal(revo_tokens)`. -/
def generateGenesisConfig (wallets : List (String × PyDecimal)) (decimals : ℤ) : Except PyError GenesisConfig := do
  let minDeposit ← convertToBaseUnits (.ofInt 10) decimals
  let (totalSupply, accounts, balances) ← addWallets decimals (.ofInt 0) [] [] wallets
  let supply ← convertToBaseUnits totalSupply decimals
  pure ⟨accounts, balances, supply, minDeposit⟩

/-! ## Base units -/

/-- The wallets the loop lists. -/
def fundedWallets (wallets : List (String × PyDecimal)) : List (String × PyDecimal) :=
  wallets.filter fun w => decide (funded w.2 = .ok true)

/-- A rounded result of a non-negative exact value is non-negative. -/
theorem val_nonneg_of_fixQ {e : Except PyError Dec} {q : ℚ} (he : Dec.val <$> e = fixQ q) (hq : 0 ≤ q) {z : Dec}
    (h : e = .ok z) : 0 ≤ z.val := by
  rw [h] at he
  rw [fixQ_eq_ok he.symm]
  exact roundQ_nonneg hq

/-- A funded wallet never gets a negative balance; a positive infinity raises in `int()`. -/
theorem convertToBaseUnits_nonneg {x : PyDecimal} (hx : funded x = .ok true) {decimals n : ℤ}
    (h : convertToBaseUnits x decimals = .ok n) : 0 ≤ n := by
  cases hy : fixFrac 1 1 decimals with
  | error e => rw [convertToBaseUnits, hy] at h; cases h
  | ok y =>
    have hy0 : 0 ≤ y.val := val_nonneg_of_fixQ (fixFrac_val 1 one_pos decimals)
      (by norm_num; exact zpow_nonneg (by norm_num) _) hy
    have hm : (PyDecimal.finite <$> (Except.ok y : Except PyError Dec)) = .ok (.finite y) := rfl
    rw [convertToBaseUnits, hy, hm, ok_bind] at h
    obtain ⟨z, hz, h⟩ := bind_eq_ok h
    cases x with
    | nan => cases hx
    | infinity neg =>
      cases neg
      · simp only [PyDecimal.mul] at hz
        split_ifs at hz
        cases hz
        cases h
      · cases hx
    | finite x =>
      have hx0 : 0 < x.coeff := by
        simpa [funded, PyDecimal.compareZero, compare_gt_iff_gt] using hx
      have hxv : 0 ≤ x.val := (Dec.val_pos_iff.mpr hx0).le
      rw [PyDecimal.mul_finite] at hz
      obtain ⟨z', hz', rfl⟩ : ∃ z', x.mul y = .ok z' ∧ PyDecimal.finite z' = z := by
        cases hm : x.mul y <;> rw [hm] at hz <;> cases hz
        exact ⟨_, rfl, rfl⟩
      have hz0 := val_nonneg_of_fixQ (Dec.mul_val x y) (mul_nonneg hxv hy0) hz'
      rw [PyDecimal.toInt_finite, Except.ok.injEq] at h
      rw [← h, Dec.toInt_eq, truncQ_of_nonneg hz0]
      exact Int.floor_nonneg.mpr hz0

/-- **The loop lists the funded wallets.** A run of the loop that returns appends the funded wallets' addresses to
`accounts`, and to `balances` each one's address with its base units, and adds their `revo_tokens` to
`total_supply` one after the other in the context. -/
theorem addWallets_ok {decimals : ℤ} : ∀ {wallets : List (String × PyDecimal)} {t t' : PyDecimal}
    {acc acc' : List String} {bal bal' : List (String × ℤ)},
    addWallets decimals t acc bal wallets = .ok (t', acc', bal') →
      acc' = acc ++ (fundedWallets wallets).map Prod.fst ∧
      (∃ nb, bal' = bal ++ nb ∧
        List.Forall₂ (fun w b => b.1 = w.1 ∧ convertToBaseUnits w.2 decimals = .ok b.2 ∧ 0 ≤ b.2)
          (fundedWallets wallets) nb) ∧
      (fundedWallets wallets).foldlM (fun (s : PyDecimal) w => s.add w.2) t = .ok t'
  | [], _, _, _, _, _, _, h => by
    cases h
    exact ⟨by simp [fundedWallets], ⟨[], by simp, .nil⟩, rfl⟩
  | (a, x) :: ws, _, _, _, _, _, _, h => by
    obtain ⟨f, hf, h⟩ := bind_eq_ok h
    cases f
    · simp only [Bool.false_eq_true, ↓reduceIte] at h
      have hfil : fundedWallets ((a, x) :: ws) = fundedWallets ws :=
        List.filter_cons_of_neg (by simp [hf])
      rw [hfil]
      exact addWallets_ok h
    · simp only [↓reduceIte] at h
      obtain ⟨n, hn, h⟩ := bind_eq_ok h
      obtain ⟨t'', ht, h⟩ := bind_eq_ok h
      obtain ⟨h1, ⟨nb, h2, h3⟩, h4⟩ := addWallets_ok h
      have hfil : fundedWallets ((a, x) :: ws) = (a, x) :: fundedWallets ws :=
        List.filter_cons_of_pos (by simp [hf])
      rw [hfil]
      refine ⟨by simp [h1],
        ⟨(a, n) :: nb, by simp [h2], .cons ⟨rfl, hn, convertToBaseUnits_nonneg hf hn⟩ h3⟩, ?_⟩
      rw [List.foldlM_cons, ht]
      exact h4

/-- **What a genesis holds.** Every genesis `generate_genesis_config` returns lists the funded wallets, in order, as
its accounts and as its balances, each balance the non-negative base units of its own wallet; its supply is the
base units of the funded `revo_tokens` added up one after the other in the 28-digit context. -/
theorem generateGenesisConfig_spec {wallets : List (String × PyDecimal)} {decimals : ℤ} {g : GenesisConfig}
    (h : generateGenesisConfig wallets decimals = .ok g) :
    g.accounts = (fundedWallets wallets).map Prod.fst ∧
    List.Forall₂ (fun w b => b.1 = w.1 ∧ convertToBaseUnits w.2 decimals = .ok b.2 ∧ 0 ≤ b.2)
      (fundedWallets wallets) g.balances ∧
    ∃ total, (fundedWallets wallets).foldlM (fun (s : PyDecimal) w => s.add w.2) (PyDecimal.ofInt 0) = .ok total ∧
      convertToBaseUnits total decimals = .ok g.supply := by
  obtain ⟨minDeposit, -, h⟩ := bind_eq_ok h
  obtain ⟨⟨total, accounts, balances⟩, hw, h⟩ := bind_eq_ok h
  obtain ⟨supply, hs, h⟩ := bind_eq_ok h
  cases h
  obtain ⟨h1, ⟨nb, h2, h3⟩, h4⟩ := addWallets_ok hw
  refine ⟨by simpa using h1, by simpa [h2] using h3, total, h4, hs⟩

/-- Two wallets of `6E-19` REVO each at 18 decimals: each balance truncates `0.6` base units to `0`, while the supply
truncates the `1.2` base units of the sum to `1`. -/
theorem generateGenesisConfig_unbalanced :
    generateGenesisConfig [("0xa", .finite ⟨6, -19⟩), ("0xb", .finite ⟨6, -19⟩)] 18 =
      .ok ⟨["0xa", "0xb"], [("0xa", 0), ("0xb", 0)], 1, 10 ^ 19⟩ := by
  decide

end RevoMigration.Genesis
