import RevoMigration.Distribution

/-!
# From the holder files to the genesis

The migration's three scripts run one after the other, each on the file the one before wrote (`migrate`):
`combine_wallet_values.py` on the CXS and NEXTEP holder files, `calculate_revo_distribution.py` on the combined file,
and `generate_genesis_config.py` on the distribution. Over every run that ends with a genesis:

* every balance of the genesis is that of an address of either holder file: the base units of the address's USD
  value over the REVO price, the value at or above `--min-usd`, the tokens positive and at or above `--min-revo`
  (`mem_balances_of_migrate`, from one stage lemma per script);
* the accounts are exactly the addresses of either file that pass these tests, each once, in the files' order
  (`migrate_accounts`);
* with finite non-negative balances and prices and a positive REVO price, an address that holds at least as much
  CXS and at least as much NEXTEP as another gets at least as many base units (`migrate_balance_mono`): each
  rounding on the way (the two products, their sum, the quotient, the base units) keeps the order of non-negative
  values.
-/

namespace RevoMigration.Genesis

open RevoMigration.Decimal

/-- `main()` of `generate_genesis_config.py` from the loaded distribution on: the `--min-revo` filter, then
`generate_genesis_config` with `--decimals`. -/
def main (minRevo : PyDecimal) (decimals : ℤ) (wallets : List (String × PyDecimal)) : Except PyError GenesisConfig := do
  let wallets ← Distribution.filterWallets minRevo wallets
  generateGenesisConfig wallets decimals

theorem exists_of_forall₂ {α β : Type} {R : α → β → Prop} :
    ∀ {l₁ : List α} {l₂ : List β}, List.Forall₂ R l₁ l₂ → ∀ {b : β}, b ∈ l₂ → ∃ a ∈ l₁, R a b
  | _, _, .nil, _, hb => by cases hb
  | _, _, .cons hab h, _, hb => by
    rcases List.mem_cons.mp hb with rfl | hb
    · exact ⟨_, List.mem_cons_self _ _, hab⟩
    · obtain ⟨a, ha, hr⟩ := exists_of_forall₂ h hb
      exact ⟨a, List.mem_cons_of_mem _ ha, hr⟩

/-- `main` hands `generate_genesis_config` wallets of the distribution at or above `--min-revo`. -/
theorem mem_main {minRevo : PyDecimal} {decimals : ℤ} {wallets : List (String × PyDecimal)} {g : GenesisConfig}
    (h : main minRevo decimals wallets = .ok g) :
    ∃ kept, generateGenesisConfig kept decimals = .ok g ∧
      ∀ w ∈ kept, w ∈ wallets ∧ (minRevo.floatGtZero = true → w.2.ge minRevo = .ok true) := by
  obtain ⟨kept, hk, h⟩ := bind_eq_ok h
  exact ⟨kept, h, fun w hw => Distribution.mem_of_filterWallets hk hw⟩

/-- The accounts of the genesis are, in order, the wallets of the distribution that are funded and pass
`--min-revo`, over distinct addresses. -/
theorem accounts_main {minRevo : PyDecimal} {decimals : ℤ} {wallets : List (String × PyDecimal)} {g : GenesisConfig}
    (hn : (wallets.map Prod.fst).Nodup) (h : main minRevo decimals wallets = .ok g) :
    g.accounts = (wallets.filter fun w => decide (funded w.2 = .ok true) && Distribution.passes minRevo w.2).map
      Prod.fst := by
  obtain ⟨kept, hk, h⟩ := bind_eq_ok h
  rw [(generateGenesisConfig_spec h).1, fundedWallets, Distribution.filterWallets_eq hn hk, List.filter_filter]

end RevoMigration.Genesis

namespace RevoMigration.Pipeline

open RevoMigration.Decimal RevoMigration.Combine RevoMigration.Distribution RevoMigration.Genesis

/-! ## The three scripts -/

/-- `combine_wallet_values.py`, `calculate_revo_distribution.py` and `generate_genesis_config.py` run one after the
other, each on the `"wallets"` of the file the one before wrote; `none` where the second returns 1. -/
def migrate (cxs nextep : List (String × Option PyDecimal)) (cxsPrice nextepPrice revoPrice minUsd minRevo : PyDecimal)
    (decimals : ℤ) : Except PyError (Option GenesisConfig) := do
  let wallets ← Combine.main cxs nextep cxsPrice nextepPrice
  match ← Distribution.main revoPrice minUsd wallets with
  | none => pure none
  | some revoData => some <$> Genesis.main minRevo decimals (revoData.wallets.map fun w => (w.1, w.2.revoTokens))

/-! ## Values -/

/-- The value of a decimal: a finite one's, zero for the special values (which the statements below exclude). -/
def valueOf : PyDecimal → ℚ
  | .finite x => x.val
  | _ => 0

/-- The value of an address's balance in a holder file, from the file's `lookup`: zero if the file lacks the
address. -/
def holdingOf (balance : Option (Option PyDecimal)) : ℚ := (balance.map fun b => valueOf (balanceOf b)).getD 0

/-- The value of an address's balance in a holder file. -/
def holding (file : List (String × Option PyDecimal)) (a : String) : ℚ := holdingOf (file.lookup a)

theorem roundQ_roundQ (x : ℚ) : roundQ (roundQ x) = roundQ x := roundQ_of_representable (representable_roundQ x)

/-- A finite result of an operation on finite decimals is the rounded exact value. -/
theorem finite_of_map_eq_ok {e : Except PyError Dec} {q : ℚ} (he : Dec.val <$> e = fixQ q) {z : PyDecimal}
    (h : PyDecimal.finite <$> e = .ok z) : ∃ d, z = .finite d ∧ d.val = roundQ q := by
  cases e with
  | error _ => cases h
  | ok d =>
    cases h
    exact ⟨d, rfl, fixQ_eq_ok he.symm⟩

theorem holdingOf_nonneg {balance : Option (Option PyDecimal)} (h : ∀ b ∈ balance, PyDecimal.NonnegFinite (balanceOf b)) :
    0 ≤ holdingOf balance := by
  cases balance with
  | none => exact le_refl 0
  | some b =>
    obtain ⟨x, hx, hx0⟩ := h b rfl
    simpa [holdingOf, hx, valueOf, Dec.val] using mul_nonneg (Int.cast_nonneg.mpr hx0) (zpow_nonneg (by norm_num) _)

/-- **The total of an entry** is the rounded sum of the rounded values of its two balances, an absent balance
counting as zero. -/
theorem total_of_walletEntry {p q : Dec} {cb nb : Option (Option PyDecimal)}
    (hcb : ∀ b ∈ cb, PyDecimal.NonnegFinite (balanceOf b)) (hnb : ∀ b ∈ nb, PyDecimal.NonnegFinite (balanceOf b)) {c : Combined}
    (h : walletEntry (.finite p) (.finite q) cb nb = .ok c) :
    ∃ t, c.totalUsdValue = .finite t ∧
      t.val = roundQ (roundQ (holdingOf cb * p.val) + roundQ (holdingOf nb * q.val)) := by
  rcases walletEntry_total _ _ h with ⟨rfl, rfl, ht⟩ | ⟨b, rfl, rfl, hu⟩ | ⟨b', rfl, rfl, hu'⟩ |
    ⟨b, b', u, u', rfl, rfl, hu, hu', ht⟩
  · exact ⟨⟨0, 0⟩, ht, by simp [holdingOf, Dec.val]⟩
  · obtain ⟨x, hx, -⟩ := hcb b rfl
    rw [hx] at hu
    obtain ⟨d, hd', hd⟩ := finite_of_map_eq_ok (Dec.mul_val x p) hu
    exact ⟨d, hd', by simp [holdingOf, hx, valueOf, hd, roundQ_roundQ]⟩
  · obtain ⟨y, hy, -⟩ := hnb b' rfl
    rw [hy] at hu'
    obtain ⟨d, hd', hd⟩ := finite_of_map_eq_ok (Dec.mul_val y q) hu'
    exact ⟨d, hd', by simp [holdingOf, hy, valueOf, hd, roundQ_roundQ]⟩
  · obtain ⟨x, hx, -⟩ := hcb b rfl
    obtain ⟨y, hy, -⟩ := hnb b' rfl
    rw [hx] at hu
    rw [hy] at hu'
    obtain ⟨d, rfl, hd⟩ := finite_of_map_eq_ok (Dec.mul_val x p) hu
    obtain ⟨d', rfl, hd'⟩ := finite_of_map_eq_ok (Dec.mul_val y q) hu'
    obtain ⟨s, hs', hs⟩ := finite_of_map_eq_ok (Dec.add_val d d') ht
    exact ⟨s, hs', by simp [holdingOf, hx, hy, valueOf, hs, hd, hd']⟩

theorem total_mono {p q x x' y y' : ℚ} (hp : 0 ≤ p) (hq : 0 ≤ q) (hx : 0 ≤ x) (hxx : x ≤ x') (hy : 0 ≤ y)
    (hyy : y ≤ y') : roundQ (roundQ (x * p) + roundQ (y * q)) ≤ roundQ (roundQ (x' * p) + roundQ (y' * q)) :=
  roundQ_mono (add_nonneg (roundQ_nonneg (mul_nonneg hx hp)) (roundQ_nonneg (mul_nonneg hy hq)))
    (add_le_add (roundQ_mono (mul_nonneg hx hp) (mul_le_mul_of_nonneg_right hxx hp))
      (roundQ_mono (mul_nonneg hy hq) (mul_le_mul_of_nonneg_right hyy hq)))

/-- The base units of a larger non-negative amount are at least as many. -/
theorem convertToBaseUnits_mono {x y : Dec} (hx : 0 ≤ x.val) (hxy : x.val ≤ y.val) {decimals n n' : ℤ}
    (hn : convertToBaseUnits (.finite x) decimals = .ok n) (hn' : convertToBaseUnits (.finite y) decimals = .ok n') :
    n ≤ n' := by
  cases hm : fixFrac 1 1 decimals with
  | error e => rw [convertToBaseUnits, hm] at hn; cases hn
  | ok m =>
    have hm0 : 0 ≤ m.val := val_nonneg_of_fixQ (fixFrac_val 1 one_pos decimals)
      (by norm_num; exact zpow_nonneg (by norm_num) _) hm
    have hbase : ∀ {z : Dec} {k : ℤ}, convertToBaseUnits (.finite z) decimals = .ok k →
        k = truncQ (roundQ (z.val * m.val)) := by
      intro z k h
      have hmul : (PyDecimal.finite <$> (Except.ok m : Except PyError Dec)) = .ok (.finite m) := rfl
      rw [convertToBaseUnits, hm, hmul, ok_bind] at h
      obtain ⟨w, hw, h⟩ := bind_eq_ok h
      obtain ⟨d, rfl, hd⟩ := finite_of_map_eq_ok (Dec.mul_val z m) hw
      cases h
      rw [Dec.toInt_eq, hd]
    rw [hbase hn, hbase hn']
    exact truncQ_mono (roundQ_nonneg (mul_nonneg hx hm0))
      (roundQ_mono (mul_nonneg hx hm0) (mul_le_mul_of_nonneg_right hxy hm0))

/-- Whether the migration lists an address, from its balances in the two holder files: its total at or above
`--min-usd`, and its REVO tokens, the total over the REVO price, positive and at or above `--min-revo`. -/
def listed (cxsPrice nextepPrice revoPrice minUsd minRevo : PyDecimal) (cb nb : Option (Option PyDecimal)) : Bool :=
  match walletEntry cxsPrice nextepPrice cb nb with
  | .error _ => false
  | .ok c =>
    passes minUsd c.totalUsdValue &&
      match c.totalUsdValue.div revoPrice with
      | .error _ => false
      | .ok t => decide (funded t = .ok true) && passes minRevo t

section Migrate

variable {cxs nextep : List (String × Option PyDecimal)} {cxsPrice nextepPrice revoPrice minUsd minRevo : PyDecimal}
  {decimals : ℤ} {g : GenesisConfig}

/-- A migration that ends with a genesis ran the three scripts to the end. -/
theorem migrate_eq_some (h : migrate cxs nextep cxsPrice nextepPrice revoPrice minUsd minRevo decimals = .ok (some g)) :
    ∃ wallets revoData, Combine.main cxs nextep cxsPrice nextepPrice = .ok wallets ∧
      Distribution.main revoPrice minUsd wallets = .ok (some revoData) ∧
      Genesis.main minRevo decimals (revoData.wallets.map fun w => (w.1, w.2.revoTokens)) = .ok g := by
  obtain ⟨wallets, hcomb, h⟩ := bind_eq_ok h
  obtain ⟨revoData, hdist, h⟩ := bind_eq_ok h
  cases revoData with
  | none => cases h
  | some revoData =>
    obtain ⟨g', hgen, h⟩ := bind_eq_ok h
    cases h
    exact ⟨wallets, revoData, hcomb, hdist, hgen⟩

/-- An allocation of the distribution is an address of either holder file whose entry's total passes `--min-usd`
and gives, over the REVO price, the allocation's tokens. -/
theorem entry_of_allocation (hc : (cxs.map Prod.fst).Nodup) (hn : (nextep.map Prod.fst).Nodup)
    {wallets : List (String × PyDecimal)} (hcomb : Combine.main cxs nextep cxsPrice nextepPrice = .ok wallets)
    {revoData : RevoData} (hdist : Distribution.main revoPrice minUsd wallets = .ok (some revoData)) {a : String}
    {e : Allocation} (he : (a, e) ∈ revoData.wallets) :
    ∃ c, walletEntry cxsPrice nextepPrice (cxs.lookup a) (nextep.lookup a) = .ok c ∧
      (minUsd.floatGtZero = true → c.totalUsdValue.ge minUsd = .ok true) ∧
      c.totalUsdValue.div revoPrice = .ok e.revoTokens := by
  obtain ⟨hu, husd, hdiv⟩ := Distribution.mem_main hdist he
  obtain ⟨c, hentry, hce⟩ := Combine.mem_main cxsPrice nextepPrice hc hn hcomb hu
  rw [← hce] at husd hdiv
  exact ⟨c, hentry, husd, hdiv⟩

/-- **What the genesis is given.** Every wallet `generate_genesis_config` receives in a migration is an address of
either holder file with its REVO tokens: its combined USD value, at or above `--min-usd`, over the REVO price, at or
above `--min-revo`. -/
theorem genesisInput_of_migrate (hc : (cxs.map Prod.fst).Nodup) (hn : (nextep.map Prod.fst).Nodup)
    (h : migrate cxs nextep cxsPrice nextepPrice revoPrice minUsd minRevo decimals = .ok (some g)) :
    ∃ wallets, generateGenesisConfig wallets decimals = .ok g ∧ ∀ a t, (a, t) ∈ wallets →
      ∃ c, walletEntry cxsPrice nextepPrice (cxs.lookup a) (nextep.lookup a) = .ok c ∧
        (minUsd.floatGtZero = true → c.totalUsdValue.ge minUsd = .ok true) ∧
        c.totalUsdValue.div revoPrice = .ok t ∧ (minRevo.floatGtZero = true → t.ge minRevo = .ok true) := by
  obtain ⟨wallets, revoData, hcomb, hdist, hgen⟩ := migrate_eq_some h
  obtain ⟨kept, hkept, hk⟩ := Genesis.mem_main hgen
  refine ⟨kept, hkept, fun a t hat => ?_⟩
  obtain ⟨ht, hmin⟩ := hk (a, t) hat
  obtain ⟨⟨a', e⟩, he, ⟨⟩⟩ := List.mem_map.mp ht
  obtain ⟨c, hentry, husd, hdiv⟩ := entry_of_allocation hc hn hcomb hdist he
  exact ⟨c, hentry, husd, hdiv, hmin⟩

/-- **Where a genesis balance comes from.** Every balance of a genesis the migration ends with belongs to an address
of either holder file: its combined USD value is at or above `--min-usd`, its REVO tokens are that value over the
REVO price, positive and at or above `--min-revo`, and the balance is their base units. -/
theorem mem_balances_of_migrate (hc : (cxs.map Prod.fst).Nodup) (hn : (nextep.map Prod.fst).Nodup)
    (h : migrate cxs nextep cxsPrice nextepPrice revoPrice minUsd minRevo decimals = .ok (some g)) {a : String}
    {n : ℤ} (ha : (a, n) ∈ g.balances) :
    ∃ c t, walletEntry cxsPrice nextepPrice (cxs.lookup a) (nextep.lookup a) = .ok c ∧
      (minUsd.floatGtZero = true → c.totalUsdValue.ge minUsd = .ok true) ∧
      c.totalUsdValue.div revoPrice = .ok t ∧ (minRevo.floatGtZero = true → t.ge minRevo = .ok true) ∧
      funded t = .ok true ∧ convertToBaseUnits t decimals = .ok n := by
  obtain ⟨wallets, hgen, hw⟩ := genesisInput_of_migrate hc hn h
  obtain ⟨⟨a', t⟩, hat, rfl, hbase, -⟩ := exists_of_forall₂ (generateGenesisConfig_spec hgen).2.1 ha
  obtain ⟨hat, hfunded⟩ := List.mem_filter.mp hat
  obtain ⟨c, hentry, husd, hdiv, hmin⟩ := hw _ t hat
  exact ⟨c, t, hentry, husd, hdiv, hmin, of_decide_eq_true hfunded, hbase⟩

/-- **The accounts of the genesis are the addresses that pass.** Over two holder files of distinct addresses, a
genesis the migration ends with lists as its accounts exactly the addresses of either file that are `listed`, each
once, the CXS file's in its order followed by the NEXTEP file's it lacks. -/
theorem migrate_accounts (hc : (cxs.map Prod.fst).Nodup) (hn : (nextep.map Prod.fst).Nodup)
    (h : migrate cxs nextep cxsPrice nextepPrice revoPrice minUsd minRevo decimals = .ok (some g)) :
    g.accounts = (unionKeys cxs nextep).filter fun a =>
      listed cxsPrice nextepPrice revoPrice minUsd minRevo (cxs.lookup a) (nextep.lookup a) := by
  obtain ⟨wallets, revoData, hcomb, hdist, hgen⟩ := migrate_eq_some h
  have hK := Combine.keys_main cxsPrice nextepPrice hc hn hcomb
  have hwn : (wallets.map Prod.fst).Nodup := hK ▸ unionKeys_nodup hc hn
  have hD := Distribution.keys_main hwn hdist
  have h3 : (revoData.wallets.map fun w => (w.1, w.2.revoTokens)).map Prod.fst = revoData.wallets.map Prod.fst := by
    rw [List.map_map]
    rfl
  have hdn : ((revoData.wallets.map fun w => (w.1, w.2.revoTokens)).map Prod.fst).Nodup :=
    h3 ▸ hD ▸ (List.Sublist.map _ (List.filter_sublist _)).nodup hwn
  -- the genesis keeps the allocations whose address is `listed`
  have hgenesis : ∀ w ∈ revoData.wallets.map fun w => (w.1, w.2.revoTokens),
      (decide (funded w.2 = .ok true) && passes minRevo w.2) =
        listed cxsPrice nextepPrice revoPrice minUsd minRevo (cxs.lookup w.1) (nextep.lookup w.1) := by
    intro w hw
    obtain ⟨⟨a, e⟩, he, rfl⟩ := List.mem_map.mp hw
    obtain ⟨c, hentry, husd, hdiv⟩ := entry_of_allocation hc hn hcomb hdist he
    simp only [listed, hentry, hdiv, passes_of_ge husd, Bool.true_and]
  -- the distribution keeps the wallets that pass `--min-usd`, which every `listed` address does
  have husd : ∀ w ∈ wallets, listed cxsPrice nextepPrice revoPrice minUsd minRevo (cxs.lookup w.1)
      (nextep.lookup w.1) = true → passes minUsd w.2 = true := by
    intro w hw hl
    obtain ⟨c, hentry, hce⟩ := Combine.mem_main cxsPrice nextepPrice hc hn hcomb hw
    simp only [listed, hentry, Bool.and_eq_true] at hl
    exact hce ▸ hl.1
  rw [Genesis.accounts_main hdn hgen, keys_filter (q := fun a =>
    listed cxsPrice nextepPrice revoPrice minUsd minRevo (cxs.lookup a) (nextep.lookup a)) hgenesis, h3, hD, ← hK,
    List.filter_map, List.filter_map, List.filter_filter]
  congr 1
  exact List.filter_congr fun w hw => by
    cases hl : listed cxsPrice nextepPrice revoPrice minUsd minRevo (cxs.lookup w.1) (nextep.lookup w.1)
    · simp [hl]
    · simp [hl, husd w hw hl]

/-- Of the three addresses, `0xc` has no balance and gets no REVO: the genesis lists `0xa` and `0xb`. -/
theorem migrate_accounts_unfunded :
    let cxs : List (String × Option PyDecimal) := [("0xa", some (.ofInt 1)), ("0xb", some (.ofInt 2))]
    let nextep : List (String × Option PyDecimal) := [("0xb", some (.ofInt 1)), ("0xc", none)]
    migrate cxs nextep (.finite ⟨3, 0⟩) (.finite ⟨5, 0⟩) (.finite ⟨2, 0⟩) (.ofInt 0) (.ofInt 0) 0 =
      .ok (some ⟨["0xa", "0xb"], [("0xa", 1), ("0xb", 5)], 7, 10⟩) ∧
    ["0xa", "0xb"] = (unionKeys cxs nextep).filter fun a =>
      listed (.finite ⟨3, 0⟩) (.finite ⟨5, 0⟩) (.finite ⟨2, 0⟩) (.ofInt 0) (.ofInt 0) (cxs.lookup a) (nextep.lookup a) := by
  intro cxs nextep
  have h : migrate cxs nextep (.finite ⟨3, 0⟩) (.finite ⟨5, 0⟩) (.finite ⟨2, 0⟩) (.ofInt 0) (.ofInt 0) 0 =
      .ok (some ⟨["0xa", "0xb"], [("0xa", 1), ("0xb", 5)], 7, 10⟩) := by decide
  exact ⟨h, migrate_accounts (by decide) (by decide) h⟩

/-- The REVO tokens of a genesis balance, as a value: the rounded quotient of the rounded total of the address's two
holdings by the REVO price. -/
theorem tokens_of_migrate (hc : (cxs.map Prod.fst).Nodup) (hn : (nextep.map Prod.fst).Nodup)
    (hbal : ∀ w ∈ cxs ++ nextep, PyDecimal.NonnegFinite (balanceOf w.2)) {p q r : Dec} (hr : 0 < r.coeff)
    (h : migrate cxs nextep (.finite p) (.finite q) (.finite r) minUsd minRevo decimals = .ok (some g)) {a : String}
    {n : ℤ} (ha : (a, n) ∈ g.balances) :
    ∃ t : Dec, convertToBaseUnits (.finite t) decimals = .ok n ∧
      t.val = roundQ (roundQ (roundQ (holding cxs a * p.val) + roundQ (holding nextep a * q.val)) / r.val) := by
  have hmem : ∀ file : List (String × Option PyDecimal), (∀ w ∈ file, PyDecimal.NonnegFinite (balanceOf w.2)) →
      ∀ b ∈ file.lookup a, PyDecimal.NonnegFinite (balanceOf b) := fun file hf b hb =>
    hf (a, b) (mem_of_lookup hb)
  obtain ⟨c, t, hentry, -, hdiv, -, -, hbase⟩ := mem_balances_of_migrate hc hn h ha
  obtain ⟨u, hu, huv⟩ := total_of_walletEntry (hmem cxs fun w hw => hbal w (List.mem_append_left _ hw))
    (hmem nextep fun w hw => hbal w (List.mem_append_right _ hw)) hentry
  rw [hu] at hdiv
  obtain ⟨d, rfl, hd⟩ := finite_of_map_eq_ok (Dec.div_val u hr.ne') hdiv
  exact ⟨d, hbase, by rw [hd, huv]; rfl⟩

/-- **More holdings, at least as many REVO.** Over two holder files of distinct addresses whose balances are finite
and non-negative, at finite non-negative CXS and NEXTEP prices and a positive finite REVO price, whatever the
minimums and the decimals: in a genesis the migration ends with, an address that holds at least as much CXS and at
least as much NEXTEP as another has at least as many base units. -/
theorem migrate_balance_mono (hc : (cxs.map Prod.fst).Nodup) (hn : (nextep.map Prod.fst).Nodup)
    (hbal : ∀ w ∈ cxs ++ nextep, PyDecimal.NonnegFinite (balanceOf w.2)) {p q r : Dec} (hp : 0 ≤ p.coeff) (hq : 0 ≤ q.coeff)
    (hr : 0 < r.coeff)
    (h : migrate cxs nextep (.finite p) (.finite q) (.finite r) minUsd minRevo decimals = .ok (some g))
    {a b : String} {na nb : ℤ} (ha : (a, na) ∈ g.balances) (hb : (b, nb) ∈ g.balances)
    (hcxs : holding cxs a ≤ holding cxs b) (hnep : holding nextep a ≤ holding nextep b) : na ≤ nb := by
  have hval : ∀ {x : Dec}, 0 ≤ x.coeff → 0 ≤ x.val := fun hx =>
    mul_nonneg (Int.cast_nonneg.mpr hx) (zpow_nonneg (by norm_num) _)
  have hheld : ∀ file : List (String × Option PyDecimal), (∀ w ∈ file, PyDecimal.NonnegFinite (balanceOf w.2)) →
      ∀ a, 0 ≤ holding file a := fun file hf a => holdingOf_nonneg fun b hb =>
    hf (a, b) (mem_of_lookup hb)
  have hcx := hheld cxs (fun w hw => hbal w (List.mem_append_left _ hw)) a
  have hne := hheld nextep (fun w hw => hbal w (List.mem_append_right _ hw)) a
  have hrv : 0 < r.val := Dec.val_pos_iff.mpr hr
  obtain ⟨ta, hna, hta⟩ := tokens_of_migrate hc hn hbal hr h ha
  obtain ⟨tb, hnb, htb⟩ := tokens_of_migrate hc hn hbal hr h hb
  have htotal := total_mono (hval hp) (hval hq) hcx hcxs hne hnep
  have htotal0 := roundQ_nonneg (add_nonneg (roundQ_nonneg (mul_nonneg hcx (hval hp)))
    (roundQ_nonneg (mul_nonneg hne (hval hq))))
  refine convertToBaseUnits_mono (hta ▸ roundQ_nonneg (div_nonneg htotal0 hrv.le)) ?_ hna hnb
  rw [hta, htb]
  exact roundQ_mono (div_nonneg htotal0 hrv.le) (div_le_div_of_nonneg_right htotal hrv.le)

/-- `0xb` holds more of both tokens than `0xa`, and gets 5 base units to its 1. -/
theorem migrate_balance_mono_two_holders :
    let cxs : List (String × Option PyDecimal) := [("0xa", some (.ofInt 1)), ("0xb", some (.ofInt 2))]
    let nextep : List (String × Option PyDecimal) := [("0xb", some (.ofInt 1)), ("0xc", none)]
    migrate cxs nextep (.finite ⟨3, 0⟩) (.finite ⟨5, 0⟩) (.finite ⟨2, 0⟩) (.ofInt 0) (.ofInt 0) 0 =
      .ok (some ⟨["0xa", "0xb"], [("0xa", 1), ("0xb", 5)], 7, 10⟩) ∧
    holding cxs "0xa" ≤ holding cxs "0xb" ∧ holding nextep "0xa" ≤ holding nextep "0xb" ∧ (1 : ℤ) ≤ 5 := by
  intro cxs nextep
  have h : migrate cxs nextep (.finite ⟨3, 0⟩) (.finite ⟨5, 0⟩) (.finite ⟨2, 0⟩) (.ofInt 0) (.ofInt 0) 0 =
      .ok (some ⟨["0xa", "0xb"], [("0xa", 1), ("0xb", 5)], 7, 10⟩) := by decide
  have hbal : ∀ w ∈ cxs ++ nextep, PyDecimal.NonnegFinite (balanceOf w.2) := by
    simp [cxs, nextep, PyDecimal.NonnegFinite, balanceOf, PyDecimal.ofInt, Dec.ofInt]
  have hcxs : holding cxs "0xa" ≤ holding cxs "0xb" := by
    simp [cxs, holding, holdingOf, valueOf, balanceOf, List.lookup_cons, Dec.val, PyDecimal.ofInt, Dec.ofInt]
  have hnep : holding nextep "0xa" ≤ holding nextep "0xb" := by
    simp [nextep, holding, holdingOf, valueOf, balanceOf, List.lookup_cons, Dec.val, PyDecimal.ofInt, Dec.ofInt]
  exact ⟨h, hcxs, hnep, migrate_balance_mono (by decide) (by decide) hbal (by decide) (by decide) (by decide) h
    (by decide) (by decide) hcxs hnep⟩

end Migrate

end RevoMigration.Pipeline
