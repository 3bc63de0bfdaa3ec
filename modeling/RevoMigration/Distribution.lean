import RevoMigration.Combine
import RevoMigration.Genesis

/-!
# The REVO distribution and the filters of the scripts' `main`s

`calculate_revo_distribution` gives every wallet of the combined file its USD value divided by the REVO price, in
the 28-digit context, and adds up both columns. Both later scripts' `main` can first drop the wallets below a
minimum given as a float (`--min-usd` on the USD value, `--min-revo` on the REVO tokens): one filter
(`filterWallets`) that compares each value with `Decimal(str(minimum))` and raises on a NaN.

Each of the two loops writes `d[address] = ...` from the wallet it is at, so every entry of what it returns comes from
one wallet of its input (`mem_foldlM_of_step`, said once for a loop that only writes such entries): a kept wallet is
a wallet of the input at or above the minimum (`mem_of_filterWallets`), an allocation is a wallet of the input with
its value divided by the price (`mem_of_calculateRevoDistribution`).
-/

namespace RevoMigration.Decimal

/-- `x >= y` of two finite decimals, on their coefficients aligned to the smaller exponent. -/
def Dec.ge (x y : Dec) : Bool :=
  decide (y.coeff * 10 ^ (y.exp - min x.exp y.exp).toNat ≤ x.coeff * 10 ^ (x.exp - min x.exp y.exp).toNat)

namespace PyDecimal

/-- `x >= y`: `InvalidOperation` when either is a NaN, else the order of the values, `-Infinity` below and
`Infinity` above every finite value. -/
def ge : PyDecimal → PyDecimal → Except PyError Bool
  | .nan, _ => .error .invalidOperation
  | _, .nan => .error .invalidOperation
  | .infinity s, .infinity t => .ok (!s || t)
  | .infinity s, .finite _ => .ok !s
  | .finite _, .infinity t => .ok t
  | .finite x, .finite y => .ok (x.ge y)

/-- `f > 0` of the float `f` with `Decimal(str(f)) = x`: false for a NaN. -/
def floatGtZero : PyDecimal → Bool
  | .nan => false
  | .infinity negative => !negative
  | .finite x => decide (0 < x.coeff)

/-- A finite decimal at least zero. -/
def NonnegFinite (x : PyDecimal) : Prop := ∃ d : Dec, x = .finite d ∧ 0 ≤ d.coeff

end PyDecimal

end RevoMigration.Decimal

namespace RevoMigration.Distribution

open RevoMigration.Decimal
open RevoMigration.Bridge (setItem)

/-! ## The code -/

/-- One pass of the filter: `filtered_wallets[address] = wallet_data` if the wallet's value is at least the
minimum. -/
def keepAtLeast (minimum : PyDecimal) (filtered : List (String × PyDecimal)) (wallet : String × PyDecimal) :
    Except PyError (List (String × PyDecimal)) := do
  if ← wallet.2.ge minimum then pure (setItem filtered wallet.1 wallet.2) else pure filtered

/-- The filter of `main` by a minimum given as a float, with `Decimal(str(minimum))` for `minimum`: nothing happens
unless `minimum > 0`. -/
def filterWallets (minimum : PyDecimal) (wallets : List (String × PyDecimal)) :
    Except PyError (List (String × PyDecimal)) :=
  if minimum.floatGtZero then wallets.foldlM (keepAtLeast minimum) [] else pure wallets

/-- A wallet of `revo_distribution`: its `usd_value` and `revo_tokens`, as the decimals their strings hold. -/
structure Allocation where
  usdValue : PyDecimal
  revoTokens : PyDecimal
deriving DecidableEq, Repr

/-- What `calculate_revo_distribution` returns: the counts and sums of its `metadata`, and its `wallets`. -/
structure RevoData where
  totalWallets : ℕ
  totalUsdValue : PyDecimal
  totalRevoTokens : PyDecimal
  wallets : List (String × Allocation)
deriving DecidableEq, Repr

/-- One pass of the loop of `calculate_revo_distribution`, threading `revo_distribution`, `total_usd_value` and
`total_revo_tokens`. -/
def addAllocation (revoPrice : PyDecimal) (acc : List (String × Allocation) × PyDecimal × PyDecimal)
    (wallet : String × PyDecimal) : Except PyError (List (String × Allocation) × PyDecimal × PyDecimal) := do
  let usdValue := wallet.2
  let revoTokens ← usdValue.div revoPrice
  let totalUsdValue ← acc.2.1.add usdValue
  let totalRevoTokens ← acc.2.2.add revoTokens
  pure (setItem acc.1 wallet.1 ⟨usdValue, revoTokens⟩, totalUsdValue, totalRevoTokens)

/-- `calculate_revo_distribution(combined_data, revo_price)` on the items of `combined_data["wallets"]`, each with
its `Decimal(usd_value)`, and the float `revo_price` read as `Decimal(str(revo_price))`; `none` for its `None`. -/
def calculateRevoDistribution (wallets : List (String × PyDecimal)) (revoPrice : PyDecimal) :
    Except PyError (Option RevoData) :=
  if revoPrice.floatLeZero then pure none else do
    let (revoDistribution, totalUsdValue, totalRevoTokens) ←
      wallets.foldlM (addAllocation revoPrice) ([], .ofInt 0, .ofInt 0)
    pure (some ⟨revoDistribution.length, totalUsdValue, totalRevoTokens, revoDistribution⟩)

/-- `main()` of `calculate_revo_distribution.py` from the loaded wallets on: the `--min-usd` filter, then
`calculate_revo_distribution`; `none` where it returns 1. -/
def main (revoPrice minUsd : PyDecimal) (wallets : List (String × PyDecimal)) : Except PyError (Option RevoData) :=
  if revoPrice.floatLeZero then pure none else do
    let wallets ← filterWallets minUsd wallets
    calculateRevoDistribution wallets revoPrice

/-- Whether a value passes the filter by a minimum: always when the minimum is not above zero. -/
def passes (minimum value : PyDecimal) : Bool := !minimum.floatGtZero || decide (value.ge minimum = .ok true)

theorem passes_of_ge {minimum value : PyDecimal} (h : minimum.floatGtZero = true → value.ge minimum = .ok true) :
    passes minimum value = true := by
  cases hm : minimum.floatGtZero <;> simp [passes, hm, h]

/-! ## Where the entries come from -/

theorem mem_setItem {α : Type} {l : List (String × α)} {k : String} {v : α} {e : String × α}
    (h : e ∈ setItem l k v) : e = (k, v) ∨ e ∈ l := by
  induction l with
  | nil => simpa [setItem] using h
  | cons p l ih =>
    unfold setItem at h
    split_ifs at h with hp
    · rcases List.mem_cons.mp h with h | h
      · exact .inl h
      · exact .inr (List.mem_cons_of_mem _ h)
    · rcases List.mem_cons.mp h with h | h
      · exact .inr (h ▸ List.mem_cons_self _ _)
      · exact (ih h).imp_right (List.mem_cons_of_mem _)

section Loop

variable {ε σ α β : Type} (entries : σ → List α) {step : σ → β → Except ε σ} {P : β → α → Prop}

/-- **A loop that only writes entries of the element it is at**: every entry at its end was there at its start or
comes from one element. -/
theorem mem_foldlM_of_step (hstep : ∀ s w s', step s w = .ok s' → ∀ e ∈ entries s', e ∈ entries s ∨ P w e) :
    ∀ {ws : List β} {s s' : σ}, ws.foldlM step s = .ok s' → ∀ e ∈ entries s', e ∈ entries s ∨ ∃ w ∈ ws, P w e
  | [], s, s', h, e, he => by
    cases h
    exact .inl he
  | w :: ws, s, s', h, e, he => by
    rw [List.foldlM_cons] at h
    obtain ⟨s'', hs, h⟩ := bind_eq_ok h
    rcases mem_foldlM_of_step hstep h e he with he | ⟨w', hw, hp⟩
    · exact (hstep s w s'' hs e he).imp_right fun hp => ⟨w, List.mem_cons_self w ws, hp⟩
    · exact .inr ⟨w', List.mem_cons_of_mem w hw, hp⟩

end Loop

/-- A wallet the filter keeps is a wallet of its input, at or above the minimum when the minimum is above zero. -/
theorem mem_of_filterWallets {minimum : PyDecimal} {wallets kept : List (String × PyDecimal)}
    (h : filterWallets minimum wallets = .ok kept) {w : String × PyDecimal} (hw : w ∈ kept) :
    w ∈ wallets ∧ (minimum.floatGtZero = true → w.2.ge minimum = .ok true) := by
  unfold filterWallets at h
  split_ifs at h with hm
  · have hstep : ∀ s w s', keepAtLeast minimum s w = .ok s' → ∀ e ∈ s', e ∈ s ∨ (e = w ∧ w.2.ge minimum = .ok true) := by
      intro s w s' hs e he
      obtain ⟨b, hb, hs⟩ := bind_eq_ok hs
      cases b
      · cases hs
        exact .inl he
      · cases hs
        exact (mem_setItem he).symm.imp_right fun he => ⟨he, hb⟩
    rcases mem_foldlM_of_step id hstep h w hw with hw | ⟨w', hw', rfl, hge⟩
    · cases hw
    · exact ⟨hw', fun _ => hge⟩
  · cases h
    exact ⟨hw, by simp [hm]⟩

/-- An allocation of the distribution is a wallet of its input with that wallet's value divided by the price. -/
theorem mem_of_calculateRevoDistribution {wallets : List (String × PyDecimal)} {revoPrice : PyDecimal}
    {revoData : RevoData} (h : calculateRevoDistribution wallets revoPrice = .ok (some revoData))
    {a : String} {e : Allocation} (he : (a, e) ∈ revoData.wallets) :
    (a, e.usdValue) ∈ wallets ∧ e.usdValue.div revoPrice = .ok e.revoTokens := by
  unfold calculateRevoDistribution at h
  split_ifs at h
  · cases h
  · obtain ⟨⟨d, u, t⟩, hd, h⟩ := bind_eq_ok h
    cases h
    have hstep : ∀ s w s', addAllocation revoPrice s w = .ok s' → ∀ e ∈ s'.1, e ∈ s.1 ∨
        (e.1 = w.1 ∧ e.2.usdValue = w.2 ∧ w.2.div revoPrice = .ok e.2.revoTokens) := by
      intro s w s' hs e he
      obtain ⟨r, hr, hs⟩ := bind_eq_ok hs
      obtain ⟨_, -, hs⟩ := bind_eq_ok hs
      obtain ⟨_, -, hs⟩ := bind_eq_ok hs
      cases hs
      exact (mem_setItem he).symm.imp_right fun he => by subst he; exact ⟨rfl, rfl, hr⟩
    rcases mem_foldlM_of_step Prod.fst hstep hd (a, e) he with he | ⟨w, hw, rfl, hu, hr⟩
    · cases he
    · exact ⟨by rw [hu]; exact hw, hu ▸ hr⟩

/-! ## The loops over distinct addresses -/

theorem fresh_append {α : Type} {l : List (String × α)} {rest : List String} {k : String} (v : α)
    (hd : ∀ k' ∈ l.map Prod.fst, k' ∉ rest) (hk : k ∉ rest) : ∀ k' ∈ (l ++ [(k, v)]).map Prod.fst, k' ∉ rest := by
  intro k' hk'
  rw [List.map_append, List.mem_append] at hk'
  rcases hk' with hk' | hk'
  · exact hd k' hk'
  · rw [List.map_singleton, List.mem_singleton] at hk'
    exact hk' ▸ hk

/-- Over distinct addresses none of which the filter holds yet, it appends the wallets at or above the minimum. -/
theorem foldlM_keepAtLeast {minimum : PyDecimal} : ∀ {wallets filtered kept : List (String × PyDecimal)},
    (wallets.map Prod.fst).Nodup → (∀ k ∈ filtered.map Prod.fst, k ∉ wallets.map Prod.fst) →
    wallets.foldlM (keepAtLeast minimum) filtered = .ok kept →
      kept = filtered ++ wallets.filter fun w => decide (w.2.ge minimum = .ok true)
  | [], _, _, _, _, h => by
    cases h
    simp
  | w :: wallets, filtered, kept, hn, hd, h => by
    rw [List.map_cons, List.nodup_cons] at hn
    rw [List.foldlM_cons] at h
    obtain ⟨filtered', hs, h⟩ := bind_eq_ok h
    have hw : w.1 ∉ filtered.map Prod.fst := fun hk => hd _ hk (List.mem_cons_self _ _)
    have hd' : ∀ k ∈ filtered.map Prod.fst, k ∉ wallets.map Prod.fst := fun k hk hk' =>
      hd k hk (List.mem_cons_of_mem _ hk')
    unfold keepAtLeast at hs
    cases hge : w.2.ge minimum with
    | error e => rw [hge] at hs; cases hs
    | ok b =>
      rw [hge, ok_bind] at hs
      cases b
      · cases hs
        rw [foldlM_keepAtLeast hn.2 hd' h, List.filter_cons_of_neg (by simp [hge])]
      · cases hs
        rw [Bridge.setItem_of_not_mem hw] at h
        rw [foldlM_keepAtLeast hn.2 (fresh_append w.2 hd' hn.1) h, List.filter_cons_of_pos (by simp [hge]),
          List.append_assoc, List.singleton_append]

/-- **The filter keeps the wallets that pass, in order**, over distinct addresses. -/
theorem filterWallets_eq {minimum : PyDecimal} {wallets kept : List (String × PyDecimal)}
    (hn : (wallets.map Prod.fst).Nodup) (h : filterWallets minimum wallets = .ok kept) :
    kept = wallets.filter fun w => passes minimum w.2 := by
  unfold filterWallets at h
  split_ifs at h with hm
  · rw [foldlM_keepAtLeast hn (by simp) h, List.nil_append]
    exact List.filter_congr fun w _ => by simp [passes, hm]
  · cases h
    exact (List.filter_eq_self.mpr fun w _ => by simp [passes, hm]).symm

/-- Over distinct addresses none of which it holds yet, the distribution's loop appends one allocation for each. -/
theorem foldlM_addAllocation {revoPrice : PyDecimal} :
    ∀ {wallets : List (String × PyDecimal)} {acc s : List (String × Allocation) × PyDecimal × PyDecimal},
    (wallets.map Prod.fst).Nodup → (∀ k ∈ acc.1.map Prod.fst, k ∉ wallets.map Prod.fst) →
    wallets.foldlM (addAllocation revoPrice) acc = .ok s → s.1.map Prod.fst = acc.1.map Prod.fst ++ wallets.map Prod.fst
  | [], _, _, _, _, h => by
    cases h
    simp
  | w :: wallets, acc, s, hn, hd, h => by
    rw [List.map_cons, List.nodup_cons] at hn
    rw [List.foldlM_cons] at h
    obtain ⟨acc', hs, h⟩ := bind_eq_ok h
    have hw : w.1 ∉ acc.1.map Prod.fst := fun hk => hd _ hk (List.mem_cons_self _ _)
    obtain ⟨t, -, hs⟩ := bind_eq_ok hs
    obtain ⟨_, -, hs⟩ := bind_eq_ok hs
    obtain ⟨_, -, hs⟩ := bind_eq_ok hs
    cases hs
    rw [Bridge.setItem_of_not_mem hw] at h
    have hd' : ∀ k ∈ acc.1.map Prod.fst, k ∉ wallets.map Prod.fst := fun k hk hk' =>
      hd k hk (List.mem_cons_of_mem _ hk')
    rw [foldlM_addAllocation hn.2 (fresh_append _ hd' hn.1) h]
    simp

/-- **The distribution lists the wallets that pass `--min-usd`, in order**, over distinct addresses. -/
theorem keys_main {revoPrice minUsd : PyDecimal} {wallets : List (String × PyDecimal)} {revoData : RevoData}
    (hn : (wallets.map Prod.fst).Nodup) (h : main revoPrice minUsd wallets = .ok (some revoData)) :
    revoData.wallets.map Prod.fst = (wallets.filter fun w => passes minUsd w.2).map Prod.fst := by
  unfold main at h
  split_ifs at h with hr
  · cases h
  · obtain ⟨kept, hk, h⟩ := bind_eq_ok h
    rw [← filterWallets_eq hn hk]
    unfold calculateRevoDistribution at h
    rw [if_neg hr] at h
    obtain ⟨⟨d, u, t⟩, hd, h⟩ := bind_eq_ok h
    cases h
    have hkn : (kept.map Prod.fst).Nodup := filterWallets_eq hn hk ▸ (List.Sublist.map _ (List.filter_sublist _)).nodup hn
    simpa using foldlM_addAllocation hkn (by simp) hd

/-- An allocation of `main` is a wallet of the combined file at or above `--min-usd`, with its value divided by the
price. -/
theorem mem_main {revoPrice minUsd : PyDecimal} {wallets : List (String × PyDecimal)} {revoData : RevoData}
    (h : main revoPrice minUsd wallets = .ok (some revoData)) {a : String} {e : Allocation}
    (he : (a, e) ∈ revoData.wallets) :
    (a, e.usdValue) ∈ wallets ∧ (minUsd.floatGtZero = true → e.usdValue.ge minUsd = .ok true) ∧
      e.usdValue.div revoPrice = .ok e.revoTokens := by
  unfold main at h
  split_ifs at h
  · cases h
  · obtain ⟨kept, hk, h⟩ := bind_eq_ok h
    obtain ⟨hm, hd⟩ := mem_of_calculateRevoDistribution h he
    exact ⟨(mem_of_filterWallets hk hm).1, (mem_of_filterWallets hk hm).2, hd⟩

end RevoMigration.Distribution
