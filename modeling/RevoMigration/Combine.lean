import RevoMigration.Decimal.Value
import RevoMigration.Bridge.State

/-!
# Combining the CXS and NEXTEP holders

`combine_wallet_values` reads the holder files of the two tokens and gives every address of either file one entry:
its CXS balance and that balance's value in USD, the same for NEXTEP, and the total of the two values, each product
and the sum computed in the default 28-digit context. Its two loops have one shape, an upsert of
`combined_wallets[address]` from the entry the address already has and the file's balance (`upsert`).

* `foldlM_upsert` says once what such a loop computes over a file of distinct addresses: at each key, the loop's
  entry built from the old entry and the file's balance, or the old entry if the file lacks the key.
* `combineWalletValues_spec` composes the two loops: the addresses are those of the CXS file in order followed by
  the NEXTEP addresses it lacks (`unionKeys`), each entry is `walletEntry`, the entry the address's two balances
  give, and the whole is an error exactly when one of these entries is.

`calculate_totals` adds up the five columns, and `save_combined_data` keeps of each entry its total
(`simplifiedWallets`), which `calculate_revo_distribution.py` reads back.
-/

namespace RevoMigration.Combine

open RevoMigration.Decimal
open RevoMigration.Bridge (setItem keys_setItem)

/-! ## The code -/

/-- One entry of `combined_wallets`. -/
structure Combined where
  cxsBalance : PyDecimal
  cxsUsdValue : PyDecimal
  nextepBalance : PyDecimal
  nextepUsdValue : PyDecimal
  totalUsdValue : PyDecimal
deriving DecidableEq, Repr

/-- The entry with every column `Decimal("0")`. -/
instance : Inhabited Combined := ⟨⟨.ofInt 0, .ofInt 0, .ofInt 0, .ofInt 0, .ofInt 0⟩⟩

/-- `Decimal(wallet_data.get("balance", "0"))`, the file's balance string read as a `Decimal`. -/
def balanceOf (balance : Option PyDecimal) : PyDecimal := balance.getD (.ofInt 0)

/-- The entry the CXS loop writes: the balance, its value at `cxs_price`, and no NEXTEP. -/
def cxsEntry (cxsPrice : PyDecimal) (balance : Option PyDecimal) : Except PyError Combined := do
  let balance := balanceOf balance
  let usdValue ← balance.mul cxsPrice
  pure ⟨balance, usdValue, .ofInt 0, .ofInt 0, usdValue⟩

/-- The entry the NEXTEP loop writes: the address's entry with its NEXTEP columns set and their value added to the
total, or a new entry with no CXS. -/
def nextepEntry (nextepPrice : PyDecimal) (existing : Option Combined) (balance : Option PyDecimal) :
    Except PyError Combined := do
  let balance := balanceOf balance
  let usdValue ← balance.mul nextepPrice
  match existing with
  | some c =>
    let total ← c.totalUsdValue.add usdValue
    pure { c with nextepBalance := balance, nextepUsdValue := usdValue, totalUsdValue := total }
  | none => pure ⟨.ofInt 0, .ofInt 0, balance, usdValue, usdValue⟩

/-- One pass of either loop: `combined_wallets[address] = ...`, from the entry the address already has. -/
def upsert {ε α β : Type} (entry : Option α → β → Except ε α) (combined : List (String × α))
    (wallet : String × β) : Except ε (List (String × α)) :=
  (setItem combined wallet.1 ·) <$> entry (combined.lookup wallet.1) wallet.2

/-- `combine_wallet_values(cxs_data, nextep_data, cxs_price, nextep_price)` on the items of the two files'
`"wallets"`, each with its `"balance"` if it has one. -/
def combineWalletValues (cxs nextep : List (String × Option PyDecimal)) (cxsPrice nextepPrice : PyDecimal) :
    Except PyError (List (String × Combined)) := do
  let combined ← cxs.foldlM (upsert fun _ => cxsEntry cxsPrice) []
  nextep.foldlM (upsert (nextepEntry nextepPrice)) combined

/-- The running sums of `calculate_totals`. -/
structure Totals where
  totalWallets : ℕ
  totalCxsBalance : PyDecimal
  totalNextepBalance : PyDecimal
  totalCxsUsdValue : PyDecimal
  totalNextepUsdValue : PyDecimal
  totalUsdValue : PyDecimal
deriving DecidableEq, Repr

/-- One pass of the loop of `calculate_totals`. -/
def addTotals (totals : Totals) (wallet : String × Combined) : Except PyError Totals := do
  let totalCxsBalance ← totals.totalCxsBalance.add wallet.2.cxsBalance
  let totalNextepBalance ← totals.totalNextepBalance.add wallet.2.nextepBalance
  let totalCxsUsdValue ← totals.totalCxsUsdValue.add wallet.2.cxsUsdValue
  let totalNextepUsdValue ← totals.totalNextepUsdValue.add wallet.2.nextepUsdValue
  let totalUsdValue ← totals.totalUsdValue.add wallet.2.totalUsdValue
  pure ⟨totals.totalWallets, totalCxsBalance, totalNextepBalance, totalCxsUsdValue, totalNextepUsdValue,
    totalUsdValue⟩

/-- `calculate_totals(data)`. -/
def calculateTotals (data : List (String × Combined)) : Except PyError Totals :=
  data.foldlM addTotals ⟨data.length, .ofInt 0, .ofInt 0, .ofInt 0, .ofInt 0, .ofInt 0⟩

/-- The `"wallets"` of the file `save_combined_data` writes: each address with `str(total_usd_value)`, which
`Decimal(...)` reads back as the same decimal. -/
def simplifiedWallets (combined : List (String × Combined)) : List (String × PyDecimal) :=
  combined.map fun w => (w.1, w.2.totalUsdValue)

/-- `main()` of `combine_wallet_values.py` from the loaded files and the two prices on: the `"wallets"` of the file it
writes, which it writes only once `calculate_totals` has returned. -/
def main (cxs nextep : List (String × Option PyDecimal)) (cxsPrice nextepPrice : PyDecimal) :
    Except PyError (List (String × PyDecimal)) := do
  let combined ← combineWalletValues cxs nextep cxsPrice nextepPrice
  let _totals ← calculateTotals combined
  pure (simplifiedWallets combined)

/-! ## Dictionaries -/

section Dict

variable {α : Type}

@[simp] theorem lookup_cons_self (a : String) (v : α) (l : List (String × α)) :
    ((a, v) :: l).lookup a = some v := by
  simp [List.lookup_cons]

theorem lookup_cons_of_ne {a k : String} (h : a ≠ k) (v : α) (l : List (String × α)) :
    ((k, v) :: l).lookup a = l.lookup a := by
  rw [List.lookup_cons, beq_false_of_ne h]

theorem lookup_of_mem {l : List (String × α)} (hl : (l.map Prod.fst).Nodup) {a : String} {v : α}
    (h : (a, v) ∈ l) : l.lookup a = some v := by
  induction l with
  | nil => cases h
  | cons p l ih =>
    obtain ⟨k, w⟩ := p
    rw [List.map_cons, List.nodup_cons] at hl
    rcases List.mem_cons.mp h with h' | h'
    · cases h'
      exact lookup_cons_self a v l
    · have hne : a ≠ k := fun he => hl.1 (List.mem_map.mpr ⟨(a, v), h', he⟩)
      rw [lookup_cons_of_ne hne, ih hl.2 h']

theorem mem_of_lookup {l : List (String × α)} {a : String} {v : α} (h : l.lookup a = some v) : (a, v) ∈ l := by
  obtain ⟨l₁, l₂, rfl, -⟩ := List.lookup_eq_some_iff.mp h
  exact List.mem_append_right _ (List.mem_cons_self _ _)

theorem lookup_of_not_mem {l : List (String × α)} {a : String} (h : a ∉ l.map Prod.fst) : l.lookup a = none :=
  List.lookup_eq_none_iff.mpr fun _ hp => bne_iff_ne.mpr fun he => h (he ▸ List.mem_map_of_mem Prod.fst hp)

theorem exists_lookup {l : List (String × α)} {a : String} (h : a ∈ l.map Prod.fst) :
    ∃ v, (a, v) ∈ l ∧ l.lookup a = some v := by
  induction l with
  | nil => cases h
  | cons p l ih =>
    obtain ⟨k, w⟩ := p
    by_cases hk : a = k
    · subst hk
      exact ⟨w, List.mem_cons_self _ l, lookup_cons_self a w l⟩
    · obtain ⟨v, hv, hl⟩ := ih (by simpa [hk] using h)
      exact ⟨v, List.mem_cons_of_mem _ hv, by rw [lookup_cons_of_ne hk, hl]⟩

theorem lookup_setItem (l : List (String × α)) (k a : String) (v : α) :
    (setItem l k v).lookup a = if a = k then some v else l.lookup a := by
  induction l with
  | nil => by_cases h : a = k <;> simp [setItem, h, lookup_cons_of_ne]
  | cons p l ih =>
    obtain ⟨k', w⟩ := p
    by_cases hk : k' = k
    · subst hk
      by_cases h : a = k' <;> simp [setItem, h, lookup_cons_of_ne]
    · by_cases h : a = k'
      · subst h
        simp [setItem, hk]
      · simp [setItem, hk, h, lookup_cons_of_ne, ih]

theorem nodup_setItem {l : List (String × α)} (hl : (l.map Prod.fst).Nodup) (k : String) (v : α) :
    ((setItem l k v).map Prod.fst).Nodup := by
  rw [keys_setItem]
  split_ifs with h
  · exact hl
  · exact List.nodup_append.mpr ⟨hl, List.nodup_singleton k, by simpa using h⟩

/-- Filtering a dictionary by a test that depends on the key alone filters its keys. -/
theorem keys_filter {l : List (String × α)} {p : String × α → Bool} {q : String → Bool}
    (h : ∀ w ∈ l, p w = q w.1) : (l.filter p).map Prod.fst = (l.map Prod.fst).filter q := by
  rw [List.filter_map, List.filter_congr h]
  rfl

end Dict

/-! ## Upsert loops -/

section Upsert

variable {ε α β : Type}

/-- The dictionary with the entry `f a` at each key `a` in order, or the first error. -/
def entriesAt (f : String → Except ε α) (keys : List String) : Except ε (List (String × α)) :=
  keys.mapM fun a => Prod.mk a <$> f a

theorem entriesAt_nil (f : String → Except ε α) : entriesAt f [] = .ok [] := rfl

theorem entriesAt_cons_ne_nil (f : String → Except ε α) (a : String) (keys : List String) :
    entriesAt f (a :: keys) ≠ .ok [] := by
  unfold entriesAt
  rw [List.mapM_cons]
  cases f a <;> cases keys.mapM fun a => Prod.mk a <$> f a <;> nofun

theorem entriesAt_cons_eq_ok (f : String → Except ε α) (a a' : String) (keys : List String) (c : α)
    (r : List (String × α)) :
    entriesAt f (a :: keys) = .ok ((a', c) :: r) ↔ a' = a ∧ f a = .ok c ∧ entriesAt f keys = .ok r := by
  unfold entriesAt
  rw [List.mapM_cons]
  cases f a <;> cases keys.mapM fun a => Prod.mk a <$> f a <;>
    simp [Functor.map, Except.map, bind, Except.bind, pure, Except.pure, eq_comm, and_assoc]

/-- **What a dictionary built key by key holds**: its keys in order, each with its own entry. -/
theorem entriesAt_eq_ok {f : String → Except ε α} : ∀ {keys : List String} {r : List (String × α)},
    entriesAt f keys = .ok r ↔ r.map Prod.fst = keys ∧ ∀ a c, (a, c) ∈ r → f a = .ok c
  | [], r => by cases r <;> simp [entriesAt_nil]
  | a :: keys, [] => by simp [entriesAt_cons_ne_nil]
  | a :: keys, (a', c) :: r => by
    rw [entriesAt_cons_eq_ok, entriesAt_eq_ok]
    simp only [List.map_cons, List.cons.injEq, List.mem_cons, Prod.mk.injEq]
    constructor
    · rintro ⟨rfl, hc, hk, hr⟩
      exact ⟨⟨rfl, hk⟩, fun x y h => h.elim (fun ⟨hx, hy⟩ => hx ▸ hy ▸ hc) (hr x y)⟩
    · rintro ⟨⟨rfl, hk⟩, hr⟩
      exact ⟨rfl, hr _ _ (.inl ⟨rfl, rfl⟩), hk, fun x y h => hr x y (.inr h)⟩

theorem entriesAt_exists_ok {f : String → Except ε α} :
    ∀ {keys : List String}, (∀ a ∈ keys, ∃ c, f a = .ok c) → ∃ r, entriesAt f keys = .ok r
  | [], _ => ⟨[], rfl⟩
  | a :: keys, h => by
    obtain ⟨c, hc⟩ := h a (List.mem_cons_self a keys)
    obtain ⟨r, hr⟩ := entriesAt_exists_ok fun b hb => h b (List.mem_cons_of_mem a hb)
    exact ⟨(a, c) :: r, (entriesAt_cons_eq_ok f a a keys c r).mpr ⟨rfl, hc, hr⟩⟩

theorem ok_of_entriesAt_eq_ok {f : String → Except ε α} {keys : List String} {r : List (String × α)}
    (h : entriesAt f keys = .ok r) {a : String} (ha : a ∈ keys) : ∃ c, (a, c) ∈ r ∧ f a = .ok c := by
  obtain ⟨hk, hr⟩ := entriesAt_eq_ok.mp h
  obtain ⟨⟨a', c⟩, hm, rfl⟩ := List.mem_map.mp (hk ▸ ha)
  exact ⟨c, hm, hr _ _ hm⟩

/-- The entry an upsert loop leaves at a key: the loop's entry built from the old one and the file's balance if
the file has the key, else the old one. -/
def merged [Inhabited α] (entry : Option α → β → Except ε α) (old : Option α) : Option β → Except ε α
  | some b => entry old b
  | none => .ok (old.getD default)

/-- The keys of a file that are not among `keys`, in the file's order. -/
def newKeys (keys : List String) (file : List (String × β)) : List String :=
  (file.map Prod.fst).filter (· ∉ keys)

theorem upsert_of_ok {entry : Option α → β → Except ε α} {l : List (String × α)} {k : String} {b : β} {x : α}
    (h : entry (l.lookup k) b = .ok x) : upsert entry l (k, b) = .ok (setItem l k x) := by
  simp [upsert, h, Functor.map, Except.map]

theorem keys_upsert {l : List (String × α)} {k : String} {file : List (String × β)}
    (hk : k ∉ file.map Prod.fst) (x : α) :
    (setItem l k x).map Prod.fst ++ newKeys ((setItem l k x).map Prod.fst) file =
      l.map Prod.fst ++ newKeys (l.map Prod.fst) ((k, b) :: file) := by
  by_cases h : k ∈ l.map Prod.fst
  · rw [keys_setItem, if_pos h]
    simp [newKeys, h]
  · have hf : newKeys (l.map Prod.fst ++ [k]) file = newKeys (l.map Prod.fst) file :=
      List.filter_congr fun a ha => by
        have : a ≠ k := fun he => hk (he ▸ ha)
        simp [this]
    rw [keys_setItem, if_neg h, hf]
    simp [newKeys, h]

/-- **An upsert loop over a file of distinct keys** ends, if it ends well, with the old keys followed by the file's
new ones, each holding what `merged` says; it fails exactly when one of these entries does. -/
theorem foldlM_upsert [Inhabited α] (entry : Option α → β → Except ε α) :
    ∀ {file : List (String × β)} {l r : List (String × α)},
      (file.map Prod.fst).Nodup → (l.map Prod.fst).Nodup →
      (file.foldlM (upsert entry) l = .ok r ↔
        entriesAt (fun a => merged entry (l.lookup a) (file.lookup a))
          (l.map Prod.fst ++ newKeys (l.map Prod.fst) file) = .ok r)
  | [], l, r, _, hl => by
    have hself : entriesAt (fun a => merged entry (l.lookup a) none) (l.map Prod.fst) = .ok l :=
      entriesAt_eq_ok.mpr ⟨rfl, fun a c h => by simp [merged, lookup_of_mem hl h]⟩
    simpa [newKeys, merged] using hself.symm ▸ Iff.rfl
  | (k, b) :: file, l, r, hf, hl => by
    rw [List.map_cons, List.nodup_cons] at hf
    rw [List.foldlM_cons]
    cases he : entry (l.lookup k) b with
    | error e =>
      refine ⟨fun h => by simp [upsert, he, Functor.map, Except.map] at h, fun h => ?_⟩
      have hw : k ∈ l.map Prod.fst ++ newKeys (l.map Prod.fst) ((k, b) :: file) := by
        by_cases hl' : k ∈ l.map Prod.fst <;> simp [hl', newKeys]
      obtain ⟨c, -, hc⟩ := ok_of_entriesAt_eq_ok h hw
      simp [merged, he] at hc
    | ok x =>
      have hfun : (fun a => merged entry ((setItem l k x).lookup a) (file.lookup a)) =
          fun a => merged entry (l.lookup a) (((k, b) :: file).lookup a) := by
        funext a
        by_cases ha : a = k
        · subst ha
          simp [lookup_setItem, lookup_of_not_mem hf.1, merged, he]
        · rw [lookup_setItem, if_neg ha, lookup_cons_of_ne ha]
      rw [upsert_of_ok he, ok_bind, foldlM_upsert entry hf.2 (nodup_setItem hl k x), hfun, keys_upsert hf.1]

end Upsert

/-! ## What the combination is -/

/-- What `combine_wallet_values` gives an address, from its balance in the CXS file and in the NEXTEP file (`none`
where the address is not in the file): each balance with its value in USD, and as total the value of the one file
the address is in, or the sum of both values. -/
def walletEntry (cxsPrice nextepPrice : PyDecimal) :
    Option (Option PyDecimal) → Option (Option PyDecimal) → Except PyError Combined
  | some b, none => do
    let u ← (balanceOf b).mul cxsPrice
    pure ⟨balanceOf b, u, .ofInt 0, .ofInt 0, u⟩
  | none, some b' => do
    let u' ← (balanceOf b').mul nextepPrice
    pure ⟨.ofInt 0, .ofInt 0, balanceOf b', u', u'⟩
  | some b, some b' => do
    let u ← (balanceOf b).mul cxsPrice
    let u' ← (balanceOf b').mul nextepPrice
    let total ← u.add u'
    pure ⟨balanceOf b, u, balanceOf b', u', total⟩
  | none, none => pure default

/-- The addresses of the combination: the CXS file's, then the NEXTEP file's that the CXS file lacks. -/
def unionKeys (cxs nextep : List (String × Option PyDecimal)) : List String :=
  cxs.map Prod.fst ++ newKeys (cxs.map Prod.fst) nextep

theorem unionKeys_nodup {cxs nextep : List (String × Option PyDecimal)} (hc : (cxs.map Prod.fst).Nodup)
    (hn : (nextep.map Prod.fst).Nodup) : (unionKeys cxs nextep).Nodup :=
  List.nodup_append.mpr ⟨hc, hn.filter _, fun a ha hb => by
    simp [newKeys, ha] at hb⟩

section Spec

variable (cxsPrice nextepPrice : PyDecimal)

theorem walletEntry_some (b : Option PyDecimal) (nb : Option (Option PyDecimal)) :
    walletEntry cxsPrice nextepPrice (some b) nb =
      cxsEntry cxsPrice b >>= fun c => merged (nextepEntry nextepPrice) (some c) nb := by
  cases nb <;> cases h : (balanceOf b).mul cxsPrice <;> simp only [walletEntry, cxsEntry, merged, h] <;> rfl

theorem walletEntry_none (nb : Option (Option PyDecimal)) :
    walletEntry cxsPrice nextepPrice none nb = merged (nextepEntry nextepPrice) none nb := by
  cases nb <;> rfl

/-- The total of an entry: zero without balances, the value of the one balance, or the sum of both values. -/
theorem walletEntry_total {cb nb : Option (Option PyDecimal)} {c : Combined}
    (h : walletEntry cxsPrice nextepPrice cb nb = .ok c) :
    (cb = none ∧ nb = none ∧ c.totalUsdValue = .ofInt 0) ∨
      (∃ b, cb = some b ∧ nb = none ∧ (balanceOf b).mul cxsPrice = .ok c.totalUsdValue) ∨
      (∃ b', cb = none ∧ nb = some b' ∧ (balanceOf b').mul nextepPrice = .ok c.totalUsdValue) ∨
      ∃ b b' u u', cb = some b ∧ nb = some b' ∧ (balanceOf b).mul cxsPrice = .ok u ∧
        (balanceOf b').mul nextepPrice = .ok u' ∧ u.add u' = .ok c.totalUsdValue := by
  cases cb with
  | none =>
    cases nb with
    | none => cases h; exact .inl ⟨rfl, rfl, rfl⟩
    | some b' =>
      obtain ⟨u', hu', h⟩ := bind_eq_ok h
      cases h
      exact .inr (.inr (.inl ⟨b', rfl, rfl, hu'⟩))
  | some b =>
    cases nb with
    | none =>
      obtain ⟨u, hu, h⟩ := bind_eq_ok h
      cases h
      exact .inr (.inl ⟨b, rfl, rfl, hu⟩)
    | some b' =>
      obtain ⟨u, hu, h⟩ := bind_eq_ok h
      obtain ⟨u', hu', h⟩ := bind_eq_ok h
      obtain ⟨t, ht, h⟩ := bind_eq_ok h
      cases h
      exact .inr (.inr (.inr ⟨b, b', u, u', rfl, rfl, hu, hu', ht⟩))

variable {cxs nextep : List (String × Option PyDecimal)}

/-- The CXS loop alone: each CXS address with its `cxsEntry`. -/
theorem foldlM_cxsEntry (hc : (cxs.map Prod.fst).Nodup) (acc : List (String × Combined)) :
    cxs.foldlM (upsert fun _ => cxsEntry cxsPrice) [] = .ok acc ↔
      entriesAt (fun a => merged (fun _ => cxsEntry cxsPrice) none (cxs.lookup a)) (cxs.map Prod.fst) = .ok acc := by
  simpa [newKeys] using foldlM_upsert (fun _ => cxsEntry cxsPrice) hc List.nodup_nil (l := []) (r := acc)

/-- After the CXS loop, the NEXTEP loop's entry at every address is `walletEntry`. -/
theorem merged_eq_walletEntry (hc : (cxs.map Prod.fst).Nodup) {acc : List (String × Combined)}
    (hacc : entriesAt (fun a => merged (fun _ => cxsEntry cxsPrice) none (cxs.lookup a)) (cxs.map Prod.fst) =
      .ok acc) :
    (fun a => merged (nextepEntry nextepPrice) (acc.lookup a) (nextep.lookup a)) =
      fun a => walletEntry cxsPrice nextepPrice (cxs.lookup a) (nextep.lookup a) := by
  obtain ⟨hk, -⟩ := entriesAt_eq_ok.mp hacc
  funext a
  by_cases ha : a ∈ cxs.map Prod.fst
  · obtain ⟨b, -, hb⟩ := exists_lookup ha
    obtain ⟨c, hm, hcx⟩ := ok_of_entriesAt_eq_ok hacc ha
    rw [hb, walletEntry_some, lookup_of_mem (hk ▸ hc) hm]
    simp only [merged, hb] at hcx
    rw [hcx]
    rfl
  · rw [lookup_of_not_mem ha, lookup_of_not_mem (hk ▸ ha), walletEntry_none]

/-- The two loops together: the union of the addresses, each with its `walletEntry`. -/
theorem combineWalletValues_eq_ok (hc : (cxs.map Prod.fst).Nodup) (hn : (nextep.map Prod.fst).Nodup)
    (r : List (String × Combined)) :
    combineWalletValues cxs nextep cxsPrice nextepPrice = .ok r ↔
      entriesAt (fun a => walletEntry cxsPrice nextepPrice (cxs.lookup a) (nextep.lookup a))
        (unionKeys cxs nextep) = .ok r := by
  unfold combineWalletValues
  cases hp : cxs.foldlM (upsert fun _ => cxsEntry cxsPrice) [] with
  | error e =>
    refine ⟨nofun, fun h => ?_⟩
    obtain ⟨acc, hacc⟩ : ∃ acc, entriesAt (fun a => merged (fun _ => cxsEntry cxsPrice) none (cxs.lookup a))
        (cxs.map Prod.fst) = .ok acc := by
      refine entriesAt_exists_ok fun a ha => ?_
      obtain ⟨b, -, hb⟩ := exists_lookup ha
      obtain ⟨c, -, hw⟩ := ok_of_entriesAt_eq_ok h (List.mem_append_left _ ha)
      rw [hb, walletEntry_some] at hw
      obtain ⟨c', hc', -⟩ := bind_eq_ok hw
      exact ⟨c', by rw [hb]; exact hc'⟩
    have := (foldlM_cxsEntry cxsPrice hc acc).mpr hacc
    rw [hp] at this
    cases this
  | ok acc =>
    have hacc := (foldlM_cxsEntry cxsPrice hc acc).mp hp
    obtain ⟨hk, -⟩ := entriesAt_eq_ok.mp hacc
    change nextep.foldlM (upsert (nextepEntry nextepPrice)) acc = .ok r ↔ _
    rw [foldlM_upsert _ hn (hk ▸ hc), merged_eq_walletEntry cxsPrice nextepPrice hc hacc, hk]
    rfl

/-- **The combination is the union of the two files.** Over two files of distinct addresses,
`combine_wallet_values` returns a dictionary exactly when every address of either file has a `walletEntry`, and
then the dictionary lists the CXS file's addresses in order followed by the NEXTEP addresses the CXS file lacks,
each with its `walletEntry`: its two balances, their values at the two prices, and as total the one value or the
sum of both. -/
theorem combineWalletValues_spec (hc : (cxs.map Prod.fst).Nodup) (hn : (nextep.map Prod.fst).Nodup)
    (r : List (String × Combined)) :
    combineWalletValues cxs nextep cxsPrice nextepPrice = .ok r ↔
      r.map Prod.fst = unionKeys cxs nextep ∧
        ∀ a c, (a, c) ∈ r → walletEntry cxsPrice nextepPrice (cxs.lookup a) (nextep.lookup a) = .ok c := by
  rw [combineWalletValues_eq_ok cxsPrice nextepPrice hc hn, entriesAt_eq_ok]

/-- `0xb` is in both files and `0xc` only in the NEXTEP file, without a balance. -/
theorem combineWalletValues_spec_overlap :
    let cxs : List (String × Option PyDecimal) := [("0xa", some (.ofInt 1)), ("0xb", some (.ofInt 2))]
    let nextep : List (String × Option PyDecimal) := [("0xb", some (.ofInt 1)), ("0xc", none)]
    unionKeys cxs nextep = ["0xa", "0xb", "0xc"] ∧
    ∀ r, combineWalletValues cxs nextep (.ofInt 3) (.ofInt 5) = .ok r ↔
      r.map Prod.fst = unionKeys cxs nextep ∧
        ∀ a c, (a, c) ∈ r → walletEntry (.ofInt 3) (.ofInt 5) (cxs.lookup a) (nextep.lookup a) = .ok c := by
  intro cxs nextep
  exact ⟨by decide, combineWalletValues_spec _ _ (by decide) (by decide)⟩

/-- The addresses of the combined file are `unionKeys`. -/
theorem keys_main (hc : (cxs.map Prod.fst).Nodup) (hn : (nextep.map Prod.fst).Nodup)
    {wallets : List (String × PyDecimal)} (h : main cxs nextep cxsPrice nextepPrice = .ok wallets) :
    wallets.map Prod.fst = unionKeys cxs nextep := by
  obtain ⟨combined, hcomb, h⟩ := bind_eq_ok h
  obtain ⟨_, -, h⟩ := bind_eq_ok h
  cases h
  rw [simplifiedWallets, List.map_map]
  exact (entriesAt_eq_ok.mp ((combineWalletValues_eq_ok cxsPrice nextepPrice hc hn combined).mp hcomb)).1

/-- A wallet of the combined file is an address with its `walletEntry`'s total. -/
theorem mem_main (hc : (cxs.map Prod.fst).Nodup) (hn : (nextep.map Prod.fst).Nodup)
    {wallets : List (String × PyDecimal)} (h : main cxs nextep cxsPrice nextepPrice = .ok wallets) {a : String}
    {u : PyDecimal} (hu : (a, u) ∈ wallets) :
    ∃ c, walletEntry cxsPrice nextepPrice (cxs.lookup a) (nextep.lookup a) = .ok c ∧ c.totalUsdValue = u := by
  obtain ⟨combined, hcomb, h⟩ := bind_eq_ok h
  obtain ⟨_, -, h⟩ := bind_eq_ok h
  cases h
  obtain ⟨⟨a', c⟩, hm, he⟩ := List.mem_map.mp hu
  cases he
  obtain ⟨-, hr⟩ := entriesAt_eq_ok.mp ((combineWalletValues_eq_ok cxsPrice nextepPrice hc hn combined).mp hcomb)
  exact ⟨c, hr _ c hm, rfl⟩

end Spec

end RevoMigration.Combine
