import RevoMigration.Pipeline
import RevoMigration.Bridge.Machine
import RevoMigration.Wallets.Extract
import Mathlib.Data.Nat.Digits

/-!
# The prices `combine_wallet_values.py` fetches

Unless both prices are given on the command line, `combine_wallet_values.py` asks `get_token_price` for them, which
runs `fetch_cxs_price.py --token <symbol>` and reads the price from the first line of its output that contains
`USD price`, falling back to `Decimal('0')` on every error (`getTokenPrice`). `fetch_cxs_price.py` prints
`CXS: $… USD`, `NEXTEP: $… USD` and example holdings, and no space of what it prints is followed by a `p`
(`spaceP_main`), so no line contains `USD price`. Whatever the price API answers, and also when the script fails (its
parser has no `--token` option, and exits with status 2), `get_token_price` returns `Decimal('0')`
(`getTokenPrice_eq_zero`).

At prices of zero every USD value is a zero or a NaN (`PyDecimal.ZeroOrNan`), and neither is `> 0`, so no wallet
gets REVO tokens: a migration run without price overrides ends with a genesis that has no account, no balance and a
supply of zero (`migrate_at_fetched_prices`).

`revo_bridge.py` has its own copy of `get_token_price`, which returns an override when it is given
(`Bridge.getTokenPrice`). Without an override for one of the two tokens, the startup check `cxs_price <= 0 or
nextep_price <= 0` stops every lifetime of the bridge before its loop (`StartupInv`): restart after restart, no
deposit is valued, no mint is called and the state file is never written (`lifetimes_at_fetched_prices`).
-/

namespace RevoMigration.FetchCxsPrice

open RevoMigration.Decimal

/-! ## Formatting prices -/

/-- `x < y`: `InvalidOperation` when either is a NaN. -/
def lt (x y : PyDecimal) : Except PyError Bool := (fun b => !b) <$> x.ge y

/-- The decimal digits of a natural number, the most significant first, as `str(n)` writes them. -/
def decimalDigits (n : ℕ) : List Char := (Nat.digits 10 n).reverse.map Nat.digitChar

/-- `format(x, f".{places}f")` of a decimal: the value rounded half-even to `places` decimals, with its sign, at
least one digit before the point, and `NaN` and `Infinity` for the special values. -/
def formatFixed (places : ℕ) : PyDecimal → List Char
  | .nan => "NaN".data
  | .infinity negative => (if negative then "-Infinity" else "Infinity").data
  | .finite x =>
    let digits := decimalDigits (roundHalfEven (|x.val| * 10 ^ places)).toNat
    let padded := List.replicate (places + 1 - digits.length) '0' ++ digits
    (if x.coeff < 0 then ['-'] else []) ++ padded.take (padded.length - places) ++
      (if places = 0 then [] else '.' :: padded.drop (padded.length - places))

/-- `format_price(price_str)`, with `Decimal(price_str)` as `price`: more decimals for smaller prices. -/
def formatPrice (price : PyDecimal) : Except PyError (List Char) := do
  if ← lt price (.finite ⟨1, -4⟩) then pure ('$' :: formatFixed 10 price)
  else if ← lt price (.finite ⟨1, -2⟩) then pure ('$' :: formatFixed 6 price)
  else if ← lt price (.finite ⟨1, 0⟩) then pure ('$' :: formatFixed 4 price)
  else pure ('$' :: formatFixed 2 price)

/-- The amounts of the example holdings, each with `f"{amount:,}"`. -/
def exampleAmounts : List (ℤ × List Char) :=
  [(100, "100".data), (1000, "1,000".data), (10000, "10,000".data), (100000, "100,000".data)]

/-- What `main()` prints once `fetch_prices()` has returned, on the two prices of its answer (each read as a
`Decimal`), or the exception that makes it return 1. -/
def main (cxsPrice nextepPrice : PyDecimal) : Except PyError (List Char) := do
  let cxs ← formatPrice cxsPrice
  let nextep ← formatPrice nextepPrice
  let examples ← exampleAmounts.mapM fun (amount, shown) => do
    let value ← cxsPrice.mul (.ofInt amount)
    pure (shown ++ " CXS = $".data ++ formatFixed 2 value ++ " USD\n".data)
  pure ("\n=== Current Prices ===\nCXS: ".data ++ cxs ++ " USD\nNEXTEP: ".data ++ nextep ++
    " USD\n=====================\n\nExample CXS Holdings Value:\n".data ++ examples.flatten)

/-! ## No space is followed by a `p` -/

/-- Whether a space of the text is followed by a `p`. -/
def spaceP : List Char → Bool
  | [] => false
  | c :: cs => decide (c = ' ' ∧ cs.head? = some 'p') || spaceP cs

theorem spaceP_cons (c : Char) (cs : List Char) :
    spaceP (c :: cs) = true ↔ (c = ' ' ∧ cs.head? = some 'p') ∨ spaceP cs = true := by
  simp [spaceP]

/-- A space followed by a `p` in two texts put together is in one of them or where they meet. -/
theorem spaceP_append {a b : List Char} (h : spaceP (a ++ b) = true) :
    spaceP a = true ∨ spaceP b = true ∨ (a.getLast? = some ' ' ∧ b.head? = some 'p') := by
  induction a with
  | nil => exact .inr (.inl h)
  | cons c a ih =>
    rw [List.cons_append, spaceP_cons] at h
    rcases h with ⟨rfl, hp⟩ | h
    · cases a with
      | nil => exact .inr (.inr ⟨rfl, hp⟩)
      | cons d a => exact .inl ((spaceP_cons _ _).mpr (.inl ⟨rfl, by simpa using hp⟩))
    · rcases ih h with ha | hb | ⟨hl, hh⟩
      · exact .inl ((spaceP_cons _ _).mpr (.inr ha))
      · exact .inr (.inl hb)
      · cases a with
        | nil => cases hl
        | cons d a => exact .inr (.inr ⟨by rw [List.getLast?_cons_cons]; exact hl, hh⟩)

theorem spaceP_append_of_last {a b : List Char} (ha : spaceP a = false) (hlast : a.getLast? ≠ some ' ')
    (hb : spaceP b = false) : spaceP (a ++ b) = false :=
  Bool.eq_false_iff.mpr fun h => by rcases spaceP_append h with h | h | ⟨h, -⟩ <;> simp_all

theorem spaceP_append_of_head {a b : List Char} (ha : spaceP a = false) (hhead : b.head? ≠ some 'p')
    (hb : spaceP b = false) : spaceP (a ++ b) = false :=
  Bool.eq_false_iff.mpr fun h => by rcases spaceP_append h with h | h | ⟨-, h⟩ <;> simp_all

theorem spaceP_of_contains {s : List Char} (h : [' ', 'p'] <:+: s) : spaceP s = true := by
  obtain ⟨s₁, s₂, rfl⟩ := h
  induction s₁ with
  | nil => simp [spaceP]
  | cons c s₁ ih => exact (spaceP_cons _ _).mpr (.inr ih)

theorem spaceP_of_not_mem {s : List Char} (h : ' ' ∉ s) : spaceP s = false := by
  induction s with
  | nil => rfl
  | cons c s ih =>
    rw [List.mem_cons, not_or] at h
    simp [spaceP, ih h.2, Ne.symm h.1]

theorem space_not_mem_decimalDigits (n : ℕ) : ' ' ∉ decimalDigits n := by
  simp only [decimalDigits, List.mem_map, List.mem_reverse, not_exists, not_and]
  intro d hd
  have := Nat.digits_lt_base (by norm_num) hd
  interval_cases d <;> decide

theorem space_not_mem_formatFixed (places : ℕ) (x : PyDecimal) : ' ' ∉ formatFixed places x := by
  cases x with
  | nan => simp only [formatFixed]; decide
  | infinity negative => cases negative <;> simp only [formatFixed] <;> decide
  | finite x =>
    have hd := space_not_mem_decimalDigits (roundHalfEven (|x.val| * 10 ^ places)).toNat
    have hpad : ' ' ∉ List.replicate (places + 1 -
        (decimalDigits (roundHalfEven (|x.val| * 10 ^ places)).toNat).length) '0' ++
        decimalDigits (roundHalfEven (|x.val| * 10 ^ places)).toNat := by
      simp [List.mem_replicate, hd]
    simp only [formatFixed, List.mem_append, not_or]
    refine ⟨⟨by split_ifs <;> simp, fun h => hpad (List.mem_of_mem_take h)⟩, ?_⟩
    split_ifs
    · simp
    · simpa using fun h => hpad (List.mem_of_mem_drop h)

theorem spaceP_formatFixed (places : ℕ) (x : PyDecimal) : spaceP (formatFixed places x) = false :=
  spaceP_of_not_mem (space_not_mem_formatFixed places x)

theorem spaceP_formatPrice {price : PyDecimal} {text : List Char} (h : formatPrice price = .ok text) :
    spaceP text = false ∧ text.head? = some '$' := by
  unfold formatPrice at h
  obtain ⟨b, -, h⟩ := bind_eq_ok h
  have hfix : ∀ places, spaceP ('$' :: formatFixed places price) = false ∧
      ('$' :: formatFixed places price).head? = some '$' := fun places =>
    ⟨spaceP_append_of_last (a := ['$']) rfl (by decide) (spaceP_formatFixed places price), rfl⟩
  split_ifs at h
  · cases h; exact hfix 10
  · obtain ⟨b', -, h⟩ := bind_eq_ok h
    split_ifs at h
    · cases h; exact hfix 6
    · obtain ⟨b'', -, h⟩ := bind_eq_ok h
      split_ifs at h
      · cases h; exact hfix 4
      · cases h; exact hfix 2

theorem exists_of_mapM_eq_ok {α β ε : Type} {f : α → Except ε β} :
    ∀ {xs : List α} {ys : List β}, xs.mapM f = .ok ys → ∀ y ∈ ys, ∃ x ∈ xs, f x = .ok y
  | [], _, h, _, hy => by cases h; cases hy
  | x :: xs, ys, h, y, hy => by
    rw [List.mapM_cons] at h
    obtain ⟨y', hy', h⟩ := bind_eq_ok h
    obtain ⟨ys', hys', h⟩ := bind_eq_ok h
    cases h
    rcases List.mem_cons.mp hy with rfl | hy
    · exact ⟨x, List.mem_cons_self x xs, hy'⟩
    · obtain ⟨x', hx', hfx⟩ := exists_of_mapM_eq_ok hys' y hy
      exact ⟨x', List.mem_cons_of_mem x hx', hfx⟩

theorem spaceP_flatten {ls : List (List Char)} (h : ∀ l ∈ ls, spaceP l = false ∧ l.getLast? ≠ some ' ') :
    spaceP ls.flatten = false := by
  induction ls with
  | nil => rfl
  | cons l ls ih =>
    rw [List.flatten_cons]
    obtain ⟨hl, hlast⟩ := h l (List.mem_cons_self l ls)
    exact spaceP_append_of_last hl hlast (ih fun l' hl' => h l' (List.mem_cons_of_mem l hl'))

theorem head?_append_ne {a b : List Char} {c : Char} (h : a.head? = some c) (hc : c ≠ 'p') :
    (a ++ b).head? ≠ some 'p' := by
  rw [List.head?_append, h]
  simpa using hc

theorem getLast?_append_eq {a b : List Char} {c : Char} (h : b.getLast? = some c) : (a ++ b).getLast? = some c := by
  rw [List.getLast?_append, h]
  rfl

/-- **No space `main` prints is followed by a `p`.** -/
theorem spaceP_main {cxsPrice nextepPrice : PyDecimal} {stdout : List Char}
    (h : main cxsPrice nextepPrice = .ok stdout) : spaceP stdout = false := by
  obtain ⟨cxs, hcxs, h⟩ := bind_eq_ok h
  obtain ⟨nextep, hnep, h⟩ := bind_eq_ok h
  obtain ⟨examples, hex, h⟩ := bind_eq_ok h
  cases h
  have hshown : ∀ x ∈ exampleAmounts, spaceP x.2 = false ∧ x.2.getLast? ≠ some ' ' := by decide
  have hexamples : ∀ l ∈ examples, spaceP l = false ∧ l.getLast? ≠ some ' ' := by
    intro l hl
    obtain ⟨⟨amount, shown⟩, hx, hl⟩ := exists_of_mapM_eq_ok hex l hl
    obtain ⟨value, -, hl⟩ := bind_eq_ok hl
    cases hl
    obtain ⟨hs, hs'⟩ := hshown _ hx
    refine ⟨?_, by rw [getLast?_append_eq (c := '\n') (by decide)]; decide⟩
    simp only [List.append_assoc]
    exact spaceP_append_of_last hs hs' (spaceP_append_of_last (by decide) (by decide)
      (spaceP_append_of_head (spaceP_formatFixed 2 value) (by decide) (by decide)))
  obtain ⟨hc, hc'⟩ := spaceP_formatPrice hcxs
  obtain ⟨hn, hn'⟩ := spaceP_formatPrice hnep
  simp only [List.append_assoc]
  refine spaceP_append_of_head (by decide) (head?_append_ne hc' (by decide))
    (spaceP_append_of_head hc (head?_append_ne (c := ' ') (by decide) (by decide)) ?_)
  refine spaceP_append_of_head (by decide) (head?_append_ne hn' (by decide))
    (spaceP_append_of_head hn (head?_append_ne (c := ' ') (by decide) (by decide)) ?_)
  exact spaceP_append_of_last (by decide) (by decide) (spaceP_flatten hexamples)

end RevoMigration.FetchCxsPrice

namespace RevoMigration.Combine

open RevoMigration.Decimal RevoMigration.FetchCxsPrice
open RevoMigration.Wallets (pyStrip pyIsSpace)

/-! ## `get_token_price` -/

/-- How `subprocess.run([...], capture_output=True, text=True, check=True)` ends: it raises before the child exits
(no `python` to run), or the child exits with its return code and what it wrote to its standard output. -/
inductive Run
  | raised
  | exited (returncode : ℤ) (stdout : List Char)
deriving DecidableEq, Repr

/-- `get_token_price(token_symbol)` on the run of `python fetch_cxs_price.py --token <symbol>`, with `Decimal(...)` of
a text as `parseDecimal`: the price after the first `:` of the first line of the stripped output that contains
`USD price`, and `Decimal('0')` when the run raises or fails (`check=True`), when no line contains `USD price`, when
that line has no `:`, and when the text after it is no decimal. -/
def getTokenPrice (parseDecimal : List Char → Except PyError PyDecimal) : Run → PyDecimal
  | .raised => .ofInt 0
  | .exited returncode stdout =>
    if returncode ≠ 0 then .ofInt 0
    else
      match ((pyStrip stdout).splitOn '\n').filter fun line => decide ("USD price".data <:+: line) with
      | [] => .ofInt 0
      | priceLine :: _ =>
        match (priceLine.splitOn ':')[1]? with
        | none => .ofInt 0
        | some priceStr =>
          match parseDecimal (pyStrip priceStr) with
          | .ok price => price
          | .error _ => .ofInt 0

/-- What the child `python fetch_cxs_price.py --token <symbol>` can do: raise in `subprocess.run`, exit with a
non-zero status (its parser knows no `--token` and exits with status 2; `main` returns 1 on an exception), or exit
with status 0 once `main` has printed the two prices of the API's answer. -/
inductive Outcome : Run → Prop
  | raised : Outcome .raised
  | failed {returncode : ℤ} (stdout : List Char) (h : returncode ≠ 0) : Outcome (.exited returncode stdout)
  | completed {cxsPrice nextepPrice : PyDecimal} {stdout : List Char}
      (h : FetchCxsPrice.main cxsPrice nextepPrice = .ok stdout) : Outcome (.exited 0 stdout)

theorem mem_intersperse {α : Type} {sep a : α} : ∀ {l : List α}, a ∈ l → a ∈ l.intersperse sep
  | [], h => absurd h (List.not_mem_nil a)
  | [_], h => h
  | _ :: _ :: _, h => by
    rw [List.intersperse_cons₂]
    rcases List.mem_cons.mp h with rfl | h
    · exact List.mem_cons_self _ _
    · exact List.mem_cons_of_mem _ (List.mem_cons_of_mem _ (mem_intersperse h))

/-- Every line of `s.split(c)` is a piece of `s`. -/
theorem infix_of_mem_splitOn {c : Char} {s line : List Char} (h : line ∈ s.splitOn c) : line <:+: s := by
  have hs : [c].intercalate (s.splitOn c) = s := List.intercalate_splitOn s c
  rw [← hs]
  exact List.infix_of_mem_flatten (mem_intersperse h)

theorem pyStrip_contained (s : List Char) : pyStrip s <:+: s := by
  have h : pyStrip s <+: s.dropWhile pyIsSpace := by
    simpa [pyStrip] using List.reverse_prefix.mpr (List.dropWhile_suffix pyIsSpace (l := (s.dropWhile pyIsSpace).reverse))
  exact h.isInfix.trans (List.dropWhile_suffix pyIsSpace).isInfix

/-- No piece of what `main` prints contains `USD price`. -/
theorem not_usdPrice_of_main {cxsPrice nextepPrice : PyDecimal} {stdout line : List Char}
    (h : FetchCxsPrice.main cxsPrice nextepPrice = .ok stdout) (hl : line <:+: stdout) :
    ¬"USD price".data <:+: line := fun hp =>
  Bool.eq_false_iff.mp (spaceP_main h) (spaceP_of_contains (((by decide : [' ', 'p'] <:+: "USD price".data).trans hp).trans hl))

/-- **`get_token_price` returns `Decimal('0')`**, whatever the child does. -/
theorem getTokenPrice_eq_zero (parseDecimal : List Char → Except PyError PyDecimal) {run : Run} (h : Outcome run) :
    getTokenPrice parseDecimal run = .ofInt 0 := by
  cases h with
  | raised => rfl
  | failed stdout h => simp [getTokenPrice, h]
  | completed h =>
    have hnone : ((pyStrip _).splitOn '\n').filter (fun line => decide ("USD price".data <:+: line)) = [] :=
      List.filter_eq_nil_iff.mpr fun line hl => by
        simpa using not_usdPrice_of_main h ((infix_of_mem_splitOn hl).trans (pyStrip_contained _))
    simp [getTokenPrice, hnone]

end RevoMigration.Combine

namespace RevoMigration.Decimal.PyDecimal

/-! ## Values at a price of zero -/

/-- A zero or a NaN: what a balance is worth at a price of zero. -/
def ZeroOrNan : PyDecimal → Prop
  | .finite x => x.coeff = 0
  | .infinity _ => False
  | .nan => True

theorem zeroOrNan_of_val {e : Except PyError Dec} (he : Dec.val <$> e = fixQ 0) {z : PyDecimal}
    (h : finite <$> e = .ok z) : ZeroOrNan z := by
  obtain ⟨d, rfl, hd⟩ := Pipeline.finite_of_map_eq_ok he h
  exact Dec.val_eq_zero.mp (hd.trans roundQ_zero)

namespace ZeroOrNan

theorem mul_left {x : PyDecimal} (hx : ZeroOrNan x) (y : PyDecimal) {z : PyDecimal} (h : x.mul y = .ok z) :
    ZeroOrNan z := by
  cases x with
  | infinity => cases hx
  | nan => cases y <;> cases h <;> trivial
  | finite x =>
    cases y with
    | infinity => simp [PyDecimal.mul, show x.coeff = 0 from hx] at h
    | nan => cases h; trivial
    | finite y =>
      exact zeroOrNan_of_val (e := x.mul y) (by rw [Dec.mul_val, Dec.val_eq_zero.mpr hx, zero_mul]) h

theorem mul_right (x : PyDecimal) {y : PyDecimal} (hy : ZeroOrNan y) {z : PyDecimal} (h : x.mul y = .ok z) :
    ZeroOrNan z := by
  cases y with
  | infinity => cases hy
  | nan => cases x <;> cases h <;> trivial
  | finite y =>
    cases x with
    | infinity => simp [PyDecimal.mul, show y.coeff = 0 from hy] at h
    | nan => cases h; trivial
    | finite x =>
      exact zeroOrNan_of_val (e := x.mul y) (by rw [Dec.mul_val, Dec.val_eq_zero.mpr hy, mul_zero]) h

theorem add {x y z : PyDecimal} (hx : ZeroOrNan x) (hy : ZeroOrNan y) (h : x.add y = .ok z) : ZeroOrNan z := by
  cases x with
  | infinity => cases hx
  | nan => cases y <;> cases h <;> trivial
  | finite x =>
    cases y with
    | infinity => cases hy
    | nan => cases h; trivial
    | finite y =>
      exact zeroOrNan_of_val (e := x.add y)
        (by rw [Dec.add_val, Dec.val_eq_zero.mpr hx, Dec.val_eq_zero.mpr hy, add_zero]) h

theorem div {x : PyDecimal} (hx : ZeroOrNan x) (y : PyDecimal) {z : PyDecimal} (h : x.div y = .ok z) :
    ZeroOrNan z := by
  cases x with
  | infinity => cases hx
  | nan => cases y <;> cases h <;> trivial
  | finite x =>
    cases y with
    | infinity => cases h; rfl
    | nan => cases h; trivial
    | finite y =>
      by_cases hy : y.coeff = 0
      · simp [Dec.div, hy] at h
      · exact zeroOrNan_of_val (e := x.div y) (by rw [Dec.div_val x hy, Dec.val_eq_zero.mpr hx, zero_div]) h

theorem toInt_eq {x : PyDecimal} (hx : ZeroOrNan x) {n : ℤ} (h : x.toInt = .ok n) : n = 0 := by
  cases x with
  | infinity => cases hx
  | nan => cases h
  | finite x =>
    cases h
    simp [Dec.toInt, show x.coeff = 0 from hx]

/-- A zero or a NaN is not `> 0`: a zero is not, and a NaN raises. -/
theorem not_funded {x : PyDecimal} (hx : ZeroOrNan x) : Genesis.funded x ≠ .ok true := by
  cases x with
  | infinity => cases hx
  | nan => simp [Genesis.funded, compareZero]
  | finite x =>
    simp only [Genesis.funded, compareZero, show x.coeff = 0 from hx]
    decide

end ZeroOrNan

end RevoMigration.Decimal.PyDecimal

namespace RevoMigration.Pipeline

open RevoMigration.Decimal RevoMigration.Decimal.PyDecimal RevoMigration.Combine RevoMigration.Genesis

/-! ## The migration at the fetched prices -/

/-- At prices of zero, the total of an entry is a zero or a NaN. -/
theorem total_of_walletEntry_zero {cb nb : Option (Option PyDecimal)} {c : Combined}
    (h : walletEntry (.ofInt 0) (.ofInt 0) cb nb = .ok c) : ZeroOrNan c.totalUsdValue := by
  have hzero : ZeroOrNan (.ofInt 0) := rfl
  rcases walletEntry_total _ _ h with ⟨-, -, ht⟩ | ⟨b, -, -, hu⟩ | ⟨b', -, -, hu'⟩ | ⟨b, b', u, u', -, -, hu, hu', ht⟩
  · exact ht ▸ hzero
  · exact hzero.mul_right _ hu
  · exact hzero.mul_right _ hu'
  · exact (hzero.mul_right _ hu).add (hzero.mul_right _ hu') ht

theorem convertToBaseUnits_of_zeroOrNan {x : PyDecimal} (hx : ZeroOrNan x) {decimals n : ℤ}
    (h : convertToBaseUnits x decimals = .ok n) : n = 0 := by
  obtain ⟨m, -, h⟩ := bind_eq_ok h
  obtain ⟨u, hu, h⟩ := bind_eq_ok h
  exact (hx.mul_left m hu).toInt_eq h

section Migrate

variable {cxs nextep : List (String × Option PyDecimal)} {revoPrice minUsd minRevo : PyDecimal} {decimals : ℤ}
  {g : GenesisConfig}

/-- At CXS and NEXTEP prices of zero, no address gets REVO: the genesis has no account, no balance and a supply of
zero. -/
theorem genesis_at_zero_prices (hc : (cxs.map Prod.fst).Nodup) (hn : (nextep.map Prod.fst).Nodup)
    (h : migrate cxs nextep (.ofInt 0) (.ofInt 0) revoPrice minUsd minRevo decimals = .ok (some g)) :
    g.accounts = [] ∧ g.balances = [] ∧ g.supply = 0 := by
  obtain ⟨wallets, hgen, hw⟩ := genesisInput_of_migrate hc hn h
  have hnone : fundedWallets wallets = [] := List.filter_eq_nil_iff.mpr fun w hw' => by
    obtain ⟨c, hentry, -, hdiv, -⟩ := hw w.1 w.2 hw'
    simpa using ((total_of_walletEntry_zero hentry).div revoPrice hdiv).not_funded
  obtain ⟨hacc, hbal, total, htotal, hsupply⟩ := generateGenesisConfig_spec hgen
  rw [hnone] at hacc hbal htotal
  cases htotal
  exact ⟨hacc, List.forall₂_nil_left_iff.mp hbal, convertToBaseUnits_of_zeroOrNan (show ZeroOrNan (.ofInt 0) from rfl) hsupply⟩

/-- **Without price overrides the genesis is empty.** Over two holder files of distinct addresses, whatever the
price script does when `get_token_price` runs it, and whatever the REVO price, the minimums and the decimals: a
migration whose CXS and NEXTEP prices are those `get_token_price` returns ends, if with a genesis at all, with one
that has no account, no balance and a supply of zero. -/
theorem migrate_at_fetched_prices (hc : (cxs.map Prod.fst).Nodup) (hn : (nextep.map Prod.fst).Nodup)
    (parseDecimal : List Char → Except PyError PyDecimal) {cxsRun nextepRun : Run} (hcr : Outcome cxsRun)
    (hnr : Outcome nextepRun)
    (h : migrate cxs nextep (getTokenPrice parseDecimal cxsRun) (getTokenPrice parseDecimal nextepRun) revoPrice
      minUsd minRevo decimals = .ok (some g)) :
    g.accounts = [] ∧ g.balances = [] ∧ g.supply = 0 := by
  rw [getTokenPrice_eq_zero parseDecimal hcr, getTokenPrice_eq_zero parseDecimal hnr] at h
  exact genesis_at_zero_prices hc hn h

/-- The child exits with status 2, `--token` being no option of its parser: both prices are `Decimal('0')`, and an
address holding 1 CXS and 2 NEXTEP gets no account. -/
theorem migrate_at_fetched_prices_unknown_option :
    migrate [("0xa", some (.ofInt 1))] [("0xa", some (.ofInt 2))]
        (getTokenPrice (fun _ => .error .invalidOperation) (.exited 2 []))
        (getTokenPrice (fun _ => .error .invalidOperation) (.exited 2 [])) (.finite ⟨2, 0⟩) (.ofInt 0) (.ofInt 0) 0 =
      .ok (some ⟨[], [], 0, 10⟩) ∧
    ([] : List String) = [] ∧ ([] : List (String × ℤ)) = [] ∧ (0 : ℤ) = 0 := by
  have hprice : getTokenPrice (fun _ => .error .invalidOperation) (.exited 2 []) = .ofInt 0 := rfl
  have h : migrate [("0xa", some (.ofInt 1))] [("0xa", some (.ofInt 2))]
      (getTokenPrice (fun _ => .error .invalidOperation) (.exited 2 []))
      (getTokenPrice (fun _ => .error .invalidOperation) (.exited 2 [])) (.finite ⟨2, 0⟩) (.ofInt 0) (.ofInt 0) 0 =
      .ok (some ⟨[], [], 0, 10⟩) := by
    rw [hprice]
    decide
  exact ⟨h, migrate_at_fetched_prices (by decide) (by decide) _ (.failed [] (by decide)) (.failed [] (by decide)) h⟩

end Migrate

end RevoMigration.Pipeline

namespace RevoMigration.Bridge

open RevoMigration.Decimal
open RevoMigration.Combine (Run Outcome getTokenPrice_eq_zero)

/-! ## The bridge at the fetched prices -/

/-- `get_token_price(token_symbol, price_override)` of `revo_bridge.py`: `Decimal(str(price_override))` of an
override, and otherwise the lines of `get_token_price` of `combine_wallet_values.py`, word for word, on the run of
the price script. -/
def getTokenPrice (parseDecimal : List Char → Except PyError PyDecimal) (priceOverride : Option PyDecimal)
    (result : Run) : PyDecimal :=
  match priceOverride with
  | some price => price
  | none => Combine.getTokenPrice parseDecimal result

/-- What the places of the startup require of a lifetime whose price inputs are `Decimal('0')`: a price read
without override is zero. The loop's places are not reached. -/
def StartupAt (cfg : Config) (m : Machine) : Pc → Prop
  | .connect | .priceCxs | .stopped _ | .crashed => True
  | .priceNextep => cfg.cxsPrice = none → m.cxsPrice = .ofInt 0
  | .checkPrices => (cfg.cxsPrice = none → m.cxsPrice = .ofInt 0) ∧ (cfg.nextepPrice = none → m.nextepPrice = .ofInt 0)
  | _ => False

/-- A lifetime that has not left the startup: it has done nothing and written nothing. -/
structure StartupInv (cfg : Config) (file : StateFile) (m : Machine) : Prop where
  at_pc : StartupAt cfg m m.pc
  trace : m.trace = []
  file : m.file = file

theorem startupInv_init (cfg : Config) (file : StateFile) : StartupInv cfg file (Machine.init file) :=
  ⟨trivial, rfl, rfl⟩

/-- A price of zero stops the process at the checks, or a NaN override crashes it. -/
theorem checkPrices_of_zero (cfg : Config) {c n : PyDecimal} (h : c = .ofInt 0 ∨ n = .ofInt 0) :
    checkPrices cfg c n = .crashed ∨ checkPrices cfg c n = .stopped 1 := by
  unfold checkPrices
  rcases h with rfl | rfl
  · exact .inr rfl
  · split
    · exact .inl rfl
    · split
      · exact .inr rfl
      · exact .inr rfl

section Startup

variable {cfg : Config} (hcfg : cfg.cxsPrice = none ∨ cfg.nextepPrice = none)
include hcfg

theorem startupInv_next {file : StateFile} {m m' : Machine} {i : Input} (hi : StartupInv cfg file m)
    (hp : ∀ p, i = .price p → p = .ofInt 0) (hn : Next cfg m i m') : StartupInv cfg file m' := by
  obtain ⟨hs, ht, hf⟩ := hi
  cases hn with
  | stay => exact ⟨hs, ht, hf⟩
  | signal _ => exact ⟨hs, ht, hf⟩
  | goto h =>
    refine ⟨?_, ht, hf⟩
    cases h with
    | connect ok _ => split <;> trivial
    | checkPrices hpc =>
      rw [hpc] at hs
      have hzero : m.cxsPrice = .ofInt 0 ∨ m.nextepPrice = .ofInt 0 := hcfg.imp hs.1 hs.2
      rcases checkPrices_of_zero cfg hzero with h | h <;> simp only [Machine.goto_pc, h] <;> trivial
    | crash _ => trivial
    | _ => simp_all [StartupAt]
  | cxsPrice p h =>
    refine ⟨?_, ht, hf⟩
    rcases h with ⟨-, rfl, ⟨-, hov⟩ | ⟨rfl, -⟩⟩ | ⟨hpc, -⟩
    · exact fun hnone => absurd (hnone.symm.trans hov) (by simp)
    · exact fun _ => hp p rfl
    · simp_all [StartupAt]
  | nextepPrice q h =>
    refine ⟨?_, ht, hf⟩
    rcases h with ⟨hpc, rfl, ⟨-, hov⟩ | ⟨rfl, -⟩⟩ | ⟨hpc, -⟩
    · rw [hpc] at hs
      exact ⟨hs, fun hnone => absurd (hnone.symm.trans hov) (by simp)⟩
    · rw [hpc] at hs
      exact ⟨hs, fun _ => hp q rfl⟩
    · simp_all [StartupAt]
  | valuate hpc _ _ => simp_all [StartupAt]
  | mint r hpc => simp_all [StartupAt]
  | save r hpc => simp_all [StartupAt]
  | finalSave r hpc => simp_all [StartupAt]

theorem startupInv_run (file : StateFile) {m : Machine} (inputs : List Input)
    (hp : ∀ p, Input.price p ∈ inputs → p = .ofInt 0) (hm : StartupInv cfg file m) :
    StartupInv cfg file (run cfg m inputs) := by
  induction inputs generalizing m with
  | nil => exact hm
  | cons i is ih =>
    exact ih (fun p h => hp p (List.mem_cons_of_mem i h))
      (startupInv_next hcfg hm (fun p h => hp p (h ▸ List.mem_cons_self i is)) (step_next cfg m i))

/-- **Without an override the bridge does nothing.** When `--cxs-price` or `--nextep-price` is not given, and the
prices the bridge fetches are those `get_token_price` returns, whatever the price script, the RPC node, the mint
command and the signals do: every lifetime of the bridge, restart after restart, stops at startup having valued
no deposit, called no mint and saved nothing, and each one loads the state file the first one found. -/
theorem lifetimes_at_fetched_prices (file : StateFile) (inputss : List (List Input))
    (hprices : ∀ inputs ∈ inputss, ∀ p, Input.price p ∈ inputs →
      ∃ parseDecimal result, Outcome result ∧ p = getTokenPrice parseDecimal none result) :
    ∀ l ∈ lifetimes cfg file inputss, l.1 = file ∧ l.2.trace = [] ∧ l.2.file = file := by
  induction inputss with
  | nil => intro l hl; cases hl
  | cons inputs rest ih =>
    intro l hl
    have hzero : ∀ p, Input.price p ∈ inputs → p = .ofInt 0 := fun p hp => by
      obtain ⟨parseDecimal, result, hr, rfl⟩ := hprices inputs (List.mem_cons_self _ _) p hp
      exact getTokenPrice_eq_zero parseDecimal hr
    have hinv := startupInv_run hcfg file inputs hzero (startupInv_init cfg file)
    simp only [lifetimes, hinv.file] at hl
    rcases List.mem_cons.mp hl with rfl | hl
    · exact ⟨rfl, hinv.trace, hinv.file⟩
    · exact ih (fun inputs h => hprices inputs (List.mem_cons_of_mem _ h)) l hl

end Startup

/-- Two lifetimes without overrides, the price script exiting with status 2: the first reads both prices and stops
at the checks, the second is killed while it reads the NEXTEP price; the state file is never written. -/
theorem lifetimes_at_fetched_prices_unknown_option :
    let cfg : Config := ⟨"0xb", .finite ⟨1, 0⟩, none, none, 60, 12, 100⟩
    let price := getTokenPrice (fun _ => .error .invalidOperation) none (.exited 2 [])
    let inputss := [[.connected true, .price price, .price price, .tick, .head 13], [.connected true, .price price]]
    (lifetimes cfg .absent inputss).map (fun l => (l.1, l.2.pc)) = [(.absent, .stopped 1), (.absent, .priceNextep)] ∧
      ∀ l ∈ lifetimes cfg .absent inputss, l.1 = .absent ∧ l.2.trace = [] ∧ l.2.file = .absent := by
  intro cfg price inputss
  refine ⟨by decide, lifetimes_at_fetched_prices (.inl rfl) .absent inputss fun inputs hinputs p hp => ?_⟩
  have hprice : p = price := by
    simp only [inputss, List.mem_cons, List.mem_singleton, List.not_mem_nil, or_false] at hinputs
    rcases hinputs with rfl | rfl <;> simpa using hp
  exact ⟨_, _, .failed [] (by decide), hprice⟩

end RevoMigration.Bridge

