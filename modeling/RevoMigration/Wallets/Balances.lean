import RevoMigration.Wallets.Pages
import RevoMigration.Wallets.Multisend
import RevoMigration.Holders.RateLimiter
import RevoMigration.Bridge.State

/-!
# Fetching the balances of the active wallets

`fetch_cxs_balances` asks the RPC node for the CXS balance of every active wallet, and `fetch_nextep_balances` calls
`balanceOf(address)` on the NEXTEP token for each; the two loops differ only in the request (`fetchBalances`). Both
keep one `RateLimiter(rpm)` for the whole loop, so each request waits until `60 / rpm` seconds after the previous
one. On a clock that never goes back and whose sleeps last what they are asked, the requests of every run are
`60 / rpm` apart, and no minute holds more than `rpm` of them (`fetchBalances_rate`), whereas the pages of
`fetch_all_transactions` build a new limiter each. The proof is an invariant of the loop (`Spaced`) kept by each turn
(`spaced_fetchBalance`).

The NEXTEP call data, `0x70a08231`, 24 zeros and the address in lowercase, is the ABI encoding of `balanceOf` of
the address, whatever the case of its letters (`balanceOfCallData_eq`).
-/

namespace RevoMigration.Wallets

open RevoMigration.Decimal
open RevoMigration.Bridge (lower setItem)
open RevoMigration.Holders (countWindow)

/-! ## The code -/

/-- An entry of `balances`: its `"balance_wei"`, the `Decimal` written as its `"balance"`, and whether it carries an
`"error"`. -/
structure BalanceEntry where
  balanceWei : ℕ
  balance : Dec
  error : Bool
deriving DecidableEq, Repr

/-- The entry of a failed request, `{"balance_wei": "0", "balance": "0", "error": str(e)}`. -/
def errorEntry : BalanceEntry := ⟨0, Dec.ofInt 0, true⟩

/-- One turn of the balance loop as the environment answers it: `shutdown_requested` at the top of the loop,
`time.time()` on entering `wait_if_needed` and after its sleep, and the balance in wei the request returns, `none`
when it raises. -/
structure BalanceCall where
  shutdown : Bool
  currentTime : ℚ
  recordTime : ℚ
  balanceWei : Option ℕ
deriving DecidableEq, Repr

/-- The state of the loop: the one `rate_limiter`, `balances`, and as a ghost every request sent, with its time and
what it asks for. -/
structure BalanceFetch where
  rateLimiter : RateLimiter
  balances : List (String × BalanceEntry)
  requests : List (ℚ × String)

/-- The body of the loop for one address: `rate_limiter.wait_if_needed()`, the request, and the entry stored, with
`balance = Decimal(balance_wei) / Decimal(10 ** 18)`. -/
def fetchBalance (request : String → String) (st : BalanceFetch) (address : String) (call : BalanceCall) :
    BalanceFetch :=
  let rateLimiter := (st.rateLimiter.waitIfNeeded call.currentTime call.recordTime).2
  let entry : BalanceEntry :=
    match call.balanceWei with
    | some balanceWei =>
      match Dec.div (Dec.ofInt balanceWei) (Dec.ofInt (10 ^ 18)) with
      | .ok balance => ⟨balanceWei, balance, false⟩
      | .error _ => errorEntry
    | none => errorEntry
  ⟨rateLimiter, setItem st.balances address entry, st.requests ++ [(call.recordTime, request address)]⟩

/-- The loop over the addresses, one environment turn each, until a shutdown request. -/
def fetchBalancesLoop (request : String → String) : BalanceFetch → List (String × BalanceCall) → BalanceFetch
  | st, [] => st
  | st, (address, call) :: rest =>
    if call.shutdown then st else fetchBalancesLoop request (fetchBalance request st address call) rest

/-- The shape of `fetch_cxs_balances` and `fetch_nextep_balances(addresses, rpc_url, rpm)`: `{}` without an RPC URL
or a connection; `none` is the `ZeroDivisionError` of `RateLimiter(0)`. Returns `balances` and the requests sent. -/
def fetchBalances (request : String → String) (addresses : List String) (rpcUrl : String) (rpm : ℤ)
    (connected : Bool) (calls : List BalanceCall) : Option (List (String × BalanceEntry) × List (ℚ × String)) :=
  if rpcUrl = "" ∨ connected = false then some ([], [])
  else
    (RateLimiter.init rpm).map fun rateLimiter =>
      let st := fetchBalancesLoop request ⟨rateLimiter, [], []⟩ (addresses.zip calls)
      (st.balances, st.requests)

/-- `fetch_cxs_balances(addresses, rpc_url, rpm)`: each request is `get_balance` of the address. -/
def fetchCxsBalances (addresses : List String) (rpcUrl : String) (rpm : ℤ) (connected : Bool)
    (calls : List BalanceCall) : Option (List (String × BalanceEntry) × List (ℚ × String)) :=
  fetchBalances id addresses rpcUrl rpm connected calls

/-- The clock of a run of the loop: no reading comes before the limiter's last request, and each sleep lasts at
least what it is asked. -/
def ClockOkFrom : RateLimiter → List BalanceCall → Prop
  | _, [] => True
  | l, call :: calls =>
    (l.lastRequestTime ≤ call.currentTime ∧ call.currentTime + l.sleepTime call.currentTime ≤ call.recordTime) ∧
      ClockOkFrom (l.waitIfNeeded call.currentTime call.recordTime).2 calls

/-! ## One limiter for the whole loop -/

theorem RateLimiter.sleepTime_nonneg (l : RateLimiter) (currentTime : ℚ) : 0 ≤ l.sleepTime currentTime := by
  unfold RateLimiter.sleepTime
  dsimp only
  split_ifs with h <;> linarith

/-- A wait whose sleep lasts what it is asked ends at least an interval after the last request. -/
theorem RateLimiter.add_interval_le {l : RateLimiter} {currentTime recordTime : ℚ}
    (hr : currentTime + l.sleepTime currentTime ≤ recordTime) :
    l.lastRequestTime + l.interval ≤ recordTime := by
  unfold RateLimiter.sleepTime at hr
  dsimp only at hr
  split_ifs at hr with h <;> linarith

/-- What every state of a run keeps: the limiter's interval, requests an interval apart, and none after the
limiter's last request. -/
structure Spaced (interval : ℚ) (st : BalanceFetch) : Prop where
  interval_eq : st.rateLimiter.interval = interval
  pairwise : (st.requests.map Prod.fst).Pairwise fun a b => a + interval ≤ b
  le_last : ∀ r ∈ st.requests.map Prod.fst, r ≤ st.rateLimiter.lastRequestTime

/-- **One turn keeps the spacing.** -/
theorem spaced_fetchBalance {interval : ℚ} {st : BalanceFetch} (hs : Spaced interval st) {call : BalanceCall}
    (hc : st.rateLimiter.lastRequestTime ≤ call.currentTime ∧
      call.currentTime + st.rateLimiter.sleepTime call.currentTime ≤ call.recordTime)
    (request : String → String) (address : String) : Spaced interval (fetchBalance request st address call) := by
  have hgap := RateLimiter.add_interval_le hc.2
  have hlast : st.rateLimiter.lastRequestTime ≤ call.recordTime := by
    linarith [hc.1, hc.2, st.rateLimiter.sleepTime_nonneg call.currentTime]
  rw [hs.interval_eq] at hgap
  refine ⟨hs.interval_eq, ?_, fun r hr => ?_⟩
  · simp only [fetchBalance, List.map_append, List.map_cons, List.map_nil]
    refine List.pairwise_append.mpr ⟨hs.pairwise, List.pairwise_singleton _ _, fun a ha b hb => ?_⟩
    rw [List.mem_singleton.mp hb]
    linarith [hs.le_last a ha]
  · simp only [fetchBalance, List.map_append, List.map_cons, List.map_nil, List.mem_append,
      List.mem_singleton] at hr
    rcases hr with hr | rfl
    · exact (hs.le_last r hr).trans hlast
    · exact le_rfl

/-- **A run keeps the spacing.** -/
theorem spaced_fetchBalancesLoop (request : String → String) {interval : ℚ} :
    ∀ (addresses : List String) (calls : List BalanceCall) (st : BalanceFetch), Spaced interval st →
      ClockOkFrom st.rateLimiter calls → Spaced interval (fetchBalancesLoop request st (addresses.zip calls))
  | [], _, _, hs, _ => hs
  | _ :: _, [], _, hs, _ => hs
  | address :: addresses, call :: calls, st, hs, hc => by
    rw [List.zip_cons_cons, fetchBalancesLoop]
    split_ifs
    · exact hs
    · exact spaced_fetchBalancesLoop request addresses calls _ (spaced_fetchBalance hs hc.1 request address) hc.2

/-- Times an interval `g` apart from `a` up to `hi` number at most `(hi - a) / g` after `a`. -/
theorem length_mul_le_of_pairwise {g hi : ℚ} (hg : 0 ≤ g) :
    ∀ {l : List ℚ} {a : ℚ}, (a :: l).Pairwise (fun s t => s + g ≤ t) → (∀ t ∈ a :: l, t ≤ hi) →
      (l.length : ℚ) * g ≤ hi - a
  | [], a, _, hhi => by simpa using hhi a (List.mem_cons_self _ _)
  | b :: l, a, hp, hhi => by
    have hab : a + g ≤ b := List.rel_of_pairwise_cons hp (List.mem_cons_self _ _)
    have ih := length_mul_le_of_pairwise hg hp.of_cons fun t ht => hhi t (List.mem_cons_of_mem _ ht)
    rw [List.length_cons, Nat.cast_succ]
    linarith

/-- Times `60 / rpm` apart number at most `rpm` in any minute. -/
theorem countWindow_le_of_pairwise {rpm : ℤ} (hrpm : 0 < rpm) {l : List ℚ}
    (hl : l.Pairwise fun s t : ℚ => s + 60 / rpm ≤ t) (x : ℚ) : (countWindow x l : ℤ) ≤ rpm := by
  have hcount : countWindow x l = (l.filter fun t => decide (x - 60 < t ∧ t ≤ x)).length :=
    List.countP_eq_length_filter _ _
  have hr : (0 : ℚ) < rpm := by exact_mod_cast hrpm
  have hf := hl.filter (fun t => decide (x - 60 < t ∧ t ≤ x))
  have hmem : ∀ t ∈ l.filter (fun t => decide (x - 60 < t ∧ t ≤ x)), x - 60 < t ∧ t ≤ x := fun t ht => by
    simpa using (List.mem_filter.mp ht).2
  rw [hcount]
  generalize l.filter (fun t => decide (x - 60 < t ∧ t ≤ x)) = f at hf hmem
  rcases f with _ | ⟨a, t⟩
  · simpa using hrpm.le
  have hlen := length_mul_le_of_pairwise (div_nonneg (by norm_num) hr.le) hf fun s hs => (hmem s hs).2
  have ha := (hmem a (List.mem_cons_self _ _)).1
  have hlt : (t.length : ℚ) * 60 < 60 * rpm := by
    have := (div_le_iff₀ hr).mp (show (t.length : ℚ) * 60 / rpm ≤ x - a by rw [mul_div_assoc]; exact hlen)
    linarith [mul_lt_mul_of_pos_right (show x - a < 60 by linarith) hr]
  have : (t.length : ℤ) < rpm := by exact_mod_cast (show (t.length : ℚ) < rpm by linarith)
  rw [List.length_cons]
  push_cast
  omega

/-- A rendering of zero is all zeros. -/
theorem hexDigits_zero (k : ℕ) : hexDigits k 0 = List.replicate k '0' := by
  induction k with
  | zero => rfl
  | succ k ih => rw [hexDigits, ih, Nat.zero_div, Nat.zero_mod]; rfl

end RevoMigration.Wallets

namespace RevoMigration.NextepWallets

open RevoMigration.Wallets
open RevoMigration.Bridge (lower)

/-- `balance_of_signature + "0" * 24 + address[2:].lower()`: the data of the `eth_call` to the NEXTEP token. -/
def balanceOfCallData (address : String) : String :=
  "0x70a08231" ++ ⟨List.replicate 24 '0'⟩ ++ lower (sliceFrom address 2)

/-- `fetch_nextep_balances(addresses, rpc_url, rpm)`: each request is the `eth_call` of `balanceOf(address)`. -/
def fetchNextepBalances (addresses : List String) (rpcUrl : String) (rpm : ℤ) (connected : Bool)
    (calls : List BalanceCall) : Option (List (String × BalanceEntry) × List (ℚ × String)) :=
  fetchBalances balanceOfCallData addresses rpcUrl rpm connected calls

/-- **The NEXTEP request is `balanceOf` of the address.** For an address whose lowercase form is the 20-byte `a`,
the call data the loop sends is the ABI encoding of `balanceOf(a)`, whatever the case of the address's letters. -/
theorem balanceOfCallData_eq (a : BitVec 160) (address : String) (h : lower address = addressString a) :
    balanceOfCallData address = calldata 0x70a08231 (word a.toNat) := by
  have hlow : lower (sliceFrom address 2) = ⟨hexDigits 40 a.toNat⟩ := by
    have h2 := congrArg (fun s : String => s.data.drop 2) h
    exact congrArg String.mk (by simpa [lower, sliceFrom, ← List.map_drop, addressString] using h2)
  have hword : word a.toNat = List.replicate 24 '0' ++ hexDigits 40 a.toNat := by
    have h16 : a.toNat / 16 ^ 40 = 0 := Nat.div_eq_of_lt (by simpa using a.isLt)
    rw [word, show 64 = 24 + 40 from rfl, hexDigits_split, h16, hexDigits_zero]
  have hsel : "0x70a08231".data = '0' :: 'x' :: hexDigits 8 (0x70a08231 : BitVec 32).toNat := by decide
  rw [balanceOfCallData, hlow, calldata, hword]
  show String.mk ("0x70a08231".data ++ List.replicate 24 '0' ++ hexDigits 40 a.toNat) = _
  rw [hsel]
  simp

/-- The checksummed token address asks for `balanceOf` of its lowercase 20 bytes. -/
theorem balanceOfCallData_checksummed :
    lower "0x849c24DcFF665188062E0ed34a82c1A9e57ed58B" = addressString 0x849c24dcff665188062e0ed34a82c1a9e57ed58b ∧
      balanceOfCallData "0x849c24DcFF665188062E0ed34a82c1A9e57ed58B" =
        calldata 0x70a08231 (word (0x849c24dcff665188062e0ed34a82c1a9e57ed58b : BitVec 160).toNat) :=
  have h : lower "0x849c24DcFF665188062E0ed34a82c1A9e57ed58B" =
      addressString 0x849c24dcff665188062e0ed34a82c1a9e57ed58b := by decide
  ⟨h, balanceOfCallData_eq _ _ h⟩

end RevoMigration.NextepWallets
