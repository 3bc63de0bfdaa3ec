import Mathlib.Algebra.Order.Ring.Rat
import Mathlib.Data.List.Chain
import Mathlib.Tactic.Linarith
import Mathlib.Tactic.NormNum

/-!
# Fetching the pages of transactions

`fetch_all_transactions` requests pages `1, 2, …` of the transactions API until a short or empty page, a shutdown
request or `max_pages`. Each page goes through `fetch_transactions`, which builds a new `RateLimiter(rpm)` and calls
its `wait_if_needed` before the request. The limiter sleeps only until `60 / rpm` seconds after its
`last_request_time`, and a new limiter's is `0`: once the clock reads `60 / rpm`, it never sleeps
(`RateLimiter.sleepTime_init`). The pages are requested at the times the environment's clock gives
(`fetchPages_requests`), and two pages may go out at the same instant
(`fetchAllTransactions_requests_back_to_back`). `fetch_active_wallets.py` and `fetch_active_wallets_nextep.py`
hold the same text of these functions, so `NextepWallets.fetchAllTransactions` is the same loop.

Clock readings are exact rationals, as in the holders fetcher's limiter.
-/

namespace RevoMigration.Wallets

/-! ## The code -/

/-- `RateLimiter` of the wallet scripts: `interval = 60 / requests_per_minute` and `last_request_time`. -/
structure RateLimiter where
  interval : ℚ
  lastRequestTime : ℚ
deriving DecidableEq, Repr

/-- `RateLimiter(requests_per_minute)`; `60 / 0` raises `ZeroDivisionError`. -/
def RateLimiter.init (requestsPerMinute : ℤ) : Option RateLimiter :=
  if requestsPerMinute = 0 then none else some ⟨60 / requestsPerMinute, 0⟩

/-- How long `wait_if_needed` sleeps when `time.time()` reads `currentTime`. -/
def RateLimiter.sleepTime (l : RateLimiter) (currentTime : ℚ) : ℚ :=
  let timeSinceLastRequest := currentTime - l.lastRequestTime
  if timeSinceLastRequest < l.interval then l.interval - timeSinceLastRequest else 0

/-- `wait_if_needed()` with `time.time()` reading `currentTime` on entry and `recordTime` after the sleep: the
sleep, and the limiter with `last_request_time = recordTime`. -/
def RateLimiter.waitIfNeeded (l : RateLimiter) (currentTime recordTime : ℚ) : ℚ × RateLimiter :=
  (l.sleepTime currentTime, { l with lastRequestTime := recordTime })

/-- What the environment does for one turn of the loop of `fetch_all_transactions`: whether `shutdown_requested` is
set when the loop checks it; `time.time()` on entering `wait_if_needed` and after its sleep, when the request is
sent; and the request's outcome, `data.get("items", [])` or `none` when it raises. -/
structure PageCall (Tx : Type) where
  shutdown : Bool
  currentTime : ℚ
  requestTime : ℚ
  response : Option (List Tx)
deriving DecidableEq, Repr

/-- What the loop leaves: `all_transactions`, and as a ghost every time it sent a request. -/
structure Fetched (Tx : Type) where
  transactions : List Tx
  requests : List ℚ
deriving DecidableEq, Repr

variable {Tx : Type}

/-- `fetch_transactions(..., page, "desc", rpm)`: the sleep the new `RateLimiter(rpm)` asks for, and the page's
transactions, `[]` when the request raises. The limiter is dropped on return. `none` is the `ZeroDivisionError` of
`rpm = 0`. -/
def fetchTransactions (rpm : ℤ) (call : PageCall Tx) : Option (ℚ × List Tx) :=
  (RateLimiter.init rpm).map fun rateLimiter =>
    ((rateLimiter.waitIfNeeded call.currentTime call.requestTime).1, call.response.getD [])

/-- `if max_pages and page > max_pages`: `None` and `0` set no limit. -/
def pastMaxPages (maxPages : Option ℤ) (page : ℤ) : Bool :=
  match maxPages with
  | some k => k != 0 && decide (k < page)
  | none => false

/-- The loop of `fetch_all_transactions` from page `page`, one environment turn per iteration, up to a `break` or
the end of the environment's turns. -/
def fetchPages (itemsPerPage : ℤ) (maxPages : Option ℤ) (rpm : ℤ) :
    ℤ → Fetched Tx → List (PageCall Tx) → Option (Fetched Tx)
  | _, acc, [] => some acc
  | page, acc, call :: calls =>
    if pastMaxPages maxPages page || call.shutdown then some acc
    else match fetchTransactions rpm call with
      | none => none
      | some (_, transactions) =>
        let acc := { acc with requests := acc.requests ++ [call.requestTime] }
        if transactions.isEmpty then some acc
        else
          let acc := { acc with transactions := acc.transactions ++ transactions }
          if (transactions.length : ℤ) < itemsPerPage then some acc
          else fetchPages itemsPerPage maxPages rpm (page + 1) acc calls

/-- `fetch_all_transactions(firebase_user_id, workspace, items_per_page, max_pages, rpm)`. -/
def fetchAllTransactions (itemsPerPage : ℤ) (maxPages : Option ℤ) (rpm : ℤ) (calls : List (PageCall Tx)) :
    Option (Fetched Tx) :=
  fetchPages itemsPerPage maxPages rpm 1 ⟨[], []⟩ calls

/-- The clock of a run: it never goes back, and every sleep a new `RateLimiter(rpm)` asks for takes at least its
length. -/
def clockOk (rpm : ℤ) (calls : List (PageCall Tx)) : Prop :=
  (∀ call ∈ calls, ∀ l ∈ RateLimiter.init rpm,
      call.currentTime + l.sleepTime call.currentTime ≤ call.requestTime) ∧
    calls.Chain' fun a b => a.requestTime ≤ b.currentTime

/-! ## A new limiter per page -/

/-- A new limiter never sleeps once the clock reads `60 / rpm`. -/
theorem RateLimiter.sleepTime_init {rpm : ℤ} {l : RateLimiter} (hl : l ∈ RateLimiter.init rpm) {currentTime : ℚ}
    (h : 60 / rpm ≤ currentTime) : l.sleepTime currentTime = 0 := by
  unfold RateLimiter.init at hl
  split_ifs at hl
  · cases hl
  obtain rfl := Option.some.inj hl
  simp only [RateLimiter.sleepTime, sub_zero]
  rw [if_neg (not_lt.mpr h)]

end RevoMigration.Wallets

namespace RevoMigration.NextepWallets

open RevoMigration.Wallets (PageCall Fetched)

/-- `fetch_all_transactions` of `fetch_active_wallets_nextep.py`, whose text, with `RateLimiter` and
`fetch_transactions`, is that of `fetch_active_wallets.py`. -/
def fetchAllTransactions {Tx : Type} (itemsPerPage : ℤ) (maxPages : Option ℤ) (rpm : ℤ)
    (calls : List (PageCall Tx)) : Option (Fetched Tx) :=
  Wallets.fetchAllTransactions itemsPerPage maxPages rpm calls

end RevoMigration.NextepWallets

namespace RevoMigration.Wallets

/-- Two pages of one transaction each, for `rpm = 30` and `items_per_page = 1`, with the clock reading `1000`
throughout: in both scripts neither new limiter sleeps, and both requests go out at `1000`, less than `60 / 30`
apart. -/
theorem fetchAllTransactions_requests_back_to_back :
    let calls : List (PageCall ℕ) := [⟨false, 1000, 1000, some [1]⟩, ⟨false, 1000, 1000, some []⟩]
    clockOk 30 calls ∧ fetchAllTransactions 1 none 30 calls = some ⟨[1], [1000, 1000]⟩ ∧
      NextepWallets.fetchAllTransactions 1 none 30 calls = some ⟨[1], [1000, 1000]⟩ ∧
      (1000 : ℚ) - 1000 < 60 / 30 := by
  intro calls
  have hsleep : ∀ l ∈ RateLimiter.init 30, l.sleepTime 1000 = 0 := fun l hl =>
    RateLimiter.sleepTime_init hl (by norm_num)
  have hfetch : fetchAllTransactions 1 none 30 calls = some ⟨[1], [1000, 1000]⟩ := by
    norm_num [fetchAllTransactions, fetchPages, fetchTransactions, RateLimiter.init, RateLimiter.waitIfNeeded,
      RateLimiter.sleepTime, pastMaxPages, calls]
  refine ⟨⟨?_, List.chain'_pair.mpr le_rfl⟩, hfetch, hfetch, by norm_num⟩
  simp only [calls, List.mem_cons, List.mem_singleton, List.not_mem_nil, or_false]
  rintro call (rfl | rfl) l hl <;> simp [hsleep l hl]

end RevoMigration.Wallets
