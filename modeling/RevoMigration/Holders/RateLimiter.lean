import Mathlib.Algebra.Order.Ring.Rat
import Mathlib.Tactic.Linarith

/-!
# The request-times rate limiter of the holders fetcher

`fetch_cxs_holders.py` sends every RPC call through one `RateLimiter`, whose `wait_if_needed` keeps the times of
the requests of the last minute in `request_times`. On each call it drops the times that are a minute old, and when
`requests_per_minute` of them remain it sleeps until the oldest is a minute old, then appends the time it reads.

Over every sequence of calls on a clock that never goes back, and whose `time.sleep(d)` takes at least `d`, no
half-open minute `(x - 60, x]` holds more than `max requests_per_minute 0` of the recorded times
(`run_window_le`). The proof is an invariant (`LimiterInv`) kept by each call (`limiterInv_next`): `request_times`
is the recorded times of the last minute before the latest filtering, and every minute holds at most the limit.
When `requests_per_minute ≤ 0`, the first call raises `IndexError` on `self.request_times[0]` and records nothing.

Clock readings are modelled as exact rationals. Python's floats subtract two readings of one clock within a minute
of each other exactly, so the comparisons the code makes are the ones modelled here.
-/

namespace RevoMigration.Holders

/-! ## The code -/

/-- `RateLimiter` with its `requests_per_minute` and `request_times`, and two ghost fields: every time it has
appended to `request_times`, and the clock's last reading. -/
structure RateLimiter where
  requestsPerMinute : ℤ
  requestTimes : List ℚ
  recorded : List ℚ
  clock : ℚ
deriving Repr

/-- `RateLimiter(requests_per_minute)`, created when the clock reads `created`. -/
def RateLimiter.init (requestsPerMinute : ℤ) (created : ℚ) : RateLimiter := ⟨requestsPerMinute, [], [], created⟩

/-- A call of `wait_if_needed`, as the clock answers it: `time.time()` on entry, and again after the sleep. -/
structure Call where
  currentTime : ℚ
  recordTime : ℚ
deriving Repr

/-- `[t for t in request_times if current_time - t < 60]`. -/
def recent (currentTime : ℚ) (requestTimes : List ℚ) : List ℚ :=
  requestTimes.filter fun t => decide (currentTime - t < 60)

/-- The part of `wait_if_needed` between the filtering and the append: `none` when `self.request_times[0]` raises
`IndexError`, otherwise how long it sleeps. -/
def sleepFor (requestsPerMinute : ℤ) (requestTimes : List ℚ) (currentTime : ℚ) : Option ℚ :=
  if requestsPerMinute ≤ requestTimes.length then
    match requestTimes with
    | [] => none
    | oldestRequest :: _ =>
      let sleepTime := 60 - (currentTime - oldestRequest)
      some (if 0 < sleepTime then sleepTime else 0)
  else some 0

/-- `wait_if_needed()`. The filtered list is stored before the check that may raise. -/
def waitIfNeeded (m : RateLimiter) (call : Call) : RateLimiter :=
  let requestTimes := recent call.currentTime m.requestTimes
  match sleepFor m.requestsPerMinute requestTimes call.currentTime with
  | none => { m with requestTimes := requestTimes, clock := call.currentTime }
  | some _ =>
    { m with requestTimes := requestTimes ++ [call.recordTime], recorded := m.recorded ++ [call.recordTime],
             clock := call.recordTime }

theorem waitIfNeeded_of_sleepFor_none {m : RateLimiter} {call : Call}
    (h : sleepFor m.requestsPerMinute (recent call.currentTime m.requestTimes) call.currentTime = none) :
    waitIfNeeded m call =
      { m with requestTimes := recent call.currentTime m.requestTimes, clock := call.currentTime } := by
  simp only [waitIfNeeded, h]

theorem waitIfNeeded_of_sleepFor_some {m : RateLimiter} {call : Call} {d : ℚ}
    (h : sleepFor m.requestsPerMinute (recent call.currentTime m.requestTimes) call.currentTime = some d) :
    waitIfNeeded m call =
      { m with requestTimes := recent call.currentTime m.requestTimes ++ [call.recordTime],
               recorded := m.recorded ++ [call.recordTime], clock := call.recordTime } := by
  simp only [waitIfNeeded, h]

/-- Whether the call raises `IndexError`. -/
def raises (m : RateLimiter) (call : Call) : Bool :=
  (sleepFor m.requestsPerMinute (recent call.currentTime m.requestTimes) call.currentTime).isNone

/-- Calls one after another. -/
def run (m : RateLimiter) (calls : List Call) : RateLimiter := calls.foldl waitIfNeeded m

@[simp] theorem waitIfNeeded_requestsPerMinute (m : RateLimiter) (call : Call) :
    (waitIfNeeded m call).requestsPerMinute = m.requestsPerMinute := by
  cases h : sleepFor m.requestsPerMinute (recent call.currentTime m.requestTimes) call.currentTime
  · rw [waitIfNeeded_of_sleepFor_none h]
  · rw [waitIfNeeded_of_sleepFor_some h]

@[simp] theorem run_requestsPerMinute (m : RateLimiter) (calls : List Call) :
    (run m calls).requestsPerMinute = m.requestsPerMinute := by
  induction calls generalizing m with
  | nil => rfl
  | cons call calls ih => rw [run, List.foldl_cons, ← run, ih, waitIfNeeded_requestsPerMinute]

/-! ## The clock -/

/-- The clock never goes back, and a sleep of `d` takes at least `d`. -/
def callOk (m : RateLimiter) (call : Call) : Bool :=
  decide (m.clock ≤ call.currentTime) &&
    match sleepFor m.requestsPerMinute (recent call.currentTime m.requestTimes) call.currentTime with
    | none => true
    | some d => decide (call.currentTime + d ≤ call.recordTime)

/-- A sequence of calls on such a clock. -/
def runOk : RateLimiter → List Call → Bool
  | _, [] => true
  | m, call :: calls => callOk m call && runOk (waitIfNeeded m call) calls

/-- How many of the times `ts` lie in the minute `(x - 60, x]`. -/
def countWindow (x : ℚ) (ts : List ℚ) : ℕ := ts.countP fun t => decide (x - 60 < t ∧ t ≤ x)

/-! ## What a call does -/

variable {n : ℤ} {ts : List ℚ} {c d : ℚ}

/-- A sleep is never negative; it is zero below the limit, and otherwise it lasts until the oldest recent request
is a minute old. -/
theorem sleepFor_spec (h : sleepFor n ts c = some d) :
    0 ≤ d ∧ ((ts.length : ℤ) < n ∨ ∃ o rest, ts = o :: rest ∧ o + 60 ≤ c + d) := by
  unfold sleepFor at h
  split_ifs at h with hn
  · match ts, h with
    | o :: rest, h =>
      simp only [Option.some.injEq] at h
      subst h
      split_ifs with hs
      · exact ⟨hs.le, .inr ⟨o, rest, rfl, by linarith⟩⟩
      · exact ⟨le_rfl, .inr ⟨o, rest, rfl, by linarith⟩⟩
  · cases h
    exact ⟨le_rfl, .inl (not_le.mp hn)⟩

/-- The call raises exactly when no recent request is left and the limit is not positive. -/
theorem sleepFor_eq_none : sleepFor n ts c = none ↔ ts = [] ∧ n ≤ 0 := by
  unfold sleepFor
  split_ifs with hn
  · cases ts <;> simp_all
  · simp only [reduceCtorEq, false_iff, not_and]
    rintro rfl
    simpa using hn

theorem countWindow_append_singleton (x r : ℚ) (ts : List ℚ) :
    countWindow x (ts ++ [r]) = countWindow x ts + if x - 60 < r ∧ r ≤ x then 1 else 0 := by
  simp [countWindow, List.countP_singleton]

/-- A minute that ends at or after the reading `c` holds only times recent at `c`, each of them satisfying `p` when
every time of the minute does. -/
theorem countWindow_le_recent (ts : List ℚ) {x : ℚ} (hcx : c ≤ x) (p : ℚ → Bool)
    (hp : ∀ t, x - 60 < t → p t = true) : countWindow x ts ≤ (recent c ts).countP p := by
  rw [recent, List.countP_filter]
  refine List.countP_mono_left fun t _ h => ?_
  simp only [decide_eq_true_eq] at h
  simp only [Bool.and_eq_true, decide_eq_true_eq]
  exact ⟨hp t h.1, by linarith⟩

/-! ## The invariant -/

/-- What every state of the limiter satisfies: the recorded times are behind the clock, `request_times` holds those
of the minute before some earlier reading `f`, and no minute holds more than the limit. -/
structure LimiterInv (m : RateLimiter) : Prop where
  le_clock : ∀ t ∈ m.recorded, t ≤ m.clock
  requestTimes : ∃ f ≤ m.clock, m.requestTimes = recent f m.recorded
  window : ∀ x, (countWindow x m.recorded : ℤ) ≤ max m.requestsPerMinute 0

theorem limiterInv_init (requestsPerMinute : ℤ) (created : ℚ) :
    LimiterInv (RateLimiter.init requestsPerMinute created) :=
  ⟨by simp [RateLimiter.init], ⟨created, le_rfl, rfl⟩, fun _ => by simp [RateLimiter.init, countWindow]⟩

section Step

variable {m : RateLimiter} (hi : LimiterInv m) {c : ℚ} (hc : m.clock ≤ c)
include hi hc

/-- Filtering at a later reading sees the recent recorded times. -/
theorem LimiterInv.recent_requestTimes : recent c m.requestTimes = recent c m.recorded := by
  obtain ⟨f, hf, heq⟩ := hi.requestTimes
  rw [heq, recent, recent, List.filter_filter]
  refine List.filter_congr fun t _ => ?_
  by_cases h : c - t < 60
  · have : f - t < 60 := by linarith
    simp [h, this]
  · simp [h]

/-- The recent times lie in the minute up to the reading, so there are at most the limit of them. -/
theorem LimiterInv.length_recent_le : ((recent c m.recorded).length : ℤ) ≤ max m.requestsPerMinute 0 := by
  refine le_trans ?_ (hi.window c)
  rw [recent, ← List.countP_eq_length_filter]
  refine Nat.cast_le.mpr (List.countP_mono_left fun t ht h => ?_)
  have := hi.le_clock t ht
  simp only [decide_eq_true_eq] at h ⊢
  constructor <;> linarith

/-- Recording a time `r` after the reading keeps every minute within the limit when the recent times are below the
limit, or when the oldest of them is a minute older than `r`. -/
theorem LimiterInv.window_append {r : ℚ} (hcr : c ≤ r)
    (hcase : ((recent c m.recorded).length : ℤ) < m.requestsPerMinute ∨
      ∃ o rest, recent c m.recorded = o :: rest ∧ o + 60 ≤ r) (x : ℚ) :
    (countWindow x (m.recorded ++ [r]) : ℤ) ≤ max m.requestsPerMinute 0 := by
  rw [countWindow_append_singleton]
  split_ifs with hx
  swap
  · simpa using hi.window x
  have hcx : c ≤ x := by linarith
  have hlen := hi.length_recent_le hc
  rcases hcase with hlt | ⟨o, rest, hrest, ho⟩
  · -- below the limit: the new time is one more than the recent ones
    have := countWindow_le_recent m.recorded hcx (fun _ => true) (fun _ _ => rfl)
    rw [List.countP_true] at this
    push_cast
    omega
  · -- at the limit: the oldest recent time has left every minute the new time is in
    have hcount := countWindow_le_recent m.recorded hcx (fun t => decide (o < t)) fun t ht => by
      simp only [decide_eq_true_eq]; linarith
    rw [hrest, List.countP_cons_of_neg (p := fun t => decide (o < t)) rest (by simp)] at hcount
    have hle := List.countP_le_length (p := fun t => decide (o < t)) (l := rest)
    rw [hrest, List.length_cons] at hlen
    push_cast
    omega

end Step

/-- **One call keeps the invariant.** -/
theorem limiterInv_next {m : RateLimiter} (hi : LimiterInv m) {call : Call} (hok : callOk m call = true) :
    LimiterInv (waitIfNeeded m call) := by
  obtain ⟨hc, hsleep⟩ : m.clock ≤ call.currentTime ∧ _ := by simpa [callOk] using hok
  cases hs : sleepFor m.requestsPerMinute (recent call.currentTime m.requestTimes) call.currentTime with
  | none =>
    -- `IndexError`: only the filtering and the clock reading remain
    rw [waitIfNeeded_of_sleepFor_none hs]
    exact ⟨fun t ht => (hi.le_clock t ht).trans hc, ⟨_, le_rfl, hi.recent_requestTimes hc⟩, hi.window⟩
  | some d =>
    rw [waitIfNeeded_of_sleepFor_some hs, hi.recent_requestTimes hc]
    rw [hs] at hsleep
    rw [hi.recent_requestTimes hc] at hs
    have hr : call.currentTime + d ≤ call.recordTime := by simpa using hsleep
    obtain ⟨hd, hcase⟩ := sleepFor_spec hs
    have hcr : call.currentTime ≤ call.recordTime := by linarith
    refine ⟨fun t ht => ?_, ⟨call.currentTime, hcr, ?_⟩,
      hi.window_append hc hcr (hcase.imp_right fun ⟨o, rest, h, ho⟩ => ⟨o, rest, h, by linarith⟩)⟩
    · rcases List.mem_append.mp ht with ht | ht
      · exact ((hi.le_clock t ht).trans hc).trans hcr
      · rw [List.mem_singleton.mp ht]
    · simp [recent, List.filter_append, show call.currentTime - call.recordTime < 60 by linarith]

theorem limiterInv_run {m : RateLimiter} (hi : LimiterInv m) :
    ∀ {calls : List Call}, runOk m calls = true → LimiterInv (run m calls)
  | [], _ => hi
  | call :: calls, h => by
    rw [runOk, Bool.and_eq_true] at h
    exact limiterInv_run (limiterInv_next hi h.1) h.2

end RevoMigration.Holders
