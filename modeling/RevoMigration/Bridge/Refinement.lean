import RevoMigration.Bridge.Windows
import RevoMigration.Bridge.Prices

/-!
# The bridge credits what a block-by-block reference credits

With every RPC call and mint succeeding, fixed float prices and no shutdown request, the ledger after every cycle
is the reference `reference`: the loaded entries, then, block by block from `L₀ + 1` to `last_block_processed`,
transaction by transaction and deposit by deposit, each deposit whose hash is new and whose valuation is positive
(`creditStep`). Which deposits are credited, and for how much, depends neither on `max_blocks` nor on
`confirmations` nor on the heads the cycles read (`run_refines_reference`).

The proof is a simulation: `RefInv` says where the ledger stands against the reference at each place of a cycle
(the scanned deposits so far are the chain's, the processed ones are folded in), and every transition the
environment above allows keeps it (`refInv_next`). Valuations never raise there, since the amounts are `uint256`
values (`chainDeposits_amount_lt`) and the prices floats (`calculateRevoAmount_returns`).

A shutdown request weakens the simulation: the cycle still advances to the end of its window, so a graceful stop
can persist a `last_block_processed` past a deposit it never processed (`run_shutdown_skips_deposit`). The same
invariant, with a shutdown request and failing RPC calls allowed, bounds the loss: what a stop leaves out is a
suffix of the deposits of its last window (`CutShort`, `run_shutdown_loses_suffix`).
-/

namespace RevoMigration.Bridge

open RevoMigration.Decimal

/-! ## The reference -/

/-- A ledger entry without the hash of its mint transaction, which no reference can know. -/
structure Credit where
  txHash : String
  fromAddress : String
  tokenAddress : String
  amount : ℕ
  revoAmount : ℤ
deriving DecidableEq, Repr

/-- The credits of a ledger, in insertion order. -/
def Ledger.summary (l : Ledger) : List Credit :=
  l.entries.map fun e => ⟨e.1, e.2.fromAddress, e.2.tokenAddress, e.2.amount, e.2.revoAmount⟩

/-- One step of the reference: a deposit whose hash is new and whose valuation is positive is credited. -/
def creditStep (cxsPrice nextepPrice revoPrice : PyDecimal) (acc : List Credit) (d : Deposit) : List Credit :=
  if d.txHash ∈ acc.map Credit.txHash then acc
  else match calculateRevoAmount d.tokenAddress d.amount cxsPrice nextepPrice revoPrice with
    | .ok r => if 0 < r then acc ++ [⟨d.txHash, d.fromAddress, d.tokenAddress, d.amount, r⟩] else acc
    | .error _ => acc

/-- The deposits the scan decodes from `count` blocks of `chain` from `start` on, in block order. -/
def chainDeposits (bridgeAddress : String) (chain : ℤ → Block) (start : ℤ) : ℕ → List Deposit
  | 0 => []
  | count + 1 => chainDeposits bridgeAddress chain start count ++
      scanBlock bridgeAddress tokenAddresses (start + count) (chain (start + count)) []

/-- The reference ledger after blocks `first .. last` of `chain`. It reads neither `max_blocks` nor
`confirmations` nor any head. -/
def reference (bridgeAddress : String) (cxsPrice nextepPrice revoPrice : PyDecimal) (chain : ℤ → Block)
    (loaded : Ledger) (first last : ℤ) : List Credit :=
  (chainDeposits bridgeAddress chain first (last + 1 - first).toNat).foldl
    (creditStep cxsPrice nextepPrice revoPrice) loaded.summary

/-- The deposits of the blocks of window `w`. -/
def windowDeposits (bridgeAddress : String) (chain : ℤ → Block) (w : Window) : List Deposit :=
  chainDeposits bridgeAddress chain w.start (w.stop + 1 - w.start).toNat

theorem Ledger.summary_txHash (l : Ledger) : l.summary.map Credit.txHash = l.keys := by
  simp [Ledger.summary, Ledger.keys]

theorem Ledger.summary_insert {l : Ledger} {k : String} (h : k ∉ l.keys) (v : LedgerEntry) :
    (l.insert k v).summary = l.summary ++ [⟨k, v.fromAddress, v.tokenAddress, v.amount, v.revoAmount⟩] := by
  simp [Ledger.summary, Ledger.insert_of_not_mem h]

theorem creditStep_of_mem {cxsPrice nextepPrice revoPrice : PyDecimal} {acc : List Credit} {d : Deposit}
    (h : d.txHash ∈ acc.map Credit.txHash) : creditStep cxsPrice nextepPrice revoPrice acc d = acc :=
  if_pos h

theorem creditStep_of_ok {cxsPrice nextepPrice revoPrice : PyDecimal} {acc : List Credit} {d : Deposit}
    (h : d.txHash ∉ acc.map Credit.txHash) {r : ℤ}
    (hr : calculateRevoAmount d.tokenAddress d.amount cxsPrice nextepPrice revoPrice = .ok r) :
    creditStep cxsPrice nextepPrice revoPrice acc d =
      if 0 < r then acc ++ [⟨d.txHash, d.fromAddress, d.tokenAddress, d.amount, r⟩] else acc := by
  rw [creditStep, if_neg h, hr]

theorem chainDeposits_add (bridgeAddress : String) (chain : ℤ → Block) (start : ℤ) (j k : ℕ) :
    chainDeposits bridgeAddress chain start (j + k) =
      chainDeposits bridgeAddress chain start j ++ chainDeposits bridgeAddress chain (start + j) k := by
  induction k with
  | zero => simp [chainDeposits]
  | succ k ih =>
    rw [← add_assoc, chainDeposits, ih, chainDeposits, List.append_assoc, Nat.cast_add, add_assoc]

/-- Fetching block `n` extends the deposits of the blocks before it. -/
theorem chainDeposits_next (bridgeAddress : String) (chain : ℤ → Block) {start n : ℤ} (h : start ≤ n) :
    chainDeposits bridgeAddress chain start (n + 1 - start).toNat =
      scanBlock bridgeAddress tokenAddresses n (chain n)
        (chainDeposits bridgeAddress chain start (n - start).toNat) := by
  have hk : (n + 1 - start).toNat = (n - start).toNat + 1 := by omega
  have hn : start + ((n - start).toNat : ℤ) = n := by omega
  rw [hk, chainDeposits, hn, scanBlock_eq, scanBlock_eq, List.nil_append]

/-- The reference over a longer range folds the deposits of the new blocks into the shorter one. -/
theorem reference_extend (bridgeAddress : String) (cxsPrice nextepPrice revoPrice : PyDecimal) (chain : ℤ → Block)
    (loaded : Ledger) {first last stop : ℤ} (h1 : first ≤ last + 1) (h2 : last ≤ stop) :
    reference bridgeAddress cxsPrice nextepPrice revoPrice chain loaded first stop =
      (chainDeposits bridgeAddress chain (last + 1) (stop - last).toNat).foldl
        (creditStep cxsPrice nextepPrice revoPrice)
        (reference bridgeAddress cxsPrice nextepPrice revoPrice chain loaded first last) := by
  have hk : (stop + 1 - first).toNat = (last + 1 - first).toNat + (stop - last).toNat := by omega
  have hs : first + ((last + 1 - first).toNat : ℤ) = last + 1 := by omega
  rw [reference, hk, chainDeposits_add, hs, List.foldl_append]
  rfl

/-- Over no block the reference is the loaded ledger. -/
theorem reference_self (bridgeAddress : String) (cxsPrice nextepPrice revoPrice : PyDecimal) (chain : ℤ → Block)
    (loaded : Ledger) (last : ℤ) :
    reference bridgeAddress cxsPrice nextepPrice revoPrice chain loaded (last + 1) last = loaded.summary := by
  simp [reference, chainDeposits]

/-- Folding in the deposits of the window after `last` gives the reference up to the window's end. -/
theorem reference_window (bridgeAddress : String) (cxsPrice nextepPrice revoPrice : PyDecimal) (chain : ℤ → Block)
    (loaded : Ledger) {first last : ℤ} {w : Window} (h0 : first ≤ last + 1) (hs : w.start = last + 1)
    (hw : w.start ≤ w.stop) :
    (windowDeposits bridgeAddress chain w).foldl (creditStep cxsPrice nextepPrice revoPrice)
        (reference bridgeAddress cxsPrice nextepPrice revoPrice chain loaded first last) =
      reference bridgeAddress cxsPrice nextepPrice revoPrice chain loaded first w.stop := by
  have hk : w.stop + 1 - w.start = w.stop - last := by omega
  rw [windowDeposits, hk, hs,
    reference_extend bridgeAddress cxsPrice nextepPrice revoPrice chain loaded h0 (show last ≤ w.stop by omega)]

/-- The chain's deposits are `uint256` amounts when its transactions' values are. -/
theorem chainDeposits_amount_lt {bridgeAddress : String} {chain : ℤ → Block}
    (hchain : ∀ n, ∀ tx ∈ (chain n).transactions, tx.value < 2 ^ 256) (start : ℤ) :
    ∀ count, ∀ d ∈ chainDeposits bridgeAddress chain start count, d.amount < 2 ^ 256
  | 0, d, hd => by cases hd
  | count + 1, d, hd => by
    rw [chainDeposits, List.mem_append, scanBlock_eq, List.nil_append, List.mem_flatMap] at hd
    rcases hd with hd | ⟨tx, htx, hd⟩
    · exact chainDeposits_amount_lt hchain start count d hd
    · exact scanTransaction_amount_lt (hchain _ tx htx) d hd

/-! ## The environment -/

/-- A run all of whose inputs the environment `env` allows, each in the state it arrives in. -/
def envRun (cfg : Config) (env : Machine → Input → Bool) : Machine → List Input → Bool
  | _, [] => true
  | m, i :: inputs => env m i && envRun cfg env (step cfg m i) inputs

/-- A property that every transition on an allowed input keeps holds after every allowed run. -/
theorem run_of_next_env {cfg : Config} {env : Machine → Input → Bool} {P : Machine → Prop}
    (h : ∀ m i m', P m → env m i = true → Next cfg m i m' → P m') {m : Machine} (hm : P m)
    {inputs : List Input} (hg : envRun cfg env m inputs = true) : P (run cfg m inputs) := by
  induction inputs generalizing m with
  | nil => exact hm
  | cons i is ih =>
    rw [envRun, Bool.and_eq_true] at hg
    exact ih (h _ _ _ hm hg.1 (step_next cfg m i)) hg.2

/-- An input of the environment of `run_shutdown_loses_suffix`: every `get_block(n)` returns block `n` of `chain`,
and every mint call returns a transaction hash; a signal or a failing RPC call may come at any time. -/
def fetchInput (chain : ℤ → Block) (m : Machine) : Input → Bool
  | .block b => match m.pc with
    | .scan _ n _ => decide (b = some (chain n))
    | _ => true
  | .mint r => r.txId.isSome
  | _ => true

/-- An input of the environment of `run_refines_reference`: moreover neither a signal nor an RPC error. -/
def goodInput (chain : ℤ → Block) (m : Machine) (i : Input) : Bool :=
  fetchInput chain m i && i != .signal && i != .rpcError

/-- A run all of whose inputs are `goodInput`s. -/
def goodRun (cfg : Config) (chain : ℤ → Block) : Machine → List Input → Bool := envRun cfg (goodInput chain)

theorem goodInput_fetch {chain : ℤ → Block} {m : Machine} {i : Input} (h : goodInput chain m i = true) :
    fetchInput chain m i = true := by
  simp only [goodInput, Bool.and_eq_true] at h
  exact h.1.1

theorem goodInput_ne_signal {chain : ℤ → Block} {m : Machine} {i : Input} (h : goodInput chain m i = true) :
    i ≠ .signal := by
  simp only [goodInput, Bool.and_eq_true, bne_iff_ne] at h
  exact h.1.2

/-! ## The simulation -/

/-- The ledger `l` is the reference `ref` up to some `last₀ ≥ lo`, followed by a prefix of the deposits of the
blocks after it up to `last`: what the save of a cycle that a shutdown request cut short leaves. -/
def CutShort (cfg : Config) (cxsPrice nextepPrice : PyDecimal) (chain : ℤ → Block) (ref : ℤ → List Credit)
    (lo last : ℤ) (l : Ledger) : Prop :=
  ∃ last₀ pre, lo ≤ last₀ ∧ last₀ ≤ last ∧
    pre <+: chainDeposits cfg.bridgeAddress chain (last₀ + 1) (last - last₀).toNat ∧
    l.summary = pre.foldl (creditStep cxsPrice nextepPrice cfg.revoPrice) (ref last₀)

/-- Where the ledger `l` stands against the reference `ref` (a function of the last block) at place `pc` with
`last_block_processed = last`, `stop` telling whether a shutdown was requested: during a scan the deposits so far
are those of the window's blocks before `n`; during `process_deposits` the processed ones are folded in, and they
are a prefix of the window's deposits, all of them unless a shutdown was requested; between cycles the ledger is
the reference, or cut short by a shutdown request. -/
def RefAt (cfg : Config) (cxsPrice nextepPrice : PyDecimal) (chain : ℤ → Block) (ref : ℤ → List Credit)
    (lo : ℤ) (stop : Bool) : Pc → ℤ → Ledger → Prop
  | .head, last, l | .idle, last, l => l.summary = ref last
  | .scan w n ds, last, l => l.summary = ref last ∧ w.start ≤ n ∧ n ≤ w.stop + 1 ∧
      ds = chainDeposits cfg.bridgeAddress chain w.start (n - w.start).toNat
  | .process w ds, last, l => ∃ done, done ++ ds <+: windowDeposits cfg.bridgeAddress chain w ∧
      (stop = false → done ++ ds = windowDeposits cfg.bridgeAddress chain w) ∧
      l.summary = done.foldl (creditStep cxsPrice nextepPrice cfg.revoPrice) (ref last)
  | .minting w d a rest, last, l => ∃ done, done ++ d :: rest <+: windowDeposits cfg.bridgeAddress chain w ∧
      (stop = false → done ++ d :: rest = windowDeposits cfg.bridgeAddress chain w) ∧
      l.summary = done.foldl (creditStep cxsPrice nextepPrice cfg.revoPrice) (ref last) ∧
      d.txHash ∉ l.keys ∧ calculateRevoAmount d.tokenAddress d.amount cxsPrice nextepPrice cfg.revoPrice = .ok a ∧
      0 < a
  | .save w, last, l => ∃ pre, pre <+: windowDeposits cfg.bridgeAddress chain w ∧
      (stop = false → pre = windowDeposits cfg.bridgeAddress chain w) ∧
      l.summary = pre.foldl (creditStep cxsPrice nextepPrice cfg.revoPrice) (ref last)
  | .crashed, _, _ => True
  | _, last, l => l.summary = ref last ∨ stop = true ∧ CutShort cfg cxsPrice nextepPrice chain ref lo last l

section RefAt

variable {cfg : Config} {cxsPrice nextepPrice : PyDecimal} {chain : ℤ → Block} {ref : ℤ → List Credit}
  {lo : ℤ} {stop : Bool} {pc : Pc} {last : ℤ} {l : Ledger}

/-- Between cycles the reference up to the last block is where the ledger may stand. -/
theorem refAt_outside (hw : pc.window? = none) (h : l.summary = ref last) :
    RefAt cfg cxsPrice nextepPrice chain ref lo stop pc last l := by
  cases pc <;> first | exact h | exact .inl h | trivial

/-- Past its last read of a head, a process stopping may stand anywhere a cut-short save leaves it. -/
theorem refAt_cut (hw : pc.window? = none) (hh : pc ≠ .head) (hi : pc ≠ .idle)
    (h : stop = true ∧ CutShort cfg cxsPrice nextepPrice chain ref lo last l) :
    RefAt cfg cxsPrice nextepPrice chain ref lo stop pc last l := by
  cases pc <;> first | exact .inr h | trivial

theorem RefAt.outside (h : RefAt cfg cxsPrice nextepPrice chain ref lo stop pc last l) (hw : pc.window? = none)
    (hc : pc ≠ .crashed) :
    l.summary = ref last ∨ stop = true ∧ CutShort cfg cxsPrice nextepPrice chain ref lo last l := by
  cases pc <;> first | exact h | exact .inl h | exact absurd rfl hc | cases hw

/-- A shutdown request only weakens where the ledger must stand. -/
theorem RefAt.signal (h : RefAt cfg cxsPrice nextepPrice chain ref lo stop pc last l) :
    RefAt cfg cxsPrice nextepPrice chain ref lo true pc last l := by
  cases pc
  case process => obtain ⟨done, h1, -, h3⟩ := h; exact ⟨done, h1, (fun h => nomatch h), h3⟩
  case minting => obtain ⟨done, h1, -, h3⟩ := h; exact ⟨done, h1, (fun h => nomatch h), h3⟩
  case save => obtain ⟨pre, h1, -, h3⟩ := h; exact ⟨pre, h1, (fun h => nomatch h), h3⟩
  all_goals first | exact h | exact h.imp_right fun h => ⟨rfl, h.2⟩

variable {w : Window} {d : Deposit} {rest : List Deposit}

/-- Fetching block `n` of the window adds its deposits to those scanned. -/
theorem RefAt.fetch {n : ℤ} {ds : List Deposit}
    (h : RefAt cfg cxsPrice nextepPrice chain ref lo stop (.scan w n ds) last l) (hn : n ≤ w.stop) :
    RefAt cfg cxsPrice nextepPrice chain ref lo stop
      (.scan w (n + 1) (scanBlock cfg.bridgeAddress tokenAddresses n (chain n) ds)) last l := by
  obtain ⟨hsum, h1, h2, rfl⟩ := h
  exact ⟨hsum, by omega, by omega, (chainDeposits_next _ _ h1).symm⟩

/-- The scan ends past the window's end, with all its deposits, or earlier on a shutdown request, with a prefix
of them. -/
theorem RefAt.scanEnd {n : ℤ} {ds : List Deposit}
    (h : RefAt cfg cxsPrice nextepPrice chain ref lo stop (.scan w n ds) last l) (hn : w.stop < n ∨ stop = true) :
    RefAt cfg cxsPrice nextepPrice chain ref lo stop (.process w ds) last l := by
  obtain ⟨hsum, h1, h2, rfl⟩ := h
  have hk : (w.stop + 1 - w.start).toNat = (n - w.start).toNat + (w.stop + 1 - n).toNat := by omega
  refine ⟨[], ?_, fun hs => ?_, hsum⟩
  · rw [List.nil_append, windowDeposits, hk, chainDeposits_add]
    exact List.prefix_append _ _
  · have hend : w.stop + 1 = n := by
      rcases hn with hn | rfl
      · omega
      · cases hs
    rw [List.nil_append, windowDeposits, hend]

/-- With its deposits processed a cycle saves what it folded in. -/
theorem RefAt.processEnd (h : RefAt cfg cxsPrice nextepPrice chain ref lo stop (.process w []) last l) :
    RefAt cfg cxsPrice nextepPrice chain ref lo stop (.save w) last l := by
  obtain ⟨done, h1, h2, h3⟩ := h
  exact ⟨done, by simpa using h1, fun hs => by simpa using h2 hs, h3⟩

/-- A shutdown request breaks out of `process_deposits` with the deposits folded in so far. -/
theorem RefAt.break (h : RefAt cfg cxsPrice nextepPrice chain ref lo stop (.process w (d :: rest)) last l)
    (hs : stop = true) : RefAt cfg cxsPrice nextepPrice chain ref lo stop (.save w) last l := by
  obtain ⟨done, h1, -, h3⟩ := h
  exact ⟨done, (List.prefix_append _ _).trans h1, fun h => by simp [hs] at h, h3⟩

/-- A recorded deposit is skipped by the code and by the reference. -/
theorem RefAt.skip (h : RefAt cfg cxsPrice nextepPrice chain ref lo stop (.process w (d :: rest)) last l)
    (hk : d.txHash ∈ l.keys) : RefAt cfg cxsPrice nextepPrice chain ref lo stop (.process w rest) last l := by
  obtain ⟨done, h1, h2, hsum⟩ := h
  have hk' : d.txHash ∈ l.summary.map Credit.txHash := by rwa [Ledger.summary_txHash]
  refine ⟨done ++ [d], by simpa using h1, fun hs => by simpa using h2 hs, ?_⟩
  rw [List.foldl_append, List.foldl_cons, List.foldl_nil, ← hsum, creditStep_of_mem hk']

/-- A new deposit valued at `R` is skipped by both when `R ≤ 0`, and goes to its mint otherwise. -/
theorem RefAt.valuate (h : RefAt cfg cxsPrice nextepPrice chain ref lo stop (.process w (d :: rest)) last l)
    (hk : d.txHash ∉ l.keys) {R : ℤ}
    (hR : calculateRevoAmount d.tokenAddress d.amount cxsPrice nextepPrice cfg.revoPrice = .ok R) :
    RefAt cfg cxsPrice nextepPrice chain ref lo stop (valuatedPc w d rest (.ok R)) last l := by
  obtain ⟨done, h1, h2, hsum⟩ := h
  have hk' : d.txHash ∉ l.summary.map Credit.txHash := by rwa [Ledger.summary_txHash]
  rw [valuatedPc]
  split_ifs with hR0
  · refine ⟨done ++ [d], by simpa using h1, fun hs => by simpa using h2 hs, ?_⟩
    rw [List.foldl_append, List.foldl_cons, List.foldl_nil, ← hsum, creditStep_of_ok hk' hR, if_neg (by omega)]
  · exact ⟨done, h1, h2, hsum, hk, hR, by omega⟩

/-- A minted deposit is the reference's next credit. -/
theorem RefAt.mint {a : ℤ} (h : RefAt cfg cxsPrice nextepPrice chain ref lo stop (.minting w d a rest) last l)
    (id : String) :
    RefAt cfg cxsPrice nextepPrice chain ref lo stop (.process w rest) last
      (l.insert d.txHash (ledgerEntry d a id)) := by
  obtain ⟨done, h1, h2, hsum, hd, hR, hR0⟩ := h
  have hk' : d.txHash ∉ l.summary.map Credit.txHash := by rwa [Ledger.summary_txHash]
  refine ⟨done ++ [d], by simpa using h1, fun hs => by simpa using h2 hs, ?_⟩
  rw [Ledger.summary_insert hd, List.foldl_append, List.foldl_cons, List.foldl_nil, ← hsum,
    creditStep_of_ok hk' hR, if_pos hR0]
  rfl

/-- The save at the end of a cycle over the window after `last`: the ledger is the reference at the window's end,
or, on a shutdown request, the reference at `last` followed by a prefix of the window's deposits. -/
theorem RefAt.save (h : RefAt cfg cxsPrice nextepPrice chain ref lo stop (.save w) last l)
    (hs : w.start = last + 1) (hw : w.start ≤ w.stop) (hlo : lo ≤ last)
    (href : (windowDeposits cfg.bridgeAddress chain w).foldl (creditStep cxsPrice nextepPrice cfg.revoPrice)
      (ref last) = ref w.stop) :
    RefAt cfg cxsPrice nextepPrice chain ref lo stop .pause w.stop l := by
  obtain ⟨pre, h1, h2, h3⟩ := h
  cases stop
  · exact .inl (by rw [h3, h2 rfl, href])
  · rw [windowDeposits, hs, show w.stop + 1 - (last + 1) = w.stop - last by omega] at h1
    exact .inr ⟨rfl, last, pre, hlo, by omega, h1, h3⟩

end RefAt

theorem checkPrices_window? (cfg : Config) (cxsPrice nextepPrice : PyDecimal) :
    (checkPrices cfg cxsPrice nextepPrice).window? = none := by
  unfold checkPrices; repeat' split
  all_goals rfl

/-- Between cycles the program counter alone stays between cycles, unless it reads a head. -/
theorem PcNext.window?_eq_none {cfg : Config} {m : Machine} {i : Input} {pc : Pc} (h : PcNext cfg m i pc)
    (hm : m.pc.window? = none) (hh : m.pc ≠ .head) : pc.window? = none := by
  cases h
  case checkPrices => exact checkPrices_window? _ _ _
  all_goals first | (repeat' split) <;> rfl | simp_all [Pc.window?]

/-- Once a shutdown is requested the program counter alone never goes back to reading a head. -/
theorem PcNext.ne_head {cfg : Config} {m : Machine} {i : Input} {pc : Pc} (h : PcNext cfg m i pc)
    (hh : m.pc ≠ .head) (hs : m.shutdownRequested = true) : pc ≠ .head ∧ pc ≠ .idle := by
  cases h
  case checkPrices => unfold Bridge.checkPrices; repeat' split
                      all_goals simp
  all_goals (try split) <;> simp_all

/-- What every state of a lifetime with overrides `p`, `q` that loaded `L₀` and `loaded` satisfies, in the
environment `fetchInput`: the prices are the overrides, the windows are contiguous, and the ledger stands at the
reference, or cut short by a shutdown request. -/
structure RefInv (cfg : Config) (p q : Dec) (chain : ℤ → Block) (loaded : Ledger) (L₀ : ℤ) (m : Machine) :
    Prop where
  prices : PriceInv (.finite p) (.finite q) m
  windows : WindowInv cfg L₀ m
  ledger : RefAt cfg (.finite p) (.finite q) chain
    (reference cfg.bridgeAddress (.finite p) (.finite q) cfg.revoPrice chain loaded (L₀ + 1)) L₀
    m.shutdownRequested m.pc m.lastBlockProcessed m.processedTxs

theorem refInv_init (cfg : Config) (p q : Dec) (chain : ℤ → Block) (file : StateFile) :
    RefInv cfg p q chain file.load.2 file.load.1 (Machine.init file) :=
  ⟨priceInv_init _ _ file, windowInv_init cfg file, .inl (reference_self ..).symm⟩

theorem FloatRange.floatTruthy {x : Dec} (h : FloatRange x.val) : (PyDecimal.finite x).floatTruthy = true := by
  have : 0 < x.coeff := Dec.val_pos_iff.mp (lt_of_lt_of_le (zpow_pos (by norm_num) _) h.1)
  simp [PyDecimal.floatTruthy, this.ne']

theorem Next.shutdownRequested {cfg : Config} {m m' : Machine} {i : Input} (hn : Next cfg m i m')
    (hs : m.shutdownRequested = false) (hi : i ≠ .signal) : m'.shutdownRequested = false := by
  cases hn with
  | signal _ => exact absurd rfl hi
  | mint r _ => rw [mintStep_shutdownRequested, hs]
  | _ => exact hs

section Simulation

variable {cfg : Config} {p q r : Dec} {chain : ℤ → Block} {loaded : Ledger} {L₀ : ℤ}
  (hcxs : cfg.cxsPrice = some (.finite p)) (hnextep : cfg.nextepPrice = some (.finite q))
  (hrevo : cfg.revoPrice = .finite r) (hp : FloatRange p.val) (hq : FloatRange q.val) (hr : FloatRange r.val)
  (hchain : ∀ n, ∀ tx ∈ (chain n).transactions, tx.value < 2 ^ 256)

include hrevo hp hq hr hchain in
/-- One transition the environment allows keeps the ledger where the reference has it. -/
theorem refAt_next {m m' : Machine} (hi : RefInv cfg p q chain loaded L₀ m) {i : Input}
    (hg : fetchInput chain m i = true) (hn : Next cfg m i m') :
    RefAt cfg (.finite p) (.finite q) chain
      (reference cfg.bridgeAddress (.finite p) (.finite q) cfg.revoPrice chain loaded (L₀ + 1)) L₀
      m'.shutdownRequested m'.pc m'.lastBlockProcessed m'.processedTxs := by
  have hl := hi.ledger
  cases hn with
  | stay => exact hl
  | signal _ => exact hl.signal
  | goto h =>
    simp only [Machine.goto_pc, Machine.goto_lastBlockProcessed, Machine.goto_processedTxs,
      Machine.goto_shutdownRequested]
    by_cases hout : m.pc.window? = none ∧ m.pc ≠ .head ∧ m.pc ≠ .crashed
    · have hw := h.window?_eq_none hout.1 hout.2.1
      rcases hl.outside hout.1 hout.2.2 with hl | hl
      · exact refAt_outside hw hl
      · obtain ⟨hh, hidle⟩ := h.ne_head hout.2.1 hl.1
        exact refAt_cut hw hh hidle hl
    cases h with
    | head h' hpc =>
      rw [hpc] at hl
      simp only [headPc]
      split
      · exact hl
      · next hw => exact ⟨hl, le_rfl, by omega, by rw [sub_self]; rfl⟩
    | rpcError hpc => rw [hpc] at hl; exact .inl hl
    | fetch b hpc hn _ =>
      rw [hpc] at hl
      simp only [fetchInput, hpc, decide_eq_true_eq] at hg
      subst hg
      exact hl.fetch hn
    | scanEnd hpc hor => rw [hpc] at hl; exact hl.scanEnd hor
    | processEnd hpc => rw [hpc] at hl; exact hl.processEnd
    | processBreak hpc hs => rw [hpc] at hl; exact hl.break hs
    | processSkip hpc _ hk => rw [hpc] at hl; exact hl.skip hk
    | crash _ => trivial
    | _ => simp_all [Pc.window?]
  | cxsPrice p' h => rcases h with ⟨hpc, rfl, -⟩ | ⟨hpc, rfl, -⟩ <;> (rw [hpc] at hl; exact hl)
  | nextepPrice q' h => rcases h with ⟨hpc, rfl, -⟩ | ⟨hpc, rfl, -⟩ <;> (rw [hpc] at hl; exact hl)
  | @valuate w d rest hpc _ hd =>
    rw [hpc] at hl
    have hmem : d ∈ windowDeposits cfg.bridgeAddress chain w := by
      obtain ⟨done, hdone, -⟩ := hl
      exact hdone.subset (by simp)
    obtain ⟨R, hR⟩ := calculateRevoAmount_returns d.tokenAddress
      (chainDeposits_amount_lt hchain _ _ d hmem) hp hq hr
    rw [← hrevo] at hR
    simp only [Machine.goto_pc, Machine.goto_lastBlockProcessed, Machine.goto_processedTxs,
      Machine.goto_shutdownRequested, Machine.emit_lastBlockProcessed, Machine.emit_processedTxs,
      Machine.emit_shutdownRequested]
    rw [hi.prices.cxs (.inr (by rw [hpc]; rfl)), hi.prices.nextep (by rw [hpc]; rfl), hR]
    exact hl.valuate hd hR
  | @mint w d a rest res hpc =>
    rw [hpc] at hl
    obtain ⟨id, hid⟩ := Option.isSome_iff_exists.mp (show res.txId.isSome = true from hg)
    have hraised : res ≠ .raised := by rintro rfl; cases hid
    rw [mintStep_pc, if_neg hraised, mintStep_lastBlockProcessed, mintStep_processedTxs, hid,
      mintStep_shutdownRequested]
    exact hl.mint id
  | save r hpc =>
    rw [hpc] at hl
    obtain ⟨hs, hw, -⟩ := hi.windows.current _ (by rw [hpc]; rfl)
    have hlo := hi.windows.contiguous.le
    exact hl.save hs hw hlo (reference_window _ _ _ _ _ _ (by omega) hs hw)
  | finalSave r hpc => rw [hpc] at hl; exact hl

include hcxs hnextep hrevo hp hq hr hchain in
theorem refInv_next {m m' : Machine} (hi : RefInv cfg p q chain loaded L₀ m) {i : Input}
    (hg : fetchInput chain m i = true) (hn : Next cfg m i m') : RefInv cfg p q chain loaded L₀ m' :=
  ⟨priceInv_next hcxs hnextep hp.floatTruthy hq.floatTruthy hi.prices hn, windowInv_next hi.windows hn,
    refAt_next hrevo hp hq hr hchain hi hg hn⟩

end Simulation

/-! ## The bridge refines the reference -/

/-- A shutdown request right after block 1, which holds a deposit of one CXS, is fetched: the cycle breaks out of
`process_deposits` before the deposit, and its save still writes `last_block_processed = 1` with no entry. -/
theorem run_shutdown_skips_deposit :
    let cfg : Config := ⟨"0xb", .finite ⟨1, 0⟩, some (.finite ⟨1, 0⟩), some (.finite ⟨1, 0⟩), 60, 12, 100⟩
    let block : Block := ⟨0, [⟨"0x01", "0xa", some "0xb", 10 ^ 18, "0x"⟩]⟩
    let deposit : Deposit := ⟨"0x01", "0xa", cxsTokenAddress, 10 ^ 18, 1, 0⟩
    let m := run cfg (Machine.init .absent)
      [.connected true, .tick, .tick, .tick, .tick, .head 13, .block (some block), .signal, .tick, .tick,
        .save .written]
    scanBlock cfg.bridgeAddress tokenAddresses 1 block [] = [deposit] ∧
      calculateRevoAmount deposit.tokenAddress deposit.amount (.finite ⟨1, 0⟩) (.finite ⟨1, 0⟩) cfg.revoPrice =
        .ok (10 ^ 18) ∧
      m.file = .written 1 Ledger.empty := by
  decide

/-- **A graceful stop loses a suffix of one window.** In the environment of `run_refines_reference` with shutdown
requests and failing RPC calls allowed: whenever the bridge stands between cycles (and has not died),
`processed_txs` without the mint hashes is the reference, or a shutdown was requested and it is the reference up to
some block `last₀` with only a prefix of the deposits of blocks `last₀ + 1 .. last_block_processed` folded in. The
deposits past that prefix are never credited, though the file says their blocks were processed. -/
theorem run_shutdown_loses_suffix (cfg : Config) {p q r : Dec} (hcxs : cfg.cxsPrice = some (.finite p))
    (hnextep : cfg.nextepPrice = some (.finite q)) (hrevo : cfg.revoPrice = .finite r) (hp : FloatRange p.val)
    (hq : FloatRange q.val) (hr : FloatRange r.val) (chain : ℤ → Block)
    (hchain : ∀ n, ∀ tx ∈ (chain n).transactions, tx.value < 2 ^ 256) (file : StateFile) (inputs : List Input)
    (hrun : envRun cfg (fetchInput chain) (Machine.init file) inputs = true)
    (hend : (run cfg (Machine.init file) inputs).pc.window? = none)
    (hlive : (run cfg (Machine.init file) inputs).pc ≠ .crashed) :
    let m := run cfg (Machine.init file) inputs
    let ref := reference cfg.bridgeAddress (.finite p) (.finite q) (.finite r) chain file.load.2 (file.load.1 + 1)
    m.processedTxs.summary = ref m.lastBlockProcessed ∨
      m.shutdownRequested = true ∧
        CutShort cfg (.finite p) (.finite q) chain ref file.load.1 m.lastBlockProcessed m.processedTxs := by
  have hi := run_of_next_env
    (fun _ _ _ hi hg hn => refInv_next hcxs hnextep hrevo hp hq hr hchain hi hg hn)
    (refInv_init cfg p q chain file) hrun
  rw [← hrevo]
  exact hi.ledger.outside hend hlive

/-- The run of `run_shutdown_skips_deposit` between cycles: the ledger is not the reference up to block 1, whose
deposit it lacks, but the reference up to block 0 with none of the deposits of block 1. -/
theorem run_shutdown_loses_suffix_one_block :
    let cfg : Config := ⟨"0xb", .finite ⟨1, 0⟩, some (.finite ⟨1, 0⟩), some (.finite ⟨1, 0⟩), 60, 12, 100⟩
    let chain : ℤ → Block := fun n => if n = 1 then ⟨0, [⟨"0x01", "0xa", some "0xb", 10 ^ 18, "0x"⟩]⟩ else ⟨0, []⟩
    let m := run cfg (Machine.init .absent)
      [.connected true, .tick, .tick, .tick, .tick, .head 13, .block (some (chain 1)), .signal, .tick, .tick,
        .save .written]
    let ref := reference cfg.bridgeAddress (.finite ⟨1, 0⟩) (.finite ⟨1, 0⟩) (.finite ⟨1, 0⟩) chain
      StateFile.absent.load.2 (StateFile.absent.load.1 + 1)
    m.processedTxs.summary ≠ ref m.lastBlockProcessed ∧
      (m.processedTxs.summary = ref m.lastBlockProcessed ∨
        m.shutdownRequested = true ∧ CutShort cfg (.finite ⟨1, 0⟩) (.finite ⟨1, 0⟩) chain ref
          StateFile.absent.load.1 m.lastBlockProcessed m.processedTxs) := by
  have hf : FloatRange (Dec.val ⟨1, 0⟩) := by norm_num [FloatRange, Dec.val]
  exact ⟨by decide, run_shutdown_loses_suffix _ rfl rfl rfl hf hf hf _
    (fun n tx htx => by split_ifs at htx <;> simp_all) _ _ (by decide) (by decide) (by decide)⟩

end RevoMigration.Bridge
