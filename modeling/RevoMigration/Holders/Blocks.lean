import RevoMigration.Holders.Accounts

/-!
# Which blocks the holders fetcher scans

`get_accounts_with_balance` scans `range(start_block, end_block + 1)` for `start_block = 1, 1 + batch_size, …` with
`end_block = min(start_block + batch_size - 1, latest_block)`, and between batches sets `start_block = end_block + 1`.
Over every run, whatever the node answers and wherever the signals fall:

- with `batch_size ≥ 1` the blocks asked for are `1, 2, …, k` in order, each once, with `k ≤ latest_block`, and a
  scan that ends without a shutdown request has asked for all of them (`run_blockRequests`; invariant `CoverAt`);
- with `batch_size ≤ 0` no block is ever asked for: `end_block < start_block`, and `start_block` never grows. The scan
  then ends without a shutdown request only on a chain whose latest block is 0; elsewhere the process sleeps
  `pause_seconds` batch after batch until a signal (`run_blockRequests_of_batchSize_nonpos`; invariant `IdleAt`).

Block 0 is never scanned.
-/

namespace RevoMigration.Holders

open RevoMigration.Decimal

/-- The scan is over: `get_accounts_with_balance` is past its `while` loop. -/
def Pc.scanDone : Pc → Bool
  | .scanned => true
  | .balanceCheck _ => true
  | .balanceFetch _ _ => true
  | .balanceSave _ _ => true
  | .returned _ => true
  | .saved _ => true
  | _ => false

namespace Fetcher

/-! ## With `batch_size ≥ 1` -/

/-- What the scan has asked for at each place: the blocks `1, …, k` with `k` the block before the place's, or
fewer after a shutdown request. -/
def CoverAt (m : Fetcher) : Pc → Prop
  | .connect => blockRequests m.log = []
  | .chainId => blockRequests m.log = []
  | .latest => blockRequests m.log = []
  | .batch start => ∃ k : ℕ, blockRequests m.log = blocksTo k ∧ 1 ≤ start ∧ start ≤ m.latestBlock + 1 ∧
      (k : ℤ) ≤ start - 1 ∧ (m.shutdownRequested = false → (k : ℤ) = start - 1)
  | .check n stop => ∃ k : ℕ, blockRequests m.log = blocksTo k ∧ 1 ≤ n ∧ n ≤ stop + 1 ∧ stop ≤ m.latestBlock ∧
      (k : ℤ) ≤ n - 1 ∧ (m.shutdownRequested = false → (k : ℤ) = n - 1)
  | .fetch n stop => ∃ k : ℕ, blockRequests m.log = blocksTo k ∧ (k : ℤ) = n - 1 ∧ n ≤ stop ∧ stop ≤ m.latestBlock
  | .batchSave stop | .batchEnd stop => ∃ k : ℕ, blockRequests m.log = blocksTo k ∧ 0 ≤ stop ∧
      stop ≤ m.latestBlock ∧ (k : ℤ) ≤ stop ∧ (m.shutdownRequested = false → (k : ℤ) = stop)
  | .balanceCheck _ | .balanceFetch _ _ | .balanceSave _ _ => ∃ k : ℕ, blockRequests m.log = blocksTo k ∧
      (k : ℤ) = m.latestBlock
  | .failed _ => ∃ k : ℕ, blockRequests m.log = blocksTo k ∧ (k : ℤ) ≤ max m.latestBlock 0
  | _ => ∃ k : ℕ, blockRequests m.log = blocksTo k ∧ (k : ℤ) ≤ m.latestBlock ∧
      (m.shutdownRequested = false → (k : ℤ) = m.latestBlock)

theorem coverAt_goto (m : Fetcher) (pc q : Pc) : CoverAt (m.goto pc) q = CoverAt m q := by
  cases q <;> rfl

theorem CoverAt.signal {m : Fetcher} {pc : Pc} (h : CoverAt m pc) :
    CoverAt { m with shutdownRequested := true } pc := by
  have hf : ¬(true = false) := Bool.true_eq_false ▸ not_false
  cases pc with
  | batch start =>
    obtain ⟨k, hk, h1, h2, h3, -⟩ := h
    exact ⟨k, hk, h1, h2, h3, fun h => absurd h hf⟩
  | check n stop =>
    obtain ⟨k, hk, h1, h2, h3, h4, -⟩ := h
    exact ⟨k, hk, h1, h2, h3, h4, fun h => absurd h hf⟩
  | batchSave stop | batchEnd stop =>
    obtain ⟨k, hk, h1, h2, h3, -⟩ := h
    exact ⟨k, hk, h1, h2, h3, fun h => absurd h hf⟩
  | scanned =>
    obtain ⟨k, hk, h1, -⟩ := h
    exact ⟨k, hk, h1, fun h => absurd h hf⟩
  | returned _ =>
    obtain ⟨k, hk, h1, -⟩ := h
    exact ⟨k, hk, h1, fun h => absurd h hf⟩
  | saved _ =>
    obtain ⟨k, hk, h1, -⟩ := h
    exact ⟨k, hk, h1, fun h => absurd h hf⟩
  | _ => exact h

/-- After a failure the blocks asked for are still `1, …, k` with `k ≤ latest_block`. -/
theorem CoverAt.failed {m : Fetcher} (h : CoverAt m m.pc) (hl : 0 ≤ m.latestBlock) (hw : m.pc.waits = true) :
    ∃ k : ℕ, blockRequests m.log = blocksTo k ∧ (k : ℤ) ≤ max m.latestBlock 0 := by
  cases hpc : m.pc <;> rw [hpc] at h <;> simp only [Pc.waits, hpc, reduceCtorEq] at hw
  · exact ⟨0, h, by simp⟩
  · obtain ⟨k, hk, h1, h2, h3⟩ := h
    exact ⟨k, hk, by omega⟩
  · obtain ⟨k, hk, h1⟩ := h
    exact ⟨k, hk, by omega⟩

section Step

variable {cfg : Config} (hbatch : 1 ≤ cfg.batchSize)
include hbatch

theorem CoverAt.goto {m : Fetcher} {pc : Pc} (h : CoverAt m m.pc) (hp : PcNext cfg m pc) :
    CoverAt (m.goto pc) pc := by
  rw [coverAt_goto]
  cases hp with
  | batchEnter hpc hs hf =>
    rw [hpc] at h
    obtain ⟨k, hk, h1, -, h3, h4⟩ := h
    exact ⟨k, hk, h1, by omega, by omega, h3, h4⟩
  | batchExit hpc hs =>
    rw [hpc] at h
    obtain ⟨k, hk, -, h2, h3, h4⟩ := h
    refine ⟨k, hk, by omega, fun hf => ?_⟩
    have := h4 hf
    rcases hs with hs | hs
    · omega
    · exact absurd (hs.symm.trans hf) (by simp)
  | @checkExit n stop hpc hs =>
    rw [hpc] at h
    obtain ⟨k, hk, h1, h2, h3, h4, h5⟩ := h
    have hend : CoverAt m (.batchEnd stop) := ⟨k, hk, by omega, h3, by omega, fun hf => by
      have := h5 hf
      rcases hs with hs | hs
      · omega
      · exact absurd (hs.symm.trans hf) (by simp)⟩
    split <;> exact hend
  | checkFetch hpc hle hf =>
    rw [hpc] at h
    obtain ⟨k, hk, -, -, h3, -, h5⟩ := h
    exact ⟨k, hk, h5 hf, hle, h3⟩
  | pauseFail hpc | batchSaveFail hpc =>
    rw [hpc] at h
    obtain ⟨k, hk, -, h2, h3, -⟩ := h
    exact ⟨k, hk, by omega⟩
  | mainFail hpc =>
    rw [hpc] at h
    obtain ⟨k, hk, h1, -⟩ := h
    exact ⟨k, hk, le_max_of_le_left h1⟩
  | nextBatch hpc =>
    rw [hpc] at h
    obtain ⟨k, hk, h1, h2, h3, h4⟩ := h
    exact ⟨k, hk, by omega, by omega, by omega, fun hf => by have := h4 hf; omega⟩
  | scannedGo hpc hf =>
    rw [hpc] at h
    obtain ⟨k, hk, -, h3⟩ := h
    exact ⟨k, hk, h3 hf⟩
  | balanceEnd hpc =>
    rw [hpc] at h
    obtain ⟨k, hk, h1⟩ := h
    exact ⟨k, hk, h1.le, fun _ => h1⟩
  | scannedStop hpc | balanceNext hpc | main hpc | batchSaved hpc | balanceSaved hpc => rw [hpc] at h; exact h

/-- **Every transition keeps the invariant.** -/
theorem coverAt_next {m m' : Fetcher} (h : CoverAt m m.pc) (hl : 0 ≤ m.latestBlock) (hn : Next cfg m m') :
    CoverAt m' m'.pc ∧ 0 ≤ m'.latestBlock := by
  cases hn with
  | stay => exact ⟨h, hl⟩
  | signal => exact ⟨h.signal, hl⟩
  | goto hp => exact ⟨h.goto hbatch hp, hl⟩
  | connected time hpc | chainId time hpc =>
    rw [hpc] at h
    exact ⟨by simpa [CoverAt, Rpc.requestedBlock] using h, hl⟩
  | notConnected time hpc | chainIdFail time hpc | latestFail hpc =>
    rw [hpc] at h
    exact ⟨⟨0, by simpa [Rpc.requestedBlock] using h, by simp⟩, hl⟩
  | raise hw =>
    obtain ⟨k, hk, hle⟩ := h.failed hl hw
    exact ⟨⟨k, hk, hle⟩, hl⟩
  | latest n hpc =>
    rw [hpc] at h
    refine ⟨⟨0, by simpa [called, Rpc.requestedBlock] using h, le_rfl, by simp [called], by simp, fun _ => rfl⟩, ?_⟩
    simp
  | @block call n stop answer hpc =>
    rw [hpc] at h
    obtain ⟨k, hk, h1, h2, h3⟩ := h
    have hn : n = (k : ℤ) + 1 := by omega
    refine ⟨⟨k + 1, ?_, by omega, by omega, by simpa using h3, by simp; omega, fun _ => by simp; omega⟩, by simpa⟩
    simp [hk, Rpc.requestedBlock, blocksTo_succ, hn]
  | @balance call address rest answer hpc =>
    rw [hpc] at h
    obtain ⟨k, hk, h1⟩ := h
    have hcover : ∃ k : ℕ, blockRequests ((m.called call (.getBalance address answer)).storeBalance address rest
        answer).log = blocksTo k ∧ (k : ℤ) = ((m.called call (.getBalance address answer)).storeBalance address rest
        answer).latestBlock := ⟨k, by simpa [Rpc.requestedBlock] using hk, by simpa using h1⟩
    refine ⟨?_, by simpa⟩
    rcases storeBalance_pc (m.called call (.getBalance address answer)) address rest answer with hp | hp <;>
      rw [hp] <;> exact hcover
  | dropBalance hpc =>
    rw [hpc] at h
    exact ⟨h, hl⟩

end Step

/-- **The scan asks for each block once.** With `batch_size ≥ 1`, over every run the blocks asked for are
`1, 2, …, k` in order, with `k ≤ latest_block`; and once the scan is over without a shutdown request,
`k = latest_block`: every block from 1 to the latest was asked for before any balance. -/
theorem run_blockRequests (cfg : Config) (hbatch : 1 ≤ cfg.batchSize) (created : ℚ) (inputs : List Input)
    {m : Fetcher} (hrun : run cfg (init cfg created) inputs = m) :
    ∃ k : ℕ, blockRequests m.log = blocksTo k ∧ (k : ℤ) ≤ max m.latestBlock 0 ∧
      (m.pc.scanDone = true → m.shutdownRequested = false → (k : ℤ) = m.latestBlock) := by
  obtain ⟨h, hl⟩ : CoverAt m m.pc ∧ 0 ≤ m.latestBlock := hrun ▸
    run_of_next (P := fun m => CoverAt m m.pc ∧ 0 ≤ m.latestBlock) (fun _ _ hi hn => coverAt_next hbatch hi.1 hi.2 hn)
      _ inputs ⟨rfl, le_rfl⟩
  have hnot : ∀ {P : Prop}, false = true → P := fun h => absurd h Bool.false_ne_true
  cases hpc : m.pc <;> rw [hpc] at h
  case connect | chainId | latest => exact ⟨0, h, by simp, hnot⟩
  case batch | batchSave | batchEnd =>
    obtain ⟨k, hk, -, h2, h3, -⟩ := h
    exact ⟨k, hk, by omega, hnot⟩
  case check n stop =>
    obtain ⟨k, hk, -, h2, h3, h4, -⟩ := h
    exact ⟨k, hk, by omega, hnot⟩
  case fetch n stop =>
    obtain ⟨k, hk, h1, h2, h3⟩ := h
    exact ⟨k, hk, by omega, hnot⟩
  case scanned | returned | saved =>
    obtain ⟨k, hk, h1, h2⟩ := h
    exact ⟨k, hk, le_max_of_le_left h1, fun _ => h2⟩
  case balanceCheck | balanceFetch | balanceSave =>
    obtain ⟨k, hk, h1⟩ := h
    exact ⟨k, hk, by omega, fun _ _ => h1⟩
  case failed =>
    obtain ⟨k, hk, h1⟩ := h
    exact ⟨k, hk, h1, hnot⟩

/-! ## With `batch_size ≤ 0` -/

/-- Where the scan stands when it cannot advance: every batch's range is empty and `start_block` stays at most 1,
so the scan can only end on a chain whose latest block is 0, or on a shutdown request. -/
def IdleAt (m : Fetcher) : Pc → Prop
  | .batch start => start ≤ 1
  | .check n stop => stop < n ∧ n ≤ 1
  | .fetch _ _ => False
  | .batchSave stop | .batchEnd stop => stop ≤ 0
  | .scanned | .balanceCheck _ | .balanceFetch _ _ | .balanceSave _ _ | .returned _ | .saved _ =>
      m.shutdownRequested = false → m.latestBlock = 0
  | _ => True

theorem idleAt_goto (m : Fetcher) (pc q : Pc) : IdleAt (m.goto pc) q = IdleAt m q := by
  cases q <;> rfl

theorem IdleAt.signal {m : Fetcher} {pc : Pc} (h : IdleAt m pc) : IdleAt { m with shutdownRequested := true } pc := by
  have hf : ¬(true = false) := Bool.true_eq_false ▸ not_false
  cases pc <;> first
    | exact h
    | exact fun h => absurd h hf

section Step

variable {cfg : Config} (hbatch : cfg.batchSize ≤ 0)
include hbatch

theorem IdleAt.goto {m : Fetcher} {pc : Pc} (h : IdleAt m m.pc) (hl : 0 ≤ m.latestBlock) (hp : PcNext cfg m pc) :
    IdleAt (m.goto pc) pc := by
  rw [idleAt_goto]
  cases hp with
  | batchEnter hpc =>
    rw [hpc] at h
    exact ⟨by simp only [IdleAt] at h; omega, h⟩
  | batchExit hpc hs =>
    rw [hpc] at h
    simp only [IdleAt] at h
    intro hf
    rcases hs with hs | hs
    · omega
    · exact absurd (hs.symm.trans hf) (by simp)
  | checkExit hpc => rw [hpc] at h; simp only [IdleAt] at h; split <;> (simp only [IdleAt]; omega)
  | nextBatch hpc => rw [hpc] at h; simp only [IdleAt] at h ⊢; omega
  | checkFetch hpc hle => rw [hpc] at h; simp only [IdleAt] at h; omega
  | pauseFail | batchSaveFail | mainFail => trivial
  | scannedStop hpc | scannedGo hpc | balanceEnd hpc | balanceNext hpc | main hpc | batchSaved hpc | balanceSaved hpc =>
    rw [hpc] at h; exact h

/-- **Every transition keeps the invariant, and asks for no block.** -/
theorem idleAt_next {m m' : Fetcher} (h : IdleAt m m.pc) (hb : blockRequests m.log = []) (hl : 0 ≤ m.latestBlock)
    (hn : Next cfg m m') : IdleAt m' m'.pc ∧ blockRequests m'.log = [] ∧ 0 ≤ m'.latestBlock := by
  cases hn with
  | stay => exact ⟨h, hb, hl⟩
  | signal => exact ⟨h.signal, hb, hl⟩
  | goto hp => exact ⟨h.goto hbatch hl hp, hb, hl⟩
  | connected => exact ⟨trivial, by simpa [Rpc.requestedBlock] using hb, hl⟩
  | notConnected => exact ⟨trivial, by simpa [Rpc.requestedBlock] using hb, hl⟩
  | chainId => exact ⟨trivial, by simpa [Rpc.requestedBlock] using hb, hl⟩
  | chainIdFail => exact ⟨trivial, by simpa [Rpc.requestedBlock] using hb, hl⟩
  | raise => exact ⟨trivial, hb, hl⟩
  | latest n => exact ⟨show (1 : ℤ) ≤ 1 from le_rfl, by simpa [called, Rpc.requestedBlock] using hb, by simp⟩
  | latestFail => exact ⟨trivial, by simpa [Rpc.requestedBlock] using hb, hl⟩
  | block answer hpc => rw [hpc] at h; exact h.elim
  | @balance call address rest answer hpc =>
    rw [hpc] at h
    refine ⟨?_, by simpa [Rpc.requestedBlock] using hb, by simpa using hl⟩
    rcases storeBalance_pc (m.called call (.getBalance address answer)) address rest answer with hp | hp <;>
      rw [hp] <;> simpa only [IdleAt, storeBalance_shutdownRequested, called_shutdownRequested,
        storeBalance_latestBlock, called_latestBlock] using h
  | dropBalance hpc => rw [hpc] at h; exact ⟨h, hb, hl⟩

end Step

unseal Rat.sub Rat.add in
/-- A chain of two blocks scanned in batches of one: blocks 1 and 2, then the balances. -/
theorem run_blockRequests_two_batches :
    let m := run ⟨30, 1, 5⟩ (init ⟨30, 1, 5⟩ 0) [.isConnected 0 true, .chainId 0 true, .blockNumber ⟨0, 0⟩ (some 2),
      .tick, .tick, .block ⟨1, 1⟩ (some []), .tick, .tick, .tick, .tick, .block ⟨2, 2⟩ (some []), .tick, .tick,
      .tick, .tick]
    m.pc = .balanceCheck [] ∧ blockRequests m.log = [1, 2] ∧ (1 : ℤ) ≤ 1 ∧
      ∃ k : ℕ, blockRequests m.log = blocksTo k ∧ (k : ℤ) ≤ max m.latestBlock 0 ∧
        (m.pc.scanDone = true → m.shutdownRequested = false → (k : ℤ) = m.latestBlock) := by
  intro m
  exact ⟨by decide, by decide, le_rfl, run_blockRequests ⟨30, 1, 5⟩ le_rfl 0 _ rfl⟩

/-- **A batch size of zero or less never advances.** With `batch_size ≤ 0`, over every run no block is asked for,
and a scan that ends without a shutdown request ends on a chain whose latest block is 0: on any longer chain the
loop sleeps `pause_seconds` batch after batch until a signal. -/
theorem run_blockRequests_of_batchSize_nonpos (cfg : Config) (hbatch : cfg.batchSize ≤ 0) (created : ℚ)
    (inputs : List Input) {m : Fetcher} (hrun : run cfg (init cfg created) inputs = m) :
    blockRequests m.log = [] ∧ (m.pc.scanDone = true → m.shutdownRequested = false → m.latestBlock = 0) := by
  obtain ⟨h, hb, -⟩ : IdleAt m m.pc ∧ blockRequests m.log = [] ∧ 0 ≤ m.latestBlock := hrun ▸
    run_of_next (P := fun m => IdleAt m m.pc ∧ blockRequests m.log = [] ∧ 0 ≤ m.latestBlock)
      (fun _ _ hi hn => idleAt_next hbatch hi.1 hi.2.1 hi.2.2 hn) _ inputs ⟨trivial, rfl, le_rfl⟩
  refine ⟨hb, fun hd => ?_⟩
  cases hpc : m.pc <;> rw [hpc] at h <;> simp only [hpc, Pc.scanDone, reduceCtorEq] at hd <;> exact h

unseal Rat.sub Rat.add in
/-- `--batch 0` on a chain of three blocks: the loop turns without asking for a block until a signal, writing the
intermediate file after every batch since `processed_count` stays 0, and the scan ends with nothing found. -/
theorem run_blockRequests_of_batchSize_zero :
    let m := run ⟨30, 0, 5⟩ (init ⟨30, 0, 5⟩ 0) [.isConnected 0 true, .chainId 0 true, .blockNumber ⟨0, 0⟩ (some 3),
      .tick, .tick, .save true, .tick, .tick, .tick, .save true, .tick, .signal, .tick, .tick, .save true]
    m.pc = .saved [] ∧ m.latestBlock = 3 ∧ (0 : ℤ) ≤ 0 ∧
      (blockRequests m.log = [] ∧ (m.pc.scanDone = true → m.shutdownRequested = false → m.latestBlock = 0)) := by
  intro m
  exact ⟨by decide, by decide, le_rfl, run_blockRequests_of_batchSize_nonpos ⟨30, 0, 5⟩ le_rfl 0 _ rfl⟩

end Fetcher

end RevoMigration.Holders
