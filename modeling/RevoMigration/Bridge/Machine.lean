import RevoMigration.Bridge.State

/-!
# `run_bridge` as a machine

One lifetime of the bridge process is a machine (`Machine`) that the environment drives with inputs (`Input`):
an internal step (`tick`), a `SIGINT`/`SIGTERM` (the handler sets `shutdown_requested`), a crash of the process, or
the outcome of a call the code makes (the RPC node, the price oracle, the mint command, the write of the state
file). The program counter (`Pc`) names the place in `run_bridge`, `scan_for_deposits` and `process_deposits` the
process has reached; `step` executes the code from there up to the next place where an input matters, and an
input that does not fit the place changes nothing. A run is a list of inputs (`run`), and a run of the bridge
over several lifetimes starts each one from the file the previous one left (`lifetimes`).

Besides the code's own state the machine keeps the state file and a ghost trace of what the process did
(`Event`): each valuation with the prices it used, each mint call with its result, each window whose end became
`last_block_processed`, and each state that `save_state` wrote.

Every step is one of the transitions of `Next` (`step_next`), which the invariants of the other modules are
proved over.
-/

namespace RevoMigration.Bridge

open RevoMigration.Decimal

/-! ## Configuration, windows and inputs -/

/-- The arguments `run_bridge` reads; the key, the endpoints, the chain id and the binary only reach the mint
command, whose outcome is an input. The prices are the floats' `Decimal(str(f))`. -/
structure Config where
  bridgeAddress : String
  revoPrice : PyDecimal
  cxsPrice : Option PyDecimal
  nextepPrice : Option PyDecimal
  pollInterval : ℤ
  confirmations : ℤ
  maxBlocks : ℤ

/-- `time.sleep(args.poll_interval)` returns: it raises `ValueError` on a negative length and `OverflowError`
past the largest timeout in nanoseconds. -/
def Config.sleepOk (cfg : Config) : Bool := decide (0 ≤ cfg.pollInterval ∧ cfg.pollInterval ≤ 9223372036)

/-- `if not args.cxs_price:` of the loop: no override, or a falsy one. -/
def refreshes : Option PyDecimal → Bool
  | none => true
  | some p => !p.floatTruthy

/-- A cycle's window `[start_block, end_block]` with the head it was computed from. -/
structure Window where
  start : ℤ
  stop : ℤ
  head : ℤ
deriving DecidableEq, Repr

/-- `start_block = last + 1`, `end_block = min(current_block - confirmations, start_block + max_blocks - 1)`. -/
def Config.window (cfg : Config) (last head : ℤ) : Window :=
  ⟨last + 1, min (head - cfg.confirmations) (last + 1 + cfg.maxBlocks - 1), head⟩

/-- What `mint_revo_tokens` does: return a transaction hash or `None`, or raise (the key file's `os.remove` in
its `finally` clause can). -/
inductive MintResult
  | returned (txHash : Option String)
  | raised
deriving DecidableEq, Repr

/-- `if mint_tx_hash:` — the returned hash, when it is a non-empty string. -/
def MintResult.txId : MintResult → Option String
  | .returned (some h) => if h = "" then none else some h
  | _ => none

/-- What the environment does next. -/
inductive Input
  | tick
  | signal
  | crash
  | connected (ok : Bool)
  | price (p : PyDecimal)
  | head (h : ℤ)
  | rpcError
  | block (b : Option Block)
  | mint (r : MintResult)
  | save (r : SaveResult)
deriving DecidableEq

/-! ## The machine -/

/-- Where the process is. -/
inductive Pc
  | connect
  | priceCxs
  | priceNextep
  | checkPrices
  | top
  | head
  | idle
  | scan (w : Window) (n : ℤ) (deposits : List Deposit)
  | process (w : Window) (deposits : List Deposit)
  | minting (w : Window) (d : Deposit) (amount : ℤ) (rest : List Deposit)
  | save (w : Window)
  | pause
  | refreshCxs
  | refreshNextep
  | handler
  | finalSave
  | stopped (code : ℕ)
  | crashed
deriving DecidableEq

/-- The process has not returned or died. -/
def Pc.running : Pc → Bool
  | .stopped _ => false
  | .crashed => false
  | _ => true

/-- What the trace records. -/
inductive Event
  | valuation (d : Deposit) (cxsPrice nextepPrice : PyDecimal)
  | mintCall (d : Deposit) (amount : ℤ) (result : MintResult)
  | advance (w : Window)
  | saved (lastBlockProcessed : ℤ) (processedTxs : Ledger) (result : SaveResult)
deriving DecidableEq

/-- One lifetime of the bridge: the code's state, the state file and the trace. -/
structure Machine where
  pc : Pc
  lastBlockProcessed : ℤ
  processedTxs : Ledger
  cxsPrice : PyDecimal
  nextepPrice : PyDecimal
  shutdownRequested : Bool
  file : StateFile
  trace : List Event

namespace Machine

/-- `BridgeState(args.state_file)` at the start of a lifetime, before the prices are read. -/
def init (file : StateFile) : Machine :=
  ⟨.connect, file.load.1, file.load.2, .ofInt 0, .ofInt 0, false, file, []⟩

def goto (m : Machine) (pc : Pc) : Machine := { m with pc := pc }

def emit (m : Machine) (e : Event) : Machine := { m with trace := m.trace ++ [e] }

@[simp] theorem goto_pc (m : Machine) (pc : Pc) : (m.goto pc).pc = pc := rfl
@[simp] theorem goto_lastBlockProcessed (m : Machine) (pc : Pc) :
    (m.goto pc).lastBlockProcessed = m.lastBlockProcessed := rfl
@[simp] theorem goto_processedTxs (m : Machine) (pc : Pc) : (m.goto pc).processedTxs = m.processedTxs := rfl
@[simp] theorem goto_cxsPrice (m : Machine) (pc : Pc) : (m.goto pc).cxsPrice = m.cxsPrice := rfl
@[simp] theorem goto_nextepPrice (m : Machine) (pc : Pc) : (m.goto pc).nextepPrice = m.nextepPrice := rfl
@[simp] theorem goto_shutdownRequested (m : Machine) (pc : Pc) :
    (m.goto pc).shutdownRequested = m.shutdownRequested := rfl
@[simp] theorem goto_file (m : Machine) (pc : Pc) : (m.goto pc).file = m.file := rfl
@[simp] theorem goto_trace (m : Machine) (pc : Pc) : (m.goto pc).trace = m.trace := rfl
@[simp] theorem emit_pc (m : Machine) (e : Event) : (m.emit e).pc = m.pc := rfl
@[simp] theorem emit_lastBlockProcessed (m : Machine) (e : Event) :
    (m.emit e).lastBlockProcessed = m.lastBlockProcessed := rfl
@[simp] theorem emit_processedTxs (m : Machine) (e : Event) : (m.emit e).processedTxs = m.processedTxs := rfl
@[simp] theorem emit_cxsPrice (m : Machine) (e : Event) : (m.emit e).cxsPrice = m.cxsPrice := rfl
@[simp] theorem emit_nextepPrice (m : Machine) (e : Event) : (m.emit e).nextepPrice = m.nextepPrice := rfl
@[simp] theorem emit_shutdownRequested (m : Machine) (e : Event) :
    (m.emit e).shutdownRequested = m.shutdownRequested := rfl
@[simp] theorem emit_file (m : Machine) (e : Event) : (m.emit e).file = m.file := rfl
@[simp] theorem emit_trace (m : Machine) (e : Event) : (m.emit e).trace = m.trace ++ [e] := rfl

end Machine

/-! ## The code, place by place -/

/-- The checks after the startup prices: `cxs_price <= 0 or nextep_price <= 0` (a NaN raises
`InvalidOperation`, which nothing catches), then `args.revo_price <= 0`. -/
def checkPrices (cfg : Config) (cxsPrice nextepPrice : PyDecimal) : Pc :=
  match cxsPrice.compareZero with
  | .error _ => .crashed
  | .ok o =>
    if o ≠ .gt then .stopped 1
    else match nextepPrice.compareZero with
      | .error _ => .crashed
      | .ok o' => if o' ≠ .gt then .stopped 1 else if cfg.revoPrice.floatLeZero then .stopped 1 else .top

/-- Where a cycle goes from head `h`: the scan of its window, or the sleep of `start_block > end_block`. -/
def headPc (cfg : Config) (last h : ℤ) : Pc :=
  let w := cfg.window last h
  if w.stop < w.start then .idle else .scan w w.start []

/-- The deposits after `get_block(n)`: a block that fails to load is logged and skipped. -/
def fetched (cfg : Config) (n : ℤ) : Option Block → List Deposit → List Deposit
  | some b, ds => scanBlock cfg.bridgeAddress tokenAddresses n b ds
  | none, ds => ds

/-- Where `process_deposits` goes after `calculate_revo_amount`: an exception leaves it for the loop's handler,
an amount `<= 0` is skipped, a positive one is minted. -/
def valuatedPc (w : Window) (d : Deposit) (rest : List Deposit) : Except PyError ℤ → Pc
  | .error _ => .handler
  | .ok r => if r ≤ 0 then .process w rest else .minting w d r rest

/-- The ledger entry `mark_tx_processed` records for deposit `d` minted as `amount` by transaction `id`. -/
def ledgerEntry (d : Deposit) (amount : ℤ) (id : String) : LedgerEntry :=
  ⟨d.fromAddress, d.tokenAddress, d.amount, amount, id⟩

/-- The pass of the loop of `process_deposits` over `d`, up to the mint call. -/
def processDeposit (cfg : Config) (m : Machine) (w : Window) (d : Deposit) (rest : List Deposit) : Machine :=
  if m.shutdownRequested then m.goto (.save w)
  else if m.processedTxs.contains d.txHash then m.goto (.process w rest)
  else (m.emit (.valuation d m.cxsPrice m.nextepPrice)).goto
    (valuatedPc w d rest (calculateRevoAmount d.tokenAddress d.amount m.cxsPrice m.nextepPrice cfg.revoPrice))

/-- The mint call of deposit `d` for `amount`, and `mark_tx_processed` when it returns a hash. -/
def mintStep (m : Machine) (w : Window) (d : Deposit) (amount : ℤ) (rest : List Deposit) (r : MintResult) :
    Machine :=
  let m := m.emit (.mintCall d amount r)
  match r with
  | .raised => m.goto .handler
  | .returned _ =>
    match r.txId with
    | some id => { m with processedTxs := m.processedTxs.insert d.txHash (ledgerEntry d amount id),
                          pc := .process w rest }
    | none => m.goto (.process w rest)

/-- `update_last_block(end_block)` and `save_state()` at the end of a cycle. -/
def saveStep (m : Machine) (w : Window) (r : SaveResult) : Machine :=
  { m with lastBlockProcessed := w.stop, file := saveState m.file w.stop m.processedTxs r, pc := .pause,
           trace := m.trace ++ [.advance w, .saved w.stop m.processedTxs r] }

/-- The `save_state()` after the loop, then `return 0`. -/
def finalSaveStep (m : Machine) (r : SaveResult) : Machine :=
  { m with file := saveState m.file m.lastBlockProcessed m.processedTxs r, pc := .stopped 0,
           trace := m.trace ++ [.saved m.lastBlockProcessed m.processedTxs r] }

/-- The internal steps. -/
def execTick (cfg : Config) (m : Machine) : Machine :=
  match m.pc with
  | .priceCxs => match cfg.cxsPrice with
    | some p => { m with cxsPrice := p, pc := .priceNextep }
    | none => m
  | .priceNextep => match cfg.nextepPrice with
    | some p => { m with nextepPrice := p, pc := .checkPrices }
    | none => m
  | .checkPrices => m.goto (checkPrices cfg m.cxsPrice m.nextepPrice)
  | .top => m.goto (if m.shutdownRequested then .finalSave else .head)
  | .idle => m.goto (if cfg.sleepOk then .top else .handler)
  | .scan w n ds => if w.stop < n ∨ m.shutdownRequested then m.goto (.process w ds) else m
  | .process w [] => m.goto (.save w)
  | .process w (d :: rest) => processDeposit cfg m w d rest
  | .pause => m.goto (if cfg.sleepOk then .refreshCxs else .handler)
  | .refreshCxs => if refreshes cfg.cxsPrice then m else m.goto .refreshNextep
  | .refreshNextep => if refreshes cfg.nextepPrice then m else m.goto .top
  | .handler => m.goto (if cfg.sleepOk then .top else .crashed)
  | _ => m

/-- The code run from the current place on one input. -/
def exec (cfg : Config) (m : Machine) : Input → Machine
  | .tick => execTick cfg m
  | .signal => { m with shutdownRequested := true }
  | .crash => m.goto .crashed
  | .connected ok => match m.pc with
    | .connect => m.goto (if ok then .priceCxs else .stopped 1)
    | _ => m
  | .price p => match m.pc with
    | .priceCxs => if cfg.cxsPrice.isNone then { m with cxsPrice := p, pc := .priceNextep } else m
    | .priceNextep => if cfg.nextepPrice.isNone then { m with nextepPrice := p, pc := .checkPrices } else m
    | .refreshCxs => if refreshes cfg.cxsPrice then { m with cxsPrice := p, pc := .refreshNextep } else m
    | .refreshNextep => if refreshes cfg.nextepPrice then { m with nextepPrice := p, pc := .top } else m
    | _ => m
  | .head h => match m.pc with
    | .head => m.goto (headPc cfg m.lastBlockProcessed h)
    | _ => m
  | .rpcError => match m.pc with
    | .head => m.goto .handler
    | _ => m
  | .block b => match m.pc with
    | .scan w n ds => if w.stop < n ∨ m.shutdownRequested then m else m.goto (.scan w (n + 1) (fetched cfg n b ds))
    | _ => m
  | .mint r => match m.pc with
    | .minting w d a rest => mintStep m w d a rest r
    | _ => m
  | .save r => match m.pc with
    | .save w => saveStep m w r
    | .finalSave => finalSaveStep m r
    | _ => m

/-- One step: a process that returned or died does nothing more. -/
def step (cfg : Config) (m : Machine) (i : Input) : Machine :=
  if m.pc.running then exec cfg m i else m

/-- A run of one lifetime. -/
def run (cfg : Config) (m : Machine) (inputs : List Input) : Machine := inputs.foldl (step cfg) m

@[simp] theorem run_nil (cfg : Config) (m : Machine) : run cfg m [] = m := rfl

@[simp] theorem run_cons (cfg : Config) (m : Machine) (i : Input) (inputs : List Input) :
    run cfg m (i :: inputs) = run cfg (step cfg m i) inputs := rfl

theorem run_append (cfg : Config) (m : Machine) (inputs more : List Input) :
    run cfg m (inputs ++ more) = run cfg (run cfg m inputs) more :=
  List.foldl_append _ _ _ _

/-- Lifetime after lifetime, each with the file it loaded: a lifetime loads the file the previous one left, and
one whose inputs end while it runs was killed there. -/
def lifetimes (cfg : Config) : StateFile → List (List Input) → List (StateFile × Machine)
  | _, [] => []
  | file, inputs :: rest =>
    let m := run cfg (Machine.init file) inputs
    (file, m) :: lifetimes cfg m.file rest

/-! ## What the transitions write -/

@[simp] theorem mintStep_trace (m : Machine) (w : Window) (d : Deposit) (a : ℤ) (rest : List Deposit)
    (r : MintResult) : (mintStep m w d a rest r).trace = m.trace ++ [.mintCall d a r] := by
  unfold mintStep; split <;> (try split) <;> rfl

theorem mintStep_processedTxs (m : Machine) (w : Window) (d : Deposit) (a : ℤ) (rest : List Deposit)
    (r : MintResult) : (mintStep m w d a rest r).processedTxs =
      match r.txId with
      | some id => m.processedTxs.insert d.txHash (ledgerEntry d a id)
      | none => m.processedTxs := by
  unfold mintStep; split <;> (try split) <;> simp_all [MintResult.txId]

theorem mintStep_pc (m : Machine) (w : Window) (d : Deposit) (a : ℤ) (rest : List Deposit) (r : MintResult) :
    (mintStep m w d a rest r).pc = if r = .raised then .handler else .process w rest := by
  cases r with
  | raised => rfl
  | returned h => rw [if_neg (by simp)]; simp only [mintStep]; split <;> rfl

@[simp] theorem mintStep_lastBlockProcessed (m : Machine) (w : Window) (d : Deposit) (a : ℤ) (rest : List Deposit)
    (r : MintResult) : (mintStep m w d a rest r).lastBlockProcessed = m.lastBlockProcessed := by
  unfold mintStep; split <;> (try split) <;> rfl

@[simp] theorem mintStep_cxsPrice (m : Machine) (w : Window) (d : Deposit) (a : ℤ) (rest : List Deposit)
    (r : MintResult) : (mintStep m w d a rest r).cxsPrice = m.cxsPrice := by
  unfold mintStep; split <;> (try split) <;> rfl

@[simp] theorem mintStep_nextepPrice (m : Machine) (w : Window) (d : Deposit) (a : ℤ) (rest : List Deposit)
    (r : MintResult) : (mintStep m w d a rest r).nextepPrice = m.nextepPrice := by
  unfold mintStep; split <;> (try split) <;> rfl

@[simp] theorem mintStep_shutdownRequested (m : Machine) (w : Window) (d : Deposit) (a : ℤ)
    (rest : List Deposit) (r : MintResult) :
    (mintStep m w d a rest r).shutdownRequested = m.shutdownRequested := by
  unfold mintStep; split <;> (try split) <;> rfl

@[simp] theorem mintStep_file (m : Machine) (w : Window) (d : Deposit) (a : ℤ) (rest : List Deposit)
    (r : MintResult) : (mintStep m w d a rest r).file = m.file := by
  unfold mintStep; split <;> (try split) <;> rfl

/-! ## The transitions -/

/-- The moves of the program counter alone, with the input that makes each. -/
inductive PcNext (cfg : Config) (m : Machine) : Input → Pc → Prop
  | connect (ok : Bool) : m.pc = .connect → PcNext cfg m (.connected ok) (if ok then .priceCxs else .stopped 1)
  | checkPrices : m.pc = .checkPrices → PcNext cfg m .tick (checkPrices cfg m.cxsPrice m.nextepPrice)
  | top : m.pc = .top → PcNext cfg m .tick (if m.shutdownRequested then .finalSave else .head)
  | head (h : ℤ) : m.pc = .head → PcNext cfg m (.head h) (headPc cfg m.lastBlockProcessed h)
  | rpcError : m.pc = .head → PcNext cfg m .rpcError .handler
  | idle : m.pc = .idle → PcNext cfg m .tick (if cfg.sleepOk then .top else .handler)
  | fetch {w n ds} (b : Option Block) : m.pc = .scan w n ds → n ≤ w.stop → m.shutdownRequested = false →
      PcNext cfg m (.block b) (.scan w (n + 1) (fetched cfg n b ds))
  | scanEnd {w n ds} : m.pc = .scan w n ds → (w.stop < n ∨ m.shutdownRequested = true) →
      PcNext cfg m .tick (.process w ds)
  | processEnd {w} : m.pc = .process w [] → PcNext cfg m .tick (.save w)
  | processBreak {w d rest} : m.pc = .process w (d :: rest) → m.shutdownRequested = true →
      PcNext cfg m .tick (.save w)
  | processSkip {w d rest} : m.pc = .process w (d :: rest) → m.shutdownRequested = false →
      d.txHash ∈ m.processedTxs.keys → PcNext cfg m .tick (.process w rest)
  | pause : m.pc = .pause → PcNext cfg m .tick (if cfg.sleepOk then .refreshCxs else .handler)
  | keepCxs : m.pc = .refreshCxs → refreshes cfg.cxsPrice = false → PcNext cfg m .tick .refreshNextep
  | keepNextep : m.pc = .refreshNextep → refreshes cfg.nextepPrice = false → PcNext cfg m .tick .top
  | handler : m.pc = .handler → PcNext cfg m .tick (if cfg.sleepOk then .top else .crashed)
  | crash : m.pc.running = true → PcNext cfg m .crash .crashed

/-- Every transition of a lifetime, with the input that makes it; any input may leave the machine as it is. -/
inductive Next (cfg : Config) (m : Machine) : Input → Machine → Prop
  | stay {i} : Next cfg m i m
  | signal : m.pc.running = true → Next cfg m .signal { m with shutdownRequested := true }
  | goto {i pc} : PcNext cfg m i pc → Next cfg m i (m.goto pc)
  | cxsPrice {i} (p : PyDecimal) {pc} :
      (m.pc = .priceCxs ∧ pc = .priceNextep ∧
          (i = .tick ∧ cfg.cxsPrice = some p ∨ i = .price p ∧ cfg.cxsPrice = none)) ∨
        (m.pc = .refreshCxs ∧ pc = .refreshNextep ∧ refreshes cfg.cxsPrice = true ∧ i = .price p) →
      Next cfg m i { m with cxsPrice := p, pc := pc }
  | nextepPrice {i} (p : PyDecimal) {pc} :
      (m.pc = .priceNextep ∧ pc = .checkPrices ∧
          (i = .tick ∧ cfg.nextepPrice = some p ∨ i = .price p ∧ cfg.nextepPrice = none)) ∨
        (m.pc = .refreshNextep ∧ pc = .top ∧ refreshes cfg.nextepPrice = true ∧ i = .price p) →
      Next cfg m i { m with nextepPrice := p, pc := pc }
  | valuate {w d rest} : m.pc = .process w (d :: rest) → m.shutdownRequested = false →
      d.txHash ∉ m.processedTxs.keys →
      Next cfg m .tick ((m.emit (.valuation d m.cxsPrice m.nextepPrice)).goto (valuatedPc w d rest
        (calculateRevoAmount d.tokenAddress d.amount m.cxsPrice m.nextepPrice cfg.revoPrice)))
  | mint {w d a rest} (r : MintResult) : m.pc = .minting w d a rest →
      Next cfg m (.mint r) (mintStep m w d a rest r)
  | save {w} (r : SaveResult) : m.pc = .save w → Next cfg m (.save r) (saveStep m w r)
  | finalSave (r : SaveResult) : m.pc = .finalSave → Next cfg m (.save r) (finalSaveStep m r)

theorem next_execTick (cfg : Config) (m : Machine) : Next cfg m .tick (execTick cfg m) := by
  unfold execTick
  split
  next h => split
            · next p hp => exact .cxsPrice _ (.inl ⟨h, rfl, .inl ⟨rfl, hp⟩⟩)
            · exact .stay
  next h => split
            · next p hp => exact .nextepPrice _ (.inl ⟨h, rfl, .inl ⟨rfl, hp⟩⟩)
            · exact .stay
  next h => exact .goto (.checkPrices h)
  next h => exact .goto (.top h)
  next h => exact .goto (.idle h)
  next w n ds h =>
    split
    · next hs => exact .goto (.scanEnd h (by simpa using hs))
    · exact .stay
  next w h => exact .goto (.processEnd h)
  next w d rest h =>
    unfold processDeposit
    split
    · next hs => exact .goto (.processBreak h hs)
    · next hs =>
      split
      · next hc => exact .goto (.processSkip h (by simpa using hs) (by simpa using hc))
      · next hc => exact .valuate h (by simpa using hs) (by simpa using hc)
  next h => exact .goto (.pause h)
  next h => split
            · exact .stay
            · next hr => exact .goto (.keepCxs h (by simpa using hr))
  next h => split
            · exact .stay
            · next hr => exact .goto (.keepNextep h (by simpa using hr))
  next h => exact .goto (.handler h)
  next => exact .stay

/-- Every step of the code is a transition made by its input. -/
theorem step_next (cfg : Config) (m : Machine) (i : Input) : Next cfg m i (step cfg m i) := by
  unfold step
  split
  · next hr =>
    cases i with
    | tick => exact next_execTick cfg m
    | signal => exact .signal hr
    | crash => exact .goto (.crash hr)
    | connected ok => simp only [exec]; split <;> (first | exact .goto (.connect ok ‹_›) | exact .stay)
    | price p =>
      simp only [exec]; split
      · split
        · next h hn => exact .cxsPrice _ (.inl ⟨h, rfl, .inr ⟨rfl, Option.isNone_iff_eq_none.mp hn⟩⟩)
        · exact .stay
      · split
        · next h hn => exact .nextepPrice _ (.inl ⟨h, rfl, .inr ⟨rfl, Option.isNone_iff_eq_none.mp hn⟩⟩)
        · exact .stay
      · split
        · next h hr => exact .cxsPrice _ (.inr ⟨h, rfl, hr, rfl⟩)
        · exact .stay
      · split
        · next h hr => exact .nextepPrice _ (.inr ⟨h, rfl, hr, rfl⟩)
        · exact .stay
      · exact .stay
    | head h => simp only [exec]; split <;> (first | exact .goto (.head h ‹_›) | exact .stay)
    | rpcError => simp only [exec]; split <;> (first | exact .goto (.rpcError ‹_›) | exact .stay)
    | block b =>
      simp only [exec]; split
      · next h =>
        split
        · exact .stay
        · next hs =>
          simp only [not_or, not_lt, Bool.not_eq_true] at hs
          exact .goto (.fetch b h hs.1 hs.2)
      · exact .stay
    | mint r => simp only [exec]; split <;> (first | exact .mint r ‹_› | exact .stay)
    | save r => simp only [exec]; split <;> (first | exact .save r ‹_› | exact .finalSave r ‹_› | exact .stay)
  · exact .stay

/-- A property that every transition keeps holds after every run. -/
theorem run_of_next {cfg : Config} {P : Machine → Prop} (h : ∀ m i m', P m → Next cfg m i m' → P m')
    {m : Machine} (hm : P m) (inputs : List Input) : P (run cfg m inputs) := by
  induction inputs generalizing m with
  | nil => exact hm
  | cons i is ih => exact ih (h _ _ _ hm (step_next cfg m i))

theorem mem_lifetimes {cfg : Config} {file : StateFile} {inputss : List (List Input)} {p : StateFile × Machine}
    (h : p ∈ lifetimes cfg file inputss) : ∃ inputs, p.2 = run cfg (Machine.init p.1) inputs := by
  induction inputss generalizing file with
  | nil => cases h
  | cons inputs rest ih =>
    rcases List.mem_cons.mp h with rfl | h
    · exact ⟨inputs, rfl⟩
    · exact ih h

end RevoMigration.Bridge
