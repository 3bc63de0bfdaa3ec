import RevoMigration.Bridge.Machine

/-!
# The ledger is written once

The credits of a trace are the ledger entries its mint calls recorded (`credits`): one for each call that returned
a hash. Every state of a lifetime that loaded `processed_txs = L` satisfies `LedgerInv L`: `processed_txs` is `L`
followed by the credits of the trace, no mint call went to a hash that was in `processed_txs` at the time
(`FreshMints`), every mint call was for a positive amount, and a pending mint is for a hash not yet recorded.
One transition keeps it (`ledgerInv_next`), so every run does (`ledgerInv_run`), and `run_ledger_write_once`
collects what follows for a lifetime: `processed_txs` only grows, and a `process_deposits` call over recorded
deposits leaves it and the trace as they were (`run_process_recorded`).

Across lifetimes the guarantee is weaker: each lifetime credits a hash at most once and never one it loaded
(`lifetimes_credit_once`), but a crash between a mint and the `save_state` of its cycle loses the credit, and the
next lifetime credits the same deposit again (`lifetimes_credit_twice`).
-/

namespace RevoMigration.Bridge

open RevoMigration.Decimal

/-! ## Credits of a trace -/

/-- The ledger entry a trace event recorded: a mint call that returned a hash. -/
def credit : Event → Option (String × LedgerEntry)
  | .mintCall d a r => r.txId.map fun id => (d.txHash, ledgerEntry d a id)
  | _ => none

/-- The ledger entries the mint calls of a trace recorded, in order. -/
def credits (trace : List Event) : List (String × LedgerEntry) := trace.filterMap credit

@[simp] theorem credits_nil : credits [] = [] := rfl

@[simp] theorem credits_append (t t' : List Event) : credits (t ++ t') = credits t ++ credits t' :=
  List.filterMap_append _ _ _

@[simp] theorem credits_singleton (e : Event) : credits [e] = (credit e).toList := by
  cases h : credit e <;> simp [credits, h]

/-- No mint call of the trace went to a hash in the ledger at the time: loaded, or credited before it. -/
def FreshMints (loaded : List String) (trace : List Event) : Prop :=
  ∀ pre d a r post, trace = pre ++ .mintCall d a r :: post → d.txHash ∉ loaded ++ (credits pre).map Prod.fst

theorem snoc_eq_append_cons {α : Type} {t pre post : List α} {e x : α} (h : t ++ [e] = pre ++ x :: post) :
    (t = pre ∧ e = x) ∨ ∃ post', t = pre ++ x :: post' := by
  rcases List.eq_nil_or_concat post with rfl | ⟨post', y, rfl⟩
  · obtain ⟨ht, he⟩ := List.append_inj' h rfl
    exact .inl ⟨ht, List.singleton_inj.mp he⟩
  · rw [List.concat_eq_append, show pre ++ x :: (post' ++ [y]) = (pre ++ x :: post') ++ [y] by simp] at h
    exact .inr ⟨post', (List.append_inj' h rfl).1⟩

theorem FreshMints.nil (loaded : List String) : FreshMints loaded [] := fun pre _ _ _ _ h => by
  cases pre <;> cases h

theorem FreshMints.snoc {loaded : List String} {t : List Event} {e : Event} (h : FreshMints loaded t)
    (he : ∀ d a r, e = .mintCall d a r → d.txHash ∉ loaded ++ (credits t).map Prod.fst) :
    FreshMints loaded (t ++ [e]) := by
  intro pre d a r post hp
  rcases snoc_eq_append_cons hp with ⟨rfl, rfl⟩ | ⟨post', ht⟩
  · exact he d a r rfl
  · exact h pre d a r post' ht

/-- Events other than mint calls keep the mint calls fresh. -/
theorem FreshMints.append {loaded : List String} {t : List Event} (h : FreshMints loaded t) {es : List Event}
    (hes : ∀ e ∈ es, credit e = none ∧ ∀ d a r, e ≠ .mintCall d a r) : FreshMints loaded (t ++ es) := by
  induction es using List.reverseRecOn with
  | nil => simpa
  | append_singleton es e ih =>
    rw [← List.append_assoc]
    exact (ih fun e' he' => hes e' (by simp [he'])).snoc fun d a r he => absurd he ((hes e (by simp)).2 d a r)

/-! ## The invariant -/

/-- What every state of a lifetime that loaded `processed_txs = loaded` satisfies. -/
structure LedgerInv (loaded : Ledger) (m : Machine) : Prop where
  entries_eq : m.processedTxs.entries = loaded.entries ++ credits m.trace
  fresh : FreshMints loaded.keys m.trace
  amount_pos : ∀ d a r, .mintCall d a r ∈ m.trace → 0 < a
  minting : ∀ w d a rest, m.pc = .minting w d a rest → d.txHash ∉ m.processedTxs.keys ∧ 0 < a

theorem LedgerInv.keys_eq {loaded : Ledger} {m : Machine} (hi : LedgerInv loaded m) :
    m.processedTxs.keys = loaded.keys ++ (credits m.trace).map Prod.fst := by
  simp [Ledger.keys, hi.entries_eq]

theorem ledgerInv_init (file : StateFile) : LedgerInv file.load.2 (Machine.init file) :=
  ⟨by simp [Machine.init], FreshMints.nil _, by simp [Machine.init], fun _ _ _ _ h => by cases h⟩

theorem checkPrices_ne_minting (cfg : Config) (cxsPrice nextepPrice : PyDecimal) (w : Window) (d : Deposit)
    (a : ℤ) (rest : List Deposit) : checkPrices cfg cxsPrice nextepPrice ≠ .minting w d a rest := by
  unfold checkPrices; split <;> (try split_ifs) <;> (try split) <;> (try split_ifs) <;> simp

/-- The program counter alone never moves to a mint call. -/
theorem PcNext.ne_minting {cfg : Config} {m : Machine} {i : Input} {pc : Pc} (h : PcNext cfg m i pc) (w : Window)
    (d : Deposit) (a : ℤ) (rest : List Deposit) : pc ≠ .minting w d a rest := by
  cases h
  case checkPrices => exact checkPrices_ne_minting _ _ _ _ _ _ _
  all_goals simp only [headPc, ne_eq]; (try split) <;> simp

theorem valuatedPc_eq_minting {w w' : Window} {d d' : Deposit} {rest rest' : List Deposit} {a : ℤ}
    {v : Except PyError ℤ} (h : valuatedPc w d rest v = .minting w' d' a rest') : d' = d ∧ 0 < a := by
  unfold valuatedPc at h
  split at h
  · cases h
  · split_ifs at h with hr
    cases h
    exact ⟨rfl, by omega⟩

theorem ledgerInv_next {cfg : Config} {loaded : Ledger} {m m' : Machine} (hi : LedgerInv loaded m)
    {i : Input} (hn : Next cfg m i m') : LedgerInv loaded m' := by
  cases hn with
  | stay => exact hi
  | signal _ => exact ⟨hi.entries_eq, hi.fresh, hi.amount_pos, hi.minting⟩
  | goto h => exact ⟨hi.entries_eq, hi.fresh, hi.amount_pos, fun w d a rest he => (h.ne_minting w d a rest he).elim⟩
  | cxsPrice p h =>
    refine ⟨hi.entries_eq, hi.fresh, hi.amount_pos, fun w d a rest he => ?_⟩
    rcases h with ⟨-, rfl, -⟩ | ⟨-, rfl, -⟩ <;> cases he
  | nextepPrice p h =>
    refine ⟨hi.entries_eq, hi.fresh, hi.amount_pos, fun w d a rest he => ?_⟩
    rcases h with ⟨-, rfl, -⟩ | ⟨-, rfl, -⟩ <;> cases he
  | valuate hpc hs hd =>
    refine ⟨by simp [hi.entries_eq, credit], hi.fresh.snoc (by simp), fun d a r h => ?_, fun w d a rest he => ?_⟩
    · simp only [Machine.goto_trace, Machine.emit_trace, List.mem_append, List.mem_singleton] at h
      rcases h with h | h
      · exact hi.amount_pos d a r h
      · cases h
    · obtain ⟨rfl, ha⟩ := valuatedPc_eq_minting he
      exact ⟨hd, ha⟩
  | mint r hpc =>
    obtain ⟨hfresh, hpos⟩ := hi.minting _ _ _ _ hpc
    refine ⟨?_, ?_, fun d' a' r' h => ?_, fun w d a rest he => ?_⟩
    · rw [mintStep_processedTxs, mintStep_trace, credits_append, ← List.append_assoc, ← hi.entries_eq]
      cases hr : r.txId <;> simp [credit, hr, Ledger.insert_of_not_mem hfresh]
    · rw [mintStep_trace]
      refine hi.fresh.snoc fun d' a' r' he => ?_
      obtain ⟨rfl, -, -⟩ := Event.mintCall.inj he
      rw [← hi.keys_eq]
      exact hfresh
    · rw [mintStep_trace, List.mem_append, List.mem_singleton] at h
      rcases h with h | h
      · exact hi.amount_pos d' a' r' h
      · cases h
        exact hpos
    · rw [mintStep_pc] at he
      split_ifs at he
  | save r hpc =>
    refine ⟨by simp [saveStep, hi.entries_eq, credits, credit], hi.fresh.append (by simp [credit]), fun d a r h => ?_,
      fun w d a rest he => by cases he⟩
    simp only [saveStep, List.mem_append, List.mem_cons, List.mem_singleton] at h
    rcases h with h | h | h | h
    · exact hi.amount_pos d a r h
    all_goals cases h
  | finalSave r hpc =>
    refine ⟨by simp [finalSaveStep, hi.entries_eq, credit], hi.fresh.append (by simp [credit]),
      fun d a r h => ?_, fun w d a rest he => by cases he⟩
    simp only [finalSaveStep, List.mem_append, List.mem_singleton] at h
    rcases h with h | h
    · exact hi.amount_pos d a r h
    · cases h

theorem ledgerInv_run (cfg : Config) (file : StateFile) (inputs : List Input) :
    LedgerInv file.load.2 (run cfg (Machine.init file) inputs) :=
  run_of_next (fun _ _ _ hi hn => ledgerInv_next hi hn) (ledgerInv_init file) inputs

/-! ## What a lifetime guarantees -/

/-- The trace only grows. -/
theorem Next.trace_grows {cfg : Config} {m m' : Machine} {i : Input} (hn : Next cfg m i m') : m.trace <+: m'.trace := by
  cases hn with
  | valuate => exact List.prefix_append _ _
  | mint r _ => rw [mintStep_trace]; exact List.prefix_append _ _
  | save r _ => exact List.prefix_append _ _
  | finalSave r _ => exact List.prefix_append _ _
  | _ => exact List.prefix_refl _

theorem trace_grows_run (cfg : Config) (m : Machine) (inputs : List Input) : m.trace <+: (run cfg m inputs).trace := by
  induction inputs generalizing m with
  | nil => exact List.prefix_refl _
  | cons i is ih => exact (step_next cfg m i).trace_grows.trans (ih _)

theorem credits_grows {t t' : List Event} (h : t <+: t') : credits t <+: credits t' := by
  obtain ⟨u, rfl⟩ := h
  simp

/-- From a `process_deposits` call over recorded deposits, one step keeps the ledger and the trace and stays in the
call, or leaves it for the end of the cycle or by dying. -/
theorem next_process_recorded {cfg : Config} {m m' : Machine} {w : Window} {ds : List Deposit}
    (hm : m.pc = .process w ds) (hds : ∀ d ∈ ds, d.txHash ∈ m.processedTxs.keys) {i : Input}
    (hn : Next cfg m i m') :
    m'.processedTxs = m.processedTxs ∧ m'.trace = m.trace ∧
      (m'.pc = .save w ∨ m'.pc = .crashed ∨ ∃ ds', ds' <:+ ds ∧ m'.pc = .process w ds') := by
  cases hn with
  | stay => exact ⟨rfl, rfl, .inr (.inr ⟨ds, List.suffix_refl _, hm⟩)⟩
  | signal _ => exact ⟨rfl, rfl, .inr (.inr ⟨ds, List.suffix_refl _, hm⟩)⟩
  | goto h =>
    refine ⟨rfl, rfl, ?_⟩
    cases h with
    | crash _ => exact .inr (.inl rfl)
    | processEnd h => rw [hm, Pc.process.injEq] at h; exact .inl (by rw [h.1]; rfl)
    | processBreak h _ => rw [hm, Pc.process.injEq] at h; exact .inl (by rw [h.1]; rfl)
    | processSkip h _ _ =>
      rw [hm, Pc.process.injEq] at h
      obtain ⟨rfl, rfl⟩ := h
      exact .inr (.inr ⟨_, List.suffix_cons _ _, rfl⟩)
    | _ => simp [hm] at *
  | cxsPrice p h => rcases h with ⟨h, -⟩ | ⟨h, -⟩ <;> simp [hm] at h
  | nextepPrice p h => rcases h with ⟨h, -⟩ | ⟨h, -⟩ <;> simp [hm] at h
  | valuate hpc _ hd =>
    rw [hm] at hpc
    obtain ⟨-, rfl⟩ := Pc.process.inj hpc
    exact absurd (hds _ (List.mem_cons_self _ _)) hd
  | mint r hpc => simp [hm] at hpc
  | save r hpc => simp [hm] at hpc
  | finalSave r hpc => simp [hm] at hpc

/-- **Recorded deposits are not minted again.** From the start of a `process_deposits` call whose deposits are all
recorded, whatever happens, the process leaves the call (for the save at the end of its cycle, or by dying), or is
still in it, with the ledger and the trace as they were: no mint call, no new entry. -/
theorem run_process_recorded (cfg : Config) {m : Machine} {w : Window} {ds : List Deposit}
    (hm : m.pc = .process w ds) (hds : ∀ d ∈ ds, d.txHash ∈ m.processedTxs.keys) (inputs : List Input) :
    ∃ k ≤ inputs.length, (run cfg m (inputs.take k)).processedTxs = m.processedTxs ∧
      (run cfg m (inputs.take k)).trace = m.trace ∧
      (k = inputs.length ∨ (run cfg m (inputs.take k)).pc = .save w ∨
        (run cfg m (inputs.take k)).pc = .crashed) := by
  induction inputs generalizing m ds with
  | nil => exact ⟨0, le_rfl, rfl, rfl, .inl rfl⟩
  | cons i is ih =>
    obtain ⟨hl, ht, hpc⟩ := next_process_recorded hm hds (step_next cfg m i)
    rcases hpc with hpc | hpc | ⟨ds', hds', hpc⟩
    · exact ⟨1, by simp, hl, ht, .inr (.inl hpc)⟩
    · exact ⟨1, by simp, hl, ht, .inr (.inr hpc)⟩
    · obtain ⟨k, hk, hl', ht', hend⟩ := ih hpc fun d hd => hl ▸ hds d (hds'.subset hd)
      refine ⟨k + 1, by simpa using hk, by simp [hl', hl], by simp [ht', ht], ?_⟩
      simpa using hend

/-- **The ledger is written once.** In every run of a lifetime that loaded `processed_txs = L`: no mint call went to
a hash in `processed_txs` at the time of the call (`L` and the credits before it); `processed_txs` is `L` followed by
one entry per mint call that returned a hash, in call order, recording the call's amount and the returned hash, its
keys distinct; every mint call was for a positive amount; a later state's `processed_txs` extends this one's; and
from the start of a `process_deposits` call whose deposits are all recorded the process leaves the call, or goes
on in it, with no mint call and the ledger unchanged. -/
theorem run_ledger_write_once (cfg : Config) (file : StateFile) (inputs : List Input) :
    let m := run cfg (Machine.init file) inputs
    FreshMints file.load.2.keys m.trace ∧
    m.processedTxs.entries = file.load.2.entries ++ credits m.trace ∧
    m.processedTxs.keys.Nodup ∧
    (∀ d a r, .mintCall d a r ∈ m.trace → 0 < a) ∧
    (∀ more : List Input,
      m.processedTxs.entries <+: (run cfg (Machine.init file) (inputs ++ more)).processedTxs.entries) ∧
    (∀ w ds, m.pc = .process w ds → (∀ d ∈ ds, d.txHash ∈ m.processedTxs.keys) → ∀ more : List Input,
      ∃ k ≤ more.length,
      (run cfg m (more.take k)).processedTxs = m.processedTxs ∧ (run cfg m (more.take k)).trace = m.trace ∧
      (k = more.length ∨ (run cfg m (more.take k)).pc = .save w ∨ (run cfg m (more.take k)).pc = .crashed)) := by
  intro m
  have hi := ledgerInv_run cfg file inputs
  refine ⟨hi.fresh, hi.entries_eq, m.processedTxs.nodup, hi.amount_pos, fun more => ?_,
    fun w ds hm hds more => run_process_recorded cfg hm hds more⟩
  rw [hi.entries_eq, (ledgerInv_run cfg file (inputs ++ more)).entries_eq, run_append]
  exact (List.prefix_append_right_inj _).mpr (credits_grows (trace_grows_run cfg m more))

/-! ## Across lifetimes -/

/-- **At most one credit per lifetime.** Over every run of the bridge made of lifetimes, the mint calls of each
lifetime return a hash at most once per source hash, and never for a hash in the `processed_txs` it loaded. -/
theorem lifetimes_credit_once (cfg : Config) (file : StateFile) (inputss : List (List Input)) :
    ∀ p ∈ lifetimes cfg file inputss, ((credits p.2.trace).map Prod.fst).Nodup ∧
      ∀ h ∈ (credits p.2.trace).map Prod.fst, h ∉ p.1.load.2.keys := by
  intro p hp
  obtain ⟨inputs, hm⟩ := mem_lifetimes hp
  have hi := ledgerInv_run cfg p.1 inputs
  have hnodup := (run cfg (Machine.init p.1) inputs).processedTxs.nodup
  rw [← Ledger.keys, hi.keys_eq, List.nodup_append, ← hm] at hnodup
  exact ⟨hnodup.2.1, fun h hc hl => hnodup.2.2 hl hc⟩

/-- One lifetime on default settings that mints the one-CXS deposit of block 1 and saves. -/
theorem lifetimes_credit_once_one_cycle :
    let cfg : Config := ⟨"0xb", .finite ⟨1, 0⟩, some (.finite ⟨1, 0⟩), some (.finite ⟨1, 0⟩), 60, 12, 100⟩
    let inputs : List Input :=
      [.connected true, .tick, .tick, .tick, .tick, .head 13,
        .block (some ⟨0, [⟨"0x01", "0xa", some "0xb", 10 ^ 18, "0x"⟩]⟩), .tick, .tick,
        .mint (.returned (some "0xm")), .tick, .save .written]
    let p := (StateFile.absent, run cfg (Machine.init .absent) inputs)
    p ∈ lifetimes cfg .absent [inputs] ∧ ((credits p.2.trace).map Prod.fst).Nodup ∧
      ∀ h ∈ (credits p.2.trace).map Prod.fst, h ∉ p.1.load.2.keys := by
  intro cfg inputs p
  exact ⟨List.mem_cons_self _ _, lifetimes_credit_once cfg .absent [inputs] p (List.mem_cons_self _ _)⟩

/-- Two lifetimes on default settings: each scans block 1, which holds a deposit of one CXS, mints it, and crashes
before the `save_state` of its cycle; the second loads the same (absent) file and credits the deposit again. -/
theorem lifetimes_credit_twice :
    let cfg : Config := ⟨"0xb", .finite ⟨1, 0⟩, some (.finite ⟨1, 0⟩), some (.finite ⟨1, 0⟩), 60, 12, 100⟩
    let block : Block := ⟨0, [⟨"0x01", "0xa", some "0xb", 10 ^ 18, "0x"⟩]⟩
    let lifetime (id : String) : List Input :=
      [.connected true, .tick, .tick, .tick, .tick, .head 13, .block (some block), .tick, .tick,
        .mint (.returned (some id)), .crash]
    (lifetimes cfg .absent [lifetime "0xm1", lifetime "0xm2"]).map (fun p => (credits p.2.trace).map Prod.fst) =
      [["0x01"], ["0x01"]] := by
  decide

end RevoMigration.Bridge
