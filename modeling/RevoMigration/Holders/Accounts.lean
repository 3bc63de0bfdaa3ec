import RevoMigration.Holders.Fetcher

/-!
# What the holders fetcher finds

Over every run of the holders fetcher, whatever the node answers and wherever the signals fall:

* with `batch_size ≥ 1` the scan asks for the blocks `1, 2, …, k` in order, each once, and reaches the balances only
  after `k = latest_block` (`run_blockRequests`); with `batch_size ≤ 0` it asks for no block at all, and its scan
  ends without a shutdown request only on a chain whose latest block is 0 (`run_blockRequests_of_batchSize_nonpos`);
* a run that saves without a shutdown request asks the balance of every address seen in the transactions of the
  blocks the node returned, once each, and saves exactly those whose balance is positive, in `Decimal` CXS, but for
  the addresses answered just before an intermediate save raised, at most one per 1000 counted balances
  (`run_saved_holders`);
* a run that saves after a shutdown request saves the copy `current_accounts`, which holds no balance before the
  100th answered balance: a signal that comes before then, even after `get_accounts_with_balance` has returned,
  leaves an empty file (`run_saved_of_shutdown`).

Each is an invariant of the places of the code (`CoverAt`, `IdleAt`, `AccountsAt`) kept by every transition of
`Next`. The state of the dictionary `accounts` is not defined by running the code but from the log: the addresses
of the transactions returned so far (`seenAddresses`) and the balances answered so far (`balanceAnswers`).
-/

namespace RevoMigration.Holders

open RevoMigration.Decimal
open RevoMigration.Bridge (setItem setItem_of_not_mem)

/-! ## What the log says -/

/-- The addresses a transaction adds to `accounts`: `from`, then `to` unless it is `None`. -/
def Tx.addresses (tx : Tx) : List String := tx.fromAddress :: tx.toAddress.toList

/-- The block a request asks for. -/
def Rpc.requestedBlock : Rpc → Option ℤ
  | .getBlock n _ => some n
  | _ => none

/-- The transactions of a block the node returned. -/
def Rpc.transactions : Rpc → List Tx
  | .getBlock _ (some txs) => txs
  | _ => []

/-- A balance request with the node's answer. -/
def Rpc.balanceAnswer : Rpc → Option (String × Option ℕ)
  | .getBalance address answer => some (address, answer)
  | _ => none

/-- The blocks asked for, in order. -/
def blockRequests (log : List (ℚ × Rpc)) : List ℤ := log.filterMap fun e => e.2.requestedBlock

/-- The addresses of the transactions of the blocks returned, in order. -/
def seenAddresses (log : List (ℚ × Rpc)) : List String :=
  (log.flatMap fun e => e.2.transactions).flatMap Tx.addresses

/-- The balances asked for, with the answers, in order. -/
def balanceAnswers (log : List (ℚ × Rpc)) : List (String × Option ℕ) := log.filterMap fun e => e.2.balanceAnswer

@[simp] theorem blockRequests_append (log : List (ℚ × Rpc)) (t : ℚ) (rpc : Rpc) :
    blockRequests (log ++ [(t, rpc)]) = blockRequests log ++ rpc.requestedBlock.toList := by
  cases h : rpc.requestedBlock <;> simp [blockRequests, h]

@[simp] theorem seenAddresses_append (log : List (ℚ × Rpc)) (t : ℚ) (rpc : Rpc) :
    seenAddresses (log ++ [(t, rpc)]) = seenAddresses log ++ rpc.transactions.flatMap Tx.addresses := by
  simp [seenAddresses]

@[simp] theorem balanceAnswers_append (log : List (ℚ × Rpc)) (t : ℚ) (rpc : Rpc) :
    balanceAnswers (log ++ [(t, rpc)]) = balanceAnswers log ++ rpc.balanceAnswer.toList := by
  cases h : rpc.balanceAnswer <;> simp [balanceAnswers, h]

/-- The blocks `1, 2, …, k`. -/
def blocksTo (k : ℕ) : List ℤ := (List.range k).map fun i => (i : ℤ) + 1

theorem blocksTo_succ (k : ℕ) : blocksTo (k + 1) = blocksTo k ++ [(k : ℤ) + 1] := by
  simp [blocksTo, List.range_succ]

/-- What the balance loop leaves in `accounts`, in the answer's place, for an answered address: its balance when
positive, nothing when zero, `None` when the request or the division raised. When the intermediate save after the
answer raised (the address is `dropped`), `None` replaces a positive balance in place, and an address whose zero
balance deleted it comes back with `None` at the end of the dictionary. -/
def outcome (dropped : List String) : String × Option ℕ → Option (String × Option Dec)
  | (address, none) => some (address, none)
  | (address, some balanceWei) =>
    match toCxs balanceWei with
    | .error _ => some (address, none)
    | .ok balanceCxs =>
      if 0 < balanceWei then some (address, if address ∈ dropped then none else some balanceCxs) else none

/-- The holder an answer makes: an address whose balance is positive, with the balance in CXS. -/
def holder : String × Option ℕ → Option (String × Dec)
  | (address, some balanceWei) => if 0 < balanceWei then (toCxs balanceWei).toOption.map (address, ·) else none
  | (_, none) => none

/-- An answer the balance loop counts in `address_count`: a balance whose division succeeded. -/
def counted : String × Option ℕ → Bool
  | (_, some balanceWei) => (toCxs balanceWei).toBool
  | (_, none) => false

/-! The division is never unfolded: every proof goes through what it returns. -/

theorem outcome_none (dropped : List String) (address : String) :
    outcome dropped (address, none) = some (address, none) := rfl

theorem outcome_of_error {dropped : List String} {address : String} {w : ℕ} {err : PyError}
    (h : toCxs w = .error err) : outcome dropped (address, some w) = some (address, none) := by
  show (match toCxs w with
    | .error _ => _
    | .ok _ => _ : Option _) = _
  rw [h]

theorem outcome_of_ok {dropped : List String} {address : String} {w : ℕ} {b : Dec} (h : toCxs w = .ok b) :
    outcome dropped (address, some w) =
      if 0 < w then some (address, if address ∈ dropped then none else some b) else none := by
  show (match toCxs w with
    | .error _ => _
    | .ok _ => _ : Option _) = _
  rw [h]

/-- Only whether the address itself is dropped matters. -/
theorem outcome_congr {dropped dropped' : List String} {address : String} (h : address ∈ dropped ↔ address ∈ dropped')
    (answer : Option ℕ) : outcome dropped (address, answer) = outcome dropped' (address, answer) := by
  rcases answer with _ | w
  · rfl
  · rcases hw : toCxs w with err | b
    · rw [outcome_of_error hw, outcome_of_error hw]
    · simp only [outcome_of_ok hw, h]

theorem holder_none (address : String) : holder (address, none) = none := rfl

theorem holder_some (address : String) (w : ℕ) :
    holder (address, some w) = if 0 < w then (toCxs w).toOption.map (address, ·) else none := rfl

theorem counted_none (address : String) : counted (address, none) = false := rfl

theorem counted_some (address : String) (w : ℕ) : counted (address, some w) = (toCxs w).toBool := rfl

/-! ## The dictionary -/

/-- The scan's `accounts`: the addresses `seen`, once each, none with a balance yet. -/
structure Scanned (accounts : List (String × Option Dec)) (seen : List String) : Prop where
  nodup : (accounts.map Prod.fst).Nodup
  mem : ∀ a, a ∈ accounts.map Prod.fst ↔ a ∈ seen
  none : ∀ e ∈ accounts, e.2 = none

theorem scanned_nil : Scanned [] [] := ⟨List.nodup_nil, by simp, by simp⟩

theorem addAccount_eq (accounts : List (String × Option Dec)) (address : String) :
    addAccount accounts address =
      if address ∈ accounts.map Prod.fst then accounts else accounts ++ [(address, none)] := by
  unfold addAccount
  split_ifs with h
  · rfl
  · exact setItem_of_not_mem h none

theorem Scanned.addAccount {accounts : List (String × Option Dec)} {seen : List String}
    (h : Scanned accounts seen) (a : String) : Scanned (addAccount accounts a) (seen ++ [a]) := by
  rw [addAccount_eq]
  split_ifs with ha
  · exact ⟨h.nodup, fun b => by
      rw [h.mem, List.mem_append, List.mem_singleton]
      exact ⟨.inl, fun hb => hb.elim id fun hb => hb ▸ (h.mem a).mp ha⟩, h.none⟩
  · refine ⟨?_, fun b => by simp [h.mem], fun e he => ?_⟩
    · rw [List.map_append]
      exact List.nodup_append.mpr ⟨h.nodup, List.nodup_singleton _, List.disjoint_singleton.mpr ha⟩
    · rcases List.mem_append.mp he with he | he
      · exact h.none e he
      · rw [List.mem_singleton.mp he]

theorem Scanned.foldl {accounts : List (String × Option Dec)} {seen : List String} (h : Scanned accounts seen) :
    ∀ l : List String, Scanned (l.foldl Holders.addAccount accounts) (seen ++ l)
  | [] => by simpa using h
  | a :: l => by simpa using (h.addAccount a).foldl l

theorem addTransactions_eq (accounts : List (String × Option Dec)) (txs : List Tx) :
    addTransactions accounts txs = (txs.flatMap Tx.addresses).foldl Holders.addAccount accounts := by
  induction txs generalizing accounts with
  | nil => rfl
  | cons tx txs ih =>
    rw [List.flatMap_cons, List.foldl_append, ← ih]
    cases h : tx.toAddress <;> simp [addTransactions, Tx.addresses, h]

theorem Scanned.addTransactions {accounts : List (String × Option Dec)} {seen : List String}
    (h : Scanned accounts seen) (txs : List Tx) :
    Scanned (Holders.addTransactions accounts txs) (seen ++ txs.flatMap Tx.addresses) := by
  rw [addTransactions_eq]
  exact h.foldl _

/-- Accounts with no balance are their keys, each with `None`. -/
theorem eq_map_none {accounts : List (String × Option Dec)} (h : ∀ e ∈ accounts, e.2 = none) :
    accounts = (accounts.map Prod.fst).map fun a => (a, none) := by
  induction accounts with
  | nil => rfl
  | cons e rest ih =>
    rw [List.map_cons, List.map_cons, ← ih fun e he => h e (List.mem_cons_of_mem _ he),
      ← h e (List.mem_cons_self _ _)]

/-- Setting an existing key changes its value in place. -/
theorem setItem_middle {α : Type} {pre post : List (String × α)} {a : String} (x v : α)
    (hpre : a ∉ pre.map Prod.fst) : setItem (pre ++ (a, x) :: post) a v = pre ++ (a, v) :: post := by
  induction pre with
  | nil => simp [setItem]
  | cons e pre ih =>
    simp only [List.map_cons, List.mem_cons, not_or] at hpre
    simp [setItem, Ne.symm hpre.1, ih hpre.2]

/-- Deleting a key that occurs once removes its entry. -/
theorem delItem_middle {pre post : List (String × Option Dec)} {a : String} (x : Option Dec)
    (hpre : a ∉ pre.map Prod.fst) (hpost : a ∉ post.map Prod.fst) :
    delItem (pre ++ (a, x) :: post) a = pre ++ post := by
  have hkeep : ∀ l : List (String × Option Dec), a ∉ l.map Prod.fst → l.filter (fun e => e.1 ≠ a) = l :=
    fun l hl => List.filter_eq_self.mpr fun e he =>
      decide_eq_true fun h => hl (h ▸ List.mem_map_of_mem Prod.fst he)
  rw [delItem, List.filter_append, List.filter_cons, hkeep pre hpre, hkeep post hpost]
  simp

/-- The addresses of what the answers left are among the answered addresses. -/
theorem mem_filterMap_outcome {dropped : List String} {answers : List (String × Option ℕ)}
    {e : String × Option Dec} (he : e ∈ answers.filterMap (outcome dropped)) : e.1 ∈ answers.map Prod.fst := by
  obtain ⟨⟨a, r⟩, hmem, hout⟩ := List.mem_filterMap.mp he
  have : e.1 = a := by
    rcases r with _ | w
    · rw [outcome_none, Option.some.injEq] at hout; rw [← hout]
    · rcases hw : toCxs w with err | b
      · rw [outcome_of_error hw, Option.some.injEq] at hout; rw [← hout]
      · rw [outcome_of_ok hw] at hout
        split_ifs at hout <;> (rw [Option.some.injEq] at hout; rw [← hout])
  exact this ▸ List.mem_map_of_mem Prod.fst hmem

/-- Dropping an address no answer names changes nothing the answers left. -/
theorem filterMap_outcome_append {dropped : List String} {answers : List (String × Option ℕ)} {a : String}
    (ha : a ∉ answers.map Prod.fst) :
    answers.filterMap (outcome (dropped ++ [a])) = answers.filterMap (outcome dropped) :=
  List.filterMap_congr fun e he => by
    have hne : e.1 ≠ a := fun h => ha (h ▸ List.mem_map_of_mem Prod.fst he)
    exact outcome_congr (by simp [hne]) e.2

theorem keepSome_filter_isSome (accounts : List (String × Option Dec)) :
    keepSome (accounts.filter fun e => e.2.isSome) = keepSome accounts := by
  induction accounts with
  | nil => rfl
  | cons e rest ih =>
    rcases e with ⟨a, _ | b⟩ <;> simp [keepSome, List.filter_cons] at ih ⊢ <;> exact ih

/-- The entries with a balance that the answers left are the holders they make, but for the dropped addresses. -/
theorem keepSome_filterMap_outcome (dropped : List String) (answers : List (String × Option ℕ)) :
    keepSome (answers.filterMap (outcome dropped)) = (answers.filter fun e => e.1 ∉ dropped).filterMap holder := by
  rw [keepSome, List.filterMap_filterMap, List.filterMap_filter]
  refine List.filterMap_congr fun e _ => ?_
  rcases e with ⟨a, _ | w⟩
  · by_cases ha : a ∈ dropped <;> simp [ha, outcome_none, holder_none]
  · rcases hw : toCxs w with err | b
    · by_cases ha : a ∈ dropped <;> simp [ha, outcome_of_error hw, holder_some, hw, Except.toOption]
    · by_cases ha : a ∈ dropped <;> by_cases hpos : 0 < w <;>
        simp [ha, hpos, outcome_of_ok hw, holder_some, hw, Except.toOption]

theorem keepSome_eq_nil {accounts : List (String × Option Dec)} (h : ∀ e ∈ accounts, e.2 = none) :
    keepSome accounts = [] :=
  List.filterMap_eq_nil_iff.mpr fun e he => by rw [h e he]; rfl

theorem keepSome_append (l l' : List (String × Option Dec)) : keepSome (l ++ l') = keepSome l ++ keepSome l' :=
  List.filterMap_append ..

/-! ## The bodies of the loops -/

namespace Fetcher

/-- In the balance loop, the answer for an address not yet dropped puts what it leaves in place of its `None`. -/
theorem storeBalance_accounts {m : Fetcher} {pre post : List (String × Option Dec)} {address : String}
    (rest : List String) (h : m.accounts = pre ++ (address, none) :: post) (hpre : address ∉ pre.map Prod.fst)
    (hpost : address ∉ post.map Prod.fst) (hd : address ∉ m.dropped) (answer : Option ℕ) :
    (m.storeBalance address rest answer).accounts = pre ++ (outcome m.dropped (address, answer)).toList ++ post := by
  rcases answer with _ | w
  · simp [storeBalance_none, h, setItem_middle _ _ hpre, outcome_none]
  · rcases hw : toCxs w with err | b
    · simp [storeBalance_of_error hw, h, setItem_middle _ _ hpre, outcome_of_error hw]
    · by_cases hpos : 0 < w
      · simp [storeBalance_of_ok hw, h, setItem_middle _ _ hpre, outcome_of_ok hw, hpos, hd]
      · simp [storeBalance_of_ok hw, h, delItem_middle _ hpre hpost, outcome_of_ok hw, hpos]

/-- `address_count` counts the answers whose division succeeded. -/
theorem storeBalance_addressCount (m : Fetcher) (address : String) (rest : List String) (answer : Option ℕ) :
    (m.storeBalance address rest answer).addressCount =
      m.addressCount + if counted (address, answer) then 1 else 0 := by
  rcases answer with _ | w
  · rfl
  · rcases hw : toCxs w with err | b
    · simp [storeBalance_of_error hw, counted_some, hw, Except.toBool]
    · simp [storeBalance_of_ok hw, counted_some, hw, Except.toBool]

/-- The intermediate save comes after a balance whose division succeeded, at a multiple of 1000 counted. -/
theorem storeBalance_saves {m : Fetcher} {address : String} {rest : List String} {answer : Option ℕ}
    (h : (m.storeBalance address rest answer).pc = .balanceSave address rest) :
    ∃ w b, answer = some w ∧ toCxs w = .ok b ∧ (m.addressCount + 1) % 1000 = 0 := by
  rcases answer with _ | w
  · cases h
  · rcases hw : toCxs w with err | b
    · rw [storeBalance_of_error hw] at h; cases h
    · rw [storeBalance_of_ok hw] at h
      refine ⟨w, b, rfl, hw, ?_⟩
      by_contra hc
      simp only [if_neg hc] at h
      cases h

/-- The copy the balance loop takes holds no balance before the 100th answered balance. -/
theorem storeBalance_snapshot {m : Fetcher} (hs : m.addressCount < 100 → ∀ e ∈ m.currentAccounts, e.2 = none)
    (address : String) (rest : List String) (answer : Option ℕ) :
    (m.storeBalance address rest answer).addressCount < 100 →
      ∀ e ∈ (m.storeBalance address rest answer).currentAccounts, e.2 = none := by
  rcases answer with _ | w
  · exact hs
  · rcases hw : toCxs w with err | b
    · rw [storeBalance_of_error hw]
      exact hs
    · rw [storeBalance_of_ok hw]
      intro hc
      simp only at hc ⊢
      rw [if_neg (by omega)]
      exact hs (by omega)

theorem storeBlock_scanned {m : Fetcher} {seen : List String} (h : Scanned m.accounts seen) (n : ℤ)
    (answer : Option (List Tx)) :
    Scanned (m.storeBlock answer).accounts (seen ++ (Rpc.getBlock n answer).transactions.flatMap Tx.addresses) := by
  rcases answer with _ | txs
  · simpa [storeBlock, Rpc.transactions] using h
  · exact h.addTransactions txs

/-- The copy the scan takes holds no balance. -/
theorem storeBlock_snapshot {m : Fetcher} {seen : List String} (h : Scanned (m.storeBlock answer).accounts seen)
    (hs : m.addressCount < 100 → ∀ e ∈ m.currentAccounts, e.2 = none) :
    (m.storeBlock answer).addressCount < 100 → ∀ e ∈ (m.storeBlock answer).currentAccounts, e.2 = none := by
  rcases answer with _ | txs
  · exact hs
  · simp only [storeBlock] at h ⊢
    split_ifs
    · exact fun _ => h.none
    · exact hs

/-! ## The accounts at each place -/

/-- The balance loop before asking for `keys`: the addresses answered, then `keys`, are the addresses seen, once
each, and `accounts` holds what each answer left, then with `None` the keys, then the addresses that a failed
intermediate save put back. -/
structure Asking (m : Fetcher) (keys : List String) : Prop where
  nodup : ((balanceAnswers m.log).map Prod.fst ++ keys).Nodup
  mem : ∀ a, a ∈ (balanceAnswers m.log).map Prod.fst ++ keys ↔ a ∈ seenAddresses m.log
  accounts : ∃ extra : List String, (∀ a ∈ extra, a ∈ m.dropped) ∧
    m.accounts = (balanceAnswers m.log).filterMap (outcome m.dropped) ++ (keys ++ extra).map fun a => (a, none)

/-- The file a run saves without a shutdown request: the holders the answers make, but for the dropped addresses. -/
def savedHolders (m : Fetcher) : List (String × Dec) :=
  ((balanceAnswers m.log).filter fun e => e.1 ∉ m.dropped).filterMap holder

/-- What `accounts`, and the file `main` saves, hold at each place of the code. -/
def AccountsAt (m : Fetcher) : Pc → Prop
  | .balanceCheck keys => Asking m keys
  | .balanceFetch address rest => Asking m (address :: rest)
  | .balanceSave address rest => Asking m rest ∧ address ∉ m.dropped ∧
      (m.dropped.length + 1) * 1000 ≤ m.addressCount ∧
      ∃ pre w b, balanceAnswers m.log = pre ++ [(address, some w)] ∧ toCxs w = .ok b
  | .returned accounts => m.shutdownRequested = false → Asking m [] ∧ keepSome accounts = m.savedHolders
  | .saved file => (m.shutdownRequested = false → Asking m [] ∧ file = m.savedHolders) ∧
      (m.shutdownRequested = true → file = keepSome m.currentAccounts)
  | .failed _ => True
  | _ => Scanned m.accounts (seenAddresses m.log) ∧ balanceAnswers m.log = []

/-- What every state of a run satisfies. -/
structure AccountsInv (m : Fetcher) : Prop where
  here : AccountsAt m m.pc
  snapshot : m.addressCount < 100 → ∀ e ∈ m.currentAccounts, e.2 = none
  dropped : ∀ a ∈ m.dropped, a ∈ (balanceAnswers m.log).map Prod.fst
  count : m.addressCount = ((balanceAnswers m.log).filter counted).length
  droppedCount : m.dropped.length * 1000 ≤ m.addressCount

theorem accountsInv_init (cfg : Config) (created : ℚ) : AccountsInv (init cfg created) :=
  ⟨⟨scanned_nil, rfl⟩, fun _ => by simp [init], by simp [init], by simp [init, balanceAnswers], by simp [init]⟩

/-- A transition that leaves the balances, the dropped addresses and the copies alone keeps the invariant once it
keeps the one of the place. -/
theorem AccountsInv.frame {m m' : Fetcher} (hi : AccountsInv m) (here : AccountsAt m' m'.pc)
    (hb : balanceAnswers m'.log = balanceAnswers m.log) (hd : m'.dropped = m.dropped)
    (hc : m'.addressCount = m.addressCount) (hs : m'.currentAccounts = m.currentAccounts) : AccountsInv m' :=
  ⟨here, hc ▸ hs ▸ hi.snapshot, hb ▸ hd ▸ hi.dropped, hb ▸ hc ▸ hi.count, hd ▸ hc ▸ hi.droppedCount⟩

theorem Asking.signal {m : Fetcher} {keys : List String} (h : Asking m keys) :
    Asking { m with shutdownRequested := true } keys :=
  ⟨h.1, h.2, h.3⟩

theorem AccountsAt.signal {m : Fetcher} {pc : Pc} (h : AccountsAt m pc) (hr : pc.running = true) :
    AccountsAt { m with shutdownRequested := true } pc := by
  cases pc with
  | returned accounts => exact fun hf => absurd hf (by simp)
  | saved file => exact absurd hr (by simp [Pc.running])
  | balanceCheck keys => exact Asking.signal h
  | balanceFetch address rest => exact Asking.signal h
  | balanceSave address rest => exact ⟨h.1.signal, h.2⟩
  | _ => exact h

/-- The answer for the next key replaces its `None`. -/
theorem Asking.balance {m : Fetcher} {address : String} {rest : List String} (h : Asking m (address :: rest))
    (hd : ∀ a ∈ m.dropped, a ∈ (balanceAnswers m.log).map Prod.fst) (call : Call) (answer : Option ℕ) :
    Asking ((m.called call (.getBalance address answer)).storeBalance address rest answer) rest := by
  have hkeys : (balanceAnswers m.log ++ [(address, answer)]).map Prod.fst ++ rest =
      (balanceAnswers m.log).map Prod.fst ++ address :: rest := by simp
  obtain ⟨-, hcons, hdisj⟩ := List.nodup_append.mp h.nodup
  have hnew : address ∉ (balanceAnswers m.log).map Prod.fst := fun ha => hdisj ha (List.mem_cons_self _ _)
  have hdrop : address ∉ m.dropped := fun ha => hnew (hd _ ha)
  obtain ⟨extra, hextra, hacc⟩ := h.accounts
  have hpre : address ∉ ((balanceAnswers m.log).filterMap (outcome m.dropped)).map Prod.fst := fun ha => by
    obtain ⟨e, he, rfl⟩ := List.mem_map.mp ha
    exact hnew (mem_filterMap_outcome he)
  have hpost : address ∉ ((rest ++ extra).map fun a => ((a, none) : String × Option Dec)).map Prod.fst := by
    simp only [List.map_map, List.mem_map, Function.comp_def, List.mem_append, not_exists, not_and]
    rintro a (ha | ha) rfl
    · exact (List.nodup_cons.mp hcons).1 ha
    · exact hdrop (hextra a ha)
  have hacc' : (m.called call (.getBalance address answer)).accounts =
      (balanceAnswers m.log).filterMap (outcome m.dropped) ++ (address, none) ::
        (rest ++ extra).map fun a => (a, none) := by
    simpa using hacc
  refine ⟨?_, ?_, extra, by simpa using hextra, ?_⟩
  · simpa [Rpc.balanceAnswer, hkeys] using h.nodup
  · simpa [Rpc.balanceAnswer, Rpc.transactions, hkeys] using h.mem
  · rw [storeBalance_accounts rest hacc' hpre hpost (by simpa using hdrop)]
    simp only [storeBalance_log, storeBalance_dropped, called_log, called_dropped, balanceAnswers_append,
      Rpc.balanceAnswer, Option.toList_some, List.filterMap_append, List.append_assoc, List.filterMap_cons,
      List.filterMap_nil]
    cases outcome m.dropped (address, answer) <;> rfl

/-- A failed intermediate save puts `None` for the address just answered, in place or at the end. -/
theorem Asking.drop {m : Fetcher} {address : String} {rest : List String}
    (h : AccountsAt m (.balanceSave address rest)) : Asking (m.dropBalance address rest) rest := by
  obtain ⟨ha, hdrop, -, pre, w, b, hlog, hw⟩ := h
  obtain ⟨extra, hextra, hacc⟩ := ha.accounts
  have hnodup := ha.nodup
  rw [hlog, List.map_append, List.append_assoc] at hnodup
  obtain ⟨-, hcons, hdisj⟩ := List.nodup_append.mp hnodup
  have hpre : address ∉ pre.map Prod.fst := fun hp => hdisj hp (by simp)
  have hrest : address ∉ rest := fun hr => by simp [hr] at hcons
  have hout : (pre.filterMap (outcome m.dropped)).map Prod.fst ⊆ pre.map Prod.fst := fun a ha => by
    obtain ⟨e, he, rfl⟩ := List.mem_map.mp ha
    exact mem_filterMap_outcome he
  have hanswers : (balanceAnswers m.log).filterMap (outcome (m.dropped ++ [address])) =
      pre.filterMap (outcome m.dropped) ++ (if 0 < w then [(address, none)] else []) := by
    rw [hlog, List.filterMap_append, filterMap_outcome_append hpre]
    by_cases hpos : 0 < w <;> simp [outcome_of_ok hw, hpos]
  refine ⟨ha.nodup, ha.mem, ?_⟩
  rw [hlog, List.filterMap_append] at hacc
  by_cases hpos : 0 < w
  · have hlast : [(address, some w)].filterMap (outcome m.dropped) = [(address, some b)] := by
      simp [outcome_of_ok hw, hpos, hdrop]
    refine ⟨extra, fun a h => List.mem_append_left _ (hextra a h), ?_⟩
    simp only [dropBalance, hanswers, hpos, if_true, hacc, hlast, List.append_assoc, List.singleton_append]
    rw [setItem_middle _ _ fun h => hpre (hout h)]
  · have hlast : [(address, some w)].filterMap (outcome m.dropped) = [] := by simp [outcome_of_ok hw, hpos]
    have hnot : address ∉ (pre.filterMap (outcome m.dropped) ++
        (rest ++ extra).map fun a => ((a, none) : String × Option Dec)).map Prod.fst := by
      simp only [List.map_append, List.map_map, Function.comp_def, List.map_id', List.mem_append, not_or]
      exact ⟨fun h => hpre (hout h), hrest, fun h => hdrop (hextra _ h)⟩
    refine ⟨extra ++ [address], fun a h => List.mem_append.mpr ((List.mem_append.mp h).imp_left (hextra a)), ?_⟩
    simp only [dropBalance, hanswers, hpos, if_false, hacc, hlast, List.append_nil]
    rw [setItem_of_not_mem hnot]
    simp

theorem AccountsAt.goto {cfg : Config} {m : Fetcher} {pc : Pc} (h : AccountsAt m m.pc) (hp : PcNext cfg m pc) :
    AccountsAt (m.goto pc) pc := by
  cases hp with
  | batchEnter hpc | batchExit hpc | checkFetch hpc | batchSaved hpc | nextBatch hpc => rw [hpc] at h; exact h
  | checkExit hpc => rw [hpc] at h; split <;> exact h
  | pauseFail | batchSaveFail | mainFail => trivial
  | scannedStop _ hf => exact fun h' => absurd (hf.symm.trans h') (by simp)
  | scannedGo hpc =>
    rw [hpc] at h
    obtain ⟨hs, hb⟩ := h
    refine ⟨by simpa [hb] using hs.nodup, fun a => by simpa [hb] using hs.mem a, [], by simp, ?_⟩
    simpa [hb] using eq_map_none hs.none
  | balanceEnd hpc hk =>
    rw [hpc] at h
    intro hf
    obtain rfl : _ = [] := hk.resolve_right (by simpa using hf)
    refine ⟨⟨h.1, h.2, h.3⟩, ?_⟩
    obtain ⟨extra, -, hacc⟩ := h.accounts
    have hnone : ∀ e ∈ ([] ++ extra).map fun a => ((a, none) : String × Option Dec), e.2 = none := by simp
    rw [keepSome_filter_isSome, hacc, keepSome_append, keepSome_eq_nil hnone, List.append_nil]
    exact keepSome_filterMap_outcome _ _
  | balanceNext hpc => rw [hpc] at h; exact ⟨h.1, h.2, h.3⟩
  | balanceSaved hpc => rw [hpc] at h; exact ⟨h.1.1, h.1.2, h.1.3⟩
  | main hpc =>
    rw [hpc] at h
    refine ⟨fun hf => ?_, fun hf => ?_⟩
    · rw [goto_shutdownRequested] at hf
      obtain ⟨ha, hk⟩ := h hf
      exact ⟨⟨ha.1, ha.2, ha.3⟩, by rw [hf, if_neg Bool.false_ne_true, hk]; rfl⟩
    · rw [goto_shutdownRequested] at hf
      rw [hf, if_pos rfl, goto_currentAccounts]

/-- **Every transition keeps the invariant.** -/
theorem accountsInv_next {cfg : Config} {m m' : Fetcher} (hi : AccountsInv m) (hn : Next cfg m m') :
    AccountsInv m' := by
  have here := hi.here
  cases hn with
  | stay => exact hi
  | signal hr => exact hi.frame (here.signal hr) rfl rfl rfl rfl
  | goto hp => exact hi.frame (here.goto hp) rfl rfl rfl rfl
  | connected time h | chainId time h =>
    rw [h] at here
    exact hi.frame (by simpa [AccountsAt, Rpc.transactions, Rpc.balanceAnswer] using here)
      (by simp [Rpc.balanceAnswer]) rfl rfl rfl
  | notConnected | chainIdFail | raise | latestFail =>
    exact hi.frame trivial (by simp [Rpc.balanceAnswer]) rfl rfl rfl
  | latest n h =>
    rw [h] at here
    exact hi.frame (by simpa [AccountsAt, called, Rpc.transactions, Rpc.balanceAnswer] using here)
      (by simp [Rpc.balanceAnswer]) rfl rfl rfl
  | @block call n stop answer h =>
    rw [h] at here
    obtain ⟨hscan, hb⟩ := here
    have hscan' := storeBlock_scanned (m := m.called call (.getBlock n answer)) hscan n answer
    refine ⟨⟨by simpa using hscan', by simpa [Rpc.balanceAnswer] using hb⟩, ?_, ?_, ?_, ?_⟩
    · exact storeBlock_snapshot hscan' (by simpa using hi.snapshot)
    · simpa [Rpc.balanceAnswer] using hi.dropped
    · simpa [Rpc.balanceAnswer] using hi.count
    · simpa using hi.droppedCount
  | @balance call address rest answer h =>
    rw [h] at here
    have ha := here.balance hi.dropped call answer
    have hcount := storeBalance_addressCount (m.called call (.getBalance address answer)) address rest answer
    refine ⟨?_, storeBalance_snapshot (by simpa using hi.snapshot) _ _ answer, ?_, ?_, ?_⟩
    · rcases storeBalance_pc (m.called call (.getBalance address answer)) address rest answer with hpc | hpc <;>
        rw [hpc]
      · exact ha
      · obtain ⟨w, b, rfl, hw, hmod⟩ := storeBalance_saves hpc
        have hnew : address ∉ (balanceAnswers m.log).map Prod.fst :=
          fun hm => (List.nodup_append.mp here.nodup).2.2 hm (List.mem_cons_self _ _)
        refine ⟨ha, fun hd => hnew (hi.dropped _ (by simpa using hd)), ?_, balanceAnswers m.log, w, b,
          by simp [Rpc.balanceAnswer], hw⟩
        have := hi.droppedCount
        simp only [hcount, counted_some, hw, Except.toBool, if_true, storeBalance_dropped, called_dropped,
          called_addressCount] at hmod ⊢
        omega
    · intro a had
      have := hi.dropped a (by simpa using had)
      simp [Rpc.balanceAnswer, this]
    · simp only [hcount, storeBalance_log, called_log, balanceAnswers_append, Rpc.balanceAnswer,
        Option.toList_some, List.filter_append, List.length_append, called_addressCount, hi.count]
      cases hc : counted (address, answer) <;> simp [List.filter_cons, hc]
    · have := hi.droppedCount
      simp only [hcount, storeBalance_dropped, called_dropped, called_addressCount]
      omega
  | dropBalance h =>
    rw [h] at here
    have hdrop := Asking.drop here
    obtain ⟨-, -, hlen, pre, w, b, hlog, -⟩ := here
    refine ⟨hdrop, hi.snapshot, fun a ha => ?_, hi.count, by simpa [dropBalance] using hlen⟩
    rcases List.mem_append.mp ha with ha | ha
    · exact hi.dropped a ha
    · simp [dropBalance, List.mem_singleton.mp ha, hlog]

theorem accountsInv_run (cfg : Config) (created : ℚ) (inputs : List Input) :
    AccountsInv (run cfg (init cfg created) inputs) :=
  run_of_next (fun _ _ hi hn => accountsInv_next hi hn) _ inputs (accountsInv_init cfg created)

end Fetcher

end RevoMigration.Holders
