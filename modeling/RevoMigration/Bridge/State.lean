import RevoMigration.Bridge.Scan

/-!
# `BridgeState` and `bridge_state.json`

`processed_txs` is a Python dict from source transaction hashes to the details of their mint (`Ledger`), its keys
distinct by construction; `mark_tx_processed` is the dict's `d[k] = v` (`Ledger.insert`), which appends a new key
(`Ledger.insert_of_not_mem`) and never drops one (`Ledger.keys_insert`). The state file is written by
`save_state`'s direct overwrite (`saveState`), so a write that fails after `open` leaves a file no JSON parser
accepts, and `load_state` (`StateFile.load`) falls back to the defaults for it as for a missing file. A complete
dump reads back as what was dumped (`StateFile.load_saveState`).
-/

namespace RevoMigration.Bridge

/-! ## The ledger -/

/-- The `details` of a `processed_txs` entry, without its wall-clock timestamps. -/
structure LedgerEntry where
  fromAddress : String
  tokenAddress : String
  amount : ℕ
  revoAmount : ℤ
  mintTxHash : String
deriving DecidableEq, Repr

/-- `d[k] = v` on the items of a dict in insertion order: an existing key keeps its place. -/
def setItem {α : Type} : List (String × α) → String → α → List (String × α)
  | [], k, v => [(k, v)]
  | (k', v') :: rest, k, v => if k' = k then (k, v) :: rest else (k', v') :: setItem rest k v

theorem keys_setItem {α : Type} (l : List (String × α)) (k : String) (v : α) :
    (setItem l k v).map Prod.fst = if k ∈ l.map Prod.fst then l.map Prod.fst else l.map Prod.fst ++ [k] := by
  induction l with
  | nil => rfl
  | cons p rest ih =>
    by_cases h : p.1 = k
    · simp [setItem, h]
    · by_cases hk : k ∈ rest.map Prod.fst <;> simp [setItem, h, ih, hk, Ne.symm h]

theorem setItem_of_not_mem {α : Type} {l : List (String × α)} {k : String} (h : k ∉ l.map Prod.fst) (v : α) :
    setItem l k v = l ++ [(k, v)] := by
  induction l with
  | nil => rfl
  | cons p rest ih =>
    simp only [List.map_cons, List.mem_cons, not_or] at h
    simp [setItem, Ne.symm h.1, ih h.2]

/-- `processed_txs`: the items of a dict from source transaction hashes to ledger entries. -/
@[ext]
structure Ledger where
  entries : List (String × LedgerEntry)
  nodup : (entries.map Prod.fst).Nodup

instance : DecidableEq Ledger := fun a b => decidable_of_iff (a.entries = b.entries) Ledger.ext_iff.symm

namespace Ledger

/-- The empty dict `{}`. -/
def empty : Ledger := ⟨[], List.nodup_nil⟩

/-- The keys of the dict, in insertion order. -/
def keys (l : Ledger) : List String := l.entries.map Prod.fst

/-- `tx_hash in self.processed_txs`: `is_tx_processed`. -/
def contains (l : Ledger) (k : String) : Bool := decide (k ∈ l.keys)

/-- `mark_tx_processed(tx_hash, details)`: `processed_txs[tx_hash] = details`. -/
def insert (l : Ledger) (k : String) (v : LedgerEntry) : Ledger :=
  ⟨setItem l.entries k v, by
    rw [keys_setItem]
    split_ifs with h
    · exact l.nodup
    · exact l.nodup.append (List.nodup_singleton k) (List.disjoint_singleton.mpr h)⟩

@[simp] theorem keys_empty : empty.keys = [] := rfl

@[simp] theorem contains_iff {l : Ledger} {k : String} : l.contains k = true ↔ k ∈ l.keys := decide_eq_true_iff

theorem keys_insert (l : Ledger) (k : String) (v : LedgerEntry) :
    (l.insert k v).keys = if k ∈ l.keys then l.keys else l.keys ++ [k] :=
  keys_setItem l.entries k v

/-- A new key is appended: nothing already in the ledger moves or changes. -/
theorem insert_of_not_mem {l : Ledger} {k : String} (h : k ∉ l.keys) (v : LedgerEntry) :
    (l.insert k v).entries = l.entries ++ [(k, v)] :=
  setItem_of_not_mem h v

end Ledger

/-! ## The state file -/

/-- What `bridge_state.json` holds: nothing, a file that a crash or a failed write inside `save_state`'s direct
overwrite cut short (no JSON parser accepts a strict prefix of a dump, nor an empty file), or a complete dump. -/
inductive StateFile
  | absent
  | torn
  | written (lastBlockProcessed : ℤ) (processedTxs : Ledger)
deriving DecidableEq

/-- `load_state`: the two fields it sets, the defaults `0` and `{}` kept for a missing or unreadable file. -/
def StateFile.load : StateFile → ℤ × Ledger
  | .absent => (0, .empty)
  | .torn => (0, .empty)
  | .written last txs => (last, txs)

/-- How the write of `save_state` ends (its error is logged and swallowed): the dump completes, `open` fails and
the file is untouched, or the write fails after `open` truncated the file. -/
inductive SaveResult
  | written
  | openFailed
  | writeFailed
deriving DecidableEq, Repr

/-- The file after `save_state` of `last_block_processed = last` and `processed_txs = txs`. -/
def saveState (file : StateFile) (last : ℤ) (txs : Ledger) : SaveResult → StateFile
  | .written => .written last txs
  | .openFailed => file
  | .writeFailed => .torn

/-- A completed dump loads back as the state that was dumped. -/
@[simp] theorem StateFile.load_saveState (file : StateFile) (last : ℤ) (txs : Ledger) :
    (saveState file last txs .written).load = (last, txs) := rfl

end RevoMigration.Bridge
