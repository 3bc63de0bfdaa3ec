import RevoMigration.FetchedPrices

/-!
# The mint command

`mint_revo_tokens` logs the amount in REVO (`amount / 10**REVO_DECIMALS`, a float division), writes the private key
to the file `temp_mint_key.json`, runs the mint command, reads the transaction hash from its output, and removes the
key file: in the `try` block once the hash is read, and in the `finally` clause if the file is still there. The
environment answers each of these effects (`MintEffects`), and `mintRevoTokens` gives what the call does: the
`MintResult` the bridge machine receives, and whether the key file is on disk afterwards.

The float division raises `OverflowError` for an amount past about `1.8E+326` base units (`logOverflows`), before
`key_file` is bound; the handler returns `None`, but the `finally` clause then reads the unbound `key_file` and
raises `UnboundLocalError`. Whatever the amount and the answers, the key file is on disk afterwards only when the
call raises, a non-empty hash comes only from a mint command that exited with status 0 and printed a line
containing `txhash`, and an overflowing amount makes the call raise without running the command
(`mintRevoTokens_spec`).
-/

namespace RevoMigration.Bridge

open RevoMigration.Combine (Run)
open RevoMigration.Wallets (pyStrip)

/-- How the write of the key file ends: `open` fails and creates nothing, `json.dump` fails once `open` has created
the file, or both succeed. -/
inductive KeyWrite
  | openFailed
  | dumpFailed
  | written
deriving DecidableEq, Repr

/-- The environment's answers to the effects of one call of `mint_revo_tokens`: whether a key file is on disk
before the call (left by an earlier call whose removals failed), the write of the key file, the run of the mint
command, and whether the `os.remove` of the `try` block and the one of the `finally` clause succeed. -/
structure MintEffects where
  keyFileBefore : Bool
  keyWrite : KeyWrite
  command : Run
  removeAfterHash : Bool
  removeInFinally : Bool
deriving DecidableEq, Repr

/-- `amount / 10**REVO_DECIMALS` raises `OverflowError`: Python's integer true division rounds the quotient
half-even to a double, and fails when that is `2 ^ 1024` or more, that is when the quotient is at least the
midpoint `2 ^ 1024 - 2 ^ 970` between the largest double and `2 ^ 1024`. -/
def logOverflows (amount : ℤ) : Bool := decide ((2 ^ 1024 - 2 ^ 970) * 10 ^ 18 ≤ amount.natAbs)

/-- `tx_hash_line[0].split(':')[1].strip()` of the first line of the stripped output that contains `txhash`: `None`
for no such line, and for a line without `:` (the `IndexError` is caught). -/
def txHashOf (stdout : List Char) : Option (List Char) :=
  match ((pyStrip stdout).splitOn '\n').filter fun line => decide ("txhash".data <:+: line) with
  | [] => none
  | line :: _ => ((line.splitOn ':')[1]?).map pyStrip

/-- The `try` block from the key file on, with its two handlers, which return `None` on every exception: the value
returned, and whether the key file is on disk after them. -/
def mintTry (e : MintEffects) : Option String × Bool :=
  match e.keyWrite with
  | .openFailed => (none, e.keyFileBefore)
  | .dumpFailed => (none, true)
  | .written =>
    match e.command with
    | .raised => (none, true)
    | .exited returncode stdout =>
      if returncode ≠ 0 then (none, true)
      else
        match txHashOf stdout with
        | none => (none, true)
        | some txHash => if e.removeAfterHash then (some ⟨txHash⟩, false) else (none, true)

/-- `mint_revo_tokens(recipient_address, amount, ...)`: the log line, then the rest of the `try` block, then the
`finally` clause, an exception of whose `os.path.exists` or `os.remove` replaces the value returned; with whether
the key file is on disk afterwards. -/
def mintRevoTokens (amount : ℤ) (e : MintEffects) : MintResult × Bool :=
  if logOverflows amount then (.raised, e.keyFileBefore)
  else
    match mintTry e with
    | (txHash, true) => if e.removeInFinally then (.returned txHash, false) else (.raised, true)
    | (txHash, false) => (.returned txHash, false)

/-- The `try` block returns a hash only when the mint command exited with status 0 and printed it. -/
theorem mintTry_some {e : MintEffects} {txHash : String} (h : (mintTry e).1 = some txHash) :
    ∃ stdout, e.command = .exited 0 stdout ∧ txHashOf stdout = some txHash.data := by
  obtain ⟨_, _ | _ | _, _ | ⟨returncode, stdout⟩, _, _⟩ := e <;> try cases h
  cases ht : txHashOf stdout with
  | none => simp [mintTry, ht] at h
  | some t =>
    simp only [mintTry, ht, ne_eq, ite_not] at h
    split_ifs at h with hr
    cases h
    exact ⟨stdout, by rw [hr], ht⟩

/-- A transaction id comes only from a call that returned it. -/
theorem MintResult.eq_returned_of_txId {r : MintResult} {txHash : String} (h : r.txId = some txHash) :
    r = .returned (some txHash) := by
  unfold MintResult.txId at h
  split at h
  · split_ifs at h
    cases h
    rfl
  · cases h

/-- Past the log line, the call returns what the `try` block returned, or raises with the key file on disk. -/
theorem mintRevoTokens_cases {amount : ℤ} (h : logOverflows amount = false) (e : MintEffects) :
    mintRevoTokens amount e = (.returned (mintTry e).1, false) ∨ mintRevoTokens amount e = (.raised, true) := by
  unfold mintRevoTokens
  rw [if_neg (by simp [h])]
  split <;> (try split) <;> simp_all

/-- **The key file and the hash.** For every amount and every answer of the environment, `mint_revo_tokens` leaves
the key file with the private key on disk only when it raises; it returns a non-empty hash only when the log line
did not overflow and the mint command exited with status 0 and printed a line containing `txhash`, whose stripped
text after its first `:` the hash is; and for an amount whose log line overflows it raises, leaving the disk as it
was, whatever the rest of the environment does. -/
theorem mintRevoTokens_spec (amount : ℤ) (e : MintEffects) :
    ((mintRevoTokens amount e).2 = true → (mintRevoTokens amount e).1 = .raised) ∧
      (∀ txHash, (mintRevoTokens amount e).1.txId = some txHash →
        logOverflows amount = false ∧ ∃ stdout, e.command = .exited 0 stdout ∧ txHashOf stdout = some txHash.data) ∧
      (logOverflows amount = true → mintRevoTokens amount e = (.raised, e.keyFileBefore)) := by
  cases ho : logOverflows amount
  · refine ⟨?_, fun txHash htx => ⟨rfl, mintTry_some ?_⟩, nofun⟩
    · rcases mintRevoTokens_cases ho e with h | h <;> rw [h] <;> simp
    · rcases mintRevoTokens_cases ho e with h | h <;> rw [h] at htx
      · exact MintResult.returned.inj (MintResult.eq_returned_of_txId htx)
      · cases htx
  · have h : mintRevoTokens amount e = (.raised, e.keyFileBefore) := by simp [mintRevoTokens, ho]
    exact ⟨fun _ => by rw [h], fun _ htx => (by rw [h] at htx; cases htx), fun _ => h⟩

end RevoMigration.Bridge
