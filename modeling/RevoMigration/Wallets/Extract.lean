import RevoMigration.Wallets.Multisend

/-!
# Extracting the active wallets

`extract_active_wallets` turns the fetched transactions into a set of lowercase addresses. For each transaction the
CXS script adds its sender and its recipient, the recipients a call to the multisend contract decodes to, the two
addresses of every log of its receipt with three topics, the addresses an ERC-20 `transfer` or `transferFrom` input
names, and the `dst:` address of a decoded `transfer`; at the end it removes the null addresses. The NEXTEP script,
whose token address `--nextep-token-address` sets, reads only calls to the token, multisend calls that decode to
destinations of the token, and `Transfer` logs of the token's contract, and also removes the two contract addresses.

The transactions are JSON objects: a `null` where the code calls a method or iterates raises out of the loop, and so
out of the function (a null `data` after an empty `input`, a null receipt or `logs`, and for NEXTEP a null log
`address`). Every block of the loop body raises, or not, whatever the set it is given, and otherwise only adds
lowercase addresses (`AddsLower`, `AddsLowerE`), so the loop builds the union of what each transaction adds on its
own, or raises what the first raising transaction raises (`contributions`): the active wallets are exactly the
addresses some transaction contributes, less the removed ones, whatever the order or batching of the transactions
(`extractActiveWallets_eq_contributions`).
-/

namespace RevoMigration.Wallets

open RevoMigration.Bridge (slice lower)

/-! ## Python strings -/

/-- Python's `s.startswith(p)`. -/
def startsWith (s p : String) : Bool := p.data.isPrefixOf s.data

/-- The text before and after the first occurrence of a non-empty `sep`, where `s.split(sep)` cuts first. -/
def splitOnce (sep : List Char) : List Char → Option (List Char × List Char)
  | [] => none
  | c :: cs =>
    if sep.isPrefixOf (c :: cs) then some ([], (c :: cs).drop sep.length)
    else (splitOnce sep cs).map fun p => (c :: p.1, p.2)

/-- `s.split(sep)[0]`: the text before the first `sep`, or all of `s`. -/
def firstPiece (sep s : List Char) : List Char := ((splitOnce sep s).map Prod.fst).getD s

/-- Python's `str.isspace()` on one character: the ASCII and Unicode whitespace `str.strip()` removes. -/
def pyIsSpace (c : Char) : Bool :=
  decide (9 ≤ c.toNat ∧ c.toNat ≤ 13) || decide (28 ≤ c.toNat ∧ c.toNat ≤ 32) || c.toNat == 133 ||
    c.toNat == 160 || c.toNat == 5760 || decide (8192 ≤ c.toNat ∧ c.toNat ≤ 8202) || c.toNat == 8232 ||
    c.toNat == 8233 || c.toNat == 8239 || c.toNat == 8287 || c.toNat == 12288

/-- Python's `s.strip()`. -/
def pyStrip (s : List Char) : List Char := ((s.dropWhile pyIsSpace).reverse.dropWhile pyIsSpace).reverse

/-! ## Transactions of the transactions API -/

/-- A log of `tx["receipt"]["logs"]`: its `address` (`some ""` when absent, `none` when null), and its `topics`
(`[]` when absent or null, which the code only tests for truth). -/
structure ApiLog where
  address : Option String
  topics : List String
deriving DecidableEq, Repr

/-- `tx.get("receipt", {})` as the loop over its logs reads it. -/
inductive Receipt
  /-- `"receipt": null`, whose `.get("logs", [])` raises. -/
  | null
  /-- A receipt whose `logs` is null, over which `for log in logs` raises. -/
  | nullLogs
  /-- A receipt with these logs: `[]` when the receipt or its `logs` is absent. -/
  | logs (logs : List ApiLog)
deriving DecidableEq, Repr

/-- `tx["methodDetails"]` when it is a non-empty object: its `name`, and its `label`, `""` when absent or null (the
`TypeError` of `"dst:" in None` is caught). -/
structure MethodDetails where
  name : Option String
  label : String
deriving DecidableEq, Repr

/-- A transaction object of the transactions API as the extraction reads it: `from`, `to` and `input` (`""` when
absent or null, where the code only tests them for truth), `data` (`some ""` when absent, `none` when null), its
receipt, and its `methodDetails` (`none` when absent, null or empty). -/
structure ApiTx where
  fromAddress : String
  toAddress : String
  input : String
  data : Option String
  receipt : Receipt
  methodDetails : Option MethodDetails
deriving DecidableEq, Repr

/-- `tx.get("input", "") or tx.get("data", "")`: `none` for a null `data` after an empty `input`. -/
def ApiTx.callData (tx : ApiTx) : Option String := if tx.input ≠ "" then some tx.input else tx.data

/-- The exceptions a JSON `null` raises in the loop body and that no handler there catches: the `AttributeError` of
a method of `None`, and the `TypeError` of iterating over `None`. -/
inductive NoneError
  | attributeError (name : String)
  | notIterable
deriving DecidableEq, Repr

/-- `logs = receipt.get("logs", [])` and `for log in logs`. -/
def Receipt.logList : Receipt → Except NoneError (List ApiLog)
  | .null => .error (.attributeError "get")
  | .nullLogs => .error .notIterable
  | .logs entries => .ok entries

/-- The data the ERC-20 call block calls `data.startswith(...)` on. -/
def ApiTx.transferData (tx : ApiTx) : Except NoneError String :=
  match tx.callData with
  | some data => .ok data
  | none => .error (.attributeError "startswith")

/-! ## The code -/

/-- `MULTISEND_CONTRACT_ADDRESS` of `fetch_active_wallets.py`, which `--multisend-address` overrides. -/
def multisendContractAddress : String := "0xF42fd95790C20F930E56847b8e29a9b5273052E7"

/-- The `addresses_to_remove` of `fetch_active_wallets.py`. -/
def nullAddresses : List String := ["0x", "0x0", "0x0000000000000000000000000000000000000000"]

/-- `"0x" + topic[26:].lower()`: the address a 32-byte topic pads. -/
def topicAddress (topic : String) : String := "0x" ++ lower (sliceFrom topic 26)

/-- `if from_addr: active_wallets.add(from_addr.lower())`. -/
def addFromAddress (tx : ApiTx) (activeWallets : Finset String) : Finset String :=
  if tx.fromAddress ≠ "" then insert (lower tx.fromAddress) activeWallets else activeWallets

/-- The addresses a multisend call decodes to, each added if it is non-empty and at least 42 characters long. -/
def addMultisendAddresses (multisendAddresses : List String) (activeWallets : Finset String) : Finset String :=
  multisendAddresses.foldl (fun s addr => if addr ≠ "" ∧ 42 ≤ addr.length then insert (lower addr) s else s)
    activeWallets

/-- The `to` block of `fetch_active_wallets.py`: the recipient, and for a call to the multisend contract with data,
what `decode_multisend_data` returns. -/
def addToAddress (multisendAddress : String) (tx : ApiTx) (activeWallets : Finset String) : Finset String :=
  if tx.toAddress ≠ "" then
    let activeWallets := insert (lower tx.toAddress) activeWallets
    if lower tx.toAddress = lower multisendAddress then
      match tx.callData with
      | some data =>
        if data ≠ "" then addMultisendAddresses (decodeMultisendData data) activeWallets else activeWallets
      | none => activeWallets
    else activeWallets
  else activeWallets

/-- One log of the receipt: with at least three topics, the `from` and `to` topics that start with `0x`. -/
def addTransferLog (activeWallets : Finset String) (log : ApiLog) : Finset String :=
  match log.topics with
  | _ :: fromTopic :: toTopic :: _ =>
    let activeWallets :=
      if startsWith fromTopic "0x" then insert (topicAddress fromTopic) activeWallets else activeWallets
    if startsWith toTopic "0x" then insert (topicAddress toTopic) activeWallets else activeWallets
  | _ => activeWallets

/-- The loop over the logs of `tx["receipt"]`. -/
def addReceiptLogs (logs : List ApiLog) (activeWallets : Finset String) : Finset String :=
  logs.foldl addTransferLog activeWallets

/-- The ERC-20 call block: the recipient of `transfer(address,uint256)` at characters 34 to 74, and the sender and
the recipient of `transferFrom(address,address,uint256)` at characters 34 to 74 and 98 to 138. -/
def addTransferCall (data : String) (activeWallets : Finset String) : Finset String :=
  if startsWith data "0xa9059cbb" then insert ("0x" ++ lower (slice data 34 74)) activeWallets
  else if startsWith data "0x23b872dd" then
    insert ("0x" ++ lower (slice data 98 138)) (insert ("0x" ++ lower (slice data 34 74)) activeWallets)
  else activeWallets

/-- `label.split("dst:")[1].split(",")[0].strip()`, when `"dst:" in label`. -/
def dstPart (label : String) : Option String :=
  (splitOnce "dst:".data label.data).map fun p => ⟨pyStrip (firstPiece ",".data (firstPiece "dst:".data p.2))⟩

/-- The method details block: for a decoded `transfer`, the `dst:` address of its label when it starts with `0x`. -/
def addMethodDetails (methodDetails : Option MethodDetails) (activeWallets : Finset String) : Finset String :=
  match methodDetails with
  | some md =>
    if md.name = some "transfer" then
      match dstPart md.label with
      | some dst => if startsWith dst "0x" then insert (lower dst) activeWallets else activeWallets
      | none => activeWallets
    else activeWallets
  | none => activeWallets

/-- The body of the loop of `extract_active_wallets` in `fetch_active_wallets.py`, block after block. -/
def addTransaction (multisendAddress : String) (activeWallets : Finset String) (tx : ApiTx) :
    Except NoneError (Finset String) := do
  let activeWallets := addToAddress multisendAddress tx (addFromAddress tx activeWallets)
  let logs ← tx.receipt.logList
  let activeWallets := addReceiptLogs logs activeWallets
  let data ← tx.transferData
  return addMethodDetails tx.methodDetails (addTransferCall data activeWallets)

/-- The loop of `extract_active_wallets`: `shutdown_requested` is read once before each transaction (a flag past the
end of the list reads `False`), a raised flag breaks the loop, and an exception of the body leaves the function. -/
def extractLoop (addTx : Finset String → ApiTx → Except NoneError (Finset String)) :
    Finset String → List ApiTx → List Bool → Except NoneError (Finset String)
  | activeWallets, [], _ => .ok activeWallets
  | activeWallets, tx :: txs, shutdown =>
    if shutdown.headD false then .ok activeWallets
    else (addTx activeWallets tx).bind fun activeWallets => extractLoop addTx activeWallets txs shutdown.tail

/-- `for addr in addresses_to_remove: if addr in active_wallets: active_wallets.remove(addr)`. -/
def removeAddresses (addressesToRemove : List String) (activeWallets : Finset String) : Finset String :=
  addressesToRemove.foldl (fun s addr => s.erase addr) activeWallets

/-- `extract_active_wallets(transactions)` of `fetch_active_wallets.py`, with the contract address of
`--multisend-address`. -/
def extractActiveWallets (multisendAddress : String) (transactions : List ApiTx) (shutdown : List Bool) :
    Except NoneError (Finset String) :=
  (extractLoop (addTransaction multisendAddress) ∅ transactions shutdown).map (removeAddresses nullAddresses)

end RevoMigration.Wallets

namespace RevoMigration.NextepWallets

open RevoMigration.Wallets
open RevoMigration.Bridge (lower)

/-- `MULTISEND_CONTRACT_ADDRESS` of `fetch_active_wallets_nextep.py`, which `--multisend-address` overrides. -/
def multisendContractAddress : String := "0x849c24DcFF665188062E0ed34a82c1A9e57ed58B"

/-- The first topic of an ERC-20 `Transfer` log, the hash of `Transfer(address,address,uint256)`. -/
def transferEventTopic : String := "0xddf252ad1be2c89b69c2b068fc378daa952ba7f163c4a11628f55a4df523b3ef"

/-- The call block of `fetch_active_wallets_nextep.py`, with `NEXTEP_TOKEN_ADDRESS` set to `tokenAddress`: a call to
the NEXTEP token adds its sender and the addresses of its `transfer` or `transferFrom` input; otherwise a call with
data to the multisend contract adds what `decode_multisend_data` returns and, when that is not empty, its sender. -/
def addCall (tokenAddress multisendAddress : String) (tx : ApiTx) (activeWallets : Finset String) :
    Except NoneError (Finset String) :=
  if tx.toAddress ≠ "" ∧ lower tx.toAddress = lower tokenAddress then do
    let activeWallets := addFromAddress tx activeWallets
    let data ← tx.transferData
    return addTransferCall data activeWallets
  else if tx.toAddress ≠ "" ∧ lower tx.toAddress = lower multisendAddress then
    match tx.callData with
    | some data =>
      if data ≠ "" then
        let multisendAddresses := decodeMultisendDataFor tokenAddress data
        if multisendAddresses ≠ [] then .ok (addFromAddress tx (addMultisendAddresses multisendAddresses activeWallets))
        else .ok activeWallets
      else .ok activeWallets
    | none => .ok activeWallets
  else .ok activeWallets

/-- One log of the receipt: `log.get("address", "").lower()`, which raises for a null address, then only a
`Transfer` log of the NEXTEP contract counts. -/
def addReceiptLog (tokenAddress : String) (activeWallets : Finset String) (log : ApiLog) :
    Except NoneError (Finset String) :=
  match log.address with
  | some address =>
    if lower address = lower tokenAddress ∧ log.topics.head? = some transferEventTopic then
      .ok (addTransferLog activeWallets log)
    else .ok activeWallets
  | none => .error (.attributeError "lower")

/-- The loop over the logs of `tx.get("receipt", {})`. -/
def addReceiptLogs (tokenAddress : String) (receipt : Receipt) (activeWallets : Finset String) :
    Except NoneError (Finset String) := do
  let logs ← receipt.logList
  logs.foldlM (addReceiptLog tokenAddress) activeWallets

/-- The body of the loop of `extract_active_wallets` in `fetch_active_wallets_nextep.py`. -/
def addTransaction (tokenAddress multisendAddress : String) (activeWallets : Finset String) (tx : ApiTx) :
    Except NoneError (Finset String) := do
  let activeWallets ← addCall tokenAddress multisendAddress tx activeWallets
  addReceiptLogs tokenAddress tx.receipt activeWallets

/-- The `addresses_to_remove` of `fetch_active_wallets_nextep.py`. -/
def addressesToRemove (tokenAddress multisendAddress : String) : List String :=
  nullAddresses ++ [lower tokenAddress, lower multisendAddress]

/-- `extract_active_wallets(transactions)` of `fetch_active_wallets_nextep.py`, with the token address of
`--nextep-token-address` and the contract address of `--multisend-address`. -/
def extractActiveWallets (tokenAddress multisendAddress : String) (transactions : List ApiTx)
    (shutdown : List Bool) : Except NoneError (Finset String) :=
  (extractLoop (addTransaction tokenAddress multisendAddress) ∅ transactions shutdown).map
    (removeAddresses (addressesToRemove tokenAddress multisendAddress))

end RevoMigration.NextepWallets

namespace RevoMigration.Wallets

open RevoMigration.Bridge (lower)

/-! ## Blocks that only add lowercase addresses -/

theorem toLower_toLower (c : Char) : c.toLower.toLower = c.toLower := by
  have hupper : ∀ n < 91, 65 ≤ n → (Char.ofNat (n + 32)).toLower = Char.ofNat (n + 32) := by decide
  by_cases h : c.toNat ≥ 65 ∧ c.toNat ≤ 90
  · have e : c.toLower = Char.ofNat (c.toNat + 32) := if_pos h
    rw [e]
    exact hupper _ (by omega) h.1
  · have e : c.toLower = c := if_neg h
    rw [e, e]

theorem lower_append (s t : String) : lower (s ++ t) = lower s ++ lower t := by
  cases s; cases t
  exact congrArg String.mk (List.map_append _ _ _)

theorem lower_lower (s : String) : lower (lower s) = lower s :=
  congrArg String.mk (by simp only [lower, List.map_map]; exact List.map_congr_left fun c _ => toLower_toLower c)

theorem lower_hex_append (s : String) : lower ("0x" ++ lower s) = "0x" ++ lower s := by
  rw [lower_append, lower_lower]
  rfl

/-- A block of the loop body that only adds lowercase addresses: its result is its input together with what it adds
to the empty set, and what it adds is lowercase. -/
structure AddsLower (f : Finset String → Finset String) : Prop where
  adds : ∀ s, f s = s ∪ f ∅
  lower_eq : ∀ a ∈ f ∅, lower a = a

namespace AddsLower

variable {f g : Finset String → Finset String}

theorem skip : AddsLower fun s => s :=
  ⟨fun s => (Finset.union_empty s).symm, fun _ h => absurd h (Finset.not_mem_empty _)⟩

theorem insert {a : String} (ha : lower a = a) : AddsLower (insert a) :=
  ⟨fun s => by rw [Finset.insert_eq, Finset.insert_eq, Finset.union_empty, Finset.union_comm],
    fun b hb => by
      simp only [Finset.mem_insert, Finset.not_mem_empty, or_false] at hb
      exact hb ▸ ha⟩

theorem comp (hf : AddsLower f) (hg : AddsLower g) : AddsLower fun s => g (f s) where
  adds s := by rw [hg.adds (f s), hf.adds s, hg.adds (f ∅), Finset.union_assoc]
  lower_eq a ha := by
    rw [hg.adds] at ha
    exact (Finset.mem_union.mp ha).elim (hf.lower_eq a) (hg.lower_eq a)

theorem ite (c : Prop) [Decidable c] (hf : AddsLower f) (hg : AddsLower g) :
    AddsLower fun s => if c then f s else g s := by
  by_cases h : c
  · simpa only [h, if_true] using hf
  · simpa only [h, if_false] using hg

theorem foldl {α : Type} {h : Finset String → α → Finset String} (hh : ∀ x, AddsLower fun s => h s x) :
    ∀ l : List α, AddsLower fun s => l.foldl h s
  | [] => skip
  | x :: l => comp (hh x) (foldl hh l)

theorem subset (hf : AddsLower f) (s : Finset String) : s ⊆ f s :=
  hf.adds s ▸ Finset.subset_union_left

theorem mem_iff (hf : AddsLower f) {s : Finset String} {a : String} : a ∈ f s ↔ a ∈ s ∨ a ∈ f ∅ := by
  rw [hf.adds s, Finset.mem_union]

end AddsLower

/-- A block of the loop body that may raise: whether it raises, and with which exception, does not depend on the
set it is given, and otherwise it only adds lowercase addresses. -/
structure AddsLowerE (f : Finset String → Except NoneError (Finset String)) : Prop where
  adds : ∀ s, f s = (f ∅).map (s ∪ ·)
  lower_eq : ∀ t, f ∅ = .ok t → ∀ a ∈ t, lower a = a

namespace AddsLowerE

variable {f g : Finset String → Except NoneError (Finset String)}

theorem ok {f : Finset String → Finset String} (hf : AddsLower f) : AddsLowerE fun s => .ok (f s) where
  adds s := congrArg Except.ok (hf.adds s)
  lower_eq t h := by
    cases h
    exact hf.lower_eq

theorem raise (e : NoneError) : AddsLowerE fun _ => .error e :=
  ⟨fun _ => rfl, fun _ h => by cases h⟩

/-- What the block returns is its input together with what it returns on the empty set. -/
theorem eq_union (hf : AddsLowerE f) {s t : Finset String} (h : f s = .ok t) : ∃ u, f ∅ = .ok u ∧ t = s ∪ u := by
  rw [hf.adds s] at h
  obtain ⟨u, hu, rfl⟩ := Decimal.map_eq_ok h
  exact ⟨u, hu, rfl⟩

/-- A block after another returns the union of what each returns on the empty set. -/
theorem bind_eq_ok (hg : AddsLowerE g) {t : Finset String} (h : (f ∅).bind g = .ok t) :
    ∃ u v, f ∅ = .ok u ∧ g ∅ = .ok v ∧ t = u ∪ v := by
  obtain ⟨u, hu, h⟩ := Decimal.bind_eq_ok h
  obtain ⟨v, hv, rfl⟩ := hg.eq_union h
  exact ⟨u, v, hu, hv, rfl⟩

/-- A block after another, when the second is given what the first returned. -/
theorem bind (hf : AddsLowerE f) (hg : AddsLowerE g) : AddsLowerE fun s => (f s).bind g where
  adds s := by
    rw [hf.adds s]
    cases hf0 : f ∅ with
    | error e => rfl
    | ok t =>
      show g (s ∪ t) = (g t).map (s ∪ ·)
      rw [hg.adds (s ∪ t), hg.adds t]
      cases g ∅ with
      | error e => rfl
      | ok u => exact congrArg Except.ok (Finset.union_assoc s t u)
  lower_eq t h a ha := by
    obtain ⟨u, v, hu, hv, rfl⟩ := bind_eq_ok hg h
    exact (Finset.mem_union.mp ha).elim (hf.lower_eq u hu a) (hg.lower_eq v hv a)

/-- A block that first reads something of the transaction that may raise, and then goes on with what it read. -/
theorem const_bind {α : Type} (e : Except NoneError α) {k : α → Finset String → Except NoneError (Finset String)}
    (hk : ∀ x, AddsLowerE (k x)) : AddsLowerE fun s => e.bind fun x => k x s := by
  cases e with
  | error err => exact raise err
  | ok x => exact hk x

theorem ite (c : Prop) [Decidable c] (hf : AddsLowerE f) (hg : AddsLowerE g) :
    AddsLowerE fun s => if c then f s else g s := by
  by_cases h : c
  · simpa only [h, if_true] using hf
  · simpa only [h, if_false] using hg

theorem foldlM {α : Type} {h : Finset String → α → Except NoneError (Finset String)}
    (hh : ∀ x, AddsLowerE fun s => h s x) : ∀ l : List α, AddsLowerE fun s => l.foldlM h s
  | [] => ok AddsLower.skip
  | x :: l => bind (hh x) (foldlM hh l)

/-- In a loop of blocks, what one element's block adds on its own ends up in the result. -/
theorem mem_foldlM {α : Type} {h : Finset String → α → Except NoneError (Finset String)}
    (hh : ∀ x, AddsLowerE fun s => h s x) {x : α} {u : Finset String} (hx : h ∅ x = .ok u) {a : String}
    (ha : a ∈ u) : ∀ {l : List α} {s t : Finset String}, x ∈ l → l.foldlM h s = .ok t → a ∈ t
  | y :: l, s, t, hmem, hfold => by
    change (h s y).bind (fun s' => l.foldlM h s') = .ok t at hfold
    obtain ⟨s', hy, hrest⟩ := Decimal.bind_eq_ok hfold
    rcases List.mem_cons.mp hmem with rfl | hmem
    · obtain ⟨v, -, rfl⟩ := (foldlM hh l).eq_union hrest
      obtain ⟨w, hw, rfl⟩ := (hh x).eq_union hy
      rw [hx] at hw
      cases hw
      exact Finset.mem_union_left _ (Finset.mem_union_right _ ha)
    · exact mem_foldlM hh hx ha hmem hrest

end AddsLowerE

open AddsLower

theorem addFromAddress_addsLower (tx : ApiTx) : AddsLower (addFromAddress tx) :=
  ite _ (insert (lower_lower _)) skip

theorem addMultisendAddresses_addsLower (multisendAddresses : List String) :
    AddsLower (addMultisendAddresses multisendAddresses) :=
  foldl (fun addr => ite _ (insert (lower_lower addr)) skip) multisendAddresses

theorem addToAddress_addsLower (multisendAddress : String) (tx : ApiTx) :
    AddsLower (addToAddress multisendAddress tx) := by
  have hdata : AddsLower fun s => match tx.callData with
      | some data => if data ≠ "" then addMultisendAddresses (decodeMultisendData data) s else s
      | none => s := by
    cases tx.callData
    · exact skip
    · exact ite _ (addMultisendAddresses_addsLower _) skip
  exact ite _ (comp (insert (lower_lower _)) (ite _ hdata skip)) skip

theorem addTransferLog_addsLower (log : ApiLog) : AddsLower fun s => addTransferLog s log := by
  obtain ⟨_, _ | ⟨_, _ | ⟨_, _ | ⟨_, _⟩⟩⟩⟩ := log
  iterate 3 exact skip
  exact comp (ite _ (insert (lower_hex_append _)) skip) (ite _ (insert (lower_hex_append _)) skip)

theorem addReceiptLogs_addsLower (logs : List ApiLog) : AddsLower (addReceiptLogs logs) :=
  foldl addTransferLog_addsLower logs

theorem addTransferCall_addsLower (data : String) : AddsLower (addTransferCall data) :=
  ite _ (insert (lower_hex_append _))
    (ite _ (comp (insert (lower_hex_append _)) (insert (lower_hex_append _))) skip)

theorem addMethodDetails_addsLower (methodDetails : Option MethodDetails) :
    AddsLower (addMethodDetails methodDetails) := by
  rcases methodDetails with _ | md
  · exact skip
  refine ite _ ?_ skip
  cases dstPart md.label
  · exact skip
  · exact ite _ (insert (lower_lower _)) skip

/-- The blocks of the body that read neither the receipt nor the data of the call. -/
theorem addTransaction_blocks_addsLower (multisendAddress : String) (tx : ApiTx) (logs : List ApiLog)
    (data : String) : AddsLower fun s => addMethodDetails tx.methodDetails (addTransferCall data
      (addReceiptLogs logs (addToAddress multisendAddress tx (addFromAddress tx s)))) :=
  comp (comp (comp (comp (addFromAddress_addsLower tx) (addToAddress_addsLower multisendAddress tx))
    (addReceiptLogs_addsLower logs)) (addTransferCall_addsLower data)) (addMethodDetails_addsLower tx.methodDetails)

theorem addTransaction_addsLowerE (multisendAddress : String) (tx : ApiTx) :
    AddsLowerE fun s => addTransaction multisendAddress s tx :=
  AddsLowerE.const_bind _ fun logs => AddsLowerE.const_bind _ fun data =>
    AddsLowerE.ok (addTransaction_blocks_addsLower multisendAddress tx logs data)

/-- The body either raises, for a null receipt, `logs` or `data`, or returns what its blocks add. -/
theorem addTransaction_eq_ok {multisendAddress : String} {s : Finset String} {tx : ApiTx} {t : Finset String}
    (h : addTransaction multisendAddress s tx = .ok t) :
    ∃ logs data, tx.receipt = .logs logs ∧ tx.callData = some data ∧
      t = addMethodDetails tx.methodDetails (addTransferCall data (addReceiptLogs logs
        (addToAddress multisendAddress tx (addFromAddress tx s)))) := by
  cases hr : tx.receipt with
  | logs logs =>
    cases hc : tx.callData with
    | some data =>
      refine ⟨logs, data, rfl, rfl, ?_⟩
      simp only [addTransaction, hr, Receipt.logList, ApiTx.transferData, hc] at h
      exact (Except.ok.inj h).symm
    | none => simp [addTransaction, hr, Receipt.logList, ApiTx.transferData, hc] at h
  | _ => simp [addTransaction, hr, Receipt.logList] at h

/-! ## The loop -/

/-- The union of what each transaction adds on its own, or the exception of the first that raises. -/
def contributions (addTx : Finset String → ApiTx → Except NoneError (Finset String)) :
    List ApiTx → Except NoneError (Finset String)
  | [] => .ok ∅
  | tx :: txs => (addTx ∅ tx).bind fun t => (contributions addTx txs).map (t ∪ ·)

section Loop

variable {addTx : Finset String → ApiTx → Except NoneError (Finset String)}

theorem extractLoop_cons_nil (s : Finset String) (tx : ApiTx) (txs : List ApiTx) :
    extractLoop addTx s (tx :: txs) [] = (addTx s tx).bind fun s => extractLoop addTx s txs [] := rfl

/-- Without a shutdown request, the loop adds what every transaction contributes on its own, or raises what the
first raising transaction raises. -/
theorem extractLoop_eq (hadd : ∀ tx, AddsLowerE fun s => addTx s tx) :
    ∀ (s : Finset String) (txs : List ApiTx), extractLoop addTx s txs [] = (contributions addTx txs).map (s ∪ ·)
  | s, [] => by simp [extractLoop, contributions, Except.map]
  | s, tx :: txs => by
    rw [extractLoop_cons_nil, (hadd tx).adds s, contributions]
    cases addTx ∅ tx with
    | error e => rfl
    | ok t =>
      show extractLoop addTx (s ∪ t) txs [] = ((contributions addTx txs).map (t ∪ ·)).map (s ∪ ·)
      rw [extractLoop_eq hadd]
      cases contributions addTx txs with
      | error e => rfl
      | ok u => exact congrArg Except.ok (Finset.union_assoc s t u)

/-- The contributions are the addresses some transaction adds on its own. -/
theorem mem_contributions {a : String} : ∀ {txs : List ApiTx} {r : Finset String},
    contributions addTx txs = .ok r → (a ∈ r ↔ ∃ tx ∈ txs, ∃ t, addTx ∅ tx = .ok t ∧ a ∈ t)
  | [], r, h => by cases h; simp
  | tx :: txs, r, h => by
    obtain ⟨t, ht, h⟩ := Decimal.bind_eq_ok h
    obtain ⟨u, hc, rfl⟩ := Decimal.map_eq_ok h
    rw [Finset.mem_union, mem_contributions hc]
    simp only [List.mem_cons, exists_eq_or_imp, ht, Except.ok.injEq, exists_eq_left']

/-- When the contributions return, every transaction's body returns on its own. -/
theorem ok_of_contributions : ∀ {txs : List ApiTx} {u : Finset String}, contributions addTx txs = .ok u →
    ∀ {tx : ApiTx}, tx ∈ txs → ∃ t, addTx ∅ tx = .ok t
  | [], _, _, _, htx => absurd htx (List.not_mem_nil _)
  | tx' :: txs, u, h, tx, htx => by
    obtain ⟨t, ht, h⟩ := Decimal.bind_eq_ok h
    obtain ⟨v, hc, -⟩ := Decimal.map_eq_ok h
    rcases List.mem_cons.mp htx with rfl | htx
    · exact ⟨t, ht⟩
    · exact ok_of_contributions hc htx

/-- A shutdown request cuts the loop short: it runs on a prefix of the transactions, the same for every body. -/
theorem extractLoop_take : ∀ (txs : List ApiTx) (shutdown : List Bool), ∃ k,
    ∀ (addTx : Finset String → ApiTx → Except NoneError (Finset String)) s,
      extractLoop addTx s txs shutdown = extractLoop addTx s (txs.take k) []
  | [], _ => ⟨0, fun _ _ => rfl⟩
  | tx :: txs, shutdown => by
    obtain ⟨k, hk⟩ := extractLoop_take txs shutdown.tail
    by_cases h : shutdown.headD false
    · exact ⟨0, fun _ _ => by rw [extractLoop, if_pos h]; rfl⟩
    · exact ⟨k + 1, fun addTx s => by simp only [extractLoop, h, if_false, List.take_succ_cons, hk]; rfl⟩

end Loop

theorem mem_removeAddresses {a : String} : ∀ (addressesToRemove : List String) (s : Finset String),
    a ∈ removeAddresses addressesToRemove s ↔ a ∈ s ∧ a ∉ addressesToRemove
  | [], s => by simp [removeAddresses]
  | r :: rs, s => by
    show a ∈ removeAddresses rs (s.erase r) ↔ _
    rw [mem_removeAddresses rs, Finset.mem_erase, List.mem_cons, not_or]
    tauto

section Extract

variable {addTx : Finset String → ApiTx → Except NoneError (Finset String)}
  (hadd : ∀ tx, AddsLowerE fun s => addTx s tx)
include hadd

/-- The shape of both scripts: the loop, then the removals. -/
theorem removeAddresses_extractLoop (addressesToRemove : List String) (txs : List ApiTx) :
    (extractLoop addTx ∅ txs []).map (removeAddresses addressesToRemove) =
      (contributions addTx txs).map (removeAddresses addressesToRemove) := by
  rw [extractLoop_eq hadd]
  cases contributions addTx txs with
  | error e => rfl
  | ok u => exact congrArg Except.ok (by simp only [Finset.empty_union])

theorem mem_removeAddresses_extractLoop {addressesToRemove : List String} {txs : List ApiTx} {r : Finset String}
    (h : (extractLoop addTx ∅ txs []).map (removeAddresses addressesToRemove) = .ok r) (a : String) :
    a ∈ r ↔ a ∉ addressesToRemove ∧ ∃ tx ∈ txs, ∃ t, addTx ∅ tx = .ok t ∧ a ∈ t := by
  rw [removeAddresses_extractLoop hadd] at h
  obtain ⟨u, hc, rfl⟩ := Decimal.map_eq_ok h
  rw [mem_removeAddresses, mem_contributions hc]
  exact and_comm

theorem ok_of_removeAddresses_extractLoop {addressesToRemove : List String} {txs : List ApiTx} {r : Finset String}
    (h : (extractLoop addTx ∅ txs []).map (removeAddresses addressesToRemove) = .ok r) {tx : ApiTx}
    (htx : tx ∈ txs) : ∃ t, addTx ∅ tx = .ok t := by
  rw [removeAddresses_extractLoop hadd] at h
  obtain ⟨u, hc, -⟩ := Decimal.map_eq_ok h
  exact ok_of_contributions hc htx

theorem removeAddresses_extractLoop_take_subset {addressesToRemove : List String} {txs : List ApiTx} {k : ℕ}
    {r r' : Finset String} (h : (extractLoop addTx ∅ (txs.take k) []).map (removeAddresses addressesToRemove) = .ok r)
    (h' : (extractLoop addTx ∅ txs []).map (removeAddresses addressesToRemove) = .ok r') : r ⊆ r' := fun a ha => by
  rw [mem_removeAddresses_extractLoop hadd h] at ha
  obtain ⟨hr, tx, htx, hmem⟩ := ha
  exact (mem_removeAddresses_extractLoop hadd h' a).mpr ⟨hr, tx, List.mem_of_mem_take htx, hmem⟩

theorem lower_of_mem_removeAddresses_extractLoop {addressesToRemove : List String} {txs : List ApiTx}
    {shutdown : List Bool} {r : Finset String}
    (h : (extractLoop addTx ∅ txs shutdown).map (removeAddresses addressesToRemove) = .ok r) {a : String}
    (ha : a ∈ r) : lower a = a ∧ a ∉ addressesToRemove := by
  obtain ⟨k, hk⟩ := extractLoop_take txs shutdown
  rw [hk] at h
  obtain ⟨hr, tx, -, t, ht, hmem⟩ := (mem_removeAddresses_extractLoop hadd h a).mp ha
  exact ⟨(hadd tx).lower_eq t ht a hmem, hr⟩

end Extract

end RevoMigration.Wallets

namespace RevoMigration.NextepWallets

open RevoMigration.Wallets RevoMigration.Wallets.AddsLower

theorem addCall_addsLowerE (tokenAddress multisendAddress : String) (tx : ApiTx) :
    AddsLowerE (addCall tokenAddress multisendAddress tx) := by
  refine AddsLowerE.ite _ (AddsLowerE.const_bind _ fun data =>
    AddsLowerE.ok (comp (addFromAddress_addsLower tx) (addTransferCall_addsLower data))) (AddsLowerE.ite _ ?_
    (AddsLowerE.ok skip))
  cases tx.callData
  · exact AddsLowerE.ok skip
  · exact AddsLowerE.ite _ (AddsLowerE.ite _
      (AddsLowerE.ok (comp (addMultisendAddresses_addsLower _) (addFromAddress_addsLower tx))) (AddsLowerE.ok skip))
      (AddsLowerE.ok skip)

theorem addReceiptLog_addsLowerE (tokenAddress : String) (log : ApiLog) :
    AddsLowerE fun s => addReceiptLog tokenAddress s log := by
  unfold addReceiptLog
  cases log.address
  · exact AddsLowerE.raise _
  · exact AddsLowerE.ite _ (AddsLowerE.ok (addTransferLog_addsLower log)) (AddsLowerE.ok skip)

theorem addReceiptLogs_addsLowerE (tokenAddress : String) (receipt : Receipt) :
    AddsLowerE (addReceiptLogs tokenAddress receipt) :=
  AddsLowerE.const_bind _ fun logs => AddsLowerE.foldlM (addReceiptLog_addsLowerE tokenAddress) logs

theorem addTransaction_addsLowerE (tokenAddress multisendAddress : String) (tx : ApiTx) :
    AddsLowerE fun s => addTransaction tokenAddress multisendAddress s tx :=
  AddsLowerE.bind (addCall_addsLowerE tokenAddress multisendAddress tx) (addReceiptLogs_addsLowerE tokenAddress _)

end RevoMigration.NextepWallets

namespace RevoMigration.Wallets

open RevoMigration.Bridge (hexValue slice lower)

/-! ## Reading encoded calls and logs -/

theorem isPrefixOf_append_of_le {p l₁ : List Char} (l₂ : List Char) (h : p.length ≤ l₁.length) :
    p.isPrefixOf (l₁ ++ l₂) = p.isPrefixOf l₁ := by
  rw [Bool.eq_iff_iff, List.isPrefixOf_iff_prefix, List.isPrefixOf_iff_prefix, List.prefix_iff_eq_take,
    List.prefix_iff_eq_take, List.take_append_of_le_length h]

/-- Whether calldata starts with a method id is read off its first ten characters. -/
theorem startsWith_calldata (selector : BitVec 32) (args : List Char) {p : String} (h : p.data.length ≤ 10) :
    startsWith (calldata selector args) p = startsWith ⟨'0' :: 'x' :: hexDigits 8 selector.toNat⟩ p :=
  isPrefixOf_append_of_le args (by simpa using h)

/-- The 40 characters 34 to 74 after a prefix `P` of the arguments are the address the next word pads. -/
theorem slice_calldata_word (selector : BitVec 32) (P S : List Char) (v : ℕ) :
    slice (calldata selector (P ++ word v ++ S)) (P.length + 34) (P.length + 74) = ⟨hexDigits 40 v⟩ := by
  have hsplit : word v = hexDigits 24 (v / 16 ^ 40) ++ hexDigits 40 v := hexDigits_split 24 40 v
  have h := slice_eq (s := calldata selector (P ++ word v ++ S))
    (P := '0' :: 'x' :: hexDigits 8 selector.toNat ++ P ++ hexDigits 24 (v / 16 ^ 40)) (X := hexDigits 40 v)
    (S := S) (by rw [calldata, hsplit]; simp only [List.cons_append, List.append_assoc])
  simp only [List.length_append, List.length_cons, length_hexDigits] at h
  rwa [show 8 + 1 + 1 + P.length + 24 = P.length + 34 by omega,
    show P.length + 34 + 40 = P.length + 74 by omega] at h

/-- A 32-byte topic pads the address of its last 40 digits. -/
theorem topicAddress_word (v : ℕ) : topicAddress ("0x" ++ ⟨word v⟩) = "0x" ++ ⟨hexDigits 40 v⟩ := by
  have hsplit : word v = hexDigits 24 (v / 16 ^ 40) ++ hexDigits 40 v := hexDigits_split 24 40 v
  have hdrop : sliceFrom ("0x" ++ ⟨word v⟩) 26 = ⟨hexDigits 40 v⟩ := by
    refine congrArg String.mk ?_
    show List.drop 26 ('0' :: 'x' :: word v) = _
    rw [hsplit, ← List.cons_append, ← List.cons_append]
    exact List.drop_left' (by simp)
  rw [topicAddress, hdrop, lower_hexDigits]

theorem lower_addressString (a : BitVec 160) : lower (addressString a) = addressString a := by
  rw [addressString, lower_append, lower_hexDigits]
  rfl

theorem length_addressString (a : BitVec 160) : (addressString a).length = 42 := by
  show ('0' :: 'x' :: hexDigits 40 a.toNat).length = 42
  simp

theorem addressString_injective : Function.Injective addressString := fun a b h => by
  have hdigits : hexDigits 40 a.toNat = hexDigits 40 b.toNat :=
    List.cons_injective (List.cons_injective (congrArg String.data h))
  have hv := congrArg (fun l => hexValue l 0) hdigits
  have h40 : (2 : ℕ) ^ 160 = 16 ^ 40 := by norm_num
  simp only [hexValue_hexDigits, zero_mul, zero_add, Option.some.injEq,
    Nat.mod_eq_of_lt (h40 ▸ a.isLt), Nat.mod_eq_of_lt (h40 ▸ b.isLt)] at hv
  exact BitVec.eq_of_toNat_eq hv

/-- The only address whose string is removed as null is the zero address. -/
theorem addressString_mem_nullAddresses (a : BitVec 160) : addressString a ∈ nullAddresses ↔ a = 0 := by
  refine ⟨fun h => ?_, fun h => h ▸ by decide⟩
  have hlen := length_addressString a
  simp only [nullAddresses, List.mem_cons, List.not_mem_nil, or_false] at h
  rcases h with h | h | h <;> rw [h] at hlen
  · cases hlen
  · cases hlen
  · exact addressString_injective (h.trans (by decide))

/-! ## The active wallets -/

/-- **The active wallets are what the transactions contribute.** Without a shutdown request, either script returns
the union of what each transaction adds on its own, less the removed addresses, or raises the exception of the first
transaction whose body raises: for a null `data` after an empty `input`, a null receipt or `logs`, and for NEXTEP a
null log `address`. When it returns, an address is an active wallet exactly when it is not removed and some
transaction adds it on its own: the result does not depend on the order of the transactions, nor on how they are
split into batches. -/
theorem extractActiveWallets_eq_contributions (multisendAddress tokenAddress : String)
    (transactions : List ApiTx) :
    extractActiveWallets multisendAddress transactions [] =
        (contributions (addTransaction multisendAddress) transactions).map (removeAddresses nullAddresses) ∧
      (∀ r, extractActiveWallets multisendAddress transactions [] = .ok r → ∀ a, a ∈ r ↔
        a ∉ nullAddresses ∧ ∃ tx ∈ transactions, ∃ t, addTransaction multisendAddress ∅ tx = .ok t ∧ a ∈ t) ∧
      NextepWallets.extractActiveWallets tokenAddress multisendAddress transactions [] =
        (contributions (NextepWallets.addTransaction tokenAddress multisendAddress) transactions).map
          (removeAddresses (NextepWallets.addressesToRemove tokenAddress multisendAddress)) ∧
      ∀ r, NextepWallets.extractActiveWallets tokenAddress multisendAddress transactions [] = .ok r → ∀ a, a ∈ r ↔
        a ∉ NextepWallets.addressesToRemove tokenAddress multisendAddress ∧
          ∃ tx ∈ transactions, ∃ t, NextepWallets.addTransaction tokenAddress multisendAddress ∅ tx = .ok t ∧ a ∈ t :=
  ⟨removeAddresses_extractLoop (addTransaction_addsLowerE multisendAddress) _ _,
    fun _ h => mem_removeAddresses_extractLoop (addTransaction_addsLowerE multisendAddress) h,
    removeAddresses_extractLoop (NextepWallets.addTransaction_addsLowerE tokenAddress multisendAddress) _ _,
    fun _ h => mem_removeAddresses_extractLoop (NextepWallets.addTransaction_addsLowerE tokenAddress multisendAddress) h⟩

/-- The transaction `{"from": "0xa", "input": None, "data": None}` makes the CXS script raise: `None.startswith`. -/
theorem extractActiveWallets_null_data :
    let tx : ApiTx := ⟨"0xa", "", "", none, .logs [], none⟩
    extractActiveWallets multisendContractAddress [tx] [] = .error (.attributeError "startswith") ∧
      (extractActiveWallets multisendContractAddress [tx] [] =
          (contributions (addTransaction multisendContractAddress) [tx]).map (removeAddresses nullAddresses) ∧
        (∀ r, extractActiveWallets multisendContractAddress [tx] [] = .ok r → ∀ a, a ∈ r ↔
          a ∉ nullAddresses ∧ ∃ tx' ∈ [tx], ∃ t, addTransaction multisendContractAddress ∅ tx' = .ok t ∧ a ∈ t) ∧
        NextepWallets.extractActiveWallets NextepWallets.nextepTokenAddress multisendContractAddress [tx] [] =
          (contributions (NextepWallets.addTransaction NextepWallets.nextepTokenAddress multisendContractAddress)
            [tx]).map (removeAddresses (NextepWallets.addressesToRemove NextepWallets.nextepTokenAddress
              multisendContractAddress)) ∧
        ∀ r, NextepWallets.extractActiveWallets NextepWallets.nextepTokenAddress multisendContractAddress [tx] [] =
            .ok r → ∀ a, a ∈ r ↔
          a ∉ NextepWallets.addressesToRemove NextepWallets.nextepTokenAddress multisendContractAddress ∧
            ∃ tx' ∈ [tx], ∃ t, NextepWallets.addTransaction NextepWallets.nextepTokenAddress multisendContractAddress
              ∅ tx' = .ok t ∧ a ∈ t) :=
  ⟨by decide, extractActiveWallets_eq_contributions _ _ _⟩

/-- **A shutdown request only cuts the transactions short.** With any flags of `shutdown_requested`, both scripts
return, or raise, what they do on the transactions before the first raised flag; when that run and the one without
a request both return, the first returns a subset of the second. -/
theorem extractActiveWallets_shutdown (multisendAddress tokenAddress : String) (transactions : List ApiTx)
    (shutdown : List Bool) :
    ∃ k, extractActiveWallets multisendAddress transactions shutdown =
        extractActiveWallets multisendAddress (transactions.take k) [] ∧
      NextepWallets.extractActiveWallets tokenAddress multisendAddress transactions shutdown =
        NextepWallets.extractActiveWallets tokenAddress multisendAddress (transactions.take k) [] ∧
      (∀ r r', extractActiveWallets multisendAddress transactions shutdown = .ok r →
        extractActiveWallets multisendAddress transactions [] = .ok r' → r ⊆ r') ∧
      ∀ r r', NextepWallets.extractActiveWallets tokenAddress multisendAddress transactions shutdown = .ok r →
        NextepWallets.extractActiveWallets tokenAddress multisendAddress transactions [] = .ok r' → r ⊆ r' := by
  obtain ⟨k, hk⟩ := extractLoop_take transactions shutdown
  refine ⟨k, by rw [extractActiveWallets, hk]; rfl, by rw [NextepWallets.extractActiveWallets, hk]; rfl,
    fun r r' h h' => ?_, fun r r' h h' => ?_⟩
  · rw [extractActiveWallets, hk] at h
    exact removeAddresses_extractLoop_take_subset (addTransaction_addsLowerE multisendAddress) h h'
  · rw [NextepWallets.extractActiveWallets, hk] at h
    exact removeAddresses_extractLoop_take_subset (NextepWallets.addTransaction_addsLowerE _ _) h h'

/-- **Only lowercase addresses.** Every active wallet either script returns is lowercase and none of the addresses
it removes: the null addresses, and for NEXTEP also the token and the multisend contract. -/
theorem extractActiveWallets_lower (multisendAddress tokenAddress : String) (transactions : List ApiTx)
    (shutdown : List Bool) :
    (∀ r, extractActiveWallets multisendAddress transactions shutdown = .ok r →
      ∀ a ∈ r, lower a = a ∧ a ∉ nullAddresses) ∧
    ∀ r, NextepWallets.extractActiveWallets tokenAddress multisendAddress transactions shutdown = .ok r →
      ∀ a ∈ r, lower a = a ∧ a ∉ NextepWallets.addressesToRemove tokenAddress multisendAddress :=
  ⟨fun _ h _ ha => lower_of_mem_removeAddresses_extractLoop (addTransaction_addsLowerE multisendAddress) h ha,
    fun _ h _ ha => lower_of_mem_removeAddresses_extractLoop (NextepWallets.addTransaction_addsLowerE _ _) h ha⟩

/-- The sender `0xABC` is listed as `0xabc`. -/
theorem extractActiveWallets_lower_sender :
    extractActiveWallets multisendContractAddress [⟨"0xABC", "", "", some "", .logs [], none⟩] [] = .ok {"0xabc"} ∧
      lower "0xabc" = "0xabc" ∧ "0xabc" ∉ nullAddresses :=
  have h : extractActiveWallets multisendContractAddress [⟨"0xABC", "", "", some "", .logs [], none⟩] [] =
      .ok {"0xabc"} := by decide
  ⟨h, (extractActiveWallets_lower _ NextepWallets.nextepTokenAddress _ _).1 _ h _ (Finset.mem_singleton_self _)⟩

/-! ## Every address a transaction names -/

theorem AddsLower.mem_foldl {α : Type} {h : Finset String → α → Finset String}
    (hh : ∀ x, AddsLower fun s => h s x) {x : α} {a : String} (ha : a ∈ h ∅ x) :
    ∀ {l : List α} {s : Finset String}, x ∈ l → a ∈ l.foldl h s
  | y :: l, s, hx => by
    rcases List.mem_cons.mp hx with rfl | hx
    · exact (AddsLower.foldl hh l).subset _ ((hh x).mem_iff.mpr (.inr ha))
    · exact show a ∈ l.foldl h (h s y) from AddsLower.mem_foldl hh ha hx

/-- What one transaction adds, block by block. -/
theorem mem_addTransaction_iff {multisendAddress : String} {tx : ApiTx} {t : Finset String}
    (h : addTransaction multisendAddress ∅ tx = .ok t) :
    ∃ logs data, tx.receipt = .logs logs ∧ tx.callData = some data ∧ ∀ a, (a ∈ t ↔
      a ∈ addFromAddress tx ∅ ∨ a ∈ addToAddress multisendAddress tx ∅ ∨ a ∈ addReceiptLogs logs ∅ ∨
        a ∈ addTransferCall data ∅ ∨ a ∈ addMethodDetails tx.methodDetails ∅) := by
  obtain ⟨logs, data, hr, hc, rfl⟩ := addTransaction_eq_ok h
  refine ⟨logs, data, hr, hc, fun a => ?_⟩
  rw [(addMethodDetails_addsLower _).mem_iff, (addTransferCall_addsLower _).mem_iff,
    (addReceiptLogs_addsLower _).mem_iff, (addToAddress_addsLower _ _).mem_iff]
  simp only [or_assoc]

theorem mem_addTransferCall_transfer (a : ℕ) (S : List Char) :
    "0x" ++ ⟨hexDigits 40 a⟩ ∈ addTransferCall (calldata 0xa9059cbb (word a ++ S)) ∅ := by
  have hslice := slice_calldata_word 0xa9059cbb [] S a
  simp only [List.nil_append, List.length_nil, Nat.zero_add] at hslice
  rw [addTransferCall, if_pos (by rw [startsWith_calldata _ _ (by decide)]; decide), hslice, lower_hexDigits]
  exact Finset.mem_insert_self _ _

theorem mem_addTransferCall_transferFrom (src dst : ℕ) (S : List Char) :
    "0x" ++ ⟨hexDigits 40 src⟩ ∈ addTransferCall (calldata 0x23b872dd (word src ++ word dst ++ S)) ∅ ∧
      "0x" ++ ⟨hexDigits 40 dst⟩ ∈ addTransferCall (calldata 0x23b872dd (word src ++ word dst ++ S)) ∅ := by
  have hsrc := slice_calldata_word 0x23b872dd [] (word dst ++ S) src
  have hdst := slice_calldata_word 0x23b872dd (word src) S dst
  simp only [List.nil_append, List.length_nil, Nat.zero_add, length_word, List.append_assoc] at hsrc hdst
  rw [addTransferCall, if_neg (by rw [startsWith_calldata _ _ (by decide)]; decide),
    if_pos (by rw [startsWith_calldata _ _ (by decide)]; decide)]
  simp only [List.append_assoc, hsrc, hdst, lower_hexDigits, Finset.mem_insert, true_or, or_true, and_self]

theorem mem_addTransferLog {log : ApiLog} {t0 t1 t2 : String} {rest : List String}
    (h : log.topics = t0 :: t1 :: t2 :: rest) :
    (startsWith t1 "0x" → topicAddress t1 ∈ addTransferLog ∅ log) ∧
      (startsWith t2 "0x" → topicAddress t2 ∈ addTransferLog ∅ log) := by
  rw [addTransferLog, h]
  constructor <;> intro ht <;> dsimp only <;> split_ifs <;> simp_all

theorem startsWith_hex_append (s : String) : startsWith ("0x" ++ s) "0x" = true := by
  show List.isPrefixOf ['0', 'x'] ('0' :: 'x' :: s.data) = true
  simp

/-- A log whose `from` or `to` topic is the word of an address adds the address. -/
theorem addressString_mem_addTransferLog {log : ApiLog} {t0 t1 t2 : String} {rest : List String}
    (h : log.topics = t0 :: t1 :: t2 :: rest) {a : BitVec 160} :
    (t1 = "0x" ++ ⟨word a.toNat⟩ → addressString a ∈ addTransferLog ∅ log) ∧
      (t2 = "0x" ++ ⟨word a.toNat⟩ → addressString a ∈ addTransferLog ∅ log) := by
  rw [addressString, ← topicAddress_word]
  constructor <;> rintro rfl
  · exact (mem_addTransferLog h).1 (startsWith_hex_append _)
  · exact (mem_addTransferLog h).2 (startsWith_hex_append _)

/-- The ways a transaction names a 20-byte address to `fetch_active_wallets.py`: as its sender or recipient, as an
argument of an ERC-20 `transfer` or `transferFrom` call, as the `from` or `to` topic of a log, or among the
recipients `decode_multisend_data` reads from a call to the multisend contract. -/
inductive Names (multisendAddress : String) (tx : ApiTx) (a : BitVec 160) : Prop
  | sender (h : lower tx.fromAddress = addressString a)
  | recipient (h : lower tx.toAddress = addressString a)
  | transfer (amount : BitVec 256) (h : tx.callData = some (calldata 0xa9059cbb (word a.toNat ++ word amount.toNat)))
  | transferFromSender (dst : BitVec 160) (amount : BitVec 256)
      (h : tx.callData = some (calldata 0x23b872dd (word a.toNat ++ word dst.toNat ++ word amount.toNat)))
  | transferFromRecipient (src : BitVec 160) (amount : BitVec 256)
      (h : tx.callData = some (calldata 0x23b872dd (word src.toNat ++ word a.toNat ++ word amount.toNat)))
  | logSender (logs : List ApiLog) (hlogs : tx.receipt = .logs logs) (log : ApiLog) (hlog : log ∈ logs)
      (t0 t2 : String) (rest : List String) (h : log.topics = t0 :: ("0x" ++ ⟨word a.toNat⟩) :: t2 :: rest)
  | logRecipient (logs : List ApiLog) (hlogs : tx.receipt = .logs logs) (log : ApiLog) (hlog : log ∈ logs)
      (t0 t1 : String) (rest : List String) (h : log.topics = t0 :: t1 :: ("0x" ++ ⟨word a.toNat⟩) :: rest)
  | multisendRecipient (hto : tx.toAddress ≠ "" ∧ lower tx.toAddress = lower multisendAddress) (data : String)
      (hdata : tx.callData = some data) (h : addressString a ∈ decodeMultisendData data)

theorem lower_ne_empty {s : String} (h : lower s = addressString a) : s ≠ "" := by
  rintro rfl
  exact absurd (congrArg String.length h) (by rw [length_addressString]; decide)

theorem mem_addFromAddress {tx : ApiTx} {a : BitVec 160} (h : lower tx.fromAddress = addressString a)
    (s : Finset String) : addressString a ∈ addFromAddress tx s := by
  rw [addFromAddress, if_pos (lower_ne_empty h), h]
  exact Finset.mem_insert_self _ _

theorem mem_addMultisendAddresses {addrs : List String} {a : BitVec 160} (h : addressString a ∈ addrs) :
    addressString a ∈ addMultisendAddresses addrs ∅ := by
  refine AddsLower.mem_foldl (fun addr => AddsLower.ite _ (AddsLower.insert (lower_lower addr)) AddsLower.skip)
    ?_ h
  rw [if_pos ⟨fun he => by simpa [he] using length_addressString a, (length_addressString a).ge⟩,
    lower_addressString]
  exact Finset.mem_insert_self _ _

/-- The `to` block adds the recipient, and the recipients of a multisend call with data. -/
theorem mem_addToAddress {multisendAddress : String} {tx : ApiTx} (hto : tx.toAddress ≠ "") (s : Finset String) :
    lower tx.toAddress ∈ addToAddress multisendAddress tx s ∧
      ∀ data, tx.callData = some data → lower tx.toAddress = lower multisendAddress →
        addMultisendAddresses (decodeMultisendData data) ∅ ⊆ addToAddress multisendAddress tx s := by
  have hmem : lower tx.toAddress ∈ insert (lower tx.toAddress) s := Finset.mem_insert_self _ _
  refine ⟨(addToAddress_addsLower multisendAddress tx).mem_iff.mpr (.inr ?_), fun data hdata hms a ha => ?_⟩
  · rw [addToAddress, if_pos hto]
    dsimp only
    split_ifs
    · cases tx.callData
      · exact Finset.mem_insert_self _ _
      · dsimp only
        split_ifs
        · exact (addMultisendAddresses_addsLower _).subset _ (Finset.mem_insert_self _ _)
        · exact Finset.mem_insert_self _ _
    · exact Finset.mem_insert_self _ _
  · have hne : data ≠ "" := by
      rintro rfl
      simp [decodeMultisendData, addMultisendAddresses] at ha
    rw [addToAddress, if_pos hto]
    simp only [if_pos hms, hdata, if_pos hne, ne_eq, not_false_eq_true]
    exact (addMultisendAddresses_addsLower _).mem_iff.mpr (.inr ha)

/-- What a transaction names, it adds. -/
theorem Names.mem_addTransaction {multisendAddress : String} {tx : ApiTx} {a : BitVec 160}
    (h : Names multisendAddress tx a) {t : Finset String} (ht : addTransaction multisendAddress ∅ tx = .ok t) :
    addressString a ∈ t := by
  obtain ⟨logs, data, hr, hc, hmem⟩ := mem_addTransaction_iff ht
  rw [hmem]
  cases h with
  | sender h => exact .inl (mem_addFromAddress h ∅)
  | recipient h => exact .inr (.inl (h ▸ (mem_addToAddress (lower_ne_empty h) ∅).1))
  | transfer amount h =>
    obtain rfl := Option.some.inj (hc.symm.trans h)
    exact .inr (.inr (.inr (.inl (mem_addTransferCall_transfer _ _))))
  | transferFromSender dst amount h =>
    obtain rfl := Option.some.inj (hc.symm.trans h)
    exact .inr (.inr (.inr (.inl (mem_addTransferCall_transferFrom _ _ _).1)))
  | transferFromRecipient src amount h =>
    obtain rfl := Option.some.inj (hc.symm.trans h)
    exact .inr (.inr (.inr (.inl (mem_addTransferCall_transferFrom _ _ _).2)))
  | logSender logs' hlogs log hlog t0 t2 rest h =>
    obtain rfl := Receipt.logs.inj (hlogs.symm.trans hr)
    exact .inr (.inr (.inl (AddsLower.mem_foldl addTransferLog_addsLower ((addressString_mem_addTransferLog h).1 rfl)
      hlog)))
  | logRecipient logs' hlogs log hlog t0 t1 rest h =>
    obtain rfl := Receipt.logs.inj (hlogs.symm.trans hr)
    exact .inr (.inr (.inl (AddsLower.mem_foldl addTransferLog_addsLower ((addressString_mem_addTransferLog h).2 rfl)
      hlog)))
  | multisendRecipient hto data' hdata h =>
    exact .inr (.inl ((mem_addToAddress hto.1 ∅).2 data' hdata hto.2 (mem_addMultisendAddresses h)))

/-- When the run returns, no transaction raised on its own. -/
theorem ok_of_extractActiveWallets {multisendAddress : String} {transactions : List ApiTx} {r : Finset String}
    (hr : extractActiveWallets multisendAddress transactions [] = .ok r) {tx : ApiTx} (htx : tx ∈ transactions) :
    ∃ t, addTransaction multisendAddress ∅ tx = .ok t :=
  ok_of_removeAddresses_extractLoop (addTransaction_addsLowerE multisendAddress) hr htx

/-- **Every address a transaction names is active.** In `fetch_active_wallets.py`, without a shutdown request, every
non-zero address that some transaction names as its sender or recipient, in an ERC-20 `transfer` or `transferFrom`
input, in the `from` or `to` topic of a log, or among the recipients of a multisend call, is an active wallet of a
run that returns. -/
theorem addressString_mem_extractActiveWallets (multisendAddress : String) (transactions : List ApiTx)
    {tx : ApiTx} (htx : tx ∈ transactions) {a : BitVec 160} (hnames : Names multisendAddress tx a) (ha : a ≠ 0)
    (r : Finset String) (hr : extractActiveWallets multisendAddress transactions [] = .ok r) :
    addressString a ∈ r := by
  obtain ⟨t, ht⟩ := ok_of_extractActiveWallets hr htx
  exact (mem_removeAddresses_extractLoop (addTransaction_addsLowerE multisendAddress) hr _).mpr
    ⟨mt (addressString_mem_nullAddresses a).mp ha, tx, htx, t, ht, hnames.mem_addTransaction ht⟩

/-- A `transfer` to `0xab` makes `0xab` active. -/
theorem transfer_recipient_active :
    let tx : ApiTx := ⟨"", "", "", some (calldata 0xa9059cbb (word 0xab ++ word 5)), .logs [], none⟩
    Names multisendContractAddress tx 0xab ∧ (0xab : BitVec 160) ≠ 0 ∧
      extractActiveWallets multisendContractAddress [tx] [] = .ok {addressString 0xab} ∧
      addressString 0xab ∈ ({addressString 0xab} : Finset String) := by
  intro tx
  have hnames : Names multisendContractAddress tx 0xab := .transfer 5 rfl
  have hr : extractActiveWallets multisendContractAddress [tx] [] = .ok {addressString 0xab} := by decide
  exact ⟨hnames, by decide, hr,
    addressString_mem_extractActiveWallets _ _ (List.mem_singleton_self _) hnames (by decide) _ hr⟩

end RevoMigration.Wallets

namespace RevoMigration.NextepWallets

open RevoMigration.Wallets
open RevoMigration.Bridge (slice lower)

/-- The ways a transaction names a 20-byte address to `fetch_active_wallets_nextep.py`, whose
`NEXTEP_TOKEN_ADDRESS` is `tokenAddress`: as the sender, or an argument of a `transfer` or `transferFrom` input, of a
call to the NEXTEP token; as the `from` or `to` topic of a `Transfer` log of the NEXTEP contract; or, for a call to
the multisend contract, among the destinations `decode_multisend_data` reads, or as its sender when there are any. -/
inductive Names (tokenAddress multisendAddress : String) (tx : ApiTx) (a : BitVec 160) : Prop
  | sender (hto : tx.toAddress ≠ "" ∧ lower tx.toAddress = lower tokenAddress)
      (h : lower tx.fromAddress = addressString a)
  | transfer (hto : tx.toAddress ≠ "" ∧ lower tx.toAddress = lower tokenAddress) (amount : BitVec 256)
      (h : tx.callData = some (calldata 0xa9059cbb (word a.toNat ++ word amount.toNat)))
  | transferFromSender (hto : tx.toAddress ≠ "" ∧ lower tx.toAddress = lower tokenAddress) (dst : BitVec 160)
      (amount : BitVec 256)
      (h : tx.callData = some (calldata 0x23b872dd (word a.toNat ++ word dst.toNat ++ word amount.toNat)))
  | transferFromRecipient (hto : tx.toAddress ≠ "" ∧ lower tx.toAddress = lower tokenAddress) (src : BitVec 160)
      (amount : BitVec 256)
      (h : tx.callData = some (calldata 0x23b872dd (word src.toNat ++ word a.toNat ++ word amount.toNat)))
  | logSender (logs : List ApiLog) (hlogs : tx.receipt = .logs logs) (log : ApiLog) (hlog : log ∈ logs)
      (haddr : log.address.map lower = some (lower tokenAddress)) (t2 : String) (rest : List String)
      (h : log.topics = transferEventTopic :: ("0x" ++ ⟨word a.toNat⟩) :: t2 :: rest)
  | logRecipient (logs : List ApiLog) (hlogs : tx.receipt = .logs logs) (log : ApiLog) (hlog : log ∈ logs)
      (haddr : log.address.map lower = some (lower tokenAddress)) (t1 : String) (rest : List String)
      (h : log.topics = transferEventTopic :: t1 :: ("0x" ++ ⟨word a.toNat⟩) :: rest)
  | multisendRecipient
      (hto : tx.toAddress ≠ "" ∧ lower tx.toAddress ≠ lower tokenAddress ∧ lower tx.toAddress = lower multisendAddress)
      (data : String) (hdata : tx.callData = some data) (h : addressString a ∈ decodeMultisendDataFor tokenAddress data)
  | multisendSender
      (hto : tx.toAddress ≠ "" ∧ lower tx.toAddress ≠ lower tokenAddress ∧ lower tx.toAddress = lower multisendAddress)
      (data : String) (hdata : tx.callData = some data) (hne : decodeMultisendDataFor tokenAddress data ≠ [])
      (h : lower tx.fromAddress = addressString a)

/-- A `Transfer` log of the NEXTEP contract goes to the log block. -/
theorem addReceiptLog_transfer {tokenAddress : String} {log : ApiLog}
    (haddr : log.address.map lower = some (lower tokenAddress)) {t1 t2 : String} {rest : List String}
    (h : log.topics = transferEventTopic :: t1 :: t2 :: rest) (s : Finset String) :
    addReceiptLog tokenAddress s log = .ok (addTransferLog s log) := by
  obtain ⟨address, hl, hlow⟩ := Option.map_eq_some'.mp haddr
  simp only [addReceiptLog, hl, hlow, h, List.head?_cons, and_self, if_true]

theorem mem_addReceiptLogs {tokenAddress : String} {receipt : Receipt} {logs : List ApiLog}
    (hlogs : receipt = .logs logs) {log : ApiLog} (hlog : log ∈ logs)
    (haddr : log.address.map lower = some (lower tokenAddress)) {t1 t2 : String} {rest : List String}
    (h : log.topics = transferEventTopic :: t1 :: t2 :: rest) {a : String} (ha : a ∈ addTransferLog ∅ log)
    {l : Finset String} (hl : addReceiptLogs tokenAddress receipt ∅ = .ok l) : a ∈ l := by
  rw [addReceiptLogs, hlogs] at hl
  exact AddsLowerE.mem_foldlM (addReceiptLog_addsLowerE tokenAddress) (addReceiptLog_transfer haddr h ∅) ha hlog hl

/-- A call to the NEXTEP token that does not raise adds its sender and what its input names. -/
theorem addCall_token_eq_ok {tokenAddress multisendAddress : String} {tx : ApiTx}
    (hto : tx.toAddress ≠ "" ∧ lower tx.toAddress = lower tokenAddress) {c : Finset String}
    (hc : addCall tokenAddress multisendAddress tx ∅ = .ok c) :
    ∃ data, tx.callData = some data ∧ c = addTransferCall data (addFromAddress tx ∅) := by
  rw [addCall, if_pos hto] at hc
  cases hd : tx.callData with
  | none => simp [ApiTx.transferData, hd] at hc
  | some data =>
    simp only [ApiTx.transferData, hd] at hc
    exact ⟨data, rfl, (Except.ok.inj hc).symm⟩

/-- A multisend call that decodes to some destinations adds them and its sender. -/
theorem addCall_multisend {tokenAddress multisendAddress : String} {tx : ApiTx}
    (hto : tx.toAddress ≠ "" ∧ lower tx.toAddress ≠ lower tokenAddress ∧ lower tx.toAddress = lower multisendAddress)
    {data : String} (hdata : tx.callData = some data) (hne : decodeMultisendDataFor tokenAddress data ≠ []) :
    addCall tokenAddress multisendAddress tx ∅ =
      .ok (addFromAddress tx (addMultisendAddresses (decodeMultisendDataFor tokenAddress data) ∅)) := by
  have hdne : data ≠ "" := by
    rintro rfl
    exact hne (by simp [decodeMultisendDataFor])
  have hnot : ¬(tx.toAddress ≠ "" ∧ lower tx.toAddress = lower tokenAddress) := fun h => hto.2.1 h.2
  rw [addCall, if_neg hnot, if_pos (And.intro hto.1 hto.2.2)]
  simp only [hdata, hdne, hne, ne_eq, not_false_eq_true, if_true]

/-- What a transaction names, it adds. -/
theorem Names.mem_addTransaction {tokenAddress multisendAddress : String} {tx : ApiTx} {a : BitVec 160}
    (h : Names tokenAddress multisendAddress tx a) {t : Finset String}
    (ht : addTransaction tokenAddress multisendAddress ∅ tx = .ok t) : addressString a ∈ t := by
  obtain ⟨c, l, hc, hl, rfl⟩ := (addReceiptLogs_addsLowerE tokenAddress tx.receipt).bind_eq_ok ht
  cases h with
  | sender hto h =>
    obtain ⟨data, -, rfl⟩ := addCall_token_eq_ok hto hc
    exact Finset.mem_union_left _ ((addTransferCall_addsLower data).subset _ (mem_addFromAddress h ∅))
  | transfer hto amount h =>
    obtain ⟨data, hdata, rfl⟩ := addCall_token_eq_ok hto hc
    obtain rfl := Option.some.inj (hdata.symm.trans h)
    exact Finset.mem_union_left _ ((addTransferCall_addsLower _).mem_iff.mpr (.inr (mem_addTransferCall_transfer _ _)))
  | transferFromSender hto dst amount h =>
    obtain ⟨data, hdata, rfl⟩ := addCall_token_eq_ok hto hc
    obtain rfl := Option.some.inj (hdata.symm.trans h)
    exact Finset.mem_union_left _
      ((addTransferCall_addsLower _).mem_iff.mpr (.inr (mem_addTransferCall_transferFrom _ _ _).1))
  | transferFromRecipient hto src amount h =>
    obtain ⟨data, hdata, rfl⟩ := addCall_token_eq_ok hto hc
    obtain rfl := Option.some.inj (hdata.symm.trans h)
    exact Finset.mem_union_left _
      ((addTransferCall_addsLower _).mem_iff.mpr (.inr (mem_addTransferCall_transferFrom _ _ _).2))
  | logSender logs hlogs log hlog haddr t2 rest h =>
    exact Finset.mem_union_right _ (mem_addReceiptLogs hlogs hlog haddr h ((addressString_mem_addTransferLog h).1 rfl) hl)
  | logRecipient logs hlogs log hlog haddr t1 rest h =>
    exact Finset.mem_union_right _ (mem_addReceiptLogs hlogs hlog haddr h ((addressString_mem_addTransferLog h).2 rfl) hl)
  | multisendRecipient hto data hdata h =>
    rw [addCall_multisend hto hdata (List.ne_nil_of_mem h)] at hc
    cases hc
    exact Finset.mem_union_left _ ((addFromAddress_addsLower tx).subset _ (mem_addMultisendAddresses h))
  | multisendSender hto data hdata hne h =>
    rw [addCall_multisend hto hdata hne] at hc
    cases hc
    exact Finset.mem_union_left _ (mem_addFromAddress h _)

/-- **Every address a NEXTEP transaction names is active.** In `fetch_active_wallets_nextep.py`, whatever the token
address of `--nextep-token-address`, without a shutdown request every address that some transaction names to the
NEXTEP script is an active wallet of a run that returns, unless it is the zero address, the token or the multisend
contract. -/
theorem addressString_mem_extractActiveWallets_nextep (tokenAddress multisendAddress : String)
    (transactions : List ApiTx) {tx : ApiTx} (htx : tx ∈ transactions) {a : BitVec 160}
    (hnames : Names tokenAddress multisendAddress tx a)
    (ha : addressString a ∉ addressesToRemove tokenAddress multisendAddress) (r : Finset String)
    (hr : extractActiveWallets tokenAddress multisendAddress transactions [] = .ok r) : addressString a ∈ r := by
  obtain ⟨t, ht⟩ := ok_of_removeAddresses_extractLoop (addTransaction_addsLowerE tokenAddress multisendAddress) hr htx
  exact (mem_removeAddresses_extractLoop (addTransaction_addsLowerE tokenAddress multisendAddress) hr _).mpr
    ⟨ha, tx, htx, t, ht, hnames.mem_addTransaction ht⟩

/-- A NEXTEP log naming `0xab` as its recipient makes `0xab` active. -/
theorem transfer_log_recipient_active :
    let tx : ApiTx := ⟨"", "", "", some "", .logs
      [⟨some nextepTokenAddress, [transferEventTopic, "0x" ++ ⟨word 0xcd⟩, "0x" ++ ⟨word 0xab⟩]⟩], none⟩
    Names nextepTokenAddress multisendContractAddress tx 0xab ∧
      addressString 0xab ∉ addressesToRemove nextepTokenAddress multisendContractAddress ∧
      extractActiveWallets nextepTokenAddress multisendContractAddress [tx] [] =
        .ok {addressString 0xcd, addressString 0xab} ∧
      addressString 0xab ∈ ({addressString 0xcd, addressString 0xab} : Finset String) := by
  intro tx
  have hnames : Names nextepTokenAddress multisendContractAddress tx 0xab :=
    .logRecipient _ rfl _ (List.mem_singleton_self _) rfl _ [] rfl
  have hr : extractActiveWallets nextepTokenAddress multisendContractAddress [tx] [] =
      .ok {addressString 0xcd, addressString 0xab} := by decide
  exact ⟨hnames, by decide, hr,
    addressString_mem_extractActiveWallets_nextep _ _ _ (List.mem_singleton_self _) hnames (by decide) _ hr⟩

/-- **A multisend call of another token adds nothing.** In `fetch_active_wallets_nextep.py`, whatever the token
address of `--nextep-token-address`, a call that is not sent to that token and whose input is a `send` of another
token adds neither its sender nor its destinations: only the NEXTEP `Transfer` logs of its receipt count. -/
theorem addTransaction_other_token (tokenAddress multisendAddress : String) (tx : ApiTx)
    (hto : lower tx.toAddress ≠ lower tokenAddress) (selector : BitVec 32) (tokenAddr : BitVec 160)
    (amounts : List (BitVec 256)) (destinations : List (BitVec 160)) (total : BitVec 256)
    (hdata : tx.callData = some (calldata selector (encodeSend tokenAddr amounts destinations total)))
    (htoken : lower (addressString tokenAddr) ≠ lower tokenAddress) :
    addTransaction tokenAddress multisendAddress ∅ tx = addReceiptLogs tokenAddress tx.receipt ∅ := by
  have hdecode : decodeMultisendDataFor tokenAddress (calldata selector (encodeSend tokenAddr amounts destinations
      total)) = [] := by
    rw [decodeMultisendDataFor, if_neg (calldata_long _ _)]
    simp only [sliceFrom_calldata, tokenAddr_encodeSend, ne_eq, htoken, not_false_eq_true, if_true]
  have hcall : addCall tokenAddress multisendAddress tx ∅ = .ok ∅ := by
    rw [addCall, if_neg fun h => hto h.2]
    split_ifs
    · simp only [hdata, hdecode, ne_eq, not_true_eq_false, if_false, ite_self]
    · rfl
  show (addCall tokenAddress multisendAddress tx ∅).bind _ = _
  rw [hcall]
  rfl

/-- A `send` of token `0x1` through the NEXTEP multisend contract adds nothing. -/
theorem addTransaction_other_token_send :
    let tx : ApiTx := ⟨"0xcd", multisendContractAddress, "", some (calldata 0x12345678 (encodeSend 1 [5] [0xab] 5)),
      .logs [], none⟩
    lower tx.toAddress ≠ lower nextepTokenAddress ∧ lower (addressString 1) ≠ lower nextepTokenAddress ∧
      addTransaction nextepTokenAddress multisendContractAddress ∅ tx =
        addReceiptLogs nextepTokenAddress tx.receipt ∅ :=
  have hto : lower multisendContractAddress ≠ lower nextepTokenAddress := by decide
  have htoken : lower (addressString 1) ≠ lower nextepTokenAddress := by decide
  ⟨hto, htoken, addTransaction_other_token _ _ _ hto 0x12345678 1 [5] [0xab] 5 rfl htoken⟩

end RevoMigration.NextepWallets
