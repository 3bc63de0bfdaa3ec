import RevoMigration.Bridge.Valuation

/-!
# Decoding the deposits of a block

`scan_for_deposits` reads each transaction of a fetched block (`scanTransaction`): a transaction sent to the bridge
address is a native deposit of its value, and, when the bridge address is itself a monitored token, also an ERC-20
`transfer(address,uint256)` deposit read at fixed offsets of its input. The two tests on `tx.to` nest, so for a bridge
address that is no monitored token the scan finds exactly the native transfers (`scanTransaction_of_not_token`),
in agreement with the specification's decoder `specDecodeTransaction` on every transaction sent to the bridge
(`scanTransaction_eq_spec`), while a NEXTEP `transfer` to the bridge is missed
(`scanTransaction_misses_token_transfer`). The transactions of a block are decoded one by one, in order
(`scanBlock_eq`).
-/

namespace RevoMigration.Bridge

/-! ## Hex data -/

/-- The value of a hex digit, either case. -/
def hexDigitValue (c : Char) : Option ℕ :=
  if '0'.toNat ≤ c.toNat ∧ c.toNat ≤ '9'.toNat then some (c.toNat - '0'.toNat)
  else if 'a'.toNat ≤ c.toNat ∧ c.toNat ≤ 'f'.toNat then some (c.toNat - 'a'.toNat + 10)
  else if 'A'.toNat ≤ c.toNat ∧ c.toNat ≤ 'F'.toNat then some (c.toNat - 'A'.toNat + 10)
  else none

/-- The big-endian value of hex digits, after the digits already read into `acc`. -/
def hexValue : List Char → ℕ → Option ℕ
  | [], acc => some acc
  | c :: cs, acc => (hexDigitValue c).bind fun d => hexValue cs (16 * acc + d)

/-- `int(s, 16)` on a slice of hex data: `ValueError` (`none`) on the empty slice and on a non-digit. -/
def parseHex (s : String) : Option ℕ :=
  if s.data = [] then none else hexValue s.data 0

/-- Python's `s[i:j]` for non-negative bounds: it stops at the end of the string. -/
def slice (s : String) (i j : ℕ) : String := ⟨(s.data.drop i).take (j - i)⟩

theorem hexDigitValue_lt {c : Char} {d : ℕ} (h : hexDigitValue c = some d) : d < 16 := by
  have h0 : '0'.toNat = 48 := rfl
  have h9 : '9'.toNat = 57 := rfl
  have ha : 'a'.toNat = 97 := rfl
  have hf : 'f'.toNat = 102 := rfl
  have hA : 'A'.toNat = 65 := rfl
  have hF : 'F'.toNat = 70 := rfl
  unfold hexDigitValue at h
  split_ifs at h <;> cases h <;> omega

/-- A value read from hex digits after `acc` is below `acc + 1` shifted by the digits. -/
theorem hexValue_lt : ∀ {cs : List Char} {acc v : ℕ}, hexValue cs acc = some v → v < (acc + 1) * 16 ^ cs.length
  | [], acc, v, h => by cases h; simp
  | c :: cs, acc, v, h => by
    obtain ⟨d, hd, h⟩ := Option.bind_eq_some.mp h
    have h16 := hexDigitValue_lt hd
    calc v < (16 * acc + d + 1) * 16 ^ cs.length := hexValue_lt h
      _ ≤ (acc + 1) * 16 ^ (c :: cs).length := by
        rw [List.length_cons, pow_succ, mul_comm (16 ^ cs.length) 16, ← mul_assoc]
        exact Nat.mul_le_mul_right _ (by omega)

theorem parseHex_lt {s : String} {v : ℕ} (h : parseHex s = some v) : v < 16 ^ s.length := by
  unfold parseHex at h
  split_ifs at h
  simpa using hexValue_lt h

theorem slice_length_le (s : String) (i j : ℕ) : (slice s i j).length ≤ j - i :=
  List.length_take_le _ _

theorem lower_eq_empty {s : String} : lower s = "" ↔ s = "" := by
  cases s
  simp [lower, String.ext_iff]

/-! ## Transactions, blocks and deposits -/

/-- The fields of a transaction of `get_block(n, full_transactions=True)` that the scan reads: `hash` is
`tx.hash.hex()`, `fromAddress` is `tx["from"]` and `toAddress` is `tx.to`. -/
structure RawTx where
  hash : String
  fromAddress : String
  toAddress : Option String
  value : ℕ
  input : String
deriving DecidableEq, Repr

/-- A transaction as a node returns it: a `uint256` value (so the log line's float division cannot raise) and an
input of `0x` and hex digits (so `int(_, 16)` only ever sees digits). -/
def RawTx.WellFormed (tx : RawTx) : Prop :=
  tx.value < 2 ^ 256 ∧ tx.input.data.take 2 = ['0', 'x'] ∧ ∀ c ∈ tx.input.data.drop 2, (hexDigitValue c).isSome

instance (tx : RawTx) : Decidable tx.WellFormed := inferInstanceAs (Decidable (_ ∧ _ ∧ _))

/-- A fetched block, as the scan reads it. -/
structure Block where
  timestamp : ℕ
  transactions : List RawTx
deriving DecidableEq, Repr

/-- A deposit dict appended by the scan. -/
structure Deposit where
  txHash : String
  fromAddress : String
  tokenAddress : String
  amount : ℕ
  blockNumber : ℤ
  timestamp : ℕ
deriving DecidableEq, Repr

/-- `token_addresses` of `run_bridge`. -/
def tokenAddresses : List String := [lower cxsTokenAddress, lower nextepTokenAddress]

/-- The method id of ERC-20 `transfer(address,uint256)`. -/
def transferSelector : String := "0xa9059cbb"

/-! ## The code's decoding -/

/-- The native deposit of a transaction. -/
def nativeDeposit (blockNumber : ℤ) (timestamp : ℕ) (tx : RawTx) : Deposit :=
  ⟨tx.hash, lower tx.fromAddress, cxsTokenAddress, tx.value, blockNumber, timestamp⟩

/-- The token branch of the scan for a transaction sent to `toAddress`: the recipient is characters 34 to 74 of the
input, the amount characters 74 to 138; a failing `int()` is caught and logged. -/
def transferDeposit (bridgeAddress : String) (tokenAddresses : List String) (blockNumber : ℤ) (timestamp : ℕ)
    (tx : RawTx) (toAddress : String) : List Deposit :=
  if 10 ≤ tx.input.length ∧ slice tx.input 0 10 = transferSelector ∧ lower toAddress ∈ tokenAddresses ∧
      lower ("0x" ++ lower (slice tx.input 34 74)) = lower bridgeAddress then
    match parseHex (slice tx.input 74 138) with
    | some amount => [⟨tx.hash, lower tx.fromAddress, lower toAddress, amount, blockNumber, timestamp⟩]
    | none => []
  else []

/-- The deposits `scan_for_deposits` appends for one transaction of block `blockNumber`; `tx.to` must be truthy. -/
def scanTransaction (bridgeAddress : String) (tokenAddresses : List String) (blockNumber : ℤ) (timestamp : ℕ)
    (tx : RawTx) : List Deposit :=
  match tx.toAddress with
  | some toAddress =>
    if toAddress ≠ "" ∧ lower toAddress = lower bridgeAddress then
      (if 0 < tx.value then [nativeDeposit blockNumber timestamp tx] else []) ++
        transferDeposit bridgeAddress tokenAddresses blockNumber timestamp tx toAddress
    else []
  | none => []

/-- The loop of `scan_for_deposits` over the transactions of one fetched block, appending to `deposits`. -/
def scanBlock (bridgeAddress : String) (tokenAddresses : List String) (blockNumber : ℤ) (block : Block)
    (deposits : List Deposit) : List Deposit :=
  block.transactions.foldl
    (fun acc tx => acc ++ scanTransaction bridgeAddress tokenAddresses blockNumber block.timestamp tx) deposits

/-- A block's deposits are those of its transactions, in order, each decoded on its own. -/
theorem scanBlock_eq (bridgeAddress : String) (tokenAddresses : List String) (blockNumber : ℤ) (block : Block)
    (deposits : List Deposit) :
    scanBlock bridgeAddress tokenAddresses blockNumber block deposits =
      deposits ++
        block.transactions.flatMap (scanTransaction bridgeAddress tokenAddresses blockNumber block.timestamp) := by
  unfold scanBlock
  induction block.transactions generalizing deposits with
  | nil => simp
  | cons tx txs ih => simp [ih]

theorem transferDeposit_amount_lt {bridgeAddress : String} {tokenAddresses : List String} {blockNumber : ℤ}
    {timestamp : ℕ} {tx : RawTx} {toAddress : String} :
    ∀ d ∈ transferDeposit bridgeAddress tokenAddresses blockNumber timestamp tx toAddress, d.amount < 2 ^ 256 := by
  intro d hd
  unfold transferDeposit at hd
  split_ifs at hd
  · split at hd
    · next amount ha =>
      obtain rfl := List.mem_singleton.mp hd
      calc amount < 16 ^ (slice tx.input 74 138).length := parseHex_lt ha
        _ ≤ 16 ^ 64 := Nat.pow_le_pow_right (by norm_num) (slice_length_le _ _ _)
        _ = 2 ^ 256 := by norm_num
    · cases hd
  · cases hd

/-- A decoded amount is a `uint256`: the value of the transaction, or at most 64 hex digits. -/
theorem scanTransaction_amount_lt {bridgeAddress : String} {tokenAddresses : List String} {blockNumber : ℤ}
    {timestamp : ℕ} {tx : RawTx} (hv : tx.value < 2 ^ 256) :
    ∀ d ∈ scanTransaction bridgeAddress tokenAddresses blockNumber timestamp tx, d.amount < 2 ^ 256 := by
  intro d hd
  unfold scanTransaction at hd
  split at hd
  · split_ifs at hd with h1 h2
    · rcases List.mem_append.mp hd with hd | hd
      · rw [List.mem_singleton.mp hd]
        exact hv
      · exact transferDeposit_amount_lt d hd
    · exact transferDeposit_amount_lt d (by simpa using hd)
    · cases hd
  · cases hd

theorem transferDeposit_of_not_token {bridgeAddress toAddress : String} {tokenAddresses : List String}
    (hB : lower bridgeAddress ∉ tokenAddresses) (hto : lower toAddress = lower bridgeAddress) (blockNumber : ℤ)
    (timestamp : ℕ) (tx : RawTx) :
    transferDeposit bridgeAddress tokenAddresses blockNumber timestamp tx toAddress = [] :=
  if_neg fun h => hB (hto ▸ h.2.2.1)

/-- For a bridge address that is no monitored token the token branch never fires: a transaction is a native
deposit when it is sent to the bridge with a positive value, and nothing otherwise. -/
theorem scanTransaction_of_not_token {bridgeAddress : String} {tokenAddresses : List String}
    (hB : lower bridgeAddress ∉ tokenAddresses) (blockNumber : ℤ) (timestamp : ℕ) (tx : RawTx) :
    scanTransaction bridgeAddress tokenAddresses blockNumber timestamp tx =
      if (∃ toAddress, tx.toAddress = some toAddress ∧ toAddress ≠ "" ∧ lower toAddress = lower bridgeAddress) ∧
          0 < tx.value then [nativeDeposit blockNumber timestamp tx] else [] := by
  unfold scanTransaction
  rcases hto : tx.toAddress with _ | toAddress
  · simp
  · by_cases h : toAddress ≠ "" ∧ lower toAddress = lower bridgeAddress
    · simp only [if_pos h, transferDeposit_of_not_token hB h.2, List.append_nil]
      simp [h]
    · simp only [if_neg h]
      simp only [Option.some.injEq, exists_eq_left']
      rw [if_neg fun h' => h h'.1]

/-- The specification's `DepositDecoder`, its rules in order: a native deposit, else a NEXTEP `transfer` toAddress the
bridge whose input is exactly the selector and two 32-byte words, with a positive amount. -/
def specDecodeTransaction (bridgeAddress : String) (blockNumber : ℤ) (timestamp : ℕ) (tx : RawTx) : List Deposit :=
  if tx.toAddress.map lower = some (lower bridgeAddress) ∧ 0 < tx.value then [nativeDeposit blockNumber timestamp tx]
  else if tx.toAddress.map lower = some (lower nextepTokenAddress) ∧ tx.input.length = 138 ∧
      slice tx.input 0 10 = transferSelector ∧ "0x" ++ lower (slice tx.input 34 74) = lower bridgeAddress then
    match parseHex (slice tx.input 74 138) with
    | some amount =>
      if 0 < amount then [⟨tx.hash, lower tx.fromAddress, lower nextepTokenAddress, amount, blockNumber, timestamp⟩]
      else []
    | none => []
  else []

/-- On a transaction sent to a (non-empty) bridge address that is no monitored token, the scan decodes what the
specification's decoder does. -/
theorem scanTransaction_eq_spec {bridgeAddress : String} (hB : lower bridgeAddress ∉ tokenAddresses)
    (hB' : bridgeAddress ≠ "") (blockNumber : ℤ) (timestamp : ℕ) {tx : RawTx}
    (hto : tx.toAddress.map lower = some (lower bridgeAddress)) :
    scanTransaction bridgeAddress tokenAddresses blockNumber timestamp tx =
      specDecodeTransaction bridgeAddress blockNumber timestamp tx := by
  obtain ⟨toAddress, hto', hlow⟩ := Option.map_eq_some'.mp hto
  have hne : toAddress ≠ "" := fun h => hB' (lower_eq_empty.mp (h ▸ hlow).symm)
  have hnext : lower bridgeAddress ≠ lower nextepTokenAddress := fun h => hB (h ▸ by decide)
  rw [scanTransaction_of_not_token hB, specDecodeTransaction]
  by_cases hv : 0 < tx.value
  · simp [hto', hne, hlow, hv]
  · simp [hto', hlow, hv, hnext]

/-- A native transfer of one base unit to the bridge `0xb`, written `0xB`: a native deposit both ways. -/
theorem scanTransaction_eq_spec_native :
    lower "0xb" ∉ tokenAddresses ∧ ("0xb" : String) ≠ "" ∧ (some "0xB").map lower = some (lower "0xb") ∧
      scanTransaction "0xb" tokenAddresses 1 0 ⟨"0x01", "0xa", some "0xB", 1, "0x"⟩ =
        specDecodeTransaction "0xb" 1 0 ⟨"0x01", "0xa", some "0xB", 1, "0x"⟩ :=
  ⟨by decide, by decide, by decide, scanTransaction_eq_spec (by decide) (by decide) 1 0 (by decide)⟩

set_option maxRecDepth 4000 in
/-- A NEXTEP `transfer` of one base unit to the bridge address `0x1111…1`: the scan appends nothing, while the
specification's decoder gives a NEXTEP deposit. -/
theorem scanTransaction_misses_token_transfer :
    RawTx.WellFormed ⟨"0x01", "0x2222222222222222222222222222222222222222", some nextepTokenAddress, 0,
      transferSelector ++ "000000000000000000000000" ++ "1111111111111111111111111111111111111111" ++
        "0000000000000000000000000000000000000000000000000000000000000001"⟩ ∧
    scanTransaction "0x1111111111111111111111111111111111111111" tokenAddresses 1 0
      ⟨"0x01", "0x2222222222222222222222222222222222222222", some nextepTokenAddress, 0,
      transferSelector ++ "000000000000000000000000" ++ "1111111111111111111111111111111111111111" ++
        "0000000000000000000000000000000000000000000000000000000000000001"⟩ = [] ∧
    specDecodeTransaction "0x1111111111111111111111111111111111111111" 1 0
      ⟨"0x01", "0x2222222222222222222222222222222222222222", some nextepTokenAddress, 0,
      transferSelector ++ "000000000000000000000000" ++ "1111111111111111111111111111111111111111" ++
        "0000000000000000000000000000000000000000000000000000000000000001"⟩ =
      [⟨"0x01", "0x2222222222222222222222222222222222222222", nextepTokenAddress, 1, 1, 0⟩] := by
  decide

end RevoMigration.Bridge
