import RevoMigration.Wallets.Abi

/-!
# Decoding multisend calldata

`extract_active_wallets` reads the recipients of a multisend transaction from its input with
`decode_multisend_data`. Both wallet scripts cut off `0x` and the method id, read the byte offset of the recipients
array from a head word, then its length, then each element word, keeping `0x` and its last 40 digits. The script
for CXS reads `send(uint[] _amounts, address[] _addresses)`, with the offset in the second head word; the script
for NEXTEP reads `send(address tokenAddr, uint256[] amounts, address[] destinations, uint256 total)`, with the
offset in the third, and first drops every call whose token is not NEXTEP. Both read the shared array reader
`decodeAddressArray`, which returns an encoded array whole (`decodeAddressArray_encodeArray`), so each decoder
returns the recipients of every call the contract's ABI encodes (`decodeMultisendData_encodeSend`,
`decodeMultisendData_encodeSend_nextep`).
-/

namespace RevoMigration.Wallets

open RevoMigration.Bridge (parseHex slice lower)

/-! ## Python strings -/

/-- Python's `s[i:]`. -/
def sliceFrom (s : String) (i : ℕ) : String := ⟨s.data.drop i⟩

/-- Python's `s[-n:]` for `0 < n`: the last `n` characters, or all of a shorter string. -/
def sliceLast (s : String) (n : ℕ) : String := ⟨s.data.drop (s.length - n)⟩

/-! ## The code -/

/-- The body of `decode_multisend_data` once the method id is cut off: the array whose byte offset stands in the
head word at character `offsetField`, each element word that ends within the data read as `0x` and its last 40
digits, lowercased. A failing `int(_, 16)` is caught, and the call returns `[]`. -/
def decodeAddressArray (data : String) (offsetField : ℕ) : List String :=
  match parseHex (slice data offsetField (offsetField + 64)) with
  | none => []
  | some offset =>
    let startPos := offset * 2
    match parseHex (slice data startPos (startPos + 64)) with
    | none => []
    | some length =>
      (List.range length).filterMap fun i =>
        let addrStart := startPos + 64 + i * 64
        let addrEnd := addrStart + 64
        if addrEnd ≤ data.length then some ("0x" ++ lower (sliceLast (slice data addrStart addrEnd) 40)) else none

/-- `decode_multisend_data(data)` of `fetch_active_wallets.py`: the `_addresses` of `send(uint[], address[])`, whose
offset is the second head word. -/
def decodeMultisendData (data : String) : List String :=
  if data = "" ∨ data.length < 10 then [] else decodeAddressArray (sliceFrom data 10) 64

/-- The arguments of `send(uint[] _amounts, address[] _addresses)` as the ABI encodes them: the byte offsets of the
two arrays, then the arrays. -/
def encodeSend (amounts : List (BitVec 256)) (addresses : List (BitVec 160)) : List Char :=
  word 0x40 ++ word (0x40 + 32 * (amounts.length + 1)) ++ encodeArray (amounts.map BitVec.toNat) ++
    encodeArray (addresses.map BitVec.toNat)

/-! ## Reading an encoded array -/

theorem sliceFrom_calldata (selector : BitVec 32) (args : List Char) :
    sliceFrom (calldata selector args) 10 = ⟨args⟩ := by
  exact congrArg String.mk (List.drop_left' (by simp : ('0' :: 'x' :: hexDigits 8 selector.toNat).length = 10))

theorem length_calldata (selector : BitVec 32) (args : List Char) :
    (calldata selector args).length = 10 + args.length := by
  show (calldata selector args).data.length = _
  simp [calldata]
  omega

/-- Calldata passes the length check of both decoders. -/
theorem calldata_long (selector : BitVec 32) (args : List Char) :
    ¬(calldata selector args = "" ∨ (calldata selector args).length < 10) := by
  rintro (h | h)
  · exact absurd (congrArg String.length h) (by rw [length_calldata]; simp)
  · rw [length_calldata] at h
    omega

/-- The last 40 digits of a word are the address it pads. -/
theorem sliceLast_word (v : ℕ) : sliceLast ⟨word v⟩ 40 = ⟨hexDigits 40 v⟩ := by
  have h := hexDigits_split 24 40 v
  simp only [sliceLast, String.length, word, h, List.length_append, length_hexDigits]
  rw [List.drop_left' (length_hexDigits 24 _)]

/-- **The array reader.** When the head word at `offsetField` holds the byte offset of an encoded array that ends
the data, the reader returns every element, in order, as `0x` and its last 40 digits. The offset and the length
fit their words. -/
theorem decodeAddressArray_encodeArray {data : String} {offsetField off : ℕ} {A B : List Char} {ws : List ℕ}
    (hdata : data.data = A ++ word off ++ B ++ encodeArray ws) (hA : A.length = offsetField)
    (hP : (A ++ word off ++ B).length = off * 2) (hfit : off < 2 ^ 256) (hlen : ws.length < 2 ^ 256) :
    decodeAddressArray data offsetField = ws.map fun v => "0x" ++ ⟨hexDigits 40 v⟩ := by
  have hoff : slice data offsetField (offsetField + 64) = ⟨word off⟩ :=
    hA ▸ slice_word (S := B ++ encodeArray ws) (by rw [hdata]; simp only [List.append_assoc])
  generalize A ++ word off ++ B = P at hdata hP
  have hstart : slice data (off * 2) (off * 2 + 64) = ⟨word ws.length⟩ := by
    rw [← hP]
    exact slice_word (S := ws.flatMap word) (by rw [hdata, encodeArray, List.append_assoc])
  have hdlen : data.length = off * 2 + 64 + 64 * ws.length := by
    show data.data.length = _
    rw [hdata, encodeArray, List.length_append, List.length_append, length_word, length_flatMap_word, hP]
    omega
  simp only [decodeAddressArray, hoff, parseHex_word, Nat.mod_eq_of_lt hfit, hstart, Nat.mod_eq_of_lt hlen]
  refine (List.filterMap_congr (g := some ∘ fun i => "0x" ++ ⟨hexDigits 40 (ws.getD i 0)⟩)
    fun i hi => ?_).trans ?_
  · -- element `i` is the word after the length and the `i` words before it
    have hi : i < ws.length := List.mem_range.mp hi
    have hword : data.data = (P ++ word ws.length ++ (ws.take i).flatMap word) ++ word ws[i] ++
        (ws.drop (i + 1)).flatMap word := by
      rw [hdata, encodeArray, flatMap_word_eq ws hi]
      simp only [List.append_assoc]
    have hpos : (P ++ word ws.length ++ (ws.take i).flatMap word).length = off * 2 + 64 + i * 64 := by
      rw [List.length_append, List.length_append, length_word, length_flatMap_word, List.length_take,
        min_eq_left hi.le, hP]
      omega
    have hslice := slice_word hword
    rw [hpos] at hslice
    rw [if_pos (by omega), hslice, sliceLast_word, lower_hexDigits]
    simp only [Function.comp_apply, List.getD_eq_getElem?_getD, List.getElem?_eq_getElem hi, Option.getD_some]
  · rw [List.filterMap_eq_map]
    refine List.ext_getElem (by simp) fun i h₁ h₂ => ?_
    simp only [List.getElem_map, List.getElem_range, List.getD_eq_getElem?_getD,
      List.getElem?_eq_getElem (List.length_map ws _ ▸ h₂), Option.getD_some]

/-- **Decoding a `send` call.** For every selector, every list of `uint256` amounts and every list of addresses whose
offsets and lengths fit their `uint256` words, `decode_multisend_data` returns the addresses, in order, as `0x`
and 40 lowercase hex digits. -/
theorem decodeMultisendData_encodeSend (selector : BitVec 32) (amounts : List (BitVec 256))
    (addresses : List (BitVec 160)) (hoffset : 0x40 + 32 * (amounts.length + 1) < 2 ^ 256)
    (hlength : addresses.length < 2 ^ 256) :
    decodeMultisendData (calldata selector (encodeSend amounts addresses)) = addresses.map addressString := by
  rw [decodeMultisendData, if_neg (calldata_long _ _), sliceFrom_calldata]
  refine (decodeAddressArray_encodeArray rfl (length_word 0x40) ?_ hoffset (by simpa using hlength)).trans ?_
  · simp only [List.length_append, length_word, encodeArray, length_flatMap_word, List.length_map]
    omega
  · simp [addressString]

/-- Two amounts and two recipients, under any method id. -/
theorem decodeMultisendData_two_recipients :
    0x40 + 32 * (([5, 7] : List (BitVec 256)).length + 1) < 2 ^ 256 ∧
      ([0xab, 0xcd] : List (BitVec 160)).length < 2 ^ 256 ∧
      decodeMultisendData (calldata 0x12345678 (encodeSend [5, 7] [0xab, 0xcd])) =
        [addressString 0xab, addressString 0xcd] :=
  ⟨by norm_num, by norm_num, decodeMultisendData_encodeSend _ _ _ (by norm_num) (by norm_num)⟩

end RevoMigration.Wallets

namespace RevoMigration.NextepWallets

open RevoMigration.Wallets
open RevoMigration.Bridge (slice lower)

/-- `NEXTEP_TOKEN_ADDRESS` of `fetch_active_wallets_nextep.py`, which `--nextep-token-address` overrides. -/
def nextepTokenAddress : String := "0x432e4997060f2385bdb32cdc8be815c6b22a8a61"

/-- `decode_multisend_data(data)` of `fetch_active_wallets_nextep.py` with `NEXTEP_TOKEN_ADDRESS` set to
`tokenAddress`: the token, `0x` and the last 40 digits of the first head word, must be `tokenAddress` in lowercase;
then the `destinations` of `send(address, uint256[], address[], uint256)`, whose offset is the third head word. -/
def decodeMultisendDataFor (tokenAddress data : String) : List String :=
  if data = "" ∨ data.length < 10 then [] else
    let data := sliceFrom data 10
    let tokenAddr := "0x" ++ lower (slice data 24 64)
    if lower tokenAddr ≠ lower tokenAddress then [] else decodeAddressArray data 128

/-- `decode_multisend_data(data)` with the default `NEXTEP_TOKEN_ADDRESS`. -/
def decodeMultisendData (data : String) : List String := decodeMultisendDataFor nextepTokenAddress data

/-- The arguments of `send(address tokenAddr, uint256[] amounts, address[] destinations, uint256 total)` as the ABI
encodes them: the token, the byte offsets of the two arrays and the total, then the arrays. -/
def encodeSend (tokenAddr : BitVec 160) (amounts : List (BitVec 256)) (destinations : List (BitVec 160))
    (total : BitVec 256) : List Char :=
  word tokenAddr.toNat ++ word 0x80 ++ word (0x80 + 32 * (amounts.length + 1)) ++ word total.toNat ++
    encodeArray (amounts.map BitVec.toNat) ++ encodeArray (destinations.map BitVec.toNat)

/-- `"0x"` and the lowercase token word of a `send` call: the token's address string. -/
theorem tokenAddr_encodeSend (tokenAddr : BitVec 160) (amounts : List (BitVec 256)) (destinations : List (BitVec 160))
    (total : BitVec 256) :
    "0x" ++ lower (slice ⟨encodeSend tokenAddr amounts destinations total⟩ 24 64) = addressString tokenAddr := by
  rw [slice_address (v := tokenAddr.toNat) (by simp only [encodeSend, List.append_assoc]; rfl), lower_hexDigits]
  rfl

/-- Decoding a `send` call against any token address: its destinations when the token is that address up to case,
and nothing otherwise. -/
theorem decodeMultisendDataFor_encodeSend (tokenAddress : String) (selector : BitVec 32) (tokenAddr : BitVec 160)
    (amounts : List (BitVec 256)) (destinations : List (BitVec 160)) (total : BitVec 256)
    (hoffset : 0x80 + 32 * (amounts.length + 1) < 2 ^ 256) (hlength : destinations.length < 2 ^ 256) :
    decodeMultisendDataFor tokenAddress (calldata selector (encodeSend tokenAddr amounts destinations total)) =
      if lower (addressString tokenAddr) = lower tokenAddress then destinations.map addressString else [] := by
  simp only [decodeMultisendDataFor, if_neg (calldata_long _ _), sliceFrom_calldata, tokenAddr_encodeSend, ne_eq,
    ite_not]
  split_ifs
  · refine (decodeAddressArray_encodeArray (A := word tokenAddr.toNat ++ word 0x80)
      (B := word total.toNat ++ encodeArray (amounts.map BitVec.toNat)) (by simp only [encodeSend, List.append_assoc])
      (by simp) ?_ hoffset ((List.length_map destinations BitVec.toNat).trans_lt hlength)).trans
      (by simp [addressString])
    simp only [List.length_append, length_word, encodeArray, length_flatMap_word, List.length_map]
    omega
  · rfl

/-- **Decoding a NEXTEP `send` call.** For every selector, token, list of `uint256` amounts, list of destinations and
total whose offsets and lengths fit their `uint256` words, `decode_multisend_data` returns the destinations, in
order, as `0x` and 40 lowercase hex digits when the token is `NEXTEP_TOKEN_ADDRESS` up to case, and nothing
otherwise. -/
theorem decodeMultisendData_encodeSend_nextep (selector : BitVec 32) (tokenAddr : BitVec 160)
    (amounts : List (BitVec 256)) (destinations : List (BitVec 160)) (total : BitVec 256)
    (hoffset : 0x80 + 32 * (amounts.length + 1) < 2 ^ 256) (hlength : destinations.length < 2 ^ 256) :
    decodeMultisendData (calldata selector (encodeSend tokenAddr amounts destinations total)) =
      if lower (addressString tokenAddr) = lower nextepTokenAddress then destinations.map addressString else [] :=
  decodeMultisendDataFor_encodeSend nextepTokenAddress selector tokenAddr amounts destinations total hoffset hlength

/-- A NEXTEP call with one amount and one destination, under any method id. -/
theorem decodeMultisendData_one_destination :
    0x80 + 32 * (([5] : List (BitVec 256)).length + 1) < 2 ^ 256 ∧ ([0xab] : List (BitVec 160)).length < 2 ^ 256 ∧
      decodeMultisendData (calldata 0x12345678 (encodeSend 0x432e4997060f2385bdb32cdc8be815c6b22a8a61 [5] [0xab] 5)) =
        if lower (addressString 0x432e4997060f2385bdb32cdc8be815c6b22a8a61) = lower nextepTokenAddress then
          [addressString 0xab] else [] :=
  ⟨by norm_num, by norm_num, decodeMultisendData_encodeSend_nextep _ _ _ _ _ (by norm_num) (by norm_num)⟩

end RevoMigration.NextepWallets
