import RevoMigration.Bridge.Scan

/-!
# Hex calldata of the multisend contracts

The wallet scripts read transaction inputs as the hex strings the transactions API returns: `0x`, the 4-byte
method id, then the Solidity ABI encoding of the arguments, every word 32 bytes written as 64 lowercase hex digits.
This module renders such calldata (`hexDigits`, `word`, `calldata`, `encodeArray`) and proves what the decoders need
of it: `int(_, 16)` reads a word back (`parseHex_word`), a slice at a word's position is that word (`slice_word`),
and the last 40 digits of a word are the 20-byte address it pads (`hexDigits_split`).
-/

namespace RevoMigration.Wallets

open RevoMigration.Bridge (hexDigitValue hexValue parseHex slice lower)

/-! ## Rendering -/

/-- The lowercase hex digit of `d < 16`. -/
def hexDigit (d : ℕ) : Char :=
  if d < 10 then Char.ofNat ('0'.toNat + d) else Char.ofNat ('a'.toNat + (d - 10))

/-- The `k` lowercase hex digits of `v % 16 ^ k`, the most significant first. -/
def hexDigits : ℕ → ℕ → List Char
  | 0, _ => []
  | k + 1, v => hexDigit (v / 16 ^ k % 16) :: hexDigits k v

/-- A 32-byte ABI word. -/
def word (v : ℕ) : List Char := hexDigits 64 v

/-- A 20-byte address as the decoders print it: `0x` and 40 lowercase hex digits. -/
def addressString (a : BitVec 160) : String := "0x" ++ ⟨hexDigits 40 a.toNat⟩

/-- The calldata of a call: `0x`, the method id `selector`, then the encoded arguments. -/
def calldata (selector : BitVec 32) (args : List Char) : String :=
  ⟨'0' :: 'x' :: hexDigits 8 selector.toNat ++ args⟩

/-- A dynamic `uint256[]` or `address[]` in the tail of an encoding: its length, then one word per element. -/
def encodeArray (vs : List ℕ) : List Char := word vs.length ++ vs.flatMap word

/-! ## Reading rendered digits back -/

theorem hexDigitValue_hexDigit : ∀ d, d < 16 → hexDigitValue (hexDigit d) = some d := by decide

theorem toLower_hexDigit : ∀ d, d < 16 → (hexDigit d).toLower = hexDigit d := by decide

@[simp] theorem length_hexDigits (k v : ℕ) : (hexDigits k v).length = k := by
  induction k <;> simp [hexDigits, *]

@[simp] theorem length_word (v : ℕ) : (word v).length = 64 := length_hexDigits 64 v

theorem length_flatMap_word (vs : List ℕ) : (vs.flatMap word).length = 64 * vs.length := by
  induction vs <;> simp [*, Nat.mul_succ, Nat.add_comm]

/-- Reading `k` digits after `acc` shifts `acc` by `k` digits and adds what they render. -/
theorem hexValue_hexDigits (k : ℕ) : ∀ v acc, hexValue (hexDigits k v) acc = some (acc * 16 ^ k + v % 16 ^ k) := by
  induction k with
  | zero => intro v acc; simp [hexDigits, hexValue, Nat.mod_one]
  | succ k ih =>
    intro v acc
    rw [hexDigits, hexValue, hexDigitValue_hexDigit _ (Nat.mod_lt _ (by norm_num)), Option.some_bind, ih,
      Nat.mod_pow_succ]
    congr 1
    ring

/-- `int(word, 16)` is the word's value: every value below `2 ^ 256` reads back as itself. -/
theorem parseHex_word (v : ℕ) : parseHex ⟨word v⟩ = some (v % 2 ^ 256) := by
  have h : (16 : ℕ) ^ 64 = 2 ^ 256 := by norm_num
  have hne : word v ≠ [] := by rw [← List.length_pos, length_word]; norm_num
  rw [parseHex, if_neg hne, word, hexValue_hexDigits, h]
  simp

/-- The low `b` digits of a rendering are the rendering of the low digits. -/
theorem hexDigits_split (a b v : ℕ) : hexDigits (a + b) v = hexDigits a (v / 16 ^ b) ++ hexDigits b v := by
  induction a with
  | zero => simp [hexDigits]
  | succ a ih =>
    rw [Nat.add_right_comm, hexDigits, ih, hexDigits, Nat.div_div_eq_div_mul, ← pow_add, Nat.add_comm b]
    rfl

/-- Lowercasing leaves a rendering as it is. -/
theorem lower_hexDigits (k v : ℕ) : lower ⟨hexDigits k v⟩ = ⟨hexDigits k v⟩ := by
  refine congrArg String.mk ?_
  induction k with
  | zero => rfl
  | succ k ih => rw [hexDigits, List.map_cons, ih, toLower_hexDigit _ (Nat.mod_lt _ (by norm_num))]

/-! ## Slices of encoded data -/

/-- The characters at a piece's position are that piece. -/
theorem slice_eq {s : String} {P X S : List Char} (h : s.data = P ++ X ++ S) :
    slice s P.length (P.length + X.length) = ⟨X⟩ := by
  rw [Bridge.slice, h, List.append_assoc, List.drop_left, Nat.add_sub_cancel_left, List.take_left]

/-- Characters 24 to 64 of data that starts with a word are the address the word pads. -/
theorem slice_address {s : String} {v : ℕ} {S : List Char} (h : s.data = word v ++ S) :
    slice s 24 64 = ⟨hexDigits 40 v⟩ := by
  have hsplit : s.data = hexDigits 24 (v / 16 ^ 40) ++ hexDigits 40 v ++ S := by rw [h, word, ← hexDigits_split]
  simpa using slice_eq hsplit

/-- The 64 characters at a word's position are that word. -/
theorem slice_word {s : String} {P S : List Char} {v : ℕ} (h : s.data = P ++ word v ++ S) :
    slice s P.length (P.length + 64) = ⟨word v⟩ :=
  length_word v ▸ slice_eq h

/-- The word of element `i` of an array of words, with what comes before it. -/
theorem flatMap_word_eq (vs : List ℕ) {i : ℕ} (hi : i < vs.length) :
    vs.flatMap word = (vs.take i).flatMap word ++ word vs[i] ++ (vs.drop (i + 1)).flatMap word := by
  have h := List.take_append_drop i vs
  rw [List.drop_eq_getElem_cons hi] at h
  conv_lhs => rw [← h]
  rw [List.flatMap_append, List.flatMap_cons, List.append_assoc]

end RevoMigration.Wallets
