import TelegramPub.Verified.Ige

/-!
# IGE in pieces

A long text is often encrypted or decrypted in pieces.  Two blocks are carried from
one piece to the next: the last block of the ciphertext and the last block of the
plaintext.  Kept in a byte string of 32 bytes they are the initialization vector of
the next piece.

* `igeDecrypt_append` and `igeEncrypt_append` are the laws for blocks.
* `decryptBytes_append` and `encryptBytes_append` are the laws for byte strings whose
  first piece has whole blocks; `decryptBytes_piece` decrypts a piece in the middle.
* `decryptBytes_encryptBytes` says that the pieces may be cut differently on the two
  sides.
-/

namespace TelegramPub.Verified.IgeChain

open Verified.Bytes Verified.Ige

section Mode

variable {n : Nat} (E D : BitVec n → BitVec n)

/-- The two blocks after some ciphertext was decrypted. -/
def decryptChain : BitVec n → BitVec n → List (BitVec n) → BitVec n × BitVec n
  | c₀, p₀, [] => (c₀, p₀)
  | c₀, p₀, c :: cs => decryptChain c (D (c ^^^ p₀) ^^^ c₀) cs

/-- The two blocks after some plaintext was encrypted. -/
def encryptChain : BitVec n → BitVec n → List (BitVec n) → BitVec n × BitVec n
  | c₀, p₀, [] => (c₀, p₀)
  | c₀, p₀, p :: ps => encryptChain (E (p ^^^ c₀) ^^^ p₀) p ps

/-- The chain ends with the last blocks. -/
theorem encryptChain_eq_last (ps : List (BitVec n)) :
    ∀ c₀ p₀ : BitVec n, encryptChain E c₀ p₀ ps =
      ((igeEncrypt E c₀ p₀ ps).getLastD c₀, ps.getLastD p₀) := by
  induction ps with
  | nil => intro c₀ p₀; rfl
  | cons p ps ih => intro c₀ p₀; simp only [encryptChain, igeEncrypt, ih, List.getLastD_cons]

theorem igeDecrypt_append (xs ys : List (BitVec n)) :
    ∀ c₀ p₀ : BitVec n, igeDecrypt D c₀ p₀ (xs ++ ys) =
      igeDecrypt D c₀ p₀ xs ++
        igeDecrypt D (decryptChain D c₀ p₀ xs).1 (decryptChain D c₀ p₀ xs).2 ys := by
  induction xs with
  | nil => intro c₀ p₀; rfl
  | cons x xs ih => intro c₀ p₀; simp [igeDecrypt, decryptChain, ih]

theorem decryptChain_append (xs ys : List (BitVec n)) :
    ∀ c₀ p₀ : BitVec n, decryptChain D c₀ p₀ (xs ++ ys) =
      decryptChain D (decryptChain D c₀ p₀ xs).1 (decryptChain D c₀ p₀ xs).2 ys := by
  induction xs with
  | nil => intro c₀ p₀; rfl
  | cons x xs ih => intro c₀ p₀; simp [decryptChain, ih]

theorem igeEncrypt_append (xs ys : List (BitVec n)) :
    ∀ c₀ p₀ : BitVec n, igeEncrypt E c₀ p₀ (xs ++ ys) =
      igeEncrypt E c₀ p₀ xs ++
        igeEncrypt E (encryptChain E c₀ p₀ xs).1 (encryptChain E c₀ p₀ xs).2 ys := by
  induction xs with
  | nil => intro c₀ p₀; rfl
  | cons x xs ih => intro c₀ p₀; simp [igeEncrypt, encryptChain, ih]

theorem encryptChain_append (xs ys : List (BitVec n)) :
    ∀ c₀ p₀ : BitVec n, encryptChain E c₀ p₀ (xs ++ ys) =
      encryptChain E (encryptChain E c₀ p₀ xs).1 (encryptChain E c₀ p₀ xs).2 ys := by
  induction xs with
  | nil => intro c₀ p₀; rfl
  | cons x xs ih => intro c₀ p₀; simp [encryptChain, ih]

end Mode

/-! ## Cutting byte strings -/

theorem blocksOf_append :
    ∀ (i j : Nat) (xs ys : Data), xs.length = 16 * i →
      blocksOf (i + j) (xs ++ ys) = blocksOf i xs ++ blocksOf j ys := by
  intro i
  induction i with
  | zero =>
    intro j xs ys hlength
    rw [List.length_eq_zero_iff.1 hlength]
    simp [blocksOf]
  | succ i ih =>
    intro j xs ys hlength
    have hdrop : (xs ++ ys).drop 16 = xs.drop 16 ++ ys :=
      List.drop_append_of_le_length (by omega)
    have hfirst : blockOf (xs ++ ys) = blockOf xs := by
      unfold blockOf
      rw [List.take_append_of_le_length (by omega)]
    rw [show i + 1 + j = i + j + 1 by omega]
    simp only [blocksOf, List.cons_append]
    rw [hfirst, hdrop, ih j (xs.drop 16) ys (by rw [List.length_drop]; omega)]

theorem blocksOf_pieces {xs : Data} (ys : Data) (hxs : xs.length % 16 = 0) :
    blocksOf ((xs ++ ys).length / 16) (xs ++ ys) =
      blocksOf (xs.length / 16) xs ++ blocksOf (ys.length / 16) ys := by
  have hblocks : xs.length = 16 * (xs.length / 16) := by omega
  have hcount : (xs ++ ys).length / 16 = xs.length / 16 + ys.length / 16 := by
    rw [List.length_append]
    omega
  rw [hcount, blocksOf_append _ _ _ _ hblocks]

theorem flattenBlocks_append (xs ys : List (BitVec 128)) :
    flattenBlocks (xs ++ ys) = flattenBlocks xs ++ flattenBlocks ys :=
  List.flatMap_append

section Strings

variable (E D : BitVec 128 → BitVec 128)

/-- The whole blocks of a byte string, decrypted; a rest is left zero. -/
def decryptBytes (iv data : Data) : Data :=
  flattenBlocks (igeDecrypt D (blockOf iv) (blockOf (iv.drop 16))
      (blocksOf (data.length / 16) data)) ++
    List.replicate (data.length % 16) 0

/-- The initialization vector after `decryptBytes`. -/
def decryptIv (iv data : Data) : Data :=
  let blocks := decryptChain D (blockOf iv) (blockOf (iv.drop 16))
    (blocksOf (data.length / 16) data)
  bytesOf blocks.1 ++ bytesOf blocks.2

/-- The whole blocks of a byte string, encrypted; a rest is left zero. -/
def encryptBytes (iv data : Data) : Data :=
  flattenBlocks (igeEncrypt E (blockOf iv) (blockOf (iv.drop 16))
      (blocksOf (data.length / 16) data)) ++
    List.replicate (data.length % 16) 0

/-- The initialization vector after `encryptBytes`. -/
def encryptIv (iv data : Data) : Data :=
  let blocks := encryptChain E (blockOf iv) (blockOf (iv.drop 16))
    (blocksOf (data.length / 16) data)
  bytesOf blocks.1 ++ bytesOf blocks.2

@[simp] theorem length_decryptBytes (iv data : Data) :
    (decryptBytes D iv data).length = data.length := by
  unfold decryptBytes
  rw [List.length_append, length_flattenBlocks, length_igeDecrypt, length_blocksOf,
    List.length_replicate]
  omega

@[simp] theorem length_encryptBytes (iv data : Data) :
    (encryptBytes E iv data).length = data.length := by
  unfold encryptBytes
  rw [List.length_append, length_flattenBlocks, length_igeEncrypt, length_blocksOf,
    List.length_replicate]
  omega

@[simp] theorem length_decryptIv (iv data : Data) : (decryptIv D iv data).length = 32 := by
  unfold decryptIv
  rw [List.length_append, length_bytesOf, length_bytesOf]

@[simp] theorem length_encryptIv (iv data : Data) : (encryptIv E iv data).length = 32 := by
  unfold encryptIv
  rw [List.length_append, length_bytesOf, length_bytesOf]

/-- Nothing is decrypted, and the initialization vector stays. -/
theorem decryptIv_nil {iv : Data} (hiv : iv.length = 32) : decryptIv D iv [] = iv := by
  have hrest : (iv.drop 16).length = 16 := by
    rw [List.length_drop, hiv]
  show bytesOf (blockOf iv) ++ bytesOf (blockOf (iv.drop 16)) = iv
  rw [bytesOf_blockOf (by omega), bytesOf_blockOf (by omega), List.take_of_length_le hrest.le,
    List.take_append_drop]

theorem encryptIv_nil {iv : Data} (hiv : iv.length = 32) : encryptIv E iv [] = iv :=
  decryptIv_nil E hiv

@[simp] theorem blockOf_pair (x y : BitVec 128) :
    blockOf (bytesOf x ++ bytesOf y) = x ∧
      blockOf ((bytesOf x ++ bytesOf y).drop 16) = y := by
  constructor
  · exact blockOf_append x _
  · have hdrop : (bytesOf x ++ bytesOf y).drop 16 = bytesOf y ++ [] := by
      rw [List.drop_append_of_le_length (by simp), List.drop_of_length_le (by simp),
        List.append_nil]
      rfl
    rw [hdrop]
    exact blockOf_append y []

/-- Two pieces, the first of whole blocks. -/
theorem decryptBytes_append (iv : Data) {xs : Data} (ys : Data) (hxs : xs.length % 16 = 0) :
    decryptBytes D iv (xs ++ ys) =
      decryptBytes D iv xs ++ decryptBytes D (decryptIv D iv xs) ys := by
  have hrest : (xs ++ ys).length % 16 = ys.length % 16 := by
    rw [List.length_append]
    omega
  unfold decryptBytes decryptIv
  rw [hrest, blocksOf_pieces ys hxs, igeDecrypt_append, flattenBlocks_append,
    hxs, (blockOf_pair _ _).1, (blockOf_pair _ _).2]
  simp

theorem decryptIv_append (iv : Data) {xs : Data} (ys : Data) (hxs : xs.length % 16 = 0) :
    decryptIv D iv (xs ++ ys) = decryptIv D (decryptIv D iv xs) ys := by
  unfold decryptIv
  rw [blocksOf_pieces ys hxs, decryptChain_append, (blockOf_pair _ _).1,
    (blockOf_pair _ _).2]

/-- The decryption of a text that is cut after whole blocks. -/
theorem decryptBytes_split (iv data : Data) {i : Nat} (hi : i % 16 = 0) :
    (decryptBytes D iv data).take i = decryptBytes D iv (data.take i) ∧
      (decryptBytes D iv data).drop i =
        decryptBytes D (decryptIv D iv (data.take i)) (data.drop i) := by
  by_cases hle : i ≤ data.length
  · have hlength : (data.take i).length = i := List.length_take_of_le hle
    have happend := decryptBytes_append D iv (data.drop i)
      (show (data.take i).length % 16 = 0 by rw [hlength]; exact hi)
    rw [List.take_append_drop] at happend
    have hfirst : (decryptBytes D iv (data.take i)).length = i := by
      rw [length_decryptBytes, hlength]
    rw [happend]
    exact ⟨List.take_left' hfirst, List.drop_left' hfirst⟩
  · have hshort : (decryptBytes D iv data).length ≤ i := by
      rw [length_decryptBytes]
      omega
    rw [List.take_of_length_le hshort, List.drop_of_length_le hshort,
      List.take_of_length_le (by omega), List.drop_of_length_le (by omega)]
    exact ⟨rfl, rfl⟩

/-- A piece of the decryption, from whole blocks to whole blocks or to the end. -/
theorem decryptBytes_piece (iv data : Data) {i j : Nat} (hi : i % 16 = 0)
    (hj : j % 16 = 0 ∨ data.length ≤ i + j) :
    ((decryptBytes D iv data).drop i).take j =
      decryptBytes D (decryptIv D iv (data.take i)) ((data.drop i).take j) := by
  rw [(decryptBytes_split D iv data hi).2]
  rcases hj with hj | hend
  · exact (decryptBytes_split D _ _ hj).1
  · have hrest : (data.drop i).length ≤ j := by
      rw [List.length_drop]
      omega
    rw [List.take_of_length_le hrest, List.take_of_length_le]
    rw [length_decryptBytes]
    exact hrest

theorem encryptBytes_append (iv : Data) {xs : Data} (ys : Data) (hxs : xs.length % 16 = 0) :
    encryptBytes E iv (xs ++ ys) =
      encryptBytes E iv xs ++ encryptBytes E (encryptIv E iv xs) ys := by
  have hrest : (xs ++ ys).length % 16 = ys.length % 16 := by
    rw [List.length_append]
    omega
  unfold encryptBytes encryptIv
  rw [hrest, blocksOf_pieces ys hxs, igeEncrypt_append, flattenBlocks_append,
    hxs, (blockOf_pair _ _).1, (blockOf_pair _ _).2]
  simp

theorem encryptIv_append (iv : Data) {xs : Data} (ys : Data) (hxs : xs.length % 16 = 0) :
    encryptIv E iv (xs ++ ys) = encryptIv E (encryptIv E iv xs) ys := by
  unfold encryptIv
  rw [blocksOf_pieces ys hxs, encryptChain_append, (blockOf_pair _ _).1,
    (blockOf_pair _ _).2]

theorem decryptBytes_encryptBytes (hinv : ∀ b, D (E b) = b) (iv : Data) {data : Data}
    (hdata : data.length % 16 = 0) : decryptBytes D iv (encryptBytes E iv data) = data := by
  have hcount := length_blocksOf (data.length / 16) data
  have hback := blocksOf_flattenBlocks
    (igeEncrypt E (blockOf iv) (blockOf (iv.drop 16)) (blocksOf (data.length / 16) data)) []
  rw [length_igeEncrypt, hcount, List.append_nil] at hback
  unfold decryptBytes
  rw [length_encryptBytes]
  unfold encryptBytes
  rw [hdata, List.replicate_zero, List.append_nil, List.append_nil, hback,
    igeDecrypt_igeEncrypt E D hinv, flattenBlocks_blocksOf _ _ (by omega),
    List.take_of_length_le (by omega)]

end Strings

end TelegramPub.Verified.IgeChain
