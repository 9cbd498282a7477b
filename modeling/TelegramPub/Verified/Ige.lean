import TelegramPub.Verified.Bytes

/-!
# IGE mode of a block cipher

Infinite Garble Extension chains both the ciphertext and the plaintext:
`c i = E (p i ^ c (i-1)) ^ p (i-1)`.  An implementation on top of a CBC
primitive masks the plaintext with itself two blocks back, runs CBC, and masks
the result with the plaintext one block back.  This module has both forms, for
blocks of any width and any cipher, proves them equal (`cbcIgeEncrypt_eq`) and
proves that decryption undoes encryption (`igeDecrypt_igeEncrypt`).

The second part cuts byte strings into blocks of sixteen bytes and puts them
together again.  It names nothing of the ported program.
-/

namespace TelegramPub.Verified.Ige

open Verified.Bytes

section Mode

variable {n : Nat} (E D : BitVec n → BitVec n)

/-- IGE encryption, block by block. -/
def igeEncrypt : BitVec n → BitVec n → List (BitVec n) → List (BitVec n)
  | _, _, [] => []
  | c₀, p₀, p :: ps =>
    let c := E (p ^^^ c₀) ^^^ p₀
    c :: igeEncrypt c p ps

/-- IGE decryption, block by block. -/
def igeDecrypt : BitVec n → BitVec n → List (BitVec n) → List (BitVec n)
  | _, _, [] => []
  | c₀, p₀, c :: cs =>
    let p := D (c ^^^ p₀) ^^^ c₀
    p :: igeDecrypt c p cs

theorem length_igeEncrypt :
    ∀ (ps : List (BitVec n)) (c₀ p₀ : BitVec n), (igeEncrypt E c₀ p₀ ps).length = ps.length := by
  intro ps
  induction ps with
  | nil => intro c₀ p₀; rfl
  | cons p ps ih => intro c₀ p₀; simp [igeEncrypt, ih]

theorem length_igeDecrypt :
    ∀ (cs : List (BitVec n)) (c₀ p₀ : BitVec n), (igeDecrypt D c₀ p₀ cs).length = cs.length := by
  intro cs
  induction cs with
  | nil => intro c₀ p₀; rfl
  | cons c cs ih => intro c₀ p₀; simp [igeDecrypt, ih]

/-- Decryption undoes encryption, whatever the cipher. -/
theorem igeDecrypt_igeEncrypt (hinv : ∀ b, D (E b) = b) :
    ∀ (ps : List (BitVec n)) (c₀ p₀ : BitVec n),
      igeDecrypt D c₀ p₀ (igeEncrypt E c₀ p₀ ps) = ps := by
  intro ps
  induction ps with
  | nil => intro c₀ p₀; rfl
  | cons p ps ih =>
    intro c₀ p₀
    have hblock : D (E (p ^^^ c₀) ^^^ p₀ ^^^ p₀) ^^^ c₀ = p := by
      rw [BitVec.xor_assoc, BitVec.xor_self, BitVec.xor_zero, hinv, BitVec.xor_assoc,
        BitVec.xor_self, BitVec.xor_zero]
    simp only [igeEncrypt, igeDecrypt, hblock, ih]

/-! ## The implementation on top of CBC -/

/-- CBC encryption. -/
def cbcEncrypt : BitVec n → List (BitVec n) → List (BitVec n)
  | _, [] => []
  | iv, p :: ps =>
    let c := E (p ^^^ iv)
    c :: cbcEncrypt c ps

/-- The first block stays; the second is masked with `iv`, the third with the
first, and so on. -/
def preMask (iv : BitVec n) : List (BitVec n) → List (BitVec n)
  | [] => []
  | p :: ps => p :: List.zipWith (· ^^^ ·) ps (iv :: p :: ps)

/-- The first block is masked with `iv`, each further one with the plaintext
block before it. -/
def postMask (iv : BitVec n) (ps es : List (BitVec n)) : List (BitVec n) :=
  List.zipWith (· ^^^ ·) es (iv :: ps)

/-- IGE encryption by masking and CBC. -/
def cbcIgeEncrypt (iv₁ iv₂ : BitVec n) (ps : List (BitVec n)) : List (BitVec n) :=
  postMask iv₂ ps (cbcEncrypt E iv₁ (preMask iv₂ ps))

/-- After the first block: `e` is the CBC state, `q` the plaintext block before
and `m` the mask of the block to come. -/
theorem cbc_masked_eq :
    ∀ (ps : List (BitVec n)) (e m q : BitVec n),
      postMask q ps (cbcEncrypt E e (List.zipWith (· ^^^ ·) ps (m :: q :: ps))) =
        igeEncrypt E (e ^^^ m) q ps := by
  intro ps
  induction ps with
  | nil => intro e m q; rfl
  | cons p ps ih =>
    intro e m q
    have hin : p ^^^ m ^^^ e = p ^^^ (e ^^^ m) := by
      rw [BitVec.xor_assoc, BitVec.xor_comm m e]
    have hrest := ih (E (p ^^^ m ^^^ e)) q p
    unfold postMask at hrest ⊢
    simp only [List.zipWith_cons_cons, cbcEncrypt, igeEncrypt]
    rw [hrest, hin]

theorem cbcIgeEncrypt_eq (iv₁ iv₂ : BitVec n) (ps : List (BitVec n)) :
    cbcIgeEncrypt E iv₁ iv₂ ps = igeEncrypt E iv₁ iv₂ ps := by
  cases ps with
  | nil => rfl
  | cons p ps =>
    have hrest := cbc_masked_eq E ps (E (p ^^^ iv₁)) iv₂ p
    unfold postMask at hrest
    simp only [cbcIgeEncrypt, postMask, preMask, cbcEncrypt, igeEncrypt,
      List.zipWith_cons_cons]
    rw [hrest]

end Mode

/-- The block whose memory holds the first sixteen bytes. -/
def blockOf (bytes : Data) : BitVec 128 := BitVec.ofNat 128 (leNat (bytes.take 16))

/-- The first `count` blocks of a byte string. -/
def blocksOf : Nat → Data → List (BitVec 128)
  | 0, _ => []
  | count + 1, bytes => blockOf bytes :: blocksOf count (bytes.drop 16)

/-- The bytes of a block. -/
def bytesOf (block : BitVec 128) : Data := natLE 16 block.toNat

/-- The bytes of a list of blocks. -/
def flattenBlocks (blocks : List (BitVec 128)) : Data := blocks.flatMap bytesOf

@[simp] theorem length_bytesOf (block : BitVec 128) : (bytesOf block).length = 16 :=
  length_natLE _ _

theorem length_flattenBlocks (blocks : List (BitVec 128)) :
    (flattenBlocks blocks).length = 16 * blocks.length := by
  induction blocks with
  | nil => rfl
  | cons block blocks ih =>
    have hcons : flattenBlocks (block :: blocks) = bytesOf block ++ flattenBlocks blocks := rfl
    rw [hcons, List.length_append, length_bytesOf, ih, List.length_cons]
    omega

theorem length_blocksOf :
    ∀ (count : Nat) (bytes : Data), (blocksOf count bytes).length = count := by
  intro count
  induction count with
  | zero => intro bytes; rfl
  | succ count ih => intro bytes; simp [blocksOf, ih]

theorem blockOf_append (block : BitVec 128) (rest : Data) :
    blockOf (bytesOf block ++ rest) = block := by
  have htake : (bytesOf block ++ rest).take 16 = bytesOf block := by
    rw [List.take_append_of_le_length (by simp), List.take_of_length_le (by simp)]
  have hlt : block.toNat < 256 ^ 16 := block.isLt
  unfold blockOf
  rw [htake, bytesOf, leNat_natLE, Nat.mod_eq_of_lt hlt]
  simp

theorem blocksOf_flattenBlocks :
    ∀ (blocks : List (BitVec 128)) (rest : Data),
      blocksOf blocks.length (flattenBlocks blocks ++ rest) = blocks := by
  intro blocks
  induction blocks with
  | nil => intro rest; rfl
  | cons block blocks ih =>
    intro rest
    have hcons : flattenBlocks (block :: blocks) ++ rest =
        bytesOf block ++ (flattenBlocks blocks ++ rest) := List.append_assoc _ _ _
    have hdrop : (bytesOf block ++ (flattenBlocks blocks ++ rest)).drop 16 =
        flattenBlocks blocks ++ rest := by
      rw [List.drop_append_of_le_length (by simp), List.drop_of_length_le (by simp)]
      rfl
    rw [hcons, List.length_cons, blocksOf, blockOf_append, hdrop, ih]

theorem bytesOf_blockOf {bytes : Data} (hlength : 16 ≤ bytes.length) :
    bytesOf (blockOf bytes) = bytes.take 16 := by
  have htake : (bytes.take 16).length = 16 := by
    rw [List.length_take]
    omega
  have hlt : leNat (bytes.take 16) < 2 ^ 128 := by
    have hbound := leNat_lt (bytes.take 16)
    rw [htake] at hbound
    exact hbound
  unfold bytesOf blockOf
  rw [BitVec.toNat_ofNat, Nat.mod_eq_of_lt hlt]
  have hback := natLE_leNat (bytes.take 16)
  rw [htake] at hback
  exact hback

theorem flattenBlocks_blocksOf :
    ∀ (count : Nat) (bytes : Data), 16 * count ≤ bytes.length →
      flattenBlocks (blocksOf count bytes) = bytes.take (16 * count) := by
  intro count
  induction count with
  | zero => intro bytes _; simp [blocksOf, flattenBlocks]
  | succ count ih =>
    intro bytes hlength
    have hrest : 16 * count ≤ (bytes.drop 16).length := by
      rw [List.length_drop]
      omega
    have hcons : flattenBlocks (blocksOf (count + 1) bytes) =
        bytesOf (blockOf bytes) ++ flattenBlocks (blocksOf count (bytes.drop 16)) := rfl
    rw [hcons, bytesOf_blockOf (by omega), ih _ hrest]
    rw [show 16 * (count + 1) = 16 + 16 * count by omega, List.take_add]

end TelegramPub.Verified.Ige
