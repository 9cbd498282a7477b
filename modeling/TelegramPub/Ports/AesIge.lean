import TelegramPub.Verified.IgeChain

/-!
# MyAesIge

IGE on top of a CBC primitive.  `MyAesIgeEncrypt` xors each block with the plaintext two
before it, runs CBC, and xors the result with the plaintext one before it;
`MyAesIgeDecrypt` takes single blocks.  Both read and write blocks through pointers that
move on by one block; here these are lists.  The input is whole blocks, at least one, and
the output is another buffer.

The block cipher is a permutation of blocks.
-/

namespace TelegramPub.Ports.AesIge

open Verified.Bytes Verified.Ige Verified.IgeChain

/-- `aes_block_t`. -/
abbrev AesBlock := BitVec 128

/-- The loop from the second block on.  `iv3p` points to a block of the input, and `inBCC` to
the one after it. -/
def preXor : AesBlock → List AesBlock → List AesBlock → List AesBlock
  | _, _, [] => []
  | iv3p, inBCC, inp :: inB =>
    (inp ^^^ iv3p) :: preXor (inBCC.headD 0) inBCC.tail inB

/-- The input of CBC: the first block is copied. -/
def tmpInBytes (ccIv : AesBlock) : List AesBlock → List AesBlock
  | [] => []
  | inp :: inB => inp :: preXor ccIv (inp :: inB) inB

/-- The last loop, with `ivp` and `iv2p` in the end. -/
def postXor : AesBlock → AesBlock → List AesBlock → List AesBlock →
    List AesBlock × AesBlock × AesBlock
  | _, iv2p, inp :: inB, outp :: outB =>
    let rest := postXor (outp ^^^ iv2p) inp inB outB
    ((outp ^^^ iv2p) :: rest.1, rest.2)
  | ivp, iv2p, _, _ => ([], ivp, iv2p)

/-- The loop of `MyAesIgeDecrypt`. -/
def decryptLoop (D : AesBlock → AesBlock) :
    AesBlock → AesBlock → List AesBlock → List AesBlock × AesBlock × AesBlock
  | ivp, iv2p, [] => ([], ivp, iv2p)
  | ivp, iv2p, inp :: inBytes =>
    let outp := D (inp ^^^ iv2p) ^^^ ivp
    let rest := decryptLoop D inp outp inBytes
    (outp :: rest.1, rest.2)

section Functions

variable (aes : Equiv.Perm AesBlock)

/-- `MyAesIgeEncrypt`: the output, and what `iv` is set to.  `ivp` points behind the input until
the first block is done. -/
def myAesIgeEncrypt (inBytes iv : Data) : Data × Data :=
  let aesIv := blockOf iv
  let ccIv := blockOf (iv.drop 16)
  let blocks := blocksOf (inBytes.length / 16) inBytes
  let outBytes := cbcEncrypt aes aesIv (tmpInBytes ccIv blocks)
  let (outBytes, ivp, iv2p) := postXor 0 ccIv blocks outBytes
  (flattenBlocks outBytes, bytesOf ivp ++ bytesOf iv2p)

/-- `MyAesIgeDecrypt`: the output, and what `iv` is set to. -/
def myAesIgeDecrypt (inBytes iv : Data) : Data × Data :=
  let (outBytes, ivp, iv2p) := decryptLoop aes.symm (blockOf iv) (blockOf (iv.drop 16))
    (blocksOf (inBytes.length / 16) inBytes)
  (flattenBlocks outBytes, bytesOf ivp ++ bytesOf iv2p)

/-- A function that carries `iv` over, called for one chunk after another. -/
def inChunks (f : Data → Data → Data × Data) : List Data → Data → Data × Data
  | [], iv => ([], iv)
  | chunk :: chunks, iv =>
    let (outBytes, iv) := f chunk iv
    let (rest, iv) := inChunks f chunks iv
    (outBytes ++ rest, iv)

end Functions

/-- The loop xors with the block two before. -/
theorem preXor_eq (inB : List AesBlock) :
    ∀ iv3p q, preXor iv3p (q :: inB) inB = List.zipWith (· ^^^ ·) inB (iv3p :: q :: inB) := by
  induction inB with
  | nil => intro iv3p q; rfl
  | cons inp inB ih =>
    intro iv3p q
    show (inp ^^^ iv3p) :: preXor q (inp :: inB) inB = _
    rw [ih q inp]
    rfl

theorem tmpInBytes_eq (ccIv : AesBlock) (blocks : List AesBlock) :
    tmpInBytes ccIv blocks = preMask ccIv blocks := by
  cases blocks with
  | nil => rfl
  | cons inp inB => simp only [tmpInBytes, preMask, preXor_eq]

theorem postXor_eq (inB : List AesBlock) :
    ∀ ivp iv2p outB, outB.length = inB.length →
      postXor ivp iv2p inB outB =
        (postMask iv2p inB outB, (postMask iv2p inB outB).getLastD ivp, inB.getLastD iv2p) := by
  induction inB with
  | nil =>
    intro ivp iv2p outB hlength
    rw [List.length_eq_zero_iff.1 hlength]
    rfl
  | cons inp inB ih =>
    intro ivp iv2p outB hlength
    cases outB with
    | nil => cases hlength
    | cons outp outB =>
      have hrest := ih (outp ^^^ iv2p) inp outB (Nat.succ.inj hlength)
      unfold postMask at hrest ⊢
      simp only [postXor, hrest, List.zipWith_cons_cons, List.getLastD_cons]

theorem decryptLoop_eq (D : AesBlock → AesBlock) (inBytes : List AesBlock) :
    ∀ ivp iv2p, decryptLoop D ivp iv2p inBytes =
      (igeDecrypt D ivp iv2p inBytes, decryptChain D ivp iv2p inBytes) := by
  induction inBytes with
  | nil => intro ivp iv2p; rfl
  | cons inp inBytes ih => intro ivp iv2p; simp only [decryptLoop, igeDecrypt, decryptChain, ih]

theorem length_cbcEncrypt {n : Nat} (E : BitVec n → BitVec n) (ps : List (BitVec n)) :
    ∀ iv, (cbcEncrypt E iv ps).length = ps.length := by
  induction ps with
  | nil => intro iv; rfl
  | cons p ps ih => intro iv; simp [cbcEncrypt, ih]

theorem length_preMask {n : Nat} (iv : BitVec n) (ps : List (BitVec n)) :
    (preMask iv ps).length = ps.length := by
  cases ps with
  | nil => rfl
  | cons p ps =>
    simp only [preMask, List.length_cons, List.length_zipWith]
    omega

section Functions

variable (aes : Equiv.Perm AesBlock) {data : Data}

/-- `MyAesIgeEncrypt` is IGE, and `iv` is set to the last blocks. -/
theorem myAesIgeEncrypt_eq (iv : Data) (hdata : data.length % 16 = 0) (hne : data ≠ []) :
    myAesIgeEncrypt aes data iv = (encryptBytes aes iv data, encryptIv aes iv data) := by
  have hpos : 0 < data.length := List.length_pos_iff.2 hne
  have hcount := length_blocksOf (data.length / 16) data
  generalize hblocks : blocksOf (data.length / 16) data = blocks at hcount
  have hsome : blocks ≠ [] := by
    rw [← List.length_pos_iff, hcount]
    omega
  have hlength : (cbcEncrypt aes (blockOf iv) (preMask (blockOf (iv.drop 16)) blocks)).length =
      blocks.length := by
    rw [length_cbcEncrypt, length_preMask]
  have hmode := cbcIgeEncrypt_eq aes (blockOf iv) (blockOf (iv.drop 16)) blocks
  unfold cbcIgeEncrypt at hmode
  have hout : igeEncrypt aes (blockOf iv) (blockOf (iv.drop 16)) blocks ≠ [] := by
    rw [← List.length_pos_iff, length_igeEncrypt, List.length_pos_iff]
    exact hsome
  have hlast : ∀ ivp, (igeEncrypt aes (blockOf iv) (blockOf (iv.drop 16)) blocks).getLastD ivp =
      (igeEncrypt aes (blockOf iv) (blockOf (iv.drop 16)) blocks).getLast hout := by
    intro ivp
    rw [List.getLastD_eq_getLast?, List.getLast?_eq_some_getLast hout, Option.getD_some]
  unfold myAesIgeEncrypt encryptBytes encryptIv
  dsimp only
  rw [hblocks, tmpInBytes_eq, postXor_eq _ _ _ _ hlength, hmode, encryptChain_eq_last, hdata,
    hlast 0, hlast (blockOf iv)]
  simp

theorem myAesIgeDecrypt_eq (iv : Data) (hdata : data.length % 16 = 0) :
    myAesIgeDecrypt aes data iv =
      (decryptBytes aes.symm iv data, decryptIv aes.symm iv data) := by
  unfold myAesIgeDecrypt decryptBytes decryptIv
  rw [decryptLoop_eq, hdata]
  simp

theorem myAesIgeEncrypt_chunks (chunks : List Data) :
    ∀ {iv : Data}, iv.length = 32 → (∀ chunk ∈ chunks, chunk ≠ [] ∧ chunk.length % 16 = 0) →
      inChunks (myAesIgeEncrypt aes) chunks iv =
        (encryptBytes aes iv chunks.flatten, encryptIv aes iv chunks.flatten) := by
  induction chunks with
  | nil =>
    intro iv hiv _
    simp only [inChunks, List.flatten_nil]
    rw [encryptIv_nil aes hiv]
    rfl
  | cons chunk chunks ih =>
    intro iv hiv h
    obtain ⟨hne, hwhole⟩ := h chunk (.head _)
    have hrest := ih (length_encryptIv aes iv chunk)
      fun c hc => h c (.tail chunk hc)
    simp only [inChunks, List.flatten_cons]
    rw [myAesIgeEncrypt_eq aes iv hwhole hne, hrest, encryptBytes_append aes iv _ hwhole,
      encryptIv_append aes iv _ hwhole]

theorem myAesIgeDecrypt_chunks (chunks : List Data) :
    ∀ {iv : Data}, iv.length = 32 → (∀ chunk ∈ chunks, chunk.length % 16 = 0) →
      inChunks (myAesIgeDecrypt aes) chunks iv =
        (decryptBytes aes.symm iv chunks.flatten, decryptIv aes.symm iv chunks.flatten) := by
  induction chunks with
  | nil =>
    intro iv hiv _
    simp only [inChunks, List.flatten_nil]
    rw [decryptIv_nil aes.symm hiv]
    rfl
  | cons chunk chunks ih =>
    intro iv hiv h
    have hwhole := h chunk (.head _)
    have hrest := ih (length_decryptIv aes.symm iv chunk)
      fun c hc => h c (.tail chunk hc)
    simp only [inChunks, List.flatten_cons]
    rw [myAesIgeDecrypt_eq aes iv hwhole, hrest, decryptBytes_append aes.symm iv _ hwhole,
      decryptIv_append aes.symm iv _ hwhole]

/-- `MyAesIgeEncrypt` gives the ciphertext of IGE, `MyAesIgeDecrypt` takes it back, and chunks
with the vector carried over give the same bytes and the same vector as one call. -/
theorem myAesIge_exact (iv : Data) (hiv : iv.length = 32) (hdata : data.length % 16 = 0)
    (hne : data ≠ []) :
    (myAesIgeEncrypt aes data iv).1 = flattenBlocks
        (igeEncrypt aes (blockOf iv) (blockOf (iv.drop 16)) (blocksOf (data.length / 16) data)) ∧
      (myAesIgeDecrypt aes (myAesIgeEncrypt aes data iv).1 iv).1 = data ∧
      ∀ chunks : List Data, chunks.flatten = data →
        (∀ chunk ∈ chunks, chunk ≠ [] ∧ chunk.length % 16 = 0) →
          inChunks (myAesIgeEncrypt aes) chunks iv = myAesIgeEncrypt aes data iv ∧
            inChunks (myAesIgeDecrypt aes) chunks iv = myAesIgeDecrypt aes data iv := by
  have hencrypt := myAesIgeEncrypt_eq aes iv hdata hne
  refine ⟨?_, ?_, fun chunks hflatten h => ⟨?_, ?_⟩⟩
  · rw [hencrypt]
    unfold encryptBytes
    rw [hdata]
    simp
  · have hwhole : (encryptBytes aes iv data).length % 16 = 0 := by
      rw [length_encryptBytes]
      exact hdata
    rw [hencrypt, myAesIgeDecrypt_eq aes iv hwhole]
    exact decryptBytes_encryptBytes aes aes.symm aes.symm_apply_apply iv hdata
  · rw [myAesIgeEncrypt_chunks aes chunks hiv h, hflatten, hencrypt]
  · rw [myAesIgeDecrypt_chunks aes chunks hiv fun chunk hc => (h chunk hc).2, hflatten,
      myAesIgeDecrypt_eq aes iv hdata]

end Functions

/-- Two blocks in one call, and in two. -/
theorem myAesIge_two_blocks :
    (myAesIgeDecrypt (Equiv.refl _) (myAesIgeEncrypt (Equiv.refl _) (List.replicate 32 1)
        (List.replicate 32 2)).1 (List.replicate 32 2)).1 = List.replicate 32 1 ∧
      inChunks (myAesIgeEncrypt (Equiv.refl _)) [List.replicate 16 1, List.replicate 16 1]
          (List.replicate 32 2) =
        myAesIgeEncrypt (Equiv.refl _) (List.replicate 32 1) (List.replicate 32 2) :=
  have hwhole : (List.replicate 32 1 : Data).length % 16 = 0 := by decide
  have h := myAesIge_exact (Equiv.refl _) (List.replicate 32 2) (by decide) hwhole (by decide)
  ⟨h.2.1, (h.2.2 [List.replicate 16 1, List.replicate 16 1] (by decide) (by decide)).1⟩

end TelegramPub.Ports.AesIge
