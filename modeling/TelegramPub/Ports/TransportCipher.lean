import TelegramPub.Verified.CounterMode

/-!
# MTAesCtr

The stream cipher of the transport obfuscation.  `encryptIn:out:len:` works in three
pieces: it uses up the block that an earlier call left, takes whole blocks, and
begins one more block for the rest.  The counter is
a number of 128 bits, the highest byte first (`iterate_ctr128Inc`); `encryptAll_keystream`
says what comes out of the calls.

The block cipher is a parameter, `aes key block`.
-/

namespace TelegramPub.Ports.TransportCipher

open Verified.Bytes Verified.CounterMode

/-- The loop of `ctr128_inc`, from the last byte on. -/
def addWithCarry : Data → Nat → Data
  | [], _ => []
  | b :: bs, c => UInt8.ofNat (c + b.toNat) :: addWithCarry bs ((c + b.toNat) / 256)

/-- `ctr128_inc`. -/
def ctr128Inc (counter : Data) : Data := (addWithCarry counter.reverse 1).reverse

/-- `MTAesCtr`: the key of the cryptor, and `_ivec`, `_num` and `_ecount`. -/
structure AesCtr where
  key : Data
  state : Ctr Data
  deriving DecidableEq

/-- `initWithKey:keyLength:iv:decrypt:`. -/
def initWithKey (key iv : Data) : AesCtr :=
  { key, state := { counter := iv, num := 0, ecount := List.replicate 16 0 } }

section EncryptIn

variable (block : Data → Data)

/-- The bytes combined with the block from position `n` on. -/
def maskFrom (ecount : Data) (n : Nat) (bytes : Data) : Data :=
  (bytes.zipIdx n).map fun (b, i) => b ^^^ ecount.getD i 0

/-- The first loop: what is left of the block. -/
def useUpBlock : Ctr Data → Data → Ctr Data × Data × Data
  | c, [] => (c, [], [])
  | c, b :: bs =>
    if c.num = 0 then (c, [], b :: bs)
    else
      let rest := useUpBlock { c with num := (c.num + 1) % 16 } bs
      (rest.1, (b ^^^ c.mask c.num) :: rest.2.1, rest.2.2)

/-- A new block, and the counter after it. -/
def newBlock (c : Ctr Data) : Ctr Data :=
  { c with counter := ctr128Inc c.counter, ecount := block c.counter }

/-- The second loop: whole blocks.  Every round takes 16 bytes, so the length of the
text is enough fuel. -/
def wholeBlocks : Nat → Ctr Data → Data → Ctr Data × Data × Data
  | 0, c, bytes => (c, [], bytes)
  | fuel + 1, c, bytes =>
    if 16 ≤ bytes.length then
      let c := newBlock block c
      let rest := wholeBlocks fuel { c with num := 0 } (bytes.drop 16)
      (rest.1, maskFrom c.ecount 0 (bytes.take 16) ++ rest.2.1, rest.2.2)
    else (c, [], bytes)

/-- `encryptIn:out:len:`. -/
def encryptIn (c : Ctr Data) (bytes : Data) : Ctr Data × Data :=
  let (c, first, bytes) := useUpBlock c bytes
  let (c, middle, bytes) := wholeBlocks block bytes.length c bytes
  if bytes.isEmpty then (c, first ++ middle)
  else
    let c := newBlock block c
    ({ c with num := bytes.length }, first ++ middle ++ maskFrom c.ecount 0 bytes)

/-! ## It is counter mode -/

theorem useUpBlock_crypt (c : Ctr Data) (bytes : Data) :
    let (c', first, rest) := useUpBlock c bytes
    crypt block ctr128Inc c bytes =
      ((crypt block ctr128Inc c' rest).1, first ++ (crypt block ctr128Inc c' rest).2) ∧
    (rest = [] ∨ c'.num = 0) := by
  induction bytes generalizing c with
  | nil => simp [useUpBlock]
  | cons b bs ih =>
    by_cases hnum : c.num = 0
    · simp [useUpBlock, hnum]
    · have hrest := ih { c with num := (c.num + 1) % 16 }
      simp only [useUpBlock, hnum, if_false]
      refine ⟨?_, hrest.2⟩
      simp only [crypt, refill, hnum, if_false, List.cons_append]
      rw [hrest.1]

/-- Bytes that fit into the block of which some was used. -/
theorem crypt_within {c : Ctr Data} (bytes : Data) (hpos : c.num ≠ 0) (hlt : c.num < 16)
    (hfit : c.num + bytes.length ≤ 16) :
    crypt block ctr128Inc c bytes =
      ({ c with num := (c.num + bytes.length) % 16 }, maskFrom c.ecount c.num bytes) := by
  induction bytes generalizing c with
  | nil => simp [maskFrom, Nat.mod_eq_of_lt hlt]
  | cons b bs ih =>
    rw [List.length_cons] at hfit
    simp only [crypt, refill, hpos, if_false, maskFrom, List.zipIdx_cons, List.map_cons]
    cases bs with
    | nil => simp [Ctr.mask]
    | cons b' bs =>
      rw [List.length_cons] at hfit
      have hnum : (c.num + 1) % 16 = c.num + 1 := Nat.mod_eq_of_lt (by omega)
      have hrest := ih (c := { c with num := c.num + 1 }) (Nat.succ_ne_zero _)
        (by show c.num + 1 < 16; omega)
        (by show c.num + 1 + (b' :: bs).length ≤ 16; rw [List.length_cons]; omega)
      rw [hnum, hrest]
      simp [Ctr.mask, maskFrom, Nat.add_assoc, Nat.add_comm]

theorem crypt_block {c : Ctr Data} (bytes : Data) (hnum : c.num = 0) (hne : bytes ≠ [])
    (hfit : bytes.length ≤ 16) :
    crypt block ctr128Inc c bytes =
      ({ newBlock block c with num := bytes.length % 16 },
        maskFrom (newBlock block c).ecount 0 bytes) := by
  cases bytes with
  | nil => exact absurd rfl hne
  | cons b bs =>
    rw [List.length_cons] at hfit
    have hwithin := crypt_within block (c := { newBlock block c with num := 1 }) bs
      Nat.one_ne_zero (by show 1 < 16; omega) (by show 1 + bs.length ≤ 16; omega)
    simp only [crypt, refill, hnum, if_true, newBlock] at hwithin ⊢
    rw [hwithin]
    simp [maskFrom, Ctr.mask, Nat.add_comm]

theorem wholeBlocks_crypt (fuel : Nat) :
    ∀ (c : Ctr Data) (bytes : Data), c.num = 0 → bytes.length ≤ fuel →
      let (c', middle, rest) := wholeBlocks block fuel c bytes
      crypt block ctr128Inc c bytes =
        ((crypt block ctr128Inc c' rest).1, middle ++ (crypt block ctr128Inc c' rest).2) ∧
      c'.num = 0 ∧ rest.length < 16 := by
  induction fuel with
  | zero =>
    grind [wholeBlocks]
  | succ fuel ih =>
    intro c bytes hnum hlength
    simp only [wholeBlocks]
    split
    · rename_i hlong
      have hrest := ih { newBlock block c with num := 0 } (bytes.drop 16) rfl
        (by rw [List.length_drop]; omega)
      have htake : (bytes.take 16).length = 16 := by rw [List.length_take]; omega
      have hhead := crypt_block block (bytes.take 16) hnum
        (by intro hnil; rw [hnil] at htake; cases htake) htake.le
      rw [htake] at hhead
      dsimp only at hrest ⊢
      refine ⟨?_, hrest.2⟩
      have hsplit := crypt_append block ctr128Inc c (bytes.take 16) (bytes.drop 16)
      rw [List.take_append_drop, hhead] at hsplit
      rw [hsplit]
      rw [show (16 : Nat) % 16 = 0 from rfl, hrest.1, List.append_assoc]
    · grind

/-- The three loops are counter mode. -/
theorem encryptIn_eq_crypt (c : Ctr Data) (bytes : Data) :
    encryptIn block c bytes = crypt block ctr128Inc c bytes := by
  have hfirst := useUpBlock_crypt block c bytes
  unfold encryptIn
  generalize useUpBlock c bytes = used at hfirst
  obtain ⟨c₁, first, rest⟩ := used
  dsimp only at hfirst ⊢
  rcases hfirst.2 with hnil | hnum
  · simp [hfirst.1, hnil, wholeBlocks]
  · have hmiddle := wholeBlocks_crypt block rest.length c₁ rest hnum (Nat.le_refl _)
    generalize wholeBlocks block rest.length c₁ rest = blocks at hmiddle
    obtain ⟨c₂, middle, rest'⟩ := blocks
    dsimp only at hmiddle ⊢
    rw [hfirst.1, hmiddle.1]
    cases rest' with
    | nil => simp
    | cons b bs =>
      grind [crypt_block]

end EncryptIn

section Encrypt

variable (aes : Data → Data → Data)

/-- `encryptIn:out:len:` of the object. -/
def encrypt (a : AesCtr) (bytes : Data) : AesCtr × Data :=
  ({ a with state := (encryptIn (aes a.key) a.state bytes).1 },
    (encryptIn (aes a.key) a.state bytes).2)

/-- Two calls in a row are one call. -/
theorem encrypt_append (a : AesCtr) (xs ys : Data) :
    encrypt aes a (xs ++ ys) =
      ((encrypt aes (encrypt aes a xs).1 ys).1,
        (encrypt aes a xs).2 ++ (encrypt aes (encrypt aes a xs).1 ys).2) := by
  unfold encrypt
  simp only [encryptIn_eq_crypt, crypt_append]

@[simp] theorem encrypt_nil (a : AesCtr) : encrypt aes a [] = (a, []) := rfl

@[simp] theorem length_encrypt (a : AesCtr) (xs : Data) :
    (encrypt aes a xs).2.length = xs.length := by
  unfold encrypt
  simp only [encryptIn_eq_crypt, length_crypt]

/-- The other side, with the same key and position, reads the text. -/
theorem encrypt_encrypt (a : AesCtr) (xs : Data) :
    encrypt aes a (encrypt aes a xs).2 = ((encrypt aes a xs).1, xs) := by
  unfold encrypt
  simp only [encryptIn_eq_crypt, crypt_crypt]

theorem encrypt_position (a : AesCtr) {xs ys : Data} (h : xs.length = ys.length) :
    (encrypt aes a xs).1 = (encrypt aes a ys).1 := by
  unfold encrypt
  simp only [encryptIn_eq_crypt, crypt_position (aes a.key) ctr128Inc a.state h]

theorem take_encrypt (a : AesCtr) (xs ys : Data) :
    (encrypt aes a (xs ++ ys)).2.take xs.length = (encrypt aes a xs).2 := by
  rw [encrypt_append]
  exact List.take_left' (length_encrypt aes a xs)

theorem drop_encrypt (a : AesCtr) (xs ys : Data) :
    (encrypt aes a (xs ++ ys)).2.drop xs.length =
      (encrypt aes (encrypt aes a xs).1 ys).2 := by
  rw [encrypt_append]
  exact List.drop_left' (length_encrypt aes a xs)

end Encrypt

theorem leNat_addWithCarry (bs : Data) :
    ∀ c, leNat (addWithCarry bs c) = (leNat bs + c) % 256 ^ bs.length := by
  induction bs with
  | nil => intro c; simp [addWithCarry, leNat, Nat.mod_one]
  | cons b bs ih =>
    intro c
    have hsum : leNat (b :: bs) + c =
        (c + b.toNat) % 256 + 256 * (leNat bs + (c + b.toNat) / 256) := by
      simp only [leNat]
      omega
    have hbyte : (UInt8.ofNat (c + b.toNat)).toNat = (c + b.toNat) % 256 :=
      UInt8.toNat_ofNat'
    rw [hsum, List.length_cons, Nat.pow_succ, Nat.mul_comm (256 ^ bs.length)]
    simp only [addWithCarry, leNat]
    rw [hbyte, ih, Nat.mod_mul, Nat.add_mul_mod_self_left, Nat.add_mul_div_left _ _ (by omega),
      Nat.mod_mod, Nat.div_eq_of_lt (Nat.mod_lt _ (by omega)), Nat.zero_add]

theorem length_addWithCarry (bs : Data) : ∀ c, (addWithCarry bs c).length = bs.length := by
  induction bs with
  | nil => intro c; rfl
  | cons b bs ih => intro c; simp [addWithCarry, ih]

theorem length_ctr128Inc (counter : Data) : (ctr128Inc counter).length = counter.length := by
  unfold ctr128Inc
  rw [List.length_reverse, length_addWithCarry, List.length_reverse]

theorem beNat_ctr128Inc {counter : Data} (h : counter.length = 16) :
    beNat (ctr128Inc counter) = (beNat counter + 1) % 2 ^ 128 := by
  unfold ctr128Inc beNat
  rw [List.reverse_reverse, leNat_addWithCarry, List.length_reverse, h]
  rfl

/-- A counter of 128 bits. -/
def counterBytes (n : Nat) : Data := (natLE 16 n).reverse

theorem counterBytes_beNat {counter : Data} (h : counter.length = 16) :
    counterBytes (beNat counter) = counter := by
  have hlength : counter.reverse.length = 16 := by rw [List.length_reverse, h]
  unfold counterBytes beNat
  rw [← hlength, natLE_leNat, List.reverse_reverse]

theorem iterate_ctr128Inc {iv : Data} (h : iv.length = 16) (k : Nat) :
    (ctr128Inc^[k] iv).length = 16 ∧ beNat (ctr128Inc^[k] iv) = (beNat iv + k) % 2 ^ 128 := by
  induction k with
  | zero =>
    have hlt : beNat iv < 256 ^ 16 := by
      have hbound := leNat_lt iv.reverse
      rw [List.length_reverse, h] at hbound
      exact hbound
    exact ⟨h, (Nat.mod_eq_of_lt hlt).symm⟩
  | succ k ih =>
    rw [Function.iterate_succ_apply', length_ctr128Inc, beNat_ctr128Inc ih.1, ih.2]
    exact ⟨ih.1, by omega⟩

section Calls

variable (aes : Data → Data → Data)

/-- Calls in a row, and what each gives. -/
def encryptAll : AesCtr → List Data → AesCtr × List Data
  | a, [] => (a, [])
  | a, chunk :: chunks =>
    let rest := encryptAll (encrypt aes a chunk).1 chunks
    (rest.1, (encrypt aes a chunk).2 :: rest.2)

/-- Calls in a row are one call. -/
theorem encryptAll_flatten (chunks : List Data) :
    ∀ a, ((encryptAll aes a chunks).1, (encryptAll aes a chunks).2.flatten) =
      encrypt aes a chunks.flatten := by
  induction chunks with
  | nil => intro a; simp [encryptAll]
  | cons chunk chunks ih =>
    grind [encrypt, encryptAll, encrypt_append]

/-- The byte of the stream at some place: the blocks `E(iv)`, `E(iv + 1)` and so on. -/
def streamByte (key iv : Data) (i : Nat) : UInt8 :=
  (aes key (counterBytes ((beNat iv + i / 16) % 2 ^ 128))).getD (i % 16) 0

/-- A text in one call. -/
theorem encrypt_keystream (key : Data) {iv : Data} (hiv : iv.length = 16) (bytes : Data) :
    (encrypt aes (initWithKey key iv) bytes).2 =
      bytes.zipIdx.map fun (b, i) => b ^^^ streamByte aes key iv i := by
  have hstart : At (aes key) ctr128Inc iv 0 (initWithKey key iv).state :=
    ⟨rfl, fun _ => rfl, fun hused => absurd rfl hused⟩
  have hstream : ∀ i, keystream (aes key) ctr128Inc iv i = streamByte aes key iv i := by
    intro i
    obtain ⟨hlength, hcounter⟩ := iterate_ctr128Inc hiv (i / 16)
    unfold keystream streamByte
    rw [← hcounter, counterBytes_beNat hlength]
  show (encryptIn (aes key) (initWithKey key iv).state bytes).2 = _
  rw [encryptIn_eq_crypt, (crypt_keystream bytes hstart).1]
  simp only [hstream]

/-- Whatever the chunks, the calls give the text combined with the stream, and another
object with the same key and vector takes that back, whatever its chunks. -/
theorem encryptAll_keystream (key iv : Data) (hiv : iv.length = 16) (chunks : List Data) :
    (encryptAll aes (initWithKey key iv) chunks).2.flatten =
        (encrypt aes (initWithKey key iv) chunks.flatten).2 ∧
      (encrypt aes (initWithKey key iv) chunks.flatten).2 =
        (chunks.flatten.zipIdx.map fun (b, i) => b ^^^ streamByte aes key iv i) ∧
      ∀ others : List Data,
        others.flatten = (encryptAll aes (initWithKey key iv) chunks).2.flatten →
          (encryptAll aes (initWithKey key iv) others).2.flatten = chunks.flatten := by
  have hall : ∀ chunks, (encryptAll aes (initWithKey key iv) chunks).2.flatten =
      (encrypt aes (initWithKey key iv) chunks.flatten).2 :=
    fun chunks => congrArg Prod.snd (encryptAll_flatten aes chunks (initWithKey key iv))
  refine ⟨hall chunks, encrypt_keystream aes key hiv chunks.flatten, fun others hothers => ?_⟩
  rw [hall others, hothers, hall chunks, encrypt_encrypt]

/-- A text in three chunks, one of them empty, that is read in two. -/
theorem chunks_read :
    (encryptAll (fun _ block => block) (initWithKey [] (List.replicate 16 0))
          [[1, 2], [], [3]]).2.flatten =
        (encrypt (fun _ block => block) (initWithKey [] (List.replicate 16 0)) [1, 2, 3]).2 ∧
      (encryptAll (fun _ block => block) (initWithKey [] (List.replicate 16 0))
          [[1], [2, 3]]).2.flatten = [1, 2, 3] :=
  have h := encryptAll_keystream (fun _ block => block) [] (List.replicate 16 0) rfl
    [[1, 2], [], [3]]
  ⟨h.1, h.2.2 [[1], [2, 3]] (by decide +kernel)⟩

end Calls

end TelegramPub.Ports.TransportCipher
