import TelegramPub.Verified.BigEndian
import TelegramPub.Verified.Memory
import TelegramPub.Ports.TLBuffer

/-!
# Backup addresses of a datacenter

`MTIPDataDecode` takes a block of 256 bytes that the owner of a key has made: 32 bytes for the
key and the initial vector, 208 bytes that a hash covers, and 16 bytes of the hash.  The length
of the data stands in front of them, and is compared with 208 although the data begin 4 bytes
later: 208 bytes of data reach 4 bytes into the hash.  The parser gets there with 23 addresses,
and with no other number of them (`authenticated_iff`).

The buffer is a byte string whose loads and stores are checked; one outside it is `none`.
-/

namespace TelegramPub.Ports.BackupData

open Verified.Bytes Verified.ByteReader Verified.Memory Ports.TLBuffer

/-- The public key, of at most 2048 bits. -/
structure RsaKey where
  n : Nat
  e : Nat
  pos : 0 < n
  le_pow : n ≤ 256 ^ 256

/-- The routines for the block. -/
structure Crypto where
  /-- `AES_cbc_encrypt` with `AES_DECRYPT`, of a key, an initial vector and data -/
  aesCbcDecrypt : Data → Data → Data → Data
  sha256 : Data → Data
  length_aesCbcDecrypt : ∀ key iv data, (aesCbcDecrypt key iv data).length = data.length

/-- `decrypt_TL_data`. -/
def decryptTLData (crypto : Crypto) (rsaKey : RsaKey) (buffer : Data) : Option (Option Data) := do
  let x := beNat (← load buffer 0 256)
  let y := x ^ rsaKey.e % rsaKey.n
  let l := 256 - byteCount y
  let bytes ← store buffer 0 (List.replicate l 0)
  let bytes ← store bytes l (natBE y)
  let iv ← load bytes 16 16
  let aeskey ← load bytes 0 32
  let bytes ← store bytes 32 (crypto.aesCbcDecrypt aeskey iv (← load bytes 32 (256 - 32)))
  let sha256Out := crypto.sha256 (← load bytes 32 (256 - 32 - 16))
  if (← load bytes (256 - 16) 16) = sha256Out.take 16 then
    let dataLen ← loadLE bytes 32 4
    if dataLen ≠ 0 ∧ dataLen ≤ 256 - 32 - 16 ∧ dataLen % 4 = 0 then
      return some (← load bytes (32 + 4) dataLen)
    else return none
  else return none

/-! ## The data in it -/

/-- `MTBackupDatacenterAddress`. -/
structure BackupDatacenterAddress where
  ip : String
  port : Int
  deriving DecidableEq

/-- `MTBackupDatacenterData`. -/
structure BackupDatacenterData where
  datacenterId : Int
  timestamp : Int
  expirationDate : Int
  addressList : List BackupDatacenterAddress
  deriving DecidableEq

/-- `"%d.%d.%d.%d"`. -/
def ipString (ip : Int) : String :=
  s!"{(ip >>> (24 : Nat)) % 256}.{(ip >>> (16 : Nat)) % 256}.{(ip >>> (8 : Nat)) % 256}.{ip % 256}"

def readAddress : Reader BackupDatacenterAddress := do
  let ip ← readInt32
  let port ← readInt32
  return { ip := ipString ip, port }

/-- The part of `MTIPDataDecode` that reads the data.  The signature is compared with an
unsigned constant. -/
def readBackupData : Reader BackupDatacenterData := do
  let signature ← readInt32
  if signature % 2 ^ 32 ≠ 0xd997c3c5 then giveUp
  else
    let timestamp ← readInt32
    let expirationDate ← readInt32
    let datacenterId ← readInt32
    let vectorSignature ← readInt32
    if vectorSignature ≠ 0x1cb5c415 then giveUp
    else
      let count ← readInt32
      let addressList ← readVector readAddress count
      return { datacenterId, timestamp, expirationDate, addressList }

/-- What the parser has made, and how many bytes it has read for it. -/
structure Decoded where
  value : BackupDatacenterData
  bytesRead : Nat
  deriving DecidableEq

def parseBackupData (result : Data) : Option Decoded :=
  match readBackupData (Cursor.start result) with
  | .ok (value, c) => some { value, bytesRead := c.offset }
  | .error _ => none

/-- `MTIPDataDecode`. -/
def ipDataDecode (crypto : Crypto) (rsaKey : RsaKey) (data : Data) : Option (Option Decoded) := do
  let buffer ← load data 0 256
  let result ← decryptTLData crypto rsaKey buffer
  return result.bind parseBackupData

/-- The positions in the block that the hash covers. -/
def Hashed (position : Nat) : Prop := 32 ≤ position ∧ position < 32 + 208

/-- Nothing outside the buffer is accessed, and what a result was read from is hashed.  The
data begin at position 36. -/
def Authenticated (outcome : Option (Option Decoded)) : Prop :=
  ∃ result, outcome = some result ∧ ∀ d ∈ result, ∀ i < d.bytesRead, Hashed (36 + i)

/-- The block behind the key. -/
def decryptedBlock (crypto : Crypto) (rsaKey : RsaKey) (data : Data) : Data :=
  let bytes := natBEWidth 256 (beNat data ^ rsaKey.e % rsaKey.n)
  bytes.take 32 ++
    crypto.aesCbcDecrypt (bytes.take 32) ((bytes.drop 16).take 16) (bytes.drop 32)

/-- The number at a position of a byte string. -/
def wordAt (bytes : Data) (position : Nat) : Nat := leNat ((bytes.drop position).take 4)

def HashMatches (crypto : Crypto) (block : Data) : Prop :=
  block.drop 240 = (crypto.sha256 ((block.drop 32).take 208)).take 16

/-- The block is full: it carries the longest data, and 23 addresses in it. -/
structure FullBlock (crypto : Crypto) (block : Data) : Prop where
  hash : HashMatches crypto block
  dataLen : wordAt block 32 = 208
  signature : wordAt block 36 = 0xd997c3c5
  vectorSignature : wordAt block 52 = 0x1cb5c415
  count : wordAt block 56 = 23

/-! ## The block is decrypted in the buffer -/

instance (crypto : Crypto) (block : Data) : Decidable (HashMatches crypto block) :=
  inferInstanceAs (Decidable (_ = _))

theorem exp_lt (rsaKey : RsaKey) (x : Nat) : x ^ rsaKey.e % rsaKey.n < 256 ^ 256 :=
  lt_of_lt_of_le (Nat.mod_lt _ rsaKey.pos) rsaKey.le_pow

theorem length_decryptedBlock (crypto : Crypto) (rsaKey : RsaKey) (data : Data) :
    (decryptedBlock crypto rsaKey data).length = 256 := by
  simp [decryptedBlock, crypto.length_aesCbcDecrypt]

variable {bytes data block : Data}

theorem load_all (h : bytes.length = 256) : load bytes 0 256 = some bytes := by
  rw [load_of_le (by omega), List.drop_zero, List.take_of_length_le (by omega)]

/-- A number is written behind zero bytes. -/
theorem store_number {buffer : Data} {y : Nat} (hlength : buffer.length = 256)
    (hy : y < 256 ^ 256) :
    (do
      let bytes ← store buffer 0 (List.replicate (256 - byteCount y) 0)
      store bytes (256 - byteCount y) (natBE y)) = some (natBEWidth 256 y) := by
  have hcount : byteCount y ≤ 256 := (byteCount_le_iff y 256).2 hy
  have hzeros : 0 + (List.replicate (256 - byteCount y) (0 : UInt8)).length ≤ buffer.length := by
    rw [List.length_replicate]
    omega
  rw [store_of_le hzeros, List.take_zero, List.nil_append, List.length_replicate, Nat.zero_add,
    Option.bind_eq_bind, Option.bind_some]
  have hnumber : 256 - byteCount y + (natBE y).length ≤
      (List.replicate (256 - byteCount y) (0 : UInt8) ++
        buffer.drop (256 - byteCount y)).length := by
    rw [List.length_append, List.length_replicate, List.length_drop, length_natBE]
    omega
  have htake : (List.replicate (256 - byteCount y) (0 : UInt8) ++
      buffer.drop (256 - byteCount y)).take (256 - byteCount y) =
        List.replicate (256 - byteCount y) 0 :=
    List.take_left' List.length_replicate
  have hdrop : (List.replicate (256 - byteCount y) (0 : UInt8) ++
      buffer.drop (256 - byteCount y)).drop (256 - byteCount y + (natBE y).length) = [] := by
    rw [List.drop_eq_nil_iff, List.length_append, List.length_replicate, List.length_drop,
      length_natBE]
    omega
  rw [store_of_le hnumber, htake, hdrop, List.append_nil, zeros_append_natBE hy]

theorem store_rest {plain : Data} (hbytes : bytes.length = 256) (hplain : plain.length = 224)
    : store bytes 32 plain = some (bytes.take 32 ++ plain) := by
  have hdrop : bytes.drop (32 + plain.length) = [] := by
    rw [List.drop_eq_nil_iff]
    omega
  rw [store_of_le (by omega), hdrop, List.append_nil]

/-- The data that the block carries. -/
def embeddedData (crypto : Crypto) (block : Data) : Option Data :=
  if HashMatches crypto block ∧ wordAt block 32 ≠ 0 ∧ wordAt block 32 ≤ 208 ∧
      wordAt block 32 % 4 = 0 then
    some ((block.drop 36).take (wordAt block 32))
  else none

/-- No access is outside the buffer. -/
theorem decryptTLData_eq (crypto : Crypto) (rsaKey : RsaKey) {buffer : Data}
    (h : buffer.length = 256) :
    decryptTLData crypto rsaKey buffer =
      some (embeddedData crypto (decryptedBlock crypto rsaKey buffer)) := by
  have hnumber := store_number h (exp_lt rsaKey (beNat buffer))
  have hblock := length_decryptedBlock crypto rsaKey buffer
  have hbytes := length_natBEWidth 256 (beNat buffer ^ rsaKey.e % rsaKey.n)
  rw [decryptTLData, load_all h]
  simp only [Option.bind_eq_bind, Option.bind_some] at hnumber ⊢
  rw [← Option.bind_assoc, hnumber, Option.bind_some]
  generalize hB : natBEWidth 256 (beNat buffer ^ rsaKey.e % rsaKey.n) = bytes at hbytes
  have hiv : load bytes 16 16 = some ((bytes.drop 16).take 16) := load_of_le (by omega)
  have hkey : load bytes 0 32 = some (bytes.take 32) := by
    rw [load_of_le (by omega), List.drop_zero]
  have hcipher : load bytes 32 (256 - 32) = some (bytes.drop 32) := by
    rw [load_of_le (by omega), List.take_of_length_le (by rw [List.length_drop]; omega)]
  rw [hiv, Option.bind_some, hkey, Option.bind_some, hcipher, Option.bind_some]
  have hplain : (crypto.aesCbcDecrypt (bytes.take 32) ((bytes.drop 16).take 16)
      (bytes.drop 32)).length = 224 := by
    rw [crypto.length_aesCbcDecrypt, List.length_drop, hbytes]
  rw [store_rest hbytes hplain, Option.bind_some]
  have heq : decryptedBlock crypto rsaKey buffer = bytes.take 32 ++
      crypto.aesCbcDecrypt (bytes.take 32) ((bytes.drop 16).take 16) (bytes.drop 32) := by
    rw [← hB]
    rfl
  rw [← heq]
  generalize decryptedBlock crypto rsaKey buffer = block at hblock
  have hhashed : load block 32 (256 - 32 - 16) = some ((block.drop 32).take 208) :=
    load_of_le (by omega)
  have hhash : load block (256 - 16) 16 = some (block.drop 240) := by
    rw [load_of_le (by omega), List.take_of_length_le (by rw [List.length_drop]; omega)]
  have hlen : loadLE block 32 4 = some (wordAt block 32) := by
    rw [loadLE, load_of_le (by omega)]
    rfl
  rw [hhashed, Option.bind_some, hhash, Option.bind_some, hlen]
  by_cases hmatch : block.drop 240 = (crypto.sha256 ((block.drop 32).take 208)).take 16
  · rw [if_pos hmatch, Option.bind_some]
    by_cases hfits : wordAt block 32 ≠ 0 ∧ wordAt block 32 ≤ 208 ∧ wordAt block 32 % 4 = 0
    · have hdata : load block (32 + 4) (wordAt block 32) =
          some ((block.drop 36).take (wordAt block 32)) := load_of_le (by omega)
      rw [if_pos hfits, hdata, embeddedData, if_pos ⟨hmatch, hfits⟩]
      rfl
    · rw [if_neg hfits, embeddedData, if_neg fun hboth => hfits hboth.2]
      rfl
  · rw [if_neg hmatch, embeddedData, if_neg fun hboth => hmatch hboth.1]
    rfl

theorem ipDataDecode_eq (crypto : Crypto) (rsaKey : RsaKey) (h : data.length = 256) :
    ipDataDecode crypto rsaKey data =
      some ((embeddedData crypto (decryptedBlock crypto rsaKey data)).bind parseBackupData) := by
  rw [ipDataDecode, load_all h, Option.bind_eq_bind, Option.bind_some,
    decryptTLData_eq crypto rsaKey h]
  rfl

theorem fixedWidth_readInt32 : FixedWidth readInt32 4 :=
  (fixedWidth_take 4).bind fun bytes => fixedWidth_pure (int32OfBytes bytes)

theorem fixedWidth_readAddress : FixedWidth readAddress 8 :=
  fixedWidth_readInt32.bind fun ip => fixedWidth_readInt32.bind fun port =>
    fixedWidth_pure (BackupDatacenterAddress.mk (ipString ip) port)

variable {position : Nat}

theorem readInt32_at {value : Int} {c : Cursor}
    (h : readInt32 ((Cursor.start data).advance position) = .ok (value, c)) :
    value = int32 (wordAt data position) ∧ c = (Cursor.start data).advance (position + 4) := by
  obtain ⟨hle, rfl⟩ := fixedWidth_readInt32.consumes h
  refine ⟨?_, Cursor.advance_advance _ _ _⟩
  rw [readInt32, bind_apply, take_of_le hle] at h
  exact (Prod.mk.inj (Except.ok.inj h)).1.symm

theorem readInt32_succeeds (h : position + 4 ≤ data.length) :
    readInt32 ((Cursor.start data).advance position) =
      .ok (int32 (wordAt data position), (Cursor.start data).advance (position + 4)) := by
  have hle : 4 ≤ ((Cursor.start data).advance position).rest.length := by
    rw [Cursor.length_advance_start]
    omega
  obtain ⟨value, hvalue⟩ := fixedWidth_readInt32.succeeds hle
  obtain ⟨hword, hcursor⟩ := readInt32_at hvalue
  rw [hvalue, hcursor, hword]

/-- What the parser expects of the first 24 bytes. -/
structure Header (data : Data) : Prop where
  signature : wordAt data 0 = 0xd997c3c5
  vectorSignature : wordAt data 16 = 0x1cb5c415

/-- The number of turns of the loop. -/
def addressCount (data : Data) : Nat := (int32 (wordAt data 20)).toNat

theorem wordAt_lt (bytes : Data) (position : Nat) : wordAt bytes position < 2 ^ 32 := by
  calc
    wordAt bytes position < 256 ^ ((bytes.drop position).take 4).length := leNat_lt _
    _ ≤ 256 ^ 4 := Nat.pow_le_pow_right (by decide) (List.length_take_le _ _)
    _ = 2 ^ 32 := by norm_num

theorem int32_emod (n : Int) : int32 n % 2 ^ 32 = n % 2 ^ 32 := Int.bmod_emod

/-- A word is read as a number below `2 ^ 31` if and only if it is that number. -/
theorem int32_wordAt_eq_iff (bytes : Data) (position : Nat) {k : Nat} (hk : k < 2 ^ 31) :
    int32 (wordAt bytes position) = k ↔ wordAt bytes position = k := by
  have hword := wordAt_lt bytes position
  constructor
  · grind [int32_emod, wordAt]
  · intro h
    rw [h, int32_of_range (by omega) (by omega)]

theorem int32_wordAt_emod (bytes : Data) (position : Nat) :
    int32 (wordAt bytes position) % 2 ^ 32 = wordAt bytes position := by
  have hword := wordAt_lt bytes position
  rw [int32_emod]
  omega

theorem readBackupData_ok {value : BackupDatacenterData} {c : Cursor}
    (h : readBackupData (Cursor.start data) = .ok (value, c)) :
    Header data ∧ 24 + addressCount data * 8 ≤ data.length ∧
      c.offset = 24 + addressCount data * 8 := by
  rw [readBackupData, ← (Cursor.start data).advance_zero] at h
  obtain ⟨signature, c₁, h₁, h⟩ := bind_eq_ok.1 h
  obtain ⟨hfirst, rfl⟩ := readInt32_at h₁
  rw [hfirst] at h
  by_cases hsignature : int32 (wordAt data 0) % 2 ^ 32 ≠ 0xd997c3c5
  · rw [if_pos hsignature] at h
    exact absurd h giveUp_ne_ok
  rw [if_neg hsignature] at h
  obtain ⟨timestamp, c₂, h₂, h⟩ := bind_eq_ok.1 h
  obtain ⟨-, rfl⟩ := readInt32_at h₂
  obtain ⟨expirationDate, c₃, h₃, h⟩ := bind_eq_ok.1 h
  obtain ⟨-, rfl⟩ := readInt32_at h₃
  obtain ⟨datacenterId, c₄, h₄, h⟩ := bind_eq_ok.1 h
  obtain ⟨-, rfl⟩ := readInt32_at h₄
  obtain ⟨vectorSignature, c₅, h₅, h⟩ := bind_eq_ok.1 h
  obtain ⟨hfifth, rfl⟩ := readInt32_at h₅
  rw [hfifth] at h
  by_cases hvector : int32 (wordAt data 16) ≠ 0x1cb5c415
  · rw [if_pos hvector] at h
    exact absurd h giveUp_ne_ok
  rw [if_neg hvector] at h
  obtain ⟨count, c₆, h₆, h⟩ := bind_eq_ok.1 h
  obtain ⟨hsixth, rfl⟩ := readInt32_at h₆
  rw [hsixth] at h
  obtain ⟨addressList, c₇, h₇, h⟩ := bind_eq_ok.1 h
  obtain ⟨hle, rfl⟩ := (fixedWidth_readAddress.replicateM _).consumes h₇
  have hcursor : c = ((Cursor.start data).advance 24).advance (addressCount data * 8) :=
    (Prod.mk.inj (Except.ok.inj h)).2.symm
  rw [Cursor.length_advance_start] at hle
  have hcount : 24 ≤ data.length := by
    have hlast := (fixedWidth_readInt32.consumes h₆).1
    rw [Cursor.length_advance_start] at hlast
    omega
  have hlist : addressCount data * 8 ≤ data.length - 24 := hle
  refine ⟨⟨?_, ?_⟩, by omega, ?_⟩
  · grind [int32_wordAt_emod]
  · exact (int32_wordAt_eq_iff data 16 (by decide)).1 (not_not.1 hvector)
  · rw [hcursor, Cursor.advance_advance]
    exact Nat.zero_add _

theorem readBackupData_succeeds (h : Header data)
    (hlength : 24 + addressCount data * 8 ≤ data.length) :
    ∃ value, readBackupData (Cursor.start data) =
      .ok (value, (Cursor.start data).advance (24 + addressCount data * 8)) := by
  have hsignature : ¬ int32 (wordAt data 0) % 2 ^ 32 ≠ 0xd997c3c5 := by
    rw [int32_wordAt_emod, h.signature]
    decide
  have hvector : ¬ int32 (wordAt data 16) ≠ 0x1cb5c415 :=
    not_not.2 ((int32_wordAt_eq_iff data 16 (by decide)).2 h.vectorSignature)
  have hrest : addressCount data * 8 ≤ ((Cursor.start data).advance 24).rest.length := by
    rw [Cursor.length_advance_start]
    omega
  obtain ⟨addressList, hlist⟩ :=
    (fixedWidth_readAddress.replicateM (addressCount data)).succeeds hrest
  let value : BackupDatacenterData :=
    { datacenterId := int32 (wordAt data 12)
      timestamp := int32 (wordAt data 4)
      expirationDate := int32 (wordAt data 8)
      addressList }
  refine ⟨value, ?_⟩
  rw [readBackupData, ← (Cursor.start data).advance_zero]
  refine bind_eq_ok.2 ⟨_, _, readInt32_succeeds (by omega), ?_⟩
  rw [if_neg hsignature]
  refine bind_eq_ok.2 ⟨_, _, readInt32_succeeds (by omega), ?_⟩
  refine bind_eq_ok.2 ⟨_, _, readInt32_succeeds (by omega), ?_⟩
  refine bind_eq_ok.2 ⟨_, _, readInt32_succeeds (by omega), ?_⟩
  refine bind_eq_ok.2 ⟨_, _, readInt32_succeeds (by omega), ?_⟩
  rw [if_neg hvector]
  refine bind_eq_ok.2 ⟨_, _, readInt32_succeeds (by omega), ?_⟩
  refine bind_eq_ok.2 ⟨_, _, hlist, ?_⟩
  rw [Cursor.advance_advance]
  rfl

theorem wordAt_data {len : Nat} (h : position + 4 ≤ len) :
    wordAt ((block.drop 36).take len) position = wordAt block (36 + position) := by
  rw [wordAt, wordAt, List.drop_take, List.take_take, List.drop_drop, Nat.min_eq_left (by omega)]

theorem length_data {len : Nat} (hblock : block.length = 256) (h : len ≤ 208) :
    ((block.drop 36).take len).length = len := by
  rw [List.length_take, List.length_drop]
  omega

theorem addressCount_eq_iff (data : Data) {k : Nat} (hpos : 0 < k) (hk : k < 2 ^ 31) :
    addressCount data = k ↔ wordAt data 20 = k := by
  rw [← int32_wordAt_eq_iff data 20 hk, addressCount]
  omega

theorem FullBlock.of_read {crypto : Crypto} {d : Decoded} (hblock : block.length = 256)
    (h : (embeddedData crypto block).bind parseBackupData = some d) (hread : 204 < d.bytesRead) :
    FullBlock crypto block := by
  obtain ⟨data, hdata, hparse⟩ := Option.bind_eq_some_iff.1 h
  unfold embeddedData at hdata
  split at hdata
  · rename_i hcarried
    obtain ⟨hmatch, hne, hle, hmod⟩ := hcarried
    obtain rfl := Option.some.inj hdata
    unfold parseBackupData at hparse
    split at hparse
    · rename_i value c hok
      obtain rfl := Option.some.inj hparse
      obtain ⟨hheader, hlength, hoffset⟩ := readBackupData_ok hok
      rw [length_data hblock hle] at hlength
      have hread' : 204 < c.offset := hread
      have hcount : addressCount ((block.drop 36).take (wordAt block 32)) = 23 := by omega
      have hsig := hheader.signature
      have hvec := hheader.vectorSignature
      rw [addressCount_eq_iff _ (by decide) (by decide), wordAt_data (by omega)] at hcount
      rw [wordAt_data (by omega)] at hsig hvec
      exact ⟨hmatch, by omega, hsig, hvec, hcount⟩
    · cases hparse
  · cases hdata

/-- Data that its addresses fill are read to their end. -/
theorem addresses_read {crypto : Crypto} {count : Nat} (hblock : block.length = 256)
    (hpos : 0 < count) (hcount : count ≤ 23) (hhash : HashMatches crypto block)
    (hlen : wordAt block 32 = 24 + count * 8) (hsignature : wordAt block 36 = 0xd997c3c5)
    (hvector : wordAt block 52 = 0x1cb5c415) (hvalue : wordAt block 56 = count) :
    ∃ value, (embeddedData crypto block).bind parseBackupData =
      some { value, bytesRead := 24 + count * 8 } := by
  have hdata : embeddedData crypto block = some ((block.drop 36).take (24 + count * 8)) := by
    rw [embeddedData, if_pos ⟨hhash, by omega, by omega, by omega⟩, hlen]
  have hheader : Header ((block.drop 36).take (24 + count * 8)) := by
    constructor
    · rw [wordAt_data (by omega)]
      exact hsignature
    · rw [wordAt_data (by omega)]
      exact hvector
  have haddresses : addressCount ((block.drop 36).take (24 + count * 8)) = count := by
    rw [addressCount_eq_iff _ hpos (by omega), wordAt_data (by omega)]
    exact hvalue
  obtain ⟨value, hvalue⟩ := readBackupData_succeeds hheader (by
    rw [haddresses, length_data hblock (by omega)])
  refine ⟨value, ?_⟩
  rw [hdata, Option.bind_some, parseBackupData, hvalue, haddresses]
  exact congrArg some (congrArg (Decoded.mk value) (Nat.zero_add _))

theorem FullBlock.read {crypto : Crypto} (hblock : block.length = 256)
    (h : FullBlock crypto block) :
    ∃ value, (embeddedData crypto block).bind parseBackupData =
      some { value, bytesRead := 208 } :=
  addresses_read hblock (by decide) le_rfl h.hash h.dataLen h.signature h.vectorSignature h.count

/-- A block is read from the hashed bytes alone if and only if it is not full. -/
theorem authenticated_iff (crypto : Crypto) (rsaKey : RsaKey) (data : Data)
    (h : data.length = 256) :
    Authenticated (ipDataDecode crypto rsaKey data) ↔
      ¬ FullBlock crypto (decryptedBlock crypto rsaKey data) := by
  have hblock := length_decryptedBlock crypto rsaKey data
  rw [ipDataDecode_eq crypto rsaKey h]
  constructor
  · rintro ⟨result, hresult, hread⟩ hfull
    obtain ⟨value, hvalue⟩ := hfull.read hblock
    rw [hvalue] at hresult
    obtain rfl := Option.some.inj hresult
    have hlast := (hread _ rfl 204 (show 204 < 208 by decide)).2
    omega
  · intro hnot
    refine ⟨_, rfl, ?_⟩
    intro d hd i hi
    refine ⟨by omega, ?_⟩
    by_contra hout
    exact hnot (FullBlock.of_read hblock hd (by omega))

/-! ## Blocks with addresses -/

/-- The hashed part of a block with addresses of zeros, which fill its data. -/
def addressPart (count : Nat) : Data :=
  natLE 4 (24 + count * 8) ++ natLE 4 0xd997c3c5 ++ List.replicate 12 0 ++ natLE 4 0x1cb5c415 ++
    natLE 4 count ++ List.replicate 180 0

theorem length_addressPart (count : Nat) : (addressPart count).length = 208 := by
  simp only [addressPart, List.length_append, length_natLE, List.length_replicate]

theorem wordAt_of_holds {k : Nat} (h : Holds bytes position (natLE 4 k)) (hk : k < 256 ^ 4)
    : wordAt bytes position = k := by
  have htake := List.prefix_iff_eq_take.1 h
  rw [length_natLE] at htake
  rw [wordAt, ← htake, leNat_natLE, Nat.mod_eq_of_lt hk]

theorem words_of_addressPart {p count : Nat} (h : Holds bytes p (addressPart count))
    (hcount : count ≤ 23) :
    wordAt bytes p = 24 + count * 8 ∧ wordAt bytes (p + 4) = 0xd997c3c5 ∧
      wordAt bytes (p + 20) = 0x1cb5c415 ∧ wordAt bytes (p + 24) = count := by
  simp only [addressPart, holds_append, List.length_append, length_natLE,
    List.length_replicate] at h
  obtain ⟨⟨⟨⟨⟨hlen, hsignature⟩, -⟩, hvector⟩, hvalue⟩, -⟩ := h
  exact ⟨wordAt_of_holds hlen (by omega), wordAt_of_holds hsignature (by decide),
    wordAt_of_holds hvector (by decide), wordAt_of_holds hvalue (by omega)⟩

/-- The part with its hash, behind any key. -/
theorem block_of_addressPart (crypto : Crypto) (key : Data) (count : Nat) (hkey : key.length = 32)
    (hcount : count ≤ 23) {block : Data}
    (h : block = key ++ (addressPart count ++ (crypto.sha256 (addressPart count)).take 16)) :
    HashMatches crypto block ∧ wordAt block 32 = 24 + count * 8 ∧
      wordAt block 36 = 0xd997c3c5 ∧ wordAt block 52 = 0x1cb5c415 ∧ wordAt block 56 = count := by
  have hpart : Holds block 32 (addressPart count) := by
    have hholds := holds_self block
    rw [h, holds_append, holds_append, hkey, Nat.zero_add, ← h] at hholds
    exact hholds.2.1
  refine ⟨?_, words_of_addressPart hpart hcount⟩
  have hdrop : block.drop 32 =
      addressPart count ++ (crypto.sha256 (addressPart count)).take 16 := by
    rw [h]
    exact List.drop_left' hkey
  have hhash : block.drop (32 + 208) = (crypto.sha256 (addressPart count)).take 16 := by
    rw [← List.drop_drop, hdrop]
    exact List.drop_left' (length_addressPart count)
  rw [HashMatches, hdrop, List.take_left' (length_addressPart count)]
  exact hhash

/-! ## With stand-ins for the routines -/

/-- A cipher that changes nothing, and a hash of zeros. -/
def plainCrypto : Crypto where
  aesCbcDecrypt _ _ data := data
  sha256 _ := List.replicate 32 0
  length_aesCbcDecrypt _ _ _ := rfl

/-- A key with the exponent 1. -/
def plainKey : RsaKey where
  n := 256 ^ 256
  e := 1
  pos := Nat.pow_pos (by decide)
  le_pow := le_rfl

def message (count : Nat) : Data :=
  List.replicate 32 0 ++ (addressPart count ++ List.replicate 16 0)

theorem length_message (count : Nat) : (message count).length = 256 := by
  simp only [message, List.length_append, List.length_replicate, length_addressPart]

theorem decryptedBlock_plain (h : data.length = 256) :
    decryptedBlock plainCrypto plainKey data = data := by
  have hlt := beNat_lt data
  rw [h] at hlt
  have hbytes : natBEWidth 256 (beNat data ^ plainKey.e % plainKey.n) = data := by
    have hvalue : beNat data ^ plainKey.e % plainKey.n = beNat data := by
      rw [show plainKey.e = 1 from rfl, Nat.pow_one]
      exact Nat.mod_eq_of_lt hlt
    rw [hvalue, ← h]
    exact natBEWidth_beNat data
  rw [decryptedBlock, hbytes]
  exact List.take_append_drop 32 data

theorem decryptedBlock_message (count : Nat) :
    decryptedBlock plainCrypto plainKey (message count) = message count :=
  decryptedBlock_plain (length_message count)

theorem message_read {count : Nat} (hpos : 0 < count) (hcount : count ≤ 23) :
    ∃ value, ipDataDecode plainCrypto plainKey (message count) =
      some (some { value, bytesRead := 24 + count * 8 }) := by
  obtain ⟨hhash, hlen, hsignature, hvector, hvalue⟩ :=
    block_of_addressPart plainCrypto (List.replicate 32 0) count List.length_replicate hcount rfl
  obtain ⟨value, hread⟩ :=
    addresses_read (length_message count) hpos hcount hhash hlen hsignature hvector hvalue
  refine ⟨value, ?_⟩
  rw [ipDataDecode_eq plainCrypto plainKey (length_message count), decryptedBlock_message]
  exact congrArg some hread

/-- Two addresses are read, and with their hash. -/
theorem authenticated_addresses :
    (message 2).length = 256 ∧
      HashMatches plainCrypto (decryptedBlock plainCrypto plainKey (message 2)) ∧
      (∃ value, ipDataDecode plainCrypto plainKey (message 2) =
        some (some { value, bytesRead := 40 })) ∧
      Authenticated (ipDataDecode plainCrypto plainKey (message 2)) := by
  obtain ⟨hhash, hlen, -⟩ := block_of_addressPart plainCrypto (List.replicate 32 0) 2
    List.length_replicate (by decide) rfl
  have hnot : ¬ FullBlock plainCrypto (decryptedBlock plainCrypto plainKey (message 2)) := by
    rw [decryptedBlock_message]
    intro hfull
    exact absurd (hlen.symm.trans hfull.dataLen) (by decide)
  refine ⟨length_message 2, ?_, message_read (by decide) (by decide),
    (authenticated_iff plainCrypto plainKey _ (length_message 2)).2 hnot⟩
  rw [decryptedBlock_message]
  exact hhash

/-- 23 addresses: the last port is read from the hash. -/
theorem full_message_read :
    (message 23).length = 256 ∧
      ¬ Authenticated (ipDataDecode plainCrypto plainKey (message 23)) := by
  refine ⟨length_message 23, ?_⟩
  obtain ⟨value, hvalue⟩ := message_read (by decide) (le_refl 23)
  rw [hvalue]
  rintro ⟨result, hresult, hread⟩
  obtain rfl := Option.some.inj hresult
  have hlast := (hread _ rfl 204 (show 204 < 208 by decide)).2
  omega

end TelegramPub.Ports.BackupData
