import TelegramPub.Verified.Ige

/-!
# Encrypted packets

The outer layer of MTProto 2.0: how `MTProto` encrypts a message for the
transport, and under which conditions it takes a datagram from the transport.

The padding of a packet is what follows the 32 bytes of header and the declared
number of body bytes.  The sender appends between 12 and 72 bytes.  The
receiver compares with the limits 12 and 1024, but it forgets the header: what
it calls `paddingLength` is 32 more than the padding.

SHA-256 and the block cipher are parameters: a hash is any function with values
of 32 bytes, and the cipher any permutation of blocks for every key.
-/

namespace TelegramPub.Ports.MessageEncryption

open Verified.Bytes Verified.Ige

/-- The value of `MTSha256`. -/
abbrev Digest := { bytes : Data // bytes.length = 32 }

/-- `MTDatacenterAuthKey`, with as many bytes as the key derivation reads. -/
structure AuthKey where
  authKey : Data
  authKeyId : Int
  length_le : 128 ≤ authKey.length

/-- What the transport delivers.  Lengths are passed on as `int`; the transport
itself drops every packet of more than four megabytes. -/
abbrev Datagram := { data : Data // data.length < 2 ^ 31 }

/-- `[data subdataWithRange:NSMakeRange(location, length)]` and
`data.bytes + location`, read for `length` bytes. -/
def range (data : Data) (location length : Nat) : Data := (data.drop location).take length

variable (sha256 : Data → Digest) (aes : Data → Equiv.Perm (BitVec 128))

/-- `MTMessageEncryptionKey`. -/
structure MessageEncryptionKey where
  key : Data
  iv : Data
  deriving DecidableEq

/-- `xValue`, the direction constant. -/
def xValue (toClient : Bool) : Nat := if toClient then 8 else 0

/-- `messageEncryptionKeyV2ForAuthKey:messageKey:toClient:`. -/
def messageEncryptionKeyV2 (authKey messageKey : Data) (toClient : Bool) :
    MessageEncryptionKey :=
  let x := xValue toClient
  let sha256A := (sha256 (messageKey ++ range authKey x 36)).1
  let sha256B := (sha256 (range authKey (40 + x) 36 ++ messageKey)).1
  { key := range sha256A 0 8 ++ range sha256B 8 16 ++ range sha256A 24 8
    iv := range sha256B 0 8 ++ range sha256A 8 16 ++ range sha256B 24 8 }

/-- The message key of a plaintext: the middle of the hash of 32 bytes of the
key and the plaintext. -/
def messageKeyOf (authKey : Data) (toClient : Bool) (plaintext : Data) : Data :=
  range (sha256 (range authKey (88 + xValue toClient) 32 ++ plaintext)).1 8 16

/-- `MTAesEncryptInplace`.  On a length that is no multiple of the block size
the CBC primitive fails, which an assertion turns into an abort. -/
def aesEncryptInplace (data key iv : Data) : Option Data :=
  if data.length % 16 = 0 then
    some (flattenBlocks (cbcIgeEncrypt (aes key) (blockOf iv) (blockOf (iv.drop 16))
      (blocksOf (data.length / 16) data)))
  else none

/-- `MTAesDecrypt`.  Bytes after the last whole block are left zero. -/
def aesDecrypt (data key iv : Data) : Data :=
  flattenBlocks (igeDecrypt (aes key).symm (blockOf iv) (blockOf (iv.drop 16))
      (blocksOf (data.length / 16) data)) ++
    List.replicate (data.length % 16) 0

/-- The fields of an outgoing packet.  The length of the body is written as an
`int32_t`. -/
structure OutgoingPacket where
  salt : Int
  sessionId : Int
  messageId : Int
  seqNo : Int
  data : Data
  small : data.length < 2 ^ 30

/-- How many bytes `paddedData:` appends before it draws: twelve, and what is
missing to a whole block. -/
def minimalPadding (length : Nat) : Nat := 12 + (16 - (length + 12) % 16) % 16

/-- How many bytes `paddedData:` appends: it draws a number below
`72 + 1 - take` and rounds it down to whole blocks. -/
def paddingCount (length draw : Nat) : Nat :=
  let take := minimalPadding length
  let remainingCount := draw % (72 + 1 - take)
  take + (remainingCount - remainingCount % 16)

/-- `paddedData:`, with its random bytes and its draw. -/
def paddedData (randomBytes : Nat → UInt8) (draw : Nat) (data : Data) : Data :=
  data ++ (List.range (paddingCount data.length draw)).map randomBytes

/-- What is encrypted: the header and the body. -/
def OutgoingPacket.plain (packet : OutgoingPacket) : Data :=
  int64Bytes packet.salt ++ int64Bytes packet.sessionId ++ int64Bytes packet.messageId ++
    int32Bytes packet.seqNo ++ int32Bytes packet.data.length ++ packet.data

/-- The encryption at the end of `_dataForEncryptedMessage` and of
`_dataForEncryptedContainerWithMessages`. -/
def encryptPlaintext (key : AuthKey) (toClient : Bool) (decryptedData : Data) :
    Option Data :=
  let messageKey := messageKeyOf sha256 key.authKey toClient decryptedData
  let encryptionKey := messageEncryptionKeyV2 sha256 key.authKey messageKey toClient
  (aesEncryptInplace aes decryptedData encryptionKey.key encryptionKey.iv).map
    fun encryptedData => int64Bytes key.authKeyId ++ messageKey ++ encryptedData

/-- `_dataForEncryptedMessage:sessionInfo:quickAckId:`. -/
def dataForEncryptedMessage (key : AuthKey) (toClient : Bool) (randomBytes : Nat → UInt8)
    (draw : Nat) (packet : OutgoingPacket) : Option Data :=
  encryptPlaintext sha256 aes key toClient (paddedData randomBytes draw packet.plain)

/-- The plaintext under the message key that the datagram carries. -/
def plaintextOf (key : AuthKey) (toClient : Bool) (data : Data) : Data :=
  let encryptionKey := messageEncryptionKeyV2 sha256 key.authKey (range data 8 16) toClient
  aesDecrypt aes (data.drop 24) encryptionKey.key encryptionKey.iv

/-- The declared length of the body. -/
def declaredLength (plaintext : Data) : Int := int32OfBytes (range plaintext 28 4)

/-- The key id that a datagram carries. -/
def carriedKeyId (data : Data) : Int := int64OfBytes (range data 0 8)

/-- Whether the message key that a datagram carries is the one of its plaintext. -/
def messageKeyMatches (key : AuthKey) (toClient : Bool) (data : Data) : Bool :=
  messageKeyOf sha256 key.authKey toClient (plaintextOf sha256 aes key toClient data) ==
    range data 8 16

/-- `_decryptIncomingTransportData:`, which the client calls with
`toClient = true`. -/
def decryptIncomingTransportData (key : AuthKey) (toClient : Bool) (data : Data) :
    Option Data :=
  if data.length < 24 + 36 then none
  else if carriedKeyId data ≠ int64 key.authKeyId then none
  else
    let decryptedData := plaintextOf sha256 aes key toClient data
    let messageDataLength := declaredLength decryptedData
    let paddingLength := int32 (int32 decryptedData.length - messageDataLength)
    if paddingLength < 12 ∨ paddingLength > 1024 then none
    else if messageDataLength < 0 ∨ messageDataLength > int32 decryptedData.length then none
    else if messageKeyMatches sha256 aes key toClient data then some decryptedData
    else none

/-- The rule for incoming packets: the right key, the right message key, a whole
header, a length that is not negative, and between 12 and 1024 bytes of
padding. -/
def Admissible (key : AuthKey) (toClient : Bool) (data : Data) : Prop :=
  let plaintext := plaintextOf sha256 aes key toClient data
  24 ≤ data.length ∧ carriedKeyId data = int64 key.authKeyId ∧
    messageKeyMatches sha256 aes key toClient data = true ∧ 32 ≤ plaintext.length ∧
    0 ≤ declaredLength plaintext ∧
    12 ≤ (plaintext.length : Int) - 32 - declaredLength plaintext ∧
    (plaintext.length : Int) - 32 - declaredLength plaintext ≤ 1024

instance (key : AuthKey) (toClient : Bool) (data : Data) :
    Decidable (Admissible sha256 aes key toClient data) :=
  inferInstanceAs (Decidable (_ ∧ _ ∧ _ ∧ _ ∧ _ ∧ _ ∧ _))

/-- The padding lengths on which the receiver decides otherwise than the rule. -/
def MisjudgedPadding (padding : Int) : Prop :=
  (-20 ≤ padding ∧ padding ≤ 11) ∨ (993 ≤ padding ∧ padding ≤ 1024)

/-! ## When a datagram is accepted -/

theorem declaredLength_range (plaintext : Data) :
    -(2 ^ 31) ≤ declaredLength plaintext ∧ declaredLength plaintext < 2 ^ 31 := by
  unfold declaredLength int32OfBytes int32
  constructor
  · grind
  · grind

theorem length_aesDecrypt (data key iv : Data) :
    (aesDecrypt aes data key iv).length = data.length := by
  unfold aesDecrypt
  rw [List.length_append, length_flattenBlocks, length_igeDecrypt, length_blocksOf,
    List.length_replicate]
  omega

theorem length_plaintextOf (key : AuthKey) (toClient : Bool) (data : Data) :
    (plaintextOf sha256 aes key toClient data).length = data.length - 24 := by
  unfold plaintextOf
  rw [length_aesDecrypt, List.length_drop]

/-- The checks of the receiver in terms of plain integers. -/
theorem decrypt_isSome_iff (key : AuthKey) (toClient : Bool) (datagram : Datagram) :
    (decryptIncomingTransportData sha256 aes key toClient datagram.1).isSome = true ↔
      60 ≤ datagram.1.length ∧ carriedKeyId datagram.1 = int64 key.authKeyId ∧
        messageKeyMatches sha256 aes key toClient datagram.1 = true ∧
        0 ≤ declaredLength (plaintextOf sha256 aes key toClient datagram.1) ∧
        12 ≤ ((datagram.1.length : Int) - 24) -
          declaredLength (plaintextOf sha256 aes key toClient datagram.1) ∧
        ((datagram.1.length : Int) - 24) -
          declaredLength (plaintextOf sha256 aes key toClient datagram.1) ≤ 1024 := by
  obtain ⟨data, hsize⟩ := datagram
  have hlength := length_plaintextOf sha256 aes key toClient data
  obtain ⟨hlo, hhi⟩ := declaredLength_range (plaintextOf sha256 aes key toClient data)
  unfold decryptIncomingTransportData
  dsimp only
  by_cases hshort : data.length < 24 + 36
  · rw [if_pos hshort]
    simp only [Option.isSome_none, Bool.false_eq_true, false_iff]
    omega
  · rw [if_neg hshort]
    have hint : ((plaintextOf sha256 aes key toClient data).length : Int) =
        (data.length : Int) - 24 := by
      rw [hlength]
      omega
    have hfits : int32 ((plaintextOf sha256 aes key toClient data).length : Int) =
        (data.length : Int) - 24 := by
      rw [hint]
      exact int32_of_range (by omega) (by omega)
    rw [hfits]
    generalize hL : declaredLength (plaintextOf sha256 aes key toClient data) = L at hlo hhi
    by_cases hid : carriedKeyId data ≠ int64 key.authKeyId
    · rw [if_pos hid]
      simp [hid]
    · rw [if_neg hid]
      have hid' : carriedKeyId data = int64 key.authKeyId := not_not.1 hid
      by_cases hneg : L < 0
      · grind
      · have hpadding : int32 ((data.length : Int) - 24 - L) = (data.length : Int) - 24 - L :=
          int32_of_range (by omega) (by omega)
        rw [hpadding]
        by_cases hrange : (data.length : Int) - 24 - L < 12 ∨
            (data.length : Int) - 24 - L > 1024
        · grind
        · grind

theorem judged_iff (key : AuthKey) (toClient : Bool) (datagram : Datagram) :
    ((decryptIncomingTransportData sha256 aes key toClient datagram.1).isSome = true ↔
        Admissible sha256 aes key toClient datagram.1) ↔
      ¬ (60 ≤ datagram.1.length ∧ carriedKeyId datagram.1 = int64 key.authKeyId ∧
        messageKeyMatches sha256 aes key toClient datagram.1 = true ∧
        0 ≤ declaredLength (plaintextOf sha256 aes key toClient datagram.1) ∧
        MisjudgedPadding ((datagram.1.length : Int) - 24 - 32 -
          declaredLength (plaintextOf sha256 aes key toClient datagram.1))) := by
  rw [decrypt_isSome_iff]
  have hlength := length_plaintextOf sha256 aes key toClient datagram.1
  unfold Admissible MisjudgedPadding
  dsimp only
  rw [hlength]
  generalize declaredLength (plaintextOf sha256 aes key toClient datagram.1) = L
  generalize datagram.1.length = size
  by_cases hid : carriedKeyId datagram.1 = int64 key.authKeyId
  · grind
  · simp [hid]

/-! ## The client's own packets -/

/-- Twelve to seventy-two bytes of padding, up to a whole number of blocks. -/
theorem paddingCount_spec (length draw : Nat) :
    12 ≤ paddingCount length draw ∧ paddingCount length draw ≤ 72 ∧
      (length + paddingCount length draw) % 16 = 0 := by
  unfold paddingCount
  dsimp only
  have htake : 12 ≤ minimalPadding length ∧ minimalPadding length ≤ 27 ∧
      (length + minimalPadding length) % 16 = 0 := by
    unfold minimalPadding
    omega
  have hdraw : draw % (72 + 1 - minimalPadding length) < 72 + 1 - minimalPadding length :=
    Nat.mod_lt _ (by omega)
  generalize draw % (72 + 1 - minimalPadding length) = remainingCount at hdraw
  omega

theorem length_paddedData (randomBytes : Nat → UInt8) (draw : Nat) (data : Data) :
    (paddedData randomBytes draw data).length = data.length + paddingCount data.length draw := by
  unfold paddedData
  rw [List.length_append, List.length_map, List.length_range]

theorem OutgoingPacket.length_plain (packet : OutgoingPacket) :
    packet.plain.length = 32 + packet.data.length := by
  unfold OutgoingPacket.plain
  simp only [List.length_append, length_int64Bytes, length_int32Bytes]

theorem range_append (front middle rest : Data) {location length : Nat}
    (hfront : front.length = location) (hmiddle : middle.length = length) :
    range (front ++ (middle ++ rest)) location length = middle := by
  unfold range
  rw [List.drop_append_of_le_length (by omega), List.drop_of_length_le (by omega),
    List.nil_append, List.take_append_of_le_length (by omega), List.take_of_length_le (by omega)]

theorem declaredLength_plain (packet : OutgoingPacket) (rest : Data) :
    declaredLength (packet.plain ++ rest) = packet.data.length := by
  have hsmall := packet.small
  have hrange : range (packet.plain ++ rest) 28 4 = int32Bytes packet.data.length := by
    have hsplit : packet.plain ++ rest =
        (int64Bytes packet.salt ++ int64Bytes packet.sessionId ++ int64Bytes packet.messageId ++
          int32Bytes packet.seqNo) ++ (int32Bytes packet.data.length ++ (packet.data ++ rest)) := by
      unfold OutgoingPacket.plain
      simp only [List.append_assoc]
    rw [hsplit]
    apply range_append
    · simp only [List.length_append, length_int64Bytes, length_int32Bytes]
    · exact length_int32Bytes _
  unfold declaredLength
  rw [hrange, int32OfBytes_int32Bytes]
  exact int32_of_range (by omega) (by omega)

theorem length_messageKeyOf (authKey : Data) (toClient : Bool) (plaintext : Data) :
    (messageKeyOf sha256 authKey toClient plaintext).length = 16 := by
  unfold messageKeyOf
  generalize sha256 (range authKey (88 + xValue toClient) 32 ++ plaintext) = digest
  unfold range
  rw [List.length_take, List.length_drop, digest.2]
  rfl

theorem aesDecrypt_aesEncrypt (data key iv : Data) (hblocks : data.length % 16 = 0) :
    ∃ encrypted, aesEncryptInplace aes data key iv = some encrypted ∧
      encrypted.length = data.length ∧ aesDecrypt aes encrypted key iv = data := by
  refine ⟨_, if_pos hblocks, ?_, ?_⟩
  · rw [length_flattenBlocks, cbcIgeEncrypt_eq, length_igeEncrypt, length_blocksOf]
    omega
  · generalize hencrypted : cbcIgeEncrypt (aes key) (blockOf iv) (blockOf (iv.drop 16))
      (blocksOf (data.length / 16) data) = encrypted
    rw [cbcIgeEncrypt_eq] at hencrypted
    have hcount : encrypted.length = data.length / 16 := by
      rw [← hencrypted, length_igeEncrypt, length_blocksOf]
    have hlength : (flattenBlocks encrypted).length = data.length := by
      rw [length_flattenBlocks, hcount]
      omega
    have hback : blocksOf (data.length / 16) (flattenBlocks encrypted) = encrypted := by
      have hflatten := blocksOf_flattenBlocks encrypted []
      rw [List.append_nil, hcount] at hflatten
      exact hflatten
    unfold aesDecrypt
    rw [hlength, hback, ← hencrypted,
      igeDecrypt_igeEncrypt (aes key) (aes key).symm (aes key).symm_apply_apply, hblocks,
      flattenBlocks_blocksOf _ _ (by omega), List.take_of_length_le (by omega)]
    exact List.append_nil data

/-- Encrypting a plaintext of whole blocks gives a datagram with this
plaintext, the right key id and the right message key. -/
theorem encryptPlaintext_spec (key : AuthKey) (toClient : Bool) {plaintext : Data}
    (hblocks : plaintext.length % 16 = 0) :
    ∃ data, encryptPlaintext sha256 aes key toClient plaintext = some data ∧
      data.length = 24 + plaintext.length ∧
      carriedKeyId data = int64 key.authKeyId ∧
      plaintextOf sha256 aes key toClient data = plaintext ∧
      messageKeyMatches sha256 aes key toClient data = true := by
  have hkeyLength := length_messageKeyOf sha256 key.authKey toClient plaintext
  generalize hkey : messageKeyOf sha256 key.authKey toClient plaintext = messageKey at hkeyLength
  generalize hencryptionKey : messageEncryptionKeyV2 sha256 key.authKey messageKey toClient =
    encryptionKey
  obtain ⟨encrypted, hencrypted, hlength, hdecrypt⟩ :=
    aesDecrypt_aesEncrypt aes plaintext encryptionKey.key encryptionKey.iv hblocks
  have hrange : range (int64Bytes key.authKeyId ++ (messageKey ++ encrypted)) 8 16 =
      messageKey := range_append _ messageKey encrypted (length_int64Bytes _) hkeyLength
  have hdrop : (int64Bytes key.authKeyId ++ (messageKey ++ encrypted)).drop 24 = encrypted := by
    rw [← List.append_assoc, List.drop_append_of_le_length (by simp [hkeyLength]),
      List.drop_of_length_le (by simp [hkeyLength])]
    rfl
  have hplain : plaintextOf sha256 aes key toClient
      (int64Bytes key.authKeyId ++ (messageKey ++ encrypted)) = plaintext := by
    unfold plaintextOf
    rw [hrange, hdrop, hencryptionKey]
    exact hdecrypt
  refine ⟨int64Bytes key.authKeyId ++ (messageKey ++ encrypted), ?_, ?_, ?_, hplain, ?_⟩
  · grind [encryptPlaintext]
  · simp only [List.length_append, length_int64Bytes, hkeyLength, hlength]
    omega
  · unfold carriedKeyId
    have hid : range (int64Bytes key.authKeyId ++ (messageKey ++ encrypted)) 0 8 =
        int64Bytes key.authKeyId :=
      range_append [] (int64Bytes key.authKeyId) (messageKey ++ encrypted) rfl
        (length_int64Bytes _)
    rw [hid]
    exact int64OfBytes_int64Bytes _
  · unfold messageKeyMatches
    rw [hplain, hkey, hrange]
    exact beq_self_eq_true messageKey

theorem own_packet_accepted (key : AuthKey) (toClient : Bool) (randomBytes : Nat → UInt8)
    (draw : Nat) (packet : OutgoingPacket) :
    ∃ data, dataForEncryptedMessage sha256 aes key toClient randomBytes draw packet =
        some data ∧
      decryptIncomingTransportData sha256 aes key toClient data =
        some (paddedData randomBytes draw packet.plain) := by
  obtain ⟨hmin, hmax, hblocks⟩ := paddingCount_spec packet.plain.length draw
  have hplainLength := packet.length_plain
  have hlength := length_paddedData randomBytes draw packet.plain
  obtain ⟨data, hdata, hsize, hid, hplain, hkey⟩ := encryptPlaintext_spec sha256 aes key toClient
    (show (paddedData randomBytes draw packet.plain).length % 16 = 0 by rw [hlength]; exact hblocks)
  refine ⟨data, hdata, ?_⟩
  have hdeclared : declaredLength (paddedData randomBytes draw packet.plain) =
      packet.data.length := declaredLength_plain packet _
  have hsmall := packet.small
  have hsome := (decrypt_isSome_iff sha256 aes key toClient ⟨data, by omega⟩).2 (by
    dsimp only
    rw [hplain, hdeclared]
    exact ⟨by omega, hid, hkey, by omega, by omega, by omega⟩)
  obtain ⟨body, hbody⟩ := Option.isSome_iff_exists.1 hsome
  have hbodyPlain : body = plaintextOf sha256 aes key toClient data := by
    dsimp only at hbody
    unfold decryptIncomingTransportData at hbody
    dsimp only at hbody
    repeat' split at hbody
    all_goals first
      | exact (Option.some.inj hbody).symm
      | cases hbody
  dsimp only at hbody
  rw [hbody, hbodyPlain, hplain]

/-- Every datagram is judged by the rule for incoming packets, except for
authentic packets whose padding is between -20 and 11 or between 993 and 1024
bytes long; and the client's own packets are accepted and decrypt to what was
encrypted. -/
theorem acceptance_iff (key : AuthKey) :
    (∀ datagram : Datagram,
      ((decryptIncomingTransportData sha256 aes key true datagram.1).isSome = true ↔
          Admissible sha256 aes key true datagram.1) ↔
        ¬ (60 ≤ datagram.1.length ∧ carriedKeyId datagram.1 = int64 key.authKeyId ∧
          messageKeyMatches sha256 aes key true datagram.1 = true ∧
          0 ≤ declaredLength (plaintextOf sha256 aes key true datagram.1) ∧
          MisjudgedPadding ((datagram.1.length : Int) - 24 - 32 -
            declaredLength (plaintextOf sha256 aes key true datagram.1)))) ∧
      ∀ (toClient : Bool) (randomBytes : Nat → UInt8) (draw : Nat) (packet : OutgoingPacket),
        ∃ data, dataForEncryptedMessage sha256 aes key toClient randomBytes draw packet =
            some data ∧
          decryptIncomingTransportData sha256 aes key toClient data =
            some (paddedData randomBytes draw packet.plain) :=
  ⟨judged_iff sha256 aes key true, own_packet_accepted sha256 aes key⟩

/-! ### A packet without padding -/

/-- A key of zero bytes. -/
def zeroKey : AuthKey where
  authKey := List.replicate 256 0
  authKeyId := 0
  length_le := by rw [List.length_replicate]; omega

/-- A hash that is the same for every input. -/
def zeroDigest (_ : Data) : Digest := ⟨List.replicate 32 0, by decide⟩

/-- A packet of 48 bytes whose header declares a body of 16 bytes. -/
def unpadded : Datagram :=
  ⟨List.replicate 52 0 ++ int32Bytes 16 ++ List.replicate 16 0, by decide⟩

/-- The receiver takes a packet that has no padding at all. -/
theorem unpadded_accepted :
    (decryptIncomingTransportData zeroDigest (fun _ => Equiv.refl _) zeroKey true
        unpadded.1).isSome = true ∧
      ¬ Admissible zeroDigest (fun _ => Equiv.refl _) zeroKey true unpadded.1 := by
  decide

end TelegramPub.Ports.MessageEncryption
