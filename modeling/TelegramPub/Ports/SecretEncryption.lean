import TelegramPub.Ports.MessageEncryption
import TelegramPub.Ports.SecretKeys

/-!
# Messages of secret chats

How a message of a secret chat is encrypted, and how the other client takes it apart.
There are two versions.  In the first the message key is the tail of the SHA-1 of the
message with its length in front, and the padding fills up the last block; in the second
it is the middle of the SHA-256 of a part of the key and the whole plaintext, padding
included.  A client tries the second version first.

What `decryptEncryptedMessageData` returns is all that follows the length, so the message
comes with its padding (`secret_message_round_trip`).  Its readers are TL parsers and stop
at the end of the message.
-/

namespace TelegramPub.Ports.SecretEncryption

open Verified.Bytes Ports.MessageEncryption Ports.SecretKeys

/-- The value of `MTSha1`. -/
abbrev Sha1Digest := { bytes : Data // bytes.length = 20 }

/-- The key of a secret chat. -/
abbrev SecretKey := { bytes : Data // bytes.length = 256 }

variable (sha1 : Data → Sha1Digest) (sha256 : Data → Digest)
  (aes : Data → Equiv.Perm (BitVec 128))

/-- The first version of `generateMessageKeyData:incoming:key:v2:`. -/
def messageKeyDataV1 (messageKey key : Data) : MessageEncryptionKey :=
  let sha1A := (sha1 (messageKey ++ range key 0 32)).1
  let sha1B := (sha1 (range key 32 16 ++ messageKey ++ range key 48 16)).1
  let sha1C := (sha1 (range key 64 32 ++ messageKey)).1
  let sha1D := (sha1 (messageKey ++ range key 96 32)).1
  { key := range sha1A 0 8 ++ range sha1B 8 12 ++ range sha1C 4 12
    iv := range sha1A 8 12 ++ range sha1B 0 8 ++ range sha1C 16 4 ++ range sha1D 0 8 }

/-- `generateMessageKeyData:incoming:key:v2:`; the second version is the one of MTProto. -/
def generateMessageKeyData (messageKey : Data) (incoming : Bool) (key : Data) (v2 : Bool) :
    MessageEncryptionKey :=
  if v2 then messageEncryptionKeyV2 sha256 key messageKey incoming
  else messageKeyDataV1 sha1 messageKey key

/-- The tail of the SHA-1 of some bytes. -/
def sha1Tail (bytes : Data) : Data := range (sha1 bytes).1 4 16

/-- The bytes that fill up the last block. -/
def blockPadding (length : Nat) : Nat := (16 - length % 16) % 16

/-- The plaintext: the length, the message and the padding. -/
def plaintext (serializedMessage : Data) (v2 : Bool) (randomBytes : Nat → UInt8) (draw : Nat) :
    Data :=
  let original := int32Bytes serializedMessage.length ++ serializedMessage
  if v2 then paddedData randomBytes draw original
  else original ++ (List.range (blockPadding original.length)).map randomBytes

/-- The message key of a plaintext; in the first version it does not depend on the
padding. -/
def messageKeyFor (serializedMessage key : Data) (currentClientIsCreator v2 : Bool)
    (padded : Data) : Data :=
  if v2 then messageKeyOf sha256 key (!currentClientIsCreator) padded
  else sha1Tail sha1 (int32Bytes serializedMessage.length ++ serializedMessage)

/-- `encryptMessage:key:keyId:currentClientIsCreator:v2:`, with its random bytes and its
draw. -/
def encryptMessage (serializedMessage : Data) (key : SecretKey) (keyId : Int)
    (currentClientIsCreator v2 : Bool) (randomBytes : Nat → UInt8) (draw : Nat) : Option Data :=
  let decryptedBytes := plaintext serializedMessage v2 randomBytes draw
  let messageKey := messageKeyFor sha1 sha256 serializedMessage key.1 currentClientIsCreator v2
    decryptedBytes
  let keyData := generateMessageKeyData sha1 sha256 messageKey (!currentClientIsCreator) key.1 v2
  (aesEncryptInplace aes decryptedBytes keyData.key keyData.iv).map fun encrypted =>
    int64Bytes keyId ++ messageKey ++ encrypted

/-- The plaintext of an encrypted message under the message key that it carries. -/
def decryptedPlaintext (bytes key : Data) (currentClientIsCreator v2 : Bool) : Data :=
  let keyData := generateMessageKeyData sha1 sha256 (range bytes 8 16) currentClientIsCreator key v2
  aesDecrypt aes (bytes.drop 24) keyData.key keyData.iv

/-- The length in front of a message. -/
def messageLength (messageData : Data) : Int := int32OfBytes (range messageData 0 4)

/-- `paddingLength`: what follows the message. -/
def paddingLength (messageData : Data) : Int :=
  int32 (int32 messageData.length - int32 (messageLength messageData + 4))

/-- The message key that a plaintext should have. -/
def localMessageKey (key : Data) (currentClientIsCreator v2 : Bool) (messageData : Data) : Data :=
  if v2 then messageKeyOf sha256 key currentClientIsCreator messageData
  else sha1Tail sha1 (messageData.take (messageLength messageData + 4).toNat)

/-- `decryptMessageData:authKey:messageKey:keyData:currentClientIsCreator:v2:`. -/
def decryptMessageData (bytes key : Data) (currentClientIsCreator v2 : Bool) : Option Data :=
  let messageData := decryptedPlaintext sha1 sha256 aes bytes key currentClientIsCreator v2
  if messageLength messageData ≤ 0 ∨
      messageLength messageData > int32 messageData.length - 4 then none
  else if v2 = true ∧ paddingLength messageData < 12 ∨ paddingLength messageData > 1024 then none
  else if localMessageKey sha1 sha256 key currentClientIsCreator v2 messageData ≠ range bytes 8 16
  then none
  else some messageData

/-- `decryptedMessageLayer`. -/
def layerSignature : Data := int32Bytes 0x1be31789

/-- The rounds of the loop that rounds the length of the random bytes up.  They are at
most three. -/
def roundUp : Nat → UInt8 → UInt8
  | 0, randomBytesLength => randomBytesLength
  | rounds + 1, randomBytesLength =>
    if (randomBytesLength.toNat + 1) % 4 ≠ 0 then roundUp rounds (randomBytesLength + 1)
    else randomBytesLength

/-- What the scan of a message finds: the layer, and the two numbers as they are in the
message. -/
structure Header where
  layer : Nat := 1
  seqIn : Int := 0
  seqOut : Int := 0
  deriving DecidableEq

/-- The conversion of an `int32_t` to `NSUInteger`. -/
def unsignedInteger (value : Int) : Nat := (value % 2 ^ 64).toNat

/-- The numbers at an offset. -/
def headerAt (content : Data) (offset : Nat) : Header where
  layer := max 1 (unsignedInteger (int32OfBytes (range content offset 4)))
  seqIn := int32OfBytes (range content (offset + 4) 4)
  seqOut := int32OfBytes (range content (offset + 8) 4)

/-- The scan for the header of a layer. -/
def scanHeader (content : Data) : Header :=
  if range content 0 4 = layerSignature ∧ content.length ≥ 4 + 1 then
    let randomBytesLength := (roundUp 3 (content.getD 4 0)).toNat
    if content.length ≥ 4 + 1 + randomBytesLength + 4 + 4 + 4 then
      headerAt content (4 + 1 + randomBytesLength)
    else {}
  else {}

/-- The checks of a header: the numbers of the peer have its parity, and from layer 73 on
the second version is used. -/
def Header.Accepted (h : Header) (isCreator decryptedByV2 : Bool) : Prop :=
  (17 ≤ h.layer → h.seqIn % 2 = (if isCreator then 1 else 0) ∧
    h.seqOut % 2 = (if isCreator then 0 else 1)) ∧ (73 ≤ h.layer → decryptedByV2 = true)

instance (h : Header) (isCreator decryptedByV2 : Bool) :
    Decidable (h.Accepted isCreator decryptedByV2) :=
  inferInstanceAs (Decidable (_ ∧ _))

/-- What a caller gets of an encrypted message. -/
structure Decrypted where
  content : Data
  decryptedLayer : Nat
  seqIn : Int
  seqOut : Int
  decryptedByV2 : Bool
  deriving DecidableEq

/-- The last part of `decryptEncryptedMessageData`. -/
def acceptContent (isCreator decryptedByV2 : Bool) (content : Data) : Option Decrypted :=
  let header := scanHeader content
  if header.Accepted isCreator decryptedByV2 then
    some { content, decryptedLayer := header.layer, seqIn := header.seqIn.tdiv 2
           seqOut := header.seqOut.tdiv 2, decryptedByV2 }
  else none

/-- A client of the chat: its role and the keys it has. -/
structure Client where
  isCreator : Bool
  keys : List (KeyData SecretKey)

/-- `decryptMessageData` in the second version, or else in the first. -/
def decryptEither (bytes key : Data) (isCreator : Bool) : Option (Data × Bool) :=
  ((decryptMessageData sha1 sha256 aes bytes key isCreator true).map (·, true)).or
    ((decryptMessageData sha1 sha256 aes bytes key isCreator false).map (·, false))

/-- `decryptEncryptedMessageData:…`, for a message of a chat that the client has. -/
def decryptEncryptedMessageData (client : Client) (bytes : Data) : Option Decrypted :=
  if bytes.length < 8 + 16 + 16 then none
  else
    match encryptionKeyForConversationId client.keys (carriedKeyId bytes) with
    | none => none
    | some key =>
      if key.keyId ≠ carriedKeyId bytes then none
      else
        (decryptEither sha1 sha256 aes bytes key.key.1 client.isCreator).bind fun (data, v2) =>
          acceptContent client.isCreator v2 (data.drop 4)

/-! ## Reading back what was encrypted -/

/-- The padding of a message. -/
structure PaddingFor (v2 : Bool) (message padding : Data) : Prop where
  blocks : (4 + message.length + padding.length) % 16 = 0
  first : v2 = false → padding.length < 16
  second : v2 = true → 12 ≤ padding.length ∧ padding.length ≤ 72

theorem plaintext_eq (message : Data) (v2 : Bool) (randomBytes : Nat → UInt8) (draw : Nat) :
    ∃ padding, PaddingFor v2 message padding ∧
      plaintext message v2 randomBytes draw =
        int32Bytes message.length ++ (message ++ padding) := by
  unfold plaintext
  dsimp only
  have hlength : (int32Bytes message.length ++ message).length = 4 + message.length := by
    rw [List.length_append, length_int32Bytes]
  cases v2 with
  | true =>
    obtain ⟨hmin, hmax, hblocks⟩ := paddingCount_spec (4 + message.length) draw
    refine ⟨(List.range (paddingCount (4 + message.length) draw)).map randomBytes,
      ⟨?_, ?_, ?_⟩, ?_⟩
    · rw [List.length_map, List.length_range]
      exact hblocks
    · intro hfalse
      cases hfalse
    · grind
    · rw [if_pos rfl]
      unfold paddedData
      rw [hlength, List.append_assoc]
  | false =>
    have hfill : (4 + message.length + blockPadding (4 + message.length)) % 16 = 0 ∧
        blockPadding (4 + message.length) < 16 := by
      unfold blockPadding
      omega
    refine ⟨(List.range (blockPadding (4 + message.length))).map randomBytes, ⟨?_, ?_, ?_⟩, ?_⟩
    · rw [List.length_map, List.length_range]
      exact hfill.1
    · intro _
      rw [List.length_map, List.length_range]
      exact hfill.2
    · intro htrue
      cases htrue
    · rw [if_neg (by decide), hlength, List.append_assoc]

theorem length_sha1Tail (bytes : Data) : (sha1Tail sha1 bytes).length = 16 := by
  unfold sha1Tail range
  rw [List.length_take, List.length_drop, (sha1 bytes).2]
  rfl

theorem length_messageKeyFor (message key : Data) (isCreator v2 : Bool) (padded : Data) :
    (messageKeyFor sha1 sha256 message key isCreator v2 padded).length = 16 := by
  unfold messageKeyFor
  split
  · exact length_messageKeyOf sha256 key _ padded
  · exact length_sha1Tail sha1 _

/-- An encrypted message carries the key id and the message key, and has its plaintext
under them. -/
theorem encryptMessage_spec (message : Data) (key : SecretKey) (keyId : Int)
    (isCreator v2 : Bool) (randomBytes : Nat → UInt8) (draw : Nat)
    (hblocks : (plaintext message v2 randomBytes draw).length % 16 = 0) :
    ∃ data, encryptMessage sha1 sha256 aes message key keyId isCreator v2 randomBytes draw =
        some data ∧
      data.length = 24 + (plaintext message v2 randomBytes draw).length ∧
      carriedKeyId data = int64 keyId ∧
      range data 8 16 = messageKeyFor sha1 sha256 message key.1 isCreator v2
        (plaintext message v2 randomBytes draw) ∧
      decryptedPlaintext sha1 sha256 aes data key.1 (!isCreator) v2 =
        plaintext message v2 randomBytes draw := by
  generalize hpadded : plaintext message v2 randomBytes draw = padded at hblocks
  have hkeyLength := length_messageKeyFor sha1 sha256 message key.1 isCreator v2 padded
  generalize hkey : messageKeyFor sha1 sha256 message key.1 isCreator v2 padded = messageKey
    at hkeyLength
  generalize hkeyData :
    generateMessageKeyData sha1 sha256 messageKey (!isCreator) key.1 v2 = keyData
  obtain ⟨encrypted, hencrypted, hlength, hdecrypt⟩ :=
    aesDecrypt_aesEncrypt aes padded keyData.key keyData.iv hblocks
  have hrange : range (int64Bytes keyId ++ (messageKey ++ encrypted)) 8 16 = messageKey :=
    range_append _ messageKey encrypted (length_int64Bytes _) hkeyLength
  have hdrop : (int64Bytes keyId ++ (messageKey ++ encrypted)).drop 24 = encrypted := by
    rw [← List.append_assoc, List.drop_append_of_le_length (by simp [hkeyLength]),
      List.drop_of_length_le (by simp [hkeyLength])]
    rfl
  refine ⟨int64Bytes keyId ++ (messageKey ++ encrypted), ?_, ?_, ?_, hrange, ?_⟩
  · grind [encryptMessage]
  · simp only [List.length_append, length_int64Bytes, hkeyLength, hlength]
    omega
  · unfold carriedKeyId
    have hid : range (int64Bytes keyId ++ (messageKey ++ encrypted)) 0 8 = int64Bytes keyId :=
      range_append [] (int64Bytes keyId) (messageKey ++ encrypted) rfl (length_int64Bytes _)
    rw [hid]
    exact int64OfBytes_int64Bytes _
  · unfold decryptedPlaintext
    dsimp only
    rw [hrange, hdrop, hkeyData]
    exact hdecrypt

theorem messageLength_plain {message : Data} (rest : Data) (hsmall : message.length < 2 ^ 31) :
    messageLength (int32Bytes message.length ++ rest) = message.length := by
  unfold messageLength
  have hrange : range (int32Bytes message.length ++ rest) 0 4 = int32Bytes message.length :=
    range_append [] (int32Bytes message.length) rest rfl (length_int32Bytes _)
  rw [hrange, int32OfBytes_int32Bytes]
  exact int32_of_range (by omega) (by omega)

/-- A plaintext of less than two gigabytes: the lengths are what they should be. -/
theorem paddingLength_eq {messageData : Data} (hsmall : messageData.length < 2 ^ 31)
    (hpos : 0 < messageLength messageData)
    (hle : messageLength messageData ≤ int32 messageData.length - 4) :
    int32 messageData.length = messageData.length ∧
      paddingLength messageData = messageData.length - (messageLength messageData + 4) := by
  have hlength : int32 messageData.length = messageData.length :=
    int32_of_range (by omega) (by omega)
  rw [hlength] at hle
  refine ⟨hlength, ?_⟩
  have hwhole : int32 (messageLength messageData + 4) = messageLength messageData + 4 :=
    int32_of_range (by omega) (by omega)
  unfold paddingLength
  rw [hlength, hwhole]
  exact int32_of_range (by omega) (by omega)

variable {isCreator v2 : Bool}

theorem decryptMessageData_own {data message padding : Data} {key : SecretKey}
    (hne : message ≠ []) (hsmall : message.length < 2 ^ 31 - 128)
    (hpadding : PaddingFor v2 message padding)
    (hplain : decryptedPlaintext sha1 sha256 aes data key.1 (!isCreator) v2 =
      int32Bytes message.length ++ (message ++ padding))
    (hkey : range data 8 16 = messageKeyFor sha1 sha256 message key.1 isCreator v2
      (int32Bytes message.length ++ (message ++ padding))) :
    decryptMessageData sha1 sha256 aes data key.1 (!isCreator) v2 =
      some (int32Bytes message.length ++ (message ++ padding)) := by
  have hpos : 0 < message.length := List.length_pos_iff.2 hne
  have hlength : (int32Bytes message.length ++ (message ++ padding)).length =
      4 + message.length + padding.length := by
    simp only [List.length_append, length_int32Bytes]
    omega
  have hmessage := messageLength_plain (message ++ padding) (by omega : message.length < 2 ^ 31)
  have hbound : padding.length ≤ 72 := by
    cases v2 with
    | true => exact (hpadding.second rfl).2
    | false =>
      have := hpadding.first rfl
      omega
  have hlong : int32 (int32Bytes message.length ++ (message ++ padding)).length =
      4 + message.length + padding.length := by
    rw [hlength]
    exact int32_of_range (by omega) (by omega)
  have hpad : paddingLength (int32Bytes message.length ++ (message ++ padding)) =
      (int32Bytes message.length ++ (message ++ padding)).length -
        (messageLength (int32Bytes message.length ++ (message ++ padding)) + 4) :=
    (paddingLength_eq (by omega) (by omega) (by rw [hmessage, hlong]; omega)).2
  have hlocal : localMessageKey sha1 sha256 key.1 (!isCreator) v2
      (int32Bytes message.length ++ (message ++ padding)) = range data 8 16 := by
    rw [hkey]
    unfold localMessageKey messageKeyFor
    split
    · rfl
    · have hbegins : (messageLength (int32Bytes message.length ++ (message ++ padding)) + 4).toNat =
          (int32Bytes message.length ++ message).length := by
        rw [hmessage, List.length_append, length_int32Bytes]
        omega
      rw [hbegins, ← List.append_assoc, List.take_left]
  unfold decryptMessageData
  rw [hplain, if_neg (by rw [hmessage, hlong]; omega), if_neg, if_neg (by rw [hlocal]; simp)]
  rw [hpad, hmessage, hlength]
  cases v2 with
  | true =>
    have := hpadding.second rfl
    omega
  | false => simp; omega

/-- What is known of an accepted message: the plaintext under a key of the client has a
length that fits, and the message key of its version; in the second version also 12 to 1024
bytes of padding. -/
def Genuine (client : Client) (bytes : Data) (r : Decrypted) : Prop :=
  ∃ record ∈ client.keys, record.keyId = carriedKeyId bytes ∧
    ∃ messageData, messageData =
        decryptedPlaintext sha1 sha256 aes bytes record.key.1 client.isCreator r.decryptedByV2 ∧
      r.content = messageData.drop 4 ∧
      0 < messageLength messageData ∧ messageLength messageData + 4 ≤ messageData.length ∧
      (r.decryptedByV2 = true →
        range bytes 8 16 = messageKeyOf sha256 record.key.1 client.isCreator messageData ∧
        12 ≤ messageData.length - (messageLength messageData + 4) ∧
        messageData.length - (messageLength messageData + 4) ≤ 1024) ∧
      (r.decryptedByV2 = false →
        range bytes 8 16 =
          sha1Tail sha1 (messageData.take (messageLength messageData + 4).toNat))

theorem length_decryptedPlaintext (bytes key : Data) (isCreator v2 : Bool) :
    (decryptedPlaintext sha1 sha256 aes bytes key isCreator v2).length = bytes.length - 24 := by
  unfold decryptedPlaintext
  rw [length_aesDecrypt, List.length_drop]

theorem mem_of_encryptionKey {keys : List (KeyData SecretKey)} {fingerprint : Int}
    {record : KeyData SecretKey}
    (h : encryptionKeyForConversationId keys fingerprint = some record) :
    record ∈ keys := by
  unfold encryptionKeyForConversationId at h
  split at h
  · exact List.mem_of_getLast? h
  · exact List.mem_reverse.1 (List.mem_of_find?_eq_some h)

theorem decryptMessageData_spec {bytes key messageData : Data} (hsmall : bytes.length < 2 ^ 31)
    (h : decryptMessageData sha1 sha256 aes bytes key isCreator v2 = some messageData) :
    messageData = decryptedPlaintext sha1 sha256 aes bytes key isCreator v2 ∧
      0 < messageLength messageData ∧ messageLength messageData + 4 ≤ messageData.length ∧
      (v2 = true → 12 ≤ messageData.length - (messageLength messageData + 4) ∧
        messageData.length - (messageLength messageData + 4) ≤ 1024) ∧
      localMessageKey sha1 sha256 key isCreator v2 messageData = range bytes 8 16 := by
  have hplain := length_decryptedPlaintext sha1 sha256 aes bytes key isCreator v2
  unfold decryptMessageData at h
  dsimp only at h
  generalize decryptedPlaintext sha1 sha256 aes bytes key isCreator v2 = data at h hplain ⊢
  split at h
  case isTrue => cases h
  case isFalse hlength =>
    grind [messageLength, paddingLength, paddingLength_eq]

theorem decryptEither_spec {bytes key messageData : Data}
    (h : decryptEither sha1 sha256 aes bytes key isCreator = some (messageData, v2)) :
    decryptMessageData sha1 sha256 aes bytes key isCreator v2 = some messageData := by
  unfold decryptEither at h
  rcases Option.or_eq_some_iff.1 h with hsecond | ⟨-, hfirst⟩
  · simp_all
  · simp_all

theorem acceptContent_eq_some {content : Data} {r : Decrypted}
    (h : acceptContent isCreator v2 content = some r) :
    r.content = content ∧ r.decryptedByV2 = v2 := by
  unfold acceptContent at h
  dsimp only at h
  split at h
  · cases h
    exact ⟨rfl, rfl⟩
  · cases h

/-- A message is accepted only if it is genuine. -/
theorem genuine_of_decrypted (client : Client) (bytes : Datagram) {r : Decrypted}
    (h : decryptEncryptedMessageData sha1 sha256 aes client bytes.1 = some r) :
    Genuine sha1 sha256 aes client bytes.1 r := by
  unfold decryptEncryptedMessageData at h
  split at h
  · cases h
  · cases hlookup : encryptionKeyForConversationId client.keys (carriedKeyId bytes.1) with
    | none => rw [hlookup] at h; cases h
    | some record =>
      rw [hlookup] at h
      dsimp only at h
      split at h
      case isTrue => cases h
      case isFalse hid =>
        obtain ⟨⟨messageData, v2⟩, heither, haccept⟩ := Option.bind_eq_some_iff.1 h
        obtain ⟨hcontent, hversion⟩ := acceptContent_eq_some haccept
        dsimp only at hcontent hversion
        obtain ⟨hplain, hpos, hle, hpadding, hkey⟩ :=
          decryptMessageData_spec sha1 sha256 aes bytes.2 (decryptEither_spec _ _ _ heither)
        unfold localMessageKey at hkey
        refine ⟨record, mem_of_encryptionKey hlookup, not_not.1 hid, messageData,
          hversion ▸ hplain, hcontent, hpos, hle, ?_, ?_⟩
        · grind
        · grind

/-- What the other client encrypts is read back with its padding, unless the header that
the message has does not have the parity of its sender or the version of its layer; and
only genuine messages are accepted. -/
theorem secret_message_round_trip (client : Client) (record : KeyData SecretKey) (message : Data)
    (v2 : Bool) (randomBytes : Nat → UInt8) (draw : Nat)
    (hkey : encryptionKeyForConversationId client.keys record.keyId = some record)
    (hid : int64 record.keyId = record.keyId) (hne : message ≠ [])
    (hsmall : message.length < 2 ^ 31 - 128) :
    (∃ data padding,
      encryptMessage sha1 sha256 aes message record.key record.keyId (!client.isCreator) v2
        randomBytes draw = some data ∧
      PaddingFor v2 message padding ∧
      ((v2 = false →
        decryptMessageData sha1 sha256 aes data record.key.1 client.isCreator true = none) →
        decryptEncryptedMessageData sha1 sha256 aes client data =
          acceptContent client.isCreator v2 (message ++ padding))) ∧
    ∀ (bytes : Datagram) (r : Decrypted),
      decryptEncryptedMessageData sha1 sha256 aes client bytes.1 = some r →
      Genuine sha1 sha256 aes client bytes.1 r := by
  refine ⟨?_, fun bytes r h => genuine_of_decrypted sha1 sha256 aes client bytes h⟩
  obtain ⟨padding, hpadding, hpadded⟩ := plaintext_eq message v2 randomBytes draw
  have hlength : (plaintext message v2 randomBytes draw).length =
      4 + message.length + padding.length := by
    rw [hpadded]
    simp only [List.length_append, length_int32Bytes]
    omega
  have hpos : 0 < message.length := List.length_pos_iff.2 hne
  obtain ⟨data, hencrypt, hdata, hcarried, hmessageKey, hplain⟩ :=
    encryptMessage_spec sha1 sha256 aes message record.key record.keyId (!client.isCreator) v2
      randomBytes draw (by rw [hlength]; exact hpadding.blocks)
  refine ⟨data, padding, hencrypt, hpadding, ?_⟩
  intro haccident
  rw [hpadded] at hmessageKey hplain
  have hdecrypt := decryptMessageData_own sha1 sha256 aes hne hsmall hpadding hplain hmessageKey
  rw [Bool.not_not] at hdecrypt
  have heither : decryptEither sha1 sha256 aes data record.key.1 client.isCreator =
      some (int32Bytes message.length ++ (message ++ padding), v2) := by
    unfold decryptEither
    cases v2 with
    | true => rw [hdecrypt, Option.map_some, Option.some_or]
    | false => rw [haccident rfl, hdecrypt, Option.map_none, Option.none_or, Option.map_some]
  have hblocks := hpadding.blocks
  unfold decryptEncryptedMessageData
  rw [if_neg (by omega), hcarried, hid, hkey]
  dsimp only
  rw [if_neg (by simp), heither]
  rfl

/-- A hash with the value zero, as long as it has to be. -/
def zeroSha1 (_ : Data) : Sha1Digest := ⟨List.replicate 20 0, rfl⟩

def zeroSecretKey : KeyData SecretKey where
  keyId := 7
  key := ⟨List.replicate 256 0, List.length_replicate⟩
  firstSeqOut := 0

def zeroClient : Client := { isCreator := true, keys := [zeroSecretKey] }

/-- Four bytes are read back with their padding. -/
theorem fourBytes_round_trip :
    ∃ data padding,
      encryptMessage zeroSha1 zeroDigest (fun _ => Equiv.refl _) [1, 2, 3, 4] zeroSecretKey.key 7
        false true (fun _ => 0) 0 = some data ∧
      decryptEncryptedMessageData zeroSha1 zeroDigest (fun _ => Equiv.refl _) zeroClient data =
        acceptContent true true ([1, 2, 3, 4] ++ padding) := by
  obtain ⟨⟨data, padding, hencrypt, -, hdecrypt⟩, -⟩ :=
    secret_message_round_trip zeroSha1 zeroDigest (fun _ => Equiv.refl _) zeroClient zeroSecretKey
      [1, 2, 3, 4] true (fun _ => 0) 0 rfl (by decide) (by decide) (by decide)
  exact ⟨data, padding, hencrypt, hdecrypt fun hfalse => by cases hfalse⟩

/-- What the other client gets of the four bytes. -/
def fourBytesRead : Option Data :=
  (encryptMessage zeroSha1 zeroDigest (fun _ => Equiv.refl _) [1, 2, 3, 4] zeroSecretKey.key 7
    false true (fun _ => 0) 0).bind fun data =>
      (decryptEncryptedMessageData zeroSha1 zeroDigest (fun _ => Equiv.refl _) zeroClient
        data).map (·.content)

/-- They are not read back alone. -/
theorem fourBytes_with_padding :
    fourBytesRead = some ([1, 2, 3, 4] ++ List.replicate 24 0) ∧
      fourBytesRead ≠ some [1, 2, 3, 4] := by
  decide +kernel

end TelegramPub.Ports.SecretEncryption
