import TelegramPub.Ports.VoipAcks
import TelegramPub.Ports.VoipReceiver

/-!
# VoIPController: sending a packet

`WritePacketHeader` writes one of two block formats, depending on the state of the
call, `SendPacket` encrypts the block and puts the tag, the fingerprint of the key and
the hash in front, and `HandleAudioInput` writes a frame of audio.  `packet_round_trip`
says that the peer, as `VoipReceiver` has it, reads back what was written.

There is one exception.  Behind the tag a relay's answers have twelve bytes `FF`, and a
packet that comes through a relay is taken for such an answer when the fingerprint of
the key and the first four bytes of its hash are all `FF`
(`packet_mistaken_for_response`).
-/

namespace TelegramPub.Ports.VoipPackets

open Verified.Bytes Verified.CheckedStream Verified.SerialWindow
open Ports.VoipEndpoints (EndpointType)
open Ports.VoipReception (Reception)
open Ports.VoipAcks (writeAcks)
open Ports.VoipReceiver

/-- A controller as the sending thread finds it, with the endpoint it sends to.
`waitingForInit`: the state is `STATE_WAIT_INIT` or `STATE_WAIT_INIT_ACK`. -/
structure Sender where
  crypto : Crypto
  encryptionKey : Data
  isOutgoing : Bool
  endpointType : EndpointType
  peerTag : Data
  length_peerTag : peerTag.length = 16
  waitingForInit : Bool
  reception : Reception := {}

/-- The random bytes of a packet. -/
structure Random where
  randomID : Data
  randBytes : Data
  padding : Data
  length_randomID : randomID.length = 8
  length_randBytes : randBytes.length = 7
  length_padding : padding.length = 16

/-- A TL length: one byte up to 253, else `254` and three bytes. -/
def writeTlLength (length : Nat) : Data :=
  if length ≤ 253 then [UInt8.ofNat length] else 254 :: natLE 3 length

namespace Sender

def keyFingerprint (s : Sender) : Data := s.crypto.keyFingerprint s.encryptionKey

def callID (s : Sender) : Data := s.crypto.callID s.encryptionKey

def tag (s : Sender) : Data := if s.endpointType.isRelay then s.peerTag else s.callID

/-- The numbers of the header: `lastRemoteSeq` and the mask of what has been
received. -/
def ackId (s : Sender) : Nat := (wire s.reception.lastRemoteSeq).toNat

def acks (s : Sender) : Nat := (writeAcks s.reception.recvPacketTimes).toNat

/-- The flags of a `decryptedAudioBlock`. -/
def pflags (type : UInt8) (length : Nat) : Nat :=
  type.toNat <<< 24 |||
    (2 ^ pflagHasRecentRecv ||| 2 ^ pflagHasSeq |||
      (if 0 < length then 2 ^ pflagHasData else 0) |||
      (2 ^ pflagHasCallId ||| 2 ^ pflagHasProto))

/-- `WritePacketHeader` for a payload of this length. -/
def writePacketHeader (s : Sender) (random : Random) (pseq : BitVec 32) (type : UInt8)
    (length : Nat) : Data :=
  if s.waitingForInit then
    natLE 4 tlidDecryptedAudioBlock ++ (random.randomID ++ ([7] ++ (random.randBytes ++
      (natLE 4 (pflags type length) ++ (s.callID ++ (natLE 4 s.ackId ++ (natLE 4 pseq.toNat ++
      (natLE 4 s.acks ++ (natLE 4 protocolName ++
      (if 0 < length then writeTlLength length else []))))))))))
  else
    natLE 4 tlidSimpleAudioBlock ++ (random.randomID ++ ([7] ++ (random.randBytes ++
      (writeTlLength (length + 13) ++ ([type] ++ (natLE 4 s.ackId ++ (natLE 4 pseq.toNat ++
      natLE 4 s.acks)))))))

/-- The block that is encrypted: the length, the data and random bytes up to a multiple
of 16. -/
def inner (random : Random) (data : Data) : Data :=
  natLE 4 data.length ++ (data ++ random.padding.take ((16 - (4 + data.length) % 16) % 16))

/-- The hash of a packet. -/
def msgHash (s : Sender) (data : Data) : Data :=
  (s.crypto.sha1 (natLE 4 data.length ++ data)).drop 4

/-- `SendPacket`, of data that is not empty. -/
def sendPacket (s : Sender) (random : Random) (data : Data) : Data :=
  let (key, iv) := s.crypto.kdf s.encryptionKey (s.msgHash data) (if s.isOutgoing then 0 else 8)
  s.tag ++ (s.keyFingerprint ++ (s.msgHash data ++
    s.crypto.aesIgeEncrypt (inner random data) key iv))

/-- A packet as `RunSendThread` sends it. -/
def datagram (s : Sender) (random : Random) (pseq : BitVec 32) (type : UInt8) (payload : Data) :
    Data :=
  s.sendPacket random (s.writePacketHeader random pseq type payload.length ++ payload)

end Sender

/-- `HandleAudioInput`: the payload with a frame of audio. -/
def handleAudioInput (data : Data) (audioTimestampOut : BitVec 32) : Data :=
  (if data.length > 255 then [(0x41 : UInt8)] ++ natLE 2 data.length
    else [(1 : UInt8)] ++ natLE 1 data.length) ++ (natLE 4 audioTimestampOut.toNat ++ data)

/-- The two controllers of a call: the same key, used in the two directions, and a tag
for the way between them on which they agree. -/
structure Peers (s : Sender) (r : Receiver) : Prop where
  crypto : r.crypto = s.crypto
  encryptionKey : r.encryptionKey = s.encryptionKey
  isOutgoing : r.isOutgoing = !s.isOutgoing
  relay : r.srcEndpointType.isRelay = s.endpointType.isRelay
  peerTag : s.endpointType.isRelay = true → r.peerTag = s.peerTag

/-- Behind the tag there are twelve bytes `FF`: eight of the fingerprint and four of the
hash of the data. -/
def LooksLikeResponse (s : Sender) (data : Data) : Prop :=
  s.endpointType.isRelay = true ∧ s.keyFingerprint = List.replicate 8 0xFF ∧
    (s.msgHash data).take 4 = List.replicate 4 0xFF

variable {length : Nat}

theorem readTlLength_writeTlLength (h : length < 2 ^ 24) (rest : Data) :
    readTlLength (writeTlLength length ++ rest) = .ok (length, rest) := by
  unfold writeTlLength readTlLength
  by_cases hshort : length ≤ 253
  · have hbyte : leNat [UInt8.ofNat length] = length := by
      simp only [leNat, UInt8.toNat_ofNat']
      omega
    have hread := @readNat_append 1 [UInt8.ofNat length] rfl rest
    rw [hbyte] at hread
    rw [if_pos hshort, bind_ok hread, if_pos (by omega), pure_apply]
  · have hread : readNat 1 (254 :: natLE 3 length ++ rest) = .ok (254, natLE 3 length ++ rest) :=
      @readNat_append 1 [254] rfl _
    rw [if_neg hshort, bind_ok hread, if_neg (by omega)]
    have hlen : 3 ≤ (natLE 3 length ++ rest).length := by simp
    rw [bind_ok
        (show remaining (natLE 3 length ++ rest) = .ok (_, natLE 3 length ++ rest) from rfl),
      bind_ok (show check _ (natLE 3 length ++ rest) = .ok ((), natLE 3 length ++ rest)
        from if_pos hlen)]
    exact readNat_natLE (by norm_num; omega) rest

/-- The random bytes are a TL string that needs no padding. -/
theorem skipString_randBytes {bytes : Data} (h : bytes.length = 7) (rest : Data) :
    skipString ([7] ++ (bytes ++ rest)) = .ok ((), rest) := by
  have hread : readTlLength ([7] ++ (bytes ++ rest)) = .ok (7, bytes ++ rest) :=
    @readTlLength_writeTlLength 7 (by norm_num) (bytes ++ rest)
  unfold skipString
  rw [bind_ok hread]
  exact skip_append h rest

/-- The flags as a number. -/
theorem pflags_eq (type : UInt8) (length : Nat) :
    Sender.pflags type length = type.toNat * 2 ^ 24 + if 0 < length then 61 else 60 := by
  unfold Sender.pflags
  have hsmall : (2 ^ pflagHasRecentRecv ||| 2 ^ pflagHasSeq |||
      (if 0 < length then 2 ^ pflagHasData else 0) |||
      (2 ^ pflagHasCallId ||| 2 ^ pflagHasProto)) = if 0 < length then 61 else 60 := by
    split <;> decide
  rw [hsmall, ← Nat.shiftLeft_add_eq_or_of_lt (by split <;> omega), Nat.shiftLeft_eq]

theorem testBit_pflags (type : UInt8) (length : Nat) {bit : Nat} (hbit : bit < 6) :
    (Sender.pflags type length).testBit bit =
      (if 0 < length then 61 else 60 : Nat).testBit bit := by
  rw [pflags_eq, Nat.mul_comm, Nat.testBit_two_pow_mul_add _ (by split <;> omega),
    if_pos (by omega)]

theorem pflags_lt (type : UInt8) (length : Nat) : Sender.pflags type length < 256 ^ 4 := by
  have htype := type.toNat_lt
  rw [pflags_eq]
  split <;> omega

theorem type_of_pflags (type : UInt8) (length : Nat) :
    (Sender.pflags type length >>> 24) % 256 = type.toNat := by
  have htype := type.toNat_lt
  rw [pflags_eq, Nat.shiftRight_eq_div_pow]
  split <;> omega

theorem length_callID (c : Crypto) (encryptionKey : Data) :
    (c.callID encryptionKey).length = 16 := by
  unfold Crypto.callID
  rw [List.length_drop, c.length_sha256]

theorem length_keyFingerprint (c : Crypto) (encryptionKey : Data) :
    (c.keyFingerprint encryptionKey).length = 8 := by
  unfold Crypto.keyFingerprint
  rw [List.length_drop, c.length_sha1]

namespace Sender

theorem length_tag (s : Sender) : s.tag.length = 16 := by
  unfold tag
  split
  · exact s.length_peerTag
  · exact length_callID _ _

theorem length_msgHash (s : Sender) (data : Data) : (s.msgHash data).length = 16 := by
  unfold msgHash
  rw [List.length_drop, s.crypto.length_sha1]

theorem length_padding (random : Random) (data : Data) :
    (random.padding.take ((16 - (4 + data.length) % 16) % 16)).length =
      (16 - (4 + data.length) % 16) % 16 := by
  rw [List.length_take, random.length_padding]
  omega

theorem length_inner (random : Random) (data : Data) :
    (inner random data).length = 4 + data.length + (16 - (4 + data.length) % 16) % 16 := by
  unfold inner
  rw [List.length_append, List.length_append, length_natLE, length_padding]
  omega

theorem length_sendPacket (s : Sender) (random : Random) (data : Data) :
    (s.sendPacket random data).length = 40 + (inner random data).length := by
  unfold sendPacket
  rw [List.length_append, List.length_append, List.length_append, length_tag,
    s.crypto.length_encrypt, length_msgHash]
  rw [show s.keyFingerprint.length = 8 from length_keyFingerprint _ _]
  omega

end Sender

theorem bytesAt_append {front middle : Data} {offset : Nat} (hfront : front.length = offset)
    (hmiddle : middle.length = length) (rest : Data) :
    bytesAt (front ++ (middle ++ rest)) offset length = middle := by
  unfold bytesAt
  rw [List.drop_left' hfront, List.take_left' hmiddle]

namespace Sender

theorem sendPacket_parts (s : Sender) (random : Random) (data : Data) :
    (s.sendPacket random data).take 16 = s.tag ∧
      bytesAt (s.sendPacket random data) 16 8 = s.keyFingerprint ∧
      bytesAt (s.sendPacket random data) 24 16 = s.msgHash data ∧
      bytesAt (s.sendPacket random data) 16 12 = s.keyFingerprint ++ (s.msgHash data).take 4 := by
  have htag := s.length_tag
  have hfp : s.keyFingerprint.length = 8 := length_keyFingerprint _ _
  have hhash := s.length_msgHash data
  unfold sendPacket
  dsimp only
  generalize s.crypto.aesIgeEncrypt _ _ _ = block
  refine ⟨List.take_left' htag, bytesAt_append htag hfp _, ?_, ?_⟩
  · rw [← List.append_assoc]
    exact bytesAt_append (by simp [htag, hfp]) hhash _
  · have hsplit : s.keyFingerprint ++ (s.msgHash data ++ block) =
        (s.keyFingerprint ++ (s.msgHash data).take 4) ++ ((s.msgHash data).drop 4 ++ block) := by
      rw [List.append_assoc, ← List.append_assoc ((s.msgHash data).take 4), List.take_append_drop]
    rw [hsplit]
    exact bytesAt_append htag (by simp [hfp, hhash]) _

end Sender

variable {s : Sender} {r : Receiver}

theorem plaintext_sendPacket (h : Peers s r) (random : Random) (data : Data)
    : r.plaintext (s.sendPacket random data) = Sender.inner random data := by
  have hhash := (s.sendPacket_parts random data).2.2.1
  have hmod : (Sender.inner random data).length % 16 = 0 := by
    rw [Sender.length_inner]
    omega
  have hoffset : (if r.isOutgoing then 8 else 0) = if s.isOutgoing then 0 else 8 := by
    rw [h.isOutgoing]
    cases s.isOutgoing <;> rfl
  unfold Receiver.plaintext
  rw [hhash, h.crypto, h.encryptionKey, hoffset]
  have hblock : (s.sendPacket random data).drop 40 = s.crypto.aesIgeEncrypt
      (Sender.inner random data)
      (s.crypto.kdf s.encryptionKey (s.msgHash data) (if s.isOutgoing then 0 else 8)).1
      (s.crypto.kdf s.encryptionKey (s.msgHash data) (if s.isOutgoing then 0 else 8)).2 := by
    unfold Sender.sendPacket
    dsimp only
    rw [← List.append_assoc, ← List.append_assoc]
    refine List.drop_left' ?_
    simp [s.length_tag, s.length_msgHash,
      show s.keyFingerprint.length = 8 from length_keyFingerprint _ _]
  rw [hblock]
  exact s.crypto.decrypt_encrypt _ _ _ hmod

theorem hashMatches_sendPacket (h : Peers s r) (random : Random) {data : Data}
    (hfits : data.length < 2 ^ 32) : r.HashMatches (s.sendPacket random data) := by
  have hhash := (s.sendPacket_parts random data).2.2.1
  have hlen : leNat ((Sender.inner random data).take 4) = data.length := by
    unfold Sender.inner
    rw [List.take_left' (length_natLE 4 _), leNat_natLE]
    exact Nat.mod_eq_of_lt (by norm_num; exact hfits)
  have hmin : min data.length ((Sender.inner random data).length - 4) = data.length := by
    rw [Sender.length_inner]
    omega
  have htake : (Sender.inner random data).take (data.length + 4) =
      natLE 4 data.length ++ data := by
    unfold Sender.inner
    rw [← List.append_assoc]
    refine List.take_left' ?_
    simp [Nat.add_comm]
  unfold Receiver.HashMatches
  dsimp only
  rw [plaintext_sendPacket h, hhash, hlen, hmin, htake, h.crypto]
  rfl

theorem tag_eq (h : Peers s r) : s.tag = r.tag := by
  unfold Sender.tag Receiver.tag Sender.callID Receiver.callID
  rw [h.relay, h.crypto, h.encryptionKey]
  split
  case isTrue hrelay => exact (h.peerTag hrelay).symm
  case isFalse => rfl

theorem authenticate_sendPacket (h : Peers s r) (random : Random) {data : Data}
    (hlen : 12 ≤ data.length) (hfits : data.length < 2 ^ 32) (hresp : ¬LooksLikeResponse s data) :
    r.authenticate (s.sendPacket random data) =
      .ok ((), data ++ random.padding.take ((16 - (4 + data.length) % 16) % 16)) := by
  obtain ⟨htag, hfp, _, hhead⟩ := s.sendPacket_parts random data
  have hlength := s.length_sendPacket random data
  have hinner := Sender.length_inner random data
  have hadm : r.Admits (s.sendPacket random data) := by
    refine ⟨by omega, by rw [htag, tag_eq h], ?_, ?_⟩
    · rintro ⟨hrelay, hff⟩
      rw [hhead] at hff
      rw [h.relay] at hrelay
      have hsplit : s.keyFingerprint ++ (s.msgHash data).take 4 =
          List.replicate 8 0xFF ++ List.replicate 4 0xFF := hff
      obtain ⟨hkey, hhash⟩ := List.append_inj hsplit (by
        rw [List.length_replicate]
        exact length_keyFingerprint _ _)
      exact hresp ⟨hrelay, hkey, hhash⟩
    · rw [hfp]
      unfold Sender.keyFingerprint Receiver.keyFingerprint
      rw [h.crypto, h.encryptionKey]
  have hmod : ((s.sendPacket random data).length - 40) % 16 = 0 := by omega
  have hhash := hashMatches_sendPacket h random hfits
  have hdata : (Sender.inner random data).drop 4 =
      data ++ random.padding.take ((16 - (4 + data.length) % 16) % 16) :=
    List.drop_left' (length_natLE 4 _)
  rcases Receiver.authenticate_cases r (s.sendPacket random data) with ⟨_, hshort, _⟩ |
    ⟨_, hnot, _⟩ | ⟨_, hbad, _⟩ | ⟨_, _, hno, _⟩ | ⟨_, _, _, hok⟩
  · omega
  · exact absurd hadm hnot
  · exact absurd hmod hbad
  · exact absurd hhash hno
  · rw [hok, plaintext_sendPacket h, hdata]

/-- What the peer should read from the header.  The first format has no length for an
empty payload, and in the second one it covers the rest of the header. -/
def expectedHeader (s : Sender) (r : Receiver) (pseq : BitVec 32) (type : UInt8)
    (length : Nat) : Header where
  type := type.toNat
  ackId := s.ackId
  pseq := pseq.toNat
  acks := s.acks
  packetInnerLen :=
    if s.waitingForInit then if 0 < length then length else r.uninitialised else length + 13

theorem readNat_toNat (n : BitVec 32) (rest : Data) :
    readNat 4 (natLE 4 n.toNat ++ rest) = .ok (n.toNat, rest) :=
  readNat_natLE (by have := n.isLt; norm_num; omega) rest

theorem readHeader_simple (s : Sender) (r : Receiver) (random : Random) (pseq : BitVec 32)
    (type : UInt8) (hlen : length + 13 < 2 ^ 24) (hsimple : s.waitingForInit = false) (rest : Data)
    :
    r.readHeader (s.writePacketHeader random pseq type length ++ rest) =
      .ok (expectedHeader s r pseq type length, rest) := by
  have htype : ∀ rest, readNat 1 ([type] ++ rest) = .ok (type.toNat, rest) := by
    intro rest
    have hread := @readNat_append 1 [type] rfl rest
    simpa [leNat] using hread
  have htlid : ∀ rest, readNat 4 (natLE 4 tlidSimpleAudioBlock ++ rest) =
      .ok (tlidSimpleAudioBlock, rest) := fun rest => readNat_natLE (by decide) rest
  unfold Sender.writePacketHeader expectedHeader
  rw [hsimple]
  simp only [Bool.false_eq_true, if_false, List.append_assoc]
  unfold Receiver.readHeader
  rw [bind_ok (htlid _), if_neg (by decide), if_pos rfl]
  unfold Receiver.readSimpleAudioBlock
  rw [bind_ok (readNat_append random.length_randomID _),
    bind_ok (skipString_randBytes random.length_randBytes _),
    bind_ok (readTlLength_writeTlLength hlen _), bind_ok (htype _)]
  unfold Sender.ackId Sender.acks
  rw [bind_ok (readNat_toNat _ _), bind_ok (readNat_toNat _ _), bind_ok (readNat_toNat _ _)]
  rfl

/-- The fields of the first format. -/
theorem readFields_write (h : Peers s r) (pseq : BitVec 32) (type : UInt8) (length : Nat)
    (rest : Data) :
    r.readFields (natLE 4 (Sender.pflags type length) ++ (s.callID ++ (natLE 4 s.ackId ++
      (natLE 4 pseq.toNat ++ (natLE 4 s.acks ++ (natLE 4 protocolName ++ rest)))))) =
      .ok ((Sender.pflags type length,
        { type := type.toNat, ackId := s.ackId, pseq := pseq.toNat, acks := s.acks,
          packetInnerLen := r.uninitialised }), rest) := by
  have hbit : ∀ bit, 2 ≤ bit → bit < 6 → (Sender.pflags type length).testBit bit = true := by
    intro bit hlo hhi
    rw [testBit_pflags type length hhi]
    have hcases : bit = 2 ∨ bit = 3 ∨ bit = 4 ∨ bit = 5 := by omega
    rcases hcases with rfl | rfl | rfl | rfl <;> split <;> decide
  have hcall : ∀ rest, r.checkCallId (Sender.pflags type length) (s.callID ++ rest) =
      .ok ((), rest) := by
    intro rest
    have hid : s.callID = r.callID := by
      unfold Sender.callID Receiver.callID
      rw [h.crypto, h.encryptionKey]
    unfold Receiver.checkCallId
    rw [if_pos (hbit pflagHasCallId (by decide) (by decide)),
      bind_ok (readBytes_append (show s.callID.length = 16 from length_callID _ _) rest),
      if_neg (not_not.mpr hid)]
    rfl
  have hproto : ∀ rest, Receiver.checkProto (Sender.pflags type length)
      (natLE 4 protocolName ++ rest) = .ok ((), rest) := by
    intro rest
    unfold Receiver.checkProto
    rw [if_pos (hbit pflagHasProto (by decide) (by decide)),
      bind_ok (readNat_natLE (by decide) rest), if_neg (not_not.mpr rfl)]
    rfl
  unfold Receiver.readFields
  rw [bind_ok (readNat_natLE (pflags_lt type length) _),
    if_neg (not_not.mpr ⟨hbit _ (by decide) (by decide), hbit _ (by decide) (by decide)⟩),
    bind_ok (hcall _)]
  unfold Sender.ackId Sender.acks
  rw [bind_ok (readNat_toNat _ _), bind_ok (readNat_toNat _ _), bind_ok (readNat_toNat _ _),
    bind_ok (hproto _), type_of_pflags]
  rfl

theorem readHeader_decrypted (h : Peers s r) (random : Random) (pseq : BitVec 32) (type : UInt8)
    (hlen : length + 13 < 2 ^ 24) (hinit : s.waitingForInit = true) (rest : Data) :
    r.readHeader (s.writePacketHeader random pseq type length ++ rest) =
      .ok (expectedHeader s r pseq type length, rest) := by
  have htlid : ∀ rest, readNat 4 (natLE 4 tlidDecryptedAudioBlock ++ rest) =
      .ok (tlidDecryptedAudioBlock, rest) := fun rest => readNat_natLE (by decide) rest
  have hextra : (Sender.pflags type length).testBit pflagHasExtra = false := by
    rw [testBit_pflags type length (by decide)]
    split <;> decide
  have hdata : (Sender.pflags type length).testBit pflagHasData = decide (0 < length) := by
    rw [testBit_pflags type length (by decide)]
    by_cases hpos : 0 < length <;> simp [hpos, pflagHasData]
  unfold Sender.writePacketHeader expectedHeader
  rw [hinit]
  simp only [if_true, List.append_assoc]
  unfold Receiver.readHeader
  rw [bind_ok (htlid _), if_pos rfl]
  unfold Receiver.readDecryptedAudioBlock
  rw [bind_ok (readNat_append random.length_randomID _),
    bind_ok (skipString_randBytes random.length_randBytes _),
    bind_ok (readFields_write h pseq type length _)]
  dsimp only
  unfold Receiver.readLengths Receiver.skipExtra Receiver.readInnerLen
  rw [hextra, hdata, if_neg (by decide), bind_ok (pure_apply () _)]
  by_cases hpos : 0 < length
  · simp only [hpos, decide_true, if_true]
    rw [bind_ok (readTlLength_writeTlLength (by omega) rest)]
    rfl
  · simp only [hpos, decide_false, Bool.false_eq_true, if_false, List.nil_append]
    rfl

/-- In both formats the peer reads what was written, and stops before the payload. -/
theorem readHeader_writePacketHeader (h : Peers s r) (random : Random) (pseq : BitVec 32)
    (type : UInt8) (hlen : length + 13 < 2 ^ 24) (rest : Data) :
    r.readHeader (s.writePacketHeader random pseq type length ++ rest) =
      .ok (expectedHeader s r pseq type length, rest) := by
  cases hstate : s.waitingForInit with
  | true => exact readHeader_decrypted h random pseq type hlen hstate rest
  | false => exact readHeader_simple s r random pseq type hlen hstate rest

/-- The part of the receiver before the reception window. -/
def acceptPacket (r : Receiver) : Handler Header := do
  r.authenticate
  r.readHeader

theorem le_length_writePacketHeader (s : Sender) (random : Random) (pseq : BitVec 32)
    (type : UInt8) (length : Nat) :
    12 ≤ (s.writePacketHeader random pseq type length).length := by
  unfold Sender.writePacketHeader
  split
  · rw [List.length_append, List.length_append, length_natLE, random.length_randomID]
    omega
  · rw [List.length_append, List.length_append, length_natLE, random.length_randomID]
    omega

/-- The packet that the peer finds in a datagram. -/
theorem authenticate_datagram (h : Peers s r) (random : Random) (pseq : BitVec 32) (type : UInt8)
    {payload : Data} (hfits : (s.datagram random pseq type payload).length ≤ 1024)
    (hresp : ¬LooksLikeResponse s
      (s.writePacketHeader random pseq type payload.length ++ payload)) :
    payload.length ≤ 1024 ∧ ∃ padding, r.authenticate (s.datagram random pseq type payload) =
      .ok ((), s.writePacketHeader random pseq type payload.length ++ (payload ++ padding)) := by
  have hheader := le_length_writePacketHeader s random pseq type payload.length
  unfold Sender.datagram at hfits ⊢
  rw [Sender.length_sendPacket, Sender.length_inner, List.length_append] at hfits
  have hauth := authenticate_sendPacket h random
    (by rw [List.length_append]; omega) (by rw [List.length_append]; omega) hresp
  rw [List.append_assoc] at hauth
  exact ⟨by omega, _, hauth⟩

theorem readFrames_handleAudioInput (r : Receiver) (jb : JitterBuffer.State) {data : Data}
    (hlen : data.length < 2 ^ 16) (audioTimestampOut : BitVec 32) (rest : Data) :
    r.readFrames (some jb) 1 (handleAudioInput data audioTimestampOut ++ rest) =
      (JitterBuffer.handleInput r.jitterConfig jb data
        (UInt32.ofNat audioTimestampOut.toNat)).elim
          (.error { stop := .assertion, mutexLocked := true })
          fun _ => .ok ([⟨data, audioTimestampOut.toNat⟩], data ++ rest) := by
  have hfront : ∀ (rest : Data), ∃ id, readNat 1 ((if data.length > 255 then
      [(0x41 : UInt8)] ++ natLE 2 data.length else [(1 : UInt8)] ++ natLE 1 data.length) ++ rest) =
        .ok (id, (if data.length > 255 then natLE 2 data.length else natLE 1 data.length) ++ rest) ∧
      Receiver.readFrameLength id ((if data.length > 255 then natLE 2 data.length
        else natLE 1 data.length) ++ rest) = .ok (data.length, rest) := by
    intro rest
    by_cases hlong : data.length > 255
    · refine ⟨0x41, ?_, ?_⟩
      · rw [if_pos hlong, if_pos hlong, List.append_assoc]
        exact @readNat_append 1 [0x41] rfl _
      · rw [if_pos hlong]
        exact readNat_natLE (by norm_num; omega) rest
    · refine ⟨1, ?_, ?_⟩
      · rw [if_neg hlong, if_neg hlong, List.append_assoc]
        exact @readNat_append 1 [1] rfl _
      · rw [if_neg hlong]
        exact readNat_natLE (by norm_num; omega) rest
  obtain ⟨id, hid, hlength⟩ := hfront (natLE 4 audioTimestampOut.toNat ++ (data ++ rest))
  have hhead : Receiver.readFrameHead (handleAudioInput data audioTimestampOut ++ rest) =
      .ok ((data.length, audioTimestampOut.toNat), data ++ rest) := by
    unfold handleAudioInput Receiver.readFrameHead
    rw [List.append_assoc, List.append_assoc, bind_ok hid, bind_ok hlength,
      bind_ok (readNat_toNat audioTimestampOut _)]
    rfl
  have hinput := Receiver.handleInput_put r jb
    (show data.length ≤ (data ++ rest).length by simp) audioTimestampOut.toNat
  rw [List.take_left' rfl] at hinput
  unfold Receiver.putFrame at hinput
  unfold Receiver.readFrames
  rw [bind_ok hhead]
  dsimp only at hinput ⊢
  cases hput : JitterBuffer.handleInput r.jitterConfig jb data
    (UInt32.ofNat audioTimestampOut.toNat) with
  | none =>
    rw [hput] at hinput
    exact bind_error hinput
  | some jb' =>
    rw [hput] at hinput
    exact bind_ok hinput

theorem length_le_handleAudioInput (data : Data) (audioTimestampOut : BitVec 32) :
    data.length ≤ (handleAudioInput data audioTimestampOut).length := by
  unfold handleAudioInput
  rw [List.length_append, List.length_append]
  omega

/-- The datagram of a packet that fits the buffers is accepted by the peer, which reads
the header that was written and stops at the payload; and a frame of audio gets to the
jitter buffer of a peer that has one and takes the packet, where all goes well unless
there is no slot for it.  The packet does not look like the response of a relay. -/
theorem packet_round_trip {s : Sender} {r : Receiver} (h : Peers s r) (random : Random)
    (pseq : BitVec 32) :
    (∀ (type : UInt8) (payload : Data),
      (s.datagram random pseq type payload).length ≤ 1024 →
      ¬LooksLikeResponse s (s.writePacketHeader random pseq type payload.length ++ payload) →
      ∃ padding, acceptPacket r (s.datagram random pseq type payload) =
        .ok (expectedHeader s r pseq type payload.length, payload ++ padding)) ∧
    (∀ (data : Data) (audioTimestampOut : BitVec 32),
      (s.datagram random pseq (UInt8.ofNat pktStreamData)
        (handleAudioInput data audioTimestampOut)).length ≤ 1024 →
      ¬LooksLikeResponse s (s.writePacketHeader random pseq (UInt8.ofNat pktStreamData)
        (handleAudioInput data audioTimestampOut).length ++
          handleAudioInput data audioTimestampOut) →
      ∀ jb ∈ r.jitterBuffer, (r.reception.receive pseq.toNat).2 = true →
      ∃ rest, r.handle (s.datagram random pseq (UInt8.ofNat pktStreamData)
        (handleAudioInput data audioTimestampOut)) =
          (JitterBuffer.handleInput r.jitterConfig jb data
            (UInt32.ofNat audioTimestampOut.toNat)).elim
              (.error { stop := .assertion, mutexLocked := true })
              fun _ => .ok ((expectedHeader s r pseq (UInt8.ofNat pktStreamData)
                (handleAudioInput data audioTimestampOut).length,
                [⟨data, audioTimestampOut.toNat⟩]), rest)) := by
  constructor
  · intro type payload hfits hresp
    obtain ⟨hlen, padding, hauth⟩ := authenticate_datagram h random pseq type hfits hresp
    refine ⟨padding, ?_⟩
    unfold acceptPacket
    rw [bind_ok hauth]
    exact readHeader_writePacketHeader h random pseq type (by omega) _
  · intro data audioTimestampOut hfits hresp jb hjb haccept
    obtain ⟨hlen, padding, hauth⟩ := authenticate_datagram h random pseq _ hfits hresp
    have hdata := length_le_handleAudioInput data audioTimestampOut
    have hheader := readHeader_writePacketHeader h random pseq (UInt8.ofNat pktStreamData)
      (by omega : (handleAudioInput data audioTimestampOut).length + 13 < 2 ^ 24)
      (handleAudioInput data audioTimestampOut ++ padding)
    have hframes := readFrames_handleAudioInput r jb (by omega : data.length < 2 ^ 16)
      audioTimestampOut padding
    have hbody : r.handleBody (expectedHeader s r pseq (UInt8.ofNat pktStreamData)
        (handleAudioInput data audioTimestampOut).length) = r.readFrames (some jb) 1 := by
      rw [← show r.jitterBuffer = some jb from hjb]
      exact Receiver.handleBody_stream r (.inl rfl)
    have hwindow : ¬(r.reception.receive ((expectedHeader s r pseq (UInt8.ofNat pktStreamData)
        (handleAudioInput data audioTimestampOut).length).pseq : Nat)).2 = false := by
      rw [show (expectedHeader s r pseq _ _).pseq = pseq.toNat from rfl, haccept]
      decide
    refine ⟨data ++ padding, ?_⟩
    unfold Receiver.handle
    rw [bind_ok hauth, bind_ok hheader, if_neg hwindow,
      bind_ok (show holdingMutex (pure ()) (handleAudioInput data audioTimestampOut ++ padding) =
        .ok ((), handleAudioInput data audioTimestampOut ++ padding) from rfl), hbody]
    cases hput : JitterBuffer.handleInput r.jitterConfig jb data
      (UInt32.ofNat audioTimestampOut.toNat) with
    | none =>
      rw [hput] at hframes
      exact bind_error hframes
    | some jb' =>
      rw [hput] at hframes
      exact bind_ok hframes

/-- The other side of `plainReceiver`, once the call is established. -/
def plainSender : Sender where
  crypto := plainReceiver.crypto
  encryptionKey := plainReceiver.encryptionKey
  isOutgoing := true
  endpointType := .udpP2pInet
  peerTag := List.replicate 16 0
  length_peerTag := rfl
  waitingForInit := false

def zeroRandom : Random where
  randomID := List.replicate 8 0
  randBytes := List.replicate 7 0
  padding := List.replicate 16 0
  length_randomID := rfl
  length_randBytes := rfl
  length_padding := rfl

/-- A receiver that plays what it gets. -/
def playingReceiver : Receiver :=
  { plainReceiver with
    jitterBuffer := some (JitterBuffer.create 0 0)
    owned := by
      rintro _ ⟨⟩
      exact JitterSlots.owned_create 0 0 }

/-- A packet of type 6, and one of audio. -/
theorem plainPacket_round_trip :
    (∃ padding, acceptPacket playingReceiver (plainSender.datagram zeroRandom 7 6 [1, 2, 3]) =
      .ok (expectedHeader plainSender playingReceiver 7 6 3, [1, 2, 3] ++ padding)) ∧
    ∃ rest, playingReceiver.handle (plainSender.datagram zeroRandom 7 (UInt8.ofNat pktStreamData)
      (handleAudioInput [5, 6] 960)) =
        .ok ((expectedHeader plainSender playingReceiver 7 (UInt8.ofNat pktStreamData)
          (handleAudioInput [5, 6] 960).length, [⟨[5, 6], 960⟩]), rest) := by
  have hpeers : Peers plainSender playingReceiver :=
    ⟨rfl, rfl, rfl, rfl, fun h => by cases h⟩
  have hresp : ∀ data, ¬LooksLikeResponse plainSender data := by
    rintro data ⟨hrelay, _⟩
    cases hrelay
  obtain ⟨hpacket, haudio⟩ := packet_round_trip hpeers zeroRandom 7
  have hput : (JitterBuffer.handleInput playingReceiver.jitterConfig (JitterBuffer.create 0 0)
      [5, 6] 960).isSome := by
    decide +kernel
  obtain ⟨jb, hput⟩ := Option.isSome_iff_exists.1 hput
  have hframe := haudio [5, 6] 960 (by decide +kernel) (hresp _) _ rfl (by decide +kernel)
  rw [show (UInt32.ofNat (960 : BitVec 32).toNat) = 960 from rfl, hput] at hframe
  exact ⟨hpacket 6 [1, 2, 3] (by decide +kernel) (hresp _), hframe⟩

/-- A relay between two peers whose hashes are all `FF`. -/
def relaySender : Sender where
  crypto :=
    { plainReceiver.crypto with
      sha1 := fun _ => List.replicate 20 0xFF
      length_sha1 := fun _ => rfl }
  encryptionKey := List.replicate 256 0
  isOutgoing := true
  endpointType := .udpRelay
  peerTag := List.replicate 16 0
  length_peerTag := rfl
  waitingForInit := false

def relayReceiver : Receiver where
  crypto := relaySender.crypto
  encryptionKey := relaySender.encryptionKey
  isOutgoing := false
  srcEndpointType := .udpRelay
  peerTag := List.replicate 16 0

/-- The datagram fits the buffers, and the peer does not read the packet in it. -/
theorem packet_mistaken_for_response :
    Peers relaySender relayReceiver ∧
      (relaySender.datagram zeroRandom 7 6 [1, 2, 3]).length ≤ 1024 ∧
      acceptPacket relayReceiver (relaySender.datagram zeroRandom 7 6 [1, 2, 3]) =
        .error { stop := .next } := by
  refine ⟨⟨rfl, rfl, rfl, rfl, fun _ => rfl⟩, ?_, ?_⟩
  · decide +kernel
  · decide +kernel

end TelegramPub.Ports.VoipPackets
