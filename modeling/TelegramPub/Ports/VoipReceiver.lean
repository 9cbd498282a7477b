import TelegramPub.Verified.CheckedStream
import TelegramPub.Ports.JitterSlots
import TelegramPub.Ports.VoipEndpoints
import TelegramPub.Ports.VoipReception

/-!
# VoIPController: handling a datagram

`RunRecvThread` takes a datagram apart with `BufferInputStream`, whose reads are
checked and throw.  Four things are outside of the checks: the comparison of the
first 16 bytes with the peer tag, which a shorter datagram does not have; the
decryption, which needs a multiple of 16 bytes and is called with what is there; an
assertion in `ReadTlLength`, made before the check, that a length in the long form
is complete (`handle_goes_wrong`); and the jitter buffer, which aborts when it has to
remove a packet and finds none.

The datagram comes from a known endpoint.  What the thread does to the rest of the
controller is in the other modules; here only its decisions matter, and the calls of
the jitter buffer.
-/

namespace TelegramPub.Ports.VoipReceiver

open Verified.Bytes Verified.CheckedStream Verified.Machine
open Ports.VoipEndpoints (EndpointType)
open Ports.VoipReception

/-! ## The state that the receiver reads -/

/-- `voip_crypto_functions_t`: the functions are given to the controller, with the
lengths that their callers rely on. -/
structure Crypto where
  sha1 : Data → Data
  sha256 : Data → Data
  aesIgeEncrypt (data key iv : Data) : Data
  aesIgeDecrypt (data key iv : Data) : Data
  length_sha1 : ∀ data, (sha1 data).length = 20
  length_sha256 : ∀ data, (sha256 data).length = 32
  length_encrypt : ∀ data key iv, (aesIgeEncrypt data key iv).length = data.length
  length_decrypt : ∀ data key iv, (aesIgeDecrypt data key iv).length = data.length
  decrypt_encrypt : ∀ data key iv, data.length % 16 = 0 →
    aesIgeDecrypt (aesIgeEncrypt data key iv) key iv = data

/-- `length` bytes from `offset` on. -/
def bytesAt (data : Data) (offset length : Nat) : Data := (data.drop offset).take length

/-- `KDF`: the AES key and initialization vector for a message. -/
def Crypto.kdf (c : Crypto) (encryptionKey msgKey : Data) (x : Nat) : Data × Data :=
  let sA := c.sha1 (msgKey ++ bytesAt encryptionKey x 32)
  let sB := c.sha1 (bytesAt encryptionKey (32 + x) 16 ++ msgKey ++
    bytesAt encryptionKey (48 + x) 16)
  let sC := c.sha1 (bytesAt encryptionKey (64 + x) 32 ++ msgKey)
  let sD := c.sha1 (msgKey ++ bytesAt encryptionKey (96 + x) 32)
  (bytesAt sA 0 8 ++ bytesAt sB 8 12 ++ bytesAt sC 4 12,
    bytesAt sA 8 12 ++ bytesAt sB 0 8 ++ bytesAt sC 16 4 ++ bytesAt sD 0 8)

/-- `SetEncryptionKey`: what the controllers of both sides derive from their key. -/
def Crypto.keyFingerprint (c : Crypto) (encryptionKey : Data) : Data :=
  (c.sha1 encryptionKey).drop 12

def Crypto.callID (c : Crypto) (encryptionKey : Data) : Data := (c.sha256 encryptionKey).drop 16

theorem owned_none : ∀ jb ∈ (none : Option JitterBuffer.State),
    JitterSlots.Owned jb.slots jb.bufferPool := by simp

/-- A controller as the receiving thread finds it, with the endpoint that the datagram
comes from.  `uninitialised` is what happens to be in `packetInnerLen` when the header
does not set it; `audioWorks`: the audio devices can be opened.  The slots of the jitter
buffer agree with its pool, as they do after all calls that do not abort
(`JitterSlots.slots_sound`). -/
structure Receiver where
  crypto : Crypto
  encryptionKey : Data
  isOutgoing : Bool
  srcEndpointType : EndpointType
  peerTag : Data
  udpPingSent : Bool := false
  waitingForRelayPeerInfo : Bool := false
  reception : Reception := {}
  currentEndpointType : EndpointType := .udpRelay
  receivedInitAck : Bool := false
  peerVersion : Int := 0
  uninitialised : Nat := 0
  jitterConfig : JitterBuffer.Config := JitterBuffer.config60
  jitterBuffer : Option JitterBuffer.State := none
  owned : ∀ jb ∈ jitterBuffer, JitterSlots.Owned jb.slots jb.bufferPool := by exact owned_none
  audioWorks : Bool := true

namespace Receiver

def keyFingerprint (r : Receiver) : Data := r.crypto.keyFingerprint r.encryptionKey

def callID (r : Receiver) : Data := r.crypto.callID r.encryptionKey

/-- What the first 16 bytes of a datagram are compared with. -/
def tag (r : Receiver) : Data := if r.srcEndpointType.isRelay then r.peerTag else r.callID

/-! ## Responses of a relay -/

def tlidUdpReflectorPeerInfo : Nat := 0x27D9371C

def tlidUdpReflectorSelfInfo : Nat := 0xc01572c7

/-- Whether this is the response of a relay to a special request. -/
def isRelayResponse (r : Receiver) : Handler Bool := do
  let n ← remaining
  if 16 ≤ n ∧ r.srcEndpointType.isRelay = true then
    let head ← peek 12
    return decide (head = List.replicate 12 0xFF)
  else return false

/-- The response of a relay.  The peer information is read with `endpointsMutex`
locked. -/
def relayResponse (r : Receiver) : Handler Unit := do
  skip 12
  let tlid ← readNat 4
  let n ← remaining
  if tlid = tlidUdpReflectorSelfInfo then
    if r.srcEndpointType = .udpRelay ∧ r.udpPingSent = true ∧ 32 ≤ n then do
      let _date ← readNat 4
      let _queryID ← readNat 8
      let _myIP ← readBytes 16
      let _myPort ← readNat 4
      return
    else return
  else if tlid = tlidUdpReflectorPeerInfo then
    if r.waitingForRelayPeerInfo = true ∧ 16 ≤ n then
      holdingMutex do
        let _myAddr ← readNat 4
        let _myPort ← readNat 4
        let _peerAddr ← readNat 4
        let _peerPort ← readNat 4
        return
    else return
  else return

/-- The checks before a packet is decrypted; the result is its message hash. -/
def checkEnvelope (r : Receiver) : Handler Data := do
  let n ← remaining
  if n = 0 then halt .next else
  let head ← peek 16
  if head ≠ r.tag then halt .next else
  skip 16
  if ← r.isRelayResponse then do
    r.relayResponse
    halt .next
  else
  let n ← remaining
  if n < 40 then halt .next else
  let fingerprint ← readBytes 8
  let msgHash ← readBytes 16
  if fingerprint ≠ r.keyFingerprint then halt .next else
  return msgHash

/-- Decryption in place, of all that is left of the datagram. -/
def decrypt (r : Receiver) (msgHash : Data) : Handler Unit := fun rest =>
  let (key, iv) := r.crypto.kdf r.encryptionKey msgHash (if r.isOutgoing then 8 else 0)
  if key.length ≠ 32 ∨ iv.length ≠ 32 then .error { stop := .assertion }
  else if rest.length = 0 ∨ rest.length % 16 ≠ 0 then .error { stop := .precondition }
  else .ok ((), r.crypto.aesIgeDecrypt rest key iv)

/-- The check of the hash over the length and the packet. -/
def checkHash (r : Receiver) (msgHash : Data) : Handler Unit := fun block =>
  (do
    let len ← readNat 4
    let n ← remaining
    let len := if len > n then n else len
    if block.length < len + 4 then halt .outside else
    if msgHash ≠ (r.crypto.sha1 (block.take (len + 4))).drop 4 then halt .next else
    return) block

def authenticate (r : Receiver) : Handler Unit := do
  let msgHash ← r.checkEnvelope
  r.decrypt msgHash
  r.checkHash msgHash

end Receiver

/-- `pad4`. -/
def pad4 (x : Nat) : Nat :=
  let r := 4 - (x + if x ≤ 253 then 1 else 0) % 4
  if r = 4 then 0 else r

/-- `ReadTlLength`. -/
def readTlLength : Handler Nat := do
  let l ← readNat 1
  if l < 254 then return l else
  let n ← remaining
  check (3 ≤ n)
  readNat 3

/-- A TL string that is not looked at. -/
def skipString : Handler Unit := do
  let n ← readTlLength
  skip (n + pad4 n)

def tlidDecryptedAudioBlock : Nat := 0xDBF948C1

def tlidSimpleAudioBlock : Nat := 0xCC0D0E76

def protocolName : Nat := 0x50567247

/-- The bits of the flags: `PFLAG_HAS_DATA` and so on. -/
def pflagHasData : Nat := 0

def pflagHasExtra : Nat := 1

def pflagHasCallId : Nat := 2

def pflagHasProto : Nat := 3

def pflagHasSeq : Nat := 4

def pflagHasRecentRecv : Nat := 5

/-- What is read from the header of a packet. -/
structure Header where
  type : Nat
  ackId : Nat
  pseq : Nat
  acks : Nat
  packetInnerLen : Nat
  deriving DecidableEq

namespace Receiver

def checkCallId (r : Receiver) (flags : Nat) : Handler Unit :=
  if flags.testBit pflagHasCallId then do
    let pktCallID ← readBytes 16
    if pktCallID ≠ r.callID then halt .failed else pure ()
  else pure ()

def checkProto (flags : Nat) : Handler Unit :=
  if flags.testBit pflagHasProto then do
    let proto ← readNat 4
    if proto ≠ protocolName then halt .failed else pure ()
  else pure ()

/-- The flags of a `decryptedAudioBlock` and the fields up to the lengths. -/
def readFields (r : Receiver) : Handler (Nat × Header) := do
  let flags ← readNat 4
  if ¬(flags.testBit pflagHasSeq = true ∧ flags.testBit pflagHasRecentRecv = true) then
    halt .next
  else
  r.checkCallId flags
  let ackId ← readNat 4
  let pseq ← readNat 4
  let acks ← readNat 4
  checkProto flags
  return (flags,
    { type := (flags >>> 24) % 256, ackId, pseq, acks, packetInnerLen := r.uninitialised })

def skipExtra (flags : Nat) : Handler Unit :=
  if flags.testBit pflagHasExtra then skipString else pure ()

def readInnerLen (flags uninitialised : Nat) : Handler Nat :=
  if flags.testBit pflagHasData then readTlLength else pure uninitialised

/-- The extra string, and the length of the data. -/
def readLengths (flags : Nat) (header : Header) : Handler Header := do
  skipExtra flags
  let packetInnerLen ← readInnerLen flags header.packetInnerLen
  return { header with packetInnerLen }

def readDecryptedAudioBlock (r : Receiver) : Handler Header := do
  let _randomID ← readNat 8
  skipString
  let (flags, header) ← r.readFields
  readLengths flags header

def readSimpleAudioBlock : Handler Header := do
  let _randomID ← readNat 8
  skipString
  let packetInnerLen ← readTlLength
  let type ← readNat 1
  let ackId ← readNat 4
  let pseq ← readNat 4
  let acks ← readNat 4
  return { type, ackId, pseq, acks, packetInnerLen }

def readHeader (r : Receiver) : Handler Header := do
  let tlid ← readNat 4
  if tlid = tlidDecryptedAudioBlock then r.readDecryptedAudioBlock
  else if tlid = tlidSimpleAudioBlock then readSimpleAudioBlock
  else halt .next

end Receiver

/-- What `JitterBuffer::HandleInput` is called with. -/
structure Frame where
  data : Data
  timestamp : Nat
  deriving DecidableEq

def pktInit : Nat := 1

def pktInitAck : Nat := 2

def pktStreamState : Nat := 3

def pktStreamData : Nat := 4

def pktPong : Nat := 7

def pktStreamDataX2 : Nat := 8

def pktStreamDataX3 : Nat := 9

def pktLanEndpoint : Nat := 10

def pktNetworkChanged : Nat := 11

def streamTypeAudio : Nat := 1

def protocolVersion : Nat := 3

def minProtocolVersion : Nat := 3

/-- `n` bytes that are ignored. -/
def ignoreBytes : Nat → Handler Unit
  | 0 => pure ()
  | n + 1 => do
      let _ ← readNat 1
      ignoreBytes n

namespace Receiver

/-- The versions of the peer; its own is an `int32_t`, the one that it demands is not. -/
def readVersions : Handler Int := do
  let version ← readBytes 4
  let minVer ← readNat 4
  if minVer > protocolVersion ∨ int32OfBytes version < minProtocolVersion then halt .failed
  else pure (int32OfBytes version)

/-- `PKT_INIT`. -/
def readInit : Handler Unit := do
  let _peerVersion ← readVersions
  let _flags ← readNat 4
  let numSupportedAudioCodecs ← readNat 1
  ignoreBytes numSupportedAudioCodecs
  let numSupportedVideoCodecs ← readNat 1
  ignoreBytes numSupportedVideoCodecs

def readFrameDuration (peerVersion : Int) : Handler Nat :=
  if 2 ≤ peerVersion then readNat 2 else pure 20

/-- The streams of a `PKT_INIT_ACK`: whether one of them is for audio. -/
def readStreams (peerVersion : Int) : Nat → Handler Bool
  | 0 => pure false
  | n + 1 => do
      let _id ← readNat 1
      let type ← readNat 1
      let _codec ← readNat 1
      let _frameDuration ← readFrameDuration peerVersion
      let _enabled ← readNat 1
      let audio ← readStreams peerVersion n
      return type == streamTypeAudio || audio

/-- The version of the peer in a `PKT_INIT_ACK`. -/
def readPeerVersion (packetInnerLen : Nat) : Handler Int :=
  if packetInnerLen > 10 then readVersions else pure 1

/-- `PKT_INIT_ACK`; only the first one is read. -/
def readInitAck (r : Receiver) (packetInnerLen : Nat) : Handler Unit :=
  if r.receivedInitAck then pure () else do
    let peerVersion ← readPeerVersion packetInnerLen
    let streamCount ← readNat 1
    if streamCount = 0 then halt .next else
    let audio ← readStreams peerVersion streamCount
    if audio = false then halt .next else
    if r.audioWorks then pure () else halt .failed

/-- The length of a frame, in two bytes or one. -/
def readFrameLength (streamID : Nat) : Handler Nat :=
  if streamID.testBit 6 then readNat 2 else readNat 1

/-- The length and the timestamp of a frame. -/
def readFrameHead : Handler (Nat × Nat) := do
  let streamID ← readNat 1
  let sdlen ← readFrameLength streamID
  let pts ← readNat 4
  return (sdlen, pts)

/-- `JitterBuffer::HandleInput`.  Without a slot in the array the pointer behind the last
slot is given to `Reuse`, which aborts; the mutex is locked. -/
def putFrame (r : Receiver) (jb : JitterBuffer.State) (frame : Frame) :
    Handler JitterBuffer.State :=
  match JitterBuffer.handleInput r.jitterConfig jb frame.data (UInt32.ofNat frame.timestamp) with
  | some jb => pure jb
  | none => holdingMutex (halt .assertion)

/-- The frame is handed to the jitter buffer if there is one and all of the frame has
arrived.  The read position stays. -/
def handleInput (r : Receiver) (jitterBuffer : Option JitterBuffer.State) (sdlen pts : Nat) :
    Handler (List Frame × Option JitterBuffer.State) := do
  let n ← remaining
  match jitterBuffer with
  | none => return ([], none)
  | some jb =>
    if sdlen ≤ n then do
      let data ← peek sdlen
      let jb ← r.putFrame jb ⟨data, pts⟩
      return ([⟨data, pts⟩], some jb)
    else return ([], some jb)

/-- `count` frames; after the last one there is nothing to step over. -/
def readFrames (r : Receiver) : Option JitterBuffer.State → Nat → Handler (List Frame)
  | _, 0 => pure []
  | jitterBuffer, n + 1 => do
    let (sdlen, pts) ← readFrameHead
    let (frame, jitterBuffer) ← r.handleInput jitterBuffer sdlen pts
    if n = 0 then return frame else
    skip sdlen
    let frames ← r.readFrames jitterBuffer n
    return frame ++ frames

/-- The number of frames of a packet with stream data. -/
def frameCount (type : Nat) : Nat :=
  if type = pktStreamDataX2 then 2 else if type = pktStreamDataX3 then 3 else 1

def readNetworkChanged (r : Receiver) : Handler Unit :=
  if r.currentEndpointType.isRelay = false ∧ 2 ≤ r.peerVersion then do
    let _flags ← readNat 4
    pure ()
  else pure ()

/-- The body of a packet; the frames go to the jitter buffer.  A `PKT_LAN_ENDPOINT` is
read before `endpointsMutex` is locked. -/
def handleBody (r : Receiver) (header : Header) : Handler (List Frame) :=
  if header.type = pktInit then do
    readInit
    return []
  else if header.type = pktInitAck then do
    r.readInitAck header.packetInnerLen
    return []
  else if header.type = pktStreamData ∨ header.type = pktStreamDataX2 ∨
      header.type = pktStreamDataX3 then
    r.readFrames r.jitterBuffer (frameCount header.type)
  else if header.type = pktPong then
    if 4 ≤ header.packetInnerLen then do
      let _pingSeq ← readNat 4
      return []
    else return []
  else if header.type = pktStreamState then do
    let _id ← readNat 1
    let _enabled ← readNat 1
    return []
  else if header.type = pktLanEndpoint then do
    let _peerAddr ← readNat 4
    let _peerPort ← readNat 4
    holdingMutex (return [])
  else if header.type = pktNetworkChanged then do
    r.readNetworkChanged
    return []
  else return []

/-- A datagram.  The queued packets are looked at with `queuedPacketsMutex` locked. -/
def handle (r : Receiver) : Handler (Header × List Frame) := do
  r.authenticate
  let header ← r.readHeader
  if (r.reception.receive header.pseq).2 = false then halt .next else
  holdingMutex (pure ())
  let frames ← r.handleBody header
  return (header, frames)

end Receiver

/-! ## What can go wrong -/

/-- A length in the long form without its three bytes. -/
def Truncated : Data → Prop
  | [] => False
  | l :: rest => 254 ≤ l.toNat ∧ rest.length < 3

instance (rest : Data) : Decidable (Truncated rest) :=
  match rest with
  | [] => .isFalse id
  | _ :: _ => inferInstanceAs (Decidable (_ ∧ _))

/-- The rest of the message after a handler, if it gets to its end. -/
def restAfter {α : Type} (m : Handler α) (rest : Data) : Option (α × Data) := (m rest).toOption

namespace Receiver

/-- A length is read at the start of a string, and further ones may be read after the
string. -/
def stringThen (further : Data → List Data) (rest : Data) : List Data :=
  rest :: match restAfter skipString rest with
    | some (_, rest) => further rest
    | none => []

/-- Where the length of the data is read. -/
def lengthOfData (flags : Nat) (rest : Data) : List Data :=
  if flags.testBit pflagHasData then [rest] else []

/-- Where the lengths of a `decryptedAudioBlock` are read after the fields. -/
def lengthsAfterFields (flags : Nat) (rest : Data) : List Data :=
  if flags.testBit pflagHasExtra then stringThen (lengthOfData flags) rest
  else lengthOfData flags rest

/-- Where the lengths of a `decryptedAudioBlock` are read after the random bytes. -/
def lengthsAfterRandom (r : Receiver) (rest : Data) : List Data :=
  match restAfter r.readFields rest with
  | some ((flags, _), rest) => lengthsAfterFields flags rest
  | none => []

/-- The places of a packet, after its length, at which the header has a TL length. -/
def tlLengths (r : Receiver) (packet : Data) : List Data :=
  if packet.length < 12 then []
  else if leNat (packet.take 4) = tlidDecryptedAudioBlock then
    stringThen r.lengthsAfterRandom (packet.drop 12)
  else if leNat (packet.take 4) = tlidSimpleAudioBlock then
    stringThen (fun rest => [rest]) (packet.drop 12)
  else []

/-- The frames of a body that are complete, in order. -/
def framesIn : Nat → Data → List Frame
  | 0, _ => []
  | n + 1, body =>
    match restAfter readFrameHead body with
    | none => []
    | some ((sdlen, pts), rest) =>
      (if sdlen ≤ rest.length then [⟨rest.take sdlen, pts⟩] else []) ++
        framesIn n (rest.drop sdlen)

/-- The frames of a packet. -/
def framesOf (header : Header) (body : Data) : List Frame :=
  if header.type = pktStreamData ∨ header.type = pktStreamDataX2 ∨
      header.type = pktStreamDataX3 then
    framesIn (frameCount header.type) body
  else []

/-- Each of the frames that needs the slot of another one finds an older packet in the jitter
buffer: one whose timestamp is not the largest number. -/
def Takes (r : Receiver) (jb : JitterBuffer.State) (frames : List Frame) : Prop :=
  Guarded (JitterSlots.step r.jitterConfig) (JitterSlots.FindsSlot r.jitterConfig) (some jb)
    (frames.map fun frame =>
      .call (.handleInput frame.data (UInt32.ofNat frame.timestamp)))

/-- If the packet has a header and its number is taken, then the jitter buffer takes its
frames. -/
def FramesFit (r : Receiver) (packet : Data) : Prop :=
  ∀ header body, restAfter r.readHeader packet = some (header, body) →
    (r.reception.receive header.pseq).2 = true →
      ∀ jb ∈ r.jitterBuffer, r.Takes jb (framesOf header body)

/-- The bytes of a datagram that are decrypted, decrypted. -/
def plaintext (r : Receiver) (datagram : Data) : Data :=
  let (key, iv) := r.crypto.kdf r.encryptionKey (bytesAt datagram 24 16)
    (if r.isOutgoing then 8 else 0)
  r.crypto.aesIgeDecrypt (datagram.drop 40) key iv

/-- The datagram is the response of a relay. -/
def IsRelayResponse (r : Receiver) (datagram : Data) : Prop :=
  r.srcEndpointType.isRelay = true ∧ bytesAt datagram 16 12 = List.replicate 12 0xFF

/-- The datagram is decrypted: it is long enough, has the tag of the endpoint and the
fingerprint of the key, and is not the response of a relay. -/
def Admits (r : Receiver) (datagram : Data) : Prop :=
  56 ≤ datagram.length ∧ datagram.take 16 = r.tag ∧ ¬r.IsRelayResponse datagram ∧
    bytesAt datagram 16 8 = r.keyFingerprint

/-- The hash in the datagram is that of the packet. -/
def HashMatches (r : Receiver) (datagram : Data) : Prop :=
  let p := r.plaintext datagram
  bytesAt datagram 24 16 =
    (r.crypto.sha1 (p.take (min (leNat (p.take 4)) (p.length - 4) + 4))).drop 4

/-- The datagram is empty or has at least 16 bytes; if it is decrypted, there is a
multiple of 16 bytes to decrypt; and if the hash is right, no length of its header is
cut off by the end of the datagram, and the jitter buffer takes its frames. -/
def Orderly (r : Receiver) (datagram : Data) : Prop :=
  (datagram = [] ∨ 16 ≤ datagram.length) ∧
    (r.Admits datagram → (datagram.length - 40) % 16 = 0 ∧
      (r.HashMatches datagram →
        (∀ rest ∈ r.tlLengths ((r.plaintext datagram).drop 4), ¬Truncated rest) ∧
          r.FramesFit ((r.plaintext datagram).drop 4)))

end Receiver

/-! ## The parts that are always safe -/

theorem safe_ignoreBytes (n : Nat) : Safe (ignoreBytes n) := by
  induction n with
  | zero => exact Safe.pure ()
  | succ n ih => exact (safe_readNat 1).bind fun _ => ih

namespace Receiver

theorem safe_readVersions : Safe readVersions := by
  refine (safe_readBytes 4).bind fun _ => (safe_readNat 4).bind fun _ => ?_
  exact Safe.ite safe_failed (Safe.pure _)

theorem safe_readInit : Safe readInit := by
  refine safe_readVersions.bind fun _ => ?_
  refine (safe_readNat 4).bind fun _ => (safe_readNat 1).bind fun _ => ?_
  refine (safe_ignoreBytes _).bind fun _ => (safe_readNat 1).bind fun _ => ?_
  exact safe_ignoreBytes _

theorem safe_readFrameDuration (peerVersion : Int) : Safe (readFrameDuration peerVersion) :=
  Safe.ite (safe_readNat 2) (Safe.pure 20)

theorem safe_readStreams (peerVersion : Int) (n : Nat) : Safe (readStreams peerVersion n) := by
  induction n with
  | zero => exact Safe.pure false
  | succ n ih =>
    refine (safe_readNat 1).bind fun _ => (safe_readNat 1).bind fun _ => ?_
    refine (safe_readNat 1).bind fun _ => (safe_readFrameDuration peerVersion).bind fun _ => ?_
    exact (safe_readNat 1).bind fun _ => ih.bind fun _ => Safe.pure _

theorem safe_readPeerVersion (packetInnerLen : Nat) : Safe (readPeerVersion packetInnerLen) :=
  Safe.ite safe_readVersions (Safe.pure 1)

theorem safe_readInitAck (r : Receiver) (packetInnerLen : Nat) :
    Safe (r.readInitAck packetInnerLen) := by
  refine Safe.ite (Safe.pure ()) ?_
  refine (safe_readPeerVersion packetInnerLen).bind fun _ => (safe_readNat 1).bind fun _ => ?_
  refine Safe.ite safe_next ((safe_readStreams _ _).bind fun _ => ?_)
  exact Safe.ite safe_next (Safe.ite (Safe.pure ()) safe_failed)

theorem safe_readFrameLength (streamID : Nat) : Safe (readFrameLength streamID) :=
  Safe.ite (safe_readNat 2) (safe_readNat 1)

theorem safe_readFrameHead : Safe readFrameHead := by
  refine (safe_readNat 1).bind fun _ => (safe_readFrameLength _).bind fun _ => ?_
  exact (safe_readNat 4).bind fun _ => Safe.pure _

theorem safe_readNetworkChanged (r : Receiver) : Safe r.readNetworkChanged :=
  Safe.ite ((safe_readNat 4).bind fun _ => Safe.pure ()) (Safe.pure ())

/-- All packets but those with stream data. -/
theorem safe_handleBody (r : Receiver) {header : Header}
    (h : ¬(header.type = pktStreamData ∨ header.type = pktStreamDataX2 ∨
      header.type = pktStreamDataX3)) : Safe (r.handleBody header) := by
  unfold handleBody
  rw [if_neg h]
  refine Safe.ite (safe_readInit.bind fun _ => Safe.pure []) ?_
  refine Safe.ite ((safe_readInitAck r _).bind fun _ => Safe.pure []) ?_
  refine Safe.ite (Safe.ite ((safe_readNat 4).bind fun _ => Safe.pure []) (Safe.pure [])) ?_
  refine Safe.ite ?_ ?_
  · exact (safe_readNat 1).bind fun _ => (safe_readNat 1).bind fun _ => Safe.pure []
  refine Safe.ite ?_ ?_
  · refine (safe_readNat 4).bind fun _ => (safe_readNat 4).bind fun _ => ?_
    exact fun rest => safeOutcome_holdingMutex (pure_apply [] rest)
  exact Safe.ite ((safe_readNetworkChanged r).bind fun _ => Safe.pure []) (Safe.pure [])

theorem safe_checkCallId (r : Receiver) (flags : Nat) : Safe (r.checkCallId flags) :=
  Safe.ite ((safe_readBytes 16).bind fun _ => Safe.ite safe_failed (Safe.pure ())) (Safe.pure ())

theorem safe_checkProto (flags : Nat) : Safe (checkProto flags) :=
  Safe.ite ((safe_readNat 4).bind fun _ => Safe.ite safe_failed (Safe.pure ())) (Safe.pure ())

theorem safe_readFields (r : Receiver) : Safe r.readFields := by
  refine (safe_readNat 4).bind fun _ => Safe.ite safe_next ?_
  refine (safe_checkCallId r _).bind fun _ => (safe_readNat 4).bind fun _ => ?_
  refine (safe_readNat 4).bind fun _ => (safe_readNat 4).bind fun _ => ?_
  exact (safe_checkProto _).bind fun _ => Safe.pure _

/-- The peer information is read only when all of it is there, so that nothing is
thrown while the mutex is locked. -/
theorem safe_relayResponse (r : Receiver) : Safe r.relayResponse := by
  refine (safe_skip 12).bind fun _ => (safe_readNat 4).bind fun tlid => ?_
  intro rest
  rw [bind_ok (show remaining rest = .ok (rest.length, rest) from rfl)]
  split
  · refine Safe.ite ?_ (Safe.pure ()) rest
    refine (safe_readNat 4).bind fun _ => (safe_readNat 8).bind fun _ => ?_
    exact (safe_readBytes 16).bind fun _ => (safe_readNat 4).bind fun _ => Safe.pure ()
  · split
    · split
      case isTrue h =>
        have hread : ∀ k, k ≤ 12 → readNat 4 (rest.drop k) =
            .ok (leNat ((rest.drop k).take 4), rest.drop (k + 4)) := by
          intro k hk
          rw [readNat_of_le (by rw [List.length_drop]; omega), List.drop_drop]
        refine @safeOutcome_holdingMutex _ _ _ (rest.drop 16) () ?_
        rw [bind_ok (show readNat 4 rest = _ from hread 0 (by omega)),
          bind_ok (hread 4 (by omega)), bind_ok (hread 8 (by omega)),
          bind_ok (hread 12 (by omega))]
        rfl
      case isFalse => trivial
    · trivial

end Receiver

/-! ## The lengths of the header -/

/-- The assertion fails exactly on a length that is cut off. -/
theorem readTlLength_safe_iff (rest : Data) :
    SafeOutcome (readTlLength rest) ↔ ¬Truncated rest := by
  cases rest with
  | nil =>
    have hread : readNat 1 [] = .error { stop := .outOfRange } := rfl
    unfold readTlLength
    rw [bind_error hread, safeOutcome_error_iff]
    simp [Truncated]
  | cons l rest =>
    have hread : readNat 1 (l :: rest) = .ok (l.toNat, rest) := by
      rw [readNat_of_le (by simp)]
      simp [leNat]
    unfold readTlLength Truncated
    rw [bind_ok hread]
    by_cases hshort : l.toNat < 254
    · rw [if_pos hshort]
      simp only [pure_apply]
      exact ⟨fun _ hlong => by omega, fun _ => trivial⟩
    · rw [if_neg hshort, bind_ok (show remaining rest = .ok (rest.length, rest) from rfl)]
      by_cases hrest : 3 ≤ rest.length
      · have hcheck : check (3 ≤ rest.length) rest = .ok ((), rest) := if_pos hrest
        rw [bind_ok hcheck]
        exact ⟨fun _ hlong => by omega, fun _ => safe_readNat 3 rest⟩
      · have hcheck : check (3 ≤ rest.length) rest = .error { stop := .assertion } :=
          if_neg hrest
        rw [bind_error hcheck, safeOutcome_error_iff]
        constructor
        · rintro (h | h | h) <;> cases h
        · intro hnot
          exact absurd ⟨by omega, by omega⟩ hnot

theorem skipString_safe_iff (rest : Data) :
    SafeOutcome (skipString rest) ↔ ¬Truncated rest := by
  unfold skipString
  rw [safeOutcome_bind_iff, readTlLength_safe_iff]
  exact ⟨fun h => h.1, fun h => ⟨h, fun n rest' _ => safe_skip _ rest'⟩⟩

theorem restAfter_eq_some {α : Type} {m : Handler α} {rest rest' : Data} {a : α} :
    restAfter m rest = some (a, rest') ↔ m rest = .ok (a, rest') := by
  unfold restAfter
  cases m rest with
  | ok r => simp [Except.toOption]
  | error e => simp [Except.toOption]

namespace Receiver

theorem skipString_bind_safe_iff {α : Type} {f : Unit → Handler α} {further : Data → List Data}
    (hf : ∀ u rest, SafeOutcome (f u rest) ↔ ∀ t ∈ further rest, ¬Truncated t) (rest : Data) :
    SafeOutcome ((skipString >>= f) rest) ↔ ∀ t ∈ stringThen further rest, ¬Truncated t := by
  rw [safeOutcome_bind_iff, skipString_safe_iff]
  unfold stringThen
  constructor
  · rintro ⟨hskip, hrest⟩ t ht
    rcases List.mem_cons.mp ht with rfl | htail
    · exact hskip
    · cases hafter : restAfter skipString rest with
      | none =>
        rw [hafter] at htail
        cases htail
      | some x =>
        rw [hafter] at htail
        have hok : skipString rest = .ok (x.1, x.2) := restAfter_eq_some.mp hafter
        exact (hf x.1 x.2).mp (hrest x.1 x.2 hok) t htail
  · intro h
    refine ⟨h rest (.head _), ?_⟩
    intro u rest' hok
    refine (hf u rest').mpr ?_
    intro t ht
    refine h t (.tail _ ?_)
    rw [restAfter_eq_some.mpr hok]
    exact ht

theorem readInnerLen_safe_iff (flags uninitialised : Nat) (rest : Data) :
    SafeOutcome (readInnerLen flags uninitialised rest) ↔
      ∀ t ∈ lengthOfData flags rest, ¬Truncated t := by
  unfold readInnerLen lengthOfData
  split
  · rw [readTlLength_safe_iff]
    simp
  · simp [SafeOutcome]

theorem readLengths_safe_iff (flags : Nat) (header : Header) (rest : Data) :
    SafeOutcome (readLengths flags header rest) ↔
      ∀ t ∈ lengthsAfterFields flags rest, ¬Truncated t := by
  have hinner : ∀ (u : Unit) rest, SafeOutcome ((readInnerLen flags header.packetInnerLen >>=
      fun packetInnerLen => pure { header with packetInnerLen } : Handler Header) rest) ↔
      ∀ t ∈ lengthOfData flags rest, ¬Truncated t := by
    intro _ rest
    rw [safeOutcome_bind_iff, readInnerLen_safe_iff]
    exact ⟨fun h => h.1, fun h => ⟨h, fun _ _ _ => trivial⟩⟩
  unfold readLengths skipExtra lengthsAfterFields
  split
  · exact skipString_bind_safe_iff hinner rest
  · rw [bind_ok (pure_apply () rest)]
    exact hinner () rest

theorem safe_afterLength (f : Nat → Nat → Nat → Nat → Header) :
    Safe (do
      let type ← readNat 1
      let ackId ← readNat 4
      let pseq ← readNat 4
      let acks ← readNat 4
      return f type ackId pseq acks) := by
  refine (safe_readNat 1).bind fun _ => (safe_readNat 4).bind fun _ => ?_
  exact (safe_readNat 4).bind fun _ => (safe_readNat 4).bind fun _ => Safe.pure _

theorem afterRandom_safe_iff (r : Receiver) (_ : Unit) (rest : Data) :
    SafeOutcome ((r.readFields >>= fun x => readLengths x.1 x.2) rest) ↔
      ∀ t ∈ r.lengthsAfterRandom rest, ¬Truncated t := by
  unfold lengthsAfterRandom
  cases hafter : restAfter r.readFields rest with
  | some x =>
    have hok : r.readFields rest = .ok (x.1, x.2) := restAfter_eq_some.mp hafter
    rw [bind_ok hok]
    exact readLengths_safe_iff x.1.1 x.1.2 x.2
  | none =>
    rw [safeOutcome_bind_iff]
    simp only [List.not_mem_nil, false_implies, implies_true, iff_true]
    refine ⟨safe_readFields r rest, ?_⟩
    intro x rest' hok
    rw [restAfter_eq_some.mpr hok] at hafter
    cases hafter

theorem afterRandom_simple_safe_iff (_ : Unit) (rest : Data) :
    SafeOutcome ((do
      let packetInnerLen ← readTlLength
      let type ← readNat 1
      let ackId ← readNat 4
      let pseq ← readNat 4
      let acks ← readNat 4
      return { type, ackId, pseq, acks, packetInnerLen } : Handler Header) rest) ↔
      ∀ t ∈ [rest], ¬Truncated t := by
  rw [safeOutcome_bind_iff, readTlLength_safe_iff]
  constructor
  · grind
  · intro h
    refine ⟨h rest (List.mem_singleton_self _), ?_⟩
    intro packetInnerLen rest' _
    exact safe_afterLength (fun type ackId pseq acks =>
      { type, ackId, pseq, acks, packetInnerLen }) rest'

theorem readHeader_safe_iff (r : Receiver) (packet : Data) :
    SafeOutcome (r.readHeader packet) ↔ ∀ t ∈ r.tlLengths packet, ¬Truncated t := by
  have hshort : ∀ {f : Nat → Handler Header}, packet.length < 12 →
      SafeOutcome ((readNat 8 >>= f) (packet.drop 4)) := by
    intro f hlen
    have hread := @readNat_of_lt (packet.drop 4) 8 (by rw [List.length_drop]; omega)
    rw [bind_error hread, safeOutcome_error_iff]
    exact .inr (.inr rfl)
  have hlong : ∀ {f : Nat → Handler Header}, ¬packet.length < 12 →
      (readNat 8 >>= f) (packet.drop 4) = f (leNat ((packet.drop 4).take 8)) (packet.drop 12) := by
    intro f hlen
    have hread := @readNat_of_le (packet.drop 4) 8 (by rw [List.length_drop]; omega)
    rw [List.drop_drop] at hread
    exact bind_ok hread
  unfold readHeader tlLengths
  by_cases h4 : packet.length < 4
  · rw [bind_error (readNat_of_lt h4), if_pos (by omega)]
    simp [SafeOutcome]
  · rw [bind_ok (readNat_of_le (by omega))]
    by_cases hdec : leNat (packet.take 4) = tlidDecryptedAudioBlock
    · rw [if_pos hdec, if_pos hdec]
      unfold readDecryptedAudioBlock
      by_cases h12 : packet.length < 12
      · rw [if_pos h12]
        simpa using hshort h12
      · rw [if_neg h12, hlong h12]
        exact skipString_bind_safe_iff r.afterRandom_safe_iff (packet.drop 12)
    · rw [if_neg hdec, if_neg hdec]
      by_cases hsimple : leNat (packet.take 4) = tlidSimpleAudioBlock
      · rw [if_pos hsimple, if_pos hsimple]
        unfold readSimpleAudioBlock
        by_cases h12 : packet.length < 12
        · rw [if_pos h12]
          simpa using hshort h12
        · rw [if_neg h12, hlong h12]
          exact skipString_bind_safe_iff afterRandom_simple_safe_iff (packet.drop 12)
      · rw [if_neg hsimple, if_neg hsimple, ite_self]
        simpa using safe_next (packet.drop 4)

/-! ## The checks before the header -/

theorem isRelayResponse_apply (r : Receiver) (rest : Data) :
    r.isRelayResponse rest = .ok (decide (16 ≤ rest.length ∧
      r.srcEndpointType.isRelay = true ∧ rest.take 12 = List.replicate 12 0xFF), rest) := by
  unfold isRelayResponse
  rw [bind_ok (show remaining rest = .ok (rest.length, rest) from rfl)]
  by_cases h : 16 ≤ rest.length ∧ r.srcEndpointType.isRelay = true
  · rw [if_pos h, bind_ok (peek_of_le (by omega)), pure_apply]
    simp [h.1, h.2]
  · rw [if_neg h, pure_apply]
    simp only [← and_assoc, h, false_and, decide_false]

/-- What can happen to a datagram before it is decrypted. -/
theorem checkEnvelope_cases (r : Receiver) (datagram : Data) :
    (0 < datagram.length ∧ datagram.length < 16 ∧
      r.checkEnvelope datagram = .error { stop := .outside }) ∨
    ((datagram = [] ∨ 16 ≤ datagram.length) ∧ ¬r.Admits datagram ∧
      SafeOutcome (r.checkEnvelope datagram) ∧ ∀ x, r.checkEnvelope datagram ≠ .ok x) ∨
    (r.Admits datagram ∧
      r.checkEnvelope datagram = .ok (bytesAt datagram 24 16, datagram.drop 40)) := by
  have hnext : ∀ {rest : Data}, SafeOutcome ((halt .next : Handler Data) rest) ∧
      ∀ x, (halt .next : Handler Data) rest ≠ .ok x :=
    fun {rest} => ⟨safe_next rest, fun _ h => nomatch h⟩
  unfold checkEnvelope Admits
  rw [bind_ok (show remaining datagram = .ok (datagram.length, datagram) from rfl)]
  by_cases h0 : datagram.length = 0
  · rw [if_pos h0]
    exact .inr (.inl ⟨.inl (List.length_eq_zero_iff.mp h0), fun h => by omega, hnext⟩)
  rw [if_neg h0]
  by_cases h16 : datagram.length < 16
  · rw [bind_error (peek_of_lt h16)]
    exact .inl ⟨by omega, h16, rfl⟩
  have hlong : datagram = [] ∨ 16 ≤ datagram.length := .inr (by omega)
  rw [bind_ok (peek_of_le (by omega))]
  by_cases htag : datagram.take 16 = r.tag
  case neg =>
    rw [if_pos htag]
    exact .inr (.inl ⟨hlong, fun h => htag h.2.1, hnext⟩)
  rw [if_neg (not_not.mpr htag), bind_ok (skip_of_le (by omega)),
    bind_ok (isRelayResponse_apply r (datagram.drop 16))]
  have hlen : (datagram.drop 16).length = datagram.length - 16 := List.length_drop
  by_cases hrelay : 16 ≤ (datagram.drop 16).length ∧ r.srcEndpointType.isRelay = true ∧
      (datagram.drop 16).take 12 = List.replicate 12 0xFF
  · rw [decide_eq_true hrelay, if_pos rfl]
    refine .inr (.inl ⟨hlong, fun h => h.2.2.1 hrelay.2, ?_, ?_⟩)
    · exact (safe_relayResponse r).bind (fun _ => safe_next) _
    · intro x hx
      cases hresp : r.relayResponse (datagram.drop 16) with
      | ok y =>
        rw [bind_ok (show r.relayResponse (datagram.drop 16) = .ok (y.1, y.2) from hresp)] at hx
        cases hx
      | error e =>
        rw [bind_error hresp] at hx
        cases hx
  rw [decide_eq_false hrelay, if_neg (by decide),
    bind_ok (show remaining (datagram.drop 16) = .ok (_, datagram.drop 16) from rfl)]
  by_cases h40 : (datagram.drop 16).length < 40
  · rw [if_pos h40]
    exact .inr (.inl ⟨hlong, fun h => by omega, hnext⟩)
  rw [if_neg h40, bind_ok (readBytes_of_le (by omega)), List.drop_drop,
    bind_ok (readBytes_of_le (by rw [List.length_drop]; omega)), List.drop_drop]
  by_cases hkey : (datagram.drop 16).take 8 = r.keyFingerprint
  · rw [if_neg (not_not.mpr hkey)]
    refine .inr (.inr ⟨⟨by omega, htag, ?_, hkey⟩, rfl⟩)
    rintro ⟨hr, hff⟩
    exact hrelay ⟨by omega, hr, hff⟩
  · rw [if_pos hkey]
    exact .inr (.inl ⟨hlong, fun h => hkey h.2.2.2, hnext⟩)

theorem length_kdf (c : Crypto) (encryptionKey msgKey : Data) (x : Nat) :
    (c.kdf encryptionKey msgKey x).1.length = 32 ∧
      (c.kdf encryptionKey msgKey x).2.length = 32 := by
  unfold Crypto.kdf bytesAt
  simp [c.length_sha1]

theorem length_plaintext (r : Receiver) (datagram : Data) :
    (r.plaintext datagram).length = datagram.length - 40 := by
  unfold plaintext
  rw [r.crypto.length_decrypt, List.length_drop]

theorem decrypt_apply (r : Receiver) {datagram : Data} (h : 56 ≤ datagram.length) :
    r.decrypt (bytesAt datagram 24 16) (datagram.drop 40) =
      if (datagram.length - 40) % 16 = 0 then .ok ((), r.plaintext datagram)
      else .error { stop := .precondition } := by
  obtain ⟨hkey, hiv⟩ := length_kdf r.crypto r.encryptionKey (bytesAt datagram 24 16)
    (if r.isOutgoing then 8 else 0)
  have hlen : (datagram.drop 40).length = datagram.length - 40 := List.length_drop
  unfold decrypt
  dsimp only
  rw [hkey, hiv, hlen, if_neg (by omega)]
  by_cases hmod : (datagram.length - 40) % 16 = 0
  · rw [if_neg (by omega), if_pos hmod]
    rfl
  · rw [if_pos (.inr hmod), if_neg hmod]

theorem checkHash_apply (r : Receiver) {datagram : Data} (h : 56 ≤ datagram.length) :
    (r.HashMatches datagram ∧ r.checkHash (bytesAt datagram 24 16) (r.plaintext datagram) =
      .ok ((), (r.plaintext datagram).drop 4)) ∨
    (¬r.HashMatches datagram ∧ r.checkHash (bytesAt datagram 24 16) (r.plaintext datagram) =
      .error { stop := .next }) := by
  have hlen := length_plaintext r datagram
  unfold HashMatches
  generalize r.plaintext datagram = p at hlen ⊢
  have hmin : (if leNat (p.take 4) > (p.drop 4).length then (p.drop 4).length
      else leNat (p.take 4)) = min (leNat (p.take 4)) (p.length - 4) := by
    rw [List.length_drop]
    split <;> omega
  unfold checkHash
  rw [bind_ok (readNat_of_le (by omega)),
    bind_ok (show remaining (p.drop 4) = .ok (_, p.drop 4) from rfl)]
  rw [hmin, if_neg (by omega)]
  by_cases hhash : bytesAt datagram 24 16 =
      (r.crypto.sha1 (p.take (min (leNat (p.take 4)) (p.length - 4) + 4))).drop 4
  · rw [if_neg (not_not.mpr hhash)]
    exact .inl ⟨hhash, rfl⟩
  · rw [if_pos hhash]
    exact .inr ⟨hhash, rfl⟩

/-- The jitter buffer takes a frame exactly when it finds a slot for it. -/
theorem putFrame_cases (r : Receiver) {jb : JitterBuffer.State}
    (howned : JitterSlots.Owned jb.slots jb.bufferPool) (frame : Frame) (rest : Data) :
    (∃ jb', r.putFrame jb frame rest = .ok (jb', rest) ∧
      JitterSlots.Owned jb'.slots jb'.bufferPool ∧
      ∀ frames, r.Takes jb (frame :: frames) ↔ r.Takes jb' frames) ∨
    (¬SafeOutcome (r.putFrame jb frame rest) ∧ ∀ frames, ¬r.Takes jb (frame :: frames)) := by
  have hiff := JitterSlots.handleInput_isSome_iff r.jitterConfig howned frame.data
    (UInt32.ofNat frame.timestamp)
  unfold putFrame
  cases hput : JitterBuffer.handleInput r.jitterConfig jb frame.data
    (UInt32.ofNat frame.timestamp) with
  | some jb' =>
    refine .inl ⟨jb', rfl, JitterSlots.owned_handleInput r.jitterConfig howned hput, ?_⟩
    intro frames
    have hstep : JitterSlots.step r.jitterConfig (some jb)
        (.call (.handleInput frame.data (UInt32.ofNat frame.timestamp))) = some jb' := hput
    unfold Takes
    rw [List.map_cons, Guarded, hstep]
    refine and_iff_right ?_
    rintro _ ⟨⟩
    exact hiff.1 (by rw [hput]; rfl)
  | none =>
    refine .inr ⟨?_, ?_⟩
    · rintro ⟨hlocked, -⟩
      cases hlocked
    · intro frames htakes
      have hsome := hiff.2 (htakes.1 jb rfl)
      rw [hput] at hsome
      cases hsome

theorem framesIn_nil (n : Nat) : framesIn n [] = [] := by
  cases n <;> rfl

/-- The rest of the loop after a frame. -/
theorem afterFrame_safe_iff {r : Receiver} {n : Nat} {jitterBuffer : Option JitterBuffer.State}
    (ih : ∀ rest, SafeOutcome (r.readFrames jitterBuffer n rest) ↔
      ∀ jb ∈ jitterBuffer, r.Takes jb (framesIn n rest))
    (frame : List Frame) (sdlen : Nat) (rest : Data) :
    SafeOutcome ((if n = 0 then pure frame else do
      skip sdlen
      let frames ← r.readFrames jitterBuffer n
      return frame ++ frames : Handler (List Frame)) rest) ↔
      ∀ jb ∈ jitterBuffer, r.Takes jb (framesIn n (rest.drop sdlen)) := by
  by_cases hn : n = 0
  · subst hn
    exact iff_of_true trivial fun jb _ => trivial
  · rw [if_neg hn]
    by_cases hlen : rest.length < sdlen
    · have hskip : skip sdlen rest = .error { stop := .outOfRange } := if_pos hlen
      rw [bind_error hskip, List.drop_of_length_le (by omega), framesIn_nil]
      exact iff_of_true ⟨rfl, .inr (.inr rfl)⟩ fun jb _ => trivial
    · rw [bind_ok (skip_of_le (by omega)), safeOutcome_bind_iff, ih]
      exact and_iff_left fun _ _ _ => trivial

/-- A frame that is not complete, or finds no jitter buffer, is not looked at. -/
theorem handleInput_skip (r : Receiver) {jitterBuffer : Option JitterBuffer.State} {sdlen : Nat}
    {body : Data} (h : ∀ jb ∈ jitterBuffer, ¬sdlen ≤ body.length) (pts : Nat) :
    r.handleInput jitterBuffer sdlen pts body = .ok (([], jitterBuffer), body) := by
  unfold handleInput
  rw [bind_ok (show remaining body = .ok (body.length, body) from rfl)]
  cases jitterBuffer with
  | none => rfl
  | some jb =>
    dsimp only
    rw [if_neg (h jb rfl)]
    rfl

theorem handleInput_put (r : Receiver) (jb : JitterBuffer.State) {sdlen : Nat} {body : Data}
    (h : sdlen ≤ body.length) (pts : Nat) :
    r.handleInput (some jb) sdlen pts body = (r.putFrame jb ⟨body.take sdlen, pts⟩ >>= fun jb =>
      pure ([⟨body.take sdlen, pts⟩], some jb) : Handler _) body := by
  unfold handleInput
  rw [bind_ok (show remaining body = .ok (body.length, body) from rfl)]
  dsimp only
  rw [if_pos h, bind_ok (peek_of_le h)]

/-- The frames are read safely exactly when the jitter buffer takes them. -/
theorem readFrames_safe_iff (r : Receiver) (n : Nat) :
    ∀ (jitterBuffer : Option JitterBuffer.State) (rest : Data),
      (∀ jb ∈ jitterBuffer, JitterSlots.Owned jb.slots jb.bufferPool) →
      (SafeOutcome (r.readFrames jitterBuffer n rest) ↔
        ∀ jb ∈ jitterBuffer, r.Takes jb (framesIn n rest)) := by
  induction n with
  | zero => exact fun jitterBuffer rest _ => iff_of_true trivial fun jb _ => trivial
  | succ n ih =>
    intro jitterBuffer rest howned
    unfold readFrames framesIn
    cases hhead : restAfter readFrameHead rest with
    | none =>
      rw [safeOutcome_bind_iff]
      refine iff_of_true ⟨safe_readFrameHead rest, ?_⟩ fun jb _ => trivial
      intro x rest' hok
      rw [restAfter_eq_some.mpr hok] at hhead
      cases hhead
    | some x =>
      obtain ⟨⟨sdlen, pts⟩, body⟩ := x
      rw [bind_ok (restAfter_eq_some.mp hhead)]
      dsimp only
      by_cases hskip : ∀ jb ∈ jitterBuffer, ¬sdlen ≤ body.length
      · rw [bind_ok (handleInput_skip r hskip pts),
          afterFrame_safe_iff (fun rest => ih jitterBuffer rest howned) [] sdlen body]
        refine forall_congr' fun jb => forall_congr' fun hjb => ?_
        rw [if_neg (hskip jb hjb), List.nil_append]
      · push Not at hskip
        obtain ⟨jb, rfl, hlen⟩ := hskip
        have hinput := handleInput_put r jb hlen pts
        rw [if_pos hlen, List.singleton_append]
        rcases putFrame_cases r (howned jb rfl) ⟨body.take sdlen, pts⟩ body with
          ⟨jb', hput, hjb', htakes⟩ | ⟨hput, htakes⟩
        · rw [bind_ok hput] at hinput
          rw [bind_ok hinput, afterFrame_safe_iff
            (fun rest => ih (some jb') rest (by simpa using hjb')) _ sdlen body]
          simp [htakes]
        · refine iff_of_false ?_ fun h => htakes _ (h jb rfl)
          rw [safeOutcome_bind_iff, hinput, safeOutcome_bind_iff]
          exact fun h => hput h.1.1

theorem handleBody_stream (r : Receiver) {header : Header}
    (h : header.type = pktStreamData ∨ header.type = pktStreamDataX2 ∨
      header.type = pktStreamDataX3) :
    r.handleBody header = r.readFrames r.jitterBuffer (frameCount header.type) := by
  unfold handleBody
  rw [if_pos h]
  rcases h with h | h | h <;> rw [h] <;> rfl

theorem handleBody_safe_iff (r : Receiver) (header : Header) (body : Data) :
    SafeOutcome (r.handleBody header body) ↔
      ∀ jb ∈ r.jitterBuffer, r.Takes jb (framesOf header body) := by
  unfold framesOf
  split
  next h =>
    rw [handleBody_stream r h]
    exact readFrames_safe_iff r _ _ body r.owned
  next h => exact iff_of_true (safe_handleBody r h body) fun jb _ => trivial

theorem authenticated_safe_iff (r : Receiver) (packet : Data) :
    SafeOutcome ((r.readHeader >>= fun header =>
      if (r.reception.receive header.pseq).2 = false then halt .next else do
        holdingMutex (pure ())
        let frames ← r.handleBody header
        return (header, frames)) packet) ↔
      (∀ t ∈ r.tlLengths packet, ¬Truncated t) ∧ r.FramesFit packet := by
  rw [safeOutcome_bind_iff, readHeader_safe_iff]
  refine and_congr_right fun _ => forall_congr' fun header => forall_congr' fun body => ?_
  rw [restAfter_eq_some]
  refine imp_congr_right fun _ => ?_
  cases (r.reception.receive header.pseq).2 with
  | false => exact iff_of_true (safe_next body) fun h => nomatch h
  | true =>
    rw [if_neg (by decide), bind_ok (show holdingMutex (pure ()) body = .ok ((), body) from rfl),
      safeOutcome_bind_iff, handleBody_safe_iff]
    simp [SafeOutcome]

/-- An authentic datagram leaves its packet; any other one stops the handler. -/
theorem authenticate_cases (r : Receiver) (datagram : Data) :
    (0 < datagram.length ∧ datagram.length < 16 ∧
      r.authenticate datagram = .error { stop := .outside }) ∨
    ((datagram = [] ∨ 16 ≤ datagram.length) ∧ ¬r.Admits datagram ∧
      SafeOutcome (r.authenticate datagram) ∧ ∀ x, r.authenticate datagram ≠ .ok x) ∨
    (r.Admits datagram ∧ (datagram.length - 40) % 16 ≠ 0 ∧
      r.authenticate datagram = .error { stop := .precondition }) ∨
    (r.Admits datagram ∧ (datagram.length - 40) % 16 = 0 ∧ ¬r.HashMatches datagram ∧
      r.authenticate datagram = .error { stop := .next }) ∨
    (r.Admits datagram ∧ (datagram.length - 40) % 16 = 0 ∧ r.HashMatches datagram ∧
      r.authenticate datagram = .ok ((), (r.plaintext datagram).drop 4)) := by
  unfold authenticate
  rcases checkEnvelope_cases r datagram with
    ⟨hpos, h16, heq⟩ | ⟨hlen, hnot, hsafe, hno⟩ | ⟨hadm, heq⟩
  · exact .inl ⟨hpos, h16, bind_error heq⟩
  · refine .inr (.inl ⟨hlen, hnot, ?_, ?_⟩)
    · rw [safeOutcome_bind_iff]
      exact ⟨hsafe, fun _ _ hok => absurd hok (hno _)⟩
    · intro x hx
      cases henvelope : r.checkEnvelope datagram with
      | ok y => exact hno y henvelope
      | error e =>
        rw [bind_error henvelope] at hx
        cases hx
  · refine .inr (.inr ?_)
    have hdec := decrypt_apply r hadm.1
    rw [bind_ok heq]
    by_cases hmod : (datagram.length - 40) % 16 = 0
    · rw [if_pos hmod] at hdec
      rw [bind_ok hdec]
      rcases checkHash_apply r hadm.1 with ⟨hhash, hok⟩ | ⟨hhash, herr⟩
      · exact .inr (.inr ⟨hadm, hmod, hhash, hok⟩)
      · exact .inr (.inl ⟨hadm, hmod, hhash, herr⟩)
    · rw [if_neg hmod] at hdec
      exact .inl ⟨hadm, hmod, bind_error hdec⟩

/-- A datagram is handled without an assertion that fails, a read outside of it, a wrong
call of the decryption or a mutex that stays locked exactly when it is orderly. -/
theorem handle_safe_iff (r : Receiver) (datagram : Data) :
    SafeOutcome (r.handle datagram) ↔ r.Orderly datagram := by
  have hwrong : ∀ {stop : Stop}, stop ≠ .next → stop ≠ .failed → stop ≠ .outOfRange →
      ¬SafeOutcome (.error { stop } : Except Halt ((Header × List Frame) × Data)) := by
    rintro stop h1 h2 h3 ⟨_, h | h | h⟩
    · exact h1 h
    · exact h2 h
    · exact h3 h
  unfold handle Orderly
  rcases authenticate_cases r datagram with ⟨hpos, h16, heq⟩ | ⟨hlen, hnot, hsafe, hno⟩ |
    ⟨hadm, hmod, heq⟩ | ⟨hadm, hmod, hhash, heq⟩ | ⟨hadm, hmod, hhash, heq⟩
  · rw [bind_error heq]
    refine iff_of_false (hwrong (by decide) (by decide) (by decide)) ?_
    rintro ⟨rfl | hlong, _⟩
    · exact absurd hpos (by simp)
    · omega
  · refine iff_of_true ?_ ⟨hlen, fun hadm => absurd hadm hnot⟩
    rw [safeOutcome_bind_iff]
    exact ⟨hsafe, fun _ _ hok => absurd hok (hno _)⟩
  · rw [bind_error heq]
    refine iff_of_false (hwrong (by decide) (by decide) (by decide)) ?_
    rintro ⟨_, hcond⟩
    exact hmod (hcond hadm).1
  · rw [bind_error heq]
    have hlong : 16 ≤ datagram.length := le_trans (by decide) hadm.1
    refine iff_of_true ⟨rfl, .inl rfl⟩ ⟨.inr hlong, fun _ => ⟨hmod, ?_⟩⟩
    exact fun hmatch => absurd hmatch hhash
  · rw [bind_ok heq, authenticated_safe_iff]
    have hlong : 16 ≤ datagram.length := le_trans (by decide) hadm.1
    constructor
    · intro h
      exact ⟨.inr hlong, fun _ => ⟨hmod, fun _ => h⟩⟩
    · rintro ⟨_, hcond⟩
      exact (hcond hadm).2 hhash

end Receiver

/-- A peer on the Internet whose hashes are all zero and whose packets are not
encrypted. -/
def plainReceiver : Receiver where
  crypto :=
    { sha1 := fun _ => List.replicate 20 0
      sha256 := fun _ => List.replicate 32 0
      aesIgeEncrypt := fun data _ _ => data
      aesIgeDecrypt := fun data _ _ => data
      length_sha1 := fun _ => rfl
      length_sha256 := fun _ => rfl
      length_encrypt := fun _ _ _ => rfl
      length_decrypt := fun _ _ _ => rfl
      decrypt_encrypt := fun _ _ _ _ => rfl }
  encryptionKey := List.replicate 256 0
  isOutgoing := false
  srcEndpointType := .udpP2pInet
  peerTag := List.replicate 16 0

/-- An authentic datagram whose packet ends with the first byte of a long length. -/
def cutOffLength : Data :=
  List.replicate 40 0 ++ [28, 0, 0, 0] ++ natLE 4 tlidSimpleAudioBlock ++ List.replicate 8 0 ++
    [254, 11, 0, 0] ++ List.replicate 11 0 ++ [254]

/-- One byte is compared with a tag of 16; 17 bytes are decrypted; and the assertion
fails on a length that is cut off. -/
theorem handle_goes_wrong :
    (plainReceiver.handle [0] = .error { stop := .outside } ∧
      plainReceiver.handle (List.replicate 57 0) = .error { stop := .precondition } ∧
      plainReceiver.handle cutOffLength = .error { stop := .assertion }) ∧
    ¬SafeOutcome (plainReceiver.handle [0]) ∧
      ¬SafeOutcome (plainReceiver.handle (List.replicate 57 0)) ∧
      ¬SafeOutcome (plainReceiver.handle cutOffLength) := by
  have h1 : plainReceiver.handle [0] = .error { stop := .outside } := rfl
  have h2 : plainReceiver.handle (List.replicate 57 0) = .error { stop := .precondition } := rfl
  have h3 : plainReceiver.handle cutOffLength = .error { stop := .assertion } := rfl
  rw [h1, h2, h3]
  exact ⟨⟨rfl, rfl, rfl⟩, by decide⟩

end TelegramPub.Ports.VoipReceiver
