import TelegramPub.Ports.TransportCipher
import TelegramPub.Verified.Machine

/-!
# The frames of MTTcpConnection

A packet on the wire is one byte with a quarter of its length, or the byte `0x7f` and
the quarter in three bytes, and then the packet; a quick acknowledgement is four
bytes, the first with its top bit set.  The whole stream is encrypted with a running
cipher, after a header of 64 bytes from which both sides take their keys.

This module is `sendDatas` and the reading of the stream.  The socket holds the bytes
that have come and at most one pending read; it calls `socket:didReadData:withTag:`
with exactly the bytes of the read as soon as they are there.  Connecting through a
proxy, the progress of long packets and the response timeout are left out.
-/

namespace TelegramPub.Ports.TcpFraming

open Verified.Bytes Ports.TransportCipher

/-- The read tags of the framing. -/
inductive ReadTag where
  | packetShortLength
  | packetLongLength
  | packetBody
  | packetHead
  | quickAck
  deriving DecidableEq

/-- What the delegate is told. -/
inductive Delivery where
  | receivedData (data : Data)
  | receivedQuickAck (quickAck : Int)
  deriving DecidableEq

/-- `MTTcpConnection` and its socket: the pending read, the bytes that have come and
were not read, and the bytes that were written. -/
structure Connection where
  closed : Bool := false
  quickAckByte : UInt8 := 0
  packetHead : Option Data := none
  packetRestLength : Nat := 0
  addedControlHeader : Bool := false
  outgoingAesCtr : Option AesCtr := none
  incomingAesCtr : Option AesCtr := none
  pendingRead : Option (Nat × ReadTag) := none
  received : Data := []
  written : Data := []
  delivered : List Delivery := []
  deriving DecidableEq

/-- `MTTcpProgressCalculationThreshold`. -/
def progressCalculationThreshold : Nat := 4096

/-- A connection that was started: the first length byte is asked for. -/
def started : Connection := { pendingRead := some (1, .packetShortLength) }

/-- `quarterLength`, an `int32_t`. -/
def quarterLength (data : Data) : Int := int32 (data.length / 4 : Nat)

/-- The bytes of a packet: length and data. -/
def packetData (requestQuickAck : Bool) (data : Data) : Data :=
  let flag : UInt8 := if requestQuickAck then 0x80 else 0
  if quarterLength data ≤ 0x7e then
    (UInt8.ofNat (quarterLength data % 256).toNat ||| flag) :: data
  else
    (0x7f ||| flag) :: ((int32Bytes (quarterLength data)).take 3 ++ data)

section Cipher

variable (aes : Data → Data → Data)

/-- The control bytes: 64 random bytes, of which four are overwritten with
`0xefefefef`. -/
def controlBytes (random : Nat → UInt8) : Data :=
  (List.range 56).map random ++
    [0xef, 0xef, 0xef, 0xef, random 60, random 61, random 62, random 63]

/-- The ciphers of the two directions, from the control bytes. -/
def outgoingCipher (control : Data) : AesCtr :=
  initWithKey ((control.drop 8).take 32) ((control.drop 40).take 16)

def incomingCipher (control : Data) : AesCtr := outgoingCipher control.reverse

/-- One packet of `sendDatas`.  `random` are the bytes for the header, which only the
first packet has. -/
def sendData (random : Nat → UInt8) (requestQuickAck : Bool) (c : Connection) (data : Data) :
    Connection :=
  let packet := packetData requestQuickAck data
  if c.addedControlHeader then
    match c.outgoingAesCtr with
    | some a =>
      { c with
        outgoingAesCtr := some (encrypt aes a packet).1
        written := c.written ++ (encrypt aes a packet).2 }
    | none => { c with written := c.written ++ List.replicate packet.length 0 }
  else
    let control := controlBytes random
    let encryptedControl := encrypt aes (outgoingCipher control) control
    let encryptedPacket := encrypt aes encryptedControl.1 packet
    { c with
      addedControlHeader := true
      outgoingAesCtr := some encryptedPacket.1
      incomingAesCtr := some (incomingCipher control)
      written :=
        c.written ++ (control.take 56 ++ encryptedControl.2.drop 56 ++ encryptedPacket.2) }

/-- `sendDatas:completion:requestQuickAck:expectDataInResponse:` while the connection
is open. -/
def sendDatas (random : Nat → UInt8) (c : Connection) (datas : List Data) (requestQuickAck : Bool) :
    Connection :=
  if c.closed then c else datas.foldl (sendData aes random requestQuickAck) c

/-- `readDataToLength:withTimeout:tag:`; a read of nothing is ignored. -/
def readDataToLength (c : Connection) (length : Nat) (tag : ReadTag) : Connection :=
  if length = 0 then c else { c with pendingRead := some (length, tag) }

/-- `closeAndNotify`: the socket is disconnected. -/
def closeAndNotify (c : Connection) : Connection :=
  { c with closed := true, pendingRead := none }

def deliver (c : Connection) (delivery : Delivery) : Connection :=
  { c with delivered := c.delivered ++ [delivery] }

/-- The body of a packet is asked for, a long one in two parts. -/
def readPacket (c : Connection) (packetBodyLength : Nat) : Connection :=
  if progressCalculationThreshold ≤ packetBodyLength then
    readDataToLength { c with packetRestLength := packetBodyLength - 128 } 128 .packetHead
  else readDataToLength c packetBodyLength .packetBody

/-- The acknowledgement id: the four bytes in network order, without the top bit. -/
def quickAckId (quickAckByte : UInt8) (data : Data) : Int :=
  (beNat (quickAckByte :: data.take 3) % 2 ^ 31 : Nat)

/-- `socket:didReadData:withTag:` after the decryption. -/
def didReadPlain (c : Connection) (data : Data) : ReadTag → Connection
  | .packetShortLength =>
    let quarterLengthMarker := data.headD 0
    if 0x80 ≤ quarterLengthMarker then
      readDataToLength { c with quickAckByte := quarterLengthMarker } 3 .quickAck
    else if 0x01 ≤ quarterLengthMarker && quarterLengthMarker ≤ 0x7e then
      readPacket c (quarterLengthMarker.toNat * 4)
    else if quarterLengthMarker = 0x7f then readDataToLength c 3 .packetLongLength
    else closeAndNotify c
  | .packetLongLength =>
    let quarterLength := leNat (data.take 3)
    if quarterLength = 0 ∨ 4 * 1024 * 1024 / 4 < quarterLength then closeAndNotify c
    else readPacket c (quarterLength * 4)
  | .packetHead =>
    readDataToLength { c with packetHead := some data } c.packetRestLength .packetBody
  | .packetBody =>
    let packetData :=
      match c.packetHead with
      | some packetHead => packetHead ++ data
      | none => data
    readDataToLength (deliver { c with packetHead := none } (.receivedData packetData)) 1
      .packetShortLength
  | .quickAck =>
    readDataToLength (deliver c (.receivedQuickAck (quickAckId c.quickAckByte data))) 1
      .packetShortLength

/-- `socket:didReadData:withTag:`.  Without a cipher the decrypted data is what it was
allocated as, zeros. -/
def didReadData (c : Connection) (rawData : Data) (tag : ReadTag) : Connection :=
  if c.closed then c
  else
    match c.incomingAesCtr with
    | some a =>
      didReadPlain { c with incomingAesCtr := some (encrypt aes a rawData).1 }
        (encrypt aes a rawData).2 tag
    | none => didReadPlain c (List.replicate rawData.length 0) tag

/-- The socket completes the pending read, if its bytes have come. -/
def completeRead (c : Connection) : Option Connection :=
  match c.pendingRead with
  | some (length, tag) =>
    if length ≤ c.received.length then
      some (didReadData aes
        { c with pendingRead := none, received := c.received.drop length }
        (c.received.take length) tag)
    else none
  | none => none

inductive Event where
  | sends (datas : List Data) (requestQuickAck : Bool)
  /-- A piece of the stream comes. -/
  | arrives (chunk : Data)
  /-- The socket completes the pending read. -/
  | reads
  deriving DecidableEq

def step (random : Nat → UInt8) (c : Connection) : Event → Connection
  | .sends datas requestQuickAck => sendDatas aes random c datas requestQuickAck
  | .arrives chunk => { c with received := c.received ++ chunk }
  | .reads => (completeRead aes c).getD c

end Cipher

/-- The bytes that came in a run. -/
def arrivals (events : List Event) : Data :=
  events.flatMap fun
    | .arrives chunk => chunk
    | _ => []

/-- The packets given to `sendDatas` in a run, with the wish for an acknowledgement. -/
def sends (events : List Event) : List (Bool × Data) :=
  events.flatMap fun
    | .sends datas requestQuickAck => datas.map fun data => (requestQuickAck, data)
    | _ => []

/-- A packet that can be framed. -/
structure IsPacket (data : Data) : Prop where
  pos : 0 < data.length
  quarters : data.length % 4 = 0
  bounded : data.length ≤ 4 * 1024 * 1024

/-- What the server sends. -/
inductive ServerFrame where
  | packet (data : Data)
  | quickAck (word : Nat)

/-- The server frames packets as `sendDatas` does, and acknowledgements as four bytes
in network order with the top bit set. -/
def ServerFrame.bytes : ServerFrame → Data
  | .packet data => packetData false data
  | .quickAck word => (natLE 4 (2 ^ 31 + word)).reverse

def ServerFrame.IsValid : ServerFrame → Prop
  | .packet data => IsPacket data
  | .quickAck word => word < 2 ^ 31

def ServerFrame.delivery : ServerFrame → Delivery
  | .packet data => .receivedData data
  | .quickAck word => .receivedQuickAck word

/-- A length that is not allowed: a zero byte, or three bytes with nothing or with too
much. -/
inductive MalformedLength : Data → Prop where
  | zero : MalformedLength [0]
  | quarters (quarterLength : Nat) (hlt : quarterLength < 2 ^ 24)
      (hbad : quarterLength = 0 ∨ 4 * 1024 * 1024 / 4 < quarterLength) :
      MalformedLength (0x7f :: natLE 3 quarterLength)

/-- How the server takes one packet off the stream. -/
def deframePacket : Data → Option ((Bool × Data) × Data)
  | [] => none
  | marker :: rest =>
    let short := marker.toNat % 0x80
    let (quarterLength, rest) :=
      if short = 0x7f then (leNat (rest.take 3), rest.drop 3) else (short, rest)
    if 4 * quarterLength ≤ rest.length then
      some ((decide (0x80 ≤ marker), rest.take (4 * quarterLength)),
        rest.drop (4 * quarterLength))
    else none

/-- The packets of a stream.  The length of the stream is enough fuel. -/
def deframe : Nat → Data → Option (List (Bool × Data))
  | _, [] => some []
  | 0, _ => none
  | fuel + 1, stream =>
    match deframePacket stream with
    | none => none
    | some (packet, rest) => (deframe fuel rest).map (packet :: ·)

/-- The server takes the keys from the header and reads what follows it. -/
def serverReads (aes : Data → Data → Data) (written : Data) : Option (List (Bool × Data)) :=
  let header := written.take 64
  let stream := (encrypt aes (encrypt aes (outgoingCipher header) header).1 (written.drop 64)).2
  deframe stream.length stream

end TelegramPub.Ports.TcpFraming
