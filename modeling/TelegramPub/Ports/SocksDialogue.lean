import TelegramPub.Verified.BigEndian
import TelegramPub.Verified.ByteReader
import TelegramPub.Ports.TcpFraming

/-!
# Connecting through a SOCKS5 proxy

`MTTcpConnection` writes the list of methods, then the user name and the password if the proxy
asks for them, then the destination; each answer is read with reads of known lengths, and
behind the last one the reading of packets starts (`TcpFraming`).

Three things go wrong.  The lengths of the user name and of the password are cut to 255, but
the bytes behind them are not; an IPv6 destination is requested as four bytes that nothing
has set; and after an answer with an empty domain name the name is asked for with a read of no
bytes, which the socket ignores, so that nothing more is read.

The grammars of the requests and of the answers are stated beside the code (`parseMessage`,
`replies`).
-/

namespace TelegramPub.Ports.SocksDialogue

open Verified.Bytes Verified.ByteReader Verified.Machine
open Ports.TcpFraming (Connection)

/-- The text of an address: a dotted quad or an IPv6 literal. -/
inductive Host where
  | ipv4 (bytes : Vector UInt8 4)
  | ipv6 (bytes : Vector UInt8 16)
  deriving DecidableEq

/-- `inet_aton` takes dotted quads. -/
def inetAton : Host → Option (Vector UInt8 4)
  | .ipv4 bytes => some bytes
  | .ipv6 _ => none

/-- The destination and the credentials for the proxy.  The strings are given by their UTF-8
bytes. -/
structure Settings where
  ip : Host
  port : UInt16
  socksUsername : Option Data
  socksPassword : Option Data
  /-- What `ip4` holds before `inet_aton` -/
  ip4 : Vector UInt8 4
  deriving DecidableEq

/-- The read tags of the dialogue. -/
inductive SocksTag where
  | login
  | request
  | receiveBindAddr4
  | receiveBindAddr6
  | receiveBindAddrDomainNameLength
  | receiveBindAddrDomainName
  | receiveBindAddrPort
  | receiveAuthResponse
  deriving DecidableEq

/-- A connection through a proxy: the pending read while the dialogue lasts, what was written
in it, and how often the connection was reported open. -/
structure Proxied where
  connection : Connection := {}
  socksRead : Option (Nat × SocksTag) := none
  requests : List Data := []
  opened : Nat := 0
  deriving DecidableEq

/-- `socks5_ident_req`. -/
def identRequest (s : Settings) : Data :=
  let methods : Data := if s.socksUsername.isSome then [0x00, 0x02] else [0x00]
  [5, UInt8.ofNat methods.length] ++ methods

def authRequest (s : Settings) : Data :=
  let usernameData := s.socksUsername.getD []
  let passwordData := s.socksPassword.getD []
  let usernameLength := UInt8.ofNat (min usernameData.length 255)
  let passwordLength := UInt8.ofNat (min passwordData.length 255)
  [1, usernameLength] ++ usernameData ++ [passwordLength] ++ passwordData

/-- `socks5_req`.  The switch over the address type has cases for 3 and 4 too, but the type is
1. -/
def socksRequest (s : Settings) : Data :=
  let addrType : UInt8 := 1
  let ip4 := (inetAton s.ip).getD s.ip4
  [5, 1, 0, addrType] ++ ip4.toList ++ natBEWidth 2 s.port.toNat

def writeData (c : Proxied) (data : Data) : Proxied :=
  { c with requests := c.requests ++ [data] }

/-- `readDataToLength:withTimeout:tag:`; a read of nothing is ignored. -/
def readDataToLength (c : Proxied) (length : Nat) (tag : SocksTag) : Proxied :=
  if length = 0 then c else { c with socksRead := some (length, tag) }

def closeAndNotify (c : Proxied) : Proxied :=
  { c with connection := TcpFraming.closeAndNotify c.connection, socksRead := none }

/-- `start`, when the socket connects to the proxy. -/
def start (s : Settings) : Proxied := readDataToLength (writeData {} (identRequest s)) 2 .login

def requestSocksConnection (s : Settings) (c : Proxied) : Proxied :=
  readDataToLength (writeData c (socksRequest s)) 4 .request

/-- `socket:didReadData:withTag:` for the tags of the dialogue. -/
def didReadData (s : Settings) (c : Proxied) (rawData : Data) (tag : SocksTag) : Proxied :=
  if c.connection.closed then c
  else
    match tag with
    | .login =>
      if rawData.length ≠ 2 then closeAndNotify c
      else if rawData.getD 0 0 ≠ 5 then closeAndNotify c
      else if rawData.getD 1 0 = 0xFF then closeAndNotify c
      else if rawData.getD 1 0 = 0x02 then
        readDataToLength (writeData c (authRequest s)) 2 .receiveAuthResponse
      else requestSocksConnection s c
    | .request =>
      if rawData.length ≠ 4 then closeAndNotify c
      else if rawData.getD 1 0 ≠ 0x00 then closeAndNotify c
      else if rawData.getD 3 0 = 1 then readDataToLength c 4 .receiveBindAddr4
      else if rawData.getD 3 0 = 3 then readDataToLength c 1 .receiveBindAddrDomainNameLength
      else if rawData.getD 3 0 = 4 then readDataToLength c 16 .receiveBindAddr6
      else closeAndNotify c
    | .receiveBindAddrDomainNameLength =>
      if rawData.length ≠ 1 then closeAndNotify c
      else readDataToLength c (rawData.getD 0 0).toNat .receiveBindAddrDomainName
    | .receiveBindAddrDomainName | .receiveBindAddr4 | .receiveBindAddr6 =>
      readDataToLength c 2 .receiveBindAddrPort
    | .receiveBindAddrPort =>
      { c with
        opened := c.opened + 1
        connection := TcpFraming.readDataToLength c.connection 1 .packetShortLength }
    | .receiveAuthResponse =>
      if rawData.getD 0 0 ≠ 1 ∨ rawData.getD 1 0 ≠ 0 then closeAndNotify c
      else requestSocksConnection s c

section Runs

variable (aes : Data → Data → Data) (random : Nat → UInt8) (s : Settings)

/-- The socket completes the pending read, if its bytes have come. -/
def completeRead (c : Proxied) : Option Proxied :=
  match c.socksRead with
  | some (length, tag) =>
    if length ≤ c.connection.received.length then
      some (didReadData s
        { c with
          socksRead := none
          connection :=
            { c.connection with received := c.connection.received.drop length } }
        (c.connection.received.take length) tag)
    else none
  | none =>
    (TcpFraming.completeRead aes c.connection).map fun connection => { c with connection }

/-- The transport sends packets when the connection is reported open, not before. -/
def step (c : Proxied) : TcpFraming.Event → Proxied
  | .sends datas requestQuickAck =>
    if c.opened = 0 then c
    else
      { c with
        connection := TcpFraming.step aes random c.connection (.sends datas requestQuickAck) }
  | .arrives chunk =>
    { c with connection := TcpFraming.step aes random c.connection (.arrives chunk) }
  | .reads => (completeRead aes s c).getD c

/-! ## The grammar of the requests -/

/-- What the client tells the proxy, one after the other. -/
inductive Stage where
  | methods
  | credentials
  | request
  deriving DecidableEq

inductive Destination where
  | ipv4 (bytes : Data)
  | domain (name : Data)
  | ipv6 (bytes : Data)
  deriving DecidableEq

inductive Message where
  | methods (methods : Data)
  | credentials (username password : Data)
  | request (destination : Destination) (port : Nat)
  deriving DecidableEq

def parseMethods : Data → Option Message
  | 5 :: count :: methods =>
    if methods.length = count.toNat then some (.methods methods) else none
  | _ => none

/-- The password fills the rest. -/
def parseCredentials : Data → Option Message
  | 1 :: usernameLength :: rest =>
    match rest.drop usernameLength.toNat with
    | passwordLength :: password =>
      if password.length = passwordLength.toNat then
        some (.credentials (rest.take usernameLength.toNat) password)
      else none
    | [] => none
  | _ => none

/-- An address of a known length, and the port. -/
def parseAddress (make : Data → Destination) (length : Nat) (rest : Data) : Option Message :=
  if rest.length = length + 2 then
    some (.request (make (rest.take length)) (beNat (rest.drop length)))
  else none

def parseRequest : Data → Option Message
  | 5 :: 1 :: 0 :: 1 :: rest => parseAddress .ipv4 4 rest
  | 5 :: 1 :: 0 :: 3 :: length :: rest => parseAddress .domain length.toNat rest
  | 5 :: 1 :: 0 :: 4 :: rest => parseAddress .ipv6 16 rest
  | _ => none

def parseMessage : Stage → Data → Option Message
  | .methods => parseMethods
  | .credentials => parseCredentials
  | .request => parseRequest

def Host.destination : Host → Destination
  | .ipv4 bytes => .ipv4 bytes.toList
  | .ipv6 bytes => .ipv6 bytes.toList

/-- What the settings mean to say. -/
def Settings.meant : Stage → Message
  | .methods => .methods (if s.socksUsername.isSome then [0, 2] else [0])
  | .credentials =>
    .credentials ((s.socksUsername.getD []).take 255) ((s.socksPassword.getD []).take 255)
  | .request => .request s.ip.destination s.port.toNat

/-! ## The grammar of the answers -/

/-- The method that the proxy has chosen. -/
def methodReply : Reader UInt8 := do
  let resp ← take 2
  if resp.getD 0 0 = 5 ∧ resp.getD 1 0 ≠ 0xFF then return resp.getD 1 0 else giveUp

def authReply : Reader Unit := do
  let resp ← take 2
  if resp.getD 0 0 = 1 ∧ resp.getD 1 0 = 0 then return () else giveUp

def boundDomain : Reader Data := do
  let length ← take 1
  take (length.getD 0 0).toNat

def boundAddress (addrType : UInt8) : Reader Data :=
  if addrType = 1 then take 4
  else if addrType = 3 then boundDomain
  else if addrType = 4 then take 16
  else giveUp

def connectReply : Reader Unit := do
  let resp ← take 4
  if resp.getD 1 0 = 0 then
    let _ ← boundAddress (resp.getD 3 0)
    let _ ← take 2
    return ()
  else giveUp

/-- All answers of the proxy. -/
def replies : Reader Unit := do
  let method ← methodReply
  if method = 2 then
    authReply
    connectReply
  else connectReply

/-- The stages that are due when these bytes have come. -/
def stagesAfterAuth (c : Cursor) : List Stage :=
  match authReply c with
  | .ok _ => [.request]
  | .error _ => []

def stagesAfterMethod (c : Cursor) : List Stage :=
  match methodReply c with
  | .ok (method, c') => if method = 2 then .credentials :: stagesAfterAuth c' else [.request]
  | .error _ => []

def stages (stream : Data) : List Stage := .methods :: stagesAfterMethod (Cursor.start stream)

/-- The length of the domain name in the last answer. -/
def connectDomainLength : Reader UInt8 := do
  let resp ← take 4
  if resp.getD 1 0 = 0 ∧ resp.getD 3 0 = 3 then
    let length ← take 1
    return length.getD 0 0
  else giveUp

def domainLength : Reader UInt8 := do
  let method ← methodReply
  if method = 2 then
    authReply
    connectDomainLength
  else connectDomainLength

def EmptyDomain (stream : Data) : Prop := ∃ c, domainLength (Cursor.start stream) = .ok (0, c)

/-- What is to hold when the proxy has sent `stream` and all of it is read.  After the last
answer the connection is a plain one, to which the bytes behind the answer come. -/
structure Meets (stream : Data) (c : Proxied) : Prop where
  requests : List.Forall₂
    (fun bytes stage => parseMessage stage bytes = some (s.meant stage)) c.requests (stages stream)
  outcome :
    match replies (Cursor.start stream) with
    | .ok (_, cursor) => c.opened = 1 ∧ ∃ events,
        c.connection = run (TcpFraming.step aes random) TcpFraming.started events ∧
          TcpFraming.arrivals events = cursor.rest
    | .error .endOfData =>
      c.opened = 0 ∧ c.connection.closed = false ∧ c.socksRead.isSome = true
    | .error _ => c.opened = 0 ∧ c.connection.closed = true

/-- Whatever comes later, the connection stays closed and is not reported open. -/
def StaysClosed (c : Proxied) : Prop :=
  ∀ events, let d := run (step aes random s) (closeAndNotify c) events
    d.connection.closed = true ∧ d.opened = c.opened ∧ d.requests = c.requests

/-- The answers and the settings with which nothing goes wrong. -/
structure Clean (stream : Data) : Prop where
  credentials : .credentials ∈ stages stream →
    (s.socksUsername.getD []).length ≤ 255 ∧ (s.socksPassword.getD []).length ≤ 255
  request : .request ∈ stages stream → ∃ bytes, s.ip = .ipv4 bytes
  domain : ¬ EmptyDomain stream

end Runs

end TelegramPub.Ports.SocksDialogue
