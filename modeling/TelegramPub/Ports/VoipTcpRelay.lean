import TelegramPub.Ports.TransportCipher

/-!
# The stream to a TCP relay

`NetworkSocketTCPObfuscated` writes a packet as its length in words, in one byte or in `0x7F`
and three bytes, and its bytes, all through a stream cipher.  `Receive` ignores the results of
the reads below it, and the read of a TCP socket that fails leaves the length it was asked
for: bytes that never came are taken for received ones.  Three length bytes are read with one
call, which may return fewer, and a packet that is too big for the buffer is left in the
stream, from where the next call goes on.

What a call of `recv` returns is given by a script.  If nothing of this happens, the packets
come out as they were sent (`relay_framing`).
-/

namespace TelegramPub.Ports.VoipTcpRelay

open Verified.Bytes Ports.TransportCipher

/-- The bytes that `NetworkSocketTCPObfuscated::Send` encrypts. -/
def frame (packet : Data) : Data :=
  let len := packet.length / 4
  if len < 0x7F then UInt8.ofNat len :: packet
  else
    0x7F :: UInt8.ofNat (len % 256) :: UInt8.ofNat (len / 256 % 256) ::
      UInt8.ofNat (len / 65536 % 256) :: packet

section Streams

variable (aes : Data → Data → Data)

/-- `NetworkSocketTCPObfuscated::Send` for one packet after the other.  It leaves
`pkt.address` uninitialised, and `NetworkSocketPosix::Send` returns if it is null; here it
is not. -/
def sendAll (sendState : AesCtr) (packets : List Data) : Data :=
  (encryptAll aes sendState (packets.map frame)).2.flatten

/-- How a call of `recv` ends: with as many bytes as it is asked for or `n + 1` of them, or
with an error or the end of the stream. -/
inductive Recv where
  | received (n : Nat)
  | failed
  deriving DecidableEq

/-- `NetworkSocketPosix` with `PROTO_TCP`: what was sent to it and is not read, and the calls of
`recv` so far. -/
structure Socket where
  stream : Data
  calls : Nat := 0
  failed : Bool := false
  deriving DecidableEq

section Script

variable (script : Nat → Recv)

/-- `NetworkSocket::Receive(buffer, len)` over `NetworkSocketPosix::Receive`: the length that is
returned and the buffer afterwards.  It does not return while nothing comes; after an error
the length stays what was asked for. -/
def Socket.receive (s : Socket) (buffer : Data) : Option (Nat × Data × Socket) :=
  match script s.calls with
  | .failed =>
    some (buffer.length, buffer, { s with calls := s.calls + 1, failed := true })
  | .received n =>
    let res := min (n + 1) (min buffer.length s.stream.length)
    if res = 0 then none
    else
      some (res, s.stream.take res ++ buffer.drop res,
        { s with stream := s.stream.drop res, calls := s.calls + 1 })

/-- The loop over the bytes of a packet, from `offset` on.  Each call advances the offset, so
the length of the packet is enough fuel. -/
def readBody (packetLen : Nat) : Nat → Nat → Data → Socket → Option (Data × Socket)
  | 0, _, data, s => some (data, s)
  | fuel + 1, offset, data, s =>
    if offset < packetLen then do
      let (len, part, s) ← s.receive script ((data.drop offset).take (packetLen - offset))
      readBody packetLen fuel (offset + len)
        (data.take offset ++ part ++ data.drop packetLen) s
    else some (data, s)

/-- What `Receive` is called with: the buffer, and what the locals `len1` and `len2` hold. -/
structure Call where
  data : Data
  len1 : UInt8
  len2 : Vector UInt8 3
  deriving DecidableEq

/-- `packet->length` and the buffer when `Receive` returns. -/
structure Received where
  length : Nat
  data : Data
  deriving DecidableEq

/-- The packet that the caller sees. -/
def Received.packet (r : Received) : Data := r.data.take r.length

structure Receiver where
  wrapped : Socket
  recvState : AesCtr
  deriving DecidableEq

/-- `NetworkSocketTCPObfuscated::Receive` up to the length. -/
def receiveLength (r : Receiver) (call : Call) : Option (Nat × Receiver) := do
  let (_, len1, wrapped) ← r.wrapped.receive script [call.len1]
  let (recvState, len1) := encrypt aes r.recvState len1
  if (len1.headD 0).toNat < 0x7F then
    return ((len1.headD 0).toNat * 4, { wrapped, recvState })
  else
    let (_, len2, wrapped) ← wrapped.receive script call.len2.toList
    let (recvState, len2) := encrypt aes recvState len2
    return (leNat len2 * 4, { wrapped, recvState })

/-- The rest of it.  A packet for which there is no room stays in the stream. -/
def receivePacket (packetLen : Nat) (r : Receiver) (call : Call) : Option (Received × Receiver) :=
  if call.data.length < packetLen then
    some ({ length := 0, data := call.data }, r)
  else do
    let (data, wrapped) ← readBody script packetLen packetLen 0 call.data r.wrapped
    let (recvState, plain) := encrypt aes r.recvState (data.take packetLen)
    return ({ length := packetLen, data := plain ++ data.drop packetLen },
      { wrapped, recvState })

def receive (r : Receiver) (call : Call) : Option (Received × Receiver) := do
  let (packetLen, r) ← receiveLength aes script r call
  receivePacket aes script packetLen r call

/-- Successive calls of `Receive`. -/
def receiveAll (r : Receiver) : List Call → Option (List Received)
  | [] => some []
  | call :: calls => do
      let (result, r) ← receive aes script r call
      let results ← receiveAll r calls
      return result :: results

/-! ## The calls with which nothing goes wrong -/

/-- The calls of `recv` from number `i` up to `j` bring `n` bytes, and none fails. -/
inductive Delivers : Nat → Nat → Nat → Prop where
  | done (i : Nat) : Delivers i 0 i
  | more {i n k j : Nat} (hn : n ≠ 0) (hread : script i = .received k)
      (hrest : Delivers (i + 1) (n - min (k + 1) n) j) : Delivers i n j

/-- The calls of `recv` from number `i` up to `j` bring one packet: the first length byte, the
three others together, and the packet. -/
structure Whole (packet : Data) (i j : Nat) : Prop where
  first : ∃ n, script i = .received n
  length : 0x7F ≤ packet.length / 4 → ∃ n, 2 ≤ n ∧ script (i + 1) = .received n
  body : Delivers script (if packet.length / 4 < 0x7F then i + 1 else i + 2) packet.length j

/-- Each packet comes whole, and fits into the buffer of its call. -/
def Smooth : Nat → List (Data × Call) → Prop
  | _, [] => True
  | i, (packet, call) :: rest =>
    packet.length ≤ call.data.length ∧ ∃ j, Whole script packet i j ∧ Smooth j rest

end Script

end Streams

section Reading

variable {aes : Data → Data → Data} {script : Nat → Recv}

theorem receive_part {s : Socket} {buffer bytes rest : Data} {k : Nat}
    (hstream : s.stream = bytes ++ rest) (hlength : bytes.length = buffer.length)
    (hne : buffer.length ≠ 0) (hread : script s.calls = .received k) :
    s.receive script buffer =
      some (min (k + 1) buffer.length,
        bytes.take (min (k + 1) buffer.length) ++ buffer.drop (min (k + 1) buffer.length),
        { s with
          stream := bytes.drop (min (k + 1) buffer.length) ++ rest
          calls := s.calls + 1 }) := by
  have hres : min (k + 1) (min buffer.length s.stream.length) = min (k + 1) buffer.length := by
    rw [hstream, List.length_append]
    omega
  have hpos : ¬ min (k + 1) buffer.length = 0 := by omega
  have hle : min (k + 1) buffer.length ≤ bytes.length := by omega
  simp only [Socket.receive, hread, hres, hpos, if_false]
  rw [hstream, List.take_append_of_le_length hle, List.drop_append_of_le_length hle]

/-- A read that brings all that it asks for. -/
theorem receive_whole {s : Socket} {buffer bytes rest : Data} {n : Nat}
    (hstream : s.stream = bytes ++ rest) (hlength : bytes.length = buffer.length)
    (hne : buffer.length ≠ 0) (hn : buffer.length ≤ n + 1)
    (hread : script s.calls = .received n) :
    s.receive script buffer =
      some (buffer.length, bytes, { s with stream := rest, calls := s.calls + 1 }) := by
  rw [receive_part hstream hlength hne hread, Nat.min_eq_right hn,
    List.take_of_length_le hlength.le, List.drop_of_length_le hlength.le, List.drop_length,
    List.append_nil, List.nil_append]

theorem readBody_delivers {packetLen i n j : Nat} (h : Delivers script i n j) :
    ∀ {fuel offset : Nat} {data bytes rest : Data} {s : Socket}, n ≤ fuel →
      offset + n = packetLen → packetLen ≤ data.length → bytes.length = n →
      s.stream = bytes ++ rest → s.calls = i →
      readBody script packetLen fuel offset data s =
        some (data.take offset ++ bytes ++ data.drop packetLen,
          { s with stream := rest, calls := j }) := by
  induction h with
  | done i =>
    intro fuel offset data bytes rest s hfuel hoffset hdata hbytes hstream hcalls
    obtain rfl := List.length_eq_zero_iff.1 hbytes
    have hend : ¬ offset < packetLen := by omega
    have hsame : s = { s with stream := rest, calls := i } := by
      rw [← hcalls, ← List.nil_append rest, ← hstream]
    have hwhole : data.take offset ++ [] ++ data.drop packetLen = data := by
      rw [List.append_nil, ← hoffset, Nat.add_zero, List.take_append_drop]
    rw [hwhole, ← hsame]
    cases fuel with
    | zero => rfl
    | succ fuel => rw [readBody, if_neg hend]
  | @more i n k j hn hread hrest ih =>
    intro fuel offset data bytes rest s hfuel hoffset hdata hbytes hstream hcalls
    obtain ⟨fuel, rfl⟩ : ∃ m, fuel = m + 1 := ⟨fuel - 1, by omega⟩
    have hbuffer : ((data.drop offset).take (packetLen - offset)).length = n := by
      rw [List.length_take, List.length_drop]
      omega
    have hreceive := receive_part hstream (hbytes.trans hbuffer.symm) (by omega)
      (hcalls ▸ hread)
    rw [hbuffer] at hreceive
    rw [readBody, if_pos (by omega), hreceive, Option.bind_eq_bind, Option.bind_some]
    dsimp only
    have hfront : (data.take offset ++ bytes.take (min (k + 1) n)).length =
        offset + min (k + 1) n := by
      rw [List.length_append, List.length_take, List.length_take]
      omega
    have hfilled : (data.take offset ++ (bytes.take (min (k + 1) n) ++
        ((data.drop offset).take (packetLen - offset)).drop (min (k + 1) n))).length =
        packetLen := by
      rw [← List.append_assoc, List.length_append, hfront, List.length_drop, hbuffer]
      omega
    rw [ih (by omega) (by omega)
      (by rw [List.length_append, hfilled]; omega)
      (by rw [List.length_drop, hbytes]) rfl (by rw [hcalls]),
      List.drop_left' hfilled, List.append_assoc, ← List.append_assoc (data.take offset),
      List.append_assoc (data.take offset ++ _), List.take_left' hfront,
      List.append_assoc (data.take offset), ← List.append_assoc (bytes.take _),
      List.take_append_drop, ← List.append_assoc]

/-- The length in front of a packet. -/
def header (packet : Data) : Data :=
  if packet.length / 4 < 0x7F then [UInt8.ofNat (packet.length / 4)]
  else 0x7F :: natLE 3 (packet.length / 4)

theorem frame_eq (packet : Data) : frame packet = header packet ++ packet := by
  unfold frame header
  dsimp only
  split
  · rfl
  · have hdiv : packet.length / 4 / 256 / 256 = packet.length / 4 / 65536 := Nat.div_div_eq_div_mul _ _ _
    simp only [natLE, hdiv, List.cons_append, List.nil_append]

theorem leNat_length {q : Nat} (h : q < 2 ^ 24) : leNat (natLE 3 q) = q := by
  rw [leNat_natLE]
  exact Nat.mod_eq_of_lt h

/-- A receiver that has the rest of the plain stream in front of it. -/
structure InStep (aes : Data → Data → Data) (r : Receiver) (i : Nat) (plain : Data) : Prop where
  stream : r.wrapped.stream = (encrypt aes r.recvState plain).2
  calls : r.wrapped.calls = i

/-- A read of all the bytes of `plain`. -/
theorem receive_encrypted {a : AesCtr} {s : Socket} {buffer plain rest : Data} {n : Nat}
    (hstream : s.stream = (encrypt aes a (plain ++ rest)).2) (hlength : plain.length = buffer.length)
    (hne : buffer.length ≠ 0) (hn : buffer.length ≤ n + 1)
    (hread : script s.calls = .received n) :
    s.receive script buffer =
      some (buffer.length, (encrypt aes a plain).2,
        { s with
          stream := (encrypt aes (encrypt aes a plain).1 rest).2
          calls := s.calls + 1 }) := by
  rw [encrypt_append] at hstream
  exact receive_whole hstream ((length_encrypt aes a plain).trans hlength) hne hn hread

theorem receiveLength_frame {r : Receiver} {i j : Nat} {packet rest : Data} (call : Call)
    (h : InStep aes r i (frame packet ++ rest)) (hwords : packet.length % 4 = 0)
    (hshort : packet.length < 2 ^ 26) (hwhole : Whole script packet i j) :
    ∃ r' i', receiveLength aes script r call = some (packet.length, r') ∧
      InStep aes r' i' (packet ++ rest) ∧ Delivers script i' packet.length j := by
  have hstream := h.stream
  have hbody := hwhole.body
  have hlen : packet.length / 4 * 4 = packet.length := by omega
  obtain ⟨n, hfirst⟩ := hwhole.first
  rw [← h.calls] at hfirst
  rw [frame_eq, header] at hstream
  by_cases hone : packet.length / 4 < 0x7F
  · rw [if_pos hone, List.append_assoc] at hstream
    rw [if_pos hone] at hbody
    have hread := receive_encrypted hstream (rfl : _ = [call.len1].length) Nat.one_ne_zero
      (Nat.le_add_left 1 n) hfirst
    have hvalue : (UInt8.ofNat (packet.length / 4)).toNat = packet.length / 4 := by
      rw [UInt8.toNat_ofNat']
      exact Nat.mod_eq_of_lt (by omega)
    rw [receiveLength, hread, Option.bind_eq_bind, Option.bind_some]
    dsimp only
    rw [encrypt_encrypt]
    simp only [List.headD_cons, hvalue, hone, if_true, hlen]
    exact ⟨_, i + 1, rfl, ⟨rfl, by rw [h.calls]⟩, hbody⟩
  · obtain ⟨m, hm, hsecond⟩ := hwhole.length (by omega)
    rw [if_neg hone, List.append_assoc, ← List.singleton_append, List.append_assoc] at hstream
    rw [if_neg hone] at hbody
    have hread := receive_encrypted hstream (rfl : _ = [call.len1].length) Nat.one_ne_zero
      (Nat.le_add_left 1 n) hfirst
    have hthree : call.len2.toList.length = 3 := Vector.length_toList
    rw [← h.calls] at hsecond
    rw [receiveLength, hread, Option.bind_eq_bind, Option.bind_some]
    dsimp only
    rw [encrypt_encrypt]
    simp only [List.headD_cons]
    rw [if_neg (by decide), receive_encrypted rfl ((length_natLE _ _).trans hthree.symm) (by omega)
      (by omega) hsecond, Option.bind_some]
    rw [encrypt_encrypt]
    rw [leNat_length (by omega), hlen]
    exact ⟨_, i + 2, rfl, ⟨rfl, by rw [h.calls]⟩, hbody⟩

/-- A packet that fits is received, and the next one is in front. -/
theorem receivePacket_frame {r : Receiver} {i j : Nat} {packet rest : Data} {call : Call}
    (h : InStep aes r i (packet ++ rest)) (hfits : packet.length ≤ call.data.length)
    (hbody : Delivers script i packet.length j) :
    ∃ r', receivePacket aes script packet.length r call =
        some ({ length := packet.length, data := packet ++ call.data.drop packet.length }, r') ∧
      InStep aes r' j rest := by
  have hstream := h.stream
  rw [encrypt_append] at hstream
  have hlength := length_encrypt aes r.recvState packet
  have hread := readBody_delivers hbody le_rfl (Nat.zero_add _) hfits hlength hstream h.calls
  rw [List.take_zero, List.nil_append] at hread
  rw [receivePacket, if_neg (by omega), hread, Option.bind_eq_bind, Option.bind_some]
  dsimp only
  rw [List.take_left' hlength, List.drop_left' hlength, encrypt_encrypt]
  exact ⟨_, rfl, rfl, rfl⟩

/-- A packet that comes whole and fits is received, and the next one is in front. -/
theorem receive_frame {r : Receiver} {i j : Nat} {packet rest : Data} {call : Call}
    (h : InStep aes r i (frame packet ++ rest)) (hwords : packet.length % 4 = 0)
    (hshort : packet.length < 2 ^ 26) (hfits : packet.length ≤ call.data.length)
    (hwhole : Whole script packet i j) :
    ∃ r', receive aes script r call =
        some ({ length := packet.length, data := packet ++ call.data.drop packet.length }, r') ∧
      InStep aes r' j rest := by
  obtain ⟨r₁, i₁, hlength, hnext, hbody⟩ := receiveLength_frame call h hwords hshort hwhole
  rw [receive, hlength, Option.bind_eq_bind, Option.bind_some]
  exact receivePacket_frame hnext hfits hbody

theorem sendAll_eq (a : AesCtr) (packets : List Data) :
    sendAll aes a packets = (encrypt aes a (packets.flatMap frame)).2 := by
  have hflatten := encryptAll_flatten aes (packets.map frame) a
  rw [← List.flatMap_def] at hflatten
  exact (Prod.mk.inj hflatten).2

theorem receiveAll_inStep {packets : List Data} :
    ∀ {r : Receiver} {i : Nat} {calls : List Call},
      InStep aes r i (packets.flatMap frame) →
      (∀ packet ∈ packets, packet.length % 4 = 0) → (∀ packet ∈ packets, packet.length < 2 ^ 26) →
      calls.length ≤ packets.length → Smooth script i (packets.zip calls) →
      ∃ results, receiveAll aes script r calls = some results ∧
        results.map Received.packet = packets.take calls.length ∧
        results.map Received.length = (packets.take calls.length).map List.length := by
  induction packets with
  | nil =>
    intro r i calls _ _ _ hcalls _
    obtain rfl := List.length_eq_zero_iff.1 (Nat.le_zero.1 hcalls)
    exact ⟨[], rfl, rfl, rfl⟩
  | cons packet packets ih =>
    intro r i calls h hwords hshort hcalls hsmooth
    cases calls with
    | nil => exact ⟨[], rfl, rfl, rfl⟩
    | cons call calls =>
      obtain ⟨hfits, j, hwhole, hrest⟩ := hsmooth
      rw [List.flatMap_cons] at h
      obtain ⟨r', hreceive, hnext⟩ := receive_frame h (hwords packet (.head _))
        (hshort packet (.head _)) hfits hwhole
      obtain ⟨results, hresults, hpackets, hlengths⟩ := ih hnext
        (fun p hp => hwords p (.tail _ hp))
        (fun p hp => hshort p (.tail _ hp))
        (Nat.le_of_succ_le_succ hcalls) hrest
      refine ⟨{ length := packet.length, data := packet ++ call.data.drop packet.length } ::
        results, ?_, ?_, ?_⟩
      · grind [receiveAll]
      · rw [List.map_cons, List.length_cons, List.take_succ_cons, hpackets, Received.packet,
          List.take_left]
      · rw [List.map_cons, List.length_cons, List.take_succ_cons, List.map_cons, hlengths]

end Reading

/-- If every packet comes whole, fits into the buffer of its call and has a length that three
bytes can hold, then the calls of `Receive` return the packets that were sent, in order. -/
theorem relay_framing (aes : Data → Data → Data) (script : Nat → Recv) (a : AesCtr)
    (packets : List Data) (calls : List Call) (hwords : ∀ packet ∈ packets, packet.length % 4 = 0)
    (hshort : ∀ packet ∈ packets, packet.length < 2 ^ 26) (hcalls : calls.length ≤ packets.length)
    (hsmooth : Smooth script 0 (packets.zip calls)) :
    ∃ results, receiveAll aes script
        { wrapped := { stream := sendAll aes a packets }, recvState := a } calls = some results ∧
      results.map Received.packet = packets.take calls.length ∧
      results.map Received.length = (packets.take calls.length).map List.length :=
  receiveAll_inStep ⟨sendAll_eq a packets, rfl⟩ hwords hshort hcalls hsmooth

/-- A cipher that encrypts nothing. -/
def plainAes (_ _ : Data) : Data := List.replicate 16 0

def plainState : AesCtr := initWithKey [] []

def sampleCall (length : Nat) : Call where
  data := List.replicate length 9
  len1 := 1
  len2 := #v[0, 0, 0]

def sampleReceiver (packets : List Data) : Receiver where
  wrapped := { stream := sendAll plainAes plainState packets }
  recvState := plainState

/-- The shortest packet with three length bytes behind the first one. -/
def longPacket : Data := List.replicate 508 7

theorem length_longPacket : longPacket.length = 508 := List.length_replicate

/-- The second read brings one byte. -/
def piecesScript (i : Nat) : Recv := .received (if i = 1 then 0 else 4096)

/-- A short packet in two pieces and a long one. -/
theorem relay_framing_pieces :
    ∃ results, receiveAll plainAes piecesScript (sampleReceiver [[1, 2, 3, 4], longPacket])
        [sampleCall 1024, sampleCall 1024] = some results ∧
      results.map Received.packet = [[1, 2, 3, 4], longPacket] ∧
      results.map Received.length = [[1, 2, 3, 4], longPacket].map List.length := by
  refine relay_framing plainAes piecesScript plainState [[1, 2, 3, 4], longPacket]
    [sampleCall 1024, sampleCall 1024] ?_ ?_ le_rfl ?_
  · grind [length_longPacket]
  · grind [length_longPacket]
  · have hcall : (sampleCall 1024).data.length = 1024 := List.length_replicate
    refine ⟨?_, 3, ⟨⟨_, rfl⟩, ?_, ?_⟩, ?_, 6, ⟨⟨_, rfl⟩, ?_, ?_⟩, trivial⟩
    · rw [hcall]
      decide
    · exact fun hlong => absurd hlong (by decide)
    · exact .more (by decide) rfl (.more (by decide) rfl (.done 3))
    · rw [hcall, length_longPacket]
      decide
    · exact fun _ => ⟨4096, by decide, rfl⟩
    · rw [length_longPacket]
      exact .more (by decide) rfl (.done 6)

/-- What the calls return for packets, one after the other. -/
def receivedPackets (script : Nat → Recv) (packets : List Data) (calls : List Call) :
    Option (List Data) :=
  (receiveAll plainAes script (sampleReceiver packets) calls).map (List.map Received.packet)

/-- The first packet is followed by the end of the stream, is too big for the buffer, or has
its three length bytes in two pieces. -/
theorem relay_framing_fails :
    receivedPackets (fun i => if i = 0 then .received 0 else .failed) [[1, 2, 3, 4]]
        [sampleCall 1024] = some [[9, 9, 9, 9]] ∧
      receivedPackets (fun _ => .received 4096)
        [[1, 2, 3, 4, 5, 6, 7, 8], [1, 2, 3, 4]] [sampleCall 4, sampleCall 8] =
          some [[], [2, 3, 4, 5]] ∧
      receivedPackets piecesScript
        [longPacket, [1, 2, 3, 4]] [sampleCall 1024, sampleCall 1024] ≠
          some [longPacket, [1, 2, 3, 4]] := by
  decide +kernel

end TelegramPub.Ports.VoipTcpRelay
