import TelegramPub.Ports.VoipReception
import TelegramPub.Ports.VoipEndpoints

/-!
# VoIPController: round-trip times

`sentPacketTimes` is shifted by one whenever the send thread writes a packet, and
`GetAverageRTT` reads entry `i` as the time of the packet with the number
`lastSentSeq - i`.  The two agree as long as the packets are written one number after
the other.

A packet takes its number in the thread that makes it, and enters `sendQueue` later; in
between other threads do the same.  `SendInit` makes packets with one number for several
endpoints.  The send thread drops the packets whose transport is disabled.

Two threads that take a number at the same time are left out, and so is `GetAverageRTT`
in the middle of `WritePacketHeader`.  The written packets are kept beside the state.
-/

namespace TelegramPub.Ports.VoipRoundTrip

open Verified.Machine Ports.VoipReception
open Ports.VoipEndpoints (EndpointType)

/-- `PendingOutgoingPacket`: its number, and the type of its endpoint if it has one. -/
structure PendingOutgoingPacket where
  seq : BitVec 32
  endpoint : Option EndpointType
  deriving DecidableEq

/-- A packet that was written: its number and the time. -/
structure Sent where
  seq : BitVec 32
  time : ℚ
  deriving DecidableEq

/-- `handed` are the packets that have a number and are not queued yet, `sent` the written ones,
the newest first. -/
structure Controller where
  seq : BitVec 32 := 1
  handed : List PendingOutgoingPacket := []
  sendQueue : List PendingOutgoingPacket := []
  endpoints : List EndpointType
  currentEndpoint : EndpointType
  useTCP : Bool := false
  useUDP : Bool := true
  sentPacketTimes : List ℚ := List.replicate 32 0
  lastSentSeq : BitVec 32 := 0
  lastRemoteAckSeq : BitVec 32 := 0
  remoteAcks : List ℚ := List.replicate 32 0
  sent : List Sent := []

/-- The capacity of `sendQueue`. -/
abbrev queueCapacity : Nat := 21

/-- `GenerateOutSeq`, for packets to some endpoints. -/
def Controller.generateOutSeq (c : Controller) (endpoints : List (Option EndpointType)) :
    Controller :=
  { c with seq := c.seq + 1, handed := c.handed ++ endpoints.map fun e => ⟨c.seq, e⟩ }

/-- `SendInit`. -/
def Controller.sendInit (c : Controller) : Controller :=
  c.generateOutSeq ((c.endpoints.filter fun e => e ≠ .tcpRelay || c.useTCP).map some)

/-- `Put`.  The queue is never full, since a packet holds one of the 20 buffers of the
pool, so that what is done with a full queue does not matter. -/
def Controller.put (c : Controller) (p : PendingOutgoingPacket) : Controller :=
  let queue := c.sendQueue ++ [p]
  { c with sendQueue := queue.drop (queue.length - queueCapacity) }

/-- The transport of a packet is enabled. -/
def Controller.canSend (c : Controller) (p : PendingOutgoingPacket) : Bool :=
  let endpoint := p.endpoint.getD c.currentEndpoint
  (decide (endpoint = .tcpRelay) && c.useTCP) || (decide (endpoint ≠ .tcpRelay) && c.useUDP)

/-- The end of `WritePacketHeader`. -/
def Controller.writePacketHeader (c : Controller) (pseq : BitVec 32) (time : ℚ) : Controller :=
  { c with
    sentPacketTimes := time :: c.sentPacketTimes.take 31
    lastSentSeq := pseq
    sent := ⟨pseq, time⟩ :: c.sent }

/-- One round of `RunSendThread`. -/
def Controller.runSendThread (c : Controller) (time : ℚ) : Controller :=
  match c.sendQueue with
  | [] => c
  | p :: queue =>
    let c := { c with sendQueue := queue }
    if c.canSend p then c.writePacketHeader p.seq time else c

/-! ### Acknowledgements -/

/-- `remoteAcks` for a new `lastRemoteAckSeq`.  The first entries are left by a shift by one
only. -/
def shiftAcks (remoteAcks : List ℚ) (diff : Nat) (time : ℚ) : List ℚ :=
  if 31 < diff then List.replicate 32 0
  else
    let first := if 1 < diff then List.replicate diff 0 else remoteAcks.take diff
    (first ++ remoteAcks.take (32 - diff)).set 0 time

/-- The loop over the mask; each entry has a time of its own. -/
def readAcks (acks : BitVec 32) (times : Nat → ℚ) : List Nat → List ℚ → List ℚ
  | [], remoteAcks => remoteAcks
  | i :: is, remoteAcks =>
    if remoteAcks.getD (i + 1) 0 = 0 ∧ acks.getLsbD (31 - i) = true then
      readAcks acks times is (remoteAcks.set (i + 1) (times (i + 1)))
    else readAcks acks times is remoteAcks

/-- The acknowledgements of a header. -/
def Controller.receiveAcks (c : Controller) (ackId acks : BitVec 32) (times : Nat → ℚ) :
    Controller :=
  if seqgt ackId c.lastRemoteAckSeq then
    let diff := (ackId - c.lastRemoteAckSeq).toNat
    { c with
      remoteAcks := readAcks acks times (List.range 31) (shiftAcks c.remoteAcks diff (times 0))
      lastRemoteAckSeq := ackId }
  else c

/-! ### GetAverageRTT -/

/-- The entries of `sentPacketTimes` that `GetAverageRTT` subtracts, when it goes so far. -/
def Controller.subtracted (c : Controller) : List Nat :=
  let diff := (c.lastSentSeq - c.lastRemoteAckSeq).toNat
  ((List.range 32).filter (diff ≤ ·)).filter fun i => 0 < c.remoteAcks.getD (i - diff) 0

/-- `GetAverageRTT` comes to its loop. -/
def Controller.measures (c : Controller) : Bool :=
  decide (c.lastRemoteAckSeq ≤ c.lastSentSeq) &&
    decide ((c.lastSentSeq - c.lastRemoteAckSeq).toNat < 32)

/-- `GetAverageRTT`. -/
def Controller.getAverageRTT (c : Controller) : ℚ :=
  if c.measures then
    let diff := (c.lastSentSeq - c.lastRemoteAckSeq).toNat
    let res := (c.subtracted.map fun i =>
      c.remoteAcks.getD (i - diff) 0 - c.sentPacketTimes.getD i 0).sum
    if 0 < c.subtracted.length then res / c.subtracted.length else res
  else 999

/-! ### Runs -/

inductive Event where
  | generateOutSeq (endpoint : Option EndpointType)
  | sendInit
  | put (k : Nat)
  | dropPacket (k : Nat)
  | runSendThread (time : ℚ)
  | setEndpoints (endpoints : List EndpointType) (current : EndpointType) (useTCP useUDP : Bool)
  | receiveAcks (ackId acks : BitVec 32) (times : Nat → ℚ)
  | getAverageRTT

/-- One event.  A packet without a buffer is dropped before it is queued. -/
def step (c : Controller) : Event → Controller
  | .generateOutSeq endpoint => c.generateOutSeq [endpoint]
  | .sendInit => c.sendInit
  | .put k =>
    match c.handed[k]? with
    | some p => { c with handed := c.handed.eraseIdx k }.put p
    | none => c
  | .dropPacket k => { c with handed := c.handed.eraseIdx k }
  | .runSendThread time => c.runSendThread time
  | .setEndpoints endpoints current useTCP useUDP =>
    { c with endpoints, useTCP, useUDP, currentEndpoint := current }
  | .receiveAcks ackId acks times => c.receiveAcks ackId acks times
  | .getAverageRTT => c

/-- A controller before its first packet. -/
def initial (endpoints : List EndpointType) (currentEndpoint : EndpointType) : Controller :=
  { endpoints, currentEndpoint }

/-- The time when the packet with a number was written, at last. -/
def Controller.sendTime (c : Controller) (n : BitVec 32) : Option ℚ :=
  (c.sent.find? (·.seq = n)).map (·.time)

/-- What `GetAverageRTT` subtracts is the time of the packet it takes it for. -/
def Controller.Matching (c : Controller) : Prop :=
  c.measures = true → ∀ i ∈ c.subtracted,
    c.sendTime (c.lastSentSeq - BitVec.ofNat 32 i) = some (c.sentPacketTimes.getD i 0)

instance (c : Controller) : Decidable c.Matching :=
  inferInstanceAs (Decidable (_ → ∀ i ∈ c.subtracted, _ = _))

/-- The calls of `GetAverageRTT` subtract matching times. -/
def RttMatches (c : Controller) : Event → Prop
  | .getAverageRTT => c.Matching
  | _ => True

instance (c : Controller) : ∀ e, Decidable (RttMatches c e)
  | .getAverageRTT => inferInstanceAs (Decidable c.Matching)
  | .generateOutSeq _ | .sendInit | .put _ | .dropPacket _ | .runSendThread _
  | .setEndpoints _ _ _ _ | .receiveAcks _ _ _ => inferInstanceAs (Decidable True)

/-! ## The order of the numbers -/

/-- The packet that the send thread is about to write. -/
def Controller.nextWritten (c : Controller) : Option PendingOutgoingPacket :=
  c.sendQueue.head?.filter c.canSend

/-- The send thread writes the packet that follows the last one. -/
def InOrder (c : Controller) : Event → Prop
  | .runSendThread _ => ∀ p ∈ c.nextWritten, p.seq = c.lastSentSeq + 1
  | _ => True

instance (c : Controller) : ∀ e, Decidable (InOrder c e)
  | .runSendThread _ => inferInstanceAs (Decidable (∀ p ∈ c.nextWritten, _))
  | .generateOutSeq _ | .sendInit | .put _ | .dropPacket _ | .getAverageRTT
  | .setEndpoints _ _ _ _ | .receiveAcks _ _ _ => inferInstanceAs (Decidable True)

/-- `GetAverageRTT` subtracts the times of packets that were written. -/
def Written (c : Controller) : Event → Prop
  | .getAverageRTT => c.measures = true → ∀ i ∈ c.subtracted, i < c.sent.length
  | _ => True

instance (c : Controller) : ∀ e, Decidable (Written c e)
  | .getAverageRTT => inferInstanceAs (Decidable (_ → ∀ i ∈ c.subtracted, _))
  | .generateOutSeq _ | .sendInit | .put _ | .dropPacket _ | .runSendThread _
  | .setEndpoints _ _ _ _ | .receiveAcks _ _ _ => inferInstanceAs (Decidable True)

/-- Packets that were written one number after the other. -/
def Consecutive : List Sent → Prop
  | [] => True
  | s :: rest => s.seq = BitVec.ofNat 32 (rest.length + 1) ∧ Consecutive rest

theorem ofNat_succ_sub (n i : Nat) :
    BitVec.ofNat 32 (n + 1) - BitVec.ofNat 32 (i + 1) = BitVec.ofNat 32 n - BitVec.ofNat 32 i := by
  bv_omega

theorem ofNat_ne_sub (n i : Nat) (hi : i + 1 < 2 ^ 32) :
    BitVec.ofNat 32 n ≠ BitVec.ofNat 32 n - BitVec.ofNat 32 (i + 1) := by
  intro h
  have hzero : BitVec.ofNat 32 (i + 1) = 0 := by bv_omega
  have hnat := congrArg BitVec.toNat hzero
  rw [BitVec.toNat_ofNat, Nat.mod_eq_of_lt hi] at hnat
  cases hnat

/-- Among consecutive numbers, the one that is `i` behind the last is at place `i`. -/
theorem find?_consecutive (sent : List Sent) (h : Consecutive sent) (i : Nat) (hi : i < 2 ^ 32) :
    sent.find? (·.seq = BitVec.ofNat 32 sent.length - BitVec.ofNat 32 i) = sent[i]? := by
  induction sent generalizing i with
  | nil => simp
  | cons s rest ih =>
    obtain ⟨hseq, hrest⟩ := h
    cases i with
    | zero => simp [hseq]
    | succ i =>
      grind [ofNat_ne_sub, ofNat_succ_sub]

/-- The history of times is that of the written packets, and in an ordered run the numbers are
consecutive. -/
structure Inv (c : Controller) : Prop where
  times : c.sentPacketTimes = (c.sent.map Sent.time ++ List.replicate 32 0).take 32
  consecutive : Consecutive c.sent
  last : c.lastSentSeq = BitVec.ofNat 32 c.sent.length

theorem inv_initial (endpoints : List EndpointType) (current : EndpointType) :
    Inv (initial endpoints current) where
  times := rfl
  consecutive := trivial
  last := rfl

/-- Only the send thread changes the history. -/
theorem inv_of_same {c c' : Controller} (h : Inv c) (hsent : c'.sent = c.sent)
    (htimes : c'.sentPacketTimes = c.sentPacketTimes) (hlast : c'.lastSentSeq = c.lastSentSeq) :
    Inv c' where
  times := by rw [htimes, hsent, h.times]
  consecutive := hsent ▸ h.consecutive
  last := by rw [hlast, hsent, h.last]

variable {c : Controller}

theorem inv_writePacketHeader (h : Inv c) (pseq : BitVec 32) (time : ℚ)
    (hnext : pseq = c.lastSentSeq + 1) : Inv (c.writePacketHeader pseq time) where
  times := by
    simp [Controller.writePacketHeader, h.times, List.take_take]
  consecutive := by
    refine ⟨?_, h.consecutive⟩
    change pseq = _
    rw [hnext, h.last, BitVec.ofNat_add]
    rfl
  last := by
    change pseq = BitVec.ofNat 32 (c.sent.length + 1)
    rw [hnext, h.last, BitVec.ofNat_add]
    rfl

theorem inv_runSendThread (h : Inv c) (time : ℚ)
    (hnext : InOrder c (.runSendThread time)) : Inv (c.runSendThread time) := by
  cases hqueue : c.sendQueue with
  | nil => simpa [Controller.runSendThread, hqueue] using h
  | cons p queue =>
    have hpopped : Inv { c with sendQueue := queue } := inv_of_same h rfl rfl rfl
    have hcan : Controller.canSend { c with sendQueue := queue } p = c.canSend p := rfl
    cases hsend : c.canSend p with
    | false => simpa [Controller.runSendThread, hqueue, hcan, hsend] using hpopped
    | true =>
      have hmem : p ∈ c.nextWritten := by simp [Controller.nextWritten, hqueue, hsend]
      simpa [Controller.runSendThread, hqueue, hcan, hsend] using
        inv_writePacketHeader hpopped p.seq time (hnext p hmem)

theorem inv_step {e : Event} (h : Inv c) (hnext : InOrder c e) :
    Inv (step c e) := by
  cases e with
  | generateOutSeq endpoint => exact inv_of_same h rfl rfl rfl
  | sendInit => exact inv_of_same h rfl rfl rfl
  | put k =>
    simp only [step]
    split
    · exact inv_of_same h rfl rfl rfl
    · exact h
  | dropPacket k => exact inv_of_same h rfl rfl rfl
  | runSendThread time => exact inv_runSendThread h time hnext
  | setEndpoints endpoints current useTCP useUDP => exact inv_of_same h rfl rfl rfl
  | receiveAcks ackId acks times =>
    grind [Controller.receiveAcks, inv_of_same, step]
  | getAverageRTT => exact h

/-- Every entry of the history, also of one that was never written. -/
theorem getD_times (h : Inv c) (i : Nat) (hi : i < 32) :
    c.sentPacketTimes.getD i 0 = (c.sent[i]?.map (·.time)).getD 0 := by
  rw [h.times, List.getD_eq_getElem?_getD, List.getElem?_take_of_lt hi]
  by_cases hwritten : i < c.sent.length
  · simp [List.getElem?_append, hwritten]
  · grind

theorem matching_iff (h : Inv c) :
    c.Matching ↔ (c.measures = true → ∀ i ∈ c.subtracted, i < c.sent.length) := by
  refine imp_congr_right fun _ => forall₂_congr fun i hi => ?_
  have hlt : i < 32 := by
    simp only [Controller.subtracted, List.mem_filter, List.mem_range] at hi
    exact hi.1.1
  have hfind := find?_consecutive c.sent h.consecutive i (by omega)
  rw [Controller.sendTime, h.last, hfind, getD_times h i hlt]
  by_cases hwritten : i < c.sent.length
  · simp [hwritten]
  · simp [hwritten]

/-- In the runs where every packet that the send thread writes has the number after the last
one, `GetAverageRTT` subtracts matching times exactly when it subtracts the times of packets
that were written. -/
theorem rtt_matches (endpoints : List EndpointType) (current : EndpointType) (es : List Event)
    (horder : Guarded step InOrder (initial endpoints current) es) :
    Guarded step RttMatches (initial endpoints current) es ↔
      Guarded step Written (initial endpoints current) es := by
  have hiff : ∀ c e, Inv c → InOrder c e → (RttMatches c e ↔ Written c e) := by
    intro c e hinv _
    cases e with
    | getAverageRTT => exact matching_iff hinv
    | _ => exact Iff.rfl
  exact guarded_congr_within (fun c e hinv hnext _ => inv_step hinv hnext) hiff es _
    (inv_initial endpoints current) horder

/-- Three packets, of which the last acknowledgement names all. -/
def orderedRun : List Event :=
  [.generateOutSeq none, .put 0, .runSendThread 10, .generateOutSeq none, .put 0,
    .runSendThread 20, .receiveAcks 2 0 fun _ => 50, .generateOutSeq none, .put 0,
    .runSendThread 60, .receiveAcks 3 0xC0000000 fun _ => 90, .getAverageRTT]

/-- Three packets, whose times are all measured. -/
theorem orderedRun_matches : Guarded step InOrder (initial [.udpRelay] .udpRelay) orderedRun ∧
    Guarded step RttMatches (initial [.udpRelay] .udpRelay) orderedRun := by
  have horder : Guarded step InOrder (initial [.udpRelay] .udpRelay) orderedRun := by
    decide +kernel
  have hwritten : Guarded step Written (initial [.udpRelay] .udpRelay) orderedRun := by
    decide +kernel
  exact ⟨horder, (rtt_matches _ _ orderedRun horder).2 hwritten⟩

/-- `SendInit` twice, with two endpoints. -/
def twoInits : List Event :=
  [.sendInit, .put 0, .put 0, .runSendThread 10, .runSendThread 20, .sendInit, .put 0, .put 0,
    .runSendThread 30, .runSendThread 40, .receiveAcks 2 0xC0000000 fun _ => 50, .getAverageRTT]

/-- Both packets are acknowledged.  The time of the first one is taken to be 30. -/
theorem twoInits_mismatch :
    ¬ Guarded step RttMatches (initial [.udpRelay, .udpRelay] .udpRelay) twoInits := by
  decide +kernel

end TelegramPub.Ports.VoipRoundTrip
