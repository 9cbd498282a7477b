import TelegramPub.Ports.VoipReception

/-!
# VoIPController: acknowledgements

Every packet header acknowledges packets of the other side: `ackId` is the newest
number received, and bit `31 - i` of the mask `acks` says whether `ackId - i` has
been received (`writeAcks_getLsbD`).  The reader keeps `lastRemoteAckSeq` and
`remoteAcks`, which it reads with the numbers one further down: for bit `31 - i` it
takes `ackId - (i + 1)` as acknowledged.  So a packet that got lost counts as
delivered when its successor has been received, and a queued packet that was
sent under its number is not sent again (`lostPacket_acknowledged`).

Two peers exchange packets over a network that keeps every packet ever sent and
delivers any of them at any time, or never.  A packet carries, for the statements
only, what its sender had received when it wrote the header.
-/

namespace TelegramPub.Ports.VoipAcks

open Verified.Machine Verified.SerialWindow Ports.VoipReception

/-! ## Writing the mask -/

/-- The mask after the first `n` rounds of the loop in `WritePacketHeader`. -/
def writeAcksLoop (recvPacketTimes : Window 32) : Nat → BitVec 32
  | 0 => 0
  | i + 1 =>
    let acks := writeAcksLoop recvPacketTimes i
    let acks := if recvPacketTimes.get i then acks ||| 1 else acks
    if i < 31 then acks <<< 1 else acks

/-- The mask of `WritePacketHeader`. -/
def writeAcks (recvPacketTimes : Window 32) : BitVec 32 := writeAcksLoop recvPacketTimes 32

/-- The bit at `b` after a round, before the shift. -/
theorem getLsbD_or_one (acks : BitVec 32) (set : Bool) (b : Nat) (hb : b < 32) :
    (if set then acks ||| 1 else acks).getLsbD b =
      (acks.getLsbD b || (decide (b = 0) && set)) := by
  cases set with
  | true =>
    grind
  | false => simp

/-- As long as the loop shifts, slot `i` is at bit `n - i` after `n` rounds. -/
theorem writeAcksLoop_getLsbD (w : Window 32) (n : Nat) (hn : n ≤ 31) :
    ∀ b, b < 32 → (writeAcksLoop w n).getLsbD b =
      (decide (0 < b) && decide (b ≤ n) && w.get (n - b)) := by
  induction n with
  | zero =>
    grind [writeAcksLoop]
  | succ n ih =>
    intro b hb
    have hlt : n < 31 := by omega
    simp only [writeAcksLoop, if_pos hlt]
    cases b with
    | zero => simp
    | succ b =>
      grind

/-- Bit `31 - i` of the mask is for the slot `i`. -/
theorem writeAcks_getLsbD (w : Window 32) (i : Nat) (hi : i < 32) :
    (writeAcks w).getLsbD (31 - i) = w.get i := by
  unfold writeAcks
  have hlast : ¬(31 : Nat) < 31 := by omega
  simp only [writeAcksLoop.eq_2 w 31, if_neg hlast]
  rw [getLsbD_or_one _ _ _ (by omega), writeAcksLoop_getLsbD w 31 (le_refl _) _ (by omega)]
  by_cases hi31 : i = 31
  · subst hi31
    simp
  · grind

/-- A packet: the numbers of its header, and what its sender had received. -/
structure Packet where
  pseq : Int
  ackId : Int
  acks : BitVec 32
  received : List Int

/-- A `VoIPController`, with the numbers it has received and the packets it has
sent.  Of a queued packet it keeps the numbers it was sent under, the last one
first; the source has 16 slots for them of which it uses 10, and 0 in the others. -/
structure Peer where
  seq : Int := 1
  reception : Reception := {}
  lastRemoteAckSeq : Int := 0
  remoteAcks : Window 32 := Window.clear
  queuedPackets : List (List Int) := []
  received : List Int := []
  sent : List Packet := []

/-- What processing the acknowledgements of a header does: the new `remoteAcks`,
the calls of `PacketAcknowledged`, the queued packets that stay and, of those
that are dropped, the numbers that were found acknowledged. -/
structure Acks where
  remoteAcks : Window 32
  packetAcknowledged : List Int
  queuedPackets : List (List Int)
  dropped : List Int

/-- The loop over the mask: bit `31 - i` is taken for `ackId - (i + 1)`. -/
def readAcks (ackId : Int) (acks : BitVec 32) :
    List Nat → Window 32 × List Int → Window 32 × List Int
  | [], r => r
  | i :: is, (remoteAcks, calls) =>
    if remoteAcks.get (i + 1) = false ∧ acks.getLsbD (31 - i) = true then
      readAcks ackId acks is (remoteAcks.mark (i + 1), calls ++ [ackId - (i + 1)])
    else readAcks ackId acks is (remoteAcks, calls)

/-- The first number of a queued packet that is found acknowledged.  The scan
ends at an empty slot. -/
def ackedSeq (lastRemoteAckSeq : Int) (remoteAcks : Window 32) (seqs : List Int) : Option Int :=
  ((seqs.take 16).takeWhile fun s => wire s ≠ 0).find? fun s =>
    seqgt (wire lastRemoteAckSeq) (wire s) &&
      remoteAcks.get (wire lastRemoteAckSeq - wire s).toNat

/-- `remoteAcks` after `lastRemoteAckSeq` has advanced to `ackId`. -/
def Peer.shiftAcks (p : Peer) (ackId : Int) : Window 32 :=
  let diff := (wire ackId - wire p.lastRemoteAckSeq).toNat
  if diff > 31 then Window.clear else (p.remoteAcks.shift diff).mark 0

/-- Processing the acknowledgements of a header that is newer. -/
def Peer.newAcks (p : Peer) (ackId : Int) (acks : BitVec 32) : Acks :=
  let r := readAcks ackId acks (List.range 31) (p.shiftAcks ackId, [ackId])
  { remoteAcks := r.1
    packetAcknowledged := r.2
    queuedPackets := p.queuedPackets.filter fun q => (ackedSeq ackId r.1 q).isNone
    dropped := p.queuedPackets.filterMap (ackedSeq ackId r.1) }

/-- Processing the acknowledgements of a header. -/
def Peer.processAcks (p : Peer) (ackId : Int) (acks : BitVec 32) : Option Acks :=
  if seqgt (wire ackId) (wire p.lastRemoteAckSeq) then some (p.newAcks ackId acks) else none

/-- A packet arrives. -/
def Peer.deliver (p : Peer) (packet : Packet) : Peer × Option Acks :=
  let (reception, accepted) := p.reception.receive packet.pseq
  if accepted then
    let p := { p with reception, received := packet.pseq :: p.received }
    match p.processAcks packet.ackId packet.acks with
    | none => (p, none)
    | some a =>
      ({ p with
          lastRemoteAckSeq := packet.ackId
          remoteAcks := a.remoteAcks
          queuedPackets := a.queuedPackets }, some a)
  else ({ p with reception }, none)

/-- `WritePacketHeader`. -/
def Peer.writePacketHeader (p : Peer) (pseq : Int) : Packet :=
  { pseq
    ackId := p.reception.lastRemoteSeq
    acks := writeAcks p.reception.recvPacketTimes
    received := p.received }

/-- What a peer does.  A number that has been generated may be sent at any time, and
more than once: `SendInit` sends one to every endpoint. -/
inductive Action where
  | generateOutSeq
  | send (pseq : Int)
  | deliver (packet : Nat)
  | sendPacketReliably
  | resend (queued : Nat)
  | expire (queued : Nat)
  deriving DecidableEq

/-- An action of `p`, whose peer is `other`. -/
def Peer.act (p other : Peer) : Action → Peer
  | .generateOutSeq => { p with seq := p.seq + 1 }
  | .send pseq =>
    if 1 ≤ pseq ∧ pseq < p.seq then { p with sent := p.sent ++ [p.writePacketHeader pseq] }
    else p
  | .deliver packet =>
    match other.sent[packet]? with
    | none => p
    | some packet => (p.deliver packet).1
  | .sendPacketReliably => { p with queuedPackets := p.queuedPackets ++ [[]] }
  | .resend queued =>
    { p with
      seq := p.seq + 1
      queuedPackets := p.queuedPackets.modify queued fun seqs => p.seq :: seqs.take 9 }
  | .expire queued => { p with queuedPackets := p.queuedPackets.eraseIdx queued }

/-- The two peers of a call. -/
abbrev Call := Bool → Peer

def Call.initial : Call := fun _ => {}

def step (c : Call) (e : Bool × Action) : Call :=
  Function.update c e.1 ((c e.1).act (c !e.1) e.2)

/-- The packets that a header makes the reader take as acknowledged: those it calls
`PacketAcknowledged` for, those with a time in `remoteAcks`, and those for which it
drops a queued packet. -/
def Acks.Acknowledges (a : Acks) (ackId s : Int) : Prop :=
  s ∈ a.packetAcknowledged ∨ (∃ i : Nat, s = ackId - i ∧ a.remoteAcks.get i = true) ∨
    s ∈ a.dropped

/-- The sequence numbers that a delivered header acknowledges had been received by
its sender. -/
def SoundAcks (c : Call) (e : Bool × Action) : Prop :=
  match e with
  | (side, .deliver k) =>
    ∀ packet ∈ (c !side).sent[k]?, ∀ a ∈ ((c side).deliver packet).2,
      ∀ s, 1 ≤ s → a.Acknowledges packet.ackId s → s ∈ packet.received
  | _ => True

/-- When a header is written, the predecessor of every number with a time in the
first 31 slots has been received too. -/
def Peer.Gapless (p : Peer) : Prop :=
  ∀ i : Nat, i < 31 → p.reception.recvPacketTimes.get i = true →
    1 ≤ p.reception.lastRemoteSeq - (i + 1) →
    p.reception.lastRemoteSeq - (i + 1) ∈ p.received

/-- The numbers that a packet is compared with are less than `2 ^ 31` away. -/
def Peer.GapsBelow (p : Peer) (packet : Packet) : Prop :=
  Close packet.pseq p.reception.lastRemoteSeq ∧ Close packet.ackId p.lastRemoteAckSeq ∧
    ∀ seqs ∈ p.queuedPackets, ∀ s ∈ seqs, Close packet.ackId s

/-- The condition on a step. -/
def WellTimed (c : Call) (e : Bool × Action) : Prop :=
  match e with
  | (side, .send _) => (c side).Gapless
  | (side, .deliver k) => ∀ packet ∈ (c !side).sent[k]?, (c side).GapsBelow packet
  | _ => True

instance (p : Peer) : Decidable p.Gapless :=
  inferInstanceAs (Decidable (∀ i : Nat, i < 31 → _ → _ → _))

instance (p : Peer) (packet : Packet) : Decidable (p.GapsBelow packet) :=
  inferInstanceAs (Decidable (_ ∧ _ ∧ ∀ seqs ∈ p.queuedPackets, ∀ s ∈ seqs, Close _ _))

instance (c : Call) (e : Bool × Action) : Decidable (WellTimed c e) :=
  match e with
  | (_, .send _) => inferInstanceAs (Decidable (Peer.Gapless _))
  | (side, .deliver k) =>
    inferInstanceAs (Decidable (∀ packet ∈ (c !side).sent[k]?, (c side).GapsBelow packet))
  | (_, .generateOutSeq) => .isTrue trivial
  | (_, .sendPacketReliably) => .isTrue trivial
  | (_, .resend _) => .isTrue trivial
  | (_, .expire _) => .isTrue trivial

/-! ## Processing a header -/

/-- A time in `remoteAcks` was there before the loop or comes from a bit. -/
theorem get_readAcks (ackId : Int) (acks : BitVec 32) (j : Nat) :
    ∀ (is : List Nat) (w : Window 32) (calls : List Int),
      (readAcks ackId acks is (w, calls)).1.get j = true →
        w.get j = true ∨ ∃ i ∈ is, j = i + 1 ∧ acks.getLsbD (31 - i) = true := by
  intro is
  induction is with
  | nil => intro w calls h; exact .inl h
  | cons i is ih =>
    intro w calls h
    rw [readAcks] at h
    split at h
    case isTrue hbit =>
      rcases ih _ _ h with hw | ⟨i', hi', hj⟩
      · rcases (Window.get_mark _ _ _).mp hw with ⟨rfl, _⟩ | hold
        · exact .inr ⟨i, List.mem_cons_self, rfl, hbit.2⟩
        · exact .inl hold
      · exact .inr ⟨i', List.mem_cons_of_mem _ hi', hj⟩
    case isFalse =>
      grind

theorem mem_readAcks (ackId : Int) (acks : BitVec 32) (s : Int) :
    ∀ (is : List Nat) (w : Window 32) (calls : List Int),
      s ∈ (readAcks ackId acks is (w, calls)).2 →
        s ∈ calls ∨ ∃ i ∈ is, s = ackId - (i + 1) ∧ acks.getLsbD (31 - i) = true := by
  intro is
  induction is with
  | nil => intro w calls h; exact .inl h
  | cons i is ih =>
    grind [readAcks]

/-- A time in the shifted `remoteAcks` is for `ackId`, or for the number it was for
before. -/
theorem get_shiftAcks {p : Peer} {ackId : Int} {j : Nat} (hlt : p.lastRemoteAckSeq < ackId)
    (hclose : Close ackId p.lastRemoteAckSeq) (h : (p.shiftAcks ackId).get j = true) :
    j = 0 ∨ ∃ k : Nat, p.remoteAcks.get k = true ∧ ackId - j = p.lastRemoteAckSeq - k := by
  have hdiff := toNat_wire_sub (le_of_lt hlt) (by have := hclose.1; omega)
  unfold Peer.shiftAcks at h
  dsimp only at h
  split at h
  case isTrue => simp at h
  case isFalse =>
    rcases (Window.get_mark _ _ _).mp h with ⟨h0, _⟩ | hshift
    · exact .inl h0
    · obtain ⟨_, hd, hold⟩ := (Window.get_shift _ _ _).mp hshift
      refine .inr ⟨_, hold, ?_⟩
      omega

/-- The number for which a queued packet is dropped is one of its own, and has a
time in `remoteAcks`. -/
theorem ackedSeq_spec {lastRemoteAckSeq s : Int} {remoteAcks : Window 32} {seqs : List Int}
    (hclose : ∀ s ∈ seqs, Close lastRemoteAckSeq s)
    (h : ackedSeq lastRemoteAckSeq remoteAcks seqs = some s) :
    ∃ k : Nat, s = lastRemoteAckSeq - k ∧ remoteAcks.get k = true := by
  unfold ackedSeq at h
  have hfound := List.find?_some h
  have hmem := List.mem_of_find?_eq_some h
  have hseq : s ∈ seqs := List.mem_of_mem_take (List.takeWhile_subset _ hmem)
  simp only [Bool.and_eq_true] at hfound
  obtain ⟨_, hget⟩ := hfound
  have hlt := Window.get_eq_true hget
  have hsub := sub_eq_of_toNat (hclose s hseq) rfl (by omega)
  exact ⟨_, by omega, hget⟩

/-- What a peer has sent says what it had received at the time. -/
structure SentInv (p : Peer) : Prop where
  last_received : p.reception.lastRemoteSeq = 0 ∨ p.reception.lastRemoteSeq ∈ p.received
  ackId_le : ∀ q ∈ p.sent, q.ackId ≤ p.reception.lastRemoteSeq
  received_sub : ∀ q ∈ p.sent, ∀ n ∈ q.received, n ∈ p.received
  ackId_received : ∀ q ∈ p.sent, q.ackId = 0 ∨ q.ackId ∈ q.received
  gapless : ∀ q ∈ p.sent, ∀ i : Nat, i < 31 → q.acks.getLsbD (31 - i) = true →
    1 ≤ q.ackId - (i + 1) → q.ackId - (i + 1) ∈ q.received
  later : ∀ q ∈ p.sent, ∀ r ∈ p.sent, q.ackId < r.ackId → ∀ n ∈ q.received, n ∈ r.received

/-- A time in `remoteAcks` is for a number that `other` had received when it sent the
packet `lastRemoteAckSeq` is from. -/
structure AckInv (p other : Peer) : Prop where
  nonneg : 0 ≤ p.lastRemoteAckSeq
  acked : ∀ j : Nat, p.remoteAcks.get j = true → 1 ≤ p.lastRemoteAckSeq - j →
    ∃ q ∈ other.sent, q.ackId = p.lastRemoteAckSeq ∧ p.lastRemoteAckSeq - j ∈ q.received

/-- The invariant of a call. -/
def Inv (c : Call) : Prop := ∀ side, SentInv (c side) ∧ AckInv (c side) (c !side)

theorem inv_initial : Inv Call.initial := by
  intro side
  constructor
  · constructor <;> simp [Call.initial]
  · constructor <;> simp [Call.initial]

/-- The acknowledgements of a header are sound. -/
theorem processAcks_sound {p other : Peer} {packet : Packet} {a : Acks}
    (hother : SentInv other) (hinv : AckInv p other) (hmem : packet ∈ other.sent)
    (hclose : Close packet.ackId p.lastRemoteAckSeq)
    (hqueue : ∀ seqs ∈ p.queuedPackets, ∀ s ∈ seqs, Close packet.ackId s)
    (h : p.processAcks packet.ackId packet.acks = some a) :
    p.lastRemoteAckSeq < packet.ackId ∧
      ∀ s, 1 ≤ s → a.Acknowledges packet.ackId s → s ∈ packet.received := by
  unfold Peer.processAcks at h
  rw [seqgt_eq_ahead, ahead_wire hclose] at h
  by_cases hlt : p.lastRemoteAckSeq < packet.ackId
  · rw [if_pos (decide_eq_true hlt)] at h
    obtain rfl := Option.some.inj h
    refine ⟨hlt, ?_⟩
    have hnonneg := hinv.nonneg
    have hack : packet.ackId ∈ packet.received := by
      rcases hother.ackId_received packet hmem with h0 | hrec
      · omega
      · exact hrec
    have hbit : ∀ i ∈ List.range 31, packet.acks.getLsbD (31 - i) = true →
        1 ≤ packet.ackId - (i + 1) → packet.ackId - (i + 1) ∈ packet.received := by
      intro i hi
      exact hother.gapless packet hmem i (List.mem_range.mp hi)
    have hslot : ∀ j : Nat, (p.newAcks packet.ackId packet.acks).remoteAcks.get j = true →
        1 ≤ packet.ackId - j → packet.ackId - j ∈ packet.received := by
      intro j hj hpos
      unfold Peer.newAcks at hj
      rcases get_readAcks _ _ _ _ _ _ hj with hshift | ⟨i, hi, rfl, hset⟩
      · rcases get_shiftAcks hlt hclose hshift with rfl | ⟨k, hk, heq⟩
        · simpa using hack
        · obtain ⟨q, hq, hqa, hrec⟩ := hinv.acked k hk (by omega)
          rw [heq]
          exact hother.later q hq packet hmem (by omega) _ hrec
      · push_cast at hpos ⊢
        exact hbit i hi hset hpos
    intro s hs hack'
    rcases hack' with hcall | ⟨j, rfl, hj⟩ | hdrop
    · unfold Peer.newAcks at hcall
      rcases mem_readAcks _ _ _ _ _ _ hcall with hold | ⟨i, hi, rfl, hset⟩
      · rw [List.mem_singleton.mp hold]
        exact hack
      · exact hbit i hi hset hs
    · exact hslot j hj hs
    · obtain ⟨seqs, hseqs, hacked⟩ := List.mem_filterMap.mp hdrop
      obtain ⟨k, rfl, hk⟩ := ackedSeq_spec (hqueue seqs hseqs) hacked
      exact hslot k hk hs
  · rw [if_neg (by simp [hlt])] at h
    cases h

/-- The newest number stays, or becomes that of an accepted packet. -/
theorem receive_lastRemoteSeq {r : Reception} {pseq : Int} (h : Close pseq r.lastRemoteSeq) :
    r.lastRemoteSeq ≤ (r.receive pseq).1.lastRemoteSeq ∧
      ((r.receive pseq).1.lastRemoteSeq = r.lastRemoteSeq ∨
        ((r.receive pseq).1.lastRemoteSeq = pseq ∧ (r.receive pseq).2 = true)) := by
  rcases receive_cases h with ⟨hjump, heq⟩ | ⟨d, hd, _, hdiff, heq⟩ |
    ⟨_, _, _, _, heq⟩ | ⟨_, _, _, _, heq⟩ | ⟨_, heq⟩
  · rw [heq]
    exact ⟨by show r.lastRemoteSeq ≤ pseq; omega, .inr ⟨rfl, rfl⟩⟩
  · rw [heq]
    exact ⟨by show r.lastRemoteSeq ≤ pseq; omega, .inr ⟨rfl, rfl⟩⟩
  · rw [heq]
    exact ⟨le_refl _, .inl rfl⟩
  · rw [heq]
    exact ⟨le_refl _, .inl rfl⟩
  · rw [heq]
    exact ⟨le_refl _, .inl rfl⟩

/-- A packet is dropped, or taken without or with its acknowledgements. -/
theorem deliver_cases (p : Peer) (packet : Packet) :
    ((p.reception.receive packet.pseq).2 = false ∧
      p.deliver packet = ({ p with reception := (p.reception.receive packet.pseq).1 }, none)) ∨
    ((p.reception.receive packet.pseq).2 = true ∧
      p.deliver packet = ({ p with
        reception := (p.reception.receive packet.pseq).1
        received := packet.pseq :: p.received }, none)) ∨
    (∃ a, (p.reception.receive packet.pseq).2 = true ∧
      p.processAcks packet.ackId packet.acks = some a ∧
      p.deliver packet = ({ p with
        reception := (p.reception.receive packet.pseq).1
        received := packet.pseq :: p.received
        lastRemoteAckSeq := packet.ackId
        remoteAcks := a.remoteAcks
        queuedPackets := a.queuedPackets }, some a)) := by
  have hacks : ∀ p' : Peer, p' = { p with
      reception := (p.reception.receive packet.pseq).1
      received := packet.pseq :: p.received } →
      p'.processAcks packet.ackId packet.acks = p.processAcks packet.ackId packet.acks := by
    rintro p' rfl
    rfl
  unfold Peer.deliver
  cases hrec : (p.reception.receive packet.pseq).2 with
  | false => exact .inl ⟨rfl, by simp [hrec]⟩
  | true =>
    grind

theorem sentInv_mono {p p' : Peer} (h : SentInv p) (hsent : p'.sent = p.sent)
    (hsub : ∀ n ∈ p.received, n ∈ p'.received)
    (hle : p.reception.lastRemoteSeq ≤ p'.reception.lastRemoteSeq)
    (hlast : p'.reception.lastRemoteSeq = p.reception.lastRemoteSeq ∨
      p'.reception.lastRemoteSeq ∈ p'.received) : SentInv p' where
  last_received := by
    rcases hlast with heq | hmem
    · rw [heq]
      exact h.last_received.imp_right (hsub _)
    · exact .inr hmem
  ackId_le := by
    intro q hq
    rw [hsent] at hq
    exact le_trans (h.ackId_le q hq) hle
  received_sub := by
    intro q hq n hn
    rw [hsent] at hq
    exact hsub n (h.received_sub q hq n hn)
  ackId_received := by
    rw [hsent]
    exact h.ackId_received
  gapless := by
    rw [hsent]
    exact h.gapless
  later := by
    rw [hsent]
    exact h.later

theorem sentInv_deliver {p : Peer} {packet : Packet} (h : SentInv p)
    (hclose : Close packet.pseq p.reception.lastRemoteSeq) :
    SentInv (p.deliver packet).1 := by
  obtain ⟨hle, hlast⟩ := receive_lastRemoteSeq hclose
  have hlast' : (p.reception.receive packet.pseq).1.lastRemoteSeq = p.reception.lastRemoteSeq ∨
      (p.reception.receive packet.pseq).1.lastRemoteSeq ∈ packet.pseq :: p.received := by
    rcases hlast with heq | ⟨heq, _⟩
    · exact .inl heq
    · exact .inr (by rw [heq]; exact .head _)
  have hcons : ∀ n ∈ p.received, n ∈ packet.pseq :: p.received :=
    fun n hn => .tail _ hn
  rcases deliver_cases p packet with ⟨hdrop, heq⟩ | ⟨_, heq⟩ | ⟨a, _, _, heq⟩
  · grind [sentInv_mono]
  · rw [heq]
    exact sentInv_mono h rfl hcons hle hlast'
  · rw [heq]
    exact sentInv_mono h rfl hcons hle hlast'

/-- The header written now is the last word on what has been received. -/
theorem sentInv_send {p : Peer} {pseq : Int} (h : SentInv p) (hg : p.Gapless) :
    SentInv { p with sent := p.sent ++ [p.writePacketHeader pseq] } where
  last_received := h.last_received
  ackId_le := by
    intro q hq
    rcases List.mem_append.mp hq with hold | hnew
    · exact h.ackId_le q hold
    · rw [List.mem_singleton.mp hnew]
      exact le_refl _
  received_sub := by
    intro q hq n hn
    rcases List.mem_append.mp hq with hold | hnew
    · exact h.received_sub q hold n hn
    · rw [List.mem_singleton.mp hnew] at hn
      exact hn
  ackId_received := by
    intro q hq
    rcases List.mem_append.mp hq with hold | hnew
    · exact h.ackId_received q hold
    · rw [List.mem_singleton.mp hnew]
      exact h.last_received
  gapless := by
    intro q hq i hi hbit hpos
    rcases List.mem_append.mp hq with hold | hnew
    · exact h.gapless q hold i hi hbit hpos
    · rw [List.mem_singleton.mp hnew] at hbit hpos ⊢
      unfold Peer.writePacketHeader at hbit hpos ⊢
      rw [writeAcks_getLsbD _ i (by omega)] at hbit
      exact hg i hi hbit hpos
  later := by
    intro q hq r hr hlt n hn
    rcases List.mem_append.mp hr with hrold | hrnew
    · rcases List.mem_append.mp hq with hqold | hqnew
      · exact h.later q hqold r hrold hlt n hn
      · rw [List.mem_singleton.mp hqnew] at hlt
        exact absurd (h.ackId_le r hrold) (not_le.mpr hlt)
    · rw [List.mem_singleton.mp hrnew]
      rcases List.mem_append.mp hq with hqold | hqnew
      · exact h.received_sub q hqold n hn
      · rw [List.mem_singleton.mp hqnew] at hn
        exact hn

theorem sentInv_act {p other : Peer} {a : Action} (h : SentInv p)
    (hsend : ∀ pseq, a = .send pseq → p.Gapless)
    (hdeliver : ∀ k, a = .deliver k → ∀ packet, other.sent[k]? = some packet →
      p.GapsBelow packet) : SentInv (p.act other a) := by
  cases a with
  | generateOutSeq => exact sentInv_mono h rfl (fun n hn => hn) (le_refl _) (.inl rfl)
  | send pseq =>
    grind [Peer.act, sentInv_send]
  | deliver k =>
    unfold Peer.act
    dsimp only
    split
    case h_1 => exact h
    case h_2 packet hk => exact sentInv_deliver h (hdeliver k rfl packet hk).1
  | sendPacketReliably => exact sentInv_mono h rfl (fun n hn => hn) (le_refl _) (.inl rfl)
  | resend k => exact sentInv_mono h rfl (fun n hn => hn) (le_refl _) (.inl rfl)
  | expire k => exact sentInv_mono h rfl (fun n hn => hn) (le_refl _) (.inl rfl)

theorem ackInv_act {p other : Peer} {a : Action} (hother : SentInv other) (h : AckInv p other)
    (hdeliver : ∀ k, a = .deliver k → ∀ packet, other.sent[k]? = some packet →
      p.GapsBelow packet) : AckInv (p.act other a) other := by
  cases a with
  | generateOutSeq => exact ⟨h.nonneg, h.acked⟩
  | send pseq =>
    unfold Peer.act
    dsimp only
    split
    case isTrue => exact ⟨h.nonneg, h.acked⟩
    case isFalse => exact h
  | deliver k =>
    unfold Peer.act
    dsimp only
    split
    case h_1 => exact h
    case h_2 packet hk =>
      have hmem := List.mem_of_getElem? hk
      obtain ⟨_, hclose, hqueue⟩ := hdeliver k rfl packet hk
      rcases deliver_cases p packet with ⟨_, heq⟩ | ⟨_, heq⟩ | ⟨a, _, hacks, heq⟩
      · rw [heq]
        exact ⟨h.nonneg, h.acked⟩
      · rw [heq]
        exact ⟨h.nonneg, h.acked⟩
      · rw [heq]
        obtain ⟨hlt, hsound⟩ := processAcks_sound hother h hmem hclose hqueue hacks
        have hnonneg := h.nonneg
        refine ⟨?_, ?_⟩
        · show 0 ≤ packet.ackId
          omega
        · intro j hj hpos
          exact ⟨packet, hmem, rfl, hsound _ hpos (.inr (.inl ⟨j, rfl, hj⟩))⟩
  | sendPacketReliably => exact ⟨h.nonneg, h.acked⟩
  | resend k => exact ⟨h.nonneg, h.acked⟩
  | expire k => exact ⟨h.nonneg, h.acked⟩

theorem sent_act (p other : Peer) (a : Action) : ∀ q ∈ p.sent, q ∈ (p.act other a).sent := by
  intro q hq
  cases a with
  | send pseq =>
    grind [Peer.act]
  | deliver k =>
    unfold Peer.act
    dsimp only
    split
    case h_1 => exact hq
    case h_2 packet _ =>
      rcases deliver_cases p packet with ⟨_, heq⟩ | ⟨_, heq⟩ | ⟨a, _, _, heq⟩ <;>
        · rw [heq]
          exact hq
  | generateOutSeq => exact hq
  | sendPacketReliably => exact hq
  | resend k => exact hq
  | expire k => exact hq

theorem inv_step {c : Call} {e : Bool × Action} (hinv : Inv c) (hg : WellTimed c e) :
    Inv (step c e) := by
  obtain ⟨side, a⟩ := e
  have hsend : ∀ pseq, a = .send pseq → (c side).Gapless := by
    rintro pseq rfl
    exact hg
  have hdeliver : ∀ k, a = .deliver k → ∀ packet, (c !side).sent[k]? = some packet →
      (c side).GapsBelow packet := by
    rintro k rfl
    exact hg
  have hne : (!side) ≠ side := by cases side <;> decide
  intro s
  by_cases hs : s = side
  · subst hs
    have hother : step c (s, a) (!s) = c !s := Function.update_of_ne hne _ _
    have hself : step c (s, a) s = (c s).act (c !s) a := Function.update_self _ _ _
    rw [hother, hself]
    exact ⟨sentInv_act (hinv s).1 hsend hdeliver,
      ackInv_act (hinv !s).1 (hinv s).2 hdeliver⟩
  · have hside : side = !s := by cases s <;> cases side <;> simp_all
    subst hside
    have hself : step c (!s, a) (!s) = (c !s).act (c s) a := by
      show Function.update c (!s) ((c !s).act (c !!s) a) (!s) = _
      rw [Function.update_self, Bool.not_not]
    have hother : step c (!s, a) s = c s := Function.update_of_ne hs _ _
    rw [hother, hself]
    refine ⟨(hinv s).1, (hinv s).2.nonneg, ?_⟩
    intro j hj hpos
    obtain ⟨q, hq, hqa, hrec⟩ := (hinv s).2.acked j hj hpos
    exact ⟨q, sent_act _ _ _ q hq, hqa, hrec⟩

theorem soundAcks_step {c : Call} {e : Bool × Action} (hinv : Inv c) (hg : WellTimed c e) :
    SoundAcks c e := by
  obtain ⟨side, a⟩ := e
  cases a with
  | deliver k =>
    intro packet hk acks hacks
    obtain ⟨_, hclose, hqueue⟩ := hg packet hk
    have hmem := List.mem_of_getElem? hk
    rcases deliver_cases (c side) packet with ⟨_, heq⟩ | ⟨_, heq⟩ | ⟨a, _, hproc, heq⟩
    · rw [heq] at hacks
      cases hacks
    · rw [heq] at hacks
      cases hacks
    · rw [heq] at hacks
      obtain rfl := Option.some.inj hacks
      exact (processAcks_sound (hinv !side).1 (hinv side).2 hmem hclose hqueue hproc).2
  | generateOutSeq => trivial
  | send pseq => trivial
  | sendPacketReliably => trivial
  | resend k => trivial
  | expire k => trivial

/-- In a run whose steps all meet the condition, every acknowledgement is sound. -/
theorem acks_sound (es : List (Bool × Action)) (h : Guarded step WellTimed Call.initial es) :
    Guarded step SoundAcks Call.initial es :=
  guarded_mono (fun s _ (hinv : Inv s) hg => ⟨soundAcks_step hinv hg, inv_step hinv hg⟩)
    es Call.initial inv_initial h

/-- A packet and a reliable packet are sent, received out of order and
acknowledged. -/
def deliveredRun : List (Bool × Action) :=
  [(true, .sendPacketReliably), (true, .resend 0), (true, .generateOutSeq), (true, .send 1),
   (true, .send 2), (false, .deliver 1), (false, .deliver 0), (false, .generateOutSeq),
   (false, .send 1), (true, .deliver 0)]

/-- Nothing stays queued in the end. -/
theorem deliveredRun_sound :
    Guarded step SoundAcks Call.initial deliveredRun ∧
      (run step Call.initial deliveredRun true).queuedPackets = [] := by
  refine ⟨acks_sound deliveredRun ?_, by decide +kernel⟩
  unfold deliveredRun
  simp only [Guarded]
  decide +kernel

/-- The reliable packet was sent as packet 1 and got lost, and packet 2 is received
and acknowledged. -/
def lostRun : List (Bool × Action) :=
  [(true, .sendPacketReliably), (true, .resend 0), (true, .generateOutSeq), (true, .send 1),
   (true, .send 2), (false, .deliver 1), (false, .generateOutSeq), (false, .send 1)]

/-- Packet 1 has not been received and counts as acknowledged, and the queued packet
is dropped. -/
theorem lostPacket_acknowledged :
    (run step Call.initial lostRun false).received = [2] ∧
      (run step Call.initial (lostRun ++ [(true, .deliver 0)]) true).queuedPackets = [] ∧
      ¬ Guarded step SoundAcks Call.initial (lostRun ++ [(true, .deliver 0)]) := by
  refine ⟨by decide +kernel, by decide +kernel, ?_⟩
  intro h
  have hlast := ((guarded_append step SoundAcks lostRun [(true, .deliver 0)] Call.initial).mp h).2.1
  have hpacket : ((run step Call.initial lostRun false).sent[0]?).map
      (fun q => (q.ackId, q.received, ((run step Call.initial lostRun true).deliver q).2.map
        (·.packetAcknowledged))) = some (2, [2], some [2, 1]) := by
    decide +kernel
  obtain ⟨q, hq, hfields⟩ := Option.map_eq_some_iff.mp hpacket
  simp only [Prod.mk.injEq] at hfields
  obtain ⟨_, hrec, hacks⟩ := hfields
  obtain ⟨a, ha, hcalls⟩ := Option.map_eq_some_iff.mp hacks
  have hmem := hlast q hq a ha 1 (by decide) (.inl (by rw [hcalls]; decide))
  rw [hrec] at hmem
  exact absurd hmem (by decide)

end TelegramPub.Ports.VoipAcks
