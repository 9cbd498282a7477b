import TelegramPub.Ports.VoipReception
import Mathlib.Algebra.BigOperators.Group.Multiset.Basic
import Mathlib.Algebra.Order.BigOperators.Group.Multiset
import Mathlib.Tactic.Abel

/-!
# CongestionControl

The packets that are in flight have a place in a table of 100 slots; a slot is free when its
`sendTime` is zero.  A packet leaves the table when it is acknowledged, when it is two
seconds old, or when a new packet takes its slot.

`Ledger` counts what the code does not keep, the packets that were accepted, acknowledged
and lost.  `Balanced` says that the accepted packets are these and those in flight, and that
`inflightDataSize` and `lossCount` are what they should be, as numbers of 64 and 32 bits.

The clock is positive.  It need not be monotone.
-/

namespace TelegramPub.Ports.VoipCongestion

open Verified.Machine
open Ports.VoipReception (seqgt)

/-- A reading of the clock. -/
abbrev Clock := { t : Rat // 0 < t }

/-- `tgvoip_congestionctl_packet_t`. -/
structure Packet where
  seq : BitVec 32 := 0
  sendTime : Rat := 0
  size : UInt64 := 0
  deriving DecidableEq

structure CongestionControl where
  inflightPackets : List Packet := List.replicate 100 {}
  rttHistory : List Rat := List.replicate 100 0
  rttHistorySize : Nat := 0
  rttHistoryTop : Nat := 0
  inflightHistory : List UInt64 := List.replicate 30 0
  inflightHistoryTop : Nat := 0
  tmpRtt : Rat := 0
  tmpRttCount : Nat := 0
  lastSentSeq : BitVec 32 := 0
  inflightDataSize : UInt64 := 0
  lossCount : UInt32 := 0

/-- The packets in flight. -/
def Packet.isInflight (p : Packet) : Bool := decide (0 < p.sendTime)

/-- A slot that is freed. -/
def Packet.free (p : Packet) : Packet := { p with sendTime := 0 }

/-- The loop of `PacketAcknowledged`. -/
def acknowledgedSlot (slots : List Packet) (seq : BitVec 32) : Option Nat :=
  slots.findIdx? fun p => p.seq == seq && p.isInflight

/-- `PacketAcknowledged`. -/
def packetAcknowledged (c : CongestionControl) (seq : BitVec 32) (now : Clock) :
    CongestionControl :=
  match acknowledgedSlot c.inflightPackets seq with
  | none => c
  | some i =>
    let p := c.inflightPackets.getD i {}
    { c with
      tmpRtt := c.tmpRtt + (now.1 - p.sendTime)
      tmpRttCount := c.tmpRttCount + 1
      inflightPackets := c.inflightPackets.set i p.free
      inflightDataSize := c.inflightDataSize - p.size }

/-- The loop of `PacketSent`: a free slot, or the one with the smallest time so far.  The
time is `none` for infinity. -/
def findSlot : List Packet → Nat → Option Rat → Option Nat → Option Nat
  | [], _, _, slot => slot
  | p :: ps, i, smallestSendTime, slot =>
    if p.sendTime = 0 then some i
    else if smallestSendTime.all (p.sendTime < ·) then
      findSlot ps (i + 1) (some p.sendTime) (some i)
    else findSlot ps (i + 1) smallestSendTime slot

/-- Whether `PacketSent` accepts a number. -/
def accepts (c : CongestionControl) (seq : BitVec 32) : Bool :=
  seqgt seq c.lastSentSeq && seq != c.lastSentSeq

/-- The slot of an accepted packet.  Without a slot the assertion fails. -/
def takeSlot (c : CongestionControl) (seq : BitVec 32) (size : UInt64) (now : Clock) :
    Option CongestionControl :=
  (findSlot c.inflightPackets 0 none none).map fun i =>
    let slot := c.inflightPackets.getD i {}
    let c :=
      if slot.isInflight then
        { c with inflightDataSize := c.inflightDataSize - slot.size, lossCount := c.lossCount + 1 }
      else c
    { c with
      inflightPackets := c.inflightPackets.set i { seq, sendTime := now.1, size }
      inflightDataSize := c.inflightDataSize + size }

/-- `PacketSent`. -/
def packetSent (c : CongestionControl) (seq : BitVec 32) (size : UInt64) (now : Clock) :
    Option CongestionControl :=
  if accepts c seq then takeSlot { c with lastSentSeq := seq } seq size now else some c

/-- Whether a packet is timed out. -/
def Packet.isTimedOut (p : Packet) (now : Clock) : Bool :=
  decide (p.sendTime ≠ 0) && decide (2 < now.1 - p.sendTime)

/-- The loop of `Tick`, which reads the clock for every slot. -/
def tickLoop (now : Nat → Clock) :
    Nat → List Packet → UInt64 → UInt32 → List Packet × UInt64 × UInt32
  | _, [], inflightDataSize, lossCount => ([], inflightDataSize, lossCount)
  | i, p :: ps, inflightDataSize, lossCount =>
    if p.isTimedOut (now i) then
      let rest := tickLoop now (i + 1) ps (inflightDataSize - p.size) (lossCount + 1)
      (p.free :: rest.1, rest.2)
    else
      let rest := tickLoop now (i + 1) ps inflightDataSize lossCount
      (p :: rest.1, rest.2)

/-- The round-trip times of `Tick`. -/
def tickRtt (c : CongestionControl) : CongestionControl :=
  if 0 < c.tmpRttCount then
    { c with
      rttHistory := c.rttHistory.set c.rttHistoryTop (c.tmpRtt / c.tmpRttCount)
      rttHistoryTop := (c.rttHistoryTop + 1) % 100
      rttHistorySize := if c.rttHistorySize < 100 then c.rttHistorySize + 1 else c.rttHistorySize
      tmpRtt := 0
      tmpRttCount := 0 }
  else c

/-- `Tick`.  Every slot has a reading of its own, so that a run has any of its slots time
out, as the comparison of doubles may. -/
def tick (c : CongestionControl) (now : Nat → Clock) : CongestionControl :=
  let c := tickRtt c
  let (inflightPackets, inflightDataSize, lossCount) :=
    tickLoop now 0 c.inflightPackets c.inflightDataSize c.lossCount
  { c with
    inflightPackets, inflightDataSize, lossCount
    inflightHistory := c.inflightHistory.set c.inflightHistoryTop inflightDataSize
    inflightHistoryTop := (c.inflightHistoryTop + 1) % 30 }

inductive Event where
  | packetSent (seq : BitVec 32) (size : UInt64) (now : Clock)
  | packetAcknowledged (seq : BitVec 32) (now : Clock)
  | tick (now : Nat → Clock)

/-- What became of the packets. -/
structure Ledger where
  accepted : Multiset Packet := 0
  acknowledged : Multiset Packet := 0
  lost : Multiset Packet := 0

/-- The packets in flight. -/
def inflight (slots : List Packet) : Multiset Packet :=
  (slots : Multiset Packet).filter (·.isInflight)

/-- The sizes of some packets. -/
def totalSize (ps : Multiset Packet) : Nat := (ps.map (·.size.toNat)).sum

/-- The packets that a tick finds timed out, from a slot on. -/
def timedOut (now : Nat → Clock) : Nat → List Packet → Multiset Packet
  | _, [] => 0
  | i, p :: ps => (if p.isTimedOut (now i) then {p} else 0) + timedOut now (i + 1) ps

/-- The table and the ledger; `none` after a failed assertion. -/
structure Book where
  control : CongestionControl := {}
  ledger : Ledger := {}

/-- The packet whose slot a new one takes. -/
def evicted (c : CongestionControl) : Multiset Packet :=
  match findSlot c.inflightPackets 0 none none with
  | none => 0
  | some i => inflight [c.inflightPackets.getD i {}]

/-- What is written into the ledger. -/
def Ledger.after (l : Ledger) (c : CongestionControl) : Event → Ledger
  | .packetSent seq size now =>
    if accepts c seq then
      { l with
        accepted := { seq, sendTime := now.1, size } ::ₘ l.accepted
        lost := evicted c + l.lost }
    else l
  | .packetAcknowledged seq _ =>
    match acknowledgedSlot c.inflightPackets seq with
    | none => l
    | some i => { l with acknowledged := c.inflightPackets.getD i {} ::ₘ l.acknowledged }
  | .tick now => { l with lost := timedOut now 0 c.inflightPackets + l.lost }

def step (b : Option Book) (event : Event) : Option Book :=
  b.bind fun b =>
    let control :=
      match event with
      | .packetSent seq size now => packetSent b.control seq size now
      | .packetAcknowledged seq now => some (packetAcknowledged b.control seq now)
      | .tick now => some (tick b.control now)
    control.map fun control => { control, ledger := b.ledger.after b.control event }

/-- The sum of the sizes in flight. -/
def inflightSize (c : CongestionControl) : Nat := totalSize (inflight c.inflightPackets)

/-- Each accepted packet is acknowledged, lost or in flight. -/
structure Balanced (b : Book) : Prop where
  packets : b.ledger.accepted =
    b.ledger.acknowledged + b.ledger.lost + inflight b.control.inflightPackets
  dataSize : b.control.inflightDataSize.toNat = inflightSize b.control % 2 ^ 64
  losses : b.control.lossCount.toNat = b.ledger.lost.card % 2 ^ 32
  length : b.control.inflightPackets.length = 100
  times : ∀ p ∈ b.control.inflightPackets, 0 ≤ p.sendTime

theorem inflight_cons (p : Packet) (ps : List Packet) :
    inflight (p :: ps) = inflight [p] + inflight ps := by
  unfold inflight
  rw [← Multiset.filter_add]
  rfl

@[simp] theorem inflight_nil : inflight [] = 0 := rfl

variable {p : Packet}

theorem inflight_of_inflight (h : p.isInflight = true) : inflight [p] = {p} := by
  unfold inflight
  exact Multiset.filter_eq_self.2 fun q hq => by rw [Multiset.mem_singleton.1 hq]; exact h

theorem inflight_of_free (h : p.isInflight = false) : inflight [p] = 0 := by
  unfold inflight
  refine Multiset.filter_eq_nil.2 fun q hq hinflight => ?_
  rw [Multiset.mem_singleton.1 hq, h] at hinflight
  cases hinflight

@[simp] theorem isInflight_free (p : Packet) : p.free.isInflight = false := rfl

/-- What a slot held is replaced by what it holds now. -/
theorem inflight_set (slots : List Packet) (p : Packet) :
    ∀ i, i < slots.length →
      inflight (slots.set i p) + inflight [slots.getD i {}] = inflight slots + inflight [p] := by
  induction slots with
  | nil => intro i hi; cases hi
  | cons q slots ih =>
    intro i hi
    cases i with
    | zero =>
      show inflight (p :: slots) + inflight [q] = inflight (q :: slots) + inflight [p]
      rw [inflight_cons p slots, inflight_cons q slots]
      abel
    | succ i =>
      grind [inflight, inflight_cons]

theorem findSlot_spec (slots : List Packet) :
    ∀ i smallestSendTime slot, (∀ j, slot = some j → j < i) →
      (smallestSendTime.isSome = true → slot.isSome = true) →
      (slots ≠ [] ∨ slot.isSome = true) →
      ∃ j, findSlot slots i smallestSendTime slot = some j ∧ j < i + slots.length := by
  induction slots with
  | nil =>
    intro i smallestSendTime slot hslot _ hsome
    obtain ⟨j, hj⟩ := Option.isSome_iff_exists.1 (hsome.resolve_left fun hne => hne rfl)
    exact ⟨j, hj, hslot j hj⟩
  | cons p slots ih =>
    intro i smallestSendTime slot hslot hsmallest _
    rw [findSlot, List.length_cons]
    split
    · exact ⟨i, rfl, by omega⟩
    · split
      · obtain ⟨j, hj, hlt⟩ := ih (i + 1) (some p.sendTime) (some i)
          (fun j hj => by cases hj; omega) (fun _ => rfl) (.inr rfl)
        exact ⟨j, hj, by omega⟩
      · rename_i hnot
        have hsome : smallestSendTime.isSome = true := by
          cases smallestSendTime with
          | none => exact absurd rfl hnot
          | some t => rfl
        obtain ⟨j, hj, hlt⟩ := ih (i + 1) smallestSendTime slot
          (fun j hj => Nat.lt_succ_of_lt (hslot j hj)) hsmallest (.inr (hsmallest hsome))
        exact ⟨j, hj, by omega⟩

theorem totalSize_add (ps qs : Multiset Packet) :
    totalSize (ps + qs) = totalSize ps + totalSize qs := by
  unfold totalSize
  rw [Multiset.map_add, Multiset.sum_add]

@[simp] theorem totalSize_singleton (p : Packet) : totalSize {p} = p.size.toNat := by
  simp [totalSize]

theorem Packet.isTimedOut_inflight (htime : 0 ≤ p.sendTime) {now : Clock}
    (h : p.isTimedOut now = true) : p.isInflight = true := by
  unfold Packet.isTimedOut at h
  rw [Bool.and_eq_true, decide_eq_true_eq, decide_eq_true_eq] at h
  exact decide_eq_true (lt_of_le_of_ne htime (Ne.symm h.1))

theorem tickLoop_spec (now : Nat → Clock) (slots : List Packet) :
    ∀ i inflightDataSize lossCount, (∀ p ∈ slots, 0 ≤ p.sendTime) →
      let r := tickLoop now i slots inflightDataSize lossCount
      inflight slots = timedOut now i slots + inflight r.1 ∧
        (r.2.1.toNat + totalSize (timedOut now i slots)) % 2 ^ 64 = inflightDataSize.toNat ∧
        r.2.2.toNat = (lossCount.toNat + (timedOut now i slots).card) % 2 ^ 32 ∧
        r.1.length = slots.length ∧ ∀ p ∈ r.1, 0 ≤ p.sendTime := by
  induction slots with
  | nil =>
    intro i inflightDataSize lossCount _
    have hlt := inflightDataSize.toNat_lt
    have hloss := lossCount.toNat_lt
    refine ⟨rfl, ?_, ?_, rfl, fun _ hp => by cases hp⟩
    · exact Nat.mod_eq_of_lt hlt
    · exact (Nat.mod_eq_of_lt hloss).symm
  | cons p slots ih =>
    intro i inflightDataSize lossCount htimes
    have htime := htimes p (.head _)
    have hrest := fun q hq => htimes q (.tail p hq)
    rw [tickLoop, timedOut, inflight_cons]
    split
    · rename_i hout
      obtain ⟨hpackets, hsize, hloss, hlength, hkept⟩ :=
        ih (i + 1) (inflightDataSize - p.size) (lossCount + 1) hrest
      dsimp only
      rw [inflight_of_inflight (p.isTimedOut_inflight htime hout), hpackets, inflight_cons p.free,
        inflight_of_free (isInflight_free p), totalSize_add, totalSize_singleton,
        Multiset.card_add, Multiset.card_singleton]
      rw [UInt64.toNat_sub] at hsize
      rw [UInt32.toNat_add] at hloss
      have hlt := inflightDataSize.toNat_lt
      have hp := p.size.toNat_lt
      refine ⟨by abel, by omega, ?_, congrArg Nat.succ hlength, ?_⟩
      · grind
      · intro q hq
        rcases List.mem_cons.1 hq with rfl | hq
        · exact le_refl 0
        · exact hkept q hq
    · grind [inflight_cons, tickLoop]

theorem times_set {slots : List Packet} (h : ∀ p ∈ slots, 0 ≤ p.sendTime) (i : Nat)
    (hp : 0 ≤ p.sendTime) : ∀ q ∈ slots.set i p, 0 ≤ q.sendTime := by
  intro q hq
  rcases List.mem_or_eq_of_mem_set hq with hq | rfl
  · exact h q hq
  · exact hp

theorem acknowledgedSlot_spec {slots : List Packet} {seq : BitVec 32} {i : Nat}
    (h : acknowledgedSlot slots seq = some i) :
    i < slots.length ∧ (slots.getD i {}).isInflight = true := by
  unfold acknowledgedSlot at h
  obtain ⟨hlt, hfound, _⟩ := List.findIdx?_eq_some_iff_getElem.1 h
  rw [Bool.and_eq_true] at hfound
  refine ⟨hlt, ?_⟩
  rw [List.getD_eq_getElem?_getD, List.getElem?_eq_getElem hlt]
  exact hfound.2

theorem acknowledged_balanced {b : Book} (h : Balanced b) (seq : BitVec 32) (now : Clock) :
    Balanced { control := packetAcknowledged b.control seq now
               ledger := b.ledger.after b.control (.packetAcknowledged seq now) } := by
  unfold packetAcknowledged Ledger.after
  dsimp only
  cases hslot : acknowledgedSlot b.control.inflightPackets seq with
  | none => exact h
  | some i =>
    obtain ⟨hlt, hinflight⟩ := acknowledgedSlot_spec hslot
    have hset := inflight_set b.control.inflightPackets
      (b.control.inflightPackets.getD i {}).free i hlt
    rw [inflight_of_free (isInflight_free _), inflight_of_inflight hinflight, add_zero] at hset
    have hsize : inflightSize b.control =
        totalSize (inflight (b.control.inflightPackets.set i
          (b.control.inflightPackets.getD i {}).free)) +
            (b.control.inflightPackets.getD i {}).size.toNat := by
      unfold inflightSize
      rw [← hset, totalSize_add, totalSize_singleton]
    have hpackets := h.packets
    have hdata := h.dataSize
    have hp := (b.control.inflightPackets.getD i {}).size.toNat_lt
    refine ⟨?_, ?_, h.losses, ?_, times_set h.times i (le_refl 0)⟩
    · dsimp only
      rw [hpackets, ← hset, ← Multiset.singleton_add]
      abel
    · show (b.control.inflightDataSize - (b.control.inflightPackets.getD i {}).size).toNat =
        totalSize (inflight (b.control.inflightPackets.set i
          (b.control.inflightPackets.getD i {}).free)) % 2 ^ 64
      rw [UInt64.toNat_sub]
      omega
    · exact List.length_set.trans h.length

theorem tick_balanced {b : Book} (h : Balanced b) (now : Nat → Clock) :
    Balanced { control := tick b.control now
               ledger := b.ledger.after b.control (.tick now) } := by
  have hrtt : (tickRtt b.control).inflightPackets = b.control.inflightPackets ∧
      (tickRtt b.control).inflightDataSize = b.control.inflightDataSize ∧
      (tickRtt b.control).lossCount = b.control.lossCount := by
    unfold tickRtt
    split <;> exact ⟨rfl, rfl, rfl⟩
  obtain ⟨hpackets, hsize, hloss, hlength, htimes⟩ := tickLoop_spec now b.control.inflightPackets 0
    b.control.inflightDataSize b.control.lossCount h.times
  unfold tick Ledger.after
  dsimp only
  rw [hrtt.1, hrtt.2.1, hrtt.2.2]
  have hdata := h.dataSize
  have hsum : inflightSize b.control = totalSize (timedOut now 0 b.control.inflightPackets) +
      totalSize (inflight (tickLoop now 0 b.control.inflightPackets b.control.inflightDataSize
        b.control.lossCount).1) := by
    unfold inflightSize
    rw [hpackets, totalSize_add]
  refine ⟨?_, ?_, ?_, hlength.trans h.length, htimes⟩
  · dsimp only
    rw [h.packets, hpackets]
    abel
  · show (tickLoop now 0 b.control.inflightPackets b.control.inflightDataSize
        b.control.lossCount).2.1.toNat = totalSize (inflight (tickLoop now 0
          b.control.inflightPackets b.control.inflightDataSize b.control.lossCount).1) % 2 ^ 64
    have hlt := (tickLoop now 0 b.control.inflightPackets b.control.inflightDataSize
      b.control.lossCount).2.1.toNat_lt
    omega
  · dsimp only
    rw [hloss, h.losses, Multiset.card_add]
    omega

/-- A slot is found for every packet, and what was in it is lost. -/
theorem takeSlot_balanced {b : Book} (h : Balanced b) (seq : BitVec 32) (size : UInt64)
    (now : Clock) :
    ∃ c, takeSlot { b.control with lastSentSeq := seq } seq size now = some c ∧
      Balanced { control := c
                 ledger := { b.ledger with
                   accepted := { seq, sendTime := now.1, size } ::ₘ b.ledger.accepted
                   lost := evicted b.control + b.ledger.lost } } := by
  have hne : b.control.inflightPackets ≠ [] := by
    rw [← List.length_pos_iff, h.length]
    decide
  obtain ⟨i, hfound, hlt⟩ := findSlot_spec b.control.inflightPackets 0 none none
    (fun _ hnone => by cases hnone) (fun hnone => by cases hnone) (.inl hne)
  rw [Nat.zero_add] at hlt
  have hnew : (⟨seq, now.1, size⟩ : Packet).isInflight = true := decide_eq_true now.2
  have hset := inflight_set b.control.inflightPackets ⟨seq, now.1, size⟩ i hlt
  have hold : evicted b.control = inflight [b.control.inflightPackets.getD i {}] := by
    unfold evicted
    rw [hfound]
  rw [inflight_of_inflight hnew, ← hold] at hset
  have hsize := congrArg totalSize hset
  rw [totalSize_add, totalSize_add, totalSize_singleton] at hsize
  dsimp only at hsize
  have hdata := h.dataSize
  unfold inflightSize at hdata
  have hlength : (b.control.inflightPackets.set i ⟨seq, now.1, size⟩).length = 100 :=
    List.length_set.trans h.length
  have htimes := times_set h.times i (p := ⟨seq, now.1, size⟩) now.2.le
  have hpackets : (⟨seq, now.1, size⟩ : Packet) ::ₘ b.ledger.accepted =
      b.ledger.acknowledged + (evicted b.control + b.ledger.lost) +
        inflight (b.control.inflightPackets.set i ⟨seq, now.1, size⟩) := by
    rw [h.packets, ← Multiset.singleton_add]
    calc {⟨seq, now.1, size⟩} + (b.ledger.acknowledged + b.ledger.lost +
          inflight b.control.inflightPackets)
        = b.ledger.acknowledged + b.ledger.lost +
            (inflight b.control.inflightPackets + {⟨seq, now.1, size⟩}) := by abel
      _ = b.ledger.acknowledged + b.ledger.lost +
            (inflight (b.control.inflightPackets.set i ⟨seq, now.1, size⟩) +
              evicted b.control) := by rw [hset]
      _ = _ := by abel
  unfold takeSlot
  dsimp only
  rw [hfound]
  dsimp only [Option.map_some]
  cases hinflight : (b.control.inflightPackets.getD i {}).isInflight with
  | true =>
    rw [if_pos rfl]
    rw [hold, inflight_of_inflight hinflight, totalSize_singleton] at hsize
    have hp := (b.control.inflightPackets.getD i {}).size.toNat_lt
    refine ⟨_, rfl, hpackets, ?_, ?_, hlength, htimes⟩
    · show (b.control.inflightDataSize - (b.control.inflightPackets.getD i {}).size + size).toNat =
        totalSize (inflight (b.control.inflightPackets.set i ⟨seq, now.1, size⟩)) % 2 ^ 64
      rw [UInt64.toNat_add, UInt64.toNat_sub]
      omega
    · show (b.control.lossCount + 1).toNat = (evicted b.control + b.ledger.lost).card % 2 ^ 32
      rw [hold, inflight_of_inflight hinflight, Multiset.card_add, Multiset.card_singleton,
        UInt32.toNat_add, h.losses]
      simp only [UInt32.toNat_one]
      omega
  | false =>
    rw [if_neg Bool.false_ne_true]
    rw [hold, inflight_of_free hinflight] at hsize
    refine ⟨_, rfl, hpackets, ?_, ?_, hlength, htimes⟩
    · show (b.control.inflightDataSize + size).toNat =
        totalSize (inflight (b.control.inflightPackets.set i ⟨seq, now.1, size⟩)) % 2 ^ 64
      rw [UInt64.toNat_add]
      have hzero : totalSize 0 = 0 := rfl
      omega
    · show b.control.lossCount.toNat = (evicted b.control + b.ledger.lost).card % 2 ^ 32
      rw [hold, inflight_of_free hinflight, zero_add, h.losses]

/-- No assertion fails, and the book stays balanced. -/
theorem step_balanced {b : Book} (h : Balanced b) (event : Event) :
    ∃ b', step (some b) event = some b' ∧ Balanced b' := by
  cases event with
  | packetAcknowledged seq now => exact ⟨_, rfl, acknowledged_balanced h seq now⟩
  | tick now => exact ⟨_, rfl, tick_balanced h now⟩
  | packetSent seq size now =>
    unfold step packetSent Ledger.after
    dsimp only [Option.bind_some]
    cases haccepts : accepts b.control seq with
    | false => exact ⟨_, rfl, h⟩
    | true =>
      obtain ⟨c, htake, hbalanced⟩ := takeSlot_balanced h seq size now
      rw [if_pos rfl, if_pos rfl, htake]
      exact ⟨_, rfl, hbalanced⟩

theorem balanced_start : Balanced {} := by
  have hfree : ∀ n, inflight (List.replicate n {}) = 0 := by
    intro n
    induction n with
    | zero => rfl
    | succ n ih => rw [List.replicate_succ, inflight_cons, ih, add_zero]; rfl
  refine ⟨(hfree 100).symm, ?_, rfl, List.length_replicate, fun p hp => ?_⟩
  · show 0 = totalSize (inflight (List.replicate 100 {})) % 2 ^ 64
    rw [hfree]
    rfl
  · rw [List.eq_of_mem_replicate hp]

theorem size_le_inflightSize {c : CongestionControl} (hp : p ∈ c.inflightPackets)
    (hinflight : p.isInflight = true) : p.size.toNat ≤ inflightSize c := by
  have hmem : p.size.toNat ∈ (inflight c.inflightPackets).map (·.size.toNat) :=
    Multiset.mem_map_of_mem _ (Multiset.mem_filter.2 ⟨hp, hinflight⟩)
  exact Multiset.le_sum_of_mem hmem

/-- Every run finds a slot for every packet and stays balanced.  While the sum of the sizes
in flight is a number of 64 bits, `inflightDataSize` is this sum, and no subtraction of a
size in flight wraps. -/
theorem congestion_accounting (events : List Event) :
    ∃ b, run step (some {}) events = some b ∧ Balanced b ∧
      (inflightSize b.control < 2 ^ 64 →
        b.control.inflightDataSize.toNat = inflightSize b.control ∧
          ∀ p ∈ b.control.inflightPackets, p.isInflight = true →
            p.size.toNat ≤ b.control.inflightDataSize.toNat) := by
  have hstep : ∀ b event, (∃ book, b = some book ∧ Balanced book) →
      ∃ book, step b event = some book ∧ Balanced book := by
    rintro _ event ⟨book, rfl, h⟩
    exact step_balanced h event
  obtain ⟨b, hrun, h⟩ := run_invariant hstep events (some {}) ⟨{}, rfl, balanced_start⟩
  refine ⟨b, hrun, h, fun hlt => ?_⟩
  have hexact : b.control.inflightDataSize.toNat = inflightSize b.control := by
    rw [h.dataSize, Nat.mod_eq_of_lt hlt]
  refine ⟨hexact, fun p hp hinflight => ?_⟩
  rw [hexact]
  exact size_le_inflightSize hp hinflight

/-- Two packets whose sizes are too large for a sum of 64 bits. -/
theorem dataSize_wraps :
    ¬ ∀ events b, run step (some {}) events = some b →
      b.control.inflightDataSize.toNat = inflightSize b.control := by
  intro h
  have hsum := h [.packetSent 1 (2 ^ 63) ⟨1, by decide⟩, .packetSent 2 (2 ^ 63) ⟨1, by decide⟩]
    _ rfl
  revert hsum
  decide +kernel

end TelegramPub.Ports.VoipCongestion
