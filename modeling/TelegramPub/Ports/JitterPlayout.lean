import TelegramPub.Ports.JitterContents
import Mathlib.Data.List.Count
import Mathlib.Data.List.Perm.Subperm

/-!
# The playout of the jitter buffer

Packets are put in with their timestamps, and the decoder takes the one that is next by the
clock `nextTimestamp`.  A packet that arrives behind the clock is dropped when it is more than
one unit late; the code asks for that in the second branch of a condition whose first branch
covers it, so it stores such packets.  A packet that takes the slot of the oldest one moves the
clock, and may leave others behind it.

Beside the state three lists are written down: the packets that were put in a slot, those that
came out, and the timestamps that came out at offset 0 since the clock was set.
-/

namespace TelegramPub.Ports.JitterPlayout

open Verified.Bytes Verified.Machine Ports.JitterBuffer Ports.JitterSlots Ports.JitterContents

variable (config : Config)

/-- No packet is older than the cutoff. -/
def NoneLate (jb : State) : Prop :=
  ∀ slot ∈ jb.slots, slot.buffer.isSome → jb.nextTimestamp - 1 ≤ slot.timestamp.toNat

instance (jb : State) : Decidable (NoneLate jb) :=
  inferInstanceAs (Decidable (∀ slot ∈ jb.slots, _ → _))

/-- The code stays in the array of slots, and no packet is older than the cutoff. -/
def Stores : Option State → Prop
  | some jb => NoneLate jb
  | none => False

instance : ∀ s, Decidable (Stores s)
  | some jb => inferInstanceAs (Decidable (NoneLate jb))
  | none => inferInstanceAs (Decidable False)

structure Playout where
  jitterBuffer : Option State
  accepted : List Packet := []
  returned : List Packet := []
  played : List Int := []

/-- The timestamp that `HandleOutput` looks for. -/
def target (jb : State) (offset : Int) : Int := jb.nextTimestamp + offset * config.step.toNat

/-- The packet is put in a slot. -/
def accepts (jb : State) (data : Data) (timestamp : UInt32) : Bool :=
  decide (data.length ≤ slotSize) && !(countLate (receive config jb timestamp) timestamp).1

/-- What is written down of an input. -/
def Playout.put (p : Playout) (jb : State) (data : Data) (timestamp : UInt32) : Playout :=
  { p with
    accepted := if accepts config jb data timestamp then ⟨timestamp, data⟩ :: p.accepted
      else p.accepted
    played := if data.length ≤ slotSize ∧ jb.wasReset = true then [] else p.played }

/-- What is written down of an output. -/
def Playout.take (p : Playout) (jb : State) (offset : Int) : Got → Playout
  | .ok _ bytes =>
    { p with
      returned := match bytes with
        | some data => ⟨UInt32.ofNat (target config jb offset).toNat, data⟩ :: p.returned
        | none => p.returned
      played := if offset = 0 then target config jb offset :: p.played else p.played }
  | .missing | .buffering => p

/-- One call, with what is written down of it. -/
def step (p : Playout) (e : Event) : Playout :=
  let after := JitterSlots.step config p.jitterBuffer e
  match p.jitterBuffer, e with
  | some jb, .call (.handleInput data timestamp) =>
    { p.put config jb data timestamp with jitterBuffer := after }
  | some jb, .handleOutput len offset _ =>
    { p.take config jb offset (getInternal config jb len offset).1 with jitterBuffer := after }
  | _, _ => { p with jitterBuffer := after }

def start (nextTimestamp : Int) (latePacketCount : UInt32) : Playout :=
  { jitterBuffer := some (create nextTimestamp latePacketCount) }

/-! ## What playout promises -/

/-- A call returns a stored packet with the timestamp, with exactly its bytes, or there is none. -/
def Returns (jb : State) (offset : Int) : Got → Prop
  | .ok size (some data) => data.length = size ∧
      ∃ x ∈ stored jb, (x.timestamp.toNat : Int) = target config jb offset ∧ x.data = data
  | .ok _ none => False
  | .missing | .buffering => ∀ x ∈ stored jb, (x.timestamp.toNat : Int) ≠ target config jb offset

instance (jb : State) (offset : Int) : ∀ got, Decidable (Returns config jb offset got)
  | .ok _ (some _) => inferInstanceAs (Decidable (_ ∧ ∃ x ∈ stored jb, _))
  | .ok _ none => inferInstanceAs (Decidable False)
  | .missing | .buffering => inferInstanceAs (Decidable (∀ x ∈ stored jb, _))

/-- What an input and an output promise: no stored packet is older than the cutoff; a packet comes
out at most once, with its bytes; the clock moves by one step, unless the buffer is reset; and
what comes out at offset 0 has increasing timestamps. -/
def PromisedAt (p : Playout) : Option State → Event → Prop
  | some jb, .call (.handleInput data timestamp) => Stores (handleInput config jb data timestamp)
  | some jb, .handleOutput len offset scaled =>
    let after := step config p (.handleOutput len offset scaled)
    Returns config jb offset (getInternal config jb len offset).1 ∧
      after.returned.Subperm after.accepted ∧
      (offset = 0 → ¬ Resets config jb offset →
        (getInternal config jb len offset).2.nextTimestamp =
          jb.nextTimestamp + config.step.toNat) ∧
      after.played.Pairwise (· > ·)
  | some _, .call (.tick _) | some _, .call (.setMinPacketCount _) | some _, .call .reset
  | some _, .call .getAndResetLostPacketCount | none, _ => True

instance (p : Playout) : ∀ s e, Decidable (PromisedAt config p s e)
  | some jb, .call (.handleInput data timestamp) =>
    inferInstanceAs (Decidable (Stores (handleInput config jb data timestamp)))
  | some _, .handleOutput _ _ _ => inferInstanceAs (Decidable (_ ∧ _ ∧ (_ → _ → _) ∧ _))
  | some _, .call (.tick _) | some _, .call (.setMinPacketCount _) | some _, .call .reset
  | some _, .call .getAndResetLostPacketCount | none, _ => inferInstanceAs (Decidable True)

/-- The promises of a step. -/
def Promised (p : Playout) (e : Event) : Prop := PromisedAt config p p.jitterBuffer e

instance (p : Playout) (e : Event) : Decidable (Promised config p e) :=
  inferInstanceAs (Decidable (PromisedAt config p p.jitterBuffer e))

/-- The timestamps of the stored packets. -/
def timestamps (jb : State) : List UInt32 :=
  (jb.slots.filter (·.buffer.isSome)).map (·.timestamp)

/-- The clock for an input: the first packet after a reset sets it. -/
def clockFor (jb : State) (timestamp : UInt32) : Int :=
  if jb.wasReset then (timestamp.toNat : Int) - ((config.step * jb.minDelay).toNat : Int)
  else jb.nextTimestamp

/-- Of the stored timestamps those that are not too old. -/
def recent (clock : Int) (stored : List UInt32) : List UInt32 :=
  stored.filter fun t => decide (clock - 1 ≤ t.toNat)

/-- The condition of an input.  A packet that gets a free slot is not too old.  One that takes
the slot of another packet is not too old after one more step of the clock, and of the packets
that are stored at most one, the oldest, is.  A packet that is too large is put nowhere, and the
outputs before it have left no stored packet behind. -/
def InTime (jb : State) (data : Data) (timestamp : UInt32) : Prop :=
  if data.length ≤ slotSize then
    let clock := clockFor config jb timestamp
    let kept := recent clock (timestamps jb)
    if kept.length < slotCount ∧ kept.length < config.maxUsedSlots.toNat then
      clock - 1 ≤ timestamp.toNat
    else
      (∃ t ∈ kept, t < 0xFFFFFFFF) ∧ clock + config.step.toNat - 1 ≤ timestamp.toNat ∧
        kept.countP (fun t => decide ((t.toNat : Int) < clock + config.step.toNat - 1)) ≤ 1
  else ∀ t ∈ timestamps jb, jb.nextTimestamp - 1 ≤ t.toNat

/-- The packet that comes out fits in the buffer, and the clock does not stand still. -/
def Fits (p : Playout) (jb : State) (len : Nat) (offset : Int) : Prop :=
  ∀ i ∈ findTimestamp jb.slots (target config jb offset),
    (jb.slots.getD i {}).size ≤ len ∧ (offset = 0 → config.step = 0 → p.played = [])

/-- The condition of a step. -/
def Kept (p : Playout) (e : Event) : Prop :=
  match p.jitterBuffer, e with
  | some jb, .call (.handleInput data timestamp) => InTime config jb data timestamp
  | some jb, .handleOutput len offset _ => Fits config p jb len offset
  | _, _ => True

variable {jb jb' : State} {timestamp offset : Int} {i len : Nat}

theorem findTimestamp_some (h : findTimestamp jb.slots timestamp = some i) :
    i < jb.slots.length ∧ jb.slots.getD i {} ∈ jb.slots ∧
      (jb.slots.getD i {}).buffer.isSome ∧
      ((jb.slots.getD i {}).timestamp.toNat : Int) = timestamp := by
  obtain ⟨hi, hfound, -⟩ := List.findIdx?_eq_some_iff_getElem.1 h
  rw [List.getD_eq_getElem _ _ hi]
  simp only [Bool.and_eq_true, decide_eq_true_eq] at hfound
  exact ⟨hi, List.getElem_mem hi, hfound.1, hfound.2⟩

theorem findTimestamp_none (h : findTimestamp jb.slots timestamp = none) :
    ∀ x ∈ stored jb, (x.timestamp.toNat : Int) ≠ timestamp := by
  intro x hx
  obtain ⟨slot, hslot, hpacket⟩ := List.mem_filterMap.1 hx
  obtain ⟨b, hb, rfl⟩ := Option.map_eq_some_iff.1 hpacket
  have hnot := List.findIdx?_eq_none_iff.1 h slot hslot
  simpa [hb] using hnot

theorem getInternal_found (len : Nat)
    (h : findTimestamp jb.slots (target config jb offset) = some i) :
    getInternal config jb len offset = takePacket config jb len offset i := by
  simp only [getInternal, ← target.eq_1, h]

theorem getInternal_missed (len : Nat) (h : findTimestamp jb.slots (target config jb offset) = none)
    :
    getInternal config jb len offset = missPacket config jb offset := by
  simp only [getInternal, ← target.eq_1, h]

/-- The clock after an output that does not reset the buffer. -/
def clockAfter (jb : State) (offset : Int) : Int :=
  if offset = 0 then jb.nextTimestamp + config.step.toNat else jb.nextTimestamp

theorem takePacket_state (jb : State) (len : Nat) (offset : Int) (i : Nat) :
    (takePacket config jb len offset i).2.slots = (releaseSlot jb i).slots ∧
      (takePacket config jb len offset i).2.bufferPool = (releaseSlot jb i).bufferPool ∧
      (takePacket config jb len offset i).2.nextTimestamp = clockAfter config jb offset := by
  unfold takePacket advanceAt clockAfter
  split <;> exact ⟨rfl, rfl, rfl⟩

theorem advanceAt_nextTimestamp (jb : State) (offset : Int) :
    (advanceAt config jb offset).nextTimestamp = clockAfter config jb offset := by
  unfold advanceAt clockAfter
  split <;> rfl

theorem advanceAt_rest (jb : State) (offset : Int) :
    (advanceAt config jb offset).slots = jb.slots ∧
      (advanceAt config jb offset).bufferPool = jb.bufferPool ∧
      (advanceAt config jb offset).wasReset = jb.wasReset := by
  unfold advanceAt
  split <;> exact ⟨rfl, rfl, rfl⟩

/-- A call that finds no packet and does not reset the buffer only moves the clock. -/
theorem same_missPacket (jb : State) (offset : Int)
    (hkeeps : ¬ (jb.needBuffering = false ∧ tooManyLosses config (noteLoss jb offset) = true)) :
    Same (advanceAt config jb offset) (missPacket config jb offset).2 := by
  cases hbuffering : jb.needBuffering with
  | true =>
    simp only [missPacket, advanceAt_needBuffering, hbuffering, if_true]
    exact ⟨rfl, rfl, rfl, id⟩
  | false =>
    have hlosses : tooManyLosses config (noteLoss jb offset) = false := by
      simpa [hbuffering] using hkeeps
    simp only [missPacket, advanceAt_needBuffering, hbuffering, Bool.false_eq_true, if_false,
      countLoss, tooManyLosses_advanceAt, hlosses]
    exact same_noteLoss (advanceAt config jb offset) offset

theorem missPacket_resets (jb : State) (offset : Int) (hbuffering : jb.needBuffering = false)
    (hlosses : tooManyLosses config (noteLoss jb offset) = true) :
    ∃ before : State, before.slots = jb.slots ∧ before.bufferPool = jb.bufferPool ∧
      (missPacket config jb offset).2 = reset before := by
  obtain ⟨hslots, hpool, -⟩ := advanceAt_rest config jb offset
  have hnoted := same_noteLoss (advanceAt config jb offset) offset
  simp only [missPacket, advanceAt_needBuffering, hbuffering, Bool.false_eq_true, if_false,
    countLoss, tooManyLosses_advanceAt, hlosses, if_true]
  refine ⟨_, ?_, ?_, rfl⟩
  · exact hnoted.slots.trans hslots
  · exact hnoted.bufferPool.trans hpool

theorem missPacket_got (jb : State) (offset : Int) :
    (missPacket config jb offset).1 = .buffering ∨ (missPacket config jb offset).1 = .missing := by
  unfold missPacket
  dsimp only
  split
  · exact .inl rfl
  · exact .inr rfl

/-- A packet that is found comes out with its bytes exactly when it fits. -/
theorem returns_copyPacket (h : Held jb)
    (hfind : findTimestamp jb.slots (target config jb offset) = some i) :
    Returns config jb offset (copyPacket jb len i) ↔ (jb.slots.getD i {}).size ≤ len := by
  obtain ⟨-, hmem, hsome, htimestamp⟩ := findTimestamp_some hfind
  obtain ⟨b, hb⟩ := Option.isSome_iff_exists.1 hsome
  unfold copyPacket
  dsimp only
  split
  next hlarge => exact ⟨False.elim, fun hle => absurd hle (Nat.not_le.2 hlarge)⟩
  next hfits =>
    refine ⟨fun _ => Nat.le_of_not_lt hfits, fun _ => ⟨?_, ?_⟩⟩
    · rw [hb]
      exact List.length_take_of_le (h.sizes _ hmem b hb)
    · refine ⟨⟨(jb.slots.getD i {}).timestamp, _⟩, List.mem_filterMap.2 ⟨_, hmem, ?_⟩, htimestamp,
        rfl⟩
      rw [packetOf, hb]
      rfl

/-- The buffer is empty, and the next packet sets the clock. -/
def Idle (jb : State) : Prop := jb.wasReset = true ∧ ∀ slot ∈ jb.slots, slot.buffer = none

/-- What came out is behind the clock, which may stand still. -/
def Behind (played : List Int) (nextTimestamp : Int) : Prop :=
  ∀ t ∈ played, t + config.step.toNat ≤ nextTimestamp ∧ (config.step = 0 → t = nextTimestamp)

structure Inv (p : Playout) (jb : State) : Prop where
  jitterBuffer : p.jitterBuffer = some jb
  held : Held jb
  counts : ∀ x, p.returned.count x + (stored jb).count x ≤ p.accepted.count x
  increasing : p.played.Pairwise (· > ·)
  behind : Idle jb ∨ Behind config p.played jb.nextTimestamp

theorem behind_step {played : List Int} {nextTimestamp : Int}
    (h : Behind config played nextTimestamp) :
    Behind config played (nextTimestamp + config.step.toNat) := by
  intro t ht
  obtain ⟨hle, heq⟩ := h t ht
  refine ⟨by omega, fun hzero => ?_⟩
  simp [heq hzero, hzero]

theorem behind_clockAfter {played : List Int} (offset : Int)
    (h : Behind config played jb.nextTimestamp) :
    Behind config played (clockAfter config jb offset) := by
  unfold clockAfter
  split
  · exact behind_step config h
  · exact h

theorem reset_idle : Idle (reset jb) := by
  refine ⟨rfl, fun slot hslot => ?_⟩
  change slot ∈ (releaseSlots (fun _ => true) jb.slots jb.bufferPool).1 at hslot
  rw [(releaseSlots_cleared _ _ _).1] at hslot
  obtain ⟨s, -, rfl⟩ := List.mem_map.1 hslot
  rfl

theorem sheds_reset (h : Held jb) : Sheds jb (reset jb) :=
  sheds_releaseSlots h (fun _ => true) rfl rfl

variable {p : Playout}

/-- A call that stores no packet and leaves the lists alone. -/
theorem Inv.shed (h : Inv config p jb) (hsheds : Sheds jb jb')
    (hbehind : Idle jb' ∨ Behind config p.played jb'.nextTimestamp) :
    Inv config { p with jitterBuffer := some jb' } jb' where
  jitterBuffer := rfl
  held := hsheds.held
  counts := fun x => (Nat.add_le_add_left (hsheds.stored x) _).trans (h.counts x)
  increasing := h.increasing
  behind := hbehind

theorem Inv.same (h : Inv config p jb) (hsame : Same jb jb') :
    Inv config { p with jitterBuffer := some jb' } jb' := by
  have hheld := held_congr h.held hsame.slots hsame.bufferPool
  refine h.shed config ⟨hheld, fun x => ?_⟩ ?_
  · rw [stored_congr hsame.slots hsame.bufferPool]
  · rcases h.behind with hidle | hbehind
    · exact .inl ⟨hsame.wasReset hidle.1, hsame.slots ▸ hidle.2⟩
    · exact .inr (hsame.nextTimestamp ▸ hbehind)

theorem Inv.reset (h : Inv config p jb) :
    Inv config { p with jitterBuffer := some (reset jb) } (reset jb) :=
  h.shed config (sheds_reset h.held) (.inl reset_idle)

theorem stored_of_empty (h : ∀ slot ∈ jb.slots, slot.buffer = none) :
    stored jb = [] :=
  List.filterMap_eq_nil_iff.2 fun slot hslot => packetOf_none _ (h slot hslot)

theorem idle_create (nextTimestamp : Int) (latePacketCount : UInt32) :
    Idle (create nextTimestamp latePacketCount) := reset_idle

theorem held_create (nextTimestamp : Int) (latePacketCount : UInt32) :
    Held (create nextTimestamp latePacketCount) where
  owned := owned_create nextTimestamp latePacketCount
  buffersLength := by
    change (releaseSlots _ _ _).2.buffers.length = slotCount
    rw [(releaseSlots_cleared _ _ _).2]
    exact List.length_replicate
  sizes := by
    intro slot hslot b hb
    rw [reset_idle.2 slot hslot] at hb
    cases hb

theorem inv_start (nextTimestamp : Int) (latePacketCount : UInt32) :
    Inv config (start nextTimestamp latePacketCount) (create nextTimestamp latePacketCount) where
  jitterBuffer := rfl
  held := held_create nextTimestamp latePacketCount
  counts := by
    intro x
    rw [stored_of_empty (idle_create nextTimestamp latePacketCount).2]
    exact Nat.le_refl _
  increasing := List.Pairwise.nil
  behind := .inl (idle_create nextTimestamp latePacketCount)

/-- The state after `HandleOutput`, with a place for the duration or without. -/
theorem same_output (jb : State) (len : Nat) (offset : Int) (scaled : Bool) :
    Same (getInternal config jb len offset).2
      (if scaled then (handleOutput config jb len offset).2.2
        else (getInternal config jb len offset).2) := by
  split
  · exact ⟨rfl, rfl, rfl, id⟩
  · exact ⟨rfl, rfl, rfl, id⟩

theorem take_missed {got : Got} (h : got = .buffering ∨ got = .missing)
    : p.take config jb offset got = p := by
  rcases h with rfl | rfl <;> rfl

/-- An output that finds no packet. -/
theorem inv_missed (h : Inv config p jb) (offset : Int) :
    Inv config { p with jitterBuffer := some (missPacket config jb offset).2 }
      (missPacket config jb offset).2 := by
  by_cases hresets : jb.needBuffering = false ∧ tooManyLosses config (noteLoss jb offset) = true
  · obtain ⟨before, hslots, hpool, heq⟩ := missPacket_resets config jb offset hresets.1 hresets.2
    have hheld := held_congr h.held hslots hpool
    have hreset := sheds_reset hheld
    rw [heq]
    refine h.shed config ⟨hreset.held, fun x => ?_⟩ (.inl reset_idle)
    rw [← stored_congr hslots hpool]
    exact hreset.stored x
  · have hsame := same_missPacket config jb offset hresets
    obtain ⟨hslots, hpool, hreset⟩ := advanceAt_rest config jb offset
    have hheld := held_congr h.held hslots hpool
    have hadvanced : Inv config { p with jitterBuffer := some (advanceAt config jb offset) }
        (advanceAt config jb offset) := by
      refine h.shed config ⟨hheld, fun x => ?_⟩ ?_
      · rw [stored_congr hslots hpool]
      · rcases h.behind with hidle | hbehind
        · exact .inl ⟨hreset ▸ hidle.1, hslots ▸ hidle.2⟩
        · rw [advanceAt_nextTimestamp]
          exact .inr (behind_clockAfter config offset hbehind)
    exact hadvanced.same config hsame

theorem copyPacket_fits (h : (jb.slots.getD i {}).size ≤ len) :
    copyPacket jb len i = .ok (jb.slots.getD i {}).size (some
      ((jb.bufferPool.buffers.getD ((jb.slots.getD i {}).buffer.getD 0) []).take
        (jb.slots.getD i {}).size)) := by
  simp only [copyPacket, if_neg (Nat.not_lt.2 h)]

/-- The packet that comes out is the one that was stored. -/
theorem packetOf_found (hfind : findTimestamp jb.slots (target config jb offset) = some i) :
    packetOf jb.bufferPool.buffers (jb.slots.getD i {}) =
      some ⟨UInt32.ofNat (target config jb offset).toNat,
        (jb.bufferPool.buffers.getD ((jb.slots.getD i {}).buffer.getD 0) []).take
          (jb.slots.getD i {}).size⟩ := by
  obtain ⟨-, -, hsome, htimestamp⟩ := findTimestamp_some hfind
  obtain ⟨b, hb⟩ := Option.isSome_iff_exists.1 hsome
  rw [packetOf, ← htimestamp, hb, Int.toNat_natCast, UInt32.ofNat_toNat]
  rfl

/-- What came out before is behind the packet that is found. -/
theorem behind_of_found (h : Inv config p jb) (hfind : findTimestamp jb.slots timestamp = some i) :
    Behind config p.played jb.nextTimestamp := by
  refine h.behind.resolve_left fun hidle => ?_
  obtain ⟨-, hmem, hsome, -⟩ := findTimestamp_some hfind
  rw [hidle.2 _ hmem] at hsome
  cases hsome

theorem inv_found (h : Inv config p jb)
    (hfind : findTimestamp jb.slots (target config jb offset) = some i)
    (hfits : (jb.slots.getD i {}).size ≤ len)
    (hclock : offset = 0 → config.step = 0 → p.played = []) :
    Inv config
      { p.take config jb offset (copyPacket jb len i) with
        jitterBuffer := some (takePacket config jb len offset i).2 }
      (takePacket config jb len offset i).2 := by
  obtain ⟨hslots, hpool, hnext⟩ := takePacket_state config jb len offset i
  have hi : i < slotCount := h.held.owned.slotsLength ▸ (findTimestamp_some hfind).1
  have hbehind := behind_of_found config h hfind
  have htarget : offset = 0 → target config jb offset = jb.nextTimestamp := by
    intro hzero
    simp [target, hzero]
  rw [copyPacket_fits hfits]
  refine ⟨rfl, held_congr (held_releaseSlot h.held i hi) hslots hpool, fun x => ?_, ?_, .inr ?_⟩
  · have hcount := h.counts x
    have hstored := stored_releaseSlot h.held i hi x
    simp only [packetOf_found config hfind, Option.some.injEq] at hstored
    rw [stored_congr hslots hpool]
    simp only [Playout.take, List.count_cons, beq_iff_eq]
    omega
  · simp only [Playout.take]
    split
    next hzero =>
      refine List.pairwise_cons.2 ⟨fun t ht => ?_, h.increasing⟩
      have hstep : config.step ≠ 0 := by
        intro hstep
        rw [hclock hzero hstep] at ht
        cases ht
      have hpos : 0 < config.step.toNat :=
        Nat.pos_of_ne_zero fun hnat => hstep (UInt32.toNat_inj.1 hnat)
      have hle := (hbehind t ht).1
      rw [htarget hzero]
      omega
    next => exact h.increasing
  · rw [hnext]
    simp only [Playout.take]
    split
    next hzero =>
      intro t ht
      rcases List.mem_cons.1 ht with rfl | ht
      · rw [htarget hzero, clockAfter, if_pos hzero]
        exact ⟨le_refl _, fun hstep => by simp [hstep]⟩
      · exact behind_clockAfter config offset hbehind t ht
    next => exact behind_clockAfter config offset hbehind

theorem receive_state (jb : State) (timestamp : UInt32) :
    (receive config jb timestamp).slots = (releaseSlots
        (fun slot => decide ((slot.timestamp.toNat : Int) <
          (receive config jb timestamp).nextTimestamp - 1)) jb.slots jb.bufferPool).1 ∧
      (receive config jb timestamp).bufferPool = (releaseSlots
        (fun slot => decide ((slot.timestamp.toNat : Int) <
          (receive config jb timestamp).nextTimestamp - 1)) jb.slots jb.bufferPool).2 := by
  unfold receive resync
  split <;> exact ⟨rfl, rfl⟩

theorem sheds_receive (h : Held jb) (timestamp : UInt32) :
    Sheds jb (receive config jb timestamp) :=
  sheds_releaseSlots h _ (receive_state config jb timestamp).1 (receive_state config jb timestamp).2

/-- After the old packets are dropped none is older than the cutoff. -/
theorem noneLate_receive (jb : State) (timestamp : UInt32) :
    NoneLate (receive config jb timestamp) := by
  intro slot hslot hsome
  rw [(receive_state config jb timestamp).1, (releaseSlots_cleared _ _ _).1] at hslot
  obtain ⟨s, -, rfl⟩ := List.mem_map.1 hslot
  obtain ⟨b, hb⟩ := Option.isSome_iff_exists.1 hsome
  obtain ⟨heq, hold⟩ := cleared_buffer hb
  rw [heq]
  simpa using hold

theorem same_evict (h : Same jb jb') (i : Nat) :
    Same (releaseSlot (advance config jb) i) (releaseSlot (advance config jb') i) where
  slots := by simp only [releaseSlot, advance, h.slots]
  bufferPool := by simp only [releaseSlot, advance, h.slots, h.bufferPool]
  nextTimestamp := by simp only [releaseSlot, advance, h.nextTimestamp]
  wasReset := h.wasReset

theorem chooseSlot_cases {received chosen : State} (h : Same received jb)
    (hchoose : chooseSlot config jb = some (i, chosen)) :
    (Evicts config received ∧ oldestSlot received.slots 0 slotCount 0xFFFFFFFF < slotCount ∧
        Same (releaseSlot (advance config received)
          (oldestSlot received.slots 0 slotCount 0xFFFFFFFF)) chosen) ∨
      (¬ Evicts config received ∧ Same received chosen) := by
  by_cases hevicts : Evicts config received
  · refine .inl ⟨hevicts, ?_⟩
    rw [chooseSlot_of_evicts config ((h.evicts_iff config).2 hevicts), chooseSlot.evict,
      h.slots] at hchoose
    split at hchoose
    next hlt =>
      simp only [Option.some.injEq, Prod.mk.injEq] at hchoose
      obtain ⟨-, rfl⟩ := hchoose
      exact ⟨hlt, same_evict config h _⟩
    next => cases hchoose
  · obtain ⟨j, hfree, -⟩ := chooseSlot_of_free config (mt (h.evicts_iff config).1 hevicts)
    rw [hfree] at hchoose
    simp only [Option.some.injEq, Prod.mk.injEq] at hchoose
    obtain ⟨-, rfl⟩ := hchoose
    exact .inr ⟨hevicts, h⟩

theorem handleInput_stores (h : Held jb) {data : Data} {timestamp : UInt32}
    (hsize : data.length ≤ slotSize) (hput : handleInput config jb data timestamp = some jb') :
    ∃ i chosen, i < slotCount ∧ (chosen.slots.getD i {}).buffer = none ∧
      jb' = storePacket chosen i data timestamp ∧
      ((Evicts config (receive config jb timestamp) ∧
          oldestSlot (receive config jb timestamp).slots 0 slotCount 0xFFFFFFFF < slotCount ∧
          Same (releaseSlot (advance config (receive config jb timestamp))
            (oldestSlot (receive config jb timestamp).slots 0 slotCount 0xFFFFFFFF)) chosen) ∨
        (¬ Evicts config (receive config jb timestamp) ∧
          Same (receive config jb timestamp) chosen)) := by
  rw [handleInput_eq config jb data timestamp hsize, Option.map_eq_some_iff] at hput
  obtain ⟨⟨i, chosen⟩, hchoose, rfl⟩ := hput
  have hsame := same_beforeChoice config jb timestamp
  have howned := hsame.owned (owned_receive config h.owned timestamp)
  obtain ⟨hi, -, hfree⟩ := chooseSlot_spec config howned hchoose
  exact ⟨i, chosen, hi, hfree, rfl, chooseSlot_cases config hsame hchoose⟩

theorem get_of_free (h : Owned jb.slots jb.bufferPool) (hi : i < slotCount)
    (hfree : (jb.slots.getD i {}).buffer = none) : (jb.bufferPool.get).1 ≠ none := by
  intro hget
  have hlt : i < jb.slots.length := by rw [h.slotsLength]; exact hi
  have hfull : jb.bufferPool.usedBuffers.findIdx? (! ·) = none := by
    unfold BufferPool.get at hget
    split at hget
    · cases hget
    · assumption
  have howned : ∀ b ∈ List.range slotCount, b ∈ jb.slots.filterMap (·.buffer) := by
    intro b hb
    have hbound : b < jb.bufferPool.usedBuffers.length := by
      rw [h.poolLength]
      exact List.mem_range.1 hb
    have hused := List.findIdx?_eq_none_iff.1 hfull _ (List.getElem_mem hbound)
    rw [← List.count_pos_iff, count_buffers, h.owners, inUse, List.getD_eq_getElem _ _ hbound]
    have htrue : jb.bufferPool.usedBuffers[b] = true := by simpa using hused
    rw [htrue]
    decide
  have hle := (List.nodup_range.subperm howned).length_le
  have hfewer : jb.slots.countP (fun s => s.buffer.isSome) < jb.slots.length := by
    refine List.countP_lt_length_iff.2 ⟨jb.slots[i], List.getElem_mem hlt, ?_⟩
    rw [List.getD_eq_getElem _ _ hlt] at hfree
    rw [hfree]
    rfl
  rw [List.length_range, List.length_filterMap_eq_countP] at hle
  rw [h.slotsLength] at hfewer
  omega

/-- Storing a packet leaves none behind the cutoff exactly when it is not behind it itself. -/
theorem noneLate_storePacket (h : Held jb) (hi : i < slotCount)
    (hfree : (jb.slots.getD i {}).buffer = none) (data : Data) (timestamp : UInt32) :
    NoneLate (storePacket jb i data timestamp) ↔
      jb.nextTimestamp - 1 ≤ timestamp.toNat ∧ NoneLate jb := by
  have hlt : i < jb.slots.length := by rw [h.owned.slotsLength]; exact hi
  have hnext : (storePacket jb i data timestamp).nextTimestamp = jb.nextTimestamp := rfl
  rcases storePacket_cases jb i data timestamp with ⟨hget, -⟩ | ⟨buffer, -, -, hslots, -⟩
  · exact absurd hget (get_of_free h.owned hi hfree)
  · unfold NoneLate
    rw [hslots, hnext]
    constructor
    · intro hnone
      refine ⟨hnone _ (List.mem_set hlt _) rfl, fun slot hslot hsome => ?_⟩
      obtain ⟨j, hj, rfl⟩ := List.mem_iff_getElem.1 hslot
      have hne : i ≠ j := by
        grind
      refine hnone _ (List.mem_iff_getElem.2 ⟨j, by simpa using hj, ?_⟩) hsome
      exact List.getElem_set_ne hne _
    · grind

theorem noneLate_same (h : Same jb jb') : NoneLate jb' ↔ NoneLate jb := by
  rw [NoneLate, NoneLate, h.slots, h.nextTimestamp]

/-! ## The timestamps before an input -/

theorem forall_timestamps {q : UInt32 → Prop} :
    (∀ t ∈ timestamps jb, q t) ↔ ∀ slot ∈ jb.slots, slot.buffer.isSome → q slot.timestamp := by
  simp only [timestamps, List.forall_mem_map, List.mem_filter, and_imp]

theorem exists_timestamps {q : UInt32 → Prop} :
    (∃ t ∈ timestamps jb, q t) ↔ ∃ slot ∈ jb.slots, slot.buffer.isSome ∧ q slot.timestamp := by
  simp [timestamps, and_assoc]

theorem countP_timestamps (jb : State) (q : UInt32 → Bool) :
    (timestamps jb).countP q = jb.slots.countP fun slot => slot.buffer.isSome && q slot.timestamp := by
  rw [timestamps, List.countP_map, List.countP_filter]
  congr 1
  funext slot
  exact Bool.and_comm _ _

theorem length_timestamps (jb : State) : (timestamps jb).length = getCurrentDelay jb.slots := by
  rw [timestamps, List.length_map, ← List.countP_eq_length_filter, getCurrentDelay]

theorem receive_clock (jb : State) (timestamp : UInt32) :
    (receive config jb timestamp).nextTimestamp = clockFor config jb timestamp := by
  unfold receive resync clockFor
  split <;> rfl

/-- What is stored when a slot is looked for: the packets that are not too old. -/
theorem timestamps_receive (jb : State) (timestamp : UInt32) :
    timestamps (receive config jb timestamp) =
      recent (clockFor config jb timestamp) (timestamps jb) := by
  unfold timestamps recent
  rw [(receive_state config jb timestamp).1, (releaseSlots_cleared _ _ _).1, receive_clock]
  induction jb.slots with
  | nil => rfl
  | cons slot slots ih =>
    grind [cleared]

theorem evicts_iff (hlength : jb.slots.length = slotCount) :
    Evicts config jb ↔ ¬((timestamps jb).length < slotCount ∧
      (timestamps jb).length < config.maxUsedSlots.toNat) := by
  have hall : (∀ slot ∈ jb.slots, slot.buffer.isSome) ↔
      slotCount ≤ getCurrentDelay jb.slots := by
    rw [getCurrentDelay, ← hlength, ← List.countP_eq_length]
    exact ⟨fun h => h.ge, fun h => le_antisymm List.countP_le_length h⟩
  rw [Evicts, hall, length_timestamps]
  omega

/-- The eviction leaves no packet behind exactly when at most the oldest one was. -/
theorem noneLate_evict_iff (holdest : HasOldest jb) :
    NoneLate (releaseSlot (advance config jb) (oldestSlot jb.slots 0 slotCount 0xFFFFFFFF)) ↔
      (timestamps jb).countP (fun t =>
        decide ((t.toNat : Int) < jb.nextTimestamp + config.step.toNat - 1)) ≤ 1 := by
  obtain ⟨heq, hnone⟩ | ⟨j, hj, heq, hsome, -, hmin⟩ :=
    oldestSlot_spec jb.slots 0 slotCount 0xFFFFFFFF
  · obtain ⟨slot, hslot, hold⟩ := holdest
    exact absurd hold (hnone slot hslot)
  rw [heq, Nat.zero_add, countP_timestamps]
  let late (slot : Slot) : Bool := slot.buffer.isSome &&
    decide ((slot.timestamp.toNat : Int) < jb.nextTimestamp + config.step.toNat - 1)
  change _ ↔ jb.slots.countP late ≤ 1
  have hnew : late { jb.slots[j] with buffer := none } = false := rfl
  have hcount := countP_set_add late jb.slots j { jb.slots.getD j {} with buffer := none } hj
  have hreleased : NoneLate (releaseSlot (advance config jb) j) ↔
      (jb.slots.set j { jb.slots.getD j {} with buffer := none }).countP late = 0 := by
    rw [List.countP_eq_zero]
    refine forall_congr' fun slot => imp_congr_right fun _ => ?_
    simp [late, releaseSlot, advance]
  rw [hreleased]
  rw [List.getD_eq_getElem _ _ hj, hnew] at hcount
  rw [List.getD_eq_getElem _ _ hj]
  dsimp only
  by_cases hlate : late jb.slots[j] = true
  · rw [if_pos hlate] at hcount
    simp only [Bool.false_eq_true, if_false] at hcount
    omega
  · have hzero : jb.slots.countP late = 0 := by
      rw [List.countP_eq_zero]
      intro slot hslot hslotLate
      refine hlate ?_
      have hle : jb.slots[j].timestamp.toNat ≤ slot.timestamp.toNat := by
        simp only [late, Bool.and_eq_true] at hslotLate
        exact hmin slot hslot hslotLate.1
      simp only [late, Bool.and_eq_true, decide_eq_true_eq] at hslotLate ⊢
      exact ⟨hsome, by omega⟩
    simp only [hzero, Bool.false_eq_true, if_false] at hcount ⊢
    omega

/-- The condition in terms of the state in which a slot is looked for. -/
theorem inTime_iff (h : Held jb) {data : Data} (hsize : data.length ≤ slotSize)
    (timestamp : UInt32) :
    InTime config jb data timestamp ↔
      if Evicts config (receive config jb timestamp) then
        HasOldest (receive config jb timestamp) ∧
          (receive config jb timestamp).nextTimestamp + config.step.toNat - 1 ≤
            timestamp.toNat ∧
          NoneLate (releaseSlot (advance config (receive config jb timestamp))
            (oldestSlot (receive config jb timestamp).slots 0 slotCount 0xFFFFFFFF))
      else (receive config jb timestamp).nextTimestamp - 1 ≤ timestamp.toNat := by
  have hlength := (sheds_receive config h timestamp).held.owned.slotsLength
  have hevicts := evicts_iff config hlength
  have hevict := @noneLate_evict_iff config (receive config jb timestamp)
  have holdest : HasOldest (receive config jb timestamp) ↔
      ∃ t ∈ timestamps (receive config jb timestamp), t < 0xFFFFFFFF :=
    (exists_timestamps (q := (· < 0xFFFFFFFF))).symm
  rw [timestamps_receive] at hevicts hevict holdest
  rw [receive_clock] at hevict ⊢
  unfold InTime
  rw [if_pos hsize]
  dsimp only
  by_cases hfree : (recent (clockFor config jb timestamp) (timestamps jb)).length < slotCount ∧
      (recent (clockFor config jb timestamp) (timestamps jb)).length < config.maxUsedSlots.toNat
  · rw [if_pos hfree, if_neg (fun h => hevicts.1 h hfree)]
  · rw [if_neg hfree, if_pos (hevicts.2 hfree), holdest]
    refine and_congr_right fun hfound => and_congr_right fun _ => ?_
    exact (hevict (holdest.2 hfound)).symm

theorem input_promised_iff (h : Held jb) (data : Data) (timestamp : UInt32) :
    Stores (handleInput config jb data timestamp) ↔ InTime config jb data timestamp := by
  by_cases hsize : data.length ≤ slotSize
  · have hsome := handleInput_isSome_iff config h.owned data timestamp
    have hreceived := sheds_receive config h timestamp
    rw [inTime_iff config h hsize]
    cases hput : handleInput config jb data timestamp with
    | none =>
      have hnone : ¬ (Evicts config (receive config jb timestamp) →
          HasOldest (receive config jb timestamp)) := by
        intro holdest
        have hput' := hsome.2 fun _ => holdest
        rw [hput] at hput'
        cases hput'
      obtain ⟨hevicts, hoverdue⟩ := Classical.not_imp.1 hnone
      rw [if_pos hevicts]
      exact ⟨False.elim, fun h => hoverdue h.1⟩
    | some jb' =>
      obtain ⟨i, chosen, hi, hfree, rfl, hcases⟩ := handleInput_stores config h hsize hput
      rcases hcases with ⟨hevicts, hlt, hsame⟩ | ⟨hevicts, hsame⟩
      · have holdest := hsome.1 (by rw [hput]; rfl) hsize hevicts
        have hadvanced : Held (advance config (receive config jb timestamp)) :=
          held_congr hreceived.held rfl rfl
        have hheld := held_congr (held_releaseSlot hadvanced _ hlt) hsame.slots hsame.bufferPool
        have hnext : chosen.nextTimestamp =
            (receive config jb timestamp).nextTimestamp + config.step.toNat :=
          hsame.nextTimestamp
        change NoneLate _ ↔ _
        rw [if_pos hevicts, noneLate_storePacket hheld hi hfree, hnext, noneLate_same hsame]
        exact (and_iff_right holdest).symm
      · have hheld := held_congr hreceived.held hsame.slots hsame.bufferPool
        change NoneLate _ ↔ _
        rw [if_neg hevicts, noneLate_storePacket hheld hi hfree, hsame.nextTimestamp,
          noneLate_same hsame]
        exact and_iff_left (noneLate_receive config jb timestamp)
  · have hlarge : slotSize < data.length := Nat.not_le.1 hsize
    simp only [handleInput, if_pos hlarge, InTime, if_neg hsize]
    exact (forall_timestamps (q := fun t => jb.nextTimestamp - 1 ≤ t.toNat)).symm

theorem receive_nextTimestamp (h : jb.wasReset = false) (timestamp : UInt32) :
    (receive config jb timestamp).nextTimestamp = jb.nextTimestamp := by
  simp [receive, resync, dropOld, h]

/-- The slot for a packet is made by giving back at most one other packet. -/
theorem sheds_chosen {received chosen : State} (h : Held received)
    (hcases : (Evicts config received ∧
        oldestSlot received.slots 0 slotCount 0xFFFFFFFF < slotCount ∧
        Same (releaseSlot (advance config received)
          (oldestSlot received.slots 0 slotCount 0xFFFFFFFF)) chosen) ∨
      (¬ Evicts config received ∧ Same received chosen)) :
    Sheds received chosen ∧
      (chosen.nextTimestamp = received.nextTimestamp + config.step.toNat ∨
        chosen.nextTimestamp = received.nextTimestamp) := by
  rcases hcases with ⟨-, hlt, hsame⟩ | ⟨-, hsame⟩
  · have hadvanced : Held (advance config received) := held_congr h rfl rfl
    have hreleased := held_releaseSlot hadvanced _ hlt
    refine ⟨⟨held_congr hreleased hsame.slots hsame.bufferPool, fun x => ?_⟩,
      .inl hsame.nextTimestamp⟩
    have hcount := stored_releaseSlot hadvanced _ hlt x
    have hstored : stored (advance config received) = stored received := stored_congr rfl rfl
    rw [hstored] at hcount
    rw [stored_congr hsame.slots hsame.bufferPool]
    omega
  · refine ⟨⟨held_congr h hsame.slots hsame.bufferPool, fun x => ?_⟩, .inr hsame.nextTimestamp⟩
    rw [stored_congr hsame.slots hsame.bufferPool]

theorem inv_input (h : Inv config p jb) {data : Data} {timestamp : UInt32}
    (hput : handleInput config jb data timestamp = some jb') :
    Inv config { p.put config jb data timestamp with jitterBuffer := some jb' } jb' := by
  by_cases hsize : data.length ≤ slotSize
  · obtain ⟨i, chosen, hi, hfree, rfl, hcases⟩ := handleInput_stores config h.held hsize hput
    have hreceived := sheds_receive config h.held timestamp
    obtain ⟨hchosen, hnext⟩ := sheds_chosen config hreceived.held hcases
    have haccepts : accepts config jb data timestamp = true := by
      simp [accepts, hsize, countLate_fst]
    refine ⟨rfl, held_storePacket hchosen.held i hi hfree data timestamp, fun x => ?_, ?_, .inr ?_⟩
    · have hcount := h.counts x
      have hleft := (hchosen.stored x).trans (hreceived.stored x)
      have hstored := stored_storePacket hchosen.held i hi hfree data timestamp x
      simp only [Playout.put, haccepts, if_true, List.count_cons, beq_iff_eq]
      omega
    · simp only [Playout.put]
      split
      · exact List.Pairwise.nil
      · exact h.increasing
    · simp only [Playout.put]
      split
      · intro t ht
        cases ht
      next hclock =>
        have hreset : jb.wasReset = false := by simpa [hsize] using hclock
        have hbehind : Behind config p.played jb.nextTimestamp :=
          h.behind.resolve_left fun hidle => by simp [hidle.1] at hreset
        rw [← receive_nextTimestamp config hreset timestamp] at hbehind
        change Behind config p.played chosen.nextTimestamp
        rcases hnext with heq | heq
        · rw [heq]
          exact behind_step config hbehind
        · rw [heq]
          exact hbehind
  · have hlarge : slotSize < data.length := Nat.not_le.1 hsize
    simp only [handleInput, if_pos hlarge, Option.some.injEq] at hput
    subst hput
    have hput : p.put config jb data timestamp = p := by
      simp [Playout.put, accepts, hsize]
    rw [hput]
    exact h.same config ⟨rfl, rfl, rfl, id⟩

theorem step_handleInput (h : p.jitterBuffer = some jb) (data : Data) (timestamp : UInt32) :
    step config p (.call (.handleInput data timestamp)) =
      { p.put config jb data timestamp with
        jitterBuffer := handleInput config jb data timestamp } := by
  simp only [step, JitterSlots.step, h, Option.bind_some, call]

theorem step_handleOutput (h : p.jitterBuffer = some jb) (len : Nat) (offset : Int) (scaled : Bool)
    :
    step config p (.handleOutput len offset scaled) =
      { p.take config jb offset (getInternal config jb len offset).1 with
        jitterBuffer := some (if scaled then (handleOutput config jb len offset).2.2
          else (getInternal config jb len offset).2) } := by
  simp only [step, JitterSlots.step, h, Option.bind_some]

theorem Inv.setMinPacketCount (h : Inv config p jb) (count : UInt32) :
    Inv config { p with jitterBuffer := some (setMinPacketCount jb count) }
      (setMinPacketCount jb count) := by
  unfold JitterBuffer.setMinPacketCount
  split
  · exact h.same config ⟨rfl, rfl, rfl, id⟩
  · have hset : Inv config { p with jitterBuffer := some { jb with minDelay := count } }
        { jb with minDelay := count } := h.same config ⟨rfl, rfl, rfl, id⟩
    exact hset.reset config

/-- The output with a place for the duration or without. -/
theorem inv_output (h : Inv config p jb) (hfits : Fits config p jb len offset) (scaled : Bool) :
    ∃ jb', Inv config (step config p (.handleOutput len offset scaled)) jb' := by
  have hsame := same_output config jb len offset scaled
  rw [step_handleOutput config h.jitterBuffer]
  cases hfind : findTimestamp jb.slots (target config jb offset) with
  | none =>
    rw [getInternal_missed config len hfind] at hsame ⊢
    rw [take_missed config (missPacket_got config jb offset)]
    exact ⟨_, (inv_missed config h offset).same config hsame⟩
  | some i =>
    rw [getInternal_found config len hfind] at hsame ⊢
    obtain ⟨hsize, hclock⟩ := hfits i hfind
    exact ⟨_, (inv_found config h hfind hsize hclock).same config hsame⟩

theorem inv_step (h : Inv config p jb) {e : Event} (hkept : Kept config p e)
    : ∃ jb', Inv config (step config p e) jb' := by
  have hp := h.jitterBuffer
  match e with
  | .call (.handleInput data timestamp) =>
    have hintime : InTime config jb data timestamp := by simpa only [Kept, hp] using hkept
    have hstores := (input_promised_iff config h.held data timestamp).2 hintime
    rw [step_handleInput config hp]
    cases hput : handleInput config jb data timestamp with
    | none =>
      rw [hput] at hstores
      cases hstores
    | some jb' => exact ⟨jb', inv_input config h hput⟩
  | .call (.tick stddevDelay) =>
    simp only [step, JitterSlots.step, hp, Option.bind_some, call]
    exact ⟨_, h.same config (same_tick config jb stddevDelay)⟩
  | .call (.setMinPacketCount count) =>
    simp only [step, JitterSlots.step, hp, Option.bind_some, call]
    exact ⟨_, h.setMinPacketCount config count⟩
  | .call .reset =>
    simp only [step, JitterSlots.step, hp, Option.bind_some, call]
    exact ⟨_, h.reset config⟩
  | .call .getAndResetLostPacketCount =>
    simp only [step, JitterSlots.step, hp, Option.bind_some, call]
    exact ⟨_, h.same config ⟨rfl, rfl, rfl, id⟩⟩
  | .handleOutput len offset scaled =>
    have hfits : Fits config p jb len offset := by simpa only [Kept, hp] using hkept
    exact inv_output config h hfits scaled

/-- What came out was put in. -/
theorem Inv.returned (h : Inv config p jb) :
    p.returned.Subperm p.accepted :=
  List.subperm_ext_iff.2 fun x _ => (Nat.le_add_right _ _).trans (h.counts x)

/-- The clock moves by one step when the output at offset 0 does not reset the buffer. -/
theorem getInternal_clock (jb : State) (len : Nat) (offset : Int)
    (hresets : ¬ Resets config jb offset) :
    (getInternal config jb len offset).2.nextTimestamp = clockAfter config jb offset := by
  cases hfind : findTimestamp jb.slots (target config jb offset) with
  | some i =>
    rw [getInternal_found config len hfind]
    exact (takePacket_state config jb len offset i).2.2
  | none =>
    rw [getInternal_missed config len hfind]
    have hkeeps : ¬ (jb.needBuffering = false ∧
        tooManyLosses config (noteLoss jb offset) = true) := fun h => hresets ⟨hfind, h⟩
    rw [(same_missPacket config jb offset hkeeps).nextTimestamp, advanceAt_nextTimestamp]

/-- An output returns what it promises exactly when a packet that is found fits. -/
theorem returns_getInternal (h : Held jb) (len : Nat) (offset : Int) :
    Returns config jb offset (getInternal config jb len offset).1 ↔
      ∀ i ∈ findTimestamp jb.slots (target config jb offset),
        (jb.slots.getD i {}).size ≤ len := by
  cases hfind : findTimestamp jb.slots (target config jb offset) with
  | none =>
    rw [getInternal_missed config len hfind]
    refine ⟨fun _ i hi => (Option.some_ne_none i hi.symm).elim, fun _ => ?_⟩
    rcases missPacket_got config jb offset with heq | heq
    · rw [heq]
      exact findTimestamp_none hfind
    · rw [heq]
      exact findTimestamp_none hfind
  | some i =>
    rw [getInternal_found config len hfind]
    refine (returns_copyPacket config h hfind).trans ⟨fun hle j hj => ?_, fun hle => hle i rfl⟩
    cases hj
    exact hle

/-- When a packet comes out of a clock that stands still, it is the first one. -/
theorem played_of_increasing (h : Inv config p jb)
    (hfind : findTimestamp jb.slots (target config jb offset) = some i) (hzero : offset = 0)
    (hstep : config.step = 0)
    (hincreasing : (p.take config jb offset (copyPacket jb len i)).played.Pairwise (· > ·)) :
    p.played = [] := by
  refine List.eq_nil_iff_forall_not_mem.2 fun t ht => ?_
  have hplayed : (p.take config jb offset (copyPacket jb len i)).played =
      target config jb offset :: p.played := by
    unfold copyPacket
    dsimp only
    split <;> simp only [Playout.take, if_pos hzero]
  rw [hplayed] at hincreasing
  have hlt := (List.pairwise_cons.1 hincreasing).1 t ht
  have heq := (behind_of_found config h hfind t ht).2 hstep
  have htarget : target config jb offset = jb.nextTimestamp := by simp [target, hzero]
  omega

theorem promised_iff (h : Inv config p jb) (e : Event) :
    Promised config p e ↔ Kept config p e := by
  have hp := h.jitterBuffer
  match e with
  | .call (.handleInput data timestamp) =>
    simpa only [Promised, PromisedAt, Kept, hp] using
      input_promised_iff config h.held data timestamp
  | .call (.tick _) | .call (.setMinPacketCount _) | .call .reset
  | .call .getAndResetLostPacketCount => simp only [Promised, PromisedAt, Kept, hp]
  | .handleOutput len offset scaled =>
    simp only [Promised, PromisedAt, Kept, hp]
    have hreturns := returns_getInternal config h.held len offset
    constructor
    · rintro ⟨hgot, -, -, hincreasing⟩ i hfind
      refine ⟨hreturns.1 hgot i hfind, fun hzero hstep => ?_⟩
      rw [step_handleOutput config hp, getInternal_found config len hfind] at hincreasing
      exact played_of_increasing config h hfind hzero hstep hincreasing
    · intro hfits
      obtain ⟨jb', hinv⟩ := inv_output config h hfits scaled
      refine ⟨hreturns.2 fun i hi => (hfits i hi).1, hinv.returned config,
        fun hzero hresets => ?_, hinv.increasing⟩
      rw [getInternal_clock config jb len offset hresets, clockAfter, if_pos hzero]

/-- In every run of the calls, the inputs and outputs keep their promises exactly when each
packet is in time, and each one that comes out fits. -/
theorem playout_promised (nextTimestamp : Int) (latePacketCount : UInt32) (es : List Event) :
    Guarded (step config) (Promised config) (start nextTimestamp latePacketCount) es ↔
      Guarded (step config) (Kept config) (start nextTimestamp latePacketCount) es := by
  have hinv : ∀ p e, (∃ jb, Inv config p jb) → True → Kept config p e →
      ∃ jb, Inv config (step config p e) jb := fun _ _ ⟨_, h⟩ _ hkept => inv_step config h hkept
  have hiff : ∀ p e, (∃ jb, Inv config p jb) → True → (Promised config p e ↔ Kept config p e) :=
    fun _ e ⟨_, h⟩ _ => promised_iff config h e
  exact guarded_congr_within hinv hiff es _ ⟨_, inv_start config nextTimestamp latePacketCount⟩
    (guarded_of_forall (fun _ _ => trivial) es _)

/-- The second packet is 900 ms behind the first one, and 540 ms behind the clock. -/
theorem latePacket_stored : ¬ Guarded (step config60) (Promised config60) (start 0 0)
    [.call (.handleInput [1] 1000), .call (.handleInput [2] 100)] := by
  decide +kernel

end TelegramPub.Ports.JitterPlayout
