import TelegramPub.Verified.Bytes
import Mathlib.Algebra.Order.Ring.Rat

/-!
# JitterBuffer and BufferPool

64 slots for packets, whose bytes are in the buffers of a pool.  A buffer is the number of its
place in the pool, and `none` is the null pointer.  The calls run under the lock of the jitter
buffer, so each is one step.

The timestamps of packets are unsigned words, and the next timestamp is a number of 64 bits with
a sign; it stays far away from its bounds.  What depends on the clock are only the deviations,
whose spread `Tick` turns into a number of packets.  That number is an argument here
(`stddevDelay`), so any clock and any rounding is allowed; the deviations themselves are left
out.

A slot outside of the array gives `none`.
-/

namespace TelegramPub.Ports.JitterBuffer

open Verified.Bytes

/-- `JITTER_SLOT_COUNT`. -/
abbrev slotCount : Nat := 64

/-- `JITTER_SLOT_SIZE`. -/
abbrev slotSize : Nat := 1024

/-- The pool, the bytes in its buffers, and whether `Reuse` was called with a buffer that is not
in use; the code does not keep the last. -/
structure BufferPool where
  usedBuffers : List Bool := List.replicate slotCount false
  buffers : List Data := List.replicate slotCount []
  misused : Bool := false

/-- `Get`. -/
def BufferPool.get (pool : BufferPool) : Option Nat × BufferPool :=
  match pool.usedBuffers.findIdx? (! ·) with
  | some i => (some i, { pool with usedBuffers := pool.usedBuffers.set i true })
  | none => (none, pool)

/-- `Reuse`. -/
def BufferPool.reuse (pool : BufferPool) (buffer : Nat) : BufferPool :=
  { pool with
    usedBuffers := pool.usedBuffers.set buffer false
    misused := pool.misused || !(pool.usedBuffers.getD buffer false) }

/-- `memcpy` into a buffer. -/
def BufferPool.write (pool : BufferPool) (buffer : Nat) (data : Data) : BufferPool :=
  { pool with
    buffers := pool.buffers.set buffer (data ++ (pool.buffers.getD buffer []).drop data.length) }

/-- `jitter_packet_t` in a slot. -/
structure Slot where
  buffer : Option Nat := none
  size : Nat := 0
  timestamp : UInt32 := 0
  deriving DecidableEq

/-- What the server configures, and the length of a step. -/
structure Config where
  step : UInt32
  minMinDelay : UInt32
  maxMinDelay : UInt32
  maxUsedSlots : UInt32
  lossesToReset : UInt32
  resyncThreshold : Rat

/-- The default values for packets of 60 ms. -/
def config60 : Config where
  step := 60
  minMinDelay := 1
  maxMinDelay := 10
  maxUsedSlots := 20
  lossesToReset := 20
  resyncThreshold := 1

/-- The jitter buffer; the constructor leaves the fields without a default as they are. -/
structure State where
  bufferPool : BufferPool := {}
  slots : List Slot := List.replicate slotCount {}
  nextTimestamp : Int
  minDelay : UInt32 := 6
  lastPutTimestamp : UInt32 := 0
  lostCount : Nat := 0
  lostSinceReset : Nat := 0
  gotSinceReset : Nat := 0
  wasReset : Bool := true
  needBuffering : Bool := true
  delayHistory : List Int := List.replicate 64 0
  lateHistory : List Int := List.replicate 64 0
  latePacketCount : UInt32
  dontIncMinDelay : UInt32 := 0
  dontDecMinDelay : UInt32 := 0
  lostPackets : Int := 0
  outstandingDelayChange : Int := 0
  dontChangeDelay : UInt32 := 0

/-- `GetCurrentDelay`. -/
def getCurrentDelay (slots : List Slot) : Nat := slots.countP (·.buffer.isSome)

/-- A loop that gives back the buffers of some slots. -/
def releaseSlots (p : Slot → Bool) : List Slot → BufferPool → List Slot × BufferPool
  | [], pool => ([], pool)
  | slot :: slots, pool =>
    match slot.buffer with
    | none =>
      let rest := releaseSlots p slots pool
      (slot :: rest.1, rest.2)
    | some buffer =>
      if p slot then
        let rest := releaseSlots p slots (pool.reuse buffer)
        ({ slot with buffer := none } :: rest.1, rest.2)
      else
        let rest := releaseSlots p slots pool
        (slot :: rest.1, rest.2)

/-- `Reset`. -/
def reset (jb : State) : State :=
  let (slots, bufferPool) := releaseSlots (fun _ => true) jb.slots jb.bufferPool
  { jb with
    slots, bufferPool
    wasReset := true
    needBuffering := true
    lastPutTimestamp := 0
    delayHistory := List.replicate 64 0
    lateHistory := List.replicate 64 0
    lostSinceReset := 0
    gotSinceReset := 0
    outstandingDelayChange := 0
    dontChangeDelay := 0 }

/-- The constructor. -/
def create (nextTimestamp : Int) (latePacketCount : UInt32) : State :=
  reset { nextTimestamp, latePacketCount }

/-- `SetMinPacketCount`. -/
def setMinPacketCount (jb : State) (count : UInt32) : State :=
  if jb.minDelay = count then jb else reset { jb with minDelay := count }

/-- `GetAndResetLostPacketCount`. -/
def getAndResetLostPacketCount (jb : State) : Int × State :=
  (jb.lostPackets, { jb with lostPackets := 0 })

variable (config : Config)

/-- `Advance`. -/
def advance (jb : State) : State :=
  { jb with nextTimestamp := jb.nextTimestamp + config.step.toNat }

/-! ### Output -/

/-- What `GetInternal` returns; with a packet its size and the bytes that were copied, `none`
when they do not fit. -/
inductive Got where
  | ok (size : Nat) (bytes : Option Data)
  | missing
  | buffering
  deriving DecidableEq

/-- The slot of a packet that is stored. -/
def findTimestamp (slots : List Slot) (timestamp : Int) : Option Nat :=
  slots.findIdx? fun slot => slot.buffer.isSome && decide ((slot.timestamp.toNat : Int) = timestamp)

/-- Give back the buffer of one slot. -/
def releaseSlot (jb : State) (i : Nat) : State :=
  let slot := jb.slots.getD i {}
  { jb with
    bufferPool := match slot.buffer with
      | some buffer => jb.bufferPool.reuse buffer
      | none => jb.bufferPool
    slots := jb.slots.set i { slot with buffer := none } }

/-- The counts of losses. -/
def noteLoss (jb : State) (offset : Int) : State :=
  let jb := { jb with lostCount := jb.lostCount + 1 }
  if offset = 0 then
    { jb with lostPackets := jb.lostPackets + 1, lostSinceReset := jb.lostSinceReset + 1 }
  else jb

/-- Whether so many packets are lost that the buffer is reset. -/
def tooManyLosses (jb : State) : Bool :=
  decide (config.lossesToReset.toNat ≤ jb.lostCount) ||
    (decide ((jb.minDelay * 25).toNat < jb.gotSinceReset) &&
      decide (jb.gotSinceReset / 2 < jb.lostSinceReset))

/-- A lost packet, and the reset after too many of them. -/
def countLoss (jb : State) (offset : Int) : State :=
  let jb := noteLoss jb offset
  if tooManyLosses config jb then
    let delay := getCurrentDelay jb.slots
    reset { jb with
      dontIncMinDelay := 16
      dontDecMinDelay := jb.dontDecMinDelay + 128
      nextTimestamp :=
        if delay < jb.minDelay.toNat then jb.nextTimestamp - (jb.minDelay.toNat - delay : Nat)
        else jb.nextTimestamp
      lostCount := 0 }
  else jb

/-- The result for a packet, in a buffer of `len` bytes. -/
def copyPacket (jb : State) (len i : Nat) : Got :=
  let slot := jb.slots.getD i {}
  if len < slot.size then .ok len none
  else .ok slot.size (some ((jb.bufferPool.buffers.getD (slot.buffer.getD 0) []).take slot.size))

/-- The playout clock, which only the output at offset 0 moves. -/
def advanceAt (jb : State) (offset : Int) : State :=
  if offset = 0 then advance config jb else jb

/-- The first half of `GetInternal`: the packet is in slot `i`. -/
def takePacket (jb : State) (len : Nat) (offset : Int) (i : Nat) : Got × State :=
  (copyPacket jb len i,
    { advanceAt config (releaseSlot jb i) offset with lostCount := 0, needBuffering := false })

/-- The second half of `GetInternal`: no packet is found. -/
def missPacket (jb : State) (offset : Int) : Got × State :=
  let jb := advanceAt config jb offset
  if jb.needBuffering then (.buffering, jb) else (.missing, countLoss config jb offset)

/-- `GetInternal` with a buffer of `len` bytes. -/
def getInternal (jb : State) (len : Nat) (offset : Int) : Got × State :=
  let timestampToGet := jb.nextTimestamp + offset * config.step.toNat
  match findTimestamp jb.slots timestampToGet with
  | some i => takePacket config jb len offset i
  | none => missPacket config jb offset

/-- `GetInternal` finds no packet, and resets the buffer. -/
def Resets (jb : State) (offset : Int) : Prop :=
  findTimestamp jb.slots (jb.nextTimestamp + offset * config.step.toNat) = none ∧
    jb.needBuffering = false ∧ tooManyLosses config (noteLoss jb offset) = true

instance (jb : State) (offset : Int) : Decidable (Resets config jb offset) :=
  inferInstanceAs (Decidable (_ ∧ _ ∧ _))

/-- The duration that a frame is played, and the change that is left. -/
def scaledDuration (outstandingDelayChange : Int) : Int × Int :=
  if outstandingDelayChange ≠ 0 then
    if outstandingDelayChange < 0 then (40, outstandingDelayChange + 20)
    else (80, outstandingDelayChange - 20)
  else (60, outstandingDelayChange)

/-- The size that `HandleOutput` returns. -/
def Got.size : Got → Nat
  | .ok size _ => size
  | .missing => 0
  | .buffering => 0

/-- `HandleOutput` with a place for the duration. -/
def handleOutput (jb : State) (len : Nat) (offsetInSteps : Int) :
    Got × Int × State :=
  let (got, jb) := getInternal config jb len offsetInSteps
  let (playbackScaledDuration, outstandingDelayChange) := scaledDuration jb.outstandingDelayChange
  (got, playbackScaledDuration, { jb with outstandingDelayChange })

@[simp] theorem reset_outstanding (jb : State) : (reset jb).outstandingDelayChange = 0 := rfl

@[simp] theorem noteLoss_outstanding (jb : State) (offset : Int) :
    (noteLoss jb offset).outstandingDelayChange = jb.outstandingDelayChange := by
  unfold noteLoss
  split <;> rfl

@[simp] theorem advanceAt_outstanding (jb : State) (offset : Int) :
    (advanceAt config jb offset).outstandingDelayChange = jb.outstandingDelayChange := by
  unfold advanceAt
  split <;> rfl

@[simp] theorem advanceAt_needBuffering (jb : State) (offset : Int) :
    (advanceAt config jb offset).needBuffering = jb.needBuffering := by
  unfold advanceAt
  split <;> rfl

@[simp] theorem tooManyLosses_advanceAt (jb : State) (offset : Int) :
    tooManyLosses config (noteLoss (advanceAt config jb offset) offset) =
      tooManyLosses config (noteLoss jb offset) := by
  unfold advanceAt noteLoss
  split <;> rfl

/-! ### Input -/

/-- The place of the oldest packet, by a search that begins with the largest timestamp. -/
def oldestSlot : List Slot → Nat → Nat → UInt32 → Nat
  | [], _, toRemove, _ => toRemove
  | slot :: slots, i, toRemove, bestTimestamp =>
    if slot.buffer.isSome ∧ slot.timestamp < bestTimestamp then
      oldestSlot slots (i + 1) i slot.timestamp
    else oldestSlot slots (i + 1) toRemove bestTimestamp

/-- The slot for a packet.  Without a free one, or with too many in use, it is the oldest. -/
def chooseSlot (jb : State) : Option (Nat × State) :=
  match jb.slots.findIdx? (·.buffer.isNone) with
  | some i =>
    if config.maxUsedSlots.toNat ≤ getCurrentDelay jb.slots then evict jb else some (i, jb)
  | none => evict jb
where
  evict (jb : State) : Option (Nat × State) :=
    let toRemove := oldestSlot jb.slots 0 slotCount 0xFFFFFFFF
    if toRemove < slotCount then some (toRemove, releaseSlot (advance config jb) toRemove) else none

/-- A packet in a slot. -/
def storePacket (jb : State) (i : Nat) (data : Data) (timestamp : UInt32) : State :=
  let (buffer, pool) := jb.bufferPool.get
  { jb with
    bufferPool := match buffer with
      | some buffer => pool.write buffer data
      | none => pool
    slots := jb.slots.set i { buffer, size := data.length, timestamp } }

/-- The first packet after a reset says where the output begins. -/
def resync (jb : State) (timestamp : UInt32) : State :=
  if jb.wasReset then
    { jb with
      wasReset := false
      outstandingDelayChange := 0
      nextTimestamp := (timestamp.toNat : Int) - ((config.step * jb.minDelay).toNat : Int) }
  else jb

/-- The packets that are too old. -/
def dropOld (jb : State) : State :=
  let tooOld (slot : Slot) : Bool := decide ((slot.timestamp.toNat : Int) < jb.nextTimestamp - 1)
  let (slots, bufferPool) := releaseSlots tooOld jb.slots jb.bufferPool
  { jb with slots, bufferPool }

/-- Whether the packet is late, and whether it is dropped.  The second condition is never
reached. -/
def countLate (jb : State) (timestamp : UInt32) : Bool × State :=
  if (timestamp.toNat : Int) < jb.nextTimestamp then
    (false, { jb with
      latePacketCount := jb.latePacketCount + 1
      lostPackets := jb.lostPackets - 1 })
  else if (timestamp.toNat : Int) < jb.nextTimestamp - 1 then
    (true, { jb with latePacketCount := jb.latePacketCount + 1 })
  else (false, jb)

/-- The first half of `PutInternal`: the clock, and the packets that are too old. -/
def receive (jb : State) (timestamp : UInt32) : State :=
  dropOld (resync config { jb with gotSinceReset := jb.gotSinceReset + 1 } timestamp)

/-- The newest timestamp. -/
def notePut (jb : State) (timestamp : UInt32) : State :=
  if jb.lastPutTimestamp < timestamp then { jb with lastPutTimestamp := timestamp } else jb

/-- `PutInternal`, as `HandleInput` calls it. -/
def handleInput (jb : State) (data : Data) (timestamp : UInt32) : Option State :=
  if slotSize < data.length then some jb
  else
    let (dropped, jb) := countLate (receive config jb timestamp) timestamp
    if dropped then some jb
    else
      (chooseSlot config (notePut jb timestamp)).map fun (i, jb) => storePacket jb i data timestamp

/-! ### Tick -/

/-- `lateHistory`, and the resync after too many late packets. -/
def tickLate (jb : State) : Bool × State :=
  let lateHistory := jb.latePacketCount.toInt32.toInt :: jb.lateHistory.take 63
  let avgLate16 : Rat := ((lateHistory.take 16).sum : Rat) / 16
  (lateHistory.all (· ≤ 0),
    { jb with
      lateHistory
      latePacketCount := 0
      wasReset := jb.wasReset || decide (config.resyncThreshold ≤ avgLate16) })

/-- The change of `minDelay` by the spread of the deviations. -/
def tickMinDelay (jb : State) (stddevDelay : UInt32) : State :=
  let stddevDelay := if stddevDelay < config.minMinDelay then config.minMinDelay else stddevDelay
  let stddevDelay := if config.maxMinDelay < stddevDelay then config.maxMinDelay else stddevDelay
  if stddevDelay ≠ jb.minDelay then
    let diff := (stddevDelay - jb.minDelay).toInt32.toInt
    let jb := if 0 < diff then { jb with dontDecMinDelay := 100 } else jb
    let diff := max (-1) (min 1 diff)
    if (0 < diff ∧ jb.dontIncMinDelay = 0) ∨ (diff < 0 ∧ jb.dontDecMinDelay = 0) then
      { jb with
        minDelay := if diff < 0 then jb.minDelay - 1 else jb.minDelay + 1
        outstandingDelayChange := jb.outstandingDelayChange + diff * 60
        dontChangeDelay := jb.dontChangeDelay + 32
        dontDecMinDelay := if diff < 0 then jb.dontDecMinDelay + 25 else jb.dontDecMinDelay
        dontIncMinDelay := if 0 < diff then 25 else jb.dontIncMinDelay }
    else jb
  else jb

/-- The change by the average delay. -/
def tickDelayChange (jb : State) (avgDelay : Rat) : State :=
  let jb :=
    if jb.dontChangeDelay = 0 then
      if (jb.minDelay.toNat : Rat) + 1 / 2 < avgDelay then
        { jb with
          outstandingDelayChange := jb.outstandingDelayChange -
            (if ((jb.minDelay + 2).toNat : Rat) < avgDelay then 60 else 20)
          dontChangeDelay := jb.dontChangeDelay + 10 }
      else if avgDelay < (jb.minDelay.toNat : Rat) - 3 / 10 then
        { jb with
          outstandingDelayChange := jb.outstandingDelayChange + 20
          dontChangeDelay := jb.dontChangeDelay + 10 }
      else jb
    else jb
  if 0 < jb.dontChangeDelay then { jb with dontChangeDelay := jb.dontChangeDelay - 1 } else jb

/-- `Tick`. -/
def tick (jb : State) (stddevDelay : UInt32) : State :=
  let (absolutelyNoLatePackets, jb) := tickLate config jb
  let jb :=
    if absolutelyNoLatePackets ∧ 0 < jb.dontDecMinDelay then
      { jb with dontDecMinDelay := jb.dontDecMinDelay - 1 }
    else jb
  let delayHistory : List Int := (getCurrentDelay jb.slots : Int) :: jb.delayHistory.take 63
  let avgDelay : Rat := ((delayHistory.take 32).sum : Rat) / 32
  tickDelayChange (tickMinDelay config { jb with delayHistory } stddevDelay) avgDelay

/-! ### Calls -/

/-- The calls of the other threads; the output is taken by the decoder. -/
inductive Call where
  | handleInput (data : Data) (timestamp : UInt32)
  | tick (stddevDelay : UInt32)
  | setMinPacketCount (count : UInt32)
  | reset
  | getAndResetLostPacketCount

/-- One call; `none` is the slot outside of the array. -/
def call (jb : State) : Call → Option State
  | .handleInput data timestamp => handleInput config jb data timestamp
  | .tick stddevDelay => some (tick config jb stddevDelay)
  | .setMinPacketCount count => some (setMinPacketCount jb count)
  | .reset => some (reset jb)
  | .getAndResetLostPacketCount => some (getAndResetLostPacketCount jb).2

end TelegramPub.Ports.JitterBuffer
