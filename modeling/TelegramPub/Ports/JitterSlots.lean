import TelegramPub.Verified.Machine
import TelegramPub.Ports.JitterBuffer
import Mathlib.Data.List.GetD

/-!
# The slots of the jitter buffer

Every buffer of the pool that is in use belongs to exactly one slot.  The count of the slots
that hold a buffer says both: it is 1 for a buffer in use, and 0 for the others (`Owned`).

A packet that finds no free slot takes that of the oldest one.  The search for it begins with
the largest timestamp, so it finds no packet that has this timestamp, and the code goes on with
the slot after the last one.
-/

namespace TelegramPub.Ports.JitterSlots

open Verified.Bytes Verified.Machine Ports.JitterBuffer

variable (config : Config)

/-- The number of slots that hold a buffer. -/
def owners (slots : List Slot) (b : Nat) : Nat := slots.countP (·.buffer = some b)

/-- 1 for a buffer in use, 0 for the others. -/
def inUse (pool : BufferPool) (b : Nat) : Nat := (pool.usedBuffers.getD b false).toNat

/-- Every buffer in use has one owner, the others have none. -/
structure Owned (slots : List Slot) (pool : BufferPool) : Prop where
  slotsLength : slots.length = slotCount
  poolLength : pool.usedBuffers.length = slotCount
  owners : ∀ b, owners slots b = inUse pool b
  notMisused : pool.misused = false

theorem inUse_reuse (pool : BufferPool) (buffer b : Nat) :
    inUse (pool.reuse buffer) b = if b = buffer then 0 else inUse pool b := by
  by_cases hb : b = buffer
  · subst hb
    by_cases hlt : b < pool.usedBuffers.length
    · simp [inUse, BufferPool.reuse, hlt]
    · simp [inUse, BufferPool.reuse, Nat.le_of_not_lt hlt]
  · simp [inUse, BufferPool.reuse, hb, Ne.symm hb]

theorem reuse_misused (pool : BufferPool) (buffer : Nat) (h : 0 < inUse pool buffer) :
    (pool.reuse buffer).misused = pool.misused := by
  cases hused : pool.usedBuffers.getD buffer false with
  | true => simp only [BufferPool.reuse, hused, Bool.not_true, Bool.or_false]
  | false =>
    rw [inUse, hused] at h
    cases h

@[simp] theorem reuse_length (pool : BufferPool) (buffer : Nat) :
    (pool.reuse buffer).usedBuffers.length = pool.usedBuffers.length :=
  List.length_set

theorem owners_cons (slot : Slot) (slots : List Slot) (b : Nat) :
    owners (slot :: slots) b = owners slots b + if slot.buffer = some b then 1 else 0 := by
  simp [owners, List.countP_cons]

/-- A slot is replaced: what it counted goes, what the new one counts comes. -/
theorem countP_set_add (p : Slot → Bool) (slots : List Slot) (i : Nat) (slot : Slot)
    (hi : i < slots.length) :
    (slots.set i slot).countP p + (if p (slots.getD i {}) then 1 else 0) =
      slots.countP p + if p slot then 1 else 0 := by
  induction slots generalizing i with
  | nil => cases hi
  | cons head slots ih =>
    grind

theorem owners_set (slots : List Slot) (i b : Nat) (slot : Slot) (hi : i < slots.length) :
    owners (slots.set i slot) b + (if (slots.getD i {}).buffer = some b then 1 else 0) =
      owners slots b + if slot.buffer = some b then 1 else 0 := by
  simpa only [owners, decide_eq_true_eq] using
    countP_set_add (fun s => decide (s.buffer = some b)) slots i slot hi

theorem owners_pos (slots : List Slot) (i b : Nat) (h : (slots.getD i {}).buffer = some b) :
    0 < owners slots b := by
  have hi : i < slots.length := by
    grind
  have hmem : slots[i] ∈ slots := List.getElem_mem hi
  rw [List.getD_eq_getElem _ _ hi] at h
  exact List.countP_pos_iff.2 ⟨slots[i], hmem, by simpa using h⟩

/-! ## Giving buffers back -/

variable {slots : List Slot} {pool : BufferPool}

theorem Owned.used (h : Owned slots pool) {i b : Nat} (hbuffer : (slots.getD i {}).buffer = some b)
    : 0 < inUse pool b := by
  rw [← h.owners]
  exact owners_pos slots i b hbuffer

theorem inUse_le_one (pool : BufferPool) (b : Nat) : inUse pool b ≤ 1 := Bool.toNat_le _

variable {jb jb' : State}

theorem owned_releaseSlot (h : Owned jb.slots jb.bufferPool) (i : Nat) (hi : i < slotCount) :
    Owned (releaseSlot jb i).slots (releaseSlot jb i).bufferPool := by
  have hlt : i < jb.slots.length := by rw [h.slotsLength]; exact hi
  have hset := fun b => owners_set jb.slots i b { jb.slots.getD i {} with buffer := none } hlt
  have hlength : (releaseSlot jb i).slots.length = slotCount :=
    List.length_set.trans h.slotsLength
  cases hbuffer : (jb.slots.getD i {}).buffer with
  | none =>
    have hpool : (releaseSlot jb i).bufferPool = jb.bufferPool := by
      simp only [releaseSlot, hbuffer]
    refine ⟨hlength, hpool ▸ h.poolLength, fun b => ?_, hpool ▸ h.notMisused⟩
    have hb := hset b
    rw [hbuffer] at hb
    rw [hpool, ← h.owners b]
    simpa [releaseSlot] using hb
  | some buffer =>
    have hpool : (releaseSlot jb i).bufferPool = jb.bufferPool.reuse buffer := by
      simp only [releaseSlot, hbuffer]
    have hused := h.used hbuffer
    refine ⟨hlength, ?_, fun b => ?_, ?_⟩
    · rw [hpool, reuse_length, h.poolLength]
    · have hb := hset b
      have hle := inUse_le_one jb.bufferPool b
      rw [hbuffer, h.owners b, if_neg (Option.some_ne_none b).symm] at hb
      change owners (jb.slots.set i { jb.slots.getD i {} with buffer := none }) b = _
      rw [hpool, inUse_reuse]
      by_cases heq : b = buffer
      · rw [if_pos heq]
        rw [if_pos (congrArg some heq.symm)] at hb
        omega
      · grind
    · rw [hpool, reuse_misused jb.bufferPool buffer hused, h.notMisused]

/-- The loop that gives back the buffers of some slots; `kept` counts the owners among the
slots before. -/
theorem releaseSlots_owned (p : Slot → Bool) (slots : List Slot) (pool : BufferPool)
    (kept : Nat → Nat) (hmisused : pool.misused = false)
    (h : ∀ b, kept b + owners slots b = inUse pool b) :
    (∀ b, kept b + owners (releaseSlots p slots pool).1 b =
        inUse (releaseSlots p slots pool).2 b) ∧
      (releaseSlots p slots pool).2.misused = false := by
  induction slots generalizing pool kept with
  | nil => exact ⟨h, hmisused⟩
  | cons slot slots ih =>
    cases hbuffer : slot.buffer with
    | none =>
      have hrest := ih pool kept hmisused fun b => by simpa [owners_cons, hbuffer] using h b
      simpa [releaseSlots, hbuffer, owners_cons] using hrest
    | some buffer =>
      have hone := h buffer
      have hle := inUse_le_one pool buffer
      rw [owners_cons, if_pos hbuffer] at hone
      cases hp : p slot with
      | true =>
        have hmisused' : (pool.reuse buffer).misused = false := by
          rw [reuse_misused pool buffer (by omega), hmisused]
        have hrest := ih (pool.reuse buffer) kept hmisused' fun b => by
          have hb := h b
          rw [owners_cons, hbuffer] at hb
          rw [inUse_reuse]
          by_cases heq : b = buffer
          · grind
          · rw [if_neg heq, ← hb, if_neg (by simpa using Ne.symm heq), Nat.add_zero]
        simpa [releaseSlots, hbuffer, hp, owners_cons] using hrest
      | false =>
        have hrest := ih pool (fun b => kept b + if some buffer = some b then 1 else 0)
          hmisused fun b => by
            have hb := h b
            rw [owners_cons, hbuffer] at hb
            omega
        simp only [releaseSlots, hbuffer, hp, Bool.false_eq_true, if_false, owners_cons]
        refine ⟨fun b => ?_, hrest.2⟩
        rw [← hrest.1 b]
        omega

theorem releaseSlots_length (p : Slot → Bool) (slots : List Slot) (pool : BufferPool) :
    (releaseSlots p slots pool).1.length = slots.length ∧
      (releaseSlots p slots pool).2.usedBuffers.length = pool.usedBuffers.length := by
  induction slots generalizing pool with
  | nil => exact ⟨rfl, rfl⟩
  | cons slot slots ih =>
    cases hbuffer : slot.buffer with
    | none => simpa [releaseSlots, hbuffer] using ih pool
    | some buffer =>
      cases hp : p slot with
      | true => simpa [releaseSlots, hbuffer, hp] using ih (pool.reuse buffer)
      | false => simpa [releaseSlots, hbuffer, hp] using ih pool

theorem owned_releaseSlots (p : Slot → Bool) (h : Owned slots pool)
    : Owned (releaseSlots p slots pool).1 (releaseSlots p slots pool).2 := by
  obtain ⟨hslots, hpool⟩ := releaseSlots_length p slots pool
  have howners : ∀ b, 0 + owners slots b = inUse pool b := by simpa using h.owners
  obtain ⟨hafter, hmisused⟩ := releaseSlots_owned p slots pool (fun _ => 0) h.notMisused howners
  exact ⟨hslots.trans h.slotsLength, hpool.trans h.poolLength, by simpa using hafter, hmisused⟩

/-! ## Taking a buffer -/

theorem get_some {pool' : BufferPool} {buffer : Nat} (h : pool.get = (some buffer, pool')) :
    buffer < pool.usedBuffers.length ∧ inUse pool buffer = 0 ∧
      pool' = { pool with usedBuffers := pool.usedBuffers.set buffer true } := by
  unfold BufferPool.get at h
  cases hfind : pool.usedBuffers.findIdx? (! ·) with
  | none => simp [hfind] at h
  | some i =>
    simp only [hfind, Prod.mk.injEq, Option.some.injEq] at h
    obtain ⟨rfl, rfl⟩ := h
    obtain ⟨hlt, hfree, -⟩ := List.findIdx?_eq_some_iff_getElem.1 hfind
    refine ⟨hlt, ?_, rfl⟩
    rw [inUse, List.getD_eq_getElem _ _ hlt]
    simpa using hfree

theorem get_none {pool' : BufferPool} (h : pool.get = (none, pool')) : pool' = pool := by
  unfold BufferPool.get at h
  cases hfind : pool.usedBuffers.findIdx? (! ·) with
  | none => simpa [hfind] using h.symm
  | some i => simp [hfind] at h

theorem inUse_take (pool : BufferPool) (buffer b : Nat) (h : buffer < pool.usedBuffers.length) :
    inUse { pool with usedBuffers := pool.usedBuffers.set buffer true } b =
      if b = buffer then 1 else inUse pool b := by
  by_cases hb : b = buffer
  · subst hb
    simp [inUse, h]
  · simp [inUse, hb, Ne.symm hb]

theorem owned_storePacket (h : Owned jb.slots jb.bufferPool) (i : Nat) (hi : i < slotCount)
    (hfree : (jb.slots.getD i {}).buffer = none) (data : Data) (timestamp : UInt32) :
    Owned (storePacket jb i data timestamp).slots (storePacket jb i data timestamp).bufferPool := by
  have hlt : i < jb.slots.length := by rw [h.slotsLength]; exact hi
  cases hget : jb.bufferPool.get with
  | mk buffer pool =>
    have hset := fun b => owners_set jb.slots i b
      { buffer, size := data.length, timestamp } hlt
    simp only [hfree, reduceCtorEq, if_false, Nat.add_zero] at hset
    cases buffer with
    | none =>
      have hpool := get_none hget
      subst hpool
      have hstored : storePacket jb i data timestamp =
          { jb with slots := jb.slots.set i ⟨none, data.length, timestamp⟩ } := by
        simp only [storePacket, hget]
      rw [hstored]
      refine ⟨List.length_set.trans h.slotsLength, h.poolLength, fun b => ?_, h.notMisused⟩
      rw [hset b, ← h.owners b, if_neg (Option.some_ne_none b).symm, Nat.add_zero]
    | some buffer =>
      obtain ⟨hbuffer, hunused, rfl⟩ := get_some hget
      simp only [storePacket, hget]
      refine ⟨List.length_set.trans h.slotsLength, List.length_set.trans h.poolLength,
        fun b => ?_, h.notMisused⟩
      rw [hset b, h.owners b]
      change _ = inUse { jb.bufferPool with
        usedBuffers := jb.bufferPool.usedBuffers.set buffer true } b
      rw [inUse_take jb.bufferPool buffer b hbuffer]
      by_cases heq : b = buffer
      · rw [if_pos (congrArg some heq.symm), if_pos heq, heq, hunused]
      · rw [if_neg (by simpa using Ne.symm heq), if_neg heq, Nat.add_zero]

theorem owned_reset (h : Owned jb.slots jb.bufferPool) :
    Owned (reset jb).slots (reset jb).bufferPool :=
  owned_releaseSlots (fun _ => true) h

theorem owners_replicate (n b : Nat) : owners (List.replicate n {}) b = 0 := by
  induction n with
  | zero => rfl
  | succ n ih => simpa [List.replicate_succ, owners_cons] using ih

theorem getD_replicate_false (n b : Nat) : (List.replicate n false).getD b false = false := by
  by_cases hb : b < n
  · simp [List.getD_eq_getElem?_getD, hb]
  · simp [List.getD_eq_getElem?_getD, hb]

theorem owned_create (nextTimestamp : Int) (latePacketCount : UInt32) :
    Owned (create nextTimestamp latePacketCount).slots
      (create nextTimestamp latePacketCount).bufferPool := by
  apply owned_reset
  refine ⟨List.length_replicate, List.length_replicate, fun b => ?_, rfl⟩
  rw [owners_replicate, inUse, getD_replicate_false]
  rfl

/-- A step that leaves the packets and the clock alone, and takes back no reset. -/
structure Same (jb jb' : State) : Prop where
  slots : jb'.slots = jb.slots
  bufferPool : jb'.bufferPool = jb.bufferPool
  nextTimestamp : jb'.nextTimestamp = jb.nextTimestamp
  wasReset : jb.wasReset = true → jb'.wasReset = true

theorem Same.trans {jb'' : State} (h : Same jb jb') (h' : Same jb' jb'') : Same jb jb'' :=
  ⟨h'.slots.trans h.slots, h'.bufferPool.trans h.bufferPool,
    h'.nextTimestamp.trans h.nextTimestamp, h'.wasReset ∘ h.wasReset⟩

theorem Same.owned (h : Same jb jb') (howned : Owned jb.slots jb.bufferPool) :
    Owned jb'.slots jb'.bufferPool := by
  rw [h.slots, h.bufferPool]
  exact howned

theorem same_tickMinDelay (jb : State) (stddevDelay : UInt32) :
    Same jb (tickMinDelay config jb stddevDelay) := by
  unfold tickMinDelay
  dsimp only
  split_ifs <;> exact ⟨rfl, rfl, rfl, id⟩

theorem same_tickDelayChange (jb : State) (avgDelay : Rat) :
    Same jb (tickDelayChange jb avgDelay) := by
  unfold tickDelayChange
  dsimp only
  split_ifs <;> exact ⟨rfl, rfl, rfl, id⟩

theorem same_tick (jb : State) (stddevDelay : UInt32) : Same jb (tick config jb stddevDelay) := by
  unfold tick
  dsimp only
  refine Same.trans ?_ (same_tickDelayChange _ _)
  refine Same.trans ?_ (same_tickMinDelay config _ _)
  split
  · exact ⟨rfl, rfl, rfl, fun h => by simp [tickLate, h]⟩
  · exact ⟨rfl, rfl, rfl, fun h => by simp [tickLate, h]⟩

theorem same_countLate (jb : State) (timestamp : UInt32) :
    Same jb (countLate jb timestamp).2 := by
  unfold countLate
  split_ifs <;> exact ⟨rfl, rfl, rfl, id⟩

/-- The condition to drop a late packet is never reached. -/
theorem countLate_fst (jb : State) (timestamp : UInt32) : (countLate jb timestamp).1 = false := by
  unfold countLate
  split
  next => rfl
  next hlate =>
    rw [if_neg (by omega)]

theorem same_notePut (jb : State) (timestamp : UInt32) : Same jb (notePut jb timestamp) := by
  unfold notePut
  split <;> exact ⟨rfl, rfl, rfl, id⟩

theorem same_noteLoss (jb : State) (offset : Int) : Same jb (noteLoss jb offset) := by
  unfold noteLoss
  split <;> exact ⟨rfl, rfl, rfl, id⟩

theorem owned_advanceAt (h : Owned jb.slots jb.bufferPool) (offset : Int) :
    Owned (advanceAt config jb offset).slots (advanceAt config jb offset).bufferPool := by
  unfold advanceAt
  split <;> exact h

theorem owned_countLoss (h : Owned jb.slots jb.bufferPool) (offset : Int) :
    Owned (countLoss config jb offset).slots (countLoss config jb offset).bufferPool := by
  have hnoted := (same_noteLoss jb offset).owned h
  unfold countLoss
  dsimp only
  split
  · exact owned_reset hnoted
  · exact hnoted

theorem findTimestamp_lt {timestamp : Int} {i : Nat} (h : findTimestamp slots timestamp = some i)
    : i < slots.length :=
  (List.findIdx?_eq_some_iff_getElem.1 h).choose

theorem owned_getInternal (h : Owned jb.slots jb.bufferPool) (len : Nat) (offset : Int)
    : Owned (getInternal config jb len offset).2.slots
      (getInternal config jb len offset).2.bufferPool := by
  unfold getInternal
  dsimp only
  split
  next i hfind =>
    have hi : i < slotCount := h.slotsLength ▸ findTimestamp_lt hfind
    exact owned_advanceAt config (owned_releaseSlot h i hi) offset
  next =>
    have hadvanced := owned_advanceAt config h offset
    unfold missPacket
    dsimp only
    split
    · exact hadvanced
    · exact owned_countLoss config hadvanced offset

theorem owned_handleOutput (h : Owned jb.slots jb.bufferPool) (len : Nat) (offset : Int)
    : Owned (handleOutput config jb len offset).2.2.slots
      (handleOutput config jb len offset).2.2.bufferPool :=
  owned_getInternal config h len offset

/-! ## The slot for a packet -/

/-- The search for the oldest packet: it finds none that is older than the first bound, or a
slot that holds one, and no other one is older. -/
theorem oldestSlot_spec (slots : List Slot) (i toRemove : Nat) (best : UInt32) :
    (oldestSlot slots i toRemove best = toRemove ∧
        ∀ slot ∈ slots, ¬ (slot.buffer.isSome ∧ slot.timestamp < best)) ∨
      ∃ j, ∃ h : j < slots.length, oldestSlot slots i toRemove best = i + j ∧
        slots[j].buffer.isSome ∧ slots[j].timestamp < best ∧
        ∀ slot ∈ slots, slot.buffer.isSome → slots[j].timestamp ≤ slot.timestamp := by
  induction slots generalizing i toRemove best with
  | nil => exact .inl ⟨rfl, by simp⟩
  | cons slot slots ih =>
    by_cases holder : slot.buffer.isSome ∧ slot.timestamp < best
    · simp only [oldestSlot, if_pos holder]
      refine .inr ?_
      rcases ih (i + 1) i slot.timestamp with ⟨heq, hnone⟩ | ⟨j, hj, heq, hsome, hlt, hmin⟩
      · refine ⟨0, by simp, heq, holder.1, holder.2, ?_⟩
        grind
      · refine ⟨j + 1, by simpa using hj, by omega, hsome, UInt32.lt_trans hlt holder.2, ?_⟩
        grind
    · simp only [oldestSlot, if_neg holder]
      rcases ih (i + 1) toRemove best with ⟨heq, hnone⟩ | ⟨j, hj, heq, hsome, hlt, hmin⟩
      · grind
      · refine .inr ⟨j + 1, by simpa using hj, by omega, hsome, hlt, ?_⟩
        grind

/-- No slot is free, or too many are in use. -/
def Evicts (jb : State) : Prop :=
  (∀ slot ∈ jb.slots, slot.buffer.isSome) ∨ config.maxUsedSlots.toNat ≤ getCurrentDelay jb.slots

/-- Some packet has a smaller timestamp than the largest one. -/
def HasOldest (jb : State) : Prop :=
  ∃ slot ∈ jb.slots, slot.buffer.isSome ∧ slot.timestamp < 0xFFFFFFFF

instance (jb : State) : Decidable (Evicts config jb) :=
  inferInstanceAs (Decidable (_ ∨ _))

instance (jb : State) : Decidable (HasOldest jb) :=
  inferInstanceAs (Decidable (∃ slot ∈ jb.slots, _))

theorem oldestSlot_lt_iff (hlength : jb.slots.length = slotCount) :
    oldestSlot jb.slots 0 slotCount 0xFFFFFFFF < slotCount ↔ HasOldest jb := by
  rcases oldestSlot_spec jb.slots 0 slotCount 0xFFFFFFFF with
    ⟨heq, hnone⟩ | ⟨j, hj, heq, hsome, hlt, -⟩
  · rw [heq]
    refine ⟨fun h => absurd h (lt_irrefl _), fun ⟨slot, hslot, h⟩ => absurd h (hnone slot hslot)⟩
  · exact ⟨fun _ => ⟨_, List.getElem_mem hj, hsome, hlt⟩, fun _ => by omega⟩

theorem chooseSlot_of_evicts (h : Evicts config jb) :
    chooseSlot config jb = chooseSlot.evict config jb := by
  unfold chooseSlot
  cases hfind : jb.slots.findIdx? (·.buffer.isNone) with
  | none => rfl
  | some i =>
    obtain ⟨hi, hfree, -⟩ := List.findIdx?_eq_some_iff_getElem.1 hfind
    have hmany : config.maxUsedSlots.toNat ≤ getCurrentDelay jb.slots := by
      refine h.resolve_left fun hall => ?_
      have hused := hall jb.slots[i] (List.getElem_mem hi)
      rw [Option.isNone_iff_eq_none] at hfree
      simp [hfree] at hused
    exact if_pos hmany

theorem chooseSlot_of_free (h : ¬ Evicts config jb) :
    ∃ i, chooseSlot config jb = some (i, jb) ∧ i < jb.slots.length ∧
      (jb.slots.getD i {}).buffer = none := by
  obtain ⟨hfree, hfew⟩ := not_or.1 h
  cases hfind : jb.slots.findIdx? (·.buffer.isNone) with
  | none =>
    refine absurd (fun slot hslot => ?_) hfree
    have hnone := List.findIdx?_eq_none_iff.1 hfind slot hslot
    simpa [Option.isSome_iff_ne_none] using hnone
  | some i =>
    obtain ⟨hi, hnone, -⟩ := List.findIdx?_eq_some_iff_getElem.1 hfind
    refine ⟨i, by simp [chooseSlot, hfind, hfew], hi, ?_⟩
    rw [List.getD_eq_getElem _ _ hi]
    simpa using hnone

theorem releaseSlot_free (jb : State) (i : Nat) :
    ((releaseSlot jb i).slots.getD i {}).buffer = none := by
  by_cases hi : i < jb.slots.length
  · simp [releaseSlot, hi]
  · simp [releaseSlot, Nat.le_of_not_lt hi]

/-- The slot for a packet is free. -/
theorem chooseSlot_spec {i : Nat} (h : Owned jb.slots jb.bufferPool)
    (hchoose : chooseSlot config jb = some (i, jb')) :
    i < slotCount ∧ Owned jb'.slots jb'.bufferPool ∧ (jb'.slots.getD i {}).buffer = none := by
  by_cases hevicts : Evicts config jb
  · rw [chooseSlot_of_evicts config hevicts, chooseSlot.evict] at hchoose
    split at hchoose
    next hlt =>
      simp only [Option.some.injEq, Prod.mk.injEq] at hchoose
      obtain ⟨rfl, rfl⟩ := hchoose
      have hadvanced : Owned (advance config jb).slots (advance config jb).bufferPool := h
      exact ⟨hlt, owned_releaseSlot hadvanced _ hlt, releaseSlot_free _ _⟩
    next => cases hchoose
  · obtain ⟨j, hfree, hj, hnone⟩ := chooseSlot_of_free config hevicts
    rw [hfree] at hchoose
    simp only [Option.some.injEq, Prod.mk.injEq] at hchoose
    obtain ⟨rfl, rfl⟩ := hchoose
    exact ⟨h.slotsLength ▸ hj, h, hnone⟩

/-- There is a slot exactly when a packet that has to go can be found. -/
theorem chooseSlot_isSome_iff (h : jb.slots.length = slotCount) :
    (chooseSlot config jb).isSome ↔ (Evicts config jb → HasOldest jb) := by
  by_cases hevicts : Evicts config jb
  · rw [chooseSlot_of_evicts config hevicts, ← oldestSlot_lt_iff h, chooseSlot.evict]
    split
    next hlt => simp [hevicts, hlt]
    next hlt => simp [hevicts, hlt]
  · obtain ⟨i, hfree, -⟩ := chooseSlot_of_free config hevicts
    simp [hfree, hevicts]

/-- The calls of the decoder are `HandleOutput`, with a place for the duration or without. -/
inductive Event where
  | call (c : Call)
  | handleOutput (len : Nat) (offset : Int) (scaled : Bool)

/-- One call; `none` after the code has left the array of slots. -/
def step (s : Option State) (e : Event) : Option State :=
  s.bind fun jb =>
    match e with
    | .call c => call config jb c
    | .handleOutput len offset scaled =>
      some (if scaled then (handleOutput config jb len offset).2.2
        else (getInternal config jb len offset).2)

/-- The representation: the buffers of the slots are different ones, they are the buffers in
use, and none was given back that is not. -/
def Represents (jb : State) : Prop :=
  (jb.slots.filterMap (·.buffer)).Nodup ∧
    (∀ b, b ∈ jb.slots.filterMap (·.buffer) ↔ b < slotCount ∧ inUse jb.bufferPool b = 1) ∧
    jb.bufferPool.misused = false

/-- The code has not left the array, and the representation holds. -/
def Holds (s : Option State) : Prop := ∃ jb, s = some jb ∧ Represents jb

/-- A packet that needs the slot of another one finds an older one. -/
def FindsSlot (s : Option State) : Event → Prop
  | .call (.handleInput data timestamp) =>
    ∀ jb ∈ s, data.length ≤ slotSize →
      Evicts config (receive config jb timestamp) → HasOldest (receive config jb timestamp)
  | _ => True

instance (s : Option State) : ∀ e, Decidable (FindsSlot config s e)
  | .call (.handleInput data _) =>
    inferInstanceAs (Decidable (∀ jb ∈ s, data.length ≤ slotSize → _ → _))
  | .call (.tick _) | .call (.setMinPacketCount _) | .call .reset
  | .call .getAndResetLostPacketCount | .handleOutput _ _ _ => inferInstanceAs (Decidable True)

theorem count_buffers (slots : List Slot) (b : Nat) :
    (slots.filterMap (·.buffer)).count b = owners slots b := by
  induction slots with
  | nil => rfl
  | cons slot slots ih =>
    grind [owners_cons]

theorem inUse_lt {b : Nat} (h : inUse pool b = 1) :
    b < pool.usedBuffers.length := by
  by_contra hle
  rw [inUse, List.getD_eq_default _ _ (Nat.le_of_not_lt hle)] at h
  cases h

theorem represents_of_owned (h : Owned jb.slots jb.bufferPool) : Represents jb := by
  refine ⟨List.nodup_iff_count.2 fun b => ?_, fun b => ?_, h.notMisused⟩
  · rw [count_buffers, h.owners]
    exact inUse_le_one jb.bufferPool b
  · have hle := inUse_le_one jb.bufferPool b
    rw [← List.count_pos_iff, count_buffers, h.owners]
    constructor
    · intro hpos
      have hone : inUse jb.bufferPool b = 1 := by omega
      exact ⟨h.poolLength ▸ inUse_lt hone, hone⟩
    · rintro ⟨-, hone⟩
      omega

theorem owned_receive (h : Owned jb.slots jb.bufferPool) (timestamp : UInt32) :
    Owned (receive config jb timestamp).slots (receive config jb timestamp).bufferPool := by
  apply owned_releaseSlots
  unfold resync
  split <;> exact h

theorem Same.evicts_iff (h : Same jb jb') :
    Evicts config jb' ↔ Evicts config jb := by
  rw [Evicts, Evicts, h.slots]

theorem Same.hasOldest_iff (h : Same jb jb') : HasOldest jb' ↔ HasOldest jb := by
  rw [HasOldest, HasOldest, h.slots]

/-- The state in which `PutInternal` looks for a slot. -/
theorem same_beforeChoice (jb : State) (timestamp : UInt32) :
    Same (receive config jb timestamp)
      (notePut (countLate (receive config jb timestamp) timestamp).2 timestamp) :=
  (same_countLate _ timestamp).trans (same_notePut _ timestamp)

theorem handleInput_eq (jb : State) (data : Data) (timestamp : UInt32)
    (hsize : data.length ≤ slotSize) :
    handleInput config jb data timestamp =
      (chooseSlot config
        (notePut (countLate (receive config jb timestamp) timestamp).2 timestamp)).map
          fun (i, jb) => storePacket jb i data timestamp := by
  simp only [handleInput, if_neg (Nat.not_lt.2 hsize), countLate_fst, Bool.false_eq_true, if_false]

theorem owned_handleInput (h : Owned jb.slots jb.bufferPool) {data : Data} {timestamp : UInt32}
    (hput : handleInput config jb data timestamp = some jb') :
    Owned jb'.slots jb'.bufferPool := by
  by_cases hsize : data.length ≤ slotSize
  · rw [handleInput_eq config jb data timestamp hsize, Option.map_eq_some_iff] at hput
    obtain ⟨⟨i, chosen⟩, hchoose, rfl⟩ := hput
    have hbefore := (same_beforeChoice config jb timestamp).owned (owned_receive config h timestamp)
    obtain ⟨hi, howned, hfree⟩ := chooseSlot_spec config hbefore hchoose
    exact owned_storePacket howned i hi hfree data timestamp
  · simp only [handleInput, if_pos (Nat.not_le.1 hsize), Option.some.injEq] at hput
    exact hput ▸ h

/-- `PutInternal` finds a slot exactly when a packet that has to go can be found. -/
theorem handleInput_isSome_iff (h : Owned jb.slots jb.bufferPool) (data : Data) (timestamp : UInt32)
    :
    (handleInput config jb data timestamp).isSome ↔ (data.length ≤ slotSize →
      Evicts config (receive config jb timestamp) → HasOldest (receive config jb timestamp)) := by
  by_cases hsize : data.length ≤ slotSize
  · have hsame := same_beforeChoice config jb timestamp
    have hbefore := hsame.owned (owned_receive config h timestamp)
    rw [handleInput_eq config jb data timestamp hsize, Option.isSome_map,
      chooseSlot_isSome_iff config hbefore.slotsLength, hsame.evicts_iff config,
      hsame.hasOldest_iff]
    exact ⟨fun h _ => h, fun h => h hsize⟩
  · simp [handleInput, Nat.not_le.1 hsize, hsize]

theorem owned_call (h : Owned jb.slots jb.bufferPool) {c : Call}
    (hcall : call config jb c = some jb') : Owned jb'.slots jb'.bufferPool := by
  cases c with
  | handleInput data timestamp => exact owned_handleInput config h hcall
  | tick stddevDelay =>
    have hnext : tick config jb stddevDelay = jb' := Option.some.inj hcall
    rw [← hnext]
    exact (same_tick config jb stddevDelay).owned h
  | setMinPacketCount count =>
    have hnext : setMinPacketCount jb count = jb' := Option.some.inj hcall
    rw [← hnext]
    unfold setMinPacketCount
    split
    · exact h
    · exact owned_reset h
  | reset =>
    have hnext : reset jb = jb' := Option.some.inj hcall
    rw [← hnext]
    exact owned_reset h
  | getAndResetLostPacketCount =>
    have hnext : (getAndResetLostPacketCount jb).2 = jb' := Option.some.inj hcall
    rw [← hnext]
    exact h

/-- The invariant of the runs. -/
def Inv (s : Option State) : Prop := ∃ jb, s = some jb ∧ Owned jb.slots jb.bufferPool

theorem inv_step {s : Option State} {e : Event} (h : Inv s) (hfinds : FindsSlot config s e) :
    Inv (step config s e) := by
  obtain ⟨jb, rfl, howned⟩ := h
  cases e with
  | call c =>
    have hsome : (call config jb c).isSome := by
      cases c with
      | handleInput data timestamp =>
        exact (handleInput_isSome_iff config howned data timestamp).2 (hfinds jb rfl)
      | _ => rfl
    obtain ⟨jb', hcall⟩ := Option.isSome_iff_exists.1 hsome
    exact ⟨jb', hcall, owned_call config howned hcall⟩
  | handleOutput len offset scaled =>
    refine ⟨_, rfl, ?_⟩
    split
    · exact owned_handleOutput config howned len offset
    · exact owned_getInternal config howned len offset

theorem not_holds_step {s : Option State} {e : Event} (h : Inv s)
    (hfails : ¬ FindsSlot config s e) : ¬ Holds (step config s e) := by
  obtain ⟨jb, rfl, howned⟩ := h
  match e with
  | .call (.handleInput data timestamp) =>
    have hnone : ¬ (handleInput config jb data timestamp).isSome := by
      intro hsome
      refine hfails fun jb' hjb' => ?_
      cases hjb'
      exact (handleInput_isSome_iff config howned data timestamp).1 hsome
    rintro ⟨jb', hjb', -⟩
    exact hnone (by simp [show handleInput config jb data timestamp = some jb' from hjb'])
  | .call (.tick _) | .call (.setMinPacketCount _) | .call .reset
  | .call .getAndResetLostPacketCount | .handleOutput _ _ _ => exact absurd trivial hfails

/-- The slots and the pool agree in every state of a run, and every packet gets a slot of the
array, exactly when each packet that needs the slot of another one finds an older one: a packet
whose timestamp is not the largest number. -/
theorem slots_sound (nextTimestamp : Int) (latePacketCount : UInt32) (es : List Event) :
    (∀ k, Holds (run (step config) (some (create nextTimestamp latePacketCount)) (es.take k))) ↔
      Guarded (step config) (FindsSlot config) (some (create nextTimestamp latePacketCount)) es :=
  reached_iff_guarded (step config) (FindsSlot config) Holds
    (fun _ ⟨jb, hs, howned⟩ => ⟨jb, hs, represents_of_owned howned⟩)
    (fun _ _ => inv_step config) (fun _ _ => not_holds_step config) es _
    ⟨_, rfl, owned_create nextTimestamp latePacketCount⟩

/-- Twenty packets with the largest timestamp take twenty slots; the next packet finds no packet
to remove. -/
theorem largestTimestamp_leavesArray :
    ¬ Holds (run (step config60) (some (create 0 0))
      (List.replicate 21 (.call (.handleInput [] 0xFFFFFFFF)))) := by
  have hnone : (run (step config60) (some (create 0 0))
      (List.replicate 21 (.call (.handleInput [] 0xFFFFFFFF)))).isNone := by
    decide +kernel
  rintro ⟨jb, hjb, -⟩
  rw [hjb] at hnone
  cases hnone

end TelegramPub.Ports.JitterSlots
