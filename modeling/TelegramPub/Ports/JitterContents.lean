import TelegramPub.Ports.JitterSlots

/-!
# The packets in the jitter buffer

The bytes of a packet are in the buffer that its slot holds.  As no two slots hold one buffer,
a packet that is put in leaves the bytes of the others alone (`stored_storePacket`), and a
packet that goes leaves the others (`stored_releaseSlot`).  Packets are counted, so two equal
ones are two.
-/

namespace TelegramPub.Ports.JitterContents

open Verified.Bytes Ports.JitterBuffer Ports.JitterSlots

/-! ## The stored packets -/

/-- A packet as it was put in. -/
structure Packet where
  timestamp : UInt32
  data : Data
  deriving DecidableEq

/-- The packet in a slot. -/
def packetOf (buffers : List Data) (slot : Slot) : Option Packet :=
  slot.buffer.map fun b => ⟨slot.timestamp, (buffers.getD b []).take slot.size⟩

/-- The packets in the slots. -/
def stored (jb : State) : List Packet := jb.slots.filterMap (packetOf jb.bufferPool.buffers)

/-! ## The contents of the slots -/

theorem count_filterMap (f : Slot → Option Packet) (slots : List Slot) (x : Packet) :
    (slots.filterMap f).count x = slots.countP fun s => decide (f s = some x) := by
  induction slots with
  | nil => rfl
  | cons slot slots ih =>
    grind

/-- A slot is replaced by another one. -/
theorem count_set (buffers : List Data) (slots : List Slot) (i : Nat) (slot : Slot) (x : Packet)
    (hi : i < slots.length) :
    ((slots.set i slot).filterMap (packetOf buffers)).count x +
        (if packetOf buffers (slots.getD i {}) = some x then 1 else 0) =
      (slots.filterMap (packetOf buffers)).count x +
        if packetOf buffers slot = some x then 1 else 0 := by
  simpa only [count_filterMap, decide_eq_true_eq] using
    countP_set_add (fun s => decide (packetOf buffers s = some x)) slots i slot hi

theorem packetOf_none (buffers : List Data) {slot : Slot} (h : slot.buffer = none) :
    packetOf buffers slot = none := by
  rw [packetOf, h, Option.map_none]

theorem packetOf_write (pool : BufferPool) (slot : Slot) (b : Nat) (data : Data)
    (h : slot.buffer ≠ some b) :
    packetOf (pool.write b data).buffers slot = packetOf pool.buffers slot := by
  cases hbuffer : slot.buffer with
  | none => rw [packetOf_none _ hbuffer, packetOf_none _ hbuffer]
  | some buffer =>
    have hne : b ≠ buffer := by
      intro heq
      exact h (heq ▸ hbuffer)
    simp [packetOf, hbuffer, BufferPool.write, hne]

/-- The slots have their bytes in the buffers of the pool. -/
structure Held (jb : State) : Prop where
  owned : Owned jb.slots jb.bufferPool
  buffersLength : jb.bufferPool.buffers.length = slotCount
  sizes : ∀ slot ∈ jb.slots, ∀ b, slot.buffer = some b →
    slot.size ≤ (jb.bufferPool.buffers.getD b []).length

/-- A slot after a loop that gives back buffers. -/
def cleared (q : Slot → Bool) (slot : Slot) : Slot :=
  if q slot then { slot with buffer := none } else slot

theorem cleared_buffer {q : Slot → Bool} {slot : Slot} {b : Nat}
    (h : (cleared q slot).buffer = some b) : cleared q slot = slot ∧ q slot = false := by
  cases hq : q slot with
  | true => simp [cleared, hq] at h
  | false => simp [cleared, hq]

/-- Giving back the buffers of some slots leaves the other packets. -/
theorem releaseSlots_cleared (q : Slot → Bool) (slots : List Slot) (pool : BufferPool) :
    (releaseSlots q slots pool).1 = slots.map (cleared q) ∧
      (releaseSlots q slots pool).2.buffers = pool.buffers := by
  induction slots generalizing pool with
  | nil => exact ⟨rfl, rfl⟩
  | cons slot slots ih =>
    cases hbuffer : slot.buffer with
    | none =>
      have hslot : cleared q slot = slot := by
        cases slot
        simp_all [cleared]
      simpa [releaseSlots, hbuffer, hslot] using ih pool
    | some buffer =>
      obtain ⟨hslots, hbuffers⟩ := ih (pool.reuse buffer)
      cases hq : q slot with
      | true =>
        simp only [releaseSlots, hbuffer, hq, if_true, hslots, List.map_cons, cleared]
        exact ⟨trivial, hbuffers⟩
      | false => simpa [releaseSlots, hbuffer, hq, cleared] using ih pool

/-- A step that stores no packet. -/
structure Sheds (jb jb' : State) : Prop where
  held : Held jb'
  stored : ∀ x, (stored jb').count x ≤ (stored jb).count x

/-- What the loops leave is held. -/
theorem sheds_releaseSlots {jb jb' : State} (h : Held jb) (q : Slot → Bool)
    (hslots : jb'.slots = (releaseSlots q jb.slots jb.bufferPool).1)
    (hpool : jb'.bufferPool = (releaseSlots q jb.slots jb.bufferPool).2) : Sheds jb jb' := by
  obtain ⟨hmap, hbuffers⟩ := releaseSlots_cleared q jb.slots jb.bufferPool
  rw [← hslots] at hmap
  rw [← hpool] at hbuffers
  refine ⟨⟨?_, ?_, ?_⟩, fun x => ?_⟩
  · rw [hslots, hpool]
    exact owned_releaseSlots q h.owned
  · rw [hbuffers, h.buffersLength]
  · intro slot hslot b hb
    rw [hmap] at hslot
    obtain ⟨s, hs, rfl⟩ := List.mem_map.1 hslot
    obtain ⟨heq, -⟩ := cleared_buffer hb
    rw [heq] at hb ⊢
    rw [hbuffers]
    exact h.sizes s hs b hb
  · rw [JitterContents.stored, JitterContents.stored, hbuffers, hmap, count_filterMap,
      count_filterMap, List.countP_map]
    refine List.countP_mono_left fun s _ hs => ?_
    have hsome : packetOf jb.bufferPool.buffers (cleared q s) = some x := by simpa using hs
    have hbuffer : (cleared q s).buffer ≠ none := by
      grind [packetOf_none]
    obtain ⟨b, hb⟩ := Option.ne_none_iff_exists'.1 hbuffer
    rw [(cleared_buffer hb).1] at hsome
    simpa using hsome

theorem held_congr {jb jb' : State} (h : Held jb) (hslots : jb'.slots = jb.slots)
    (hpool : jb'.bufferPool = jb.bufferPool) : Held jb' where
  owned := by rw [hslots, hpool]; exact h.owned
  buffersLength := by rw [hpool]; exact h.buffersLength
  sizes := by rw [hslots, hpool]; exact h.sizes

theorem stored_congr {jb jb' : State} (hslots : jb'.slots = jb.slots)
    (hpool : jb'.bufferPool = jb.bufferPool) : stored jb' = stored jb := by
  rw [stored, stored, hslots, hpool]

@[simp] theorem releaseSlot_buffers (jb : State) (i : Nat) :
    (releaseSlot jb i).bufferPool.buffers = jb.bufferPool.buffers := by
  unfold releaseSlot
  dsimp only
  split <;> rfl

variable {jb : State}

theorem held_releaseSlot (h : Held jb) (i : Nat) (hi : i < slotCount) :
    Held (releaseSlot jb i) where
  owned := owned_releaseSlot h.owned i hi
  buffersLength := by rw [releaseSlot_buffers, h.buffersLength]
  sizes := by
    intro slot hslot b hb
    rw [releaseSlot_buffers]
    rcases List.mem_or_eq_of_mem_set hslot with hold | rfl
    · exact h.sizes slot hold b hb
    · cases hb

theorem stored_releaseSlot (h : Held jb) (i : Nat) (hi : i < slotCount) (x : Packet) :
    (stored (releaseSlot jb i)).count x +
        (if packetOf jb.bufferPool.buffers (jb.slots.getD i {}) = some x then 1 else 0) =
      (stored jb).count x := by
  have hset := count_set jb.bufferPool.buffers jb.slots i
    { jb.slots.getD i {} with buffer := none } x (by rw [h.owned.slotsLength]; exact hi)
  have hnone : packetOf jb.bufferPool.buffers { jb.slots.getD i {} with buffer := none } = none :=
    rfl
  rw [hnone, if_neg (Option.some_ne_none x).symm, Nat.add_zero] at hset
  rw [stored, releaseSlot_buffers]
  exact hset

theorem Held.buffer_ne (h : Held jb) {buffer : Nat}
    (hunused : inUse jb.bufferPool buffer = 0) {slot : Slot} (hslot : slot ∈ jb.slots) :
    slot.buffer ≠ some buffer := by
  intro hbuffer
  have hpos : 0 < owners jb.slots buffer := List.countP_pos_iff.2 ⟨slot, hslot, by simpa⟩
  rw [h.owned.owners, hunused] at hpos
  exact lt_irrefl 0 hpos

theorem getD_write (pool : BufferPool) (b : Nat) (data : Data) (hb : b < pool.buffers.length) :
    (pool.write b data).buffers.getD b [] =
      data ++ (pool.buffers.getD b []).drop data.length := by
  simp [BufferPool.write, hb]

theorem getD_write_ne (pool : BufferPool) (b c : Nat) (data : Data) (hne : c ≠ b) :
    (pool.write b data).buffers.getD c [] = pool.buffers.getD c [] := by
  simp [BufferPool.write, hne.symm]

theorem storePacket_cases (jb : State) (i : Nat) (data : Data) (timestamp : UInt32) :
    ((jb.bufferPool.get).1 = none ∧
      (storePacket jb i data timestamp).slots =
        jb.slots.set i ⟨none, data.length, timestamp⟩ ∧
      (storePacket jb i data timestamp).bufferPool.buffers = jb.bufferPool.buffers) ∨
    ∃ buffer, buffer < jb.bufferPool.usedBuffers.length ∧ inUse jb.bufferPool buffer = 0 ∧
      (storePacket jb i data timestamp).slots =
        jb.slots.set i ⟨some buffer, data.length, timestamp⟩ ∧
      (storePacket jb i data timestamp).bufferPool.buffers =
        (jb.bufferPool.write buffer data).buffers := by
  cases hget : jb.bufferPool.get with
  | mk buffer pool =>
    cases buffer with
    | none =>
      have hpool := get_none hget
      subst hpool
      exact .inl ⟨rfl, by simp only [storePacket, hget], by simp only [storePacket, hget]⟩
    | some buffer =>
      obtain ⟨hbuffer, hunused, rfl⟩ := get_some hget
      refine .inr ⟨buffer, hbuffer, hunused, ?_, ?_⟩
      · simp only [storePacket, hget]
      · simp only [storePacket, hget, BufferPool.write]

theorem held_storePacket (h : Held jb) (i : Nat) (hi : i < slotCount)
    (hfree : (jb.slots.getD i {}).buffer = none) (data : Data) (timestamp : UInt32) :
    Held (storePacket jb i data timestamp) := by
  refine ⟨owned_storePacket h.owned i hi hfree data timestamp, ?_, ?_⟩
  · rcases storePacket_cases jb i data timestamp with ⟨-, -, heq⟩ | ⟨buffer, -, -, -, heq⟩
    · rw [heq, h.buffersLength]
    · rw [heq]
      exact List.length_set.trans h.buffersLength
  · intro slot hslot b hb
    rcases storePacket_cases jb i data timestamp with
      ⟨-, hslots, hbuffers⟩ | ⟨buffer, hbuffer, hunused, hslots, hbuffers⟩
    · rw [hslots] at hslot
      rw [hbuffers]
      rcases List.mem_or_eq_of_mem_set hslot with hold | rfl
      · exact h.sizes slot hold b hb
      · cases hb
    · have hlt : buffer < jb.bufferPool.buffers.length := by
        rw [h.buffersLength, ← h.owned.poolLength]
        exact hbuffer
      rw [hslots] at hslot
      rw [hbuffers]
      rcases List.mem_or_eq_of_mem_set hslot with hold | rfl
      · have hne : b ≠ buffer := by
          intro hbb
          exact h.buffer_ne hunused hold (hbb ▸ hb)
        rw [getD_write_ne _ _ _ _ hne]
        exact h.sizes slot hold b hb
      · cases hb
        rw [getD_write _ _ _ hlt, List.length_append]
        exact Nat.le_add_right _ _

theorem stored_storePacket (h : Held jb) (i : Nat) (hi : i < slotCount)
    (hfree : (jb.slots.getD i {}).buffer = none) (data : Data) (timestamp : UInt32)
    (x : Packet) :
    (stored (storePacket jb i data timestamp)).count x ≤
      (stored jb).count x + if (⟨timestamp, data⟩ : Packet) = x then 1 else 0 := by
  have hlt : i < jb.slots.length := by rw [h.owned.slotsLength]; exact hi
  rcases storePacket_cases jb i data timestamp with
    ⟨-, hslots, hbuffers⟩ | ⟨buffer, hbuffer, hunused, hslots, hbuffers⟩
  · grind [count_set, packetOf, packetOf_none, stored]
  · have hblt : buffer < jb.bufferPool.buffers.length := by
      rw [h.buffersLength, ← h.owned.poolLength]
      exact hbuffer
    have hset := count_set (jb.bufferPool.write buffer data).buffers jb.slots i
      ⟨some buffer, data.length, timestamp⟩ x hlt
    have hnew : packetOf (jb.bufferPool.write buffer data).buffers
        ⟨some buffer, data.length, timestamp⟩ = some ⟨timestamp, data⟩ := by
      simp only [packetOf, Option.map_some, getD_write _ _ _ hblt, List.take_left']
    have hold : jb.slots.filterMap (packetOf (jb.bufferPool.write buffer data).buffers) =
        jb.slots.filterMap (packetOf jb.bufferPool.buffers) :=
      List.filterMap_congr fun slot hslot =>
        packetOf_write jb.bufferPool slot buffer data (h.buffer_ne hunused hslot)
    rw [packetOf_none _ hfree, hnew, hold] at hset
    rw [stored, hslots, hbuffers, stored]
    simp only [reduceCtorEq, if_false, Nat.add_zero, Option.some.injEq] at hset
    exact le_of_eq hset

end TelegramPub.Ports.JitterContents
