import TelegramPub.Verified.Machine
import TelegramPub.Verified.SerialWindow

/-!
# VoIPController: the reception window

`RunRecvThread` keeps the newest sequence number of the peer, `lastRemoteSeq`, and
for the 32 numbers up to it the times at which they were received,
`recvPacketTimes`.  A packet with a number that has a time is a duplicate, and
one that is more than 31 behind is too late; both are dropped.  The body of any
other packet is dispatched.

A packet more than 31 ahead empties the window, and that branch does not record
the packet itself.  Until 32 numbers later its slot stays empty, so a duplicate of
it is taken for a late packet and dispatched once more
(`repeatedJump_dispatched_twice`).

Sequence numbers are kept as the sender counted them.  The code has them modulo
`2 ^ 32`: it compares and subtracts what `wire` leaves of them.  Of a time only
matters whether there is one.
-/

namespace TelegramPub.Ports.VoipReception

open Verified.Machine Verified.SerialWindow

/-- `seqgt`, with `SEQ_MAX / 2`. -/
def seqgt (s1 s2 : BitVec 32) : Bool :=
  (decide (s1 > s2) && decide ((s1 - s2).toNat ≤ 0xFFFFFFFF / 2)) ||
    (decide (s1 < s2) && decide ((s2 - s1).toNat > 0xFFFFFFFF / 2))

theorem seqgt_eq_ahead (s1 s2 : BitVec 32) : seqgt s1 s2 = ahead s1 s2 := rfl

/-- What `RunRecvThread` remembers of the packets it has received. -/
structure Reception where
  lastRemoteSeq : Int := 0
  recvPacketTimes : Window 32 := Window.clear

/-- The reception window after a packet, and whether the packet is let through.  After a long
gap the window is cleared, and holds no time for the packet itself. -/
def Reception.receive (r : Reception) (pseq : Int) : Reception × Bool :=
  if seqgt (wire pseq) (wire r.lastRemoteSeq) then
    let diff := (wire pseq - wire r.lastRemoteSeq).toNat
    if diff > 31 then
      ({ lastRemoteSeq := pseq, recvPacketTimes := Window.clear }, true)
    else
      ({ lastRemoteSeq := pseq
         recvPacketTimes := (r.recvPacketTimes.shift diff).mark 0 }, true)
  else
    let behind := (wire r.lastRemoteSeq - wire pseq).toNat
    if behind < 32 then
      if r.recvPacketTimes.get behind then (r, false)
      else ({ r with recvPacketTimes := r.recvPacketTimes.mark behind }, true)
    else (r, false)

variable {pseq : Int}

/-- What can happen to a packet whose number is close to the newest one. -/
theorem receive_cases {r : Reception} (h : Close pseq r.lastRemoteSeq) :
    (31 < pseq - r.lastRemoteSeq ∧
      r.receive pseq = ({ lastRemoteSeq := pseq, recvPacketTimes := Window.clear }, true)) ∨
    (∃ d : Nat, 0 < d ∧ d ≤ 31 ∧ pseq - r.lastRemoteSeq = d ∧
      r.receive pseq = ({ lastRemoteSeq := pseq
                          recvPacketTimes := (r.recvPacketTimes.shift d).mark 0 }, true)) ∨
    (∃ k : Nat, k < 32 ∧ r.lastRemoteSeq - pseq = k ∧
      r.recvPacketTimes.get k = true ∧ r.receive pseq = (r, false)) ∨
    (∃ k : Nat, k < 32 ∧ r.lastRemoteSeq - pseq = k ∧
      r.recvPacketTimes.get k = false ∧
      r.receive pseq = ({ r with recvPacketTimes := r.recvPacketTimes.mark k }, true)) ∨
    (31 < r.lastRemoteSeq - pseq ∧ r.receive pseq = (r, false)) := by
  have hgt := ahead_wire h
  obtain ⟨h1, h2⟩ := h
  unfold Reception.receive
  rw [seqgt_eq_ahead, hgt]
  by_cases hnew : r.lastRemoteSeq < pseq
  · have hdiff := toNat_wire_sub (by omega : r.lastRemoteSeq ≤ pseq) (by omega)
    simp only [hnew, decide_true, if_true]
    by_cases hjump : (wire pseq - wire r.lastRemoteSeq).toNat > 31
    · refine .inl ⟨by omega, ?_⟩
      rw [if_pos hjump]
    · grind
  · have hdiff := toNat_wire_sub (by omega : pseq ≤ r.lastRemoteSeq) (by omega)
    simp only [hnew, decide_false, Bool.false_eq_true, if_false]
    refine .inr (.inr ?_)
    by_cases hlate : (wire r.lastRemoteSeq - wire pseq).toNat < 32
    · grind
    · refine .inr (.inr ⟨by omega, ?_⟩)
      rw [if_neg hlate]

/-! ## Runs of the receiver -/

/-- The receiver with the numbers that have arrived, those whose body has been
dispatched, and those that arrived more than 31 ahead of the newest one. -/
structure Receiver where
  reception : Reception := {}
  arrived : List Int := []
  dispatched : List Int := []
  jumps : List Int := []

/-- The receiver at the start of a call. -/
def Receiver.initial : Receiver := {}

/-- The body of a packet with this number is dispatched. -/
def Receiver.dispatches (s : Receiver) (pseq : Int) : Bool := (s.reception.receive pseq).2

/-- A packet arrives. -/
def step (s : Receiver) (pseq : Int) : Receiver :=
  { reception := (s.reception.receive pseq).1
    arrived := pseq :: s.arrived
    dispatched := if s.dispatches pseq then pseq :: s.dispatched else s.dispatched
    jumps := if 31 < pseq - s.reception.lastRemoteSeq then pseq :: s.jumps else s.jumps }

/-- The number is less than `2 ^ 31` away from the newest one. -/
def GapBelow (s : Receiver) (pseq : Int) : Prop := Close pseq s.reception.lastRemoteSeq

/-- No body is dispatched again, and a number that has not arrived yet and is newer
than `lastRemoteSeq` or at most 31 behind it is accepted. -/
def ReplaySafe (s : Receiver) (pseq : Int) : Prop :=
  (s.dispatches pseq = true → pseq ∉ s.dispatched) ∧
    (pseq ∉ s.arrived → s.reception.lastRemoteSeq - pseq ≤ 31 → s.dispatches pseq = true)

/-- The packet is not the repetition of one that arrived more than 31 ahead and is
still among the last 32 numbers. -/
def JumpNotRepeated (s : Receiver) (pseq : Int) : Prop :=
  pseq ∈ s.jumps → 31 < s.reception.lastRemoteSeq - pseq

instance (s : Receiver) (pseq : Int) : Decidable (GapBelow s pseq) :=
  inferInstanceAs (Decidable (Close _ _))

instance (s : Receiver) (pseq : Int) : Decidable (ReplaySafe s pseq) :=
  inferInstanceAs (Decidable ((_ → _) ∧ (_ → _ → _)))

instance (s : Receiver) (pseq : Int) : Decidable (JumpNotRepeated s pseq) :=
  inferInstanceAs (Decidable (_ → _))

/-- The slots of the window against the history.  A slot with a time is for a
dispatched number; a dispatched number of the window without a time arrived by a
jump, and as long as jumps are not repeated these have no time. -/
structure Inv (s : Receiver) : Prop where
  dispatched_of_slot : ∀ i : Nat, s.reception.recvPacketTimes.get i = true →
    s.reception.lastRemoteSeq - i ∈ s.dispatched
  slot_of_dispatched : ∀ i : Nat, i < 32 → s.reception.lastRemoteSeq - i ∈ s.dispatched →
    s.reception.lastRemoteSeq - i ∉ s.jumps → s.reception.recvPacketTimes.get i = true
  slot_of_jump : ∀ i : Nat, s.reception.lastRemoteSeq - i ∈ s.jumps →
    s.reception.recvPacketTimes.get i = false
  dispatched_le : ∀ n ∈ s.dispatched, n ≤ s.reception.lastRemoteSeq
  jumps_dispatched : ∀ n ∈ s.jumps, n ∈ s.dispatched
  dispatched_arrived : ∀ n ∈ s.dispatched, n ∈ s.arrived

theorem inv_initial : Inv Receiver.initial := by
  constructor <;> simp [Receiver.initial]

variable {s : Receiver}

/-- A packet more than 31 ahead leaves an empty window. -/
theorem inv_jump (hinv : Inv s) (hjump : 31 < pseq - s.reception.lastRemoteSeq)
    (heq : s.reception.receive pseq =
      ({ lastRemoteSeq := pseq, recvPacketTimes := Window.clear }, true)) :
    Inv (step s pseq) := by
  have hstep : step s pseq =
      { reception := { lastRemoteSeq := pseq, recvPacketTimes := Window.clear }
        arrived := pseq :: s.arrived
        dispatched := pseq :: s.dispatched
        jumps := pseq :: s.jumps } := by
    simp [step, Receiver.dispatches, heq, hjump]
  rw [hstep]
  constructor
  · intro i hi
    simp at hi
  · intro i hi hmem hnj
    simp only [List.mem_cons, not_or] at hmem hnj
    rcases hmem with h0 | hold
    · exact absurd h0 hnj.1
    · have hle := hinv.dispatched_le _ hold
      omega
  · intro i _
    exact Window.get_clear i
  · intro n hn
    rcases List.mem_cons.mp hn with rfl | hold
    · exact le_refl _
    · have hle := hinv.dispatched_le _ hold
      show n ≤ pseq
      omega
  · exact List.cons_subset_cons pseq hinv.jumps_dispatched
  · exact List.cons_subset_cons pseq hinv.dispatched_arrived

/-- A packet at most 31 ahead shifts the window and is recorded in slot 0. -/
theorem inv_ahead {d : Nat} (hinv : Inv s) (hd : 0 < d) (hd31 : d ≤ 31)
    (hdiff : pseq - s.reception.lastRemoteSeq = d) (heq : s.reception.receive pseq =
      ({ lastRemoteSeq := pseq
         recvPacketTimes := (s.reception.recvPacketTimes.shift d).mark 0 }, true)) :
    Inv (step s pseq) := by
  have hnot : ¬31 < pseq - s.reception.lastRemoteSeq := by omega
  have hstep : step s pseq =
      { reception :=
          { lastRemoteSeq := pseq
            recvPacketTimes := (s.reception.recvPacketTimes.shift d).mark 0 }
        arrived := pseq :: s.arrived
        dispatched := pseq :: s.dispatched
        jumps := s.jumps } := by
    simp [step, Receiver.dispatches, heq, hnot]
  have hmove : ∀ i : Nat, d ≤ i → pseq - i = s.reception.lastRemoteSeq - ((i - d : Nat) : Int) := by
    intro i hi
    omega
  rw [hstep]
  constructor
  · intro i hi
    rcases (Window.get_mark _ _ _).mp hi with ⟨rfl, _⟩ | hshift
    · simp
    · obtain ⟨_, hdi, hold⟩ := (Window.get_shift _ _ _).mp hshift
      show pseq - i ∈ pseq :: s.dispatched
      rw [hmove i hdi]
      exact .tail _ (hinv.dispatched_of_slot _ hold)
  · intro i hi hmem hnj
    show ((s.reception.recvPacketTimes.shift d).mark 0).get i = true
    rw [Window.get_mark, Window.get_shift]
    rcases List.mem_cons.mp hmem with h0 | hold
    · exact .inl ⟨by simp at h0; omega, hi⟩
    · have hle := hinv.dispatched_le _ hold
      have hdi : d ≤ i := by simp only at hle; omega
      refine .inr ⟨hi, hdi, ?_⟩
      simp only at hold hnj
      rw [hmove i hdi] at hold hnj
      exact hinv.slot_of_dispatched _ (by omega) hold hnj
  · intro i hjump
    have hle := hinv.dispatched_le _ (hinv.jumps_dispatched _ hjump)
    have hdi : d ≤ i := by simp only at hle; omega
    simp only at hjump
    rw [hmove i hdi] at hjump
    have hold := hinv.slot_of_jump _ hjump
    show ((s.reception.recvPacketTimes.shift d).mark 0).get i = false
    rw [Bool.eq_false_iff, Ne, Window.get_mark, Window.get_shift]
    rintro (⟨rfl, _⟩ | ⟨_, _, hset⟩)
    · omega
    · rw [hold] at hset
      cases hset
  · intro n hn
    rcases List.mem_cons.mp hn with rfl | hold
    · exact le_refl _
    · have hle := hinv.dispatched_le _ hold
      show n ≤ pseq
      omega
  · intro n hn
    exact .tail _ (hinv.jumps_dispatched _ hn)
  · exact List.cons_subset_cons pseq hinv.dispatched_arrived

theorem inv_late {k : Nat} (hinv : Inv s) (hg : JumpNotRepeated s pseq) (hk : k < 32)
    (hdiff : s.reception.lastRemoteSeq - pseq = k) (heq : s.reception.receive pseq =
      ({ s.reception with recvPacketTimes := s.reception.recvPacketTimes.mark k }, true)) :
    Inv (step s pseq) := by
  have hnot : ¬31 < pseq - s.reception.lastRemoteSeq := by omega
  have hpseq : s.reception.lastRemoteSeq - k = pseq := by omega
  have hstep : step s pseq =
      { reception :=
          { s.reception with recvPacketTimes := s.reception.recvPacketTimes.mark k }
        arrived := pseq :: s.arrived
        dispatched := pseq :: s.dispatched
        jumps := s.jumps } := by
    simp [step, Receiver.dispatches, heq, hnot]
  rw [hstep]
  constructor
  · intro i hi
    rcases (Window.get_mark _ _ _).mp hi with ⟨rfl, _⟩ | hold
    · grind
    · exact .tail _ (hinv.dispatched_of_slot _ hold)
  · intro i hi hmem hnj
    show (s.reception.recvPacketTimes.mark k).get i = true
    rw [Window.get_mark]
    rcases List.mem_cons.mp hmem with h0 | hold
    · exact .inl ⟨by simp only at h0; omega, hi⟩
    · exact .inr (hinv.slot_of_dispatched _ hi hold hnj)
  · intro i hjump
    show (s.reception.recvPacketTimes.mark k).get i = false
    rw [Bool.eq_false_iff, Ne, Window.get_mark]
    rintro (⟨rfl, _⟩ | hset)
    · simp only [hpseq] at hjump
      have hfar := hg hjump
      omega
    · rw [hinv.slot_of_jump _ hjump] at hset
      cases hset
  · intro n hn
    rcases List.mem_cons.mp hn with rfl | hold
    · show n ≤ s.reception.lastRemoteSeq
      omega
    · exact hinv.dispatched_le _ hold
  · intro n hn
    exact .tail _ (hinv.jumps_dispatched _ hn)
  · exact List.cons_subset_cons pseq hinv.dispatched_arrived

/-- A packet that is dropped changes nothing but the numbers that have arrived. -/
theorem inv_dropped (hinv : Inv s) (hle : pseq ≤ s.reception.lastRemoteSeq)
    (heq : s.reception.receive pseq = (s.reception, false)) : Inv (step s pseq) := by
  have hnot : ¬31 < pseq - s.reception.lastRemoteSeq := by omega
  have hstep : step s pseq =
      { s with arrived := pseq :: s.arrived } := by
    simp [step, Receiver.dispatches, heq, hnot]
  rw [hstep]
  exact
    { hinv with
      dispatched_arrived := fun n hn =>
        List.mem_cons_of_mem _ (hinv.dispatched_arrived n hn) }

theorem inv_step (hinv : Inv s) (hgap : GapBelow s pseq) (hg : JumpNotRepeated s pseq)
    : Inv (step s pseq) := by
  rcases receive_cases hgap with ⟨hjump, heq⟩ | ⟨d, hd, hd31, hdiff, heq⟩ |
    ⟨k, _, hdiff, _, heq⟩ | ⟨k, hk, hdiff, _, heq⟩ | ⟨hfar, heq⟩
  · exact inv_jump hinv hjump heq
  · exact inv_ahead hinv hd hd31 hdiff heq
  · exact inv_dropped hinv (by omega) heq
  · exact inv_late hinv hg hk hdiff heq
  · exact inv_dropped hinv (by omega) heq

/-! ## Replay protection -/

/-- A number that has not arrived is accepted, unless it is too late. -/
theorem dispatches_of_not_arrived (hinv : Inv s) (hgap : GapBelow s pseq) (hnew : pseq ∉ s.arrived)
    (hnear : s.reception.lastRemoteSeq - pseq ≤ 31) : s.dispatches pseq = true := by
  unfold Receiver.dispatches
  rcases receive_cases hgap with ⟨_, heq⟩ | ⟨_, _, _, _, heq⟩ |
    ⟨k, _, hdiff, hset, _⟩ | ⟨_, _, _, _, heq⟩ | ⟨hfar, _⟩
  · rw [heq]
  · rw [heq]
  · have hmem := hinv.dispatched_arrived _ (hinv.dispatched_of_slot k hset)
    have hpseq : s.reception.lastRemoteSeq - k = pseq := by omega
    rw [hpseq] at hmem
    exact absurd hmem hnew
  · rw [heq]
  · omega

/-- The body of a packet is dispatched again exactly when the packet arrived by a
jump and is still in the window. -/
theorem dispatched_again_iff (hinv : Inv s) (hgap : GapBelow s pseq) :
    (s.dispatches pseq = true ∧ pseq ∈ s.dispatched) ↔
      (pseq ∈ s.jumps ∧ s.reception.lastRemoteSeq - pseq ≤ 31) := by
  unfold Receiver.dispatches
  constructor
  · rintro ⟨hdisp, hmem⟩
    have hle := hinv.dispatched_le _ hmem
    rcases receive_cases hgap with ⟨hjump, _⟩ | ⟨d, hd, _, hdiff, _⟩ |
      ⟨_, _, _, _, heq⟩ | ⟨k, hk, hdiff, hslot, _⟩ | ⟨_, heq⟩
    · omega
    · omega
    · rw [heq] at hdisp
      cases hdisp
    · have hpseq : pseq = s.reception.lastRemoteSeq - k := by omega
      refine ⟨?_, by omega⟩
      by_contra hnj
      rw [hpseq] at hmem hnj
      rw [hinv.slot_of_dispatched k hk hmem hnj] at hslot
      cases hslot
    · rw [heq] at hdisp
      cases hdisp
  · rintro ⟨hjump, hnear⟩
    have hmem := hinv.jumps_dispatched _ hjump
    refine ⟨?_, hmem⟩
    have hle := hinv.dispatched_le _ hmem
    rcases receive_cases hgap with ⟨_, heq⟩ | ⟨_, _, _, _, heq⟩ |
      ⟨k, _, hdiff, hset, _⟩ | ⟨_, _, _, _, heq⟩ | ⟨hfar, _⟩
    · rw [heq]
    · rw [heq]
    · have hpseq : pseq = s.reception.lastRemoteSeq - k := by omega
      rw [hpseq] at hjump
      rw [hinv.slot_of_jump k hjump] at hset
      cases hset
    · rw [heq]
    · omega

theorem replaySafe_iff (hinv : Inv s) (hgap : GapBelow s pseq) :
    ReplaySafe s pseq ↔ JumpNotRepeated s pseq := by
  have hagain := dispatched_again_iff hinv hgap
  constructor
  · rintro ⟨honce, _⟩ hjump
    by_contra hnear
    obtain ⟨hdisp, hmem⟩ := hagain.mpr ⟨hjump, by omega⟩
    exact honce hdisp hmem
  · intro hg
    refine ⟨?_, dispatches_of_not_arrived hinv hgap⟩
    intro hdisp hmem
    obtain ⟨hjump, hnear⟩ := hagain.mp ⟨hdisp, hmem⟩
    have hfar := hg hjump
    omega

/-- Every packet of the sequence is replay safe exactly when no packet that arrived
more than 31 ahead arrives again while it is among the last 32 numbers. -/
theorem replay_protection (pseqs : List Int)
    (hgaps : Guarded step GapBelow Receiver.initial pseqs) :
    Guarded step ReplaySafe Receiver.initial pseqs ↔
      Guarded step JumpNotRepeated Receiver.initial pseqs :=
  guarded_congr_within (fun _ _ hinv hgap hg => inv_step hinv hgap hg)
    (fun _ _ hinv hgap => replaySafe_iff hinv hgap) pseqs Receiver.initial inv_initial hgaps

/-- Duplicates, reordering, a jump and a wrap of the wire's numbers. -/
def mixedPackets : List Int :=
  [1, 3, 2, 3, 2000000000, 3999999999, 3999999990, 4000000001, 5000000000, 4999999980]

/-- No packet of these is let through twice. -/
theorem mixedPackets_replaySafe :
    Guarded step GapBelow Receiver.initial mixedPackets ∧
      Guarded step ReplaySafe Receiver.initial mixedPackets := by
  have hgaps : Guarded step GapBelow Receiver.initial mixedPackets := by
    unfold mixedPackets
    simp only [Guarded]
    decide +kernel
  refine ⟨hgaps, (replay_protection mixedPackets hgaps).mpr ?_⟩
  unfold mixedPackets
  simp only [Guarded]
  decide +kernel

/-- Packet 40 arrives 40 ahead of the newest number, twice, and its body is
dispatched twice. -/
theorem repeatedJump_dispatched_twice :
    Guarded step GapBelow Receiver.initial [40, 40] ∧
      (run step Receiver.initial [40, 40]).dispatched = [40, 40] ∧
      ¬ Guarded step ReplaySafe Receiver.initial [40, 40] := by
  simp only [Guarded]
  decide +kernel

end TelegramPub.Ports.VoipReception
