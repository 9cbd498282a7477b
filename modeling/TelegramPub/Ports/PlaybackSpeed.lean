import TelegramPub.Verified.Machine
import TelegramPub.Ports.JitterBuffer

/-!
# The playback speed

The decoder thread takes a packet from the jitter buffer in every iteration, one iteration
ahead of its frame.  Each call of `HandleOutput` also takes up to 20 ms of the outstanding
change of the delay, and says how long the frame is played: 60 ms with the change, which is
right for frames of 60 ms only.

An iteration is one event, with the calls that other threads make between its two calls of
`HandleOutput`.  Only whole iterations are events: a decoder that is stopped in the middle of a
frame is left out, and so are the buffers that the frame is played from.

Two lists are written down beside the state of the thread: the adjustments that `HandleOutput`
takes, and the durations of the frames.
-/

namespace TelegramPub.Ports.PlaybackSpeed

open Verified.Machine Ports.JitterBuffer

variable (config : Config)

/-! ## The decoder thread -/

/-- The variables of `RunThread`, its jitter buffer, and the two lists; `faulted` after a call
that left the array of slots. -/
structure Thread where
  jitterBuffer : State
  first : Bool := true
  nextLen : Nat := 0
  adjustments : List Int := []
  durations : List Int := []
  faulted : Bool := false

/-- The size of `nextBuffer` and `buffer`. -/
abbrev bufferSize : Nat := 8192

/-- What a call of `HandleOutput` takes of the outstanding change. -/
def adjustment (jb : State) (offset : Int) : List Int :=
  let before := (getInternal config jb bufferSize offset).2.outstandingDelayChange
  let after := (handleOutput config jb bufferSize offset).2.2.outstandingDelayChange
  if before - after = 0 then [] else [before - after]

/-- Calls in order. -/
def calls (jb : State) : List Call → Option State
  | [] => some jb
  | c :: cs => (call config jb c).bind fun jb => calls jb cs

/-- One iteration of `RunThread`; `between` are the calls of other threads before the second
call of `HandleOutput`. -/
def iterate (t : Thread) (between : List Call) : Thread :=
  let inLen := t.nextLen
  let (got, playbackDuration, jitterBuffer) := handleOutput config t.jitterBuffer bufferSize 0
  let adjustments := t.adjustments ++ adjustment config t.jitterBuffer 0
  let t := { t with jitterBuffer, adjustments, nextLen := got.size }
  if t.first then { t with first := false }
  else if inLen = 0 then
    match calls config t.jitterBuffer between with
    | none => { t with faulted := true }
    | some jb =>
      let (_, playbackDuration, jitterBuffer) := handleOutput config jb bufferSize (-2)
      { t with
        jitterBuffer
        adjustments := t.adjustments ++ adjustment config jb (-2)
        durations := t.durations ++ [playbackDuration] }
  else { t with durations := t.durations ++ [playbackDuration] }

inductive Event where
  | call (c : Call)
  | iterate (between : List Call)

/-- One event; nothing follows a fault. -/
def step (t : Thread) (e : Event) : Thread :=
  if t.faulted then t
  else
    match e with
    | .call c =>
      match call config t.jitterBuffer c with
      | some jitterBuffer => { t with jitterBuffer }
      | none => { t with faulted := true }
    | .iterate between => iterate config t between

/-- The start of the thread. -/
def start (nextTimestamp : Int) (latePacketCount : UInt32) : Thread :=
  { jitterBuffer := create nextTimestamp latePacketCount }

/-- The nominal duration of a frame: the decoder and the jitter buffer get the duration of the
frames of the stream, and it is the step of the latter. -/
def nominal : Int := config.step.toNat

/-- The frames that are played shorter or longer, by how much. -/
def scaled (durations : List Int) : List Int :=
  (durations.map (· - nominal config)).filter (· ≠ 0)

/-- Every adjustment is the change of one frame, and the sums agree. -/
def Conserved (t : Thread) : Prop :=
  scaled config t.durations = t.adjustments ∧
    t.durations.sum = nominal config * t.durations.length + t.adjustments.sum

instance (t : Thread) : Decidable (Conserved config t) :=
  inferInstanceAs (Decidable (_ ∧ _))

theorem scaled_append (ds es : List Int) :
    scaled config (ds ++ es) = scaled config ds ++ scaled config es := by
  simp [scaled]

/-- The sums agree as soon as the lists do. -/
theorem sum_durations (ds : List Int) :
    ds.sum = nominal config * ds.length + (scaled config ds).sum := by
  induction ds with
  | nil => simp [scaled]
  | cons d ds ih =>
    have hcons : (scaled config (d :: ds)).sum = (d - nominal config) + (scaled config ds).sum := by
      by_cases hd : d - nominal config = 0
      · simp [scaled, hd]
      · simp [scaled, hd]
    rw [List.sum_cons, ih, hcons, List.length_cons]
    push_cast
    ring

theorem conserved_iff (t : Thread) :
    Conserved config t ↔ scaled config t.durations = t.adjustments := by
  constructor
  · exact fun h => h.1
  · intro h
    exact ⟨h, h ▸ sum_durations config t.durations⟩

/-! ## What HandleOutput takes -/

theorem scaledDuration_left (o : Int) :
    o - (scaledDuration o).2 = (scaledDuration o).1 - 60 := by
  unfold scaledDuration
  split
  · split <;> simp
  · simp

theorem scaledDuration_sixty_iff (o : Int) : (scaledDuration o).1 - 60 = 0 ↔ o = 0 := by
  unfold scaledDuration
  split
  next hne => split <;> simp [hne]
  next hzero => simpa using hzero

/-- `HandleOutput` takes what its duration says, if frames have 60 ms. -/
theorem adjustment_eq (hstep : config.step = 60) (jb : State) (offset : Int) :
    adjustment config jb offset =
      scaled config [(handleOutput config jb bufferSize offset).2.1] := by
  have hnominal : nominal config = 60 := by
    rw [nominal, hstep]
    rfl
  have hleft := scaledDuration_left
    (getInternal config jb bufferSize offset).2.outstandingDelayChange
  simp only [adjustment, handleOutput, hleft, scaled, hnominal, List.map_cons, List.map_nil]
  split
  next hzero => simp [hzero]
  next hne => simp [hne]

theorem adjustment_nil_iff (jb : State) (offset : Int) :
    adjustment config jb offset = [] ↔
      (getInternal config jb bufferSize offset).2.outstandingDelayChange = 0 := by
  have hleft := scaledDuration_left
    (getInternal config jb bufferSize offset).2.outstandingDelayChange
  have hiff := scaledDuration_sixty_iff
    (getInternal config jb bufferSize offset).2.outstandingDelayChange
  simp only [adjustment, handleOutput, hleft, ← hiff]
  split
  next hzero => simp [hzero]
  next hne => simp [hne]

theorem countLoss_outstanding (jb : State) (offset : Int) :
    (countLoss config jb offset).outstandingDelayChange =
      if tooManyLosses config (noteLoss jb offset) then 0 else jb.outstandingDelayChange := by
  cases hlosses : tooManyLosses config (noteLoss jb offset) with
  | true => simp [countLoss, hlosses]
  | false => simp [countLoss, hlosses]

theorem takePacket_outstanding (jb : State) (len : Nat) (offset : Int) (i : Nat) :
    (takePacket config jb len offset i).2.outstandingDelayChange = jb.outstandingDelayChange :=
  advanceAt_outstanding config (releaseSlot jb i) offset

theorem missPacket_outstanding (jb : State) (offset : Int) :
    (missPacket config jb offset).2.outstandingDelayChange =
      if jb.needBuffering = false ∧ tooManyLosses config (noteLoss jb offset) = true then 0
      else jb.outstandingDelayChange := by
  cases hbuffering : jb.needBuffering with
  | true => simp [missPacket, hbuffering]
  | false => simp [missPacket, hbuffering, countLoss_outstanding]

theorem getInternal_outstanding (jb : State) (len : Nat) (offset : Int) :
    (getInternal config jb len offset).2.outstandingDelayChange =
      if Resets config jb offset then 0 else jb.outstandingDelayChange := by
  cases hfind : findTimestamp jb.slots (jb.nextTimestamp + offset * config.step.toNat) with
  | some i => simp [getInternal, Resets, hfind, takePacket_outstanding]
  | none => simp [getInternal, Resets, hfind, missPacket_outstanding]

/-- Frames have 60 ms when one is played; and an iteration that does not play the duration of
its first call finds no outstanding change there: the thread begins, or it plays a late packet. -/
def PlaysAdjustments (t : Thread) : Event → Prop
  | .call _ => True
  | .iterate _ =>
    t.faulted = false → (t.first = false → config.step = 60) ∧
      (t.first = true ∨ t.nextLen = 0 →
        t.jitterBuffer.outstandingDelayChange = 0 ∨ Resets config t.jitterBuffer 0)

/-- The first call of an iteration takes nothing. -/
theorem first_adjustment_iff (jb : State) :
    adjustment config jb 0 = [] ↔ jb.outstandingDelayChange = 0 ∨ Resets config jb 0 := by
  rw [adjustment_nil_iff, getInternal_outstanding]
  split
  next hresets => simp [hresets]
  next hresets => simp [hresets]

theorem iterate_first (t : Thread) (between : List Call) (hfirst : t.first = true) :
    (iterate config t between).adjustments =
        t.adjustments ++ adjustment config t.jitterBuffer 0 ∧
      (iterate config t between).durations = t.durations := by
  simp [iterate, hfirst]

theorem iterate_plays (hstep : config.step = 60) (t : Thread) (between : List Call)
    (hfirst : t.first = false) (hlen : t.nextLen ≠ 0) :
    ∃ ds : List Int,
      (iterate config t between).adjustments = t.adjustments ++ scaled config ds ∧
        (iterate config t between).durations = t.durations ++ ds := by
  refine ⟨[(handleOutput config t.jitterBuffer bufferSize 0).2.1], ?_, ?_⟩
  · simp [iterate, hfirst, hlen, adjustment_eq config hstep]
  · simp [iterate, hfirst, hlen]

/-- An iteration without one plays the duration of its second call, unless it faults. -/
theorem iterate_late (hstep : config.step = 60) (t : Thread) (between : List Call)
    (hfirst : t.first = false) (hlen : t.nextLen = 0) :
    ∃ ds : List Int,
      (iterate config t between).adjustments =
          t.adjustments ++ adjustment config t.jitterBuffer 0 ++ scaled config ds ∧
        (iterate config t between).durations = t.durations ++ ds := by
  cases hcalls : calls config (handleOutput config t.jitterBuffer bufferSize 0).2.2 between with
  | none => exact ⟨[], by simp [iterate, hfirst, hlen, hcalls, scaled]⟩
  | some jb =>
    refine ⟨[(handleOutput config jb bufferSize (-2)).2.1], ?_, ?_⟩
    · simp [iterate, hfirst, hlen, hcalls, adjustment_eq config hstep]
    · simp [iterate, hfirst, hlen, hcalls]

theorem step_call_lists (t : Thread) (c : Call) :
    (step config t (.call c)).adjustments = t.adjustments ∧
      (step config t (.call c)).durations = t.durations := by
  cases hfaulted : t.faulted with
  | true => simp [step, hfaulted]
  | false =>
    grind [step]

/-- A guarded step keeps the lists matched. -/
theorem step_conserved (t : Thread) (e : Event)
    (h : scaled config t.durations = t.adjustments) (hplays : PlaysAdjustments config t e) :
    scaled config (step config t e).durations = (step config t e).adjustments := by
  cases e with
  | call c =>
    obtain ⟨hadjustments, hdurations⟩ := step_call_lists config t c
    rw [hadjustments, hdurations, h]
  | iterate between =>
    cases hfaulted : t.faulted with
    | true => simpa [step, hfaulted] using h
    | false =>
      have hstep : step config t (.iterate between) = iterate config t between := by
        simp [step, hfaulted]
      rw [hstep]
      have hnothing := fun hor => (first_adjustment_iff config t.jitterBuffer).2
        ((hplays hfaulted).2 hor)
      cases hfirst : t.first with
      | true =>
        obtain ⟨hadjustments, hdurations⟩ := iterate_first config t between hfirst
        rw [hadjustments, hdurations, hnothing (.inl hfirst), List.append_nil, h]
      | false =>
        have hsixty := (hplays hfaulted).1 hfirst
        by_cases hlen : t.nextLen = 0
        · obtain ⟨ds, hadjustments, hdurations⟩ :=
            iterate_late config hsixty t between hfirst hlen
          rw [hadjustments, hdurations, hnothing (.inr hlen), List.append_nil,
            scaled_append, h]
        · obtain ⟨ds, hadjustments, hdurations⟩ :=
            iterate_plays config hsixty t between hfirst hlen
          rw [hadjustments, hdurations, scaled_append, h]

/-- A step that fails the guard takes an adjustment for no frame. -/
theorem step_loses (hsixty : config.step = 60) (t : Thread) (e : Event)
    (h : scaled config t.durations = t.adjustments) (hloses : ¬ PlaysAdjustments config t e) :
    scaled config (step config t e).durations ≠ (step config t e).adjustments := by
  cases e with
  | call c => exact absurd trivial hloses
  | iterate between =>
    simp only [PlaysAdjustments, hsixty, implies_true, true_and, Classical.not_imp] at hloses
    obtain ⟨hfaulted, hor, hpending⟩ := hloses
    have hstep : step config t (.iterate between) = iterate config t between := by
      simp [step, hfaulted]
    have htaken : adjustment config t.jitterBuffer 0 ≠ [] :=
      mt (first_adjustment_iff config t.jitterBuffer).1 hpending
    rw [hstep]
    cases hfirst : t.first with
    | true =>
      obtain ⟨hadjustments, hdurations⟩ := iterate_first config t between hfirst
      rw [hadjustments, hdurations, h]
      simpa using htaken
    | false =>
      have hlen : t.nextLen = 0 := by simpa [hfirst] using hor
      obtain ⟨ds, hadjustments, hdurations⟩ := iterate_late config hsixty t between hfirst hlen
      rw [hadjustments, hdurations, scaled_append, h, List.append_assoc]
      simpa using htaken

/-- In the runs of the decoder and of the other threads, every adjustment that `HandleOutput`
takes is played by one frame in every state if frames have 60 ms and the iterations that do not
play the duration of their first call find nothing outstanding there; and for frames of 60 ms
only if they do. -/
theorem adjustments_conserved (nextTimestamp : Int) (latePacketCount : UInt32) (es : List Event) :
    (Guarded (step config) (PlaysAdjustments config) (start nextTimestamp latePacketCount) es →
      ∀ k, Conserved config
        (run (step config) (start nextTimestamp latePacketCount) (es.take k))) ∧
    (config.step = 60 →
      (∀ k, Conserved config
        (run (step config) (start nextTimestamp latePacketCount) (es.take k))) →
      Guarded (step config) (PlaysAdjustments config) (start nextTimestamp latePacketCount) es) := by
  have hkeeps := fun t e h hplays => step_conserved config t e h hplays
  constructor
  · intro hguarded k
    exact (conserved_iff config _).2 (guarded_invariant
      (fun t e hplays h => hkeeps t e h hplays) _ _ (hguarded.take k) rfl)
  · intro hsixty
    exact (reached_iff_guarded (step config) (PlaysAdjustments config) (Conserved config)
      (fun t => (conserved_iff config t).2) hkeeps
      (fun t e h hloses hconserved => step_loses config hsixty t e h hloses hconserved.1)
      es (start nextTimestamp latePacketCount) rfl).1

/-- Before the first packet a tick asks for less delay.  The next iteration has no packet, so
two calls take 20 ms each, and one frame is played for 40 ms. -/
theorem adjustment_lost : ¬ Conserved config60 (run (step config60) (start 0 0)
    [.iterate [], .call (.tick 0), .iterate []]) := by
  decide +kernel

end TelegramPub.Ports.PlaybackSpeed
