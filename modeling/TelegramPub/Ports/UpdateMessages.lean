/-!
# TGUpdateMessageService

The service collects the update messages it receives and processes them in a
block on the service queue, where its callbacks run as well.  It holds them back
while the transport is not ready.  A block remembers the session it was scheduled
in, and a block of another session does nothing.
-/

namespace TelegramPub.Ports.UpdateMessages

/-- `TGUpdateMessageService`, and the session tokens of the blocks on its queue. -/
structure Service (μ : Type) where
  sessionToken : Int32 := 0
  holdUpdates : Bool := false
  scheduledMessageProcessing : Bool := false
  messagesToProcess : List μ := []
  isNetworkAvailable : Bool := false
  isConnected : Bool := false
  isUpdatingConnectionContext : Bool := false
  isPerformingServiceTasks : Bool := false
  queue : List Int32 := []
  deriving DecidableEq

/-- The callbacks of the service, and the first block of the queue. -/
inductive Event (μ : Type) where
  | networkAvailabilityChanged (isNetworkAvailable : Bool)
  | connectionStateChanged (isConnected : Bool)
  | connectionContextUpdateStateChanged (isUpdatingConnectionContext : Bool)
  | serviceTasksStateChanged (isPerformingServiceTasks : Bool)
  | didChangeSession
  | serverDidChangeSession
  | receivedMessage (message : μ)
  | runBlock

variable {μ : Type}

/-- `reset:`. -/
def Service.reset (s : Service μ) (clearMessages : Bool) : Service μ :=
  let s := { s with sessionToken := s.sessionToken + 1, holdUpdates := false }
  if clearMessages then { s with scheduledMessageProcessing := false, messagesToProcess := [] }
  else s

/-- `addMessageToQueueAndScheduleProcessing:`. -/
def Service.addMessageToQueueAndScheduleProcessing (s : Service μ) (message : Option μ) :
    Service μ :=
  let s := { s with messagesToProcess := s.messagesToProcess ++ message.toList }
  if !s.scheduledMessageProcessing && !s.holdUpdates then
    { s with scheduledMessageProcessing := true, queue := s.queue ++ [s.sessionToken] }
  else s

/-- The `holdUpdates` of `updateHoldUpdates`. -/
def Service.mustHold (s : Service μ) : Bool :=
  !s.isConnected || s.isUpdatingConnectionContext || s.isPerformingServiceTasks

/-- `updateHoldUpdates`. -/
def Service.updateHoldUpdates (s : Service μ) : Service μ :=
  if s.holdUpdates ≠ s.mustHold then
    let s := { s with holdUpdates := s.mustHold }
    if !s.holdUpdates then
      { s with scheduledMessageProcessing := false }.addMessageToQueueAndScheduleProcessing none
    else s
  else s

/-- The block of `addMessageToQueueAndScheduleProcessing:`, and the messages that
it passes to `processMessages:`. -/
def Service.runBlock (s : Service μ) : Service μ × List μ :=
  match s.queue with
  | [] => (s, [])
  | currentSessionToken :: queue =>
    let s := { s with queue, scheduledMessageProcessing := false }
    if currentSessionToken ≠ s.sessionToken then (s, [])
    else ({ s with messagesToProcess := [] }, s.messagesToProcess)

/-- A callback or a block, and the messages that are processed.  `isUpdates` says
whether the body of a message is a `TLUpdates`. -/
def Service.step (isUpdates : μ → Bool) (s : Service μ) : Event μ → Service μ × List μ
  | .networkAvailabilityChanged isNetworkAvailable =>
    ({ s with isNetworkAvailable }.updateHoldUpdates, [])
  | .connectionStateChanged isConnected => ({ s with isConnected }.updateHoldUpdates, [])
  | .connectionContextUpdateStateChanged isUpdatingConnectionContext =>
    ({ s with isUpdatingConnectionContext }.updateHoldUpdates, [])
  | .serviceTasksStateChanged isPerformingServiceTasks =>
    ({ s with isPerformingServiceTasks }.updateHoldUpdates, [])
  | .didChangeSession => (s.reset true, [])
  | .serverDidChangeSession => (s.reset false, [])
  | .receivedMessage message =>
    (if isUpdates message then s.addMessageToQueueAndScheduleProcessing (some message) else s, [])
  | .runBlock => s.runBlock

/-- A run, and all the messages it passes to `processMessages:`. -/
def Service.run (isUpdates : μ → Bool) (s : Service μ) : List (Event μ) → Service μ × List μ
  | [] => (s, [])
  | event :: events =>
    let next := s.step isUpdates event
    ((next.1.run isUpdates events).1, next.2 ++ (next.1.run isUpdates events).2)

/-- The message that an event gives to the service. -/
def Event.given (isUpdates : μ → Bool) : Event μ → List μ
  | .receivedMessage message => if isUpdates message then [message] else []
  | _ => []

/-- The messages that a run is given. -/
def given (isUpdates : μ → Bool) (events : List (Event μ)) : List μ :=
  events.flatMap (Event.given isUpdates)

/-- No message waits without a reason: while nothing is queued and the transport is
ready, none waits. -/
def Service.Delivers (s : Service μ) : Prop :=
  s.queue = [] → s.mustHold = false → s.messagesToProcess = []

/-- What the session changes of the server may meet.  The change clears a hold: no
message may be held back, or a block must be queued.  A block of another session
forgets the messages: none may wait, unless they are held back or there is another
block behind it. -/
def Service.Meets (s : Service μ) : Event μ → Prop
  | .serverDidChangeSession =>
    s.holdUpdates = true → s.messagesToProcess = [] ∨ s.queue ≠ []
  | .runBlock => ∀ token queue, s.queue = token :: queue → token ≠ s.sessionToken →
      s.messagesToProcess = [] ∨ s.holdUpdates = true ∨ queue ≠ []
  | _ => True

/-- The steps of a run meet the condition. -/
def Service.Meeting (isUpdates : μ → Bool) (s : Service μ) : List (Event μ) → Prop
  | [] => True
  | event :: events => s.Meets event ∧ (s.step isUpdates event).1.Meeting isUpdates events

variable {isUpdates : μ → Bool}

@[simp] theorem addMessage_messages (s : Service μ) (message : Option μ) :
    (s.addMessageToQueueAndScheduleProcessing message).messagesToProcess =
      s.messagesToProcess ++ message.toList := by
  simp only [Service.addMessageToQueueAndScheduleProcessing]
  split <;> rfl

@[simp] theorem updateHoldUpdates_messages (s : Service μ) :
    s.updateHoldUpdates.messagesToProcess = s.messagesToProcess := by
  simp only [Service.updateHoldUpdates]
  split
  · split <;> simp
  · rfl

/-- Only `mtProtoDidChangeSession` discards messages. -/
theorem step_messages (s : Service μ) {event : Event μ} (h : event ≠ .didChangeSession) :
    (s.step isUpdates event).2 ++ (s.step isUpdates event).1.messagesToProcess =
      s.messagesToProcess ++ event.given isUpdates := by
  cases event with
  | didChangeSession => exact absurd rfl h
  | runBlock => unfold Service.step Service.runBlock; grind [Event.given]
  | receivedMessage message =>
    by_cases hm : isUpdates message <;> simp [Service.step, Event.given, hm]
  | _ => simp [Service.step, Event.given, Service.reset]

/-- Without `mtProtoDidChangeSession` every message is processed or waits. -/
theorem run_messages {events : List (Event μ)} (h : Event.didChangeSession ∉ events)
    (s : Service μ) :
    (s.run isUpdates events).2 ++ (s.run isUpdates events).1.messagesToProcess =
      s.messagesToProcess ++ given isUpdates events := by
  induction events generalizing s with
  | nil => simp [Service.run, given]
  | cons event events ih =>
    grind [Service.run, given, step_messages]

/-- Every message is processed at most once, and in the order of arrival. -/
theorem run_sublist (events : List (Event μ)) (s : Service μ) :
    ((s.run isUpdates events).2 ++ (s.run isUpdates events).1.messagesToProcess).Sublist
      (s.messagesToProcess ++ given isUpdates events) := by
  induction events generalizing s with
  | nil => simp [Service.run, given]
  | cons event events ih =>
    have hrest := (ih (s.step isUpdates event).1).append_left (s.step isUpdates event).2
    simp only [Service.run, List.append_assoc, given, List.flatMap_cons] at hrest ⊢
    refine hrest.trans ?_
    rw [← List.append_assoc, ← List.append_assoc]
    refine List.Sublist.append_right ?_ _
    by_cases h : event = .didChangeSession
    · simp [h, Service.step, Service.reset]
    · simp [step_messages s h]

/-! ## No message is stranded -/

/-- Messages wait while they are held back or a block is queued, and they are held
back only while the transport is not ready. -/
structure Inv (s : Service μ) : Prop where
  scheduled : s.scheduledMessageProcessing = true → s.queue ≠ []
  hold : s.holdUpdates = true → s.mustHold = true
  waiting : s.messagesToProcess ≠ [] → s.holdUpdates = true ∨ s.queue ≠ []

variable {s : Service μ}

theorem Inv.addMessage (h : Inv s) (message : Option μ) :
    Inv (s.addMessageToQueueAndScheduleProcessing message) := by
  obtain ⟨hscheduled, hhold, hwaiting⟩ := h
  simp only [Service.addMessageToQueueAndScheduleProcessing]
  split
  · exact ⟨by simp, hhold, by simp⟩
  · exact ⟨hscheduled, hhold, by grind⟩

/-- A change of the transport's state, and the hold that follows from it. -/
theorem inv_updateHoldUpdates (hscheduled : s.scheduledMessageProcessing = true → s.queue ≠ [])
    (hwaiting : s.messagesToProcess ≠ [] → s.holdUpdates = true ∨ s.queue ≠ []) :
    Inv s.updateHoldUpdates := by
  simp only [Service.updateHoldUpdates]
  split
  · cases hhold : s.mustHold
    · exact ⟨by simp [Service.addMessageToQueueAndScheduleProcessing],
        by simp [Service.addMessageToQueueAndScheduleProcessing],
        by simp [Service.addMessageToQueueAndScheduleProcessing]⟩
    · exact ⟨hscheduled, fun _ => hhold, fun _ => .inl rfl⟩
  · exact ⟨hscheduled, by grind, hwaiting⟩

theorem Inv.step (h : Inv s) {event : Event μ} (hmeets : s.Meets event) :
    Inv (s.step isUpdates event).1 := by
  cases event with
  | networkAvailabilityChanged => exact inv_updateHoldUpdates h.scheduled h.waiting
  | connectionStateChanged => exact inv_updateHoldUpdates h.scheduled h.waiting
  | connectionContextUpdateStateChanged => exact inv_updateHoldUpdates h.scheduled h.waiting
  | serviceTasksStateChanged => exact inv_updateHoldUpdates h.scheduled h.waiting
  | didChangeSession => exact ⟨nofun, nofun, fun hne => absurd rfl hne⟩
  | serverDidChangeSession =>
    exact ⟨h.scheduled, nofun, fun hne => .inr ((h.waiting hne).elim
      (fun hhold => (hmeets hhold).resolve_left hne) id)⟩
  | receivedMessage message =>
    simp only [Service.step]
    split
    · exact h.addMessage _
    · exact h
  | runBlock =>
    simp only [Service.step, Service.runBlock]
    cases hqueue : s.queue with
    | nil => exact h
    | cons token queue =>
      by_cases htoken : token ≠ s.sessionToken
      · simp only [if_pos htoken]
        exact ⟨nofun, h.hold, fun hne => (hmeets token queue hqueue htoken).resolve_left hne⟩
      · simp only [if_neg htoken]
        exact ⟨nofun, h.hold, fun hne => absurd rfl hne⟩

theorem Inv.run {events : List (Event μ)} (h : Inv s)
    (hmeets : s.Meeting isUpdates events) : Inv (s.run isUpdates events).1 := by
  induction events generalizing s with
  | nil => exact h
  | cons event events ih => exact ih (h.step hmeets.1) hmeets.2

theorem Inv.delivers (h : Inv s) : s.Delivers := by
  intro hqueue hready
  cases hmessages : s.messagesToProcess with
  | nil => rfl
  | cons message messages =>
    cases h.waiting (by simp [hmessages]) with
    | inl hhold => simp [h.hold hhold] at hready
    | inr hblock => exact absurd hqueue hblock

/-- A run from the beginning.  Each message is processed at most once, in the order
of arrival; from the state that is reached on, only `mtProtoDidChangeSession` discards
any; and where the steps meet the condition, none is stranded. -/
theorem messages_delivered (events : List (Event μ))
    (hmeets : ({} : Service μ).Meeting isUpdates events) :
    let s := (({} : Service μ).run isUpdates events).1
    ((({} : Service μ).run isUpdates events).2 ++ s.messagesToProcess).Sublist
        (given isUpdates events) ∧
      (∀ later, Event.didChangeSession ∉ later →
        (s.run isUpdates later).2 ++ (s.run isUpdates later).1.messagesToProcess =
          s.messagesToProcess ++ given isUpdates later) ∧
      s.Delivers := by
  have hstart : Inv ({} : Service μ) := ⟨nofun, nofun, fun hne => absurd rfl hne⟩
  exact ⟨run_sublist events {}, fun later hlater => run_messages hlater _,
    (hstart.run hmeets).delivers⟩

/-- The server changes the session while a message is held back and its block is queued.  When
the block runs, its token is outdated, and the messages are held back again. -/
def changedWhileHeld : List (Event Nat) :=
  [.connectionStateChanged true, .receivedMessage 7, .serviceTasksStateChanged true,
    .serverDidChangeSession, .receivedMessage 8, .networkAvailabilityChanged true, .runBlock,
    .serviceTasksStateChanged false, .runBlock]

/-- Both messages are processed when the hold ends. -/
theorem messages_delivered_held :
    let s := (({} : Service Nat).run (fun _ => true) changedWhileHeld).1
    (((({} : Service Nat).run (fun _ => true) changedWhileHeld).2 ++ s.messagesToProcess).Sublist
        (given (fun _ => true) changedWhileHeld) ∧
      (∀ later, Event.didChangeSession ∉ later →
        (s.run (fun _ => true) later).2 ++ (s.run (fun _ => true) later).1.messagesToProcess =
          s.messagesToProcess ++ given (fun _ => true) later) ∧
      s.Delivers) ∧
    (({} : Service Nat).run (fun _ => true) changedWhileHeld).2 = [7, 8] := by
  refine ⟨messages_delivered changedWhileHeld ?_, by decide⟩
  refine ⟨trivial, trivial, trivial, fun _ => .inr (by decide), trivial, trivial,
    fun _ _ _ _ => .inr (.inl rfl), trivial, ?_, trivial⟩
  intro token queue hqueue htoken
  cases hqueue
  exact absurd rfl htoken

/-- The block that was queued when the server changed the session forgets the
message, and the transport is ready. -/
theorem serverDidChangeSession_strands :
    ¬ (({} : Service Nat).run (fun _ => true) [.connectionStateChanged true, .receivedMessage 7,
      .serverDidChangeSession, .runBlock]).1.Delivers :=
  fun h => absurd (h rfl rfl) (by decide)

/-- A message that was held back is forgotten with the hold. -/
theorem serverDidChangeSession_releases :
    ¬ (({} : Service Nat).run (fun _ => true)
      [.connectionStateChanged true, .connectionStateChanged false, .runBlock, .receivedMessage 7,
        .serverDidChangeSession, .connectionStateChanged true]).1.Delivers :=
  fun h => absurd (h rfl rfl) (by decide)

end TelegramPub.Ports.UpdateMessages
