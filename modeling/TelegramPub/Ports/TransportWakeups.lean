import TelegramPub.Verified.Machine
import Mathlib.Algebra.Order.Ring.Unbundled.Rat

/-!
# Wake-ups of the transport

`setDelegateNeedsTransaction` asks an `MTTcpTransport` to call its delegate.  The
call is put off to the next pass of the queue, left out while an answer to an
earlier call is waited for, and left out while there is no open connection.  This
module is one transport with its queue, its flags and the clock, and a log of what
was asked for and of the calls that were made.  The invariant `Awake` says where a demand that
was not followed by a call is kept.
-/

namespace TelegramPub.Ports.TransportWakeups

open Verified.Machine

/-- `MTTcpTransportContext` with its connection behaviour.  Connections are known by
a number; of the timers only matters whether they run. -/
structure Transport where
  connection : Option Nat := none
  connectionConnected : Bool := false
  stopped : Bool := false
  needsReconnection : Bool := true
  backoffCount : Nat := 0
  backoffTimer : Bool := false
  willRequestTransactionOnNextQueuePass : Bool := false
  transactionLockTime : Rat := 0
  isWaitingForTransactionToBecomeReady : Bool := false
  requestAnotherTransactionWhenReady : Bool := false
  didSendActualizationPingAfterConnection : Bool := false
  currentActualizationPingMessageId : Int := 0
  actualizationPingResendTimer : Bool := false
  deriving DecidableEq

/-- What others dispatch to the transport queue. -/
inductive Notice where
  | tcpConnectionOpened (connection : Nat)
  | tcpConnectionClosed (connection : Nat)
  | tcpConnectionReceivedData (connection : Nat)
  | connectionIsValid (connection : Nat)
  /-- The completion of the ping, with the id of the prepared message. -/
  | pingPrepared (messageId : Int)
  | didChangeSession
  | serverDidChangeSession (firstValidMessageId : Int) (otherValidMessageIds : List Int)
  | receivedPong (messageId : Int)
  | messageDeliveryFailed (messageId : Int)
  | networkAvailabilityChanged (networkAvailable : Bool)
  | stop
  deriving DecidableEq

/-- The blocks of the transport queue. -/
inductive Block where
  | setDelegateNeedsTransaction
  /-- The block of `setDelegateNeedsTransaction` -/
  | transactionPass
  | transactionReady
  | backoffTimer
  | resendActualizationPing
  | notice (notice : Notice)
  deriving DecidableEq

/-- What is remembered of the past. -/
inductive Entry where
  | setDelegateNeedsTransaction
  | transportReadyForTransaction
  deriving DecidableEq

/-- The transport, its queue, the calls that were not answered, and the clock. -/
structure World where
  transport : Transport := {}
  queue : List Block := []
  outstanding : Nat := 0
  now : Rat := 0
  connections : Nat := 0
  log : List Entry := []

/-- The clock when a block runs; it may go on between two readings. -/
structure Readings where
  first : Rat
  second : Rat

/-- Whether the lock on transactions holds: the ping of this connection was sent, and
the lock is at most a second old. -/
def isLocked (t : Transport) (now : Rat) : Bool :=
  t.isWaitingForTransactionToBecomeReady && t.didSendActualizationPingAfterConnection &&
    !decide (t.transactionLockTime + 1 < now)

/-- `_requestTransactionFromDelegate`. -/
def requestTransactionFromDelegate (w : World) (readings : Readings) : World :=
  let now := max w.now readings.first
  if isLocked w.transport now then
    { w with
      now
      transport := { w.transport with requestAnotherTransactionWhenReady := true } }
  else
    let now := max now readings.second
    { w with
      now
      outstanding := w.outstanding + 1
      log := w.log ++ [.transportReadyForTransaction]
      transport := { w.transport with
        isWaitingForTransactionToBecomeReady := true
        transactionLockTime := now
        didSendActualizationPingAfterConnection := true } }

/-- `startIfNeeded`. -/
def startIfNeeded (w : World) : World :=
  match w.transport.connection with
  | some _ => w
  | none =>
    { w with
      connections := w.connections + 1
      transport := { w.transport with connection := some w.connections } }

/-- `timerEvent` of the behaviour, with `tcpConnectionBehaviourRequestsReconnection:`. -/
def timerEvent (w : World) : World :=
  let w := { w with transport := { w.transport with backoffTimer := false } }
  if w.transport.stopped then w else startIfNeeded w

/-- `requestConnection` of the behaviour. -/
def requestConnection (w : World) : World :=
  if w.transport.backoffTimer then w else timerEvent w

/-- `connectionClosed` of the behaviour. -/
def behaviourConnectionClosed (w : World) : World :=
  if w.transport.needsReconnection then
    let w := { w with transport := { w.transport with
      backoffCount := w.transport.backoffCount + 1 } }
    if w.transport.backoffCount = 1 then timerEvent w
    else { w with transport := { w.transport with backoffTimer := true } }
  else w

/-- The ping that the transport waits for is settled. -/
def forgetPing (w : World) : World :=
  { w with transport := { w.transport with
    currentActualizationPingMessageId := 0
    actualizationPingResendTimer := false } }

/-- The block `transactionReady`.  What it does with the transactions does not
matter here. -/
def transactionReady (w : World) (readings : Readings) : World :=
  let asks := w.transport.requestAnotherTransactionWhenReady
  let w := { w with transport := { w.transport with
    isWaitingForTransactionToBecomeReady := false
    requestAnotherTransactionWhenReady := false } }
  if asks then requestTransactionFromDelegate w readings else w

/-- The block of `setDelegateNeedsTransaction` on the next pass of the queue. -/
def transactionPass (w : World) (readings : Readings) : World :=
  let w := { w with transport := { w.transport with
    willRequestTransactionOnNextQueuePass := false } }
  if w.transport.connection = none then requestConnection w
  else if w.transport.connectionConnected then requestTransactionFromDelegate w readings
  else w

def tcpConnectionOpened (w : World) (connection : Nat) (readings : Readings) : World :=
  if w.transport.connection = some connection then
    requestTransactionFromDelegate
      { w with transport := { w.transport with
        connectionConnected := true
        didSendActualizationPingAfterConnection := false
        currentActualizationPingMessageId := 0 } } readings
  else w

def tcpConnectionClosed (w : World) (connection : Nat) : World :=
  if w.transport.connection = some connection then
    let w := behaviourConnectionClosed { w with transport := { w.transport with
      connectionConnected := false
      connection := none } }
    { w with transport := { w.transport with
      didSendActualizationPingAfterConnection := false
      currentActualizationPingMessageId := 0 } }
  else w

def resendActualizationPing (w : World) (readings : Readings) : World :=
  let w := { w with transport := { w.transport with actualizationPingResendTimer := false } }
  if w.transport.currentActualizationPingMessageId ≠ 0 then
    requestTransactionFromDelegate
      { w with transport := { w.transport with
        didSendActualizationPingAfterConnection := false
        currentActualizationPingMessageId := 0 } } readings
  else w

def runNotice (w : World) (readings : Readings) : Notice → World
  | .tcpConnectionOpened connection => tcpConnectionOpened w connection readings
  | .tcpConnectionClosed connection => tcpConnectionClosed w connection
  | .tcpConnectionReceivedData connection =>
    if w.transport.connection = some connection ∧
        w.transport.currentActualizationPingMessageId ≠ 0 then
      { w with transport := { w.transport with actualizationPingResendTimer := true } }
    else w
  | .connectionIsValid connection =>
    if w.transport.connection = some connection then
      { w with transport := { w.transport with backoffCount := 0, backoffTimer := false } }
    else w
  | .pingPrepared messageId =>
    { w with transport := { w.transport with currentActualizationPingMessageId := messageId } }
  | .didChangeSession => forgetPing w
  | .serverDidChangeSession firstValidMessageId otherValidMessageIds =>
    let messageId := w.transport.currentActualizationPingMessageId
    if messageId ≠ 0 ∧ messageId < firstValidMessageId ∧ messageId ∉ otherValidMessageIds then
      forgetPing w
    else w
  | .receivedPong messageId =>
    if w.transport.currentActualizationPingMessageId ≠ 0 ∧
        messageId = w.transport.currentActualizationPingMessageId then forgetPing w
    else w
  | .messageDeliveryFailed messageId =>
    if w.transport.currentActualizationPingMessageId ≠ 0 ∧
        messageId = w.transport.currentActualizationPingMessageId then forgetPing w
    else w
  | .networkAvailabilityChanged networkAvailable =>
    if networkAvailable then
      { w with transport := { w.transport with backoffCount := 0 } }
    else w
  | .stop =>
    { w with transport := { w.transport with
      stopped := true
      connectionConnected := false
      needsReconnection := false
      connection := none
      actualizationPingResendTimer := false } }

def runBlock (w : World) (readings : Readings) : Block → World
  | .setDelegateNeedsTransaction =>
    if w.transport.willRequestTransactionOnNextQueuePass then w
    else
      { w with
        transport := { w.transport with willRequestTransactionOnNextQueuePass := true }
        queue := w.queue ++ [.transactionPass] }
  | .transactionPass => transactionPass w readings
  | .transactionReady => transactionReady w readings
  | .backoffTimer => timerEvent w
  | .resendActualizationPing => resendActualizationPing w readings
  | .notice notice => runNotice w readings notice

inductive Event where
  /-- Somebody calls `setDelegateNeedsTransaction` -/
  | setDelegateNeedsTransaction
  | notice (notice : Notice)
  /-- The delegate answers one of the calls that it has not answered. -/
  | answer
  | backoffTimerFires
  | resendTimerFires
  /-- The next block of the queue runs. -/
  | run (readings : Readings)

def step (w : World) : Event → World
  | .setDelegateNeedsTransaction =>
    { w with
      queue := w.queue ++ [.setDelegateNeedsTransaction]
      log := w.log ++ [.setDelegateNeedsTransaction] }
  | .notice notice => { w with queue := w.queue ++ [.notice notice] }
  | .answer =>
    if w.outstanding = 0 then w
    else
      { w with
        outstanding := w.outstanding - 1
        queue := w.queue ++ [.transactionReady] }
  | .backoffTimerFires =>
    if w.transport.backoffTimer then { w with queue := w.queue ++ [.backoffTimer] } else w
  | .resendTimerFires =>
    if w.transport.actualizationPingResendTimer then
      { w with queue := w.queue ++ [.resendActualizationPing] }
    else w
  | .run readings =>
    match w.queue with
    | [] => w
    | block :: queue => runBlock { w with queue } readings block

/-- Every demand was followed by a call of the delegate. -/
def Followed (log : List Entry) : Prop :=
  ∀ before after, log = before ++ .setDelegateNeedsTransaction :: after →
    .transportReadyForTransaction ∈ after

/-- The next pass of the queue is on the queue when it is promised, and a lock has an
answer that will lift it. -/
structure Steady (w : World) : Prop where
  connected : w.transport.connectionConnected = true → w.transport.connection ≠ none
  passes : w.transport.willRequestTransactionOnNextQueuePass = true →
    .transactionPass ∈ w.queue
  waits : w.transport.isWaitingForTransactionToBecomeReady = true →
    0 < w.outstanding ∨ .transactionReady ∈ w.queue
  another : w.transport.requestAnotherTransactionWhenReady = true →
    w.transport.isWaitingForTransactionToBecomeReady = true

/-- A demand that was not followed by a call is kept by a block, by a flag, or by the
connection that is not open yet. -/
structure Awake (w : World) : Prop extends Steady w where
  followed : Followed w.log ∨ .setDelegateNeedsTransaction ∈ w.queue ∨
    w.transport.willRequestTransactionOnNextQueuePass = true ∨
    w.transport.requestAnotherTransactionWhenReady = true ∨
    w.transport.connectionConnected = false

theorem followed_nil : Followed [] := by
  intro before after heq
  simp at heq

/-- A call follows all that was asked for. -/
theorem followed_call (log : List Entry) : Followed (log ++ [.transportReadyForTransaction]) := by
  intro before after heq
  have hends := congrArg List.getLast? heq
  rcases List.eq_nil_or_concat' after with hnil | ⟨init, last, hlast⟩
  · simp [hnil] at hends
  · grind

theorem awake_start : Awake {} := by
  constructor
  · constructor <;> simp
  · exact .inl followed_nil

variable {w : World}

/-- Whether the delegate is called or the lock holds, nothing is forgotten. -/
theorem Steady.request (h : Steady w) (readings : Readings) :
    Awake (requestTransactionFromDelegate w readings) := by
  unfold requestTransactionFromDelegate
  dsimp only
  split
  · rename_i hlocked
    have hwaiting : w.transport.isWaitingForTransactionToBecomeReady = true := by
      grind [isLocked]
    exact ⟨⟨h.connected, h.passes, h.waits, fun _ => hwaiting⟩, .inr (.inr (.inr (.inl rfl)))⟩
  · refine ⟨⟨h.connected, h.passes, fun _ => ?_, fun _ => rfl⟩, ?_⟩
    · exact .inl (Nat.succ_pos _)
    · exact .inl (followed_call w.log)

/-! ### The connection behaviour -/

theorem Awake.startIfNeeded (h : Awake w) : Awake (startIfNeeded w) := by
  unfold TransportWakeups.startIfNeeded
  split
  · exact h
  · exact ⟨⟨fun _ => Option.some_ne_none _, h.passes, h.waits, h.another⟩, h.followed⟩

theorem Awake.timerEvent (h : Awake w) : Awake (timerEvent w) := by
  have hstopped : Awake { w with transport := { w.transport with backoffTimer := false } } :=
    ⟨⟨h.connected, h.passes, h.waits, h.another⟩, h.followed⟩
  unfold TransportWakeups.timerEvent
  dsimp only
  split
  · exact hstopped
  · exact hstopped.startIfNeeded

theorem Awake.requestConnection (h : Awake w) : Awake (requestConnection w) := by
  unfold TransportWakeups.requestConnection
  split
  · exact h
  · exact h.timerEvent

theorem Awake.behaviourConnectionClosed (h : Awake w) :
    Awake (behaviourConnectionClosed w) := by
  have hcounted : ∀ backoffCount, Awake { w with transport := { w.transport with
      backoffCount := backoffCount } } :=
    fun _ => ⟨⟨h.connected, h.passes, h.waits, h.another⟩, h.followed⟩
  unfold TransportWakeups.behaviourConnectionClosed
  dsimp only
  split
  · split
    · exact (hcounted _).timerEvent
    · exact ⟨⟨h.connected, h.passes, h.waits, h.another⟩, h.followed⟩
  · exact h

/-! ### The blocks -/

theorem Awake.forgetPing (h : Awake w) : Awake (forgetPing w) :=
  ⟨⟨h.connected, h.passes, h.waits, h.another⟩, h.followed⟩

theorem Awake.closed (h : Awake w) (connection : Nat) :
    Awake (tcpConnectionClosed w connection) := by
  unfold tcpConnectionClosed
  split
  · have hgone : Awake { w with transport := { w.transport with
        connectionConnected := false
        connection := none } } := by
      refine ⟨⟨?_, h.passes, h.waits, h.another⟩, ?_⟩
      · intro hconnected
        cases hconnected
      · exact .inr (.inr (.inr (.inr rfl)))
    have hclosed := hgone.behaviourConnectionClosed
    exact ⟨⟨hclosed.connected, hclosed.passes, hclosed.waits, hclosed.another⟩, hclosed.followed⟩
  · exact h

theorem Awake.notice (h : Awake w) (readings : Readings) (notice : Notice) :
    Awake (runNotice w readings notice) := by
  have hquiet : ∀ (count : Nat) (backoff resends : Bool) (messageId : Int),
      Awake { w with transport := { w.transport with
        backoffCount := count
        backoffTimer := backoff
        actualizationPingResendTimer := resends
        currentActualizationPingMessageId := messageId } } :=
    fun _ _ _ _ => ⟨⟨h.connected, h.passes, h.waits, h.another⟩, h.followed⟩
  cases notice with
  | tcpConnectionOpened connection =>
    show Awake (tcpConnectionOpened w connection readings)
    unfold tcpConnectionOpened
    split
    · rename_i hconnection
      apply Steady.request
      exact ⟨fun _ => by simp [hconnection], h.passes, h.waits, h.another⟩
    · exact h
  | tcpConnectionClosed connection => exact h.closed connection
  | tcpConnectionReceivedData connection =>
    unfold runNotice
    dsimp only
    split
    · exact hquiet _ _ _ _
    · exact h
  | connectionIsValid connection =>
    unfold runNotice
    dsimp only
    split
    · exact hquiet _ _ _ _
    · exact h
  | pingPrepared messageId => exact hquiet _ _ _ messageId
  | didChangeSession => exact h.forgetPing
  | serverDidChangeSession firstValidMessageId otherValidMessageIds =>
    unfold runNotice
    dsimp only
    split
    · exact h.forgetPing
    · exact h
  | receivedPong messageId =>
    unfold runNotice
    dsimp only
    split
    · exact h.forgetPing
    · exact h
  | messageDeliveryFailed messageId =>
    unfold runNotice
    dsimp only
    split
    · exact h.forgetPing
    · exact h
  | networkAvailabilityChanged networkAvailable =>
    unfold runNotice
    dsimp only
    split
    · exact hquiet _ _ _ _
    · exact h
  | stop =>
    refine ⟨⟨?_, h.passes, h.waits, h.another⟩, ?_⟩
    · intro hconnected
      cases hconnected
    · exact .inr (.inr (.inr (.inr rfl)))

/-- The next block.  `hrest` are the blocks behind it. -/
theorem Awake.runBlock {block : Block} {queue : List Block} (h : Awake w)
    (hqueue : w.queue = block :: queue) (readings : Readings) :
    Awake (runBlock { w with queue } readings block) := by
  have hpasses : block ≠ .transactionPass →
      w.transport.willRequestTransactionOnNextQueuePass = true → .transactionPass ∈ queue := by
    intro hne hwill
    have hmem := h.passes hwill
    rw [hqueue] at hmem
    exact (List.mem_cons.1 hmem).resolve_left (Ne.symm hne)
  have hwaits : block ≠ .transactionReady →
      w.transport.isWaitingForTransactionToBecomeReady = true →
        0 < w.outstanding ∨ .transactionReady ∈ queue := by
    intro hne hwaiting
    rcases h.waits hwaiting with hpos | hmem
    · exact .inl hpos
    · rw [hqueue] at hmem
      exact .inr ((List.mem_cons.1 hmem).resolve_left (Ne.symm hne))
  have hfollowed : block ≠ .setDelegateNeedsTransaction →
      Followed w.log ∨ .setDelegateNeedsTransaction ∈ queue ∨
        w.transport.willRequestTransactionOnNextQueuePass = true ∨
        w.transport.requestAnotherTransactionWhenReady = true ∨
        w.transport.connectionConnected = false := by
    intro hne
    rcases h.followed with hfollowed | hmem | hflags
    · exact .inl hfollowed
    · rw [hqueue] at hmem
      exact .inr (.inl ((List.mem_cons.1 hmem).resolve_left (Ne.symm hne)))
    · exact .inr (.inr hflags)
  have hpopped : block ≠ .transactionPass → block ≠ .transactionReady →
      block ≠ .setDelegateNeedsTransaction → Awake { w with queue } :=
    fun hpass hready hneeds =>
      ⟨⟨h.connected, hpasses hpass, hwaits hready, h.another⟩, hfollowed hneeds⟩
  cases block with
  | setDelegateNeedsTransaction =>
    show Awake (if w.transport.willRequestTransactionOnNextQueuePass then { w with queue } else _)
    split
    · rename_i hwill
      exact ⟨⟨h.connected, hpasses (by simp), hwaits (by simp), h.another⟩,
        .inr (.inr (.inl hwill))⟩
    · refine ⟨⟨h.connected, fun _ => ?_, fun hwaiting => ?_, h.another⟩, ?_⟩
      · exact List.mem_append_right _ (List.mem_singleton.2 rfl)
      · rcases hwaits (by simp) hwaiting with hpos | hmem
        · exact .inl hpos
        · exact .inr (List.mem_append_left _ hmem)
      · exact .inr (.inr (.inl rfl))
  | transactionPass =>
    show Awake (transactionPass { w with queue } readings)
    unfold transactionPass
    dsimp only
    have hsteady : Steady { w with
        queue
        transport := { w.transport with willRequestTransactionOnNextQueuePass := false } } :=
      ⟨h.connected, fun hwill => (by cases hwill), hwaits (by simp), h.another⟩
    split
    · rename_i hnone
      apply Awake.requestConnection
      refine ⟨hsteady, .inr (.inr (.inr (.inr ?_)))⟩
      by_contra hconnected
      exact h.connected (by simpa using hconnected) hnone
    · split
      · exact hsteady.request readings
      · rename_i hconnected
        exact ⟨hsteady, .inr (.inr (.inr (.inr (by simpa using hconnected))))⟩
  | transactionReady =>
    show Awake (transactionReady { w with queue } readings)
    unfold transactionReady
    dsimp only
    have hsteady : Steady { w with
        queue
        transport := { w.transport with
          isWaitingForTransactionToBecomeReady := false
          requestAnotherTransactionWhenReady := false } } :=
      ⟨h.connected, hpasses (by simp), fun hwaiting => (by cases hwaiting),
        fun hanother => (by cases hanother)⟩
    split
    · exact hsteady.request readings
    · rename_i hanother
      refine ⟨hsteady, ?_⟩
      rcases hfollowed (by simp) with hlog | hmem | hwill | hasks | hconnected
      · exact .inl hlog
      · exact .inr (.inl hmem)
      · exact .inr (.inr (.inl hwill))
      · exact absurd hasks hanother
      · exact .inr (.inr (.inr (.inr hconnected)))
  | backoffTimer => exact (hpopped (by simp) (by simp) (by simp)).timerEvent
  | resendActualizationPing =>
    show Awake (resendActualizationPing { w with queue } readings)
    have hw := hpopped (by simp) (by simp) (by simp)
    unfold resendActualizationPing
    dsimp only
    split
    · apply Steady.request
      exact ⟨hw.connected, hw.passes, hw.waits, hw.another⟩
    · exact ⟨⟨hw.connected, hw.passes, hw.waits, hw.another⟩, hw.followed⟩
  | notice notice => exact (hpopped (by simp) (by simp) (by simp)).notice readings notice

theorem Awake.enqueue (h : Awake w) (block : Block) :
    Awake { w with queue := w.queue ++ [block] } := by
  refine ⟨⟨h.connected, fun hwill => ?_, fun hwaiting => ?_, h.another⟩, ?_⟩
  · exact List.mem_append_left _ (h.passes hwill)
  · exact (h.waits hwaiting).imp_right (List.mem_append_left _)
  · exact h.followed.imp_right (Or.imp_left (List.mem_append_left _))

theorem Awake.step (h : Awake w) (event : Event) : Awake (step w event) := by
  cases event with
  | setDelegateNeedsTransaction =>
    have hqueued := h.enqueue .setDelegateNeedsTransaction
    refine ⟨⟨h.connected, hqueued.passes, hqueued.waits, h.another⟩, .inr (.inl ?_)⟩
    exact List.mem_append_right _ (List.mem_singleton.2 rfl)
  | notice notice => exact h.enqueue (.notice notice)
  | answer =>
    show Awake (if w.outstanding = 0 then w else _)
    split
    · exact h
    · have hqueued := h.enqueue .transactionReady
      refine ⟨⟨h.connected, hqueued.passes, fun _ => .inr ?_, h.another⟩, hqueued.followed⟩
      exact List.mem_append_right _ (List.mem_singleton.2 rfl)
  | backoffTimerFires =>
    show Awake (if w.transport.backoffTimer then _ else w)
    split
    · exact h.enqueue .backoffTimer
    · exact h
  | resendTimerFires =>
    show Awake (if w.transport.actualizationPingResendTimer then _ else w)
    split
    · exact h.enqueue .resendActualizationPing
    · exact h
  | run readings =>
    unfold TransportWakeups.step
    dsimp only
    split
    · exact h
    · rename_i block queue hqueue
      exact h.runBlock hqueue readings

theorem awake_run (events : List Event) : Awake (run step {} events) := by
  have hstep : ∀ w event, Awake w → Awake (step w event) := fun _ event h => h.step event
  exact run_invariant hstep events {} awake_start

/-- In every reachable state with an open connection, an empty queue and no call
without an answer, the flags are down and every demand was followed by a call of the
delegate. -/
theorem no_lost_wakeup (events : List Event)
    (hopen : (run step {} events).transport.connection ≠ none ∧
      (run step {} events).transport.connectionConnected = true)
    (hqueue : (run step {} events).queue = [])
    (hanswered : (run step {} events).outstanding = 0) :
    (run step {} events).transport.isWaitingForTransactionToBecomeReady = false ∧
      (run step {} events).transport.requestAnotherTransactionWhenReady = false ∧
      Followed (run step {} events).log := by
  have h := awake_run events
  have hwaiting :
      (run step {} events).transport.isWaitingForTransactionToBecomeReady = false := by
    by_contra hwaits
    rcases h.waits (by simpa using hwaits) with hpos | hmem
    · omega
    · rw [hqueue] at hmem
      cases hmem
  have hanother :
      (run step {} events).transport.requestAnotherTransactionWhenReady = false := by
    by_contra hasks
    rw [h.another (by simpa using hasks)] at hwaiting
    cases hwaiting
  refine ⟨hwaiting, hanother, ?_⟩
  rcases h.followed with hfollowed | hmem | hwill | hasks | hconnected
  · exact hfollowed
  · rw [hqueue] at hmem
    cases hmem
  · have hmem := h.passes hwill
    rw [hqueue] at hmem
    cases hmem
  · rw [hanother] at hasks
    cases hasks
  · rw [hopen.2] at hconnected
    cases hconnected

/-- The transport is asked before it has a connection and again while the answer to
the first call is missing; the connection opens in between. -/
def askedTwice : List Event :=
  [ .setDelegateNeedsTransaction, .run ⟨0, 0⟩, .run ⟨0, 0⟩,
    .notice (.tcpConnectionOpened 0), .run ⟨1, 1⟩,
    .setDelegateNeedsTransaction, .run ⟨1, 1⟩, .run ⟨1, 1⟩,
    .answer, .run ⟨2, 2⟩, .answer, .run ⟨2, 2⟩ ]

/-- Both wishes are followed by a transaction. -/
theorem no_lost_wakeup_askedTwice :
    (run step {} askedTwice).log =
        [ .setDelegateNeedsTransaction, .transportReadyForTransaction,
          .setDelegateNeedsTransaction, .transportReadyForTransaction ] ∧
      Followed (run step {} askedTwice).log := by
  have hopen : (run step {} askedTwice).transport.connection ≠ none ∧
      (run step {} askedTwice).transport.connectionConnected = true := by decide +kernel
  have h := no_lost_wakeup askedTwice hopen (by decide +kernel) (by decide +kernel)
  exact ⟨by decide +kernel, h.2.2⟩

end TelegramPub.Ports.TransportWakeups
