/-!
# The reconnection of MTTcpTransport

The transport has at most one connection.  When it has closed,
`MTTcpConnectionBehaviour` asks for another one, at once or when its backoff timer
fires.  Both run on the queue of the transport; the connections have a queue of
their own, on which they live, close and report it.  The world begins behind the
block of `initWithDelegate:`, which is the first on the queue of the transport.
-/

namespace TelegramPub.Ports.Reconnection

/-- `MTTcpConnection`; `delegate` is whether the transport is its delegate. -/
structure Connection where
  delegate : Bool := false
  hasSocket : Bool := false
  closed : Bool := false
  deriving DecidableEq

/-- A block of `tcpQueue`. -/
inductive TcpBlock where
  | setDelegate (c : Nat) (delegate : Bool)
  | start (c : Nat)
  | stop (c : Nat)
  deriving DecidableEq

/-- A block of `tcpTransportQueue`, under the method that dispatches it;
`requestTransaction` is the inner one of `setDelegateNeedsTransaction`. -/
inductive TransportBlock where
  | setDelegateNeedsTransaction
  | requestTransaction
  | startIfNeeded
  | reset
  | stop
  | networkAvailabilityChanged (networkAvailable : Bool)
  | tcpConnectionOpened (c : Nat)
  | tcpConnectionClosed (c : Nat)
  | connectionIsValid (c : Nat)
  | connectionIsInvalid
  deriving DecidableEq

/-- `MTTcpConnectionBehaviour`; the timer with its timeout in seconds. -/
structure Behaviour where
  needsReconnection : Bool := true
  backoffTimer : Option Nat := none
  backoffCount : Nat := 0
  deriving DecidableEq

/-- `MTTcpTransportContext`, the connections that were made, and the queues. -/
structure World where
  connection : Option Nat := none
  connectionConnected : Bool := false
  connectionIsValid : Bool := false
  connectionBehaviour : Behaviour := {}
  stopped : Bool := false
  isNetworkAvailable : Bool := true
  willRequestTransactionOnNextQueuePass : Bool := false
  connections : List Connection := []
  transportQueue : List TransportBlock := []
  tcpQueue : List TcpBlock := []
  deriving DecidableEq

namespace World

/-! ## The connection behaviour -/

/-- `startIfNeeded`. -/
def startIfNeeded (w : World) : World :=
  if w.connection = none then
    let c := w.connections.length
    { w with
      connection := some c
      connections := w.connections ++ [{}]
      tcpQueue := w.tcpQueue ++ [.setDelegate c true, .start c] }
  else w

/-- `tcpConnectionBehaviourRequestsReconnection:`. -/
def requestsReconnection (w : World) : World := if !w.stopped then w.startIfNeeded else w

/-- `invalidateTimer`. -/
def invalidateTimer (w : World) : World :=
  { w with connectionBehaviour := { w.connectionBehaviour with backoffTimer := none } }

/-- `timerEvent`. -/
def timerEvent (w : World) : World := w.invalidateTimer.requestsReconnection

/-- `startTimer:`. -/
def startTimer (w : World) (timeout : Nat) : World :=
  { w with connectionBehaviour := { w.connectionBehaviour with backoffTimer := some timeout } }

/-- `requestConnection`. -/
def requestConnection (w : World) : World :=
  if w.connectionBehaviour.backoffTimer = none then w.timerEvent else w

def setBackoffCount (w : World) (backoffCount : Nat) : World :=
  { w with connectionBehaviour := { w.connectionBehaviour with backoffCount } }

/-- `connectionValidDataReceived`. -/
def connectionValidDataReceived (w : World) : World := (w.setBackoffCount 0).invalidateTimer

/-- `connectionClosed`. -/
def connectionClosed (w : World) : World :=
  if w.connectionBehaviour.needsReconnection then
    let count := w.connectionBehaviour.backoffCount + 1
    let w := w.setBackoffCount count
    if count = 1 then w.timerEvent
    else w.startTimer (if count ≤ 5 then 1 else if count ≤ 20 then 4 else 8)
  else w

def dispatch (w : World) (block : TransportBlock) : World :=
  { w with transportQueue := w.transportQueue ++ [block] }

/-- Messages to `connection`, if there is one. -/
def toConnection (w : World) (blocks : Nat → List TcpBlock) : World :=
  { w with tcpQueue := w.tcpQueue ++ (w.connection.map blocks).getD [] }

/-- The blocks of the transport. -/
def runBlock (w : World) : TransportBlock → World
  | .setDelegateNeedsTransaction =>
    if !w.willRequestTransactionOnNextQueuePass then
      { w with willRequestTransactionOnNextQueuePass := true }.dispatch .requestTransaction
    else w
  | .requestTransaction =>
    let w := { w with willRequestTransactionOnNextQueuePass := false }
    if w.connection = none then w.requestConnection else w
  | .startIfNeeded => w.startIfNeeded
  | .reset => w.toConnection fun c => [.stop c]
  | .stop =>
    let w := { w with stopped := true, connectionConnected := false, connectionIsValid := false,
                      connectionBehaviour :=
                        { w.connectionBehaviour with needsReconnection := false } }
    { w.toConnection fun c => [.setDelegate c false, .stop c] with connection := none }
  | .networkAvailabilityChanged networkAvailable =>
    let w := { w with isNetworkAvailable := networkAvailable }
    (if networkAvailable then w.setBackoffCount 0 else w).toConnection fun c => [.stop c]
  | .tcpConnectionOpened c =>
    if w.connection = some c then
      { w with connectionConnected := true, connectionIsValid := false }
    else w
  | .tcpConnectionClosed c =>
    if w.connection = some c then
      let w := w.toConnection fun c => [.setDelegate c false]
      { w with connectionConnected := false, connectionIsValid := false
               connection := none }.connectionClosed
    else w
  | .connectionIsValid c =>
    if w.connection = some c then
      { w with connectionIsValid := true }.connectionValidDataReceived
    else w
  | .connectionIsInvalid => w

/-- `closeAndNotify`. -/
def closeAndNotify (w : World) (c : Nat) : World :=
  match w.connections[c]? with
  | none => w
  | some k =>
    if !k.closed then
      let k' := { k with closed := true, hasSocket := false }
      let w := { w with connections := w.connections.set c k' }
      if k.delegate then w.dispatch (.tcpConnectionClosed c) else w
    else w

def modify (w : World) (c : Nat) (f : Connection → Connection) : World :=
  { w with connections := w.connections.modify c f }

/-- The blocks of a connection. -/
def runTcpBlock (w : World) : TcpBlock → World
  | .setDelegate c delegate => w.modify c fun k => { k with delegate }
  | .start c => w.modify c fun k => { k with hasSocket := true }
  | .stop c => w.closeAndNotify c

end World

/-- Calls from outside, the first blocks of the queues, the timer, and what happens
to a connection: it opens, it dies, its data is decoded. -/
inductive Event where
  | setDelegateNeedsTransaction
  | startIfNeeded
  | reset
  | stop
  | networkAvailabilityChanged (networkAvailable : Bool)
  | runTransport
  | runTcp
  | backoffTimer
  | opens (c : Nat)
  | dies (c : Nat)
  | decodeResult (c : Nat) (success : Bool)
  deriving DecidableEq

def World.step (w : World) : Event → World
  | .setDelegateNeedsTransaction => w.dispatch .setDelegateNeedsTransaction
  | .startIfNeeded => w.dispatch .startIfNeeded
  | .reset => w.dispatch .reset
  | .stop => w.dispatch .stop
  | .networkAvailabilityChanged networkAvailable =>
    w.dispatch (.networkAvailabilityChanged networkAvailable)
  | .runTransport =>
    match w.transportQueue with
    | [] => w
    | block :: transportQueue => { w with transportQueue }.runBlock block
  | .runTcp =>
    match w.tcpQueue with
    | [] => w
    | block :: tcpQueue => { w with tcpQueue }.runTcpBlock block
  | .backoffTimer => if w.connectionBehaviour.backoffTimer.isSome then w.timerEvent else w
  | .opens c =>
    if w.connections[c]?.any fun k => k.hasSocket && !k.closed && k.delegate then
      w.dispatch (.tcpConnectionOpened c)
    else w
  | .dies c => if w.connections[c]?.any (·.hasSocket) then w.closeAndNotify c else w
  | .decodeResult c success =>
    w.dispatch (if success then .connectionIsValid c else .connectionIsInvalid)

def World.run (w : World) (events : List Event) : World := events.foldl World.step w

/-- A connection that has neither died nor been stopped. -/
def World.Live (w : World) (c : Nat) : Prop :=
  ∃ k, w.connections[c]? = some k ∧ k.closed = false ∧ TcpBlock.stop c ∉ w.tcpQueue

/-- The transport is asked for a connection. -/
def Event.Starts (event : Event) : Prop :=
  event = .setDelegateNeedsTransaction ∨ event = .startIfNeeded

/-- The behaviour reconnects until the transport is stopped, a connection that has
reported is closed, and a connection that lives is the current one. -/
structure Base (w : World) : Prop where
  needs : w.connectionBehaviour.needsReconnection = !w.stopped
  closedBlocks : ∀ c, TransportBlock.tcpConnectionClosed c ∈ w.transportQueue →
    ∃ k, w.connections[c]? = some k ∧ k.closed = true
  live : ∀ c k, w.connections[c]? = some k → k.closed = false → TcpBlock.stop c ∉ w.tcpQueue →
    w.connection = some c

/-- The transport has a connection, or its behaviour a timer. -/
def Held (w : World) : Prop := w.connection ≠ none ∨ w.connectionBehaviour.backoffTimer ≠ none

/-- What the methods of the behaviour leave. -/
structure Leaves (w w' : World) : Prop where
  stopped : w'.stopped = w.stopped
  request : w'.willRequestTransactionOnNextQueuePass = w.willRequestTransactionOnNextQueuePass
  transportQueue : w'.transportQueue = w.transportQueue

theorem startIfNeeded_leaves (w : World) : Leaves w w.startIfNeeded := by
  constructor <;> (unfold World.startIfNeeded; split <;> rfl)

theorem timerEvent_leaves (w : World) : Leaves w w.timerEvent := by
  have h := startIfNeeded_leaves w.invalidateTimer
  unfold World.timerEvent World.requestsReconnection
  split
  · exact ⟨h.stopped, h.request, h.transportQueue⟩
  · exact ⟨rfl, rfl, rfl⟩

theorem Base.startIfNeeded {w : World} (h : Base w) : Base w.startIfNeeded := by
  obtain ⟨hneeds, hclosed, hlive⟩ := h
  unfold World.startIfNeeded
  split
  · constructor <;> grind
  · exact ⟨hneeds, hclosed, hlive⟩

theorem startIfNeeded_connection (w : World) : w.startIfNeeded.connection ≠ none := by
  unfold World.startIfNeeded
  split <;> simp_all

/-- A timer event of a transport that is not stopped leaves it with a connection. -/
theorem Base.timerEvent {w : World} (h : Base w) :
    Base w.timerEvent ∧ (w.stopped = false → w.timerEvent.connection ≠ none) := by
  have hbase : Base w.invalidateTimer := ⟨h.needs, h.closedBlocks, h.live⟩
  unfold World.timerEvent World.requestsReconnection
  split
  · exact ⟨hbase.startIfNeeded, fun _ => startIfNeeded_connection _⟩
  · next hstopped =>
      exact ⟨hbase, fun hno => absurd (by simp [World.invalidateTimer, hno]) hstopped⟩

/-- The behaviour of a transport that is not stopped reconnects or starts its timer. -/
theorem Base.connectionClosed {w : World} (h : Base w) :
    Base w.connectionClosed ∧ Leaves w w.connectionClosed ∧
      (w.stopped = false → Held w.connectionClosed) := by
  have hbase (count : Nat) : Base (w.setBackoffCount count) := ⟨h.needs, h.closedBlocks, h.live⟩
  simp only [World.connectionClosed]
  split
  · split
    · next hcount =>
        have hleaves :=
          timerEvent_leaves (w.setBackoffCount (w.connectionBehaviour.backoffCount + 1))
        exact ⟨(hbase _).timerEvent.1, ⟨hleaves.stopped, hleaves.request, hleaves.transportQueue⟩,
          fun hno => .inl ((hbase _).timerEvent.2 hno)⟩
    · exact ⟨⟨h.needs, h.closedBlocks, h.live⟩, ⟨rfl, rfl, rfl⟩,
        fun _ => .inr (by simp [World.startTimer])⟩
  · next hneeds => exact ⟨h, ⟨rfl, rfl, rfl⟩, fun hno => absurd (by simp [h.needs, hno]) hneeds⟩

/-- A block from which the transport goes on to a connection. -/
def TransportBlock.Starts (block : TransportBlock) : Prop :=
  block = .setDelegateNeedsTransaction ∨ block = .requestTransaction ∨ block = .startIfNeeded

/-- Once it has been started, a transport that is not stopped is held, or a block is
queued from which it goes on. -/
structure Inv (started : Prop) (w : World) : Prop extends Base w where
  request : w.willRequestTransactionOnNextQueuePass = true →
    TransportBlock.requestTransaction ∈ w.transportQueue
  running : started → w.stopped = false → Held w ∨ ∃ block ∈ w.transportQueue, block.Starts

variable {started : Prop} {w : World}

theorem Inv.setBackoffCount (h : Inv started w) (count : Nat) :
    Inv started (w.setBackoffCount count) :=
  ⟨⟨h.needs, h.closedBlocks, h.live⟩, h.request, h.running⟩

/-- Stopping a connection only ends lives. -/
theorem Inv.toConnection (h : Inv started w) (blocks : Nat → List TcpBlock) :
    Inv started (w.toConnection blocks) :=
  ⟨⟨h.needs, h.closedBlocks, fun c k hk hopen hstop =>
    h.live c k hk hopen fun hmem => hstop (List.mem_append_left _ hmem)⟩, h.request, h.running⟩

variable {block : TransportBlock}

theorem Inv.runTransport (h : Inv started w)
    {transportQueue : List TransportBlock} (hqueue : w.transportQueue = block :: transportQueue) :
    Inv started ({ w with transportQueue }.runBlock block) := by
  obtain ⟨⟨hneeds, hclosed, hlive⟩, hrequest, hrunning⟩ := h
  rw [hqueue] at hclosed hrequest hrunning
  have hbase : Base { w with transportQueue } :=
    ⟨hneeds, fun c hc => hclosed c (.tail _ hc), hlive⟩
  have hpop (hno : ¬ block.Starts) : Inv started { w with transportQueue } :=
    ⟨hbase, fun hwill => (List.mem_cons.1 (hrequest hwill)).resolve_left
      fun heq => hno (.inr (.inl heq.symm)), by grind [Held]⟩
  cases block with
  | setDelegateNeedsTransaction =>
    simp only [World.runBlock]
    split
    · exact ⟨⟨hneeds, by simp [World.dispatch]; grind, hlive⟩, by simp [World.dispatch],
        fun _ _ => .inr ⟨.requestTransaction, by simp [World.dispatch], .inr (.inl rfl)⟩⟩
    · exact ⟨hbase, by grind,
        fun _ _ => .inr ⟨.requestTransaction, by grind, .inr (.inl rfl)⟩⟩
  | requestTransaction =>
    have hnext : Base { w with transportQueue, willRequestTransactionOnNextQueuePass := false } :=
      ⟨hneeds, hbase.closedBlocks, hlive⟩
    simp only [World.runBlock, World.requestConnection]
    split
    · split
      · have hleaves := timerEvent_leaves
          { w with transportQueue, willRequestTransactionOnNextQueuePass := false }
        exact ⟨hnext.timerEvent.1, by simp [hleaves.request], fun _ hno =>
          .inl (.inl (hnext.timerEvent.2 (hleaves.stopped ▸ hno)))⟩
      · next htimer => exact ⟨hnext, nofun, fun _ _ => .inl (.inr htimer)⟩
    · next hconnection => exact ⟨hnext, nofun, fun _ _ => .inl (.inl hconnection)⟩
  | startIfNeeded =>
    have hleaves := startIfNeeded_leaves { w with transportQueue }
    exact ⟨hbase.startIfNeeded, by
      rw [World.runBlock, hleaves.request, hleaves.transportQueue]; grind,
      fun _ _ => .inl (.inl (startIfNeeded_connection _))⟩
  | reset => exact (hpop (by simp [TransportBlock.Starts])).toConnection _
  | stop =>
    have h := hpop (by simp [TransportBlock.Starts])
    refine ⟨⟨rfl, hbase.closedBlocks, fun c k hk hopen hstop => ?_⟩, h.request, nofun⟩
    have hcurrent := hlive c k hk hopen fun hmem => hstop (List.mem_append_left _ hmem)
    exact absurd (by simp [World.runBlock, World.toConnection, hcurrent]) hstop
  | networkAvailabilityChanged networkAvailable =>
    have h := hpop (by simp [TransportBlock.Starts])
    have h' : Inv started { w with transportQueue, isNetworkAvailable := networkAvailable } :=
      ⟨⟨h.needs, h.closedBlocks, h.live⟩, h.request, h.running⟩
    simp only [World.runBlock]
    split
    · exact (h'.setBackoffCount 0).toConnection _
    · exact h'.toConnection _
  | tcpConnectionOpened c =>
    have h := hpop (by simp [TransportBlock.Starts])
    simp only [World.runBlock]
    split
    · exact ⟨⟨h.needs, h.closedBlocks, h.live⟩, h.request, h.running⟩
    · exact h
  | tcpConnectionClosed c =>
    have h := hpop (by simp [TransportBlock.Starts])
    simp only [World.runBlock]
    split
    · next hconnection =>
        obtain ⟨k, hk, hkclosed⟩ := hclosed c (List.mem_cons_self ..)
        have hnone : Base
            { { w with transportQueue }.toConnection fun c => [.setDelegate c false] with
              connectionConnected := false, connectionIsValid := false, connection := none } :=
          ⟨hneeds, hbase.closedBlocks, fun c' k' hk' hopen hstop => by
            have hk'' : w.connections[c']? = some k' := hk'
            have hcurrent := hlive c' k' hk'' hopen fun hmem =>
              hstop (List.mem_append_left _ hmem)
            obtain rfl : c' = c := Option.some.inj (hcurrent.symm.trans hconnection)
            simp_all⟩
        obtain ⟨hafter, hleaves, hheld⟩ := hnone.connectionClosed
        refine ⟨hafter, fun hwill => ?_, fun _ hno => .inl (hheld (hleaves.stopped ▸ hno))⟩
        rw [hleaves.transportQueue]
        exact h.request (hleaves.request ▸ hwill)
    · exact h
  | connectionIsValid c =>
    have h := hpop (by simp [TransportBlock.Starts])
    simp only [World.runBlock]
    split
    · next hconnection =>
        exact ⟨⟨h.needs, h.closedBlocks, h.live⟩, h.request,
          fun _ _ => .inl (.inl (hconnection ▸ nofun))⟩
    · exact h
  | connectionIsInvalid => exact hpop (by simp [TransportBlock.Starts])

variable {tcpQueue : List TcpBlock}

/-- A change of a connection that opens none again, and a queue with the stops of
those that are open. -/
theorem Inv.ofConnections (h : Inv started w) {connections : List Connection}
    (hopen : ∀ (c : Nat) (k' : Connection), connections[c]? = some k' → k'.closed = false →
      TcpBlock.stop c ∉ tcpQueue →
        ∃ k, w.connections[c]? = some k ∧ k.closed = false ∧ TcpBlock.stop c ∉ w.tcpQueue)
    (hclosed : ∀ (c : Nat) (k : Connection), w.connections[c]? = some k → k.closed = true →
      ∃ k', connections[c]? = some k' ∧ k'.closed = true) :
    Inv started { w with connections, tcpQueue } :=
  ⟨⟨h.needs, fun c hc => by
    obtain ⟨k, hk, hkclosed⟩ := h.closedBlocks c hc
    exact hclosed c k hk hkclosed, fun c k' hk' hk'open hstop => by
    obtain ⟨k, hk, hkopen, hno⟩ := hopen c k' hk' hk'open hstop
    exact h.live c k hk hkopen hno⟩, h.request, h.running⟩

theorem Inv.dispatch (h : Inv started w) (hclosed : ∀ c, block = .tcpConnectionClosed c →
      ∃ k, w.connections[c]? = some k ∧ k.closed = true) :
    Inv started (w.dispatch block) :=
  ⟨⟨h.needs, fun c hc => by
    cases List.mem_append.1 hc with
    | inl hc => exact h.closedBlocks c hc
    | inr hc => exact hclosed c (List.mem_singleton.1 hc).symm, h.live⟩,
    fun hwill => List.mem_append_left _ (h.request hwill), fun hstarted hno =>
    (h.running hstarted hno).imp id fun ⟨b, hb, hstarts⟩ =>
      ⟨b, List.mem_append_left _ hb, hstarts⟩⟩

/-- A connection closes and reports it, and no stop of another one leaves the queue. -/
theorem Inv.closeAndNotify (h : Inv started w) (c : Nat)
    (hqueue : ∀ c', c' ≠ c → TcpBlock.stop c' ∉ tcpQueue → TcpBlock.stop c' ∉ w.tcpQueue) :
    Inv started ({ w with tcpQueue }.closeAndNotify c) := by
  simp only [World.closeAndNotify]
  cases hk : w.connections[c]? with
  | none => exact h.ofConnections (by grind) (by grind)
  | some k =>
    dsimp only
    split
    · let k' := { k with closed := true, hasSocket := false }
      have hclosed : Inv started { w with connections := w.connections.set c k', tcpQueue } :=
        h.ofConnections (by grind) (by grind)
      split
      · exact hclosed.dispatch fun c' heq => by grind
      · exact hclosed
    · exact h.ofConnections (by grind) (by grind)

theorem Inv.runTcp (h : Inv started w) {block : TcpBlock}
    (hqueue : w.tcpQueue = block :: tcpQueue) :
    Inv started ({ w with tcpQueue }.runTcpBlock block) := by
  cases block with
  | setDelegate c delegate => exact h.ofConnections (by grind) (by grind)
  | start c => exact h.ofConnections (by grind) (by grind)
  | stop c => exact h.closeAndNotify c (by grind)

theorem Inv.dispatch_starts (h : Inv started w) (hstarts : block.Starts) :
    Inv True (w.dispatch block) :=
  have hnext := h.dispatch fun c heq => by simp [heq, TransportBlock.Starts] at hstarts
  ⟨hnext.toBase, hnext.request, fun _ _ => .inr ⟨block, by simp [World.dispatch], hstarts⟩⟩

theorem Inv.imp (h : Inv started w) {started' : Prop} (himp : started' → started) :
    Inv started' w :=
  ⟨h.toBase, h.request, fun hstarted => h.running (himp hstarted)⟩

theorem Inv.step (h : Inv started w) (event : Event) :
    Inv (started ∨ event.Starts) (w.step event) := by
  by_cases hstarts : event.Starts
  · have hnext : Inv True (w.step event) := by
      obtain rfl | rfl := hstarts
      · exact h.dispatch_starts (.inl rfl)
      · exact h.dispatch_starts (.inr (.inr rfl))
    exact hnext.imp fun _ => trivial
  refine Inv.imp ?_ (Or.resolve_right · hstarts)
  cases event with
  | setDelegateNeedsTransaction | startIfNeeded => simp [Event.Starts] at hstarts
  | reset | stop | networkAvailabilityChanged => exact h.dispatch nofun
  | runTransport =>
    simp only [World.step]
    split
    · exact h
    · next hqueue => exact h.runTransport hqueue
  | runTcp =>
    simp only [World.step]
    split
    · exact h
    · next hqueue => exact h.runTcp hqueue
  | backoffTimer =>
    simp only [World.step]
    split
    · have hleaves := timerEvent_leaves w
      refine ⟨h.timerEvent.1, ?_, fun _ hno =>
        .inl (.inl (h.timerEvent.2 (hleaves.stopped ▸ hno)))⟩
      rw [hleaves.request, hleaves.transportQueue]
      exact h.request
    · exact h
  | opens c =>
    simp only [World.step]
    split
    · exact h.dispatch nofun
    · exact h
  | dies c =>
    simp only [World.step]
    split
    · exact h.closeAndNotify c fun _ _ => id
    · exact h
  | decodeResult c success => cases success <;> exact h.dispatch nofun

theorem Inv.run (events : List Event) :
    ∀ {started : Prop} {w : World}, Inv started w →
      Inv (started ∨ ∃ event ∈ events, event.Starts) (w.run events) := by
  induction events with
  | nil => exact fun h => h.imp (by simp)
  | cons event events ih => exact fun h => (ih (h.step event)).imp (by simp [or_assoc])

/-- In every run, a transport that has been started and not stopped, with no block in
its queue, has a connection or a running backoff timer; at most one connection lives. -/
theorem reconnects (events : List Event) :
    let w := ({} : World).run events
    ((∃ event ∈ events, event.Starts) → w.stopped = false → w.transportQueue = [] →
      w.connection ≠ none ∨ w.connectionBehaviour.backoffTimer ≠ none) ∧
    ∀ c c', w.Live c → w.Live c' → c = c' := by
  have hfirst : Inv False ({} : World) := ⟨⟨rfl, nofun, nofun⟩, nofun, nofun⟩
  have h := hfirst.run events
  refine ⟨fun hstarted hno hqueue => ?_, fun c c' hc hc' => ?_⟩
  · obtain hheld | ⟨block, hblock, _⟩ := h.running (.inr hstarted) hno
    · exact hheld
    · rw [hqueue] at hblock
      exact absurd hblock (List.not_mem_nil)
  · obtain ⟨k, hk, hopen, hstop⟩ := hc
    obtain ⟨k', hk', hopen', hstop'⟩ := hc'
    exact Option.some.inj
      ((h.live c k hk hopen hstop).symm.trans (h.live c' k' hk' hopen' hstop'))

/-- The second connection that dies leaves the timer. -/
theorem reconnects_backoff :
    let events : List Event := [.setDelegateNeedsTransaction, .runTransport, .runTransport,
      .runTcp, .runTcp, .dies 0, .runTransport, .runTcp, .runTcp, .runTcp, .dies 1, .runTransport]
    (({} : World).run events).connection = none ∧
      (({} : World).run events).connectionBehaviour.backoffTimer = some 1 ∧
      ((({} : World).run events).connection ≠ none ∨
        (({} : World).run events).connectionBehaviour.backoffTimer ≠ none) :=
  ⟨by decide, by decide,
    (reconnects _).1 ⟨.setDelegateNeedsTransaction, by decide, .inl rfl⟩ (by decide) (by decide)⟩

end TelegramPub.Ports.Reconnection
