import TelegramPub.Verified.Machine
import Mathlib.Algebra.Order.Ring.Unbundled.Rat

/-!
# VoIPController: the state of a call

`SetState` is called from the thread that receives, the one that ticks, the one that
sends and by the functions of the interface.  A call that has failed should stay so:
most places that call `SetState(STATE_FAILED)` leave their thread.  The other threads
go on, however, and three transitions only ask whether the call is not established, or
ask nothing: stream data, the timer `setEstablishedAt`, and `Connect`, which also goes on
after `InitUDPProxy` has failed.

Times are the readings of the clock; an event happens at one of them.  What the events
find outside of the controller (sockets, audio devices, the endpoint in use) is part of
them.
-/

namespace TelegramPub.Ports.VoipCallState

open Verified.Machine

inductive CallState where
  | waitInit
  | waitInitAck
  | established
  | failed
  | reconnecting
  deriving DecidableEq

/-- The configured timeouts. -/
structure Config where
  initTimeout : Rat
  recvTimeout : Rat
  reconnectingTimeout : Rat
  /-- `established_delay_if_no_stream_data` -/
  establishedDelay : Rat

/-- The controller, and the arguments of all calls of `SetState` so far.  `receiving` and
`ticking`: the threads run. -/
structure Controller where
  state : CallState := .waitInit
  stateChangeTime : Rat := 0
  connectionInitTime : Rat := 0
  lastRecvPacketTime : Rat := 0
  setEstablishedAt : Rat := 0
  receivedInitAck : Bool := false
  receiving : Bool := false
  ticking : Bool := false
  calls : List CallState := []
  deriving DecidableEq

namespace Controller

def setState (c : Controller) (state : CallState) (time : Rat) : Controller :=
  { c with state, stateChangeTime := time, calls := c.calls ++ [state] }

/-! ## Starting a call -/

/-- `Start`, with the outcome of opening the socket. -/
def start (c : Controller) (socketFailed : Bool) (time : Rat) : Controller :=
  if socketFailed then c.setState .failed time
  else { c with receiving := true, ticking := true }

end Controller

/-- What `Connect` finds of a proxy. -/
inductive Proxy where
  | none
  | unresolved
  | tcpFailed
  | ready
  deriving DecidableEq

namespace Controller

/-- `InitUDPProxy` fails when the proxy cannot be reached. -/
def initUDPProxy (c : Controller) (tcpFailed : Bool) (time : Rat) : Controller :=
  if tcpFailed then c.setState .failed time else c

def sendInit (c : Controller) (time : Rat) : Controller := c.setState .waitInitAck time

/-- `Connect`.  The assertion at its beginning stops the program. -/
def connect (c : Controller) (proxy : Proxy) (time : Rat) : Controller :=
  if c.state = .waitInitAck then c
  else if proxy = .unresolved then c.setState .failed time
  else
    ({ c.initUDPProxy (proxy = Proxy.tcpFailed) time with
      connectionInitTime := time }).sendInit time

end Controller

/-! ## The receiving thread -/

/-- `PKT_INIT_ACK`: `usable` if the body has an audio stream and is read to the end,
`audioFailed` if the devices cannot be used. -/
structure InitAck where
  incompatible : Bool := false
  usable : Bool := true
  audioFailed : Bool := false
  deriving DecidableEq

/-- A packet with the right hash. -/
inductive Packet where
  | wrongCallId
  | wrongProtocol
  | init (incompatible : Bool)
  | initAck (ack : InitAck)
  | streamData
  | other
  deriving DecidableEq

namespace Controller

/-- The call fails, and the receiving thread ends. -/
def failReceiving (c : Controller) (time : Rat) : Controller :=
  { c.setState .failed time with receiving := false }

def receiveInitAck (cfg : Config) (c : Controller) (ack : InitAck) (time : Rat) : Controller :=
  if c.receivedInitAck then c
  else
    let c := { c with receivedInitAck := true }
    if ack.incompatible then c.failReceiving time
    else if !ack.usable then c
    else if ack.audioFailed then c.failReceiving time
    else { c with setEstablishedAt := time + cfg.establishedDelay }

def receiveStreamData (c : Controller) (time : Rat) : Controller :=
  if c.state ≠ .established ∧ c.receivedInitAck = true then c.setState .established time else c

def receive (cfg : Config) (c : Controller) (p : Packet) (time : Rat) : Controller :=
  let c := { c with lastRecvPacketTime := time }
  match p with
  | .wrongCallId => c.failReceiving time
  | .wrongProtocol => c.failReceiving time
  | .init incompatible => if incompatible then c.failReceiving time else c
  | .initAck ack => c.receiveInitAck cfg ack time
  | .streamData => c.receiveStreamData time
  | .other => c

end Controller

/-- A tick: whether an audio device has failed, and whether the endpoint in use is a
relay. -/
structure Tick where
  time : Rat
  audioFailed : Bool := false
  onRelay : Bool := true
  deriving DecidableEq

namespace Controller

def tickAudio (c : Controller) (t : Tick) : Controller :=
  if c.state = .established ∧ t.audioFailed = true then c.setState .failed t.time else c

def tickInit (c : Controller) (t : Tick) : Controller :=
  if c.state = .waitInitAck ∧ t.time - c.stateChangeTime > 1 / 2 then c.sendInit t.time else c

/-- Nothing has been received for too long: away from a direct connection, or the end. -/
def tickTimeouts (cfg : Config) (c : Controller) (t : Tick) : Controller :=
  if c.state = .established ∨ c.state = .reconnecting then
    if t.time - c.lastRecvPacketTime ≥ cfg.recvTimeout then
      if t.onRelay then c.setState .failed t.time else { c with lastRecvPacketTime := t.time }
    else c
  else if c.state = .waitInit ∨ c.state = .waitInitAck then
    if t.time - c.connectionInitTime ≥ cfg.initTimeout then c.setState .failed t.time else c
  else c

def tickReconnecting (cfg : Config) (c : Controller) (t : Tick) : Controller :=
  if c.state = .established ∧ t.time - c.lastRecvPacketTime ≥ cfg.reconnectingTimeout then
    c.setState .reconnecting t.time
  else c

/-- The time for the timer to make the call established has come. -/
def EstablishedDue (c : Controller) (t : Tick) : Prop :=
  c.setEstablishedAt > 0 ∧ t.time ≥ c.setEstablishedAt

instance (c : Controller) (t : Tick) : Decidable (c.EstablishedDue t) :=
  inferInstanceAs (Decidable (_ ∧ _))

def tickEstablished (c : Controller) (t : Tick) : Controller :=
  if c.state ≠ .established ∧ c.EstablishedDue t then
    { c.setState .established t.time with setEstablishedAt := 0 }
  else c

/-- A tick up to the timer. -/
def tickBefore (cfg : Config) (c : Controller) (t : Tick) : Controller :=
  (((c.tickAudio t).tickInit t).tickTimeouts cfg t).tickReconnecting cfg t

def tick (cfg : Config) (c : Controller) (t : Tick) : Controller :=
  if c.connectionInitTime = 0 then c else (c.tickBefore cfg t).tickEstablished t

end Controller

/-- What can happen.  `sendFailed`: the sending thread meets a proxy protocol it does not
support; the flags of the last two are for a device or a proxy that fails. -/
inductive Event where
  | start (socketFailed : Bool) (time : Rat)
  | connect (proxy : Proxy) (time : Rat)
  | receive (p : Packet) (time : Rat)
  | udpSocketFailed (time : Rat)
  | tick (t : Tick)
  | sendFailed (time : Rat)
  | setMicMute (audioFailed : Bool) (time : Rat)
  | setNetworkType (proxyFailed : Bool) (time : Rat)
  deriving DecidableEq

def step (cfg : Config) (c : Controller) : Event → Controller
  | .start socketFailed time => c.start socketFailed time
  | .connect proxy time => c.connect proxy time
  | .receive p time => if c.receiving then c.receive cfg p time else c
  | .udpSocketFailed time => if c.receiving then c.failReceiving time else c
  | .tick t => if c.ticking then c.tick cfg t else c
  | .sendFailed time => c.setState .failed time
  | .setMicMute audioFailed time => if audioFailed then c.setState .failed time else c
  | .setNetworkType proxyFailed time => c.initUDPProxy proxyFailed time

/-- After a failure `SetState` is called for failures only. -/
def FailedIsFinal (calls : List CallState) : Prop :=
  calls.Pairwise fun earlier later => earlier = .failed → later = .failed

instance (calls : List CallState) : Decidable (FailedIsFinal calls) :=
  inferInstanceAs (Decidable (calls.Pairwise _))

/-- The step does not leave the failed state. -/
def StaysFailed (cfg : Config) (c : Controller) (e : Event) : Prop :=
  FailedIsFinal (step cfg c e).calls

/-- The call fails in a tick before its timer is looked at. -/
def Controller.FailsInTick (cfg : Config) (c : Controller) (t : Tick) : Prop :=
  match c.state with
  | .established =>
    t.audioFailed = true ∨ t.time - c.lastRecvPacketTime ≥ cfg.recvTimeout ∧ t.onRelay = true
  | .reconnecting => t.time - c.lastRecvPacketTime ≥ cfg.recvTimeout ∧ t.onRelay = true
  | .waitInit => t.time - c.connectionInitTime ≥ cfg.initTimeout
  | .waitInitAck => t.time - c.connectionInitTime ≥ cfg.initTimeout
  | .failed => True

/-- The condition on a step: a failed call gets no stream data after the acknowledgement
of `PKT_INIT`, its timer is not due (nor is it in the tick that lets the call fail), and it
is not connected; `Connect` does not find its proxy unreachable. -/
def KeepsFailed (cfg : Config) (c : Controller) : Event → Prop
  | .connect proxy _ =>
    c.state = .waitInitAck ∨ proxy = .unresolved ∨ c.state ≠ .failed ∧ proxy ≠ .tcpFailed
  | .receive .streamData _ => c.receiving = true → c.receivedInitAck = true → c.state ≠ .failed
  | .tick t =>
    c.ticking = true → c.connectionInitTime ≠ 0 → c.EstablishedDue t → ¬c.FailsInTick cfg t
  | _ => True

/-- The state is the last one set, as far as failures are concerned. -/
structure Inv (c : Controller) : Prop where
  final : FailedIsFinal c.calls
  failed : c.state = .failed ↔ .failed ∈ c.calls

section Steps

variable {c : Controller}

theorem failedIsFinal_append (calls : List CallState) (s : CallState) :
    FailedIsFinal (calls ++ [s]) ↔ FailedIsFinal calls ∧ (.failed ∈ calls → s = .failed) := by
  unfold FailedIsFinal
  rw [List.pairwise_append]
  constructor
  · rintro ⟨hcalls, -, hlast⟩
    exact ⟨hcalls, fun hmem => hlast _ hmem s (List.mem_singleton.2 rfl) rfl⟩
  · grind

theorem Inv.setState_iff (h : Inv c) (s : CallState) (time : Rat) :
    FailedIsFinal (c.setState s time).calls ↔ s = .failed ∨ c.state ≠ .failed := by
  change FailedIsFinal (c.calls ++ [s]) ↔ _
  rw [failedIsFinal_append, ← h.failed]
  constructor
  · grind
  · rintro (hs | hne)
    · exact ⟨h.final, fun _ => hs⟩
    · exact ⟨h.final, fun heq => absurd heq hne⟩

theorem Inv.setState (h : Inv c) {s : CallState} {time : Rat}
    (hs : s = .failed ∨ c.state ≠ .failed) : Inv (c.setState s time) := by
  refine ⟨(h.setState_iff s time).2 hs, ?_⟩
  change s = .failed ↔ .failed ∈ c.calls ++ [s]
  rw [List.mem_append, List.mem_singleton, ← h.failed]
  constructor
  · intro heq
    exact .inr heq.symm
  · grind

theorem Inv.fail (h : Inv c) (time : Rat) : Inv (c.setState .failed time) :=
  h.setState (.inl rfl)

/-- `Inv` looks at the state and the calls only. -/
theorem Inv.of_same {c' : Controller} (h : Inv c) (hstate : c'.state = c.state)
    (hcalls : c'.calls = c.calls) : Inv c' :=
  ⟨hcalls ▸ h.final, by rw [hstate, hcalls]; exact h.failed⟩

theorem Inv.failReceiving (h : Inv c) (time : Rat) : Inv (c.failReceiving time) :=
  (h.fail time).of_same rfl rfl

theorem Inv.initUDPProxy (h : Inv c) (tcpFailed : Bool) (time : Rat) :
    Inv (c.initUDPProxy tcpFailed time) := by
  unfold Controller.initUDPProxy
  split
  · exact h.fail time
  · exact h

theorem connect_spec (h : Inv c) (proxy : Proxy) (time : Rat) :
    (FailedIsFinal (c.connect proxy time).calls ↔ c.state = .waitInitAck ∨ proxy = .unresolved ∨
      c.state ≠ .failed ∧ proxy ≠ .tcpFailed) ∧
    (FailedIsFinal (c.connect proxy time).calls → Inv (c.connect proxy time)) := by
  unfold Controller.connect
  split
  case isTrue hwait => exact ⟨iff_of_true h.final (.inl hwait), fun _ => h⟩
  case isFalse hwait =>
    split
    case isTrue hproxy =>
      have hfail := h.fail time
      exact ⟨iff_of_true hfail.final (.inr (.inl hproxy)), fun _ => hfail⟩
    case isFalse hproxy =>
      have hinit : Inv { c.initUDPProxy (proxy = Proxy.tcpFailed) time with
          connectionInitTime := time } :=
        (h.initUDPProxy _ time).of_same rfl rfl
      have hiff := hinit.setState_iff .waitInitAck time
      have hstate : (c.initUDPProxy (proxy = Proxy.tcpFailed) time).state ≠ .failed ↔
          c.state ≠ .failed ∧ proxy ≠ .tcpFailed := by
        unfold Controller.initUDPProxy
        by_cases htcp : proxy = .tcpFailed
        · simp [htcp, Controller.setState]
        · simp [htcp]
      refine ⟨?_, fun hfinal => hinit.setState (hiff.1 hfinal)⟩
      unfold Controller.sendInit
      rw [hiff]
      simp only [hwait, hproxy, false_or, reduceCtorEq]
      exact hstate

theorem receiveInitAck_inv (cfg : Config) (h : Inv c) (ack : InitAck) (time : Rat) :
    Inv (c.receiveInitAck cfg ack time) := by
  have hflag : Inv { c with receivedInitAck := true } := h.of_same rfl rfl
  unfold Controller.receiveInitAck
  split
  · exact h
  · split
    · exact hflag.failReceiving time
    · split
      · exact hflag
      · split
        · exact hflag.failReceiving time
        · exact hflag.of_same rfl rfl

theorem receiveStreamData_spec (h : Inv c) (time : Rat) :
    (FailedIsFinal (c.receiveStreamData time).calls ↔
      (c.receivedInitAck = true → c.state ≠ .failed)) ∧
    (FailedIsFinal (c.receiveStreamData time).calls → Inv (c.receiveStreamData time)) := by
  unfold Controller.receiveStreamData
  split
  case isTrue hset =>
    have hiff := h.setState_iff .established time
    refine ⟨?_, fun hfinal => h.setState (hiff.1 hfinal)⟩
    rw [hiff]
    simp [hset.2]
  case isFalse hset =>
    refine ⟨iff_of_true h.final ?_, fun _ => h⟩
    intro hack hfailed
    exact hset ⟨by rw [hfailed]; decide, hack⟩

theorem receive_spec (cfg : Config) (h : Inv c) (p : Packet) (time : Rat) :
    (FailedIsFinal (c.receive cfg p time).calls ↔
      (p = .streamData → c.receivedInitAck = true → c.state ≠ .failed)) ∧
    (FailedIsFinal (c.receive cfg p time).calls → Inv (c.receive cfg p time)) := by
  have htime : Inv { c with lastRecvPacketTime := time } := h.of_same rfl rfl
  have hkeep : ∀ {c' : Controller}, Inv c' → p ≠ .streamData →
      (FailedIsFinal c'.calls ↔
        (p = .streamData → c.receivedInitAck = true → c.state ≠ .failed)) ∧
      (FailedIsFinal c'.calls → Inv c') := fun hinv hne =>
    ⟨iff_of_true hinv.final fun heq => absurd heq hne, fun _ => hinv⟩
  unfold Controller.receive
  cases p with
  | wrongCallId => exact hkeep (htime.failReceiving time) (by simp)
  | wrongProtocol => exact hkeep (htime.failReceiving time) (by simp)
  | init incompatible =>
    dsimp only
    split
    · exact hkeep (htime.failReceiving time) (by simp)
    · exact hkeep htime (by simp)
  | initAck ack => exact hkeep (receiveInitAck_inv cfg htime ack time) (by simp)
  | streamData =>
    obtain ⟨hiff, hinv⟩ := receiveStreamData_spec htime time
    exact ⟨by rw [hiff]; simp, hinv⟩
  | other => exact hkeep htime (by simp)

theorem tickAudio_inv (h : Inv c) (t : Tick) : Inv (c.tickAudio t) := by
  unfold Controller.tickAudio
  split
  · exact h.fail t.time
  · exact h

theorem tickInit_inv (h : Inv c) (t : Tick) : Inv (c.tickInit t) := by
  unfold Controller.tickInit
  split
  case isTrue hwait =>
    apply h.setState
    right
    rw [hwait.1]
    decide
  case isFalse => exact h

theorem tickTimeouts_inv (cfg : Config) (h : Inv c) (t : Tick) : Inv (c.tickTimeouts cfg t) := by
  unfold Controller.tickTimeouts
  split
  · split
    · split
      · exact h.fail t.time
      · exact h.of_same rfl rfl
    · exact h
  · split
    · split
      · exact h.fail t.time
      · exact h
    · exact h

theorem tickReconnecting_inv (cfg : Config) (h : Inv c) (t : Tick) :
    Inv (c.tickReconnecting cfg t) := by
  unfold Controller.tickReconnecting
  split
  case isTrue hest =>
    apply h.setState
    right
    rw [hest.1]
    decide
  case isFalse => exact h

theorem tickBefore_inv (cfg : Config) (h : Inv c) (t : Tick) : Inv (c.tickBefore cfg t) :=
  tickReconnecting_inv cfg (tickTimeouts_inv cfg (tickInit_inv (tickAudio_inv h t) t) t) t

theorem tickBefore_setEstablishedAt (cfg : Config) (c : Controller) (t : Tick) :
    (c.tickBefore cfg t).setEstablishedAt = c.setEstablishedAt := by
  have haudio : (c.tickAudio t).setEstablishedAt = c.setEstablishedAt := by
    unfold Controller.tickAudio
    split <;> rfl
  have hinit : ∀ c : Controller, (c.tickInit t).setEstablishedAt = c.setEstablishedAt := by
    intro c
    unfold Controller.tickInit
    split <;> rfl
  have htimeouts : ∀ c : Controller,
      (c.tickTimeouts cfg t).setEstablishedAt = c.setEstablishedAt := by
    intro c
    unfold Controller.tickTimeouts
    split
    · split
      · split <;> rfl
      · rfl
    · split
      · split <;> rfl
      · rfl
  have hreconnecting : ∀ c : Controller,
      (c.tickReconnecting cfg t).setEstablishedAt = c.setEstablishedAt := by
    intro c
    unfold Controller.tickReconnecting
    split <;> rfl
  unfold Controller.tickBefore
  rw [hreconnecting, htimeouts, hinit, haudio]

/-- The end of a call is not undone by the checks behind it. -/
theorem tickReconnecting_failed (cfg : Config) (c : Controller) (t : Tick) :
    (c.tickReconnecting cfg t).state = .failed ↔ c.state = .failed := by
  unfold Controller.tickReconnecting
  split
  case isTrue hest => simp [Controller.setState, hest.1]
  case isFalse => rfl

theorem tickTimeouts_failed (cfg : Config) (c : Controller) (t : Tick) :
    (c.tickTimeouts cfg t).state = .failed ↔ match c.state with
      | .failed => True
      | .waitInit => t.time - c.connectionInitTime ≥ cfg.initTimeout
      | .waitInitAck => t.time - c.connectionInitTime ≥ cfg.initTimeout
      | _ => t.time - c.lastRecvPacketTime ≥ cfg.recvTimeout ∧ t.onRelay = true := by
  unfold Controller.tickTimeouts
  cases hstate : c.state with
  | failed => simp [hstate]
  | waitInit =>
    by_cases hlate : t.time - c.connectionInitTime ≥ cfg.initTimeout
    · simp [hlate, Controller.setState]
    · simp [hlate, hstate]
  | waitInitAck =>
    by_cases hlate : t.time - c.connectionInitTime ≥ cfg.initTimeout
    · simp [hlate, Controller.setState]
    · simp [hlate, hstate]
  | established =>
    by_cases hlate : t.time - c.lastRecvPacketTime ≥ cfg.recvTimeout
    · by_cases hrelay : t.onRelay = true
      · simp [hlate, hrelay, Controller.setState]
      · simp [hlate, hrelay]
    · simp [hlate, hstate]
  | reconnecting =>
    by_cases hlate : t.time - c.lastRecvPacketTime ≥ cfg.recvTimeout
    · by_cases hrelay : t.onRelay = true
      · simp [hlate, hrelay, Controller.setState]
      · simp [hlate, hrelay]
    · simp [hlate, hstate]

theorem tickInit_same (c : Controller) (t : Tick) :
    (c.tickInit t).state = c.state ∧ (c.tickInit t).connectionInitTime = c.connectionInitTime ∧
      (c.tickInit t).lastRecvPacketTime = c.lastRecvPacketTime := by
  unfold Controller.tickInit
  split
  case isTrue hwait => exact ⟨hwait.1.symm, rfl, rfl⟩
  case isFalse => exact ⟨rfl, rfl, rfl⟩

theorem tickBefore_failed (cfg : Config) (c : Controller) (t : Tick) :
    (c.tickBefore cfg t).state = .failed ↔ c.FailsInTick cfg t := by
  obtain ⟨hstate, hinit, hrecv⟩ := tickInit_same (c.tickAudio t) t
  unfold Controller.tickBefore
  rw [tickReconnecting_failed, tickTimeouts_failed, hstate, hinit, hrecv]
  unfold Controller.tickAudio Controller.FailsInTick
  by_cases haudio : c.state = .established ∧ t.audioFailed = true
  · rw [if_pos haudio, haudio.1]
    simp [Controller.setState, haudio.2]
  · grind

theorem tick_spec (cfg : Config) (h : Inv c) (t : Tick) :
    (FailedIsFinal (c.tick cfg t).calls ↔
      (c.connectionInitTime ≠ 0 → c.EstablishedDue t → ¬c.FailsInTick cfg t)) ∧
    (FailedIsFinal (c.tick cfg t).calls → Inv (c.tick cfg t)) := by
  unfold Controller.tick
  split
  case isTrue hzero => exact ⟨iff_of_true h.final fun hne => absurd hzero hne, fun _ => h⟩
  case isFalse hzero =>
    have hbefore := tickBefore_inv cfg h t
    have hdue : (c.tickBefore cfg t).EstablishedDue t ↔ c.EstablishedDue t := by
      unfold Controller.EstablishedDue
      rw [tickBefore_setEstablishedAt]
    unfold Controller.tickEstablished
    split
    case isTrue hset =>
      have hiff := hbefore.setState_iff .established t.time
      refine ⟨?_, ?_⟩
      · change FailedIsFinal ((c.tickBefore cfg t).setState .established t.time).calls ↔ _
        rw [hiff, ← tickBefore_failed]
        simp [hzero, hdue.1 hset.2]
      · intro hfinal
        have hset : Inv ((c.tickBefore cfg t).setState .established t.time) :=
          hbefore.setState (hiff.1 hfinal)
        exact hset.of_same rfl rfl
    case isFalse hset =>
      refine ⟨iff_of_true hbefore.final ?_, fun _ => hbefore⟩
      intro _ hisdue hfails
      have hfailed := (tickBefore_failed cfg c t).2 hfails
      exact hset ⟨by rw [hfailed]; decide, hdue.2 hisdue⟩

theorem step_spec (cfg : Config) (h : Inv c) (e : Event) :
    (StaysFailed cfg c e ↔ KeepsFailed cfg c e) ∧ (StaysFailed cfg c e → Inv (step cfg c e)) := by
  have hkeep : ∀ {c' : Controller} {P : Prop}, Inv c' → P →
      (FailedIsFinal c'.calls ↔ P) ∧ (FailedIsFinal c'.calls → Inv c') := fun hinv hP =>
    ⟨iff_of_true hinv.final hP, fun _ => hinv⟩
  unfold StaysFailed
  cases e with
  | start socketFailed time =>
    unfold step Controller.start
    dsimp only
    split
    · exact hkeep (h.fail time) trivial
    · exact hkeep (h.of_same rfl rfl) trivial
  | connect proxy time => exact connect_spec h proxy time
  | receive p time =>
    unfold step
    have hcond : KeepsFailed cfg c (.receive p time) ↔
        (c.receiving = true → p = .streamData → c.receivedInitAck = true →
          c.state ≠ .failed) := by
      cases p <;> simp [KeepsFailed]
    rw [hcond]
    dsimp only
    split
    case isTrue hrecv =>
      obtain ⟨hiff, hinv⟩ := receive_spec cfg h p time
      exact ⟨hiff.trans ⟨fun himp _ => himp, fun himp => himp hrecv⟩, hinv⟩
    case isFalse hrecv => exact hkeep h fun htrue => absurd htrue hrecv
  | udpSocketFailed time =>
    unfold step
    dsimp only
    split
    · exact hkeep (h.failReceiving time) trivial
    · exact hkeep h trivial
  | tick t =>
    unfold step KeepsFailed
    dsimp only
    split
    case isTrue hticks =>
      obtain ⟨hiff, hinv⟩ := tick_spec cfg h t
      exact ⟨hiff.trans ⟨fun himp _ => himp, fun himp => himp hticks⟩, hinv⟩
    case isFalse hticks => exact hkeep h fun htrue => absurd htrue hticks
  | sendFailed time => exact hkeep (h.fail time) trivial
  | setMicMute audioFailed time =>
    unfold step
    dsimp only
    split
    · exact hkeep (h.fail time) trivial
    · exact hkeep h trivial
  | setNetworkType proxyFailed time => exact hkeep (h.initUDPProxy proxyFailed time) trivial

end Steps

/-- A new controller. -/
def Controller.initial : Controller := {}

/-- In a run from a new controller no step leaves the failed state if and only if every
step meets the condition. -/
theorem failed_is_final (cfg : Config) (es : List Event) :
    Guarded (step cfg) (StaysFailed cfg) .initial es ↔
      Guarded (step cfg) (KeepsFailed cfg) .initial es := by
  have hinitial : Inv .initial := ⟨List.Pairwise.nil, by simp [Controller.initial]⟩
  have hall : Guarded (step cfg) (fun _ _ => True) .initial es :=
    guarded_of_forall (fun _ _ => trivial) es _
  refine guarded_congr_within ?_ ?_ es _ hinitial hall
  · intro c e h _ hkeeps
    obtain ⟨hiff, hinv⟩ := step_spec cfg h e
    exact hinv (hiff.2 hkeeps)
  · intro c e h _
    exact (step_spec cfg h e).1

/-- The default timeouts. -/
def defaultConfig : Config :=
  { initTimeout := 30, recvTimeout := 10, reconnectingTimeout := 2, establishedDelay := 3 / 2 }

/-- The peer acknowledges `PKT_INIT` and then sends a packet of another protocol; the timer
makes the failed call an established one. -/
theorem failed_call_established :
    ¬Guarded (step defaultConfig) (StaysFailed defaultConfig) .initial
        [.start false 1, .connect .none 1, .receive (.initAck {}) 2, .receive .wrongProtocol 3,
          .tick { time := 4 }] ∧
      (run (step defaultConfig) .initial
        [.start false 1, .connect .none 1, .receive (.initAck {}) 2, .receive .wrongProtocol 3,
          .tick { time := 4 }]).calls = [.waitInitAck, .failed, .established] := by
  refine ⟨?_, by decide +kernel⟩
  rintro ⟨-, -, -, -, hfinal, -⟩
  revert hfinal
  unfold StaysFailed
  decide +kernel

end TelegramPub.Ports.VoipCallState
