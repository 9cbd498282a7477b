import TelegramPub.Verified.Machine
import Mathlib.Data.List.Nodup

/-!
# VoIPController: endpoints

The controller owns a vector of endpoints: the relays it was given, their TCP
copies, and at most one endpoint each for the peer's Internet and LAN address.
Relays stay until the end of the call.  The other two are deleted: by the peer
information of a reflector, by `PKT_LAN_ENDPOINT` and by `SetNetworkType`.
Pointers to endpoints are kept in `currentEndpoint`, `preferredRelay` and
`peerPreferredRelay`, and in the packets that wait in `sendQueue`.

A deletion repairs `currentEndpoint` and nothing else, so a ping or pong that waits
for a deleted endpoint keeps a dangling pointer (`queuedPing_dangles`).
`SetNetworkType` does not look at `currentEndpoint` when it deletes the LAN endpoint;
what it does before repairs `currentEndpoint` only when the preferred relay is a UDP
relay, or a TCP one that it replaces.

An endpoint is known by its `id`, the address of the object.  What depends on round
trip times and on other state of the call is left to the events.
-/

namespace TelegramPub.Ports.VoipEndpoints

open Verified.Machine

inductive EndpointType where
  | udpP2pInet
  | udpP2pLan
  | udpRelay
  | tcpRelay
  deriving DecidableEq

def EndpointType.isRelay : EndpointType → Bool
  | .udpRelay | .tcpRelay => true
  | .udpP2pInet | .udpP2pLan => false

structure Endpoint where
  id : Nat
  type : EndpointType
  deriving DecidableEq

/-- The endpoints of a `VoIPController` and what refers to them.  A packet in
`sendQueue` without an endpoint is sent to `currentEndpoint`. -/
structure Controller where
  endpoints : List Endpoint
  nextId : Nat
  currentEndpoint : Endpoint
  preferredRelay : Endpoint
  peerPreferredRelay : Option Endpoint := none
  sendQueue : List (Option Endpoint) := []
  useTCP : Bool
  useUDP : Bool := true
  didAddTcpRelays : Bool
  allowP2p : Bool
  waitingForRelayPeerInfo : Bool := false
  receivedInit : Bool := false
  deriving DecidableEq

namespace Controller

/-- `endpoints.push_back(new Endpoint(…))`. -/
def addEndpoint (c : Controller) (type : EndpointType) : Controller :=
  { c with
    endpoints := c.endpoints ++ [⟨c.nextId, type⟩]
    nextId := c.nextId + 1 }

/-- The first endpoint of a type is deleted. -/
def deleteFirst (c : Controller) (type : EndpointType) : Controller :=
  match c.endpoints.find? (·.type = type) with
  | none => c
  | some ep =>
    { c with
      endpoints := c.endpoints.erase ep
      currentEndpoint :=
        if c.currentEndpoint = ep then c.preferredRelay else c.currentEndpoint }

/-- A packet is put into `sendQueue`, if one of the 20 buffers is free. -/
def put (c : Controller) (endpoint : Option Endpoint) : Controller :=
  if c.sendQueue.length < 20 then { c with sendQueue := c.sendQueue ++ [endpoint] } else c

def putAll (c : Controller) (endpoints : List (Option Endpoint)) : Controller :=
  endpoints.foldl put c

def setCurrentEndpoint (c : Controller) (endpoint : Endpoint) : Controller :=
  { c with currentEndpoint := endpoint }

def setPreferredRelay (c : Controller) (endpoint : Endpoint) : Controller :=
  { c with preferredRelay := endpoint }

def sendPublicEndpointsRequest (c : Controller) : Controller :=
  if c.useUDP then { c with waitingForRelayPeerInfo := true } else c

def requestIfAllowed (c : Controller) : Controller :=
  if c.allowP2p then c.sendPublicEndpointsRequest else c

/-- `SendInit` sends to every endpoint that can be used. -/
def sendInit (c : Controller) : Controller :=
  c.putAll ((c.endpoints.filter fun e => e.type ≠ .tcpRelay || c.useTCP).map some)

/-! ## The receiving thread -/

/-- The peer information of a reflector, from an endpoint. -/
def reflectorPeerInfo (c : Controller) (src : Endpoint) : Controller :=
  if src.type.isRelay && c.waitingForRelayPeerInfo then
    { ((c.deleteFirst .udpP2pInet).deleteFirst .udpP2pLan).addEndpoint .udpP2pInet with
      waitingForRelayPeerInfo := false }
  else c

end Controller

/-- The packets that touch endpoints. -/
inductive PacketType where
  | init
  | initAck
  | streamData
  | ping
  | lanEndpoint
  | networkChanged
  | other
  deriving DecidableEq

/-- A packet that has passed the reception window.  `lagging`: the acknowledgements of
the peer are more than 32 behind; `untimed`: `currentEndpoint` has no round trip time;
`complete`: the body is read to the end. -/
structure Incoming where
  type : PacketType
  lagging : Bool := false
  untimed : Bool := false
  complete : Bool := true
  deriving DecidableEq

namespace Controller

/-- The switch to the relay that a packet came from. -/
def followSource (c : Controller) (src : Endpoint) (p : Incoming) : Controller :=
  if src ≠ c.currentEndpoint ∧ src.type.isRelay = true ∧
      (c.currentEndpoint.type.isRelay = false ∨ p.untimed = true) ∧ p.lagging = true then
    (c.setCurrentEndpoint src).requestIfAllowed
  else c

/-- The source of the first `PKT_INIT`, if it is a relay in use, is preferred. -/
def preferSource (c : Controller) (src : Endpoint) : Controller :=
  if src.type = .udpRelay ∨ (c.useTCP = true ∧ src.type = .tcpRelay) then
    c.setPreferredRelay src
  else c

/-- `PKT_INIT`: the first one decides on the endpoint. -/
def receiveInit (c : Controller) (src : Endpoint) : Controller :=
  if c.receivedInit then c
  else ({ c with receivedInit := true }.setCurrentEndpoint src).preferSource src

/-- A packet of the peer. -/
def receive (c : Controller) (src : Endpoint) (p : Incoming) : Controller :=
  let c := c.followSource src p
  match p.type with
  | .init =>
    let c := c.receiveInit src
    if p.complete then c.put none else c
  | .initAck => if p.complete then c.requestIfAllowed else c
  | .streamData => if src.type = .udpRelay then { c with peerPreferredRelay := some src } else c
  | .ping => if src.type.isRelay = false ∧ c.allowP2p = false then c else c.put (some src)
  | .lanEndpoint =>
    if p.complete then (c.deleteFirst .udpP2pLan).addEndpoint .udpP2pLan else c
  | .networkChanged =>
    if c.currentEndpoint.type.isRelay then c
    else (c.setCurrentEndpoint c.preferredRelay).requestIfAllowed
  | .other => c

end Controller

/-- What a tick finds: whether the call is established, how many packets without an
endpoint are due, whether `SendInit` is, which endpoints are to be pinged, the relay
with the smallest ping if another one than the preferred, how the round trip times
compare, and what has timed out. -/
structure Tick where
  established : Bool := true
  due : Nat := 0
  initDue : Bool := false
  pinged : List Nat := []
  minPingRelay : Option Nat := none
  lanFaster : Bool := false
  p2pFaster : Bool := false
  relayFaster : Bool := false
  udpUnavailable : Bool := false
  receiveTimeout : Bool := false
  deriving DecidableEq

namespace Controller

/-- Every UDP relay gets a TCP copy, once. -/
def addTcpRelays (c : Controller) : Controller :=
  if c.useTCP && !c.didAddTcpRelays then
    (c.endpoints.filter (·.type = .udpRelay)).foldl (fun c _ => c.addEndpoint .tcpRelay)
      { c with didAddTcpRelays := true }
  else c

/-- The packets that are due: `PKT_INIT` and those without an endpoint. -/
def sendDue (c : Controller) (t : Tick) : Controller :=
  (if t.initDue then c.sendInit else c).putAll (List.replicate t.due none)

def sendPings (c : Controller) (t : Tick) : Controller :=
  c.putAll ((c.endpoints.filter fun e =>
    (e.type ≠ .tcpRelay || c.useTCP) && t.pinged.contains e.id).map some)

def switchRelay (c : Controller) (t : Tick) : Controller :=
  match c.endpoints.find? fun e =>
      (e.type = .udpRelay || (c.useTCP && e.type = .tcpRelay)) && t.minPingRelay = some e.id &&
        e ≠ c.preferredRelay with
  | none => c
  | some relay =>
    let wasRelay := c.currentEndpoint.type.isRelay
    let c := c.setPreferredRelay relay
    if wasRelay then c.setCurrentEndpoint relay else c

/-- `GetEndpointByType`, for the types that are not relays. -/
def getEndpointByType (c : Controller) (type : EndpointType) : Option Endpoint :=
  c.endpoints.find? (·.type = type)

def switchP2p (c : Controller) (t : Tick) : Controller :=
  if c.currentEndpoint.type = .udpRelay then
    match c.getEndpointByType .udpP2pInet with
    | none => c
    | some p2p =>
      match c.getEndpointByType .udpP2pLan with
      | some lan =>
        if t.lanFaster then c.setCurrentEndpoint lan
        else if t.p2pFaster then c.setCurrentEndpoint p2p else c
      | none => if t.p2pFaster then c.setCurrentEndpoint p2p else c
  else if t.relayFaster then c.setCurrentEndpoint c.preferredRelay else c

def receiveTimeout (c : Controller) : Controller :=
  if c.currentEndpoint.type.isRelay then c
  else (c.setCurrentEndpoint c.preferredRelay).requestIfAllowed

def switchEndpoints (c : Controller) (t : Tick) : Controller :=
  if t.established then ((c.sendPings t).switchRelay t).switchP2p t else c

def checkUdp (c : Controller) (t : Tick) : Controller :=
  if t.udpUnavailable then { c with useTCP := true } else c

/-- One round of `RunTickThread`. -/
def tick (c : Controller) (t : Tick) : Controller :=
  let c := ((c.addTcpRelays.sendDue t).switchEndpoints t).checkUdp t
  if t.established && t.receiveTimeout then c.receiveTimeout else c

/-- The loop body of `SetNetworkType` for a UDP relay. -/
def backToUdp (c : Controller) (endpoint : Endpoint) : Controller :=
  if endpoint.type = .udpRelay ∧ c.useTCP = true then
    let c := { c with useTCP := false }
    if c.preferredRelay.type = .tcpRelay then
      (c.setPreferredRelay endpoint).setCurrentEndpoint endpoint
    else c
  else c

/-- The loop of `SetNetworkType`; `endpoints` are those it has kept so far. -/
def networkLoop : List Endpoint → Controller → Controller
  | [], c => c
  | endpoint :: rest, c =>
    let c := c.backToUdp endpoint
    networkLoop rest
      (if endpoint.type = .udpP2pLan then c
       else { c with endpoints := c.endpoints ++ [endpoint] })

/-- The part of `SetNetworkType` that deals with the endpoints. -/
def leaveNetwork (c : Controller) : Controller :=
  if c.currentEndpoint.type = .udpRelay then c
  else
    let c := if c.preferredRelay.type = .udpRelay then c.setCurrentEndpoint c.preferredRelay else c
    networkLoop c.endpoints { c with endpoints := [] }

/-- `SetNetworkType` when the active interface has changed, and not for the first
time.  `proxyFailed`: there is a proxy and it does not work any more. -/
def setNetworkType (c : Controller) (proxyFailed : Bool) : Controller :=
  let c := c.leaveNetwork
  let c := if proxyFailed then { c with useTCP := true, useUDP := false } else c
  c.requestIfAllowed

/-- `DebugCtl` with request 3. -/
def debugCtl (c : Controller) (allow : Bool) : Controller :=
  let c := { c with allowP2p := allow }
  if !allow && c.currentEndpoint.type ≠ .udpRelay then c.setCurrentEndpoint c.preferredRelay
  else c.requestIfAllowed

end Controller

inductive Event where
  | reflectorPeerInfo (src : Nat)
  | packet (src : Nat) (packet : Incoming)
  | tick (tick : Tick)
  | setNetworkType (proxyFailed : Bool)
  | debugCtl (allow : Bool)
  | put
  | sendInit
  | sent
  deriving DecidableEq

/-- A packet from an address that is not that of an endpoint is dropped. -/
def step (c : Controller) : Event → Controller
  | .reflectorPeerInfo src =>
    match c.endpoints[src]? with
    | none => c
    | some src => c.reflectorPeerInfo src
  | .packet src p =>
    match c.endpoints[src]? with
    | none => c
    | some src => c.receive src p
  | .tick t => c.tick t
  | .setNetworkType proxyFailed => c.setNetworkType proxyFailed
  | .debugCtl allow => c.debugCtl allow
  | .put => c.put none
  | .sendInit => c.sendInit
  | .sent => { c with sendQueue := c.sendQueue.tail }

/-- A relay of the list that `SetRemoteEndpoints` is given. -/
def relayType (tcp : Bool) : EndpointType := if tcp then .tcpRelay else .udpRelay

/-- `SetRemoteEndpoints`, with at least one relay, each of them TCP or not. -/
def Controller.initial (first : Bool) (rest : List Bool) (allowP2p : Bool) : Controller :=
  rest.foldl (fun c tcp => c.addEndpoint (relayType tcp))
    { endpoints := [⟨0, relayType first⟩]
      nextId := 1
      currentEndpoint := ⟨0, relayType first⟩
      preferredRelay := ⟨0, relayType first⟩
      useTCP := (first :: rest).all id
      didAddTcpRelays := (first :: rest).any id
      allowP2p }

/-- Every reference is to an endpoint of the vector. -/
def Controller.Valid (c : Controller) : Prop :=
  c.currentEndpoint ∈ c.endpoints ∧ c.preferredRelay ∈ c.endpoints ∧
    (∀ e ∈ c.peerPreferredRelay, e ∈ c.endpoints) ∧ ∀ e, some e ∈ c.sendQueue → e ∈ c.endpoints

/-- The references are valid after the step. -/
def StaysValid (c : Controller) (e : Event) : Prop := (step c e).Valid

/-- No packet waits for an endpoint of this type. -/
def Controller.NoneWaits (c : Controller) (type : EndpointType) : Prop :=
  ∀ e, some e ∈ c.sendQueue → e.type ≠ type

/-- There is a UDP relay that `SetNetworkType` makes the current endpoint. -/
def Controller.HasUdpRelay (c : Controller) : Prop :=
  c.preferredRelay.type = .udpRelay ∨ (c.useTCP = true ∧ ∃ e ∈ c.endpoints, e.type = .udpRelay)

/-- When endpoints are deleted, no packet waits for one of them; and when the network
changes while the LAN endpoint is in use, the preferred relay is a UDP relay or there
is a UDP relay to go back to. -/
def DeletesUnused (c : Controller) : Event → Prop
  | .reflectorPeerInfo src =>
    ∀ e ∈ c.endpoints[src]?, e.type.isRelay = true → c.waitingForRelayPeerInfo = true →
      c.NoneWaits .udpP2pInet ∧ c.NoneWaits .udpP2pLan
  | .packet src p =>
    src < c.endpoints.length → p.type = .lanEndpoint → p.complete = true →
      c.NoneWaits .udpP2pLan
  | .setNetworkType _ =>
    c.currentEndpoint.type ≠ .udpRelay →
      (c.currentEndpoint.type = .udpP2pLan → c.HasUdpRelay) ∧ c.NoneWaits .udpP2pLan
  | _ => True

/-- No endpoint is in the vector twice, the next one is a new one, and there is at most
one endpoint for the Internet address of the peer and one for its LAN address. -/
structure Wf (c : Controller) : Prop where
  nodup : c.endpoints.Nodup
  fresh : ∀ e ∈ c.endpoints, e.id < c.nextId
  unique : ∀ e ∈ c.endpoints, ∀ e' ∈ c.endpoints, e.type.isRelay = false → e.type = e'.type →
    e = e'

/-- The invariant of a call in which no reference is lost. -/
structure Inv (c : Controller) : Prop where
  wf : Wf c
  valid : c.Valid
  preferred_relay : c.preferredRelay.type.isRelay = true
  peer_relay : ∀ e ∈ c.peerPreferredRelay, e.type.isRelay = true

/-- The two controllers agree on the endpoints and on everything that refers to
them. -/
structure SameRefs (c c' : Controller) : Prop where
  endpoints : c'.endpoints = c.endpoints
  nextId : c'.nextId = c.nextId
  currentEndpoint : c'.currentEndpoint = c.currentEndpoint
  preferredRelay : c'.preferredRelay = c.preferredRelay
  peerPreferredRelay : c'.peerPreferredRelay = c.peerPreferredRelay
  sendQueue : c'.sendQueue = c.sendQueue

variable {c : Controller}

theorem SameRefs.wf {c' : Controller} (h : SameRefs c c') (hwf : Wf c) : Wf c' := by
  obtain ⟨he, hn, _, _, _, _⟩ := h
  refine ⟨?_, ?_, ?_⟩
  · rw [he]; exact hwf.nodup
  · rw [he, hn]; exact hwf.fresh
  · rw [he]; exact hwf.unique

theorem SameRefs.valid_iff {c' : Controller} (h : SameRefs c c') : c'.Valid ↔ c.Valid := by
  unfold Controller.Valid
  rw [h.endpoints, h.currentEndpoint, h.preferredRelay, h.peerPreferredRelay, h.sendQueue]

theorem SameRefs.inv {c' : Controller} (h : SameRefs c c') (hinv : Inv c) : Inv c' where
  wf := h.wf hinv.wf
  valid := h.valid_iff.mpr hinv.valid
  preferred_relay := by rw [h.preferredRelay]; exact hinv.preferred_relay
  peer_relay := by rw [h.peerPreferredRelay]; exact hinv.peer_relay

theorem sameRefs_sendPublicEndpointsRequest (c : Controller) :
    SameRefs c c.sendPublicEndpointsRequest := by
  unfold Controller.sendPublicEndpointsRequest
  split <;> exact ⟨rfl, rfl, rfl, rfl, rfl, rfl⟩

theorem sameRefs_requestIfAllowed (c : Controller) : SameRefs c c.requestIfAllowed := by
  unfold Controller.requestIfAllowed
  split
  · exact sameRefs_sendPublicEndpointsRequest c
  · exact ⟨rfl, rfl, rfl, rfl, rfl, rfl⟩

variable {e src : Endpoint}

theorem Inv.setCurrentEndpoint (h : Inv c) (he : e ∈ c.endpoints) : Inv (c.setCurrentEndpoint e) :=
  ⟨⟨h.wf.nodup, h.wf.fresh, h.wf.unique⟩, ⟨he, h.valid.2⟩, h.preferred_relay, h.peer_relay⟩

theorem Inv.setPreferredRelay (h : Inv c) (he : e ∈ c.endpoints) (hrelay : e.type.isRelay = true)
    : Inv (c.setPreferredRelay e) :=
  ⟨⟨h.wf.nodup, h.wf.fresh, h.wf.unique⟩, ⟨h.valid.1, he, h.valid.2.2⟩, hrelay, h.peer_relay⟩

theorem Inv.put {x : Option Endpoint} (h : Inv c) (hx : ∀ e ∈ x, e ∈ c.endpoints)
    : Inv (c.put x) := by
  unfold Controller.put
  split
  · obtain ⟨hcur, hpref, hpeer, hqueue⟩ := h.valid
    refine ⟨⟨h.wf.nodup, h.wf.fresh, h.wf.unique⟩, ⟨hcur, hpref, hpeer, ?_⟩,
      h.preferred_relay, h.peer_relay⟩
    intro e he
    rcases List.mem_append.mp he with hold | hnew
    · exact hqueue e hold
    · exact hx e (List.mem_singleton.mp hnew).symm
  · exact h

theorem endpoints_put (c : Controller) (x : Option Endpoint) :
    (c.put x).endpoints = c.endpoints := by
  unfold Controller.put
  split <;> rfl

theorem Inv.putAll {xs : List (Option Endpoint)} :
    ∀ {c : Controller}, Inv c → (∀ x ∈ xs, ∀ e ∈ x, e ∈ c.endpoints) → Inv (c.putAll xs) := by
  induction xs with
  | nil => intro c h _; exact h
  | cons x xs ih =>
    intro c h hxs
    show Inv ((c.put x).putAll xs)
    refine ih (h.put (hxs x (.head _))) ?_
    intro y hy
    rw [endpoints_put]
    exact hxs y (.tail _ hy)

/-- Some of the endpoints, as packets that are put into the queue. -/
theorem mem_of_filter_map_some {es : List Endpoint} {q : Endpoint → Bool} :
    ∀ x ∈ (es.filter q).map some, ∀ e ∈ x, e ∈ es := by
  intro x hx e he
  obtain ⟨e', he', rfl⟩ := List.mem_map.mp hx
  obtain rfl := Option.some.inj he
  exact (List.mem_filter.mp he').1

theorem Inv.sendInit (h : Inv c) : Inv c.sendInit :=
  h.putAll mem_of_filter_map_some

/-! ## Adding and deleting -/

variable {type : EndpointType}

theorem Wf.addEndpoint (h : Wf c) (hnone : type.isRelay = false → ∀ e ∈ c.endpoints, e.type ≠ type)
    :
    Wf (c.addEndpoint type) where
  nodup := by
    refine List.nodup_append.mpr ⟨h.nodup, List.nodup_singleton _, ?_⟩
    intro e he e' he' heq
    have hlt := h.fresh e he
    rw [heq, List.mem_singleton.mp he'] at hlt
    exact Nat.lt_irrefl _ hlt
  fresh := by
    intro e he
    show e.id < c.nextId + 1
    rcases List.mem_append.mp he with hold | hnew
    · exact Nat.lt_succ_of_lt (h.fresh e hold)
    · rw [List.mem_singleton.mp hnew]
      exact Nat.lt_succ_self _
  unique := by
    intro e he e' he' hp2p htype
    rcases List.mem_append.mp he with hold | hnew <;>
      rcases List.mem_append.mp he' with hold' | hnew'
    · exact h.unique e hold e' hold' hp2p htype
    · grind
    · rw [List.mem_singleton.mp hnew] at htype hp2p
      exact absurd htype.symm (hnone hp2p e' hold')
    · rw [List.mem_singleton.mp hnew, List.mem_singleton.mp hnew']

theorem Inv.addEndpoint (h : Inv c)
    (hnone : type.isRelay = false → ∀ e ∈ c.endpoints, e.type ≠ type) :
    Inv (c.addEndpoint type) := by
  obtain ⟨hcur, hpref, hpeer, hqueue⟩ := h.valid
  exact ⟨h.wf.addEndpoint hnone,
    ⟨List.mem_append_left _ hcur, List.mem_append_left _ hpref,
      fun e he => List.mem_append_left _ (hpeer e he),
      fun e he => List.mem_append_left _ (hqueue e he)⟩,
    h.preferred_relay, h.peer_relay⟩

/-- What a deletion does to the vector. -/
theorem endpoints_deleteFirst (c : Controller) (type : EndpointType) :
    (c.deleteFirst type = c ∧ ∀ e ∈ c.endpoints, e.type ≠ type) ∨
      ∃ ep ∈ c.endpoints, ep.type = type ∧ c.deleteFirst type =
        { c with
          endpoints := c.endpoints.erase ep
          currentEndpoint :=
            if c.currentEndpoint = ep then c.preferredRelay else c.currentEndpoint } := by
  unfold Controller.deleteFirst
  cases hfind : c.endpoints.find? (·.type = type) with
  | none =>
    grind
  | some ep =>
    have htype := List.find?_some hfind
    exact .inr ⟨ep, List.mem_of_find?_eq_some hfind, by simpa using htype, rfl⟩

theorem sendQueue_deleteFirst (c : Controller) (type : EndpointType) :
    (c.deleteFirst type).sendQueue = c.sendQueue := by
  unfold Controller.deleteFirst
  split <;> rfl

theorem nextId_deleteFirst (c : Controller) (type : EndpointType) :
    (c.deleteFirst type).nextId = c.nextId := by
  unfold Controller.deleteFirst
  split <;> rfl

theorem mem_deleteFirst (h : Wf c) (hp2p : type.isRelay = false) (e : Endpoint) :
    e ∈ (c.deleteFirst type).endpoints ↔ e ∈ c.endpoints ∧ e.type ≠ type := by
  rcases endpoints_deleteFirst c type with ⟨heq, hnone⟩ | ⟨ep, hep, htype, heq⟩
  · rw [heq]
    exact ⟨fun he => ⟨he, hnone e he⟩, fun he => he.1⟩
  · rw [heq]
    show e ∈ c.endpoints.erase ep ↔ _
    rw [h.nodup.mem_erase_iff]
    constructor
    · rintro ⟨hne, he⟩
      refine ⟨he, ?_⟩
      intro hsame
      exact hne (h.unique e he ep hep (by rw [hsame]; exact hp2p) (by rw [hsame, htype]))
    · grind

theorem Wf.deleteFirst (h : Wf c) (type : EndpointType) :
    Wf (c.deleteFirst type) := by
  rcases endpoints_deleteFirst c type with ⟨heq, _⟩ | ⟨ep, _, _, heq⟩
  · rw [heq]
    exact h
  · rw [heq]
    exact
      { nodup := h.nodup.erase ep
        fresh := fun e he => h.fresh e (List.mem_of_mem_erase he)
        unique := fun e he e' he' =>
          h.unique e (List.mem_of_mem_erase he) e' (List.mem_of_mem_erase he') }

theorem ne_of_isRelay {type' : EndpointType} (h : type.isRelay = true) (h' : type'.isRelay = false)
    : type ≠ type' := by
  rintro rfl
  rw [h] at h'
  cases h'

/-- A deletion repairs `currentEndpoint`, and the relays stay. -/
theorem Inv.deleteFirst (h : Inv c) (hp2p : type.isRelay = false) (hqueue : c.NoneWaits type)
    : Inv (c.deleteFirst type) := by
  have hmem := mem_deleteFirst h.wf hp2p
  obtain ⟨hcur, hpref, hpeer, hwaiting⟩ := h.valid
  have hpref' := (hmem c.preferredRelay).mpr ⟨hpref, ne_of_isRelay h.preferred_relay hp2p⟩
  have hpeer' : ∀ e ∈ c.peerPreferredRelay, e ∈ (c.deleteFirst type).endpoints := fun e he =>
    (hmem e).mpr ⟨hpeer e he, ne_of_isRelay (h.peer_relay e he) hp2p⟩
  have hqueue' : ∀ e, some e ∈ c.sendQueue → e ∈ (c.deleteFirst type).endpoints := fun e he =>
    (hmem e).mpr ⟨hwaiting e he, hqueue e he⟩
  have hwf := h.wf.deleteFirst type
  rcases endpoints_deleteFirst c type with ⟨heq, _⟩ | ⟨ep, _, _, heq⟩
  · rw [heq]
    exact h
  · rw [heq] at hpref' hpeer' hqueue' hwf ⊢
    refine ⟨hwf, ⟨?_, hpref', hpeer', hqueue'⟩, h.preferred_relay, h.peer_relay⟩
    show (if c.currentEndpoint = ep then c.preferredRelay else c.currentEndpoint) ∈
      c.endpoints.erase ep
    split
    case isTrue => exact hpref'
    case isFalse hne => exact h.wf.nodup.mem_erase_iff.mpr ⟨hne, hcur⟩

theorem Inv.followSource {p : Incoming} (h : Inv c) (hsrc : src ∈ c.endpoints)
    : Inv (c.followSource src p) := by
  unfold Controller.followSource
  split
  · exact (sameRefs_requestIfAllowed _).inv (h.setCurrentEndpoint hsrc)
  · exact h

theorem followSource_frame (c : Controller) (src : Endpoint) (p : Incoming) :
    (c.followSource src p).endpoints = c.endpoints ∧
      (c.followSource src p).nextId = c.nextId ∧
      (c.followSource src p).sendQueue = c.sendQueue := by
  unfold Controller.followSource
  split
  · have hsame := sameRefs_requestIfAllowed (c.setCurrentEndpoint src)
    exact ⟨hsame.endpoints, hsame.nextId, hsame.sendQueue⟩
  · exact ⟨rfl, rfl, rfl⟩

theorem Inv.preferSource (h : Inv c) (hsrc : src ∈ c.endpoints) : Inv (c.preferSource src) := by
  unfold Controller.preferSource
  split
  case isTrue hrelay =>
    refine h.setPreferredRelay hsrc ?_
    rcases hrelay with htype | ⟨_, htype⟩ <;> rw [htype] <;> rfl
  case isFalse => exact h

theorem Inv.receiveInit (h : Inv c) (hsrc : src ∈ c.endpoints) : Inv (c.receiveInit src) := by
  unfold Controller.receiveInit
  split
  · exact h
  · have hflag : SameRefs c { c with receivedInit := true } := ⟨rfl, rfl, rfl, rfl, rfl, rfl⟩
    exact ((hflag.inv h).setCurrentEndpoint hsrc).preferSource hsrc

theorem Inv.replaceLan (h : Inv c) (hqueue : c.NoneWaits .udpP2pLan) :
    Inv ((c.deleteFirst .udpP2pLan).addEndpoint .udpP2pLan) := by
  refine (h.deleteFirst rfl hqueue).addEndpoint ?_
  intro _ e he
  exact ((mem_deleteFirst h.wf rfl e).mp he).2

theorem Inv.backToRelay (h : Inv c) :
    Inv (c.setCurrentEndpoint c.preferredRelay).requestIfAllowed :=
  (sameRefs_requestIfAllowed _).inv (h.setCurrentEndpoint h.valid.2.1)

theorem Inv.receive {p : Incoming} (h : Inv c) (hsrc : src ∈ c.endpoints)
    (hlan : p.type = .lanEndpoint → p.complete = true → c.NoneWaits .udpP2pLan) :
    Inv (c.receive src p) := by
  have hf := h.followSource (p := p) hsrc
  obtain ⟨hends, _, hqueue⟩ := followSource_frame c src p
  have hsrc' : src ∈ (c.followSource src p).endpoints := by
    rw [hends]
    exact hsrc
  unfold Controller.receive
  dsimp only
  cases htype : p.type with
  | init =>
    dsimp only
    have hinit := hf.receiveInit hsrc'
    split
    · exact hinit.put (fun e he => nomatch he)
    · exact hinit
  | initAck =>
    dsimp only
    split
    · exact (sameRefs_requestIfAllowed _).inv hf
    · exact hf
  | streamData =>
    dsimp only
    split
    case isTrue hudp =>
      obtain ⟨hcur, hpref, _, hwaiting⟩ := hf.valid
      refine ⟨⟨hf.wf.nodup, hf.wf.fresh, hf.wf.unique⟩, ⟨hcur, hpref, ?_, hwaiting⟩,
        hf.preferred_relay, ?_⟩
      · rintro e he
        obtain rfl := Option.some.inj he
        exact hsrc'
      · rintro e he
        obtain rfl := Option.some.inj he
        rw [hudp]
        rfl
    case isFalse => exact hf
  | ping =>
    dsimp only
    split
    · exact hf
    · refine hf.put ?_
      rintro e he
      obtain rfl := Option.some.inj he
      exact hsrc'
  | lanEndpoint =>
    dsimp only
    split
    case isTrue hcomplete =>
      refine hf.replaceLan ?_
      unfold Controller.NoneWaits
      rw [hqueue]
      exact hlan htype hcomplete
    case isFalse => exact hf
  | networkChanged =>
    dsimp only
    split
    · exact hf
    · exact hf.backToRelay
  | other => exact hf

theorem Inv.addTcpRelays (h : Inv c) : Inv c.addTcpRelays := by
  have hadd : ∀ (es : List Endpoint) (c : Controller), Inv c →
      Inv (es.foldl (fun c _ => c.addEndpoint .tcpRelay) c) := by
    intro es
    induction es with
    | nil => intro c h; exact h
    | cons e es ih => intro c h; exact ih _ (h.addEndpoint (fun hp2p => nomatch hp2p))
  unfold Controller.addTcpRelays
  split
  · have hflag : SameRefs c { c with didAddTcpRelays := true } := ⟨rfl, rfl, rfl, rfl, rfl, rfl⟩
    exact hadd _ _ (hflag.inv h)
  · exact h

variable {t : Tick}

theorem Inv.sendDue (h : Inv c) : Inv (c.sendDue t) := by
  have hinit : Inv (if t.initDue then c.sendInit else c) := by
    split
    · exact h.sendInit
    · exact h
  refine hinit.putAll ?_
  intro x hx e he
  rw [List.eq_of_mem_replicate hx] at he
  cases he

theorem Inv.switchRelay (h : Inv c) : Inv (c.switchRelay t) := by
  unfold Controller.switchRelay
  split
  case h_1 => exact h
  case h_2 relay hfind =>
    have hmem := List.mem_of_find?_eq_some hfind
    have hfound := List.find?_some hfind
    have hrelay : relay.type.isRelay = true := by
      simp only [Bool.and_eq_true, Bool.or_eq_true, decide_eq_true_eq] at hfound
      rcases hfound.1.1 with htype | ⟨_, htype⟩ <;> rw [htype] <;> rfl
    have hpref := h.setPreferredRelay hmem hrelay
    dsimp only
    split
    · exact hpref.setCurrentEndpoint hmem
    · exact hpref

theorem Inv.switchP2p (h : Inv c) : Inv (c.switchP2p t) := by
  have hget : ∀ type e, c.getEndpointByType type = some e → Inv (c.setCurrentEndpoint e) :=
    fun _ _ hfind => h.setCurrentEndpoint (List.mem_of_find?_eq_some hfind)
  unfold Controller.switchP2p
  split
  · grind
  · split
    · exact h.setCurrentEndpoint h.valid.2.1
    · exact h

theorem Inv.receiveTimeout (h : Inv c) : Inv c.receiveTimeout := by
  unfold Controller.receiveTimeout
  split
  · exact h
  · exact h.backToRelay

theorem Inv.switchEndpoints (h : Inv c) :
    Inv (c.switchEndpoints t) := by
  unfold Controller.switchEndpoints
  split
  · have hpings : Inv (c.sendPings t) := h.putAll mem_of_filter_map_some
    exact hpings.switchRelay.switchP2p
  · exact h

theorem Inv.checkUdp (h : Inv c) : Inv (c.checkUdp t) := by
  unfold Controller.checkUdp
  split
  · have hflag : SameRefs c { c with useTCP := true } := ⟨rfl, rfl, rfl, rfl, rfl, rfl⟩
    exact hflag.inv h
  · exact h

theorem Inv.tick (h : Inv c) : Inv (c.tick t) := by
  have hchecked : Inv (((c.addTcpRelays.sendDue t).switchEndpoints t).checkUdp t) :=
    h.addTcpRelays.sendDue.switchEndpoints.checkUdp
  unfold Controller.tick
  split
  · exact hchecked.receiveTimeout
  · exact hchecked

/-! ## The network changes -/

theorem backToUdp_frame (c : Controller) (e : Endpoint) :
    (c.backToUdp e).endpoints = c.endpoints ∧ (c.backToUdp e).nextId = c.nextId ∧
      (c.backToUdp e).sendQueue = c.sendQueue ∧
      (c.backToUdp e).peerPreferredRelay = c.peerPreferredRelay := by
  unfold Controller.backToUdp
  split
  · dsimp only
    split <;> exact ⟨rfl, rfl, rfl, rfl⟩
  · exact ⟨rfl, rfl, rfl, rfl⟩

theorem networkLoop_frame (rest : List Endpoint) :
    ∀ c : Controller,
      (Controller.networkLoop rest c).endpoints =
        c.endpoints ++ rest.filter (·.type ≠ .udpP2pLan) ∧
      (Controller.networkLoop rest c).nextId = c.nextId ∧
      (Controller.networkLoop rest c).sendQueue = c.sendQueue ∧
      (Controller.networkLoop rest c).peerPreferredRelay = c.peerPreferredRelay := by
  induction rest with
  | nil => intro c; simp [Controller.networkLoop]
  | cons e rest ih =>
    intro c
    obtain ⟨he, hn, hq, hp⟩ := backToUdp_frame c e
    unfold Controller.networkLoop
    split
    case isTrue hlan =>
      grind
    case isFalse hlan =>
      grind

/-- The loop replaces the preferred relay: it is a TCP relay, and TCP is in use. -/
def Controller.LeavesTcp (c : Controller) : Prop :=
  c.useTCP = true ∧ c.preferredRelay.type = .tcpRelay

theorem backToUdp_of_not_leavesTcp (h : ¬c.LeavesTcp) :
    ¬(c.backToUdp e).LeavesTcp ∧ (c.backToUdp e).currentEndpoint = c.currentEndpoint ∧
      (c.backToUdp e).preferredRelay = c.preferredRelay := by
  unfold Controller.backToUdp
  split
  case isTrue hudp =>
    dsimp only
    split
    case isTrue htcp => exact absurd ⟨hudp.2, htcp⟩ h
    case isFalse =>
      refine ⟨?_, rfl, rfl⟩
      rintro ⟨huse, _⟩
      cases huse
  case isFalse => exact ⟨h, rfl, rfl⟩

theorem networkLoop_of_not_leavesTcp (rest : List Endpoint) :
    ∀ c : Controller, ¬c.LeavesTcp →
      (Controller.networkLoop rest c).currentEndpoint = c.currentEndpoint ∧
      (Controller.networkLoop rest c).preferredRelay = c.preferredRelay := by
  induction rest with
  | nil => intro c _; exact ⟨rfl, rfl⟩
  | cons e rest ih =>
    intro c h
    obtain ⟨hl, hc, hp⟩ := backToUdp_of_not_leavesTcp (e := e) h
    unfold Controller.networkLoop
    split
    · obtain ⟨ihc, ihp⟩ := ih _ hl
      exact ⟨ihc.trans hc, ihp.trans hp⟩
    · obtain ⟨ihc, ihp⟩ :=
        ih { c.backToUdp e with endpoints := (c.backToUdp e).endpoints ++ [e] } hl
      exact ⟨ihc.trans hc, ihp.trans hp⟩

/-- The first UDP relay of the vector becomes the preferred and the current one. -/
theorem networkLoop_of_leavesTcp (rest : List Endpoint) :
    ∀ c : Controller, c.LeavesTcp → (∃ e ∈ rest, e.type = .udpRelay) →
      ∃ e ∈ rest, e.type = .udpRelay ∧
        (Controller.networkLoop rest c).currentEndpoint = e ∧
        (Controller.networkLoop rest c).preferredRelay = e := by
  induction rest with
  | nil => rintro c _ ⟨e, he, _⟩; cases he
  | cons e rest ih =>
    rintro c hleaves ⟨e', he', hudp'⟩
    by_cases hudp : e.type = .udpRelay
    · have hback : c.backToUdp e =
          ({ c with useTCP := false }.setPreferredRelay e).setCurrentEndpoint e := by
        unfold Controller.backToUdp
        rw [if_pos ⟨hudp, hleaves.1⟩]
        rw [if_pos hleaves.2]
      have hlan : e.type ≠ .udpP2pLan := by rw [hudp]; decide
      refine ⟨e, List.mem_cons_self, hudp, ?_⟩
      unfold Controller.networkLoop
      dsimp only
      rw [hback, if_neg hlan]
      refine networkLoop_of_not_leavesTcp rest _ ?_
      rintro ⟨huse, _⟩
      cases huse
    · have hback : c.backToUdp e = c := by
        unfold Controller.backToUdp
        exact if_neg fun h => hudp h.1
      have hrest : ∃ e ∈ rest, e.type = .udpRelay := by
        grind
      unfold Controller.networkLoop
      dsimp only
      rw [hback]
      split
      · obtain ⟨r, hr, hfound⟩ := ih c hleaves hrest
        exact ⟨r, List.mem_cons_of_mem _ hr, hfound⟩
      · obtain ⟨r, hr, hfound⟩ :=
          ih { c with endpoints := c.endpoints ++ [e] } hleaves hrest
        exact ⟨r, List.mem_cons_of_mem _ hr, hfound⟩

theorem networkLoop_of_no_udpRelay (rest : List Endpoint) (h : ∀ e ∈ rest, e.type ≠ .udpRelay) :
    ∀ c : Controller,
      (Controller.networkLoop rest c).currentEndpoint = c.currentEndpoint ∧
      (Controller.networkLoop rest c).preferredRelay = c.preferredRelay := by
  induction rest with
  | nil => intro c; exact ⟨rfl, rfl⟩
  | cons e rest ih =>
    intro c
    have hback : c.backToUdp e = c := by
      unfold Controller.backToUdp
      exact if_neg fun hudp => h e (.head _) hudp.1
    have ih' := ih fun e' he' => h e' (.tail _ he')
    unfold Controller.networkLoop
    rw [hback]
    split
    · exact ih' c
    · exact ih' { c with endpoints := c.endpoints ++ [e] }

theorem eq_tcpRelay (h : type.isRelay = true) (hne : type ≠ .udpRelay) :
    type = .tcpRelay := by
  cases type with
  | udpP2pInet => cases h
  | udpP2pLan => cases h
  | udpRelay => exact absurd rfl hne
  | tcpRelay => rfl

/-- `SetNetworkType` goes to a UDP relay if there is one to go to. -/
theorem leaveNetwork_refs (h : Inv c) (hcur : c.currentEndpoint.type ≠ .udpRelay) :
    (c.HasUdpRelay ∧ c.leaveNetwork.currentEndpoint ∈ c.endpoints ∧
      c.leaveNetwork.currentEndpoint.type = .udpRelay ∧
      c.leaveNetwork.preferredRelay ∈ c.endpoints ∧
      c.leaveNetwork.preferredRelay.type.isRelay = true) ∨
    (¬c.HasUdpRelay ∧ c.leaveNetwork.currentEndpoint = c.currentEndpoint ∧
      c.leaveNetwork.preferredRelay = c.preferredRelay) := by
  unfold Controller.leaveNetwork Controller.HasUdpRelay
  rw [if_neg hcur]
  dsimp only
  by_cases hudp : c.preferredRelay.type = .udpRelay
  · rw [if_pos hudp]
    have hnot : ¬({ c.setCurrentEndpoint c.preferredRelay with endpoints := [] }).LeavesTcp := by
      rintro ⟨_, htcp⟩
      rw [show c.preferredRelay.type = .tcpRelay from htcp] at hudp
      cases hudp
    obtain ⟨hc, hp⟩ := networkLoop_of_not_leavesTcp c.endpoints _ hnot
    refine .inl ⟨.inl hudp, ?_⟩
    show (Controller.networkLoop c.endpoints _).currentEndpoint ∈ _ ∧
      (Controller.networkLoop c.endpoints _).currentEndpoint.type = _ ∧
      (Controller.networkLoop c.endpoints _).preferredRelay ∈ _ ∧
      (Controller.networkLoop c.endpoints _).preferredRelay.type.isRelay = true
    rw [hc, hp]
    exact ⟨h.valid.2.1, hudp, h.valid.2.1, h.preferred_relay⟩
  · rw [if_neg hudp]
    have htcp := eq_tcpRelay h.preferred_relay hudp
    by_cases hback : c.useTCP = true ∧ ∃ e ∈ c.endpoints, e.type = .udpRelay
    · obtain ⟨e, he, hetype, hc, hp⟩ := networkLoop_of_leavesTcp c.endpoints
        { c with endpoints := [] } ⟨hback.1, htcp⟩ hback.2
      rw [hc, hp]
      exact .inl ⟨.inr hback, he, hetype, he, by rw [hetype]; rfl⟩
    · refine .inr ⟨fun hor => hor.elim hudp hback, ?_⟩
      by_cases huse : c.useTCP = true
      · refine networkLoop_of_no_udpRelay c.endpoints ?_ { c with endpoints := [] }
        intro e he hetype
        exact hback ⟨huse, e, he, hetype⟩
      · exact networkLoop_of_not_leavesTcp c.endpoints { c with endpoints := [] }
          (fun hl => huse hl.1)

theorem leaveNetwork_frame (hcur : c.currentEndpoint.type ≠ .udpRelay) :
    c.leaveNetwork.endpoints = c.endpoints.filter (·.type ≠ .udpP2pLan) ∧
      c.leaveNetwork.nextId = c.nextId ∧ c.leaveNetwork.sendQueue = c.sendQueue ∧
      c.leaveNetwork.peerPreferredRelay = c.peerPreferredRelay := by
  unfold Controller.leaveNetwork
  rw [if_neg hcur]
  split <;> exact networkLoop_frame c.endpoints _

theorem mem_leaveNetwork (hcur : c.currentEndpoint.type ≠ .udpRelay) (e : Endpoint)
    : e ∈ c.leaveNetwork.endpoints ↔ e ∈ c.endpoints ∧ e.type ≠ .udpP2pLan := by
  rw [(leaveNetwork_frame hcur).1]
  simp

/-- The references are valid after a change of the network exactly when the LAN
endpoint was not referred to, or only by a `currentEndpoint` that is replaced. -/
theorem leaveNetwork_valid_iff (h : Inv c) (hcur : c.currentEndpoint.type ≠ .udpRelay) :
    c.leaveNetwork.Valid ↔
      (c.currentEndpoint.type = .udpP2pLan → c.HasUdpRelay) ∧ c.NoneWaits .udpP2pLan := by
  obtain ⟨hcmem, hpmem, hpeer, hqueue⟩ := h.valid
  obtain ⟨_, _, hq, hp⟩ := leaveNetwork_frame hcur
  have hmem := mem_leaveNetwork hcur
  have hnotlan : ∀ e : Endpoint, e.type.isRelay = true → e.type ≠ .udpP2pLan :=
    fun e he => ne_of_isRelay he rfl
  unfold Controller.Valid
  rw [hq, hp]
  simp only [hmem]
  constructor
  · rintro ⟨hc, _, _, hw⟩
    refine ⟨?_, fun e he => (hw e he).2⟩
    intro hlan
    by_contra hno
    rcases leaveNetwork_refs h hcur with ⟨hhas, _⟩ | ⟨_, hsame, _⟩
    · exact hno hhas
    · rw [hsame] at hc
      exact hc.2 hlan
  · rintro ⟨hlan, hnone⟩
    refine ⟨?_, ?_, fun e he => ⟨hpeer e he, hnotlan e (h.peer_relay e he)⟩,
      fun e he => ⟨hqueue e he, hnone e he⟩⟩
    · rcases leaveNetwork_refs h hcur with ⟨_, hc, hudp, _⟩ | ⟨hno, hsame, _⟩
      · exact ⟨hc, by rw [hudp]; decide⟩
      · rw [hsame]
        exact ⟨hcmem, fun hl => hno (hlan hl)⟩
    · rcases leaveNetwork_refs h hcur with ⟨_, _, _, hp', hrelay⟩ | ⟨_, _, hsame⟩
      · exact ⟨hp', hnotlan _ hrelay⟩
      · rw [hsame]
        exact ⟨hpmem, hnotlan _ h.preferred_relay⟩

/-- All that a valid vector of references needs besides survives too. -/
theorem inv_leaveNetwork (h : Inv c) (hcur : c.currentEndpoint.type ≠ .udpRelay)
    (hvalid : c.leaveNetwork.Valid) :
    Inv c.leaveNetwork := by
  obtain ⟨he, hn, _, hp⟩ := leaveNetwork_frame hcur
  have hmem := mem_leaveNetwork hcur
  refine ⟨⟨?_, ?_, ?_⟩, hvalid, ?_, ?_⟩
  · rw [he]
    exact h.wf.nodup.filter _
  · intro e hin
    rw [hn]
    exact h.wf.fresh e ((hmem e).mp hin).1
  · intro e hin e' hin'
    exact h.wf.unique e ((hmem e).mp hin).1 e' ((hmem e').mp hin').1
  · rcases leaveNetwork_refs h hcur with ⟨_, _, _, _, hrelay⟩ | ⟨_, _, hsame⟩
    · exact hrelay
    · rw [hsame]
      exact h.preferred_relay
  · rw [hp]
    exact h.peer_relay

theorem sameRefs_setNetworkType (c : Controller) (proxyFailed : Bool) :
    SameRefs c.leaveNetwork (c.setNetworkType proxyFailed) := by
  unfold Controller.setNetworkType
  split
  · have hsame := sameRefs_requestIfAllowed
      { c.leaveNetwork with useTCP := true, useUDP := false }
    exact ⟨hsame.endpoints, hsame.nextId, hsame.currentEndpoint, hsame.preferredRelay,
      hsame.peerPreferredRelay, hsame.sendQueue⟩
  · exact sameRefs_requestIfAllowed c.leaveNetwork

theorem leaveNetwork_of_udpRelay (h : c.currentEndpoint.type = .udpRelay) :
    c.leaveNetwork = c := by
  unfold Controller.leaveNetwork
  exact if_pos h

/-! ## Every reference is valid -/

/-- An endpoint that a packet waits for is deleted, and the new one is another one. -/
theorem not_mem_of_deleted (h : Wf c) (he : e.id < c.nextId) (hp2p : type.isRelay = false)
    (htype : e.type = type) (new : EndpointType)
    : e ∉ ((c.deleteFirst type).addEndpoint new).endpoints := by
  intro hmem
  rcases List.mem_append.mp hmem with hold | hnew
  · exact ((mem_deleteFirst h hp2p e).mp hold).2 htype
  · rw [List.mem_singleton.mp hnew, nextId_deleteFirst] at he
    exact Nat.lt_irrefl _ he

theorem reflectorPeerInfo_valid_iff (h : Inv c) :
    ((c.reflectorPeerInfo src).Valid ↔
      (src.type.isRelay = true → c.waitingForRelayPeerInfo = true →
        c.NoneWaits .udpP2pInet ∧ c.NoneWaits .udpP2pLan)) ∧
      ((c.reflectorPeerInfo src).Valid → Inv (c.reflectorPeerInfo src)) := by
  unfold Controller.reflectorPeerInfo
  by_cases hwait : (src.type.isRelay && c.waitingForRelayPeerInfo) = true
  · rw [if_pos hwait]
    rw [Bool.and_eq_true] at hwait
    have hflag : SameRefs
        (((c.deleteFirst .udpP2pInet).deleteFirst .udpP2pLan).addEndpoint .udpP2pInet)
        { ((c.deleteFirst .udpP2pInet).deleteFirst .udpP2pLan).addEndpoint .udpP2pInet with
          waitingForRelayPeerInfo := false } := ⟨rfl, rfl, rfl, rfl, rfl, rfl⟩
    have hwf := h.wf.deleteFirst .udpP2pInet
    have hnone : (((c.deleteFirst .udpP2pInet).deleteFirst .udpP2pLan).addEndpoint
        .udpP2pInet).Valid → c.NoneWaits .udpP2pInet ∧ c.NoneWaits .udpP2pLan := by
      rintro ⟨_, _, _, hqueue⟩
      have hin : ∀ e, some e ∈ c.sendQueue → e ∈ (((c.deleteFirst .udpP2pInet).deleteFirst
          .udpP2pLan).addEndpoint .udpP2pInet).endpoints := by
        intro e he
        refine hqueue e ?_
        show some e ∈ ((c.deleteFirst .udpP2pInet).deleteFirst .udpP2pLan).sendQueue
        rw [sendQueue_deleteFirst, sendQueue_deleteFirst]
        exact he
      have hold : ∀ e, some e ∈ c.sendQueue → e.id < c.nextId := fun e he =>
        h.wf.fresh e (h.valid.2.2.2 e he)
      constructor
      · intro e he htype
        rcases List.mem_append.mp (hin e he) with hmem | hnew
        · have hmem' := ((mem_deleteFirst hwf rfl e).mp hmem).1
          exact ((mem_deleteFirst h.wf rfl e).mp hmem').2 htype
        · have hlt := hold e he
          rw [List.mem_singleton.mp hnew, nextId_deleteFirst, nextId_deleteFirst] at hlt
          exact Nat.lt_irrefl _ hlt
      · intro e he htype
        refine not_mem_of_deleted hwf ?_ rfl htype .udpP2pInet (hin e he)
        rw [nextId_deleteFirst]
        exact hold e he
    have hinv : c.NoneWaits .udpP2pInet ∧ c.NoneWaits .udpP2pLan →
        Inv (((c.deleteFirst .udpP2pInet).deleteFirst .udpP2pLan).addEndpoint .udpP2pInet) := by
      rintro ⟨hinet, hlan⟩
      have hlan' : (c.deleteFirst .udpP2pInet).NoneWaits .udpP2pLan := by
        unfold Controller.NoneWaits
        rw [sendQueue_deleteFirst]
        exact hlan
      refine ((h.deleteFirst rfl hinet).deleteFirst rfl hlan').addEndpoint ?_
      intro _ e he
      have hmem := ((mem_deleteFirst hwf rfl e).mp he).1
      exact ((mem_deleteFirst h.wf rfl e).mp hmem).2
    rw [hflag.valid_iff]
    refine ⟨⟨fun hv _ _ => hnone hv, fun hn => (hinv (hn hwait.1 hwait.2)).valid⟩, ?_⟩
    intro hv
    exact hflag.inv (hinv (hnone hv))
  · rw [if_neg hwait]
    refine ⟨⟨fun _ hrelay hw => ?_, fun _ => h.valid⟩, fun _ => h⟩
    exact absurd (by rw [hrelay, hw]; rfl) hwait

/-- A packet loses a reference exactly when it replaces a LAN endpoint that a packet
waits for. -/
theorem receive_valid_iff {p : Incoming} (h : Inv c) (hsrc : src ∈ c.endpoints) :
    (c.receive src p).Valid ↔
      (p.type = .lanEndpoint → p.complete = true → c.NoneWaits .udpP2pLan) := by
  constructor
  · intro hv htype hcomplete e he hlan
    obtain ⟨hends, hnext, hqueue⟩ := followSource_frame c src p
    have hf := h.followSource (p := p) hsrc
    have heq : c.receive src p =
        ((c.followSource src p).deleteFirst .udpP2pLan).addEndpoint .udpP2pLan := by
      unfold Controller.receive
      simp only [htype, hcomplete, if_true]
    rw [heq] at hv
    have hlt : e.id < (c.followSource src p).nextId := by
      rw [hnext]
      exact h.wf.fresh e (h.valid.2.2.2 e he)
    refine not_mem_of_deleted hf.wf hlt rfl hlan .udpP2pLan (hv.2.2.2 e ?_)
    show some e ∈ ((c.followSource src p).deleteFirst .udpP2pLan).sendQueue
    rw [sendQueue_deleteFirst, hqueue]
    exact he
  · intro hlan
    exact (h.receive hsrc hlan).valid

theorem Inv.debugCtl {allow : Bool} (h : Inv c) : Inv (c.debugCtl allow) := by
  have hflag : SameRefs c { c with allowP2p := allow } := ⟨rfl, rfl, rfl, rfl, rfl, rfl⟩
  unfold Controller.debugCtl
  dsimp only
  split
  · exact (hflag.inv h).setCurrentEndpoint h.valid.2.1
  · exact (sameRefs_requestIfAllowed _).inv (hflag.inv h)

theorem Inv.sent (h : Inv c) : Inv { c with sendQueue := c.sendQueue.tail } := by
  obtain ⟨hcur, hpref, hpeer, hqueue⟩ := h.valid
  exact ⟨⟨h.wf.nodup, h.wf.fresh, h.wf.unique⟩,
    ⟨hcur, hpref, hpeer, fun e he => hqueue e (List.mem_of_mem_tail he)⟩,
    h.preferred_relay, h.peer_relay⟩

/-- A step keeps the references valid exactly when what it deletes is not used. -/
theorem staysValid_iff {e : Event} (h : Inv c) :
    (StaysValid c e ↔ DeletesUnused c e) ∧ (DeletesUnused c e → Inv (step c e)) := by
  unfold StaysValid
  have htrue : ∀ {c' : Controller}, Inv c' → (c'.Valid ↔ True) ∧ (True → Inv c') :=
    fun h' => ⟨iff_true_intro h'.valid, fun _ => h'⟩
  cases e with
  | reflectorPeerInfo k =>
    simp only [step, DeletesUnused]
    cases hk : c.endpoints[k]? with
    | none => simpa using ⟨h.valid, h⟩
    | some src =>
      obtain ⟨hiff, hinv⟩ := @reflectorPeerInfo_valid_iff c src h
      simp only [Option.mem_some_iff, forall_eq']
      exact ⟨hiff, fun hg => hinv (hiff.mpr hg)⟩
  | packet k p =>
    simp only [step, DeletesUnused]
    cases hk : c.endpoints[k]? with
    | none =>
      have hlen : ¬k < c.endpoints.length := by
        rw [List.getElem?_eq_none_iff] at hk
        omega
      simpa [hlen] using ⟨h.valid, h⟩
    | some src =>
      have hlen : k < c.endpoints.length := by
        obtain ⟨hlt, _⟩ := List.getElem?_eq_some_iff.mp hk
        exact hlt
      have hsrc := List.mem_of_getElem? hk
      simp only [hlen, true_implies]
      exact ⟨receive_valid_iff h hsrc, fun hg => h.receive hsrc hg⟩
  | tick t => exact htrue h.tick
  | setNetworkType proxyFailed =>
    simp only [step, DeletesUnused]
    have hsame := sameRefs_setNetworkType c proxyFailed
    rw [hsame.valid_iff]
    by_cases hcur : c.currentEndpoint.type = .udpRelay
    · rw [leaveNetwork_of_udpRelay hcur] at hsame ⊢
      refine ⟨⟨fun _ hne => absurd hcur hne, fun _ => h.valid⟩, fun _ => hsame.inv h⟩
    · have hiff := leaveNetwork_valid_iff h hcur
      refine ⟨⟨fun hv _ => hiff.mp hv, fun hg => hiff.mpr (hg hcur)⟩, ?_⟩
      intro hg
      exact hsame.inv (inv_leaveNetwork h hcur (hiff.mpr (hg hcur)))
  | debugCtl allow => exact htrue h.debugCtl
  | put => exact htrue (h.put fun e he => nomatch he)
  | sendInit => exact htrue h.sendInit
  | sent => exact htrue h.sent

theorem inv_initial (first : Bool) (rest : List Bool) (allowP2p : Bool) :
    Inv (Controller.initial first rest allowP2p) := by
  have hrelay : ∀ tcp, (relayType tcp).isRelay = true := by
    intro tcp
    cases tcp <;> rfl
  have hadd : ∀ (rest : List Bool) (c : Controller), Inv c →
      Inv (rest.foldl (fun c tcp => c.addEndpoint (relayType tcp)) c) := by
    intro rest
    induction rest with
    | nil => intro c h; exact h
    | cons tcp rest ih =>
      intro c h
      refine ih _ (h.addEndpoint ?_)
      intro hp2p
      rw [hrelay tcp] at hp2p
      cases hp2p
  refine hadd rest _ ⟨⟨?_, ?_, ?_⟩, ⟨?_, ?_, ?_, ?_⟩, hrelay first, ?_⟩
  · exact List.nodup_singleton _
  · grind
  · intro e he e' he' _ _
    rw [List.mem_singleton.mp he, List.mem_singleton.mp he']
  · exact List.mem_singleton_self _
  · exact List.mem_singleton_self _
  · intro e he
    cases he
  · intro e he
    cases he
  · intro e he
    cases he

/-- The references are valid at the start, and they are valid in every state of a run
exactly when every step of it deletes only endpoints that are not used. -/
theorem references_valid (first : Bool) (rest : List Bool) (allowP2p : Bool) (es : List Event) :
    (Controller.initial first rest allowP2p).Valid ∧
      (Guarded step StaysValid (Controller.initial first rest allowP2p) es ↔
        Guarded step DeletesUnused (Controller.initial first rest allowP2p) es) := by
  have hinit := inv_initial first rest allowP2p
  refine ⟨hinit.valid, ?_⟩
  exact guarded_congr_within (h := fun _ _ => True)
    (fun _ _ hinv _ hg => (staysValid_iff hinv).2 hg) (fun _ _ hinv _ => (staysValid_iff hinv).1)
    es _ hinit (guarded_of_forall (fun _ _ => trivial) es _)

instance (c : Controller) : Decidable c.Valid :=
  decidable_of_iff
    (c.currentEndpoint ∈ c.endpoints ∧ c.preferredRelay ∈ c.endpoints ∧
      (∀ e ∈ c.peerPreferredRelay, e ∈ c.endpoints) ∧
      ∀ x ∈ c.sendQueue, ∀ e ∈ x, e ∈ c.endpoints) (by
    unfold Controller.Valid
    refine and_congr_right fun _ => and_congr_right fun _ => and_congr_right fun _ => ?_
    constructor
    · intro h e he
      exact h (some e) he e rfl
    · rintro h x hx e rfl
      exact h e hx)

/-- A ping waits for the Internet endpoint of the peer when the network changes and the
reflector is asked again. -/
def pingRun : List Event :=
  [.packet 0 { type := .initAck }, .reflectorPeerInfo 0, .tick { pinged := [1] },
   .setNetworkType false, .reflectorPeerInfo 0]

/-- The only relay is a TCP one, and the peer starts the call from its LAN address;
then the network changes. -/
def lanRun : List Event :=
  [.packet 0 { type := .lanEndpoint }, .packet 1 { type := .init }, .setNetworkType false]

/-- After the first run the packet in the queue has a deleted endpoint, and after the
second one `currentEndpoint` is deleted. -/
theorem queuedPing_dangles :
    (some ⟨1, .udpP2pInet⟩ ∈ (run step (Controller.initial false [] true) pingRun).sendQueue ∧
      ¬Guarded step StaysValid (Controller.initial false [] true) pingRun) ∧
    (run step (Controller.initial true [] true) lanRun).currentEndpoint = ⟨1, .udpP2pLan⟩ ∧
      ¬Guarded step StaysValid (Controller.initial true [] true) lanRun := by
  unfold pingRun lanRun
  simp only [Guarded, StaysValid]
  decide +kernel

end TelegramPub.Ports.VoipEndpoints
