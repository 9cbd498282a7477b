import TelegramPub.Ports.WaitingRequests

/-!
# In whose hands a payload is

A request that waits for a message id is in a transaction one of whose payloads
is still on its way: in an answer on the transport queue, in a block for the
connection, or in a completion on the manager queue.  The invariant `Resolving`
says this, keeps the account of the payloads, and says why no answer with
payloads is lost: its transport is the current one or has its `stop` block
behind the answer.

Almost everything the three queues do leaves the payloads alone.  What such a
piece of work may do is the relation `Goes`, and `Resolving.goes` is all the
invariant needs to know about it.
-/

namespace TelegramPub.Ports.PayloadCustody

open Verified.Bytes Ports.MessageTransaction Ports.RequestMessageService Ports.TransportQueues
open Ports.TransactionPayloads Ports.WaitingRequests
open Ports.PayloadCompletion (Sent)

variable {ρ : Type}

/-! ## Work that leaves the payloads alone -/

/-- The current transport and the connections of all transports exist. -/
structure Known (w : World ρ) : Prop where
  transport : ∀ T, w.transport = some T → T < w.transports.length
  connection : ∀ t ∈ w.transports, ∀ c, t.connection = some c → c < w.connections.length

/-- Blocks without payloads are put behind the queues; a transport that is given up
gets its `stop` block; no request starts to wait. -/
structure Goes (w w' : World ρ) : Prop where
  manager : ∃ blocks, w'.managerQueue = w.managerQueue ++ blocks ∧
    blocks.flatMap completionPayloads = []
  transport : ∃ blocks, w'.transportQueue = w.transportQueue ++ blocks ∧
    blocks.flatMap readyPayloads = [] ∧
    (w'.transport = w.transport ∨ ∀ T, w.transport = some T → blocks.any (isStopOf T) = true)
  tcp : ∃ blocks, w'.tcpQueue = w.tcpQueue ++ blocks ∧ blocks.flatMap sendPayloads = []
  service : Calms w.service w'.service
  known : Known w → Known w'
  transports : w.transports.length ≤ w'.transports.length
  connections : w.connections.length ≤ w'.connections.length

theorem Goes.trans {w w' w'' : World ρ} (h : Goes w w') (h' : Goes w' w'') : Goes w w'' := by
  obtain ⟨m, hm, hmPayloads⟩ := h.manager
  obtain ⟨m', hm', hmPayloads'⟩ := h'.manager
  obtain ⟨t, ht, htPayloads, hstop⟩ := h.transport
  obtain ⟨t', ht', htPayloads', hstop'⟩ := h'.transport
  obtain ⟨k, hk, hkPayloads⟩ := h.tcp
  obtain ⟨k', hk', hkPayloads'⟩ := h'.tcp
  constructor
  · refine ⟨m ++ m', by rw [hm', hm, List.append_assoc], ?_⟩
    rw [List.flatMap_append, hmPayloads, hmPayloads', List.append_nil]
  · refine ⟨t ++ t', by rw [ht', ht, List.append_assoc], ?_, ?_⟩
    · rw [List.flatMap_append, htPayloads, htPayloads', List.append_nil]
    · grind
  · refine ⟨k ++ k', by rw [hk', hk, List.append_assoc], ?_⟩
    rw [List.flatMap_append, hkPayloads, hkPayloads', List.append_nil]
  · exact h.service.trans h'.service
  · exact fun hknown => h'.known (h.known hknown)
  · exact h.transports.trans h'.transports
  · exact h.connections.trans h'.connections

/-- Nothing happens to queues, transports and connections. -/
theorem goes_of_same {w w' : World ρ} (hmanager : w'.managerQueue = w.managerQueue)
    (htransport : w'.transportQueue = w.transportQueue) (htcp : w'.tcpQueue = w.tcpQueue)
    (hcurrent : w'.transport = w.transport) (htransports : w'.transports = w.transports)
    (hconnections : w'.connections = w.connections) (hservice : Calms w.service w'.service) :
    Goes w w' where
  manager := ⟨[], by rw [hmanager, List.append_nil], rfl⟩
  transport := ⟨[], by rw [htransport, List.append_nil], rfl, .inl hcurrent⟩
  tcp := ⟨[], by rw [htcp, List.append_nil], rfl⟩
  service := hservice
  known := by
    intro hknown
    constructor
    · rw [hcurrent, htransports]
      exact hknown.transport
    · rw [htransports, hconnections]
      exact hknown.connection
  transports := by rw [htransports]
  connections := by rw [hconnections]

theorem Goes.refl (w : World ρ) : Goes w w :=
  goes_of_same rfl rfl rfl rfl rfl rfl (Calms.refl _)

variable {block : TransportBlock}

section Pieces

variable {w : World ρ}

theorem goes_toManager {block : ManagerBlock ρ} (hblock : completionPayloads block = []) :
    Goes w (w.toManager block) :=
  { Goes.refl w with
    manager := ⟨[block], rfl, by rw [List.flatMap_singleton, hblock]⟩
    known := fun hknown => ⟨hknown.transport, hknown.connection⟩ }

theorem goes_toTransport (hblock : readyPayloads block = []) :
    Goes w (w.toTransport block) :=
  { Goes.refl w with
    transport := ⟨[block], rfl, by rw [List.flatMap_singleton, hblock], .inl rfl⟩
    known := fun hknown => ⟨hknown.transport, hknown.connection⟩ }

theorem goes_toTcp {block : TcpBlock} (hblock : sendPayloads block = []) :
    Goes w (w.toTcp block) :=
  { Goes.refl w with
    tcp := ⟨[block], rfl, by rw [List.flatMap_singleton, hblock]⟩
    known := fun hknown => ⟨hknown.transport, hknown.connection⟩ }

theorem mem_modify {α : Type} {l : List α} {i : Nat} {f : α → α} {b : α}
    (hmem : b ∈ l.modify i f) : ∃ a ∈ l, b = a ∨ b = f a := by
  obtain ⟨j, hj⟩ := List.getElem?_of_mem hmem
  rw [List.getElem?_modify] at hj
  obtain ⟨a, ha, heq⟩ := Option.map_eq_some_iff.1 hj
  refine ⟨a, List.mem_of_getElem? ha, ?_⟩
  split at heq
  · exact .inr heq.symm
  · exact .inl heq.symm

theorem goes_updateTransport (T : Nat) {f : Transport → Transport}
    (hf : ∀ t c, (f t).connection = some c → t.connection = some c) :
    Goes w (w.updateTransport T f) :=
  { Goes.refl w with
    known := by
      intro hknown
      constructor
      · intro T' hT'
        show T' < (w.transports.modify T f).length
        rw [List.length_modify]
        exact hknown.transport T' hT'
      · intro t ht c hc
        obtain ⟨before, hbefore, heq | heq⟩ := mem_modify ht
        · exact hknown.connection before hbefore c (heq ▸ hc)
        · exact hknown.connection before hbefore c (hf before c (heq ▸ hc))
    transports := by
      show _ ≤ (w.transports.modify T f).length
      rw [List.length_modify] }

theorem goes_updateConnection (c : TransactionId) (f : Connection → Connection) :
    Goes w (w.updateConnection c f) :=
  { Goes.refl w with
    known := by
      intro hknown
      refine ⟨hknown.transport, ?_⟩
      intro t ht c' hc'
      show c' < (w.connections.modify c f).length
      rw [List.length_modify]
      exact hknown.connection t ht c' hc'
    connections := by
      show _ ≤ (w.connections.modify c f).length
      rw [List.length_modify] }

end Pieces

/-! ### The manager queue -/

theorem goes_requestTransportTransaction (w : World ρ) :
    Goes w (requestTransportTransaction w) := by
  unfold requestTransportTransaction
  split
  · exact Goes.refl w
  · refine Goes.trans ?_ (goes_toManager rfl)
    exact goes_of_same rfl rfl rfl rfl rfl rfl (Calms.refl _)

theorem goes_serve {w : World ρ} {result : Service ρ × List (Output ρ)}
    (hservice : Calms w.service result.1) : Goes w (serve w result) := by
  have hserved : Goes w { w with service := result.1 } :=
    goes_of_same rfl rfl rfl rfl rfl rfl hservice
  unfold serve
  split
  · exact hserved.trans (goes_requestTransportTransaction _)
  · exact hserved

theorem serve_transports (w : World ρ) (result : Service ρ × List (Output ρ)) :
    (serve w result).transports = w.transports := by
  unfold serve requestTransportTransaction
  dsimp only
  split
  · split <;> rfl
  · rfl

/-- The current transport is replaced: it gets its `stop` block. -/
theorem goes_setTransport {w : World ρ} {transport : Option Nat}
    (hnew : ∀ T, transport = some T → T < w.transports.length) :
    Goes w (setTransport w transport) := by
  unfold setTransport
  dsimp only
  have htransports := serve_transports w (allTransactionsMayHaveFailed w.service)
  refine Goes.trans (goes_serve (calms_allTransactionsMayHaveFailed w.service)) ?_
  generalize serve w (allTransactionsMayHaveFailed w.service) = served at htransports
  have hknown : Known served → Known { served with transport } := by
    intro hknown
    refine ⟨?_, hknown.connection⟩
    intro T hT
    exact htransports ▸ hnew T hT
  split
  · rename_i hnone
    exact { Goes.refl served with
      transport := ⟨[], (List.append_nil _).symm, rfl, .inr fun T hT => by
        rw [hnone] at hT
        cases hT⟩
      known := hknown }
  · rename_i previousTransport hprevious
    refine { Goes.refl served with transport := ?_, known := ?_ }
    · refine ⟨[.activeTransactionIds previousTransport, .stop previousTransport], ?_, rfl, ?_⟩
      · exact List.append_assoc _ _ _
      · right
        intro T hT
        rw [hprevious] at hT
        simp [isStopOf, Option.some.inj hT]
    · intro hold
      exact ⟨(hknown hold).transport, (hknown hold).connection⟩

theorem goes_dropTransport (w : World ρ) : Goes w (dropTransport w) := by
  unfold dropTransport
  split
  · exact Goes.refl w
  · rename_i transport _
    refine Goes.trans ?_ (goes_setTransport fun T hT => by cases hT)
    refine Goes.trans ?_ (goes_toTransport rfl)
    exact goes_updateTransport transport fun _ _ hc => hc

theorem goes_resetTransport (w : World ρ) (createsTransport : Bool) :
    Goes w (resetTransport w createsTransport) := by
  unfold resetTransport
  refine (goes_dropTransport w).trans ?_
  generalize dropTransport w = dropped
  split
  · have hadded : Goes dropped { dropped with transports := dropped.transports ++ [{}] } :=
      { Goes.refl dropped with
        known := by
          intro hknown
          constructor
          · intro T hT
            have hlt := hknown.transport T hT
            show T < (dropped.transports ++ [({} : Transport)]).length
            rw [List.length_append]
            omega
          · intro t ht c hc
            rcases List.mem_append.1 ht with hold | hnew
            · exact hknown.connection t hold c hc
            · rw [List.mem_singleton.1 hnew] at hc
              cases hc
        transports := by
          show _ ≤ (dropped.transports ++ [({} : Transport)]).length
          rw [List.length_append]
          exact Nat.le_add_right _ _ }
    refine hadded.trans (goes_setTransport ?_)
    intro T hT
    rw [← Option.some.inj hT]
    show _ < (dropped.transports ++ [({} : Transport)]).length
    rw [List.length_append]
    exact Nat.lt_succ_self _
  · exact Goes.refl dropped

theorem goes_transactionPass (w : World ρ) (createsTransport : Bool) :
    Goes w (transactionPass w createsTransport) := by
  unfold transactionPass
  dsimp only
  have hpass : Goes w { w with willRequestTransactionOnNextQueuePass := false } :=
    goes_of_same rfl rfl rfl rfl rfl rfl (Calms.refl _)
  split
  · exact hpass
  · have hreset : Goes w
        (if w.transport = none then
          resetTransport { w with willRequestTransactionOnNextQueuePass := false } createsTransport
        else { w with willRequestTransactionOnNextQueuePass := false }) := by
      split
      · exact hpass.trans (goes_resetTransport _ createsTransport)
      · exact hpass
    split
    · exact hreset
    · exact hreset.trans (goes_toTransport rfl)

theorem goes_resetSessionInfo (w : World ρ) (createsTransport : Bool) :
    Goes w (resetSessionInfo w createsTransport) := by
  unfold resetSessionInfo
  refine Goes.trans ?_ (goes_requestTransportTransaction _)
  refine Goes.trans ?_ (goes_resetTransport _ createsTransport)
  have hinfo : Goes w { w with info := {} } :=
    goes_of_same rfl rfl rfl rfl rfl rfl (Calms.refl _)
  exact hinfo.trans (goes_serve (calms_didChangeSession w.service))

theorem goes_requestSecureTransportReset (w : World ρ) :
    Goes w (requestSecureTransportReset w) := by
  unfold requestSecureTransportReset
  split
  · exact Goes.refl w
  · exact goes_toTransport rfl

theorem goes_runCallback (decompressGZip : Data → Option Data) (w : World ρ)
    (callback : Callback ρ) : Goes w (runCallback decompressGZip w callback) := by
  have hcalms := calms_respond decompressGZip w.service callback
  unfold runCallback
  generalize RequestLifecycle.respond decompressGZip { service := w.service } callback.1 =
    answer at hcalms
  dsimp only
  split
  · have hreset := goes_requestSecureTransportReset w
    refine hreset.trans (goes_serve ?_)
    have hservice : (requestSecureTransportReset w).service = w.service := by
      unfold requestSecureTransportReset
      split <;> rfl
    rw [hservice]
    exact hcalms
  · exact goes_serve hcalms

theorem goes_runCall (w : World ρ) (around : Surroundings) (call : Call ρ) :
    Goes w (runCall w around call) := by
  cases call with
  | addRequest request => exact goes_serve (calms_addRequest request.2)
  | messageDeliveryConfirmed messageIds => exact goes_serve (calms_confirmed messageIds w.service)
  | requestTransportTransaction => exact goes_requestTransportTransaction w
  | requestSecureTransportReset =>
    exact goes_requestSecureTransportReset w
  | resetTransport => exact goes_resetTransport w around.createsTransport
  | pause =>
    show Goes w (if w.paused then w else setTransport { w with paused := true } none)
    split
    · exact Goes.refl w
    · have hpaused : Goes w { w with paused := true } :=
        goes_of_same rfl rfl rfl rfl rfl rfl (Calms.refl _)
      exact hpaused.trans (goes_setTransport fun T hT => by cases hT)
  | resume =>
    show Goes w (if w.paused then
      TransportQueues.requestTransportTransaction
        (TransportQueues.resetTransport { w with paused := false } around.createsTransport)
      else w)
    split
    · have hresumed : Goes w { w with paused := false } :=
        goes_of_same rfl rfl rfl rfl rfl rfl (Calms.refl _)
      exact (hresumed.trans (goes_resetTransport _ _)).trans
        (goes_requestTransportTransaction _)
    · exact Goes.refl w

/-! ### The transport queue -/

theorem goes_startIfNeeded {w : World ρ} {T : Nat} (t : Transport) :
    Goes w (startIfNeeded w T t) := by
  unfold startIfNeeded
  split
  · exact Goes.refl w
  · dsimp only
    refine Goes.trans ?_ (goes_toTcp rfl)
    refine { Goes.refl w with known := ?_, transports := ?_, connections := ?_ }
    · intro hknown
      constructor
      · intro T' hT'
        show T' < (w.transports.modify T _).length
        rw [List.length_modify]
        exact hknown.transport T' hT'
      · intro t' ht' c hc
        show c < (w.connections ++ [_]).length
        rw [List.length_append, List.length_singleton]
        obtain ⟨before, hbefore, heq | heq⟩ := mem_modify ht'
        · exact Nat.lt_succ_of_lt (hknown.connection before hbefore c (heq ▸ hc))
        · rw [heq] at hc
          rw [← Option.some.inj hc]
          exact Nat.lt_succ_self _
    · show _ ≤ (w.transports.modify T _).length
      rw [List.length_modify]
    · show _ ≤ (w.connections ++ [_]).length
      rw [List.length_append]
      exact Nat.le_add_right _ _

theorem goes_requestsReconnection (w : World ρ) (T : Nat) : Goes w (requestsReconnection w T) := by
  unfold requestsReconnection
  split
  · exact Goes.refl w
  · split
    · exact Goes.refl w
    · exact goes_startIfNeeded _

theorem goes_requestTransactionFromDelegate (w : World ρ) (T : Nat) (lockExpired : Bool) :
    Goes w (requestTransactionFromDelegate w T lockExpired) := by
  unfold requestTransactionFromDelegate
  split
  · exact Goes.refl w
  · split
    · exact goes_updateTransport T fun _ _ hc => hc
    · split
      · refine Goes.trans ?_ (goes_toManager rfl)
        exact goes_updateTransport T fun _ _ hc => hc
      · exact goes_updateTransport T fun _ _ hc => hc

theorem goes_noticeFailure (w : World ρ) (delegate : Bool) (c : TransactionId) :
    Goes w (noticeFailure w delegate c) := by
  unfold noticeFailure
  split
  · exact goes_toManager rfl
  · exact Goes.refl w

theorem goes_stopTransport (w : World ρ) (T : Nat) (t : Transport) :
    Goes w (stopTransport w T t) := by
  unfold stopTransport
  split
  · exact goes_updateTransport T fun _ _ hc => by cases hc
  · rename_i c _
    refine Goes.trans ?_ (goes_toTcp rfl)
    refine Goes.trans ?_ (goes_toTcp rfl)
    refine (goes_noticeFailure w t.delegate c).trans ?_
    exact goes_updateTransport T fun _ _ hc => by cases hc

theorem goes_connectionClosed (w : World ρ) (T : Nat) (t : Transport) (c : TransactionId)
    (reconnectsAtOnce : Bool) : Goes w (connectionClosed w T t c reconnectsAtOnce) := by
  unfold connectionClosed
  split
  · dsimp only
    have hclosed : Goes w ((w.updateTransport T ({ · with
        connectionConnected := false, connection := none })).toTcp (.clearDelegate c)) := by
      refine Goes.trans ?_ (goes_toTcp rfl)
      exact goes_updateTransport T fun _ _ hc => by cases hc
    refine Goes.trans ?_ (goes_noticeFailure _ _ _)
    refine Goes.trans ?_ (goes_updateTransport T fun _ _ hc => hc)
    split
    · exact hclosed.trans (goes_requestsReconnection _ T)
    · exact hclosed
  · exact Goes.refl w

/-- A block of the transport queue other than the answer of `MTProto`. -/
theorem goes_runTransportBlock {w : World ρ} (timing : Timing)
    (T : Nat) (t : Transport) (hblock : ∀ transactionList, block ≠ .transactionReady block.transport
      transactionList) : Goes w (runTransportBlock w timing block T t) := by
  cases block with
  | activeTransactionIds T' =>
    unfold runTransportBlock
    dsimp only
    split
    · exact goes_toManager rfl
    · exact Goes.refl w
  | stop T' => exact goes_stopTransport w T t
  | reset T' =>
    unfold runTransportBlock
    dsimp only
    split
    · exact goes_toTcp rfl
    · exact Goes.refl w
  | setDelegateNeedsTransaction T' =>
    unfold runTransportBlock
    dsimp only
    split
    · exact Goes.refl w
    · refine Goes.trans ?_ (goes_toTransport rfl)
      exact goes_updateTransport T fun _ _ hc => hc
  | transactionPass T' =>
    unfold runTransportBlock
    dsimp only
    have hpass : Goes w (w.updateTransport T ({ · with
        willRequestTransactionOnNextQueuePass := false })) :=
      goes_updateTransport T fun _ _ hc => hc
    split
    · split
      · exact hpass
      · exact hpass.trans (goes_requestsReconnection _ T)
    · split
      · exact hpass.trans (goes_requestTransactionFromDelegate _ T _)
      · exact hpass
  | transactionReady T' transactionList => exact absurd rfl (hblock transactionList)
  | tcpConnectionOpened T' c =>
    unfold runTransportBlock
    dsimp only
    split
    · refine Goes.trans ?_ (goes_requestTransactionFromDelegate _ T _)
      exact goes_updateTransport T fun _ _ hc => hc
    · exact Goes.refl w
  | tcpConnectionClosed T' c => exact goes_connectionClosed w T t c _
  | reconnectionTimer T' => exact goes_requestsReconnection w T

/-! ### The connection queue -/

theorem goes_closeAndNotify (w : World ρ) (c : TransactionId) (k : Connection) :
    Goes w (closeAndNotify w c k) := by
  unfold closeAndNotify
  split
  · exact Goes.refl w
  · dsimp only
    have hclosed : Goes w (w.updateConnection c ({ · with closed := true, socket := false })) :=
      goes_updateConnection c _
    split
    · exact hclosed.trans (goes_toTransport rfl)
    · exact hclosed

theorem goes_runTcpBlock {w : World ρ} {block : TcpBlock} (connects : Bool) (c : TransactionId)
    (k : Connection) (hblock : sendPayloads block = []) :
    Goes w (runTcpBlock w connects block c k) := by
  cases block with
  | clearDelegate c' => exact goes_updateConnection c _
  | start c' =>
    unfold runTcpBlock
    dsimp only
    split
    · exact Goes.refl w
    · have hsocket : Goes w (w.updateConnection c ({ · with socket := true })) :=
        goes_updateConnection c _
      split
      · exact hsocket
      · exact hsocket.trans (goes_closeAndNotify _ c _)
  | stop c' => exact goes_closeAndNotify w c k
  | sendDatas c' sent payload => cases hblock
  | didConnectToHost c' =>
    unfold runTcpBlock
    dsimp only
    split
    · exact goes_toTransport rfl
    · exact Goes.refl w
  | socketDidDisconnect c' => exact goes_closeAndNotify w c k

/-- Every answer with payloads has its transport held by somebody. -/
def Kept (current : Option Nat) : List TransportBlock → Prop
  | [] => True
  | block :: behind =>
    (readyPayloads block ≠ [] →
      current = some block.transport ∨ behind.any (isStopOf block.transport) = true) ∧
    Kept current behind

/-- The ids of the messages of a payload's transaction. -/
def messageIds (payload : Sent × Nat) : List Nat := payload.1.payloads.flatten

/-- The account of the payloads.  `owed` are the payloads that the block which is
running has in its hands. -/
structure Resolving (w : World ρ) (handed called owed : List (Sent × Nat)) : Prop where
  known : Known w
  readies : ∀ block ∈ w.transportQueue, readyPayloads block ≠ [] →
    block.transport < w.transports.length
  sends : ∀ block ∈ w.tcpQueue, sendPayloads block ≠ [] →
    block.connection < w.connections.length
  kept : Kept w.transport w.transportQueue
  balance : handed.Perm (called ++ (owed ++ underway w))
  covered : ∀ request ∈ w.service.requests, isWaiting request = true →
    ∃ payload ∈ owed ++ underway w ++ w.managerQueue.flatMap completionPayloads,
      Concerns payload request.internalId
  distinct : handed.Nodup
  numbered : ∀ payload ∈ handed, messageIds payload ≠ [] ∧
    ∀ id ∈ messageIds payload, id < w.service.nextMessageInternalId

theorem kept_append {current current' : Option Nat} {blocks : List TransportBlock}
    (hblocks : blocks.flatMap readyPayloads = [])
    (hstop : current' = current ∨ ∀ T, current = some T → blocks.any (isStopOf T) = true) :
    ∀ {queue : List TransportBlock}, Kept current queue → Kept current' (queue ++ blocks) := by
  intro queue
  induction queue with
  | nil =>
    intro _
    rw [List.nil_append]
    clear hstop
    induction blocks with
    | nil => trivial
    | cons block behind ih =>
      rw [List.flatMap_cons, List.append_eq_nil_iff] at hblocks
      exact ⟨fun hsome => absurd hblocks.1 hsome, ih hblocks.2⟩
  | cons block behind ih =>
    intro hkept
    rw [List.cons_append]
    refine ⟨?_, ih hkept.2⟩
    intro hsome
    rw [List.any_append]
    rcases hkept.1 hsome with hcurrent | hbehind
    · grind
    · rw [hbehind, Bool.true_or]
      exact .inr rfl

/-- An answer to the current transport. -/
theorem kept_answer {T : Nat} {transactionList : List (Sent × Nat)} :
    ∀ {queue : List TransportBlock}, Kept (some T) queue →
      Kept (some T) (queue ++ [.transactionReady T transactionList]) := by
  intro queue
  induction queue with
  | nil => intro _; exact ⟨fun _ => .inl rfl, trivial⟩
  | cons block behind ih =>
    intro hkept
    rw [List.cons_append]
    refine ⟨?_, ih hkept.2⟩
    intro hsome
    rcases hkept.1 hsome with hcurrent | hbehind
    · exact .inl hcurrent
    · exact .inr (by rw [List.any_append, hbehind, Bool.true_or])

section Steps

variable {w w' : World ρ} {handed called owed : List (Sent × Nat)}

/-- Work that leaves the payloads alone keeps the account. -/
theorem Resolving.goes (h : Resolving w handed called owed) (hgoes : Goes w w') :
    Resolving w' handed called owed := by
  obtain ⟨m, hm, hmPayloads⟩ := hgoes.manager
  obtain ⟨t, ht, htPayloads, hstop⟩ := hgoes.transport
  obtain ⟨k, hk, hkPayloads⟩ := hgoes.tcp
  have hunderway : underway w' = underway w := by
    unfold underway
    rw [ht, hk, List.flatMap_append, List.flatMap_append, htPayloads, hkPayloads,
      List.append_nil, List.append_nil]
  have hcompletions : w'.managerQueue.flatMap completionPayloads =
      w.managerQueue.flatMap completionPayloads := by
    rw [hm, List.flatMap_append, hmPayloads, List.append_nil]
  constructor
  · exact hgoes.known h.known
  · intro block hblock hsome
    rw [ht] at hblock
    rcases List.mem_append.1 hblock with hold | hnew
    · exact (h.readies block hold hsome).trans_le hgoes.transports
    · exact absurd (List.flatMap_eq_nil_iff.1 htPayloads block hnew) hsome
  · intro block hblock hsome
    rw [hk] at hblock
    rcases List.mem_append.1 hblock with hold | hnew
    · exact (h.sends block hold hsome).trans_le hgoes.connections
    · exact absurd (List.flatMap_eq_nil_iff.1 hkPayloads block hnew) hsome
  · rw [ht]
    exact kept_append htPayloads hstop h.kept
  · rw [hunderway]
    exact h.balance
  · intro request' hrequest' hwaits
    obtain ⟨request, hrequest, hid, hwaited⟩ := hgoes.service.waiting request' hrequest' hwaits
    rw [hunderway, hcompletions, hid]
    exact h.covered request hrequest (hwaited hwaits)
  · exact h.distinct
  · intro payload hpayload
    obtain ⟨hsome, hlt⟩ := h.numbered payload hpayload
    exact ⟨hsome, fun id hid => (hlt id hid).trans_le hgoes.service.counter⟩

/-- A step that puts answers behind the transport queue. -/
def Answered (w w' : World ρ) (handed called : List (Sent × Nat)) : Prop :=
  ∃ blocks, w'.transportQueue = w.transportQueue ++ blocks ∧
    Resolving w' (handed ++ blocks.flatMap readyPayloads) called []

/-- A step that puts completions behind the manager queue. -/
def Reported (w w' : World ρ) (handed called : List (Sent × Nat)) : Prop :=
  ∃ blocks, w'.managerQueue = w.managerQueue ++ blocks ∧
    Resolving w' handed (called ++ blocks.flatMap completionPayloads) []

theorem Resolving.answered (h : Resolving w handed called []) (hgoes : Goes w w') :
    Answered w w' handed called := by
  obtain ⟨blocks, hqueue, hpayloads, _⟩ := hgoes.transport
  refine ⟨blocks, hqueue, ?_⟩
  rw [hpayloads, List.append_nil]
  exact h.goes hgoes

theorem Resolving.reported (h : Resolving w handed called []) (hgoes : Goes w w') :
    Reported w w' handed called := by
  obtain ⟨blocks, hqueue, hpayloads⟩ := hgoes.manager
  refine ⟨blocks, hqueue, ?_⟩
  rw [hpayloads, List.append_nil]
  exact h.goes hgoes

theorem Reported.goes {w'' : World ρ} (h : Reported w w' handed called) (hgoes : Goes w' w'') :
    Reported w w'' handed called := by
  obtain ⟨blocks, hqueue, hresolving⟩ := h
  obtain ⟨blocks', hqueue', hresolving'⟩ := hresolving.reported hgoes
  refine ⟨blocks ++ blocks', ?_, ?_⟩
  · rw [hqueue', hqueue, List.append_assoc]
  · rw [List.flatMap_append, ← List.append_assoc]
    exact hresolving'

/-- A step that puts no payload behind the transport queue. -/
def AnswersNothing (w w' : World ρ) : Prop :=
  (w'.transportQueue.drop w.transportQueue.length).flatMap readyPayloads = []

theorem Goes.answersNothing (hgoes : Goes w w') : AnswersNothing w w' := by
  obtain ⟨blocks, hqueue, hpayloads, _⟩ := hgoes.transport
  unfold AnswersNothing
  rw [hqueue, List.drop_left]
  exact hpayloads

theorem Answered.resolving (h : Answered w w' handed called) :
    Resolving w' (handed ++
      (w'.transportQueue.drop w.transportQueue.length).flatMap readyPayloads) called [] := by
  obtain ⟨blocks, hqueue, hresolving⟩ := h
  rw [hqueue, List.drop_left]
  exact hresolving

theorem Reported.resolving (h : Reported w w' handed called) :
    Resolving w' handed (called ++
      (w'.managerQueue.drop w.managerQueue.length).flatMap completionPayloads) [] := by
  obtain ⟨blocks, hqueue, hresolving⟩ := h
  rw [hqueue, List.drop_left]
  exact hresolving

/-! ### Taking a block -/

theorem Resolving.popManager {block : ManagerBlock ρ} {managerQueue : List (ManagerBlock ρ)}
    (h : Resolving w handed called owed) (hqueue : w.managerQueue = block :: managerQueue)
    (hblock : completionPayloads block = []) :
    Resolving { w with managerQueue } handed called owed := by
  constructor
  · exact ⟨h.known.transport, h.known.connection⟩
  · exact h.readies
  · exact h.sends
  · exact h.kept
  · exact h.balance
  · intro request hrequest hwaits
    have hcovered := h.covered request hrequest hwaits
    rw [hqueue, List.flatMap_cons, hblock, List.nil_append] at hcovered
    exact hcovered
  · exact h.distinct
  · exact h.numbered

/-- The payloads of the answer are now in the hands of the block. -/
theorem Resolving.popTransport {transportQueue : List TransportBlock}
    (h : Resolving w handed called []) (hqueue : w.transportQueue = block :: transportQueue) :
    Resolving { w with transportQueue } handed called (readyPayloads block) := by
  have hunderway : underway w = readyPayloads block ++ underway { w with transportQueue } := by
    unfold underway
    rw [hqueue, List.flatMap_cons, List.append_assoc]
  constructor
  · exact ⟨h.known.transport, h.known.connection⟩
  · intro other hother
    exact h.readies other (hqueue ▸ List.mem_cons_of_mem _ hother)
  · exact h.sends
  · have hkept := h.kept
    rw [hqueue] at hkept
    exact hkept.2
  · have hbalance := h.balance
    rw [List.nil_append, hunderway] at hbalance
    exact hbalance
  · intro request hrequest hwaits
    have hcovered := h.covered request hrequest hwaits
    rw [List.nil_append, hunderway] at hcovered
    exact hcovered
  · exact h.distinct
  · exact h.numbered

theorem Resolving.popTcp {block : TcpBlock} {tcpQueue : List TcpBlock}
    (h : Resolving w handed called []) (hqueue : w.tcpQueue = block :: tcpQueue) :
    Resolving { w with tcpQueue } handed called (sendPayloads block) := by
  have hunderway : (underway w).Perm (sendPayloads block ++ underway { w with tcpQueue }) := by
    unfold underway
    rw [hqueue, List.flatMap_cons]
    exact List.perm_append_comm_assoc _ _ _
  constructor
  · exact ⟨h.known.transport, h.known.connection⟩
  · exact h.readies
  · intro other hother
    exact h.sends other (hqueue ▸ List.mem_cons_of_mem _ hother)
  · exact h.kept
  · exact h.balance.trans (hunderway.append_left _)
  · intro request hrequest hwaits
    obtain ⟨payload, hpayload, hconcerns⟩ := h.covered request hrequest hwaits
    refine ⟨payload, ?_, hconcerns⟩
    rcases List.mem_append.1 hpayload with hpending | hcompletion
    · exact List.mem_append_left _ (hunderway.mem_iff.1 hpending)
    · exact List.mem_append_right _ hcompletion
  · exact h.distinct
  · exact h.numbered

/-! ### Giving a payload away -/

theorem Resolving.send {payload : Sent × Nat} {c : TransactionId}
    (h : Resolving w handed called (payload :: owed)) (hc : c < w.connections.length) :
    Resolving (w.toTcp (.sendDatas c payload.1 payload.2)) handed called owed := by
  have hunderway : underway (w.toTcp (.sendDatas c payload.1 payload.2)) =
      underway w ++ [payload] := by
    unfold underway
    show w.transportQueue.flatMap readyPayloads ++
      (w.tcpQueue ++ [TcpBlock.sendDatas c payload.1 payload.2]).flatMap sendPayloads = _
    rw [List.flatMap_append, List.flatMap_singleton, List.append_assoc]
    rfl
  have hpending : (payload :: owed ++ underway w).Perm (owed ++ (underway w ++ [payload])) := by
    rw [List.cons_append, ← List.append_assoc]
    exact (List.perm_append_singleton payload _).symm
  constructor
  · exact ⟨h.known.transport, h.known.connection⟩
  · exact h.readies
  · intro block hblock hsome
    rcases List.mem_append.1 hblock with hold | hnew
    · exact h.sends block hold hsome
    · rw [List.mem_singleton.1 hnew]
      exact hc
  · exact h.kept
  · rw [hunderway]
    exact h.balance.trans (hpending.append_left _)
  · intro request hrequest hwaits
    obtain ⟨other, hother, hconcerns⟩ := h.covered request hrequest hwaits
    refine ⟨other, ?_, hconcerns⟩
    rw [hunderway]
    rcases List.mem_append.1 hother with hin | hcompletion
    · exact List.mem_append_left _ (hpending.mem_iff.1 hin)
    · exact List.mem_append_right _ hcompletion
  · exact h.distinct
  · exact h.numbered

theorem Resolving.complete {payload : Sent × Nat}
    (h : Resolving w handed called (payload :: owed)) (transactionId : Option TransactionId) :
    Resolving (w.toManager (.payloadCompletion payload.1 payload.2 transactionId)) handed
      (called ++ [payload]) owed := by
  constructor
  · exact ⟨h.known.transport, h.known.connection⟩
  · exact h.readies
  · exact h.sends
  · exact h.kept
  · rw [List.append_assoc]
    exact h.balance
  · intro request hrequest hwaits
    obtain ⟨other, hother, hconcerns⟩ := h.covered request hrequest hwaits
    refine ⟨other, ?_, hconcerns⟩
    show other ∈ owed ++ underway w ++ (w.managerQueue ++
      [ManagerBlock.payloadCompletion payload.1 payload.2 transactionId]).flatMap
        completionPayloads
    rw [List.flatMap_append, List.flatMap_singleton]
    have hpayload : completionPayloads
        (ManagerBlock.payloadCompletion payload.1 payload.2 transactionId : ManagerBlock ρ) =
          [payload] := rfl
    rw [hpayload]
    simp only [List.cons_append, List.mem_append, List.mem_cons, List.not_mem_nil,
      or_false] at hother ⊢
    tauto
  · exact h.distinct
  · exact h.numbered

end Steps

end TelegramPub.Ports.PayloadCustody
