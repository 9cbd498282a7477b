import TelegramPub.Ports.TransportQueues
import TelegramPub.Verified.Fifo

/-!
# No request is stranded on a dead connection

A request that was recorded as sent on a connection is sent again only after a
failure notice for that connection.  The record is made by a completion block
that comes from the connection queue, the notice comes from the transport
queue, and a transport without its delegate gives no notice.

The invariant follows both paths.  A connection of the current transport that
is still open is the one the transport holds, and a successful completion for a
connection of the current transport has the notice behind it as soon as the
transport has let the connection go.  What is left is a completion that comes
after its transport was replaced: `Punctual` asks that then a notice is still
on its way, `none_stranded` is the result for the runs that meet it, and
`late_completion_strands` is a run that does not.
-/

namespace TelegramPub.Ports.TransportQueues

open Verified.Fifo Verified.FirstMatch Verified.Machine Ports.MessageTransaction
open Ports.RequestMessageService
open Ports.RequestLifecycle (mtProtoMessageTransaction_requests)
open Ports.TransportTransaction
open Ports.PayloadCompletion (Sent numbered noTransaction reportService sampleRequest)

variable {ρ : Type}

/-- The delegate and the connection of every transport. -/
def World.lines (w : World ρ) : List (Bool × Option TransactionId) :=
  w.transports.map fun t => (t.delegate, t.connection)

/-- The transaction id a request is recorded with. -/
def recordOf (request : Request ρ) : Option TransactionId :=
  request.requestContext.bind (·.transactionId)

/-- Some request is recorded as sent on the connection. -/
def Recorded (s : Service ρ) (c : TransactionId) : Prop :=
  ∃ request ∈ s.requests, recordOf request = some c

/-- The connection was made by the current transport. -/
def Owned (w : World ρ) (c : TransactionId) : Prop :=
  ∃ k, w.connections[c]? = some k ∧ w.transport = some k.transport

/-- The current transport has the connection. -/
def Held (w : World ρ) (c : TransactionId) : Prop :=
  ∃ T d, w.transport = some T ∧ w.lines[T]? = some (d, some c)

/-- The connection of the current transport, and not closed. -/
def Live (w : World ρ) (c : TransactionId) : Prop :=
  ∃ T t k, w.transport = some T ∧ w.transports[T]? = some t ∧ t.connection = some c ∧
    w.connections[c]? = some k ∧ k.closed = false

/-- A failure notice for the connection waits on the manager queue. -/
def ManagerReports (q : List (ManagerBlock ρ)) (c : TransactionId) : Prop :=
  ∃ transactionIds, .transactionsMayHaveFailed transactionIds ∈ q ∧ c ∈ transactionIds

/-- The blocks in which a transport gives the notice for its connection. -/
def TransportBlock.Reports : TransportBlock → TransactionId → Prop
  | .activeTransactionIds _, _ => True
  | .stop _, _ => True
  | .tcpConnectionClosed _ connection, c => connection = c
  | _, _ => False

/-- The transport of the connection still has it, still has its delegate, and
will come to a block that gives the notice. -/
def TransportReports (w : World ρ) (c : TransactionId) : Prop :=
  ∃ block ∈ w.transportQueue, block.Reports c ∧
    w.lines[block.transport]? = some (true, some c)

/-- A failure notice for the connection is on its way. -/
def ReportPending (w : World ρ) (c : TransactionId) : Prop :=
  ManagerReports w.managerQueue c ∨ TransportReports w c

/-- With all queues empty, a request that was sent and not confirmed was sent on
the live connection of the current transport. -/
def NoneStranded (w : World ρ) : Prop :=
  w.managerQueue = [] → w.transportQueue = [] → w.tcpQueue = [] →
    ∀ request ∈ w.service.requests, ∀ context, request.requestContext = some context →
      context.delivered = false → ∀ c, context.transactionId = some c → Live w c

/-- The payload has the message of a request that is still listed. -/
def Carries (w : World ρ) (sent : Sent) (payload : Nat) : Prop :=
  ∃ request ∈ w.service.requests, ∃ id ∈ sent.payloads.getD payload [],
    sent.transaction.messageFor request = some id

/-- A successful completion runs while its connection belongs to the current
transport, or while the failure notice is still to come. -/
def Punctual (w : World ρ) : Event ρ → Prop
  | .runManager _ =>
    match w.managerQueue with
    | .payloadCompletion sent payload (some c) :: managerQueue =>
      Carries w sent payload → Owned w c ∨ ReportPending { w with managerQueue } c
    | _ => True
  | _ => True

/-- What does not depend on which transport is the current one. -/
structure Core (w : World ρ) : Prop where
  stopsKnown : ∀ T, .stop T ∈ w.transportQueue → T < w.lines.length
  owners : ∀ (c : TransactionId) (k : Connection), w.connections[c]? = some k →
    k.transport < w.lines.length
  holders : ∀ (T : Nat) d c, w.lines[T]? = some (d, some c) →
    ∃ k : Connection, w.connections[c]? = some k ∧ k.transport = T
  closedBlocks : ∀ T c, .tcpConnectionClosed T c ∈ w.transportQueue →
    ∃ k : Connection, w.connections[c]? = some k ∧ k.closed = true
  tcpKnown : ∀ c, .clearDelegate c ∈ w.tcpQueue → c < w.connections.length

variable {w : World ρ} {T : Nat} {t : Transport} {c : TransactionId}

theorem Core.owner_of_line (h : Core w) {d : Bool}
    {k : Connection} (hline : w.lines[T]? = some (d, some c))
    (hk : w.connections[c]? = some k) : k.transport = T := by
  obtain ⟨k', hk', howner⟩ := h.holders T d c hline
  rw [Option.some.inj (hk.symm.trans hk')]
  exact howner

/-- A successful completion for a connection of the current transport: the
transport has the connection, or the notice is behind the completion. -/
def Covered (w : World ρ) (block : ManagerBlock ρ) (behind : List (ManagerBlock ρ)) : Prop :=
  ∀ sent payload c, block = .payloadCompletion sent payload (some c) → Owned w c →
    Held w c ∨ ManagerReports behind c

structure Inv (w : World ρ) : Prop extends Core w where
  current : ∀ T, w.transport = some T → ∃ connection, w.lines[T]? = some (true, connection)
  stopsOther : ∀ T, .stop T ∈ w.transportQueue → w.transport ≠ some T
  openHeld : ∀ (c : TransactionId) (k : Connection), w.connections[c]? = some k →
    w.transport = some k.transport → k.closed = false →
    Held w c ∧ k.delegate = true ∧ .clearDelegate c ∉ w.tcpQueue
  closing : ∀ (c : TransactionId) (k : Connection), Held w c → w.connections[c]? = some k →
    k.closed = true → .tcpConnectionClosed k.transport c ∈ w.transportQueue
  completions : Trailed (Covered w) w.managerQueue
  records : ∀ c, Recorded w.service c → Held w c ∨ ReportPending w c

theorem inv_start : Inv ({} : World ρ) := by
  constructor
  · constructor <;> simp [World.lines]
  · simp
  · simp
  · simp
  · simp
  · trivial
  · simp [Recorded]

/-- What the invariant is for. -/
theorem Inv.noneStranded (h : Inv w) : NoneStranded w := by
  intro hmanager htransport _ request hmem context hcontext _ c hc
  have hrecorded : Recorded w.service c := ⟨request, hmem, by simp [recordOf, hcontext, hc]⟩
  rcases h.records c hrecorded with hheld | hmanagerReport | htransportReport
  · obtain ⟨T, d, hT, hline⟩ := hheld
    obtain ⟨k, hk, howner⟩ := h.holders T d c hline
    obtain ⟨t, ht, heq⟩ : ∃ t, w.transports[T]? = some t ∧
        (t.delegate, t.connection) = (d, some c) := by
      simpa [World.lines] using hline
    refine ⟨T, t, k, hT, ht, congrArg Prod.snd heq, hk, ?_⟩
    by_contra hclosed
    have hblock := h.closing c k ⟨T, d, hT, hline⟩ hk (by simpa using hclosed)
    rw [htransport] at hblock
    cases hblock
  · obtain ⟨_, hmem, _⟩ := hmanagerReport
    rw [hmanager] at hmem
    cases hmem
  · obtain ⟨_, hmem, _⟩ := htransportReport
    rw [htransport] at hmem
    cases hmem

/-! ## Posting a block -/

theorem ManagerReports.append {q : List (ManagerBlock ρ)}
    (h : ManagerReports q c) (more : List (ManagerBlock ρ)) : ManagerReports (q ++ more) c := by
  obtain ⟨transactionIds, hmem, hc⟩ := h
  exact ⟨transactionIds, List.mem_append_left _ hmem, hc⟩

/-- Two states that the invariant cannot tell apart. -/
structure Same (w w' : World ρ) : Prop where
  transport : w'.transport = w.transport
  lines : w'.lines = w.lines
  connections : w'.connections = w.connections
  managerQueue : w'.managerQueue = w.managerQueue
  transportQueue : w'.transportQueue = w.transportQueue
  tcpQueue : w'.tcpQueue = w.tcpQueue

theorem Same.held {w w' : World ρ} (hs : Same w w') (c : TransactionId) :
    Held w' c ↔ Held w c := by
  unfold Held
  rw [hs.transport, hs.lines]

theorem Same.owned {w w' : World ρ} (hs : Same w w') (c : TransactionId) :
    Owned w' c ↔ Owned w c := by
  unfold Owned
  rw [hs.transport, hs.connections]

theorem Same.reportPending {w w' : World ρ} (hs : Same w w') (c : TransactionId) :
    ReportPending w' c ↔ ReportPending w c := by
  unfold ReportPending TransportReports
  rw [hs.managerQueue, hs.transportQueue, hs.lines]

theorem Same.core {w w' : World ρ} (hs : Same w w') (h : Core w) : Core w' := by
  constructor
  · rw [hs.transportQueue, hs.lines]; exact h.stopsKnown
  · rw [hs.connections, hs.lines]; exact h.owners
  · rw [hs.connections, hs.lines]; exact h.holders
  · rw [hs.transportQueue, hs.connections]; exact h.closedBlocks
  · rw [hs.tcpQueue, hs.connections]; exact h.tcpKnown

/-- A step that makes no new record and leaves the rest alone. -/
theorem Inv.same {w w' : World ρ} (h : Inv w) (hs : Same w w')
    (hrecords : ∀ c, Recorded w'.service c → Recorded w.service c) : Inv w' := by
  refine { hs.core h.toCore with
    current := ?_, stopsOther := ?_, openHeld := ?_, closing := ?_, completions := ?_,
    records := ?_ }
  · rw [hs.transport, hs.lines]; exact h.current
  · rw [hs.transport, hs.transportQueue]; exact h.stopsOther
  · simp only [hs.held, hs.connections, hs.transport, hs.tcpQueue]; exact h.openHeld
  · simp only [hs.held, hs.connections, hs.transportQueue]; exact h.closing
  · rw [hs.managerQueue]
    apply h.completions.mono
    intro block _ behind hcovered sent payload c hblock
    rw [hs.owned, hs.held]
    exact hcovered sent payload c hblock
  · intro c hc
    rw [hs.held, hs.reportPending]
    exact h.records c (hrecords c hc)

/-- A block for the manager queue that is no success of a connection the current
transport has let go. -/
theorem Inv.toManager (h : Inv w) {block : ManagerBlock ρ}
    (hblock : ∀ sent payload c, block = .payloadCompletion sent payload (some c) →
      Owned w c → Held w c) : Inv (w.toManager block) := by
  refine { h with completions := ?_, records := ?_ }
  · apply Trailed.append _ _ h.completions
    · intro a behind b hcovered sent payload c ha howned
      rcases hcovered sent payload c ha howned with hheld | hreports
      · exact .inl hheld
      · exact .inr (hreports.append [b])
    · intro sent payload c hb howned
      exact .inl (hblock sent payload c hb howned)
  · intro c hc
    rcases h.records c hc with hheld | hmanager | htransport
    · exact .inl hheld
    · exact .inr (.inl (hmanager.append [block]))
    · exact .inr (.inr htransport)

theorem Inv.toTransport (h : Inv w) {block : TransportBlock}
    (hstop : ∀ T, block ≠ .stop T) (hclosed : ∀ T c, block ≠ .tcpConnectionClosed T c) :
    Inv (w.toTransport block) := by
  have hold : ∀ {b}, b ∈ (w.toTransport block).transportQueue → b ≠ block →
      b ∈ w.transportQueue := by
    intro b hb hne
    rcases List.mem_append.1 hb with hb | hb
    · exact hb
    · exact absurd (List.mem_singleton.1 hb) hne
  refine { h with stopsKnown := ?_, closedBlocks := ?_, stopsOther := ?_, closing := ?_,
                  records := ?_ }
  · intro T hT
    exact h.stopsKnown T (hold hT (hstop T).symm)
  · intro T c hc
    exact h.closedBlocks T c (hold hc (hclosed T c).symm)
  · intro T hT
    exact h.stopsOther T (hold hT (hstop T).symm)
  · intro c k hheld hk hc
    exact List.mem_append_left _ (h.closing c k hheld hk hc)
  · intro c hc
    rcases h.records c hc with hheld | hmanager | ⟨b, hb, hreports⟩
    · exact .inl hheld
    · exact .inr (.inl hmanager)
    · exact .inr (.inr ⟨b, List.mem_append_left _ hb, hreports⟩)

theorem Inv.toTcp (h : Inv w) {block : TcpBlock}
    (hclear : ∀ c, block = .clearDelegate c → ∃ k, w.connections[c]? = some k ∧
      (w.transport = some k.transport → k.closed = true)) : Inv (w.toTcp block) := by
  refine { h with tcpKnown := ?_, openHeld := ?_ }
  · intro c hc
    rcases List.mem_append.1 hc with hc | hc
    · exact h.tcpKnown c hc
    · obtain ⟨k, hk, _⟩ := hclear c (List.mem_singleton.1 hc).symm
      exact (List.getElem?_eq_some_iff.1 hk).1
  · intro c k hk hcurrent hopen
    obtain ⟨hheld, hdelegate, hno⟩ := h.openHeld c k hk hcurrent hopen
    refine ⟨hheld, hdelegate, ?_⟩
    intro hc
    rcases List.mem_append.1 hc with hc | hc
    · exact hno hc
    · obtain ⟨k', hk', hclosed⟩ := hclear c (List.mem_singleton.1 hc).symm
      have heq : k = k' := Option.some.inj (hk.symm.trans hk')
      subst heq
      rw [hclosed hcurrent] at hopen
      cases hopen

/-! ## Taking a block -/

variable {managerQueue : List (ManagerBlock ρ)}

/-- The head of the manager queue leaves; `service` is what its run makes of the
request service. -/
theorem Inv.popManager (h : Inv w) {block : ManagerBlock ρ}
    (hqueue : w.managerQueue = block :: managerQueue) (service : Service ρ)
    (hrecords : ∀ c, Recorded service c →
      Held w c ∨ ReportPending { w with managerQueue } c) :
    Inv { w with managerQueue, service } := by
  refine { h with completions := ?_, records := hrecords }
  have hall := h.completions
  rw [hqueue] at hall
  exact hall.tail

/-- What a record rests on when the head of the manager queue is no notice for
its connection. -/
theorem Inv.records_behind (h : Inv w) {block : ManagerBlock ρ}
    (hqueue : w.managerQueue = block :: managerQueue)
    (hother : ∀ transactionIds, block = .transactionsMayHaveFailed transactionIds →
      c ∉ transactionIds) (hc : Recorded w.service c)
    : Held w c ∨ ReportPending { w with managerQueue } c := by
  rcases h.records c hc with hheld | hmanager | htransport
  · exact .inl hheld
  · obtain ⟨transactionIds, hmem, hin⟩ := hmanager
    rw [hqueue] at hmem
    rcases List.mem_cons.1 hmem with heq | hmem
    · exact absurd hin (hother transactionIds heq.symm)
    · exact .inr (.inl ⟨transactionIds, hmem, hin⟩)
  · exact .inr (.inr htransport)

/-- The head of the transport queue leaves after it has given its notice. -/
theorem Inv.popTransport (h : Inv w) {block : TransportBlock}
    {transportQueue : List TransportBlock} (hqueue : w.transportQueue = block :: transportQueue)
    (hreported : ∀ c, block.Reports c → w.lines[block.transport]? = some (true, some c) →
      ManagerReports w.managerQueue c)
    (hclosed : ∀ T d c, block = .tcpConnectionClosed T c → w.lines[T]? ≠ some (d, some c)) :
    Inv { w with transportQueue } := by
  have hmem : ∀ {b}, b ∈ transportQueue → b ∈ w.transportQueue := by
    intro b hb
    rw [hqueue]
    exact .tail block hb
  refine { h with stopsKnown := ?_, closedBlocks := ?_, stopsOther := ?_, closing := ?_,
                  records := ?_ }
  · intro T hT
    exact h.stopsKnown T (hmem hT)
  · intro T c hc
    exact h.closedBlocks T c (hmem hc)
  · intro T hT
    exact h.stopsOther T (hmem hT)
  · intro c k hheld hk hc
    have hin := h.closing c k hheld hk hc
    rw [hqueue] at hin
    rcases List.mem_cons.1 hin with heq | hin
    · obtain ⟨T, d, _, hline⟩ := hheld
      rw [← h.owner_of_line hline hk] at hline
      exact absurd hline (hclosed k.transport d c heq.symm)
    · exact hin
  · intro c hc
    rcases h.records c hc with hheld | hmanager | ⟨b, hb, hreports, hline⟩
    · exact .inl hheld
    · exact .inr (.inl hmanager)
    · rw [hqueue] at hb
      rcases List.mem_cons.1 hb with heq | hb
      · subst heq
        exact .inr (.inl (hreported c hreports hline))
      · exact .inr (.inr ⟨b, hb, hreports, hline⟩)

theorem Inv.popTcp (h : Inv w) {block : TcpBlock} {tcpQueue : List TcpBlock}
    (hqueue : w.tcpQueue = block :: tcpQueue) : Inv { w with tcpQueue } := by
  have hmem : ∀ {b}, b ∈ tcpQueue → b ∈ w.tcpQueue := by
    grind
  refine { h with tcpKnown := ?_, openHeld := ?_ }
  · intro c hc
    exact h.tcpKnown c (hmem hc)
  · intro c k hk hcurrent hopen
    obtain ⟨hheld, hdelegate, hno⟩ := h.openHeld c k hk hcurrent hopen
    exact ⟨hheld, hdelegate, fun hc => hno (hmem hc)⟩

theorem line_of_transport
    (ht : w.transports[T]? = some t) : w.lines[T]? = some (t.delegate, t.connection) := by
  simp [World.lines, ht]

theorem lines_updateTransport_self (f : Transport → Transport) (ht : w.transports[T]? = some t) :
    (w.updateTransport T f).lines[T]? = some ((f t).delegate, (f t).connection) := by
  simp [World.lines, World.updateTransport, ht]

theorem lines_updateTransport_of_ne (w : World ρ) {T T' : Nat} (f : Transport → Transport)
    (hne : T' ≠ T) : (w.updateTransport T f).lines[T']? = w.lines[T']? := by
  simp [World.lines, World.updateTransport, hne.symm]

theorem length_lines_updateTransport (w : World ρ) (T : Nat) (f : Transport → Transport) :
    (w.updateTransport T f).lines.length = w.lines.length := by
  simp [World.lines, World.updateTransport]

theorem lines_updateTransport_of_keeps (w : World ρ) (T : Nat) {f : Transport → Transport}
    (hf : ∀ t, w.transports[T]? = some t →
      (f t).delegate = t.delegate ∧ (f t).connection = t.connection) :
    (w.updateTransport T f).lines = w.lines := by
  apply List.ext_getElem?
  intro T'
  by_cases hne : T' = T
  · subst hne
    cases ht : w.transports[T']? with
    | none => simp [World.lines, World.updateTransport, ht]
    | some t =>
      rw [lines_updateTransport_self f ht, line_of_transport ht, (hf t ht).1, (hf t ht).2]
  · exact lines_updateTransport_of_ne w f hne

theorem Inv.delegate_of_current (h : Inv w)
    (ht : w.transports[T]? = some t) (hT : w.transport = some T) : t.delegate = true := by
  obtain ⟨connection, hline⟩ := h.current T hT
  rw [line_of_transport ht] at hline
  exact congrArg Prod.fst (Option.some.inj hline)

theorem Inv.updateTransport (h : Inv w) (T : Nat) {f : Transport → Transport}
    (hf : ∀ t, w.transports[T]? = some t →
      (f t).delegate = t.delegate ∧ (f t).connection = t.connection) :
    Inv (w.updateTransport T f) :=
  h.same ⟨rfl, lines_updateTransport_of_keeps w T hf, rfl, rfl, rfl, rfl⟩ (fun _ hc => hc)

section Release

variable {f : Transport → Transport}
  (h : Inv w) (ht : w.transports[T]? = some t) (hc : t.connection = some c)
  (hdelegate : ∀ t, (f t).delegate = t.delegate) (hconnection : ∀ t, (f t).connection = none)

include ht hc in
theorem held_release {c' : TransactionId} (hheld : Held w c') :
    Held (w.updateTransport T f) c' ∨ (w.transport = some T ∧ c' = c) := by
  obtain ⟨T', d, hT', hline⟩ := hheld
  by_cases hne : T' = T
  · subst hne
    rw [line_of_transport ht, hc] at hline
    refine .inr ⟨hT', ?_⟩
    simpa using (congrArg Prod.snd (Option.some.inj hline)).symm
  · refine .inl ⟨T', d, hT', ?_⟩
    rw [lines_updateTransport_of_ne w f hne]
    exact hline

include ht hc in
theorem transportReports_release {c' : TransactionId} (hreports : TransportReports w c') :
    TransportReports (w.updateTransport T f) c' ∨ (t.delegate = true ∧ c' = c) := by
  obtain ⟨block, hblock, hreport, hline⟩ := hreports
  by_cases hne : block.transport = T
  · grind [line_of_transport]
  · refine .inl ⟨block, hblock, hreport, ?_⟩
    rw [lines_updateTransport_of_ne w f hne]
    exact hline

include h ht hconnection in
theorem core_release : Core (w.updateTransport T f) := by
  constructor
  · rw [length_lines_updateTransport]; exact h.stopsKnown
  · rw [length_lines_updateTransport]; exact h.owners
  · intro T' d c' hline
    by_cases hne : T' = T
    · subst hne
      rw [lines_updateTransport_self f ht, hconnection] at hline
      cases hline
    · rw [lines_updateTransport_of_ne w f hne] at hline
      exact h.holders T' d c' hline
  · exact h.closedBlocks
  · exact h.tcpKnown

include h ht hc hdelegate hconnection in
/-- All but the records and the completions, for which the notice is needed. -/
theorem inv_release
    (hclosed : w.transport = some T → ∃ k, w.connections[c]? = some k ∧ k.closed = true)
    (managerQueue : List (ManagerBlock ρ))
    (hcompletions : Trailed (Covered (w.updateTransport T f)) managerQueue)
    (hrecords : ∀ c', Recorded w.service c' → Held (w.updateTransport T f) c' ∨
      ReportPending { w.updateTransport T f with managerQueue } c') :
    Inv { w.updateTransport T f with managerQueue } := by
  have hcore := core_release h ht hconnection
  refine { hcore with
    current := ?_, stopsOther := h.stopsOther, openHeld := ?_, closing := ?_,
    completions := hcompletions, records := hrecords }
  · intro T' hT'
    obtain ⟨connection, hline⟩ := h.current T' hT'
    by_cases hne : T' = T
    · subst hne
      refine ⟨none, ?_⟩
      show (w.updateTransport T' f).lines[T']? = _
      rw [lines_updateTransport_self f ht, hdelegate, hconnection, h.delegate_of_current ht hT']
    · refine ⟨connection, ?_⟩
      show (w.updateTransport T f).lines[T']? = _
      rw [lines_updateTransport_of_ne w f hne]
      exact hline
  · intro c' k hk hcurrent hopen
    obtain ⟨hheld, hrest⟩ := h.openHeld c' k hk hcurrent hopen
    rcases held_release ht hc hheld with hheld' | ⟨hT, heq⟩
    · exact ⟨hheld', hrest⟩
    · subst heq
      obtain ⟨k', hk', hk'closed⟩ := hclosed hT
      have hsame : k = k' := Option.some.inj (hk.symm.trans hk')
      subst hsame
      rw [hk'closed] at hopen
      cases hopen
  · intro c' k hheld hk hkclosed
    apply h.closing c' k _ hk hkclosed
    obtain ⟨T', d, hT', hline⟩ := hheld
    refine ⟨T', d, hT', ?_⟩
    by_cases hne : T' = T
    · subst hne
      have hself := lines_updateTransport_self f ht
      rw [hconnection] at hself
      rw [show (w.updateTransport T' f).lines[T']? = _ from hline] at hself
      cases hself
    · rw [← lines_updateTransport_of_ne w f hne]
      exact hline

include h ht hc hdelegate hconnection in
/-- The transport gives the notice while it lets the connection go.  The notice
comes behind every completion that is already on the manager queue. -/
theorem Inv.release
    (hclosed : w.transport = some T → ∃ k, w.connections[c]? = some k ∧ k.closed = true) :
    Inv (noticeFailure (w.updateTransport T f) t.delegate c) := by
  have howned : ∀ c', Owned (w.updateTransport T f) c' ↔ Owned w c' := fun _ => Iff.rfl
  cases hd : t.delegate with
  | false =>
    have hother : w.transport ≠ some T := by
      intro hT
      rw [h.delegate_of_current ht hT] at hd
      cases hd
    have hheld : ∀ c', Held w c' → Held (w.updateTransport T f) c' := by
      intro c' hheld
      rcases held_release ht hc hheld with hheld' | ⟨hT, _⟩
      · exact hheld'
      · exact absurd hT hother
    apply inv_release h ht hc hdelegate hconnection hclosed w.managerQueue
    · apply h.completions.mono
      intro block _ behind hcovered sent payload c' hblock hc'
      exact (hcovered sent payload c' hblock ((howned c').1 hc')).imp_left (hheld c')
    · intro c' hc'
      rcases h.records c' hc' with hheld' | hmanager | htransport
      · exact .inl (hheld c' hheld')
      · exact .inr (.inl hmanager)
      · rcases transportReports_release (f := f) ht hc htransport with hreports | ⟨htrue, _⟩
        · exact .inr (.inr hreports)
        · rw [hd] at htrue
          cases htrue
  | true =>
    have hnotice : ∀ q : List (ManagerBlock ρ),
        ManagerReports (q ++ [ManagerBlock.transactionsMayHaveFailed [c]]) c := by
      intro q
      exact ⟨[c], by simp, List.mem_singleton.2 rfl⟩
    apply inv_release h ht hc hdelegate hconnection hclosed
      (w.managerQueue ++ [ManagerBlock.transactionsMayHaveFailed [c]])
    · apply h.completions.discharge
      · intro block behind hcovered sent payload c' hblock hc'
        rcases hcovered sent payload c' hblock ((howned c').1 hc') with hheld | hreports
        · rcases held_release ht hc hheld with hheld' | ⟨_, heq⟩
          · exact .inl hheld'
          · subst heq
            exact .inr (hnotice behind)
        · exact .inr (hreports.append _)
      · intro sent payload c' hblock
        cases hblock
    · intro c' hc'
      rcases h.records c' hc' with hheld | hmanager | htransport
      · rcases held_release ht hc hheld with hheld' | ⟨_, heq⟩
        · exact .inl hheld'
        · subst heq
          exact .inr (.inl (hnotice _))
      · exact .inr (.inl (hmanager.append _))
      · rcases transportReports_release (f := f) ht hc htransport with hreports | ⟨_, heq⟩
        · exact .inr (.inr hreports)
        · subst heq
          exact .inr (.inl (hnotice _))

end Release

section Start

variable {w' : World ρ}
  (h : Inv w) (ht : w.transports[T]? = some t) (hnone : t.connection = none)
  (hw' : w' = ({ w with connections := w.connections ++ [({ transport := T } : Connection)] } :
    World ρ).updateTransport T ({ · with connection := some w.connections.length }))

include ht hw' in
theorem line_start : w'.lines[T]? = some (t.delegate, some w.connections.length) := by
  subst hw'
  exact lines_updateTransport_self _ ht

include hw' in
theorem line_start_of_ne {T' : Nat} (hne : T' ≠ T) : w'.lines[T']? = w.lines[T']? := by
  subst hw'
  exact lines_updateTransport_of_ne _ _ hne

include hw' in
theorem connections_start {c : Nat} {k : Connection} (hk : w'.connections[c]? = some k) :
    w.connections[c]? = some k ∨ (c = w.connections.length ∧ k = { transport := T }) := by
  subst hw'
  have hk' : (w.connections ++ [({ transport := T } : Connection)])[c]? = some k := hk
  rcases Nat.lt_or_ge c w.connections.length with hlt | hge
  · rw [List.getElem?_append_left hlt] at hk'
    exact .inl hk'
  · grind
include hw' in
theorem old_connections_start {k : Connection}
    (hk : w.connections[c]? = some k) : w'.connections[c]? = some k := by
  subst hw'
  show (w.connections ++ [({ transport := T } : Connection)])[c]? = some k
  rw [List.getElem?_append_left (List.getElem?_eq_some_iff.1 hk).1]
  exact hk

include ht hnone hw' in
/-- The transport had no connection, so nothing that was held is lost. -/
theorem held_start (hheld : Held w c) : Held w' c := by
  obtain ⟨T', d, hT', hline⟩ := hheld
  refine ⟨T', d, by subst hw'; exact hT', ?_⟩
  rw [line_start_of_ne hw' ?_]
  · exact hline
  · rintro rfl
    rw [line_of_transport ht, hnone] at hline
    cases hline

include ht hnone hw' in
theorem transportReports_start (hreports : TransportReports w c) :
    TransportReports w' c := by
  obtain ⟨block, hblock, hreport, hline⟩ := hreports
  refine ⟨block, by subst hw'; exact hblock, hreport, ?_⟩
  rw [line_start_of_ne hw' ?_]
  · exact hline
  · intro heq
    rw [heq, line_of_transport ht, hnone] at hline
    cases congrArg Prod.snd (Option.some.inj hline)

include h ht hw' in
theorem core_start : Core w' := by
  have hlength : w'.lines.length = w.lines.length := by
    subst hw'
    exact length_lines_updateTransport _ _ _
  have hT : T < w.lines.length := (List.getElem?_eq_some_iff.1 (line_of_transport ht)).1
  constructor
  · rw [hlength, show w'.transportQueue = w.transportQueue by subst hw'; rfl]
    exact h.stopsKnown
  · intro c k hk
    rw [hlength]
    rcases connections_start hw' hk with hk | ⟨_, rfl⟩
    · exact h.owners c k hk
    · exact hT
  · intro T' d c hline
    by_cases hne : T' = T
    · subst hne
      rw [line_start ht hw'] at hline
      obtain ⟨_, hc⟩ := Prod.mk.inj (Option.some.inj hline)
      refine ⟨{ transport := T' }, ?_, rfl⟩
      rw [← Option.some.inj hc]
      subst hw'
      exact List.getElem?_concat_length
    · rw [line_start_of_ne hw' hne] at hline
      obtain ⟨k, hk, howner⟩ := h.holders T' d c hline
      exact ⟨k, old_connections_start hw' hk, howner⟩
  · intro T' c hblock
    rw [show w'.transportQueue = w.transportQueue by subst hw'; rfl] at hblock
    obtain ⟨k, hk, hclosed⟩ := h.closedBlocks T' c hblock
    exact ⟨k, old_connections_start hw' hk, hclosed⟩
  · intro c hc
    rw [show w'.tcpQueue = w.tcpQueue by subst hw'; rfl] at hc
    have hlt := h.tcpKnown c hc
    subst hw'
    show c < (w.connections ++ [({ transport := T } : Connection)]).length
    rw [List.length_append]
    omega

include h ht hnone hw' in
theorem inv_start_connection : Inv w' := by
  have htransport : w'.transport = w.transport := by subst hw'; rfl
  have hnew : w.transport = some T → Held w' w.connections.length := by
    intro hT
    exact ⟨T, t.delegate, htransport.trans hT, line_start ht hw'⟩
  refine { core_start h ht hw' with
    current := ?_, stopsOther := ?_, openHeld := ?_, closing := ?_, completions := ?_,
    records := ?_ }
  · intro T' hT'
    rw [htransport] at hT'
    by_cases hne : T' = T
    · subst hne
      exact ⟨_, by rw [line_start ht hw', h.delegate_of_current ht hT']⟩
    · rw [line_start_of_ne hw' hne]
      exact h.current T' hT'
  · rw [htransport, show w'.transportQueue = w.transportQueue by subst hw'; rfl]
    exact h.stopsOther
  · intro c k hk hcurrent hopen
    rw [htransport] at hcurrent
    rw [show w'.tcpQueue = w.tcpQueue by subst hw'; rfl]
    rcases connections_start hw' hk with hk | ⟨rfl, rfl⟩
    · obtain ⟨hheld, hrest⟩ := h.openHeld c k hk hcurrent hopen
      exact ⟨held_start ht hnone hw' hheld, hrest⟩
    · refine ⟨hnew hcurrent, rfl, ?_⟩
      intro hblock
      exact absurd (h.tcpKnown _ hblock) (Nat.lt_irrefl _)
  · intro c k hheld hk hclosed
    rw [show w'.transportQueue = w.transportQueue by subst hw'; rfl]
    rcases connections_start hw' hk with hk' | ⟨_, rfl⟩
    · apply h.closing c k _ hk' hclosed
      obtain ⟨T', d, hT', hline⟩ := hheld
      refine ⟨T', d, htransport.symm.trans hT', ?_⟩
      rw [line_start_of_ne hw' ?_] at hline
      · exact hline
      · rintro rfl
        rw [line_start ht hw'] at hline
        obtain ⟨_, hc⟩ := Prod.mk.inj (Option.some.inj hline)
        have hlt := (List.getElem?_eq_some_iff.1 hk').1
        rw [← Option.some.inj hc] at hlt
        exact Nat.lt_irrefl _ hlt
    · cases hclosed
  · rw [show w'.managerQueue = w.managerQueue by subst hw'; rfl]
    apply h.completions.mono
    intro block _ behind hcovered sent payload c hblock howned
    obtain ⟨k, hk, hcurrent⟩ := howned
    rw [htransport] at hcurrent
    rcases connections_start hw' hk with hk | ⟨rfl, rfl⟩
    · exact (hcovered sent payload c hblock ⟨k, hk, hcurrent⟩).imp_left (held_start ht hnone hw')
    · exact .inl (hnew hcurrent)
  · intro c hc
    rw [show w'.service = w.service by subst hw'; rfl] at hc
    unfold ReportPending
    rw [show w'.managerQueue = w.managerQueue by subst hw'; rfl]
    rcases h.records c hc with hheld | hmanager | htransportReport
    · exact .inl (held_start ht hnone hw' hheld)
    · exact .inr (.inl hmanager)
    · exact .inr (.inr (transportReports_start ht hnone hw' htransportReport))

end Start

theorem Inv.startIfNeeded (h : Inv w)
    (ht : w.transports[T]? = some t) : Inv (startIfNeeded w T t) := by
  unfold TransportQueues.startIfNeeded
  cases hc : t.connection with
  | some _ => exact h
  | none => exact (inv_start_connection h ht hc rfl).toTcp (by simp)

theorem Inv.requestsReconnection (h : Inv w) (T : Nat) :
    Inv (requestsReconnection w T) := by
  unfold TransportQueues.requestsReconnection
  cases ht : w.transports[T]? with
  | none => exact h
  | some t =>
    dsimp only
    split
    · exact h
    · exact h.startIfNeeded ht

/-! ## A connection closes -/

theorem connections_update_self {k : Connection}
    (hk : w.connections[c]? = some k) (f : Connection → Connection) :
    (w.updateConnection c f).connections[c]? = some (f k) := by
  simp [World.updateConnection, hk]

theorem connections_update_of_ne (w : World ρ) {c c' : TransactionId} (hne : c' ≠ c)
    (f : Connection → Connection) :
    (w.updateConnection c f).connections[c']? = w.connections[c']? := by
  simp [World.updateConnection, hne.symm]

section UpdateConnection

variable {k : Connection} {f : Connection → Connection}
  (h : Inv w) (hk : w.connections[c]? = some k) (htransport : (f k).transport = k.transport)
  (hclosed : k.closed = true → (f k).closed = true) {more : List TransportBlock}
  (hmore : ∀ block ∈ more, block = .tcpConnectionClosed k.transport c ∧ (f k).closed = true)

include hk htransport in
/-- A connection after the change belongs to the transport it belonged to. -/
theorem connections_update_owner {c' : TransactionId} {k' : Connection}
    (hk' : (w.updateConnection c f).connections[c']? = some k') :
    ∃ k₀ : Connection, w.connections[c']? = some k₀ ∧ k'.transport = k₀.transport := by
  by_cases hne : c' = c
  · grind [connections_update_self]
  · rw [connections_update_of_ne w hne] at hk'
    exact ⟨k', hk', rfl⟩

include hmore in
theorem mem_queue_of_not_closed {block : TransportBlock} (hblock : block ∈ w.transportQueue ++ more)
    (hne : ∀ T c', block ≠ .tcpConnectionClosed T c') : block ∈ w.transportQueue := by
  rcases List.mem_append.1 hblock with hblock | hblock
  · exact hblock
  · exact absurd (hmore block hblock).1 (hne _ _)

include h hk htransport hclosed hmore in
theorem core_updateConnection :
    Core { w.updateConnection c f with transportQueue := w.transportQueue ++ more } := by
  have hself := connections_update_self hk f
  refine ⟨?_, ?_, ?_, ?_, ?_⟩
  · intro T hT
    exact h.stopsKnown T (mem_queue_of_not_closed hmore hT (by simp))
  · intro c' k' hk'
    obtain ⟨k₀, hk₀, heq⟩ := connections_update_owner hk htransport hk'
    rw [heq]
    exact h.owners c' k₀ hk₀
  · intro T d c' hline
    obtain ⟨k', hk', howner⟩ := h.holders T d c' hline
    by_cases hne : c' = c
    · subst hne
      rw [hk] at hk'
      exact ⟨f k, hself, by rw [htransport, Option.some.inj hk', howner]⟩
    · exact ⟨k', (connections_update_of_ne w hne f).trans hk', howner⟩
  · intro T c' hblock
    rcases List.mem_append.1 hblock with hblock | hblock
    · obtain ⟨k', hk', hk'closed⟩ := h.closedBlocks T c' hblock
      by_cases hne : c' = c
      · subst hne
        rw [hk] at hk'
        rw [← Option.some.inj hk'] at hk'closed
        exact ⟨f k, hself, hclosed hk'closed⟩
      · exact ⟨k', (connections_update_of_ne w hne f).trans hk', hk'closed⟩
    · obtain ⟨heq, hfclosed⟩ := hmore _ hblock
      obtain ⟨_, rfl⟩ := TransportBlock.tcpConnectionClosed.inj heq
      exact ⟨f k, hself, hfclosed⟩
  · intro c' hc'
    show c' < (w.connections.modify c f).length
    rw [List.length_modify]
    exact h.tcpKnown c' hc'

include h hk htransport hclosed hmore in
/-- A change of a connection.  `more` is the notice to its transport, if it is
closed by the change. -/
theorem Inv.updateConnection
    (hopen : w.transport = some k.transport → (f k).closed = false → (f k).delegate = true)
    (hclosing : w.transport = some k.transport → k.closed = false → (f k).closed = true →
      .tcpConnectionClosed k.transport c ∈ more) :
    Inv { w.updateConnection c f with transportQueue := w.transportQueue ++ more } := by
  have hself := connections_update_self hk f
  refine ⟨core_updateConnection h hk htransport hclosed hmore, h.current, ?_, ?_, ?_, ?_, ?_⟩
  · intro T hT
    exact h.stopsOther T (mem_queue_of_not_closed hmore hT (by simp))
  · intro c' k' hk' hcurrent hk'open
    by_cases hne : c' = c
    · subst hne
      obtain rfl := Option.some.inj (hself.symm.trans hk')
      rw [htransport] at hcurrent
      have hkopen : k.closed = false := by
        by_contra hkclosed
        rw [hclosed (by simpa using hkclosed)] at hk'open
        cases hk'open
      obtain ⟨hheld, _, hno⟩ := h.openHeld c' k hk hcurrent hkopen
      exact ⟨hheld, hopen hcurrent hk'open, hno⟩
    · exact h.openHeld c' k' ((connections_update_of_ne w hne f).symm.trans hk') hcurrent hk'open
  · intro c' k' hheld hk' hk'closed
    by_cases hne : c' = c
    · subst hne
      obtain rfl := Option.some.inj (hself.symm.trans hk')
      rw [htransport]
      cases hkclosed : k.closed with
      | true => exact List.mem_append_left _ (h.closing c' k hheld hk hkclosed)
      | false =>
        obtain ⟨T, d, hT, hline⟩ := hheld
        rw [← h.owner_of_line hline hk] at hT
        exact List.mem_append_right _ (hclosing hT hkclosed hk'closed)
    · have hk'' := (connections_update_of_ne w hne f).symm.trans hk'
      exact List.mem_append_left _ (h.closing c' k' hheld hk'' hk'closed)
  · apply h.completions.mono
    intro block _ behind hcovered sent payload c' hblock howned
    obtain ⟨k', hk', hcurrent⟩ := howned
    obtain ⟨k₀, hk₀, heq⟩ := connections_update_owner hk htransport hk'
    rw [heq] at hcurrent
    exact hcovered sent payload c' hblock ⟨k₀, hk₀, hcurrent⟩
  · intro c' hc'
    rcases h.records c' hc' with hheld | hmanager | ⟨block, hblock, hreports⟩
    · exact .inl hheld
    · exact .inr (.inl hmanager)
    · exact .inr (.inr ⟨block, List.mem_append_left _ hblock, hreports⟩)

end UpdateConnection

theorem Inv.updateConnection_open (h : Inv w) {k : Connection}
    (hk : w.connections[c]? = some k) {f : Connection → Connection}
    (htransport : (f k).transport = k.transport) (hclosed : (f k).closed = k.closed)
    (hopen : w.transport = some k.transport → k.closed = false → (f k).delegate = true) :
    Inv (w.updateConnection c f) := by
  have hmain := h.updateConnection hk htransport (fun hkclosed => hclosed.trans hkclosed)
    (fun _ hblock => absurd hblock List.not_mem_nil)
    (fun hcurrent hfopen => hopen hcurrent (hclosed.symm.trans hfopen))
    (fun _ hkopen hfclosed => by rw [hclosed, hkopen] at hfclosed; cases hfclosed)
  rw [List.append_nil] at hmain
  exact hmain

theorem Inv.closeAndNotify (h : Inv w) {k : Connection}
    (hk : w.connections[c]? = some k) : Inv (closeAndNotify w c k) := by
  unfold TransportQueues.closeAndNotify
  split
  · exact h
  · rename_i hopen
    have hkopen : k.closed = false := by simpa using hopen
    cases hd : k.delegate with
    | true =>
      apply h.updateConnection hk rfl
      · intro _; rfl
      · intro block hblock; exact ⟨List.mem_singleton.1 hblock, rfl⟩
      · intro _ hfopen; cases hfopen
      · intro _ _ _; exact List.mem_singleton.2 rfl
    | false =>
      have hother : w.transport ≠ some k.transport := by
        intro hcurrent
        rw [(h.openHeld c k hk hcurrent hkopen).2.1] at hd
        cases hd
      have hmain := h.updateConnection hk
        (f := fun k => { k with closed := true, socket := false }) rfl (fun _ => rfl)
        (fun _ hblock => absurd hblock List.not_mem_nil)
        (fun hcurrent => absurd hcurrent hother) (fun hcurrent => absurd hcurrent hother)
      rw [List.append_nil] at hmain
      exact hmain

/-! ## The records of the request service -/

variable {s : Service ρ}

theorem recorded_map {s' : Service ρ} {f : Request ρ → Request ρ}
    (hs : s'.requests = s.requests.map f)
    (hf : ∀ request ∈ s.requests, ∀ c, recordOf (f request) = some c → recordOf request = some c)
    (hc : Recorded s' c) : Recorded s c := by
  obtain ⟨request, hmem, hrecord⟩ := hc
  rw [hs] at hmem
  obtain ⟨before, hbefore, rfl⟩ := List.mem_map.1 hmem
  exact ⟨before, hbefore, hf before hbefore c hrecord⟩

theorem recordOf_stopWaiting (request : Request ρ) :
    recordOf (stopWaiting request) = recordOf request := by
  unfold recordOf stopWaiting
  cases request.requestContext <;> rfl

theorem recordOf_forgetTransaction (request : Request ρ) :
    recordOf (forgetTransaction request) = none := by
  unfold recordOf forgetTransaction
  cases request.requestContext <;> rfl

theorem recorded_addRequest {request : NewRequest ρ}
    (hc : Recorded (addRequest s request.1).1 c) : Recorded s c := by
  unfold addRequest at hc
  split at hc
  · exact hc
  · obtain ⟨other, hmem, hrecord⟩ := hc
    rcases List.mem_append.1 hmem with hmem | hnew
    · exact ⟨other, hmem, hrecord⟩
    · rw [List.mem_singleton.1 hnew, recordOf, request.2] at hrecord
      cases hrecord

theorem recorded_prepared {t : RequestTransaction} {preparedMessages : Nat → Option PreparedMessage}
    (hc : Recorded (prepared s t preparedMessages) c) : Recorded s c := by
  refine recorded_map rfl ?_ hc
  intro request _ c hrecord
  split at hrecord
  · cases hrecord
  · exact hrecord

theorem recorded_completion_none {t : RequestTransaction}
    (hc : Recorded (completion s t (fun _ => none) (fun _ => none) (fun _ => none)) c) :
    Recorded s c := by
  refine recorded_map rfl ?_ hc
  intro request _ c hrecord
  unfold completeRequest at hrecord
  split at hrecord
  · exact hrecord
  · rw [← recordOf_stopWaiting]
    exact hrecord

theorem recorded_didChangeSession (hc : Recorded (didChangeSession s).1 c) : Recorded s c := by
  refine recorded_map rfl ?_ hc
  intro request _ c hrecord
  cases hrecord

theorem recorded_messageDeliveryConfirmed {messageIds : List Int}
    (hc : Recorded (messageDeliveryConfirmed s messageIds).1 c) :
    Recorded s c := by
  have hkeys : ∀ (messageIds : List Int) (requests : List (Request ρ)),
      (messageIds.foldl confirmDelivery requests).map recordOf = requests.map recordOf := by
    intro messageIds
    induction messageIds with
    | nil => intro requests; rfl
    | cons messageId messageIds ih =>
      intro requests
      rw [List.foldl_cons, ih]
      unfold confirmDelivery
      cases hfind : requests.find? (isAnswerFor messageId) with
      | none => rw [updateFirst_of_find?_none hfind]
      | some request =>
        refine map_updateFirst_of_some hfind rfl ?_
        unfold recordOf
        cases request.requestContext <;> rfl
  obtain ⟨request, hmem, hrecord⟩ := hc
  have hin : some c ∈ (messageIds.foldl confirmDelivery s.requests).map recordOf :=
    hrecord ▸ List.mem_map_of_mem hmem
  rw [hkeys] at hin
  obtain ⟨before, hbefore, heq⟩ := List.mem_map.1 hin
  exact ⟨before, hbefore, heq⟩

/-- After the notice no request is recorded on one of the connections. -/
theorem recorded_transactionsMayHaveFailed {transactionIds : List TransactionId}
    (hc : Recorded (transactionsMayHaveFailed s transactionIds).1 c) :
    Recorded s c ∧ c ∉ transactionIds := by
  obtain ⟨request, hmem, hrecord⟩ := hc
  obtain ⟨before, hbefore, rfl⟩ := List.mem_map.1 hmem
  dsimp only at hrecord
  split at hrecord
  · rw [recordOf_forgetTransaction] at hrecord
    cases hrecord
  · rename_i hconcerns
    refine ⟨⟨before, hbefore, hrecord⟩, ?_⟩
    intro hin
    apply hconcerns
    rw [show before.requestContext.bind (·.transactionId) = some c from hrecord]
    simpa using hin

theorem not_recorded_allTransactionsMayHaveFailed (s : Service ρ) (c : TransactionId) :
    ¬ Recorded (allTransactionsMayHaveFailed s).1 c := by
  rintro ⟨request, hmem, hrecord⟩
  obtain ⟨before, _, rfl⟩ := List.mem_map.1 hmem
  dsimp only at hrecord
  split at hrecord
  · rw [recordOf_forgetTransaction] at hrecord
    cases hrecord
  · rename_i hconcerns
    apply hconcerns
    rw [show before.requestContext.bind (·.transactionId) = some c from hrecord]
    rfl

/-- A completion with success records its connection for the requests of the
payload, and nothing else. -/
theorem recorded_reportService {sent : Sent} {payload : Nat} {ids : List Nat} {c c' : TransactionId}
    (hc : Recorded (reportService s sent payload ids (some c)) c') :
    Recorded s c' ∨ (c' = c ∧ ∃ request ∈ s.requests, ∃ id ∈ ids,
      sent.transaction.messageFor request = some id) := by
  obtain ⟨request, hmem, hrecord⟩ := hc
  obtain ⟨before, hbefore, rfl⟩ := List.mem_map.1 hmem
  unfold completeRequest at hrecord
  split at hrecord
  · exact .inl ⟨before, hbefore, hrecord⟩
  · rename_i id hid
    split at hrecord
    · rename_i hc''
      obtain ⟨hin, heq⟩ := Option.ite_none_right_eq_some.1 hc''
      refine .inr ⟨?_, before, hbefore, id, by simpa using hin, hid⟩
      rw [Option.some.inj heq]
      exact (Option.some.inj hrecord).symm
    · rw [recordOf_stopWaiting] at hrecord
      exact .inl ⟨before, hbefore, hrecord⟩

/-! ## Replacing the transport -/

theorem Inv.requestTransportTransaction (h : Inv w) :
    Inv (requestTransportTransaction w) := by
  unfold TransportQueues.requestTransportTransaction
  split
  · exact h
  · apply Inv.toManager
    · exact h.same ⟨rfl, rfl, rfl, rfl, rfl, rfl⟩ (fun _ hc => hc)
    · simp

theorem Inv.serve (h : Inv w) {result : Service ρ × List (Output ρ)}
    (hrecords : ∀ c, Recorded result.1 c → Recorded w.service c) : Inv (serve w result) := by
  have hserved : Inv { w with service := result.1 } :=
    h.same ⟨rfl, rfl, rfl, rfl, rfl, rfl⟩ hrecords
  unfold TransportQueues.serve
  split
  · exact hserved.requestTransportTransaction
  · exact hserved

theorem serve_eq (w : World ρ) (result : Service ρ × List (Output ρ)) :
    ∃ b managerQueue, serve w result = { w with
      service := result.1
      willRequestTransactionOnNextQueuePass := b
      managerQueue } := by
  unfold serve requestTransportTransaction
  dsimp only
  split
  · split
    · exact ⟨_, _, rfl⟩
    · exact ⟨_, _, rfl⟩
  · exact ⟨_, _, rfl⟩

theorem Core.inv (h : Core w) (hrecords : ∀ c, ¬ Recorded w.service c)
    (hfresh : ∀ T, w.transport = some T → w.lines[T]? = some (true, none) ∧
      .stop T ∉ w.transportQueue ∧ ∀ (c : TransactionId) (k : Connection),
        w.connections[c]? = some k → k.transport ≠ T) : Inv w := by
  have howned : ∀ c, ¬ Owned w c := by
    rintro c ⟨k, hk, hcurrent⟩
    exact (hfresh _ hcurrent).2.2 c k hk rfl
  refine { h with current := ?_, stopsOther := ?_, openHeld := ?_, closing := ?_,
                  completions := ?_, records := ?_ }
  · intro T hT
    exact ⟨none, (hfresh T hT).1⟩
  · intro T hstop hT
    exact (hfresh T hT).2.1 hstop
  · intro c k hk hcurrent
    exact absurd ⟨k, hk, hcurrent⟩ (howned c)
  · rintro c k ⟨T, d, hT, hline⟩
    rw [(hfresh T hT).1] at hline
    cases hline
  · have hall : ∀ q : List (ManagerBlock ρ), Trailed (Covered w) q := by
      intro q
      induction q with
      | nil => trivial
      | cons block q ih =>
        refine ⟨?_, ih⟩
        intro sent payload c _ hc
        exact absurd hc (howned c)
    exact hall w.managerQueue
  · intro c hc
    exact absurd hc (hrecords c)

theorem Core.toTransport (h : Core w) {block : TransportBlock}
    (hstop : ∀ T, block = .stop T → T < w.lines.length)
    (hclosed : ∀ T c, block ≠ .tcpConnectionClosed T c) : Core (w.toTransport block) := by
  refine { h with stopsKnown := ?_, closedBlocks := ?_ }
  · intro T hT
    rcases List.mem_append.1 hT with hT | hT
    · exact h.stopsKnown T hT
    · exact hstop T (List.mem_singleton.1 hT).symm
  · intro T c hc
    rcases List.mem_append.1 hc with hc | hc
    · exact h.closedBlocks T c hc
    · exact absurd (List.mem_singleton.1 hc).symm (hclosed T c)

/-- `setTransport:`, to a transport that was never used before. -/
theorem Core.setTransport (h : Core w)
    (hknown : ∀ T, w.transport = some T → T < w.lines.length) (transport : Option Nat)
    (hfresh : ∀ T, transport = some T → w.lines[T]? = some (true, none) ∧
      w.transport ≠ some T ∧ .stop T ∉ w.transportQueue ∧
      ∀ (c : TransactionId) (k : Connection), w.connections[c]? = some k → k.transport ≠ T) :
    Inv (setTransport w transport) := by
  obtain ⟨b, managerQueue, hserve⟩ := serve_eq w (allTransactionsMayHaveFailed w.service)
  have hnone := not_recorded_allTransactionsMayHaveFailed w.service
  unfold TransportQueues.setTransport
  rw [hserve]
  dsimp only
  split
  · refine Core.inv ⟨h.stopsKnown, h.owners, h.holders, h.closedBlocks, h.tcpKnown⟩ hnone ?_
    intro T hT
    obtain ⟨hline, _, hstop, howner⟩ := hfresh T hT
    exact ⟨hline, hstop, howner⟩
  · rename_i previousTransport hprevious
    have hprevious' : w.transport = some previousTransport := hprevious
    apply Core.inv
    · apply Core.toTransport
      · apply Core.toTransport
        · exact ⟨h.stopsKnown, h.owners, h.holders, h.closedBlocks, h.tcpKnown⟩
        · intro T hT
          cases hT
        · intro T c hblock
          cases hblock
      · intro T hT
        obtain rfl := TransportBlock.stop.inj hT
        exact hknown _ hprevious'
      · intro T c hblock
        cases hblock
    · exact hnone
    · intro T hT
      obtain ⟨hline, hother, hstop, howner⟩ := hfresh T hT
      refine ⟨hline, ?_, howner⟩
      intro hin
      simp only [World.toTransport, List.mem_append, List.mem_singleton, reduceCtorEq, or_false,
        TransportBlock.stop.injEq] at hin
      rcases hin with hin | rfl
      · exact hstop hin
      · exact hother hprevious'

theorem setTransport_transport (w : World ρ) (transport : Option Nat) :
    (setTransport w transport).transport = transport := by
  unfold setTransport
  dsimp only
  split <;> rfl

theorem Inv.known (h : Inv w) (hT : w.transport = some T) :
    T < w.lines.length := by
  obtain ⟨connection, hline⟩ := h.current T hT
  exact (List.getElem?_eq_some_iff.1 hline).1

theorem Inv.setTransport_none (h : Inv w) : Inv (setTransport w none) := by
  apply h.toCore.setTransport
  · intro T hT
    exact h.known hT
  · intro T hT
    cases hT

/-- Taking the delegate away changes no connection. -/
theorem Core.clearDelegate (h : Core w) (T : Nat) :
    Core (w.updateTransport T ({ · with delegate := false })) := by
  refine { h with stopsKnown := ?_, owners := ?_, holders := ?_ }
  · rw [length_lines_updateTransport]; exact h.stopsKnown
  · rw [length_lines_updateTransport]; exact h.owners
  · intro T' d c hline
    by_cases hne : T' = T
    · subst hne
      cases ht : w.transports[T']? with
      | none => simp [World.lines, World.updateTransport, ht] at hline
      | some t =>
        rw [lines_updateTransport_self _ ht] at hline
        obtain ⟨_, hc⟩ := Prod.mk.inj (Option.some.inj hline)
        exact h.holders T' t.delegate c ((line_of_transport ht).trans (by rw [← hc]))
    · rw [lines_updateTransport_of_ne w _ hne] at hline
      exact h.holders T' d c hline

theorem Inv.dropTransport (h : Inv w) :
    Inv (dropTransport w) ∧ (dropTransport w).transport = none := by
  unfold TransportQueues.dropTransport
  cases hT : w.transport with
  | none => exact ⟨h, hT⟩
  | some T =>
    refine ⟨?_, setTransport_transport _ _⟩
    apply Core.setTransport
    · apply (h.toCore.clearDelegate T).toTransport
      · intro T' hblock
        obtain rfl := TransportBlock.stop.inj hblock
        rw [length_lines_updateTransport]
        exact h.known hT
      · intro T' c hblock
        cases hblock
    · intro T' hT'
      show T' < (w.updateTransport T _).lines.length
      rw [length_lines_updateTransport]
      exact h.known hT'
    · intro T' hT'
      cases hT'

/-- One more transport, which is not the current one yet. -/
theorem Core.newTransport (h : Core w) :
    Core { w with transports := w.transports ++ [{}] } := by
  have hlines : ({ w with transports := w.transports ++ [{}] } : World ρ).lines =
      w.lines ++ [(true, none)] := by
    simp [World.lines]
  have hlength : ({ w with transports := w.transports ++ [{}] } : World ρ).lines.length =
      w.lines.length + 1 := by
    rw [hlines, List.length_append, List.length_singleton]
  refine { h with stopsKnown := ?_, owners := ?_, holders := ?_ }
  · intro T hT
    rw [hlength]
    exact Nat.lt_succ_of_lt (h.stopsKnown T hT)
  · intro c k hk
    rw [hlength]
    exact Nat.lt_succ_of_lt (h.owners c k hk)
  · intro T d c hline
    rw [hlines] at hline
    rcases Nat.lt_or_ge T w.lines.length with hlt | hge
    · rw [List.getElem?_append_left hlt] at hline
      exact h.holders T d c hline
    · grind

theorem Inv.resetTransport (h : Inv w) (createsTransport : Bool) :
    Inv (resetTransport w createsTransport) := by
  obtain ⟨hdrop, hnone⟩ := h.dropTransport
  unfold TransportQueues.resetTransport
  dsimp only
  split
  · have hlength : (TransportQueues.dropTransport w).transports.length =
        (TransportQueues.dropTransport w).lines.length := by
      simp [World.lines]
    apply hdrop.toCore.newTransport.setTransport
    · grind
    · intro T hT
      obtain rfl := Option.some.inj hT
      refine ⟨by simp [World.lines], ?_, ?_, ?_⟩
      · grind
      · intro hstop
        have hlt := hdrop.stopsKnown _ hstop
        omega
      · intro c k hk heq
        have hlt := hdrop.owners c k hk
        omega
  · exact hdrop

/-! ## The blocks of the manager queue -/

/-- A block of the transport queue that neither stops nor closes. -/
theorem Inv.toTransport_ready (h : Inv w) (T : Nat) (transactionList : List (Sent × Nat)) :
    Inv (w.toTransport (.transactionReady T transactionList)) :=
  h.toTransport (by simp) (by simp)

theorem Inv.transactionPass (h : Inv w) (createsTransport : Bool) :
    Inv (transactionPass w createsTransport) := by
  have hcleared : Inv { w with willRequestTransactionOnNextQueuePass := false } :=
    h.same ⟨rfl, rfl, rfl, rfl, rfl, rfl⟩ (fun _ hc => hc)
  unfold TransportQueues.transactionPass
  generalize ({ w with willRequestTransactionOnNextQueuePass := false } : World ρ) = w₁
    at hcleared ⊢
  have hthere : Inv (if w₁.transport = none then TransportQueues.resetTransport w₁ createsTransport
      else w₁) := by
    split
    · exact hcleared.resetTransport createsTransport
    · exact hcleared
  dsimp only
  split
  · exact hcleared
  · split
    · exact hthere
    · exact hthere.toTransport (by simp) (by simp)

theorem Inv.resetSessionInfo (h : Inv w) (createsTransport : Bool) :
    Inv (resetSessionInfo w createsTransport) := by
  unfold TransportQueues.resetSessionInfo
  apply Inv.requestTransportTransaction
  apply Inv.resetTransport
  apply Inv.serve
  · exact h.same ⟨rfl, rfl, rfl, rfl, rfl, rfl⟩ (fun _ hc => hc)
  · intro c hc
    exact recorded_didChangeSession hc

theorem Inv.readyForTransaction (h : Inv w) (T : Nat) (around : Surroundings) :
    Inv (readyForTransaction w T around) := by
  unfold TransportQueues.readyForTransaction
  split
  · exact h.toTransport_ready T []
  · split
    · exact h.toTransport_ready T []
    · dsimp only
      generalize hready : transportReadyForTransaction _ _ _ _ _ = ready
      obtain ⟨preparedMessages, outcome, info⟩ := ready
      have hprepared : ∀ (s : Service ρ) t preparedMessages,
          s.requests = w.service.requests →
          ∀ c, Recorded (prepared s t preparedMessages) c → Recorded w.service c := by
        intro s t preparedMessages hs c hc
        have hs' := recorded_prepared hc
        unfold Recorded at hs' ⊢
        rw [← hs]
        exact hs'
      have hrequests := mtProtoMessageTransaction_requests w.service around.currentTime
      have habandoned : ∀ s t preparedMessages info, s.requests = w.service.requests →
          Inv { w with
            service := completion (prepared s t preparedMessages) t (fun _ => none)
              (fun _ => none) (fun _ => none)
            info } := by
        intro s t preparedMessages info hs
        refine h.same ⟨rfl, rfl, rfl, rfl, rfl, rfl⟩ ?_
        intro c hc
        exact hprepared s t preparedMessages hs c (recorded_completion_none hc)
      split
      · apply Inv.resetSessionInfo
        apply Inv.toTransport_ready
        exact habandoned _ _ _ _ hrequests
      · apply Inv.toTransport_ready
        exact habandoned _ _ _ _ hrequests
      · apply Inv.toTransport_ready
        exact habandoned _ _ _ _ hrequests
      · apply Inv.toTransport_ready
        refine h.same ⟨rfl, rfl, rfl, rfl, rfl, rfl⟩ ?_
        exact hprepared _ _ _ hrequests

theorem Inv.runCall (h : Inv w) (around : Surroundings) (call : Call ρ) :
    Inv (runCall w around call) := by
  have hpaused : ∀ paused, Inv { w with paused } := by
    intro paused
    exact h.same ⟨rfl, rfl, rfl, rfl, rfl, rfl⟩ (fun _ hc => hc)
  cases call with
  | addRequest request => exact h.serve (fun _ hc => recorded_addRequest hc)
  | messageDeliveryConfirmed messageIds =>
    exact h.serve (fun _ hc => recorded_messageDeliveryConfirmed hc)
  | requestTransportTransaction => exact h.requestTransportTransaction
  | requestSecureTransportReset =>
    simp only [TransportQueues.runCall]
    split
    · exact h
    · exact h.toTransport (by simp) (by simp)
  | resetTransport => exact h.resetTransport around.createsTransport
  | pause =>
    simp only [TransportQueues.runCall]
    split
    · exact h
    · exact (hpaused true).setTransport_none
  | resume =>
    simp only [TransportQueues.runCall]
    split
    · exact ((hpaused false).resetTransport around.createsTransport).requestTransportTransaction
    · exact h

/-- The head of the manager queue, unless it is a completion or a notice. -/
theorem Inv.popManager_plain (h : Inv w) {block : ManagerBlock ρ}
    (hqueue : w.managerQueue = block :: managerQueue)
    (hblock : ∀ transactionIds, block ≠ .transactionsMayHaveFailed transactionIds) :
    Inv { w with managerQueue } := by
  apply h.popManager hqueue w.service
  intro c hc
  apply h.records_behind hqueue _ hc
  intro transactionIds heq
  exact absurd heq (hblock transactionIds)

/-- The completion of a payload.  A success makes a record, and the guard says
what the record rests on. -/
theorem Inv.payloadCompletion (h : Inv w) {sent : Sent} {payload : Nat}
    {transactionId : Option TransactionId}
    (hqueue : w.managerQueue = .payloadCompletion sent payload transactionId :: managerQueue)
    (hguard : ∀ c, transactionId = some c → Carries w sent payload →
      Owned w c ∨ ReportPending { w with managerQueue } c) :
    Inv (payloadCompletion { w with managerQueue } sent payload transactionId) := by
  apply h.popManager hqueue
  intro c hc
  have hbehind : Recorded w.service c → Held w c ∨ ReportPending { w with managerQueue } c := by
    apply h.records_behind hqueue
    intro transactionIds heq
    cases heq
  cases transactionId with
  | none => exact hbehind (recorded_completion_none hc)
  | some c' =>
    rcases recorded_reportService hc with hc | ⟨rfl, hcarries⟩
    · exact hbehind hc
    · rcases hguard c rfl hcarries with howned | hpending
      · have hall := h.completions
        rw [hqueue] at hall
        exact (hall.head sent payload c rfl howned).imp_right .inl
      · exact .inr hpending

theorem Inv.runManager (h : Inv w) (around : Surroundings)
    (hguard : Punctual w (.runManager around)) : Inv (step w (.runManager around)) := by
  unfold Punctual at hguard
  unfold step
  dsimp only at hguard ⊢
  cases hqueue : w.managerQueue with
  | nil => exact h
  | cons block managerQueue =>
    rw [hqueue] at hguard
    cases block with
    | call call =>
      exact (h.popManager_plain hqueue (by simp)).runCall around call
    | transactionPass =>
      exact (h.popManager_plain hqueue (by simp)).transactionPass around.createsTransport
    | transportReadyForTransaction T =>
      exact (h.popManager_plain hqueue (by simp)).readyForTransaction T around
    | payloadCompletion sent payload transactionId =>
      apply h.payloadCompletion hqueue
      rintro c rfl
      exact hguard
    | transactionsMayHaveFailed transactionIds =>
      have hfailed : ∀ c, Recorded (transactionsMayHaveFailed w.service transactionIds).1 c →
          Held w c ∨ ReportPending { w with managerQueue } c := by
        intro c hc
        obtain ⟨hc, hnot⟩ := recorded_transactionsMayHaveFailed hc
        apply h.records_behind hqueue _ hc
        intro transactionIds' heq
        rw [← ManagerBlock.transactionsMayHaveFailed.inj heq]
        exact hnot
      exact (h.popManager hqueue _ hfailed).serve (fun _ hc => hc)

/-! ## The blocks of the transport queue -/

theorem Inv.requestTransactionFromDelegate (h : Inv w) (T : Nat)
    (lockExpired : Bool) : Inv (requestTransactionFromDelegate w T lockExpired) := by
  unfold TransportQueues.requestTransactionFromDelegate
  split
  · exact h
  · split
    · exact h.updateTransport T (fun _ _ => ⟨rfl, rfl⟩)
    · split
      · apply Inv.toManager
        · exact h.updateTransport T (fun _ _ => ⟨rfl, rfl⟩)
        · simp
      · exact h.updateTransport T (fun _ _ => ⟨rfl, rfl⟩)

theorem Inv.acceptTransactions (connection : Option TransactionId)
    (transactionList : List (Sent × Nat)) :
    ∀ {w : World ρ}, Inv w → Inv (transactionList.foldl (acceptTransaction connection) w) := by
  induction transactionList with
  | nil => intro w h; exact h
  | cons transaction transactionList ih =>
    intro w h
    apply ih
    unfold acceptTransaction
    cases connection with
    | some connection => exact h.toTcp (by simp)
    | none => exact h.toManager (by simp)

theorem Inv.transactionReady (h : Inv w) (T : Nat) (t : Transport)
    (transactionList : List (Sent × Nat)) (lockExpired : Bool) :
    Inv (transactionReady w T t transactionList lockExpired) := by
  have hdone := (Inv.acceptTransactions t.connection transactionList h).updateTransport T
    (f := ({ · with
      isWaitingForTransactionToBecomeReady := false
      requestAnotherTransactionWhenReady := false })) (fun _ _ => ⟨rfl, rfl⟩)
  unfold TransportQueues.transactionReady
  split
  · exact hdone.requestTransactionFromDelegate T lockExpired
  · exact hdone

section NoticeFailure

variable (w : World ρ) (delegate : Bool) (c : TransactionId)

@[simp] theorem noticeFailure_lines : (noticeFailure w delegate c).lines = w.lines := by
  unfold noticeFailure
  split <;> rfl

@[simp] theorem noticeFailure_transport :
    (noticeFailure w delegate c).transport = w.transport := by
  unfold noticeFailure
  split <;> rfl

@[simp] theorem noticeFailure_connections :
    (noticeFailure w delegate c).connections = w.connections := by
  unfold noticeFailure
  split <;> rfl

@[simp] theorem noticeFailure_transportQueue :
    (noticeFailure w delegate c).transportQueue = w.transportQueue := by
  unfold noticeFailure
  split <;> rfl

theorem noticeFailure_comm {g : World ρ → World ρ}
    (hg : ∀ w block, g (w.toManager block) = (g w).toManager block) :
    noticeFailure (g w) delegate c = g (noticeFailure w delegate c) := by
  unfold noticeFailure
  split
  · exact (hg w _).symm
  · rfl

end NoticeFailure

theorem requestsReconnection_toManager (T : Nat) (w : World ρ) (block : ManagerBlock ρ) :
    requestsReconnection (w.toManager block) T =
      (requestsReconnection w T).toManager block := by
  have htransports : (w.toManager block).transports = w.transports := rfl
  unfold requestsReconnection
  rw [htransports]
  split
  · rfl
  · rename_i t _
    split
    · rfl
    · unfold startIfNeeded
      cases t.connection <;> rfl

section TransportBlocks

variable (h : Inv w) {block : TransportBlock} {transportQueue : List TransportBlock}
  (hqueue : w.transportQueue = block :: transportQueue)

include h hqueue in
theorem Inv.popTransport_done
    (hdone : ∀ d c, block.Reports c → w.lines[block.transport]? ≠ some (d, some c)) :
    Inv { w with transportQueue } := by
  apply h.popTransport hqueue
  · intro c hreports hline
    exact absurd hline (hdone true c hreports)
  · rintro T d c rfl
    exact hdone d c rfl

variable (hT : block.transport = T) (ht : w.transports[T]? = some t)

include h hqueue hT ht in
theorem Inv.popTransport_without (hnone : t.connection = none) :
    Inv { w with transportQueue } := by
  apply h.popTransport_done hqueue
  intro d c _
  rw [hT, line_of_transport ht, hnone]
  simp

include h hqueue hT ht in
/-- The transport lets its connection go in this block. -/
theorem Inv.popTransport_release (hc : t.connection = some c)
    {f : Transport → Transport} (hdelegate : ∀ t, (f t).delegate = t.delegate)
    (hconnection : ∀ t, (f t).connection = none)
    (hclosed : w.transport = some T → ∃ k, w.connections[c]? = some k ∧ k.closed = true) :
    Inv ((noticeFailure ({ w with transportQueue }.updateTransport T f) t.delegate c).toTcp
      (.clearDelegate c)) := by
  have hrelease := h.release ht hc hdelegate hconnection hclosed
  have hpop : Inv (noticeFailure ({ w with transportQueue }.updateTransport T f) t.delegate c) := by
    have hcomm : noticeFailure ({ w with transportQueue }.updateTransport T f) t.delegate c =
        { noticeFailure (w.updateTransport T f) t.delegate c with transportQueue } :=
      noticeFailure_comm (w.updateTransport T f) t.delegate c
        (g := fun w => { w with transportQueue }) (fun _ _ => rfl)
    rw [hcomm]
    apply hrelease.popTransport_done
    · rw [noticeFailure_transportQueue]
      exact hqueue
    · intro d c' _
      rw [hT, noticeFailure_lines, lines_updateTransport_self f ht, hconnection]
      simp
  apply hpop.toTcp
  intro c' hblock
  obtain rfl := TcpBlock.clearDelegate.inj hblock
  obtain ⟨k, hk, howner⟩ := h.holders T t.delegate c (by rw [line_of_transport ht, hc])
  rw [noticeFailure_connections, noticeFailure_transport]
  refine ⟨k, hk, ?_⟩
  intro hcurrent
  rw [howner] at hcurrent
  obtain ⟨k', hk', hk'closed⟩ := hclosed hcurrent
  rw [Option.some.inj (hk.symm.trans hk')]
  exact hk'closed

include h hqueue in
theorem Inv.popTransport_plain (hblock : ∀ c, ¬ block.Reports c) :
    Inv { w with transportQueue } := by
  apply h.popTransport_done hqueue
  intro d c hreports
  exact absurd hreports (hblock c)

end TransportBlocks

theorem Inv.activeTransactionIds (h : Inv w) (timing : Timing)
    {transportQueue : List TransportBlock}
    (hqueue : w.transportQueue = .activeTransactionIds T :: transportQueue)
    (ht : w.transports[T]? = some t) :
    Inv (runTransportBlock { w with transportQueue } timing (.activeTransactionIds T) T t) := by
  unfold runTransportBlock
  dsimp only
  split
  · rename_i c hc
    have hnotice : Inv (w.toManager (.transactionsMayHaveFailed [c])) := h.toManager (by simp)
    apply hnotice.popTransport hqueue
    · intro c' _ hline
      have hline' : w.lines[T]? = some (true, some c') := hline
      rw [line_of_transport ht, hc] at hline'
      obtain ⟨_, heq⟩ := Prod.mk.inj (Option.some.inj hline')
      rw [Option.some.inj heq]
      exact ⟨[c'], by simp [World.toManager], List.mem_singleton.2 rfl⟩
    · intro T' d c' hblock
      cases hblock
  · rename_i hnone
    exact h.popTransport_without hqueue rfl ht hnone

theorem Inv.stopTransport (h : Inv w)
    {transportQueue : List TransportBlock}
    (hqueue : w.transportQueue = .stop T :: transportQueue) (ht : w.transports[T]? = some t) :
    Inv (stopTransport { w with transportQueue } T t) := by
  unfold TransportQueues.stopTransport
  dsimp only
  split
  · rename_i hnone
    apply (h.popTransport_without hqueue rfl ht hnone).updateTransport
    intro t' ht'
    rw [Option.some.inj (ht'.symm.trans ht)]
    exact ⟨rfl, hnone.symm⟩
  · rename_i c hc
    have hother : w.transport ≠ some T := by
      apply h.stopsOther
      rw [hqueue]
      exact .head _
    rw [← noticeFailure_comm (g := fun w => w.updateTransport T _) _ _ _ (fun _ _ => rfl)]
    apply Inv.toTcp
    · exact h.popTransport_release hqueue rfl ht hc (fun _ => rfl) (fun _ => rfl)
        (fun hT => absurd hT hother)
    · simp

theorem Inv.connectionClosed (h : Inv w)
    {transportQueue : List TransportBlock}
    (hqueue : w.transportQueue = .tcpConnectionClosed T c :: transportQueue)
    (ht : w.transports[T]? = some t) (reconnectsAtOnce : Bool) :
    Inv (connectionClosed { w with transportQueue } T t c reconnectsAtOnce) := by
  unfold TransportQueues.connectionClosed
  split
  · rename_i hc
    dsimp only
    have hclosed : ∃ k, w.connections[c]? = some k ∧ k.closed = true := by
      apply h.closedBlocks T c
      rw [hqueue]
      exact .head _
    have hreleased := h.popTransport_release hqueue rfl ht hc
      (f := ({ · with connectionConnected := false, connection := none }))
      (fun _ => rfl) (fun _ => rfl) (fun _ => hclosed)
    rw [noticeFailure_comm (g := fun w => w.updateTransport T _) _ _ _ (fun _ _ => rfl)]
    apply Inv.updateTransport
    · cases reconnectsAtOnce with
      | true =>
        rw [if_pos rfl, noticeFailure_comm (g := (TransportQueues.requestsReconnection · T)) _ _ _
          (requestsReconnection_toManager T)]
        apply Inv.requestsReconnection
        rw [noticeFailure_comm (g := fun w => w.toTcp _) _ _ _ (fun _ _ => rfl)]
        exact hreleased
      | false =>
        rw [if_neg (by simp), noticeFailure_comm (g := fun w => w.toTcp _) _ _ _
          (fun _ _ => rfl)]
        exact hreleased
    · intro _ _
      exact ⟨rfl, rfl⟩
  · rename_i hc
    apply h.popTransport_done hqueue
    intro d c' hreports
    obtain rfl : c = c' := hreports
    intro hline
    have hline' : w.lines[T]? = some (d, some c) := hline
    rw [line_of_transport ht] at hline'
    exact hc (Prod.mk.inj (Option.some.inj hline')).2

theorem Inv.runTransport (h : Inv w) (timing : Timing) :
    Inv (step w (.runTransport timing)) := by
  unfold step
  dsimp only
  cases hqueue : w.transportQueue with
  | nil => exact h
  | cons block transportQueue =>
    dsimp only
    cases ht : w.transports[block.transport]? with
    | none =>
      apply h.popTransport_done hqueue
      intro d c _
      simp [World.lines, ht]
    | some t =>
      dsimp only
      cases block with
      | activeTransactionIds T => exact h.activeTransactionIds timing hqueue ht
      | stop T => exact h.stopTransport hqueue ht
      | tcpConnectionClosed T c => exact h.connectionClosed hqueue ht timing.reconnectsAtOnce
      | reset T =>
        have hpop := h.popTransport_plain hqueue (by simp [TransportBlock.Reports])
        simp only [runTransportBlock]
        split
        · exact hpop.toTcp (by simp)
        · exact hpop
      | setDelegateNeedsTransaction T =>
        have hpop := h.popTransport_plain hqueue (by simp [TransportBlock.Reports])
        simp only [runTransportBlock]
        split
        · exact hpop
        · apply Inv.toTransport
          · exact hpop.updateTransport _ (fun _ _ => ⟨rfl, rfl⟩)
          · simp
          · simp
      | transactionPass T =>
        have hpop := h.popTransport_plain hqueue (by simp [TransportBlock.Reports])
        have hcleared := hpop.updateTransport T (f := ({ · with
          willRequestTransactionOnNextQueuePass := false })) (fun _ _ => ⟨rfl, rfl⟩)
        simp only [runTransportBlock]
        split
        · split
          · exact hcleared
          · exact hcleared.requestsReconnection T
        · split
          · exact hcleared.requestTransactionFromDelegate T timing.lockExpired
          · exact hcleared
      | transactionReady T transactionList =>
        have hpop := h.popTransport_plain hqueue (by simp [TransportBlock.Reports])
        exact hpop.transactionReady T t transactionList timing.lockExpired
      | tcpConnectionOpened T c =>
        have hpop := h.popTransport_plain hqueue (by simp [TransportBlock.Reports])
        simp only [runTransportBlock]
        split
        · apply Inv.requestTransactionFromDelegate
          exact hpop.updateTransport _ (fun _ _ => ⟨rfl, rfl⟩)
        · exact hpop
      | reconnectionTimer T =>
        have hpop := h.popTransport_plain hqueue (by simp [TransportBlock.Reports])
        exact hpop.requestsReconnection T

/-! ## The blocks of the connection queue -/

theorem Inv.runTcp (h : Inv w) (connects : Bool) :
    Inv (step w (.runTcp connects)) := by
  unfold step
  dsimp only
  cases hqueue : w.tcpQueue with
  | nil => exact h
  | cons block tcpQueue =>
    have hpop := h.popTcp hqueue
    dsimp only
    cases hk : w.connections[block.connection]? with
    | none => exact hpop
    | some k =>
      dsimp only
      cases block with
      | clearDelegate c =>
        have hcleared : Inv (w.updateConnection c ({ · with delegate := false })) := by
          apply h.updateConnection_open hk rfl rfl
          intro hcurrent hopen
          have hno := (h.openHeld c k hk hcurrent hopen).2.2
          rw [hqueue] at hno
          exact absurd (List.mem_cons_self ..) hno
        exact hcleared.popTcp hqueue
      | start c =>
        simp only [runTcpBlock]
        split
        · exact hpop
        · have hstarted : Inv ({ w with tcpQueue }.updateConnection c
              ({ · with socket := true })) := by
            apply hpop.updateConnection_open hk rfl rfl
            intro hcurrent hopen
            exact (hpop.openHeld c k hk hcurrent hopen).2.1
          split
          · exact hstarted
          · apply hstarted.closeAndNotify
            have hk' : w.connections[c]? = some k := hk
            simp [World.updateConnection, hk', TcpBlock.connection]
      | stop c => exact hpop.closeAndNotify hk
      | socketDidDisconnect c => exact hpop.closeAndNotify hk
      | sendDatas c sent payload =>
        apply hpop.toManager
        intro sent' payload' c' hblock howned
        obtain ⟨_, _, hsome⟩ := ManagerBlock.payloadCompletion.inj hblock
        obtain ⟨hconditions, heq⟩ := Option.ite_none_right_eq_some.1 hsome
        obtain rfl := Option.some.inj heq
        obtain ⟨k', hk', hcurrent⟩ := howned
        obtain rfl := Option.some.inj (hk.symm.trans hk')
        have hopen : k.closed = false := by
          simp only [Bool.and_eq_true, Bool.not_eq_true'] at hconditions
          exact hconditions.1
        exact (hpop.openHeld _ k hk hcurrent hopen).1
      | didConnectToHost c =>
        simp only [runTcpBlock]
        split
        · exact hpop.toTransport (by simp) (by simp)
        · exact hpop

theorem Inv.step (h : Inv w) (event : Event ρ) (hguard : Punctual w event) :
    Inv (step w event) := by
  cases event with
  | call call => exact h.toManager (by simp)
  | timer T => exact h.toTransport (by simp) (by simp)
  | opens c => exact h.toTcp (by simp)
  | closes c => exact h.toTcp (by simp)
  | runManager around => exact h.runManager around hguard
  | runTransport timing => exact h.runTransport timing
  | runTcp connects => exact h.runTcp connects

/-- In a run in which no successful completion comes too late, no state with
empty queues has a request that is recorded on a dead connection. -/
theorem none_stranded (es : List (Event ρ)) (hguard : Guarded step Punctual ({} : World ρ) es)
    (es₁ es₂ : List (Event ρ)) (hsplit : es = es₁ ++ es₂) : NoneStranded (run step {} es₁) := by
  subst hsplit
  have hguard₁ := ((guarded_append step Punctual es₁ es₂ {}).1 hguard).1
  have hinv : Inv (run step ({} : World ρ) es₁) := by
    refine guarded_invariant ?_ es₁ _ hguard₁ inv_start
    intro w event hg h
    exact h.step event hg
  exact hinv.noneStranded

def sampleAround : Surroundings where
  createsTransport := true
  canAskForTransactions := true
  options := {}
  currentTime := 0
  readings := fun k => 1000 + 4 * k
  containerReadings := fun k => 2000 + 4 * k
  others := []
  quickAckIds := fun _ => 0

def sampleTiming : Timing := ⟨false, false, false⟩

/-- A request is added, the first transport is made and connects, and the request
is handed to the connection. -/
def sendEvents : List (Event Unit) :=
  [ .call (.addRequest ⟨sampleRequest 1 false, rfl⟩), .runManager sampleAround,
    .runManager sampleAround, .runTransport sampleTiming, .runTransport sampleTiming,
    .runTcp true, .opens 0, .runTcp true, .runTransport sampleTiming,
    .runManager sampleAround, .runTransport sampleTiming ]

/-- The connection takes the data and the completion runs. -/
def inTimeEvents : List (Event Unit) := [.runTcp true, .runManager sampleAround]

/-- `resetTransport` is called before the connection takes the data, and its block
runs before the completion. -/
def lateEvents : List (Event Unit) :=
  [ .call .resetTransport, .runTcp true, .runManager sampleAround, .runManager sampleAround,
    .runTransport sampleTiming, .runTransport sampleTiming, .runTransport sampleTiming,
    .runTcp true, .runTcp true ]

/-- The completion in time: at the end the queues are empty, and the request is
recorded on the live connection. -/
theorem none_stranded_in_time :
    Guarded step Punctual ({} : World Unit) (sendEvents ++ inTimeEvents) ∧
      (run step ({} : World Unit) (sendEvents ++ inTimeEvents)).service.requests.map recordOf =
        [some 0] ∧
      Live (run step ({} : World Unit) (sendEvents ++ inTimeEvents)) 0 := by
  have hguard : Guarded step Punctual ({} : World Unit) (sendEvents ++ inTimeEvents) := by
    refine ⟨trivial, trivial, trivial, trivial, trivial, trivial, trivial, trivial, trivial,
      trivial, trivial, trivial, ?_, trivial⟩
    intro _
    exact .inl ⟨_, rfl, rfl⟩
  have hnone := none_stranded _ hguard (sendEvents ++ inTimeEvents) [] (List.append_nil _).symm
  exact ⟨hguard, rfl, hnone rfl rfl rfl _ (List.mem_singleton.2 rfl) _ rfl rfl 0 rfl⟩

/-- The completion that comes late: with all queues empty the request is recorded
on a connection that the current transport does not have. -/
theorem late_completion_strands :
    ¬ NoneStranded (run step ({} : World Unit) (sendEvents ++ lateEvents)) := by
  intro hnone
  obtain ⟨T, t, k, hT, ht, hc, _, _⟩ :=
    hnone rfl rfl rfl _ (List.mem_singleton.2 rfl) _ rfl rfl 0 rfl
  have hT' : some 1 = some T := hT
  obtain rfl := Option.some.inj hT'
  have ht' : some t.connection = some none := congrArg (Option.map Transport.connection) ht.symm
  rw [hc] at ht'
  cases ht'

end TelegramPub.Ports.TransportQueues
