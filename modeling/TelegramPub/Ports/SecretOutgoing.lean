import Mathlib.Data.List.Sort
import TelegramPub.Ports.SecretKeys
import TelegramPub.Verified.Machine
import TelegramPub.Verified.RowTable

/-!
# TGSecretOutgoingQueueActor: the outgoing actions of a secret chat

An outgoing action is a row of a table until the peer has confirmed it.  An action of layer
17 or higher gets the next number; any other is stored with the number 0.  `_poll` reads the
rows whose number is above the one that was sent last, and on the stage queue makes a
request of each, unless its id is among the ids of requests that are being executed.  When
the peer asks for a range of numbers again, the rows of the range are copied to a second
table, which every poll reads too.

The machine of this module has a step for each thing that can happen to one chat.  Beside
the stored state it remembers what has been enqueued, requested and accepted.
`WellNumbered` is what holds in every run.
-/

namespace TelegramPub.Ports.SecretOutgoing

open Verified Ports.SecretKeys

variable {δ κ : Type}

/-- A `TGStoredOutgoingMessageSecretAction`, or a
`TGStoredOutgoingServiceMessageSecretAction`. -/
inductive ActionKind where
  | message
  | serviceMessage
  deriving DecidableEq

/-- What is stored of an outgoing action. -/
structure OutgoingAction (δ : Type) where
  kind : ActionKind
  randomId : Int
  layer : Nat
  keyId : Int
  data : δ
  deriving DecidableEq

/-- A row of one of the two tables. -/
structure OutgoingRow (δ : Type) where
  seqOut : Int
  seqIn : Int
  action : OutgoingAction δ
  deriving DecidableEq

/-- The stored state of a chat. -/
structure Stored (δ : Type) where
  outgoing : RowTable (OutgoingRow δ)
  outgoingResend : RowTable (OutgoingRow δ)
  /-- An `int32_t`; a chat has fewer than `2 ^ 31` messages. -/
  nextSeqOut : Int
  seqIn : Int
  sentSeqOut : Int
  peerLayer : Nat

/-- `enqueuePeerOutgoingAction:`; every caller uses a number from layer 17 on. -/
def Stored.enqueuePeerOutgoingAction (db : Stored δ) (action : OutgoingAction δ) : Stored δ :=
  if 17 ≤ action.layer then
    { db with
      outgoing := db.outgoing.insert { seqOut := db.nextSeqOut, seqIn := db.seqIn, action }
      nextSeqOut := db.nextSeqOut + 1 }
  else
    { db with outgoing := db.outgoing.insert { seqOut := 0, seqIn := 0, action } }

/-- What `dequeuePeerOutgoingActions` hands to its completion. -/
structure Dequeued (δ : Type) where
  actions : List (Row (OutgoingRow δ))
  resendActions : List (Row (OutgoingRow δ))

/-- The number that only later actions are read behind. -/
def Stored.readBehind (db : Stored δ) : Int := if db.peerLayer < 17 then -1 else db.sentSeqOut

def Stored.dequeuePeerOutgoingActions (db : Stored δ) : Dequeued δ where
  actions := db.outgoing.rows.filter (fun r => db.readBehind < r.value.seqOut)
  resendActions := db.outgoingResend.rows

/-- The stored actions with a number in a range. -/
def Stored.actionsInRange (db : Stored δ) (fromSeq toSeq : Int) : List (OutgoingRow δ) :=
  ((db.outgoing.rows.map (·.value)).filter fun a =>
    fromSeq ≤ a.seqOut ∧ a.seqOut ≤ toSeq).insertionSort fun a b => a.seqOut ≤ b.seqOut

/-- `enqueuePeerOutgoingResendActions:fromSeq:toSeq:`. -/
def Stored.enqueuePeerOutgoingResendActions (db : Stored δ) (fromSeq toSeq : Int) : Stored δ :=
  { db with outgoingResend := db.outgoingResend.insertAll (db.actionsInRange fromSeq toSeq) }

def Stored.applyPeerSeqOut (db : Stored δ) (seqOut : Int) : Stored δ :=
  { db with sentSeqOut := seqOut }

def Stored.confirmPeerSeqOut (db : Stored δ) (seqOut : Int) : Stored δ :=
  { db with outgoing := db.outgoing.deleteWhere fun r => r.value.seqOut ≤ seqOut }

def Stored.deletePeerOutgoingActions (db : Stored δ) (actionIds : List Nat) : Stored δ :=
  { db with outgoing := db.outgoing.deleteIds actionIds }

def Stored.deletePeerOutgoingResendActions (db : Stored δ) (actionIds : List Nat) : Stored δ :=
  { db with outgoingResend := db.outgoingResend.deleteIds actionIds }

/-- A `TGSecretOutgoingRequest`, and what it carries: the number of the chat that goes into
the header, the key that was found, the text, and whether an actor waited for the action. -/
structure Request (δ κ : Type) where
  actionId : Nat
  isResend : Bool
  seqOut : Int
  layer : Nat
  seqIn : Int
  key : Option (KeyData κ)
  actionData : Option δ
  waited : Bool

/-- `requestForAction:actionId:seqIn:seqOut:isResend:`.  The text of a message is replaced by
its deletion if no actor waits for the action. -/
def requestForAction (deleteMessages : Nat → Int → Option δ) (keys : List (KeyData κ))
    (waitsForActionWithId : Nat → Bool) (r : Row (OutgoingRow δ)) (isResend : Bool) :
    Request δ κ where
  actionId := r.id
  isResend := isResend
  seqOut := if 17 ≤ r.value.action.layer then r.value.seqOut else -1
  layer := r.value.action.layer
  seqIn := r.value.seqIn
  key := encryptionKeyForConversationId keys r.value.action.keyId
  actionData :=
    match r.value.action.kind with
    | .serviceMessage => some r.value.action.data
    | .message =>
      if waitsForActionWithId r.id then some r.value.action.data
      else deleteMessages r.value.action.layer r.value.action.randomId
  waited := waitsForActionWithId r.id

/-- `actionCompletedWithId:`. -/
def Stored.actionCompletedWithId (db : Stored δ) (q : Request δ κ) : Stored δ :=
  if q.isResend then db.deletePeerOutgoingResendActions [q.actionId]
  else if 0 ≤ q.seqOut ∧ 17 ≤ q.layer then db.applyPeerSeqOut q.seqOut
  else db.deletePeerOutgoingActions [q.actionId]

/-- A client of the chat: what is stored, the keys, the reads that wait on the stage queue,
the ids that are being executed, and the requests on their way.  Then what has happened: all
numbered rows, all copies in the second table, the ids of the accepted actions, the reads
that have been worked off, all requests, and those that have not failed since the last
start. -/
structure Client (δ κ : Type) where
  db : Stored δ
  keys : List (KeyData κ)
  waiting : List (Dequeued δ)
  executingRequestsActionIds : List Nat
  inFlight : List (Request δ κ)
  numbered : List (Row (OutgoingRow δ))
  copied : RowTable (OutgoingRow δ)
  accepted : List Nat
  worked : List (Dequeued δ)
  requests : List (Request δ κ)
  outstanding : List (Request δ κ)

/-- What can happen to a chat.  `applySeqIn` and `confirm` come from the incoming queue, and
`setKeys` from a rekeying. -/
inductive Event (δ κ : Type) where
  | enqueue (action : OutgoingAction δ)
  | resendRequested (fromSeq toSeq : Int)
  | dequeue
  | poll (waitsForActionWithId : Nat → Bool)
  | completed (index : Nat)
  | failed (index : Nat)
  | restart
  | setPeerLayer (layer : Nat)
  | setKeys (keys : List (KeyData κ))
  | applySeqIn (seqIn : Int)
  | confirm (maxSeqIn : Int)

def Client.initial : Client δ κ where
  db :=
    { outgoing := RowTable.empty, outgoingResend := RowTable.empty, nextSeqOut := 0, seqIn := 0
      sentSeqOut := -1, peerLayer := 1 }
  keys := []
  waiting := []
  executingRequestsActionIds := []
  inFlight := []
  numbered := []
  copied := RowTable.empty
  accepted := []
  worked := []
  requests := []
  outstanding := []

section Steps

variable (deleteMessages : Nat → Int → Option δ)

/-- The requests that a poll makes of what has been read. -/
def Client.newRequests (s : Client δ κ) (waitsForActionWithId : Nat → Bool)
    (d : Dequeued δ) : List (Request δ κ) :=
  (d.actions.map (·, false) ++ d.resendActions.map (·, true)).filterMap fun (r, isResend) =>
    if s.executingRequestsActionIds.contains r.id then none
    else some (requestForAction deleteMessages s.keys waitsForActionWithId r isResend)

def Client.enqueue (s : Client δ κ) (action : OutgoingAction δ) : Client δ κ :=
  { s with
    db := s.db.enqueuePeerOutgoingAction action
    numbered :=
      if 17 ≤ action.layer then
        s.numbered ++ [⟨s.db.outgoing.lastId + 1,
          { seqOut := s.db.nextSeqOut, seqIn := s.db.seqIn, action }⟩]
      else s.numbered }

def Client.poll (s : Client δ κ) (waitsForActionWithId : Nat → Bool) (d : Dequeued δ)
    (rest : List (Dequeued δ)) : Client δ κ :=
  let requests := s.newRequests deleteMessages waitsForActionWithId d
  { s with
    waiting := rest
    executingRequestsActionIds := s.executingRequestsActionIds ++ requests.map (·.actionId)
    inFlight := s.inFlight ++ requests
    worked := s.worked ++ [d]
    requests := s.requests ++ requests
    outstanding := s.outstanding ++ requests }

def Client.completed (s : Client δ κ) (index : Nat) (q : Request δ κ) : Client δ κ :=
  { s with
    db := s.db.actionCompletedWithId q
    inFlight := s.inFlight.eraseIdx index
    accepted := if q.isResend then s.accepted else s.accepted ++ [q.actionId] }

def Client.failed (s : Client δ κ) (index : Nat) (q : Request δ κ) : Client δ κ :=
  { s with
    executingRequestsActionIds := s.executingRequestsActionIds.filter (· ≠ q.actionId)
    inFlight := s.inFlight.eraseIdx index
    outstanding := s.outstanding.filter fun p =>
      ¬ (p.actionId = q.actionId ∧ p.isResend = q.isResend) }

def step (s : Client δ κ) : Event δ κ → Client δ κ
  | .enqueue action => s.enqueue action
  | .resendRequested fromSeq toSeq =>
    { s with
      db := s.db.enqueuePeerOutgoingResendActions fromSeq toSeq
      copied := s.copied.insertAll (s.db.actionsInRange fromSeq toSeq) }
  | .dequeue => { s with waiting := s.waiting ++ [s.db.dequeuePeerOutgoingActions] }
  | .poll waitsForActionWithId =>
    match s.waiting with
    | [] => s
    | d :: rest => s.poll deleteMessages waitsForActionWithId d rest
  | .completed index =>
    match s.inFlight[index]? with
    | none => s
    | some q => s.completed index q
  | .failed index =>
    match s.inFlight[index]? with
    | none => s
    | some q => s.failed index q
  | .restart =>
    { s with waiting := [], executingRequestsActionIds := [], inFlight := [], outstanding := [] }
  | .setPeerLayer layer => { s with db := { s.db with peerLayer := max s.db.peerLayer layer } }
  | .setKeys keys => { s with keys := keys }
  | .applySeqIn seqIn => { s with db := { s.db with seqIn := seqIn } }
  | .confirm maxSeqIn =>
    if 0 < maxSeqIn then
      { s with
        db := s.db.confirmPeerSeqOut (maxSeqIn - 1)
        keys := discardEncryptionKeys s.keys maxSeqIn }
    else s

variable {deleteMessages}

/-- What later states keep of the rows: ids are not used again, and numbers stay. -/
structure Extends (s s' : Client δ κ) : Prop where
  lastId : s.db.outgoing.lastId ≤ s'.db.outgoing.lastId
  rows : ∀ r ∈ s'.db.outgoing.rows, r ∈ s.db.outgoing.rows ∨ s.db.outgoing.lastId < r.id
  numbered : s.numbered <+: s'.numbered

variable {s s' : Client δ κ}

/-- Steps that enqueue nothing. -/
theorem extends_of_subset (hlastId : s'.db.outgoing.lastId = s.db.outgoing.lastId)
    (hrows : s'.db.outgoing.rows ⊆ s.db.outgoing.rows) (hnumbered : s'.numbered = s.numbered) :
    Extends s s' where
  lastId := le_of_eq hlastId.symm
  rows := fun _ hr => .inl (hrows hr)
  numbered := hnumbered ▸ List.prefix_rfl

/-- A row of the first table, or one that has been there. -/
structure Known (s : Client δ κ) (r : Row (OutgoingRow δ)) : Prop where
  le_lastId : r.id ≤ s.db.outgoing.lastId
  unique : ∀ r' ∈ s.db.outgoing.rows, r'.id = r.id → r' = r
  number : 17 ≤ r.value.action.layer → 0 ≤ r.value.seqOut ∧
    s.numbered[r.value.seqOut.toNat]? = some r
  zero : r.value.action.layer < 17 → r.value.seqOut = 0

variable {r : Row (OutgoingRow δ)}

theorem Known.mono (h : Known s r) (he : Extends s s') : Known s' r where
  le_lastId := le_trans h.le_lastId he.lastId
  unique := by
    intro r' hr' hid
    rcases he.rows r' hr' with hold | hnew
    · exact h.unique r' hold hid
    · have hle := h.le_lastId
      omega
  number := by
    intro hlayer
    obtain ⟨hnonneg, hnumber⟩ := h.number hlayer
    obtain ⟨rest, hrest⟩ := he.numbered
    refine ⟨hnonneg, ?_⟩
    rw [← hrest, List.getElem?_append_left (List.getElem?_eq_some_iff.1 hnumber).1]
    exact hnumber
  zero := h.zero

/-- Two rows with one number are the same. -/
theorem Known.eq_of_seqOut_eq {r' : Row (OutgoingRow δ)} (h : Known s r) (h' : Known s r')
    (hlayer : 17 ≤ r.value.action.layer) (hlayer' : 17 ≤ r'.value.action.layer)
    (heq : r.value.seqOut = r'.value.seqOut) : r = r' := by
  have hnumber := (h.number hlayer).2
  rw [heq, (h'.number hlayer').2] at hnumber
  exact (Option.some_inj.1 hnumber).symm

/-- The request is made of a row of the first table. -/
def MadeOf (q : Request δ κ) (r : Row (OutgoingRow δ)) : Prop :=
  q.actionId = r.id ∧ q.layer = r.value.action.layer ∧
    (17 ≤ r.value.action.layer → q.seqOut = r.value.seqOut)

/-- What holds in every run: the numbers count the numbered rows, and what has been stored,
read or requested is a row that is known. -/
structure WellNumbered (s : Client δ κ) : Prop where
  length : s.db.nextSeqOut = s.numbered.length
  stored : ∀ r ∈ s.db.outgoing.rows, Known s r
  counted : ∀ r ∈ s.numbered, 17 ≤ r.value.action.layer ∧ Known s r
  read : ∀ d ∈ s.waiting, ∀ r ∈ d.actions, Known s r
  sent : ∀ q ∈ s.inFlight, q.isResend = false → ∃ r, Known s r ∧ MadeOf q r

theorem wellNumbered_initial : WellNumbered (Client.initial : Client δ κ) where
  length := rfl
  stored := fun _ hr => absurd hr List.not_mem_nil
  counted := fun _ hr => absurd hr List.not_mem_nil
  read := fun _ hd => absurd hd List.not_mem_nil
  sent := fun _ hq => absurd hq List.not_mem_nil

/-- Steps that enqueue, read and request nothing. -/
theorem WellNumbered.of_subset (h : WellNumbered s)
    (hlastId : s'.db.outgoing.lastId = s.db.outgoing.lastId)
    (hrows : s'.db.outgoing.rows ⊆ s.db.outgoing.rows) (hnext : s'.db.nextSeqOut = s.db.nextSeqOut)
    (hnumbered : s'.numbered = s.numbered) (hread : s'.waiting ⊆ s.waiting)
    (hsent : s'.inFlight ⊆ s.inFlight) : WellNumbered s' := by
  have he : Extends s s' := extends_of_subset hlastId hrows hnumbered
  exact
    { length := by rw [hnext, hnumbered, h.length]
      stored := fun r hr => (h.stored r (hrows hr)).mono he
      counted := by
        intro r hr
        rw [hnumbered] at hr
        exact ⟨(h.counted r hr).1, (h.counted r hr).2.mono he⟩
      read := fun d hd r hr => (h.read d (hread hd) r hr).mono he
      sent := by
        intro q hq hresend
        obtain ⟨r, hr, hmade⟩ := h.sent q (hsent hq) hresend
        exact ⟨r, hr.mono he, hmade⟩ }

/-- Steps that leave the first table alone. -/
theorem WellNumbered.of_same (h : WellNumbered s) (houtgoing : s'.db.outgoing = s.db.outgoing)
    (hnext : s'.db.nextSeqOut = s.db.nextSeqOut) (hnumbered : s'.numbered = s.numbered)
    (hread : s'.waiting ⊆ s.waiting) (hsent : s'.inFlight ⊆ s.inFlight) : WellNumbered s' := by
  have hrows : s'.db.outgoing.rows ⊆ s.db.outgoing.rows := by
    rw [houtgoing]
    exact List.Subset.refl _
  exact h.of_subset (by rw [houtgoing]) hrows hnext hnumbered hread hsent

/-- The row that an action becomes. -/
def Client.newRow (s : Client δ κ) (action : OutgoingAction δ) : Row (OutgoingRow δ) :=
  ⟨s.db.outgoing.lastId + 1,
    if 17 ≤ action.layer then { seqOut := s.db.nextSeqOut, seqIn := s.db.seqIn, action }
    else { seqOut := 0, seqIn := 0, action }⟩

theorem outgoing_enqueue (s : Client δ κ) (action : OutgoingAction δ) :
    (s.enqueue action).db.outgoing = s.db.outgoing.insert (s.newRow action).value := by
  unfold Client.enqueue Stored.enqueuePeerOutgoingAction Client.newRow
  split <;> rfl

theorem mem_enqueue {action : OutgoingAction δ} :
    r ∈ (s.enqueue action).db.outgoing.rows ↔
      r ∈ s.db.outgoing.rows ∨ r = s.newRow action := by
  rw [outgoing_enqueue, RowTable.mem_insert]
  rfl

theorem numbered_enqueue (s : Client δ κ) (action : OutgoingAction δ) :
    (s.enqueue action).numbered =
      if 17 ≤ action.layer then s.numbered ++ [s.newRow action] else s.numbered := by
  unfold Client.enqueue Client.newRow
  split <;> rfl

theorem extends_enqueue (s : Client δ κ) (action : OutgoingAction δ) :
    Extends s (s.enqueue action) where
  lastId := by
    rw [outgoing_enqueue]
    exact Nat.le_succ _
  rows := by
    intro r hr
    rcases mem_enqueue.1 hr with hold | rfl
    · exact .inl hold
    · exact .inr (Nat.lt_succ_self _)
  numbered := by
    rw [numbered_enqueue]
    split
    · exact List.prefix_append _ _
    · exact List.prefix_rfl

theorem known_newRow (h : WellNumbered s) (action : OutgoingAction δ) :
    Known (s.enqueue action) (s.newRow action) where
  le_lastId := by
    rw [outgoing_enqueue]
    exact le_refl _
  unique := by
    intro r hr hid
    rcases mem_enqueue.1 hr with hold | hnew
    · have hle := s.db.outgoing.le_lastId r hold
      have hlt : r.id = s.db.outgoing.lastId + 1 := hid
      omega
    · exact hnew
  number := by
    intro hlayer
    have haction : (s.newRow action).value.action = action := by
      unfold Client.newRow
      split <;> rfl
    rw [haction] at hlayer
    have hseqOut : (s.newRow action).value.seqOut = s.numbered.length := by
      unfold Client.newRow
      rw [if_pos hlayer]
      exact h.length
    rw [hseqOut, numbered_enqueue, if_pos hlayer]
    exact ⟨Int.natCast_nonneg _, by simp⟩
  zero := by
    unfold Client.newRow
    split
    case isTrue hlayer => exact fun hlt => absurd hlayer (Nat.not_le_of_lt hlt)
    case isFalse => exact fun _ => rfl

theorem layer_newRow (s : Client δ κ) (action : OutgoingAction δ) :
    (s.newRow action).value.action = action := by
  unfold Client.newRow
  split <;> rfl

theorem WellNumbered.enqueue (h : WellNumbered s) (action : OutgoingAction δ) :
    WellNumbered (s.enqueue action) where
  length := by
    have hlength := h.length
    unfold Client.enqueue Stored.enqueuePeerOutgoingAction
    split
    · grind
    · exact hlength
  stored := by
    intro r hr
    rcases mem_enqueue.1 hr with hold | rfl
    · exact (h.stored r hold).mono (extends_enqueue s action)
    · exact known_newRow h action
  counted := by
    intro r hr
    rw [numbered_enqueue] at hr
    split at hr
    case isTrue hlayer =>
      rcases List.mem_append.1 hr with hold | hnew
      · exact ⟨(h.counted r hold).1, (h.counted r hold).2.mono (extends_enqueue s action)⟩
      · rw [List.mem_singleton.1 hnew, layer_newRow]
        exact ⟨hlayer, known_newRow h action⟩
    case isFalse =>
      exact ⟨(h.counted r hr).1, (h.counted r hr).2.mono (extends_enqueue s action)⟩
  read := fun d hd r hr => (h.read d hd r hr).mono (extends_enqueue s action)
  sent := by
    intro q hq hresend
    obtain ⟨r, hr, hmade⟩ := h.sent q hq hresend
    exact ⟨r, hr.mono (extends_enqueue s action), hmade⟩

/-- A request of a row that has been read. -/
theorem mem_newRequests {waitsForActionWithId : Nat → Bool} {d : Dequeued δ} {q : Request δ κ}
    : q ∈ s.newRequests deleteMessages waitsForActionWithId d ↔
      ∃ r isResend, ((r ∈ d.actions ∧ isResend = false) ∨ (r ∈ d.resendActions ∧ isResend = true)) ∧
        r.id ∉ s.executingRequestsActionIds ∧
        q = requestForAction deleteMessages s.keys waitsForActionWithId r isResend := by
  unfold Client.newRequests
  rw [List.mem_filterMap]
  constructor
  · grind
  · rintro ⟨r, isResend, hr, hidle, rfl⟩
    refine ⟨(r, isResend), ?_, ?_⟩
    · grind
    · dsimp only
      rw [if_neg (by simpa using hidle)]

theorem madeOf_requestForAction (keys : List (KeyData κ)) (waitsForActionWithId : Nat → Bool)
    (r : Row (OutgoingRow δ)) (isResend : Bool) :
    MadeOf (requestForAction deleteMessages keys waitsForActionWithId r isResend) r :=
  ⟨rfl, rfl, fun hlayer => if_pos hlayer⟩

theorem WellNumbered.poll (h : WellNumbered s) (waitsForActionWithId : Nat → Bool) {d : Dequeued δ}
    {rest : List (Dequeued δ)} (hwaiting : s.waiting = d :: rest) :
    WellNumbered (s.poll deleteMessages waitsForActionWithId d rest) := by
  have he : Extends s (s.poll deleteMessages waitsForActionWithId d rest) :=
    extends_of_subset rfl (List.Subset.refl _) rfl
  exact
    { length := h.length
      stored := fun r hr => (h.stored r hr).mono he
      counted := fun r hr => ⟨(h.counted r hr).1, (h.counted r hr).2.mono he⟩
      read := fun d' hd' r hr =>
        (h.read d' (hwaiting ▸ List.mem_cons_of_mem d hd') r hr).mono he
      sent := by
        intro q hq hresend
        rcases List.mem_append.1 hq with hold | hnew
        · obtain ⟨r, hr, hmade⟩ := h.sent q hold hresend
          exact ⟨r, hr.mono he, hmade⟩
        · obtain ⟨r, isResend, hr, -, rfl⟩ := mem_newRequests.1 hnew
          rcases hr with ⟨hr, -⟩ | ⟨-, rfl⟩
          · have hd : d ∈ s.waiting := hwaiting ▸ List.mem_cons_self ..
            exact ⟨r, (h.read d hd r hr).mono he, madeOf_requestForAction _ _ r _⟩
          · cases hresend }

theorem WellNumbered.dequeue (h : WellNumbered s) :
    WellNumbered { s with waiting := s.waiting ++ [s.db.dequeuePeerOutgoingActions] } := by
  have he : Extends s { s with waiting := s.waiting ++ [s.db.dequeuePeerOutgoingActions] } :=
    extends_of_subset rfl (List.Subset.refl _) rfl
  exact
    { length := h.length
      stored := fun r hr => (h.stored r hr).mono he
      counted := fun r hr => ⟨(h.counted r hr).1, (h.counted r hr).2.mono he⟩
      read := by
        intro d hd r hr
        rcases List.mem_append.1 hd with hold | hnew
        · exact (h.read d hold r hr).mono he
        · rw [List.mem_singleton.1 hnew] at hr
          exact (h.stored r (List.mem_filter.1 hr).1).mono he
      sent := by
        intro q hq hresend
        obtain ⟨r, hr, hmade⟩ := h.sent q hq hresend
        exact ⟨r, hr.mono he, hmade⟩ }

theorem completed_rows (s : Client δ κ) (index : Nat) (q : Request δ κ) :
    (s.completed index q).db.outgoing.lastId = s.db.outgoing.lastId ∧
      (s.completed index q).db.outgoing.rows ⊆ s.db.outgoing.rows ∧
      (s.completed index q).db.nextSeqOut = s.db.nextSeqOut := by
  unfold Client.completed Stored.actionCompletedWithId
  split_ifs
  · exact ⟨rfl, List.Subset.refl _, rfl⟩
  · exact ⟨rfl, List.Subset.refl _, rfl⟩
  · exact ⟨rfl, fun r hr => (RowTable.mem_deleteIds.1 hr).1, rfl⟩

theorem WellNumbered.completed (h : WellNumbered s) (index : Nat) (q : Request δ κ)
    : WellNumbered (s.completed index q) := by
  obtain ⟨hlastId, hrows, hnext⟩ := completed_rows s index q
  exact h.of_subset hlastId hrows hnext rfl (List.Subset.refl _) (List.eraseIdx_subset ..)

theorem WellNumbered.step (h : WellNumbered s) (e : Event δ κ) :
    WellNumbered (step deleteMessages s e) := by
  cases e with
  | enqueue action => exact h.enqueue action
  | resendRequested fromSeq toSeq =>
    exact h.of_same rfl rfl rfl (List.Subset.refl _) (List.Subset.refl _)
  | dequeue => exact h.dequeue
  | poll waitsForActionWithId =>
    unfold SecretOutgoing.step
    dsimp only
    split
    case h_1 => exact h
    case h_2 d rest hwaiting => exact h.poll waitsForActionWithId hwaiting
  | completed index =>
    unfold SecretOutgoing.step
    dsimp only
    split
    case h_1 => exact h
    case h_2 q _ => exact h.completed index q
  | failed index =>
    unfold SecretOutgoing.step
    dsimp only
    split
    case h_1 => exact h
    case h_2 q _ =>
      exact h.of_same rfl rfl rfl (List.Subset.refl _) (List.eraseIdx_subset ..)
  | restart =>
    exact h.of_same rfl rfl rfl (List.nil_subset _) (List.nil_subset _)
  | setPeerLayer layer =>
    exact h.of_same rfl rfl rfl (List.Subset.refl _) (List.Subset.refl _)
  | setKeys keys =>
    exact h.of_same rfl rfl rfl (List.Subset.refl _) (List.Subset.refl _)
  | applySeqIn seqIn =>
    exact h.of_same rfl rfl rfl (List.Subset.refl _) (List.Subset.refl _)
  | confirm maxSeqIn =>
    have hrows : (s.db.confirmPeerSeqOut (maxSeqIn - 1)).outgoing.rows ⊆ s.db.outgoing.rows :=
      fun r hr => (RowTable.mem_deleteWhere.1 hr).1
    unfold SecretOutgoing.step
    dsimp only
    split
    · exact h.of_subset rfl hrows rfl rfl (List.Subset.refl _) (List.Subset.refl _)
    · exact h

end Steps

end TelegramPub.Ports.SecretOutgoing
