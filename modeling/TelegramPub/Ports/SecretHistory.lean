import TelegramPub.Ports.SecretIncoming

/-!
# TGSecretIncomingQueueActor: the messages of a secret chat

What a run of `_poll` does to the stored messages.  It first collects the messages and the
other actions from what it processes, each in a list of its own
(`processIncomingMessage`); then it goes through the actions, adds the messages that are
left, and deletes those that were stored before and are to be deleted
(`processMessages`).

The random ids of messages have a table of their own, from which nothing is deleted: a
message is not stored again after it has been deleted.
-/

namespace TelegramPub.Ports.SecretHistory

open Ports.SecretIncoming

variable {δ ε β : Type}

/-! ## Messages and actions -/

/-- What a message shows: what it was made of, or the notice of a screenshot. -/
inductive Content (β : Type) where
  | desc (desc : β)
  | screenshot (date : Int) (randomIds : List Int)
  deriving DecidableEq

/-- A `TGMessage` before it has an id of its own. -/
structure Message (β : Type) where
  randomId : Int := 0
  seqIn : Int := 0
  seqOut : Int := 0
  content : Content β
  deriving DecidableEq

/-- A `DecryptedMessageAction`.  `other` is one that does not concern messages. -/
inductive MessageAction where
  | deleteMessages (randomIds : List Int)
  | flushHistory
  | notifyLayer (layer : Nat)
  | readMessages (randomIds : List Int)
  | screenshotMessages (randomIds : List Int)
  | setMessageTTL (ttl : Int)
  | typing
  | other

/-- A `DecryptedMessage` of any layer; a service message has an action. -/
structure DecryptedMessage (β : Type) where
  randomId : Int
  desc : β
  action : Option MessageAction

/-- What an action of the peer is read as: its object, if there is one, and its date. -/
structure Parser (δ β : Type) where
  parseObject : IncomingAction δ → Option (DecryptedMessage β)
  date : IncomingAction δ → Int

/-- A dictionary with an `actionType`. -/
inductive ActionDesc where
  | readMessages (randomIds : List Int)
  | screenshotMessages (randomIds : List Int) (date : Int)
  | deleteMessages (randomIds : List Int)
  | updateLayer (layer : Nat)
  | flushHistory
  | other

/-- What `parseDecryptedAction` gives: the action, and its flags. -/
structure ParsedAction where
  decryptedAction : Option ActionDesc
  flushHistory : Bool := false
  decodeMessageWithoutAction : Bool := false

/-- `parseDecryptedAction:…`, the same for all layers. -/
def parseDecryptedAction (date : Int) (object : DecryptedMessage β) : ParsedAction :=
  match object.action with
  | none => { decryptedAction := none, decodeMessageWithoutAction := true }
  | some (.deleteMessages randomIds) => { decryptedAction := some (.deleteMessages randomIds) }
  | some .flushHistory => { decryptedAction := some .flushHistory, flushHistory := true }
  | some (.notifyLayer layer) => { decryptedAction := some (.updateLayer layer) }
  | some (.readMessages randomIds) => { decryptedAction := some (.readMessages randomIds) }
  | some (.screenshotMessages randomIds) =>
    { decryptedAction := some (.screenshotMessages randomIds date) }
  | some (.setMessageTTL _) => { decryptedAction := none, decodeMessageWithoutAction := true }
  | some .typing => { decryptedAction := none }
  | some .other => { decryptedAction := some .other }

/-- `parseDecryptedMessage:…`. -/
def parseDecryptedMessage (object : DecryptedMessage β) (seqIn seqOut : Int) : Message β where
  randomId := object.randomId
  seqIn := seqIn
  seqOut := seqOut
  content := .desc object.desc

/-- `addedMessages` and `addedActions`. -/
structure Collected (β : Type) where
  addedMessages : List (Message β) := []
  addedActions : List ActionDesc := []

/-- `_processIncomingMessage:…`.  Before layer 46 there are no messages any more. -/
def processIncomingMessage (parser : Parser δ β) (c : Collected β) (a : IncomingAction δ) :
    Collected β :=
  match parser.parseObject a with
  | none => c
  | some object =>
    let parsed := parseDecryptedAction (parser.date a) object
    let decodeMessageWithoutAction := parsed.decodeMessageWithoutAction &&
      (46 ≤ a.layer || parsed.decryptedAction matches some (.updateLayer _))
    let addedMessages := if parsed.flushHistory then [] else c.addedMessages
    let addedActions := c.addedActions ++ parsed.decryptedAction.toList
    if parsed.decryptedAction.isNone && decodeMessageWithoutAction then
      { addedMessages :=
          addedMessages ++ [parseDecryptedMessage object a.seqIn.1 a.seqOut.1]
        addedActions }
    else { addedMessages, addedActions }

/-! ## The stored messages -/

/-- A row of the messages; `cid` is the conversation. -/
structure StoredMessage (β : Type) where
  mid : Int
  cid : Int
  message : Message β

/-- The id for a message that comes with `INT_MIN`, from a number of `generateLocalMids`. -/
def localMid (n : Int) : Int := -2 ^ 31 + 1 + (n - 800000000)

theorem localMid_inj {m n : Int} (h : localMid m = localMid n) : m = n := by
  unfold localMid at h
  omega

/-- The messages of all conversations, and the ids that were given to random ids.  Zero is
no random id, and the ids of numbers that were not drawn yet are not used. -/
structure History (β : Type) where
  messages : List (StoredMessage β)
  randomIds : Int → Option Int
  nextLocalMid : Int
  randomIds_zero : randomIds 0 = none
  unused : ∀ n, nextLocalMid ≤ n →
    (∀ row ∈ messages, row.mid ≠ localMid n) ∧ ∀ r, randomIds r ≠ some (localMid n)

namespace History

variable (h : History β)

/-- `messageIdsForRandomIds:mapping:`.  Of more than 128 random ids only the first 128 are
looked for: `j < 128` stays as it is in the later rounds. -/
def messageIdsForRandomIds (randomIds : List Int) : List Int :=
  (randomIds.take 128).filterMap h.randomIds

/-- `messageIdsInConversation:`. -/
def messageIdsInConversation (cid : Int) : List Int :=
  (h.messages.filter (·.cid = cid)).map (·.mid)

/-- `filterExistingRandomIds:`, and the loop that removes the others. -/
def filterExistingRandomIds (messages : List (Message β)) : List (Message β) :=
  messages.filter fun m => (h.randomIds m.randomId).isNone

/-- The rows of new messages. -/
def newRows (cid : Int) : Int → List (Message β) → List (StoredMessage β)
  | _, [] => []
  | n, m :: ms => ⟨localMid n, cid, m⟩ :: newRows cid (n + 1) ms

/-- `INSERT OR IGNORE` of the random ids. -/
def insertRandomIds (randomIds : Int → Option Int) (rows : List (StoredMessage β)) :
    Int → Option Int :=
  rows.foldl (fun randomIds row r =>
    if row.message.randomId = r ∧ r ≠ 0 then (randomIds r).or (some row.mid) else randomIds r)
    randomIds

theorem insertRandomIds_or (rows : List (StoredMessage β)) (randomIds : Int → Option Int)
    (r : Int) :
    insertRandomIds randomIds rows r = (randomIds r).or
      (if r = 0 then none else (rows.find? (·.message.randomId = r)).map (·.mid)) := by
  induction rows generalizing randomIds with
  | nil => simp [insertRandomIds]
  | cons row rows ih =>
    show insertRandomIds _ rows r = _
    rw [ih, List.find?_cons]
    by_cases hr : row.message.randomId = r
    · grind
    · simp [hr]

theorem mem_newRows {cid n : Int} {ms : List (Message β)} {row : StoredMessage β}
    (hrow : row ∈ newRows cid n ms) :
    ∃ k, n ≤ k ∧ k < n + ms.length ∧ row.mid = localMid k := by
  induction ms generalizing n with
  | nil => cases hrow
  | cons m ms ih =>
    rw [List.length_cons, Nat.cast_add, Nat.cast_one]
    rcases List.mem_cons.1 hrow with rfl | hrow
    · exact ⟨n, le_refl n, by omega, rfl⟩
    · obtain ⟨k, hlo, hhi, hmid⟩ := ih hrow
      exact ⟨k, by omega, by omega, hmid⟩

/-- The messages that can be stored: their id is not there, nor is their random id. -/
def storable (rows : List (StoredMessage β)) : List (StoredMessage β) :=
  rows.filter fun row => (∀ row' ∈ h.messages, row'.mid ≠ row.mid) ∧
    (row.message.randomId = 0 ∨ (h.randomIds row.message.randomId).isNone)

/-- `transactionAddMessages:…` for messages of one conversation. -/
def transactionAddMessages (cid : Int) (messages : List (Message β)) : History β :=
  let rows := h.storable (newRows cid h.nextLocalMid messages)
  { messages := h.messages ++ rows
    randomIds := insertRandomIds h.randomIds rows
    nextLocalMid := h.nextLocalMid + messages.length
    randomIds_zero := by rw [insertRandomIds_or, h.randomIds_zero]; rfl
    unused := by
      intro n hn
      have hold := h.unused n (by omega)
      have hnew : ∀ row ∈ rows, row.mid ≠ localMid n := by
        intro row hrow heq
        obtain ⟨k, -, hlt, hmid⟩ := mem_newRows (List.mem_of_mem_filter hrow)
        have hkn := localMid_inj (hmid.symm.trans heq)
        omega
      constructor
      · intro row hrow
        rcases List.mem_append.1 hrow with hrow | hrow
        · exact hold.1 row hrow
        · exact hnew row hrow
      · intro r hr
        rw [insertRandomIds_or, Option.or_eq_some_iff] at hr
        rcases hr with hr | ⟨-, hr⟩
        · exact hold.2 r hr
        · split at hr
          · cases hr
          · obtain ⟨row, hfind, hmid⟩ := Option.map_eq_some_iff.1 hr
            exact hnew row (List.mem_of_find?_eq_some hfind) hmid }

/-- `transactionRemoveMessages:…`. -/
def transactionRemoveMessages (messageIds : List Int) : History β :=
  { h with
    messages := h.messages.filter (·.mid ∉ messageIds)
    unused := fun n hn =>
      ⟨fun row hrow => (h.unused n hn).1 row (List.mem_of_mem_filter hrow), (h.unused n hn).2⟩ }

end History

/-! ## A run of `_poll` -/

/-- `addedMessages` and `deleteMessageIds`. -/
structure Changes (β : Type) where
  addedMessages : List (Message β)
  deleteMessageIds : List Int := []

/-- The first message with the random id is removed from `addedMessages`. -/
def removeAdded (addedMessages : List (Message β)) (randomId : Int) : List (Message β) :=
  addedMessages.eraseP (·.randomId = randomId)

/-- The message for a screenshot. -/
def screenshotMessage (randomIds : List Int) (date : Int) : Message β :=
  { content := .screenshot date randomIds }

/-- The loop over `addedActions`. -/
def runAction (peerId : Int) (h : History β) (c : Changes β) : ActionDesc → Changes β
  | .readMessages _ => c
  | .screenshotMessages randomIds date =>
    { c with addedMessages := c.addedMessages ++ [screenshotMessage randomIds date] }
  | .deleteMessages randomIds =>
    { addedMessages := randomIds.foldl removeAdded c.addedMessages
      deleteMessageIds := c.deleteMessageIds ++ h.messageIdsForRandomIds randomIds }
  | .updateLayer _ => c
  | .flushHistory =>
    { c with deleteMessageIds := c.deleteMessageIds ++ h.messageIdsInConversation peerId }
  | .other => c

/-- What a run does to the messages, for the actions that it processes. -/
def processMessages (peerId : Int) (parser : Parser δ β) (h : History β)
    (actionsToProcess : List (IncomingAction δ)) : History β :=
  let collected := actionsToProcess.foldl (processIncomingMessage parser) {}
  let changes := collected.addedActions.foldl (runAction peerId h)
    { addedMessages := collected.addedMessages }
  let added :=
    if changes.addedMessages = [] then h
    else h.transactionAddMessages peerId (h.filterExistingRandomIds changes.addedMessages)
  if changes.deleteMessageIds = [] then added
  else added.transactionRemoveMessages changes.deleteMessageIds

/-- A secret chat with all that is stored of it. -/
structure Client (δ ε β : Type) where
  chat : Chat δ ε
  history : History β

/-- What comes from the server: an action that is decrypted at once, or one that is not. -/
inductive Arrival (δ ε : Type) where
  | decrypted (action : IncomingAction δ)
  | encrypted (action : ε)

def Client.store (c : Client δ ε β) : Arrival δ ε → Client δ ε β
  | .decrypted action =>
    { c with chat := { c.chat with incoming := c.chat.incoming.insert action } }
  | .encrypted action =>
    { c with chat := { c.chat with incomingEncrypted := c.chat.incomingEncrypted.insert action } }

section Poll

variable (peerId : Int) (parser : Parser δ β) (isResendAction : IncomingAction δ → Bool)
  (notifiedLayer : IncomingAction δ → Nat) (decrypt : ε → Option (IncomingAction δ))

/-- `_poll`, when nothing comes between its two parts. -/
def Client.poll (c : Client δ ε β) : Client δ ε β :=
  let dequeued := dequeuePeerIncomingActions c.chat
  let scan := scanActions isResendAction decrypt c.chat.peerLayer dequeued
  { chat := processActions isResendAction decrypt notifiedLayer c.chat dequeued
    history := processMessages peerId parser c.history (scan.actionsToProcess.map (·.action)) }

/-- All is stored before one poll. -/
def Client.pollOnce (c : Client δ ε β) (arrivals : List (Arrival δ ε)) : Client δ ε β :=
  (arrivals.foldl Client.store c).poll peerId parser isResendAction notifiedLayer decrypt

/-- A poll after each arrival. -/
def Client.pollEach (c : Client δ ε β) (arrivals : List (Arrival δ ε)) : Client δ ε β :=
  arrivals.foldl (fun c arrival =>
    (c.store arrival).poll peerId parser isResendAction notifiedLayer decrypt) c

end Poll

end TelegramPub.Ports.SecretHistory
