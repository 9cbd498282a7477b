import TelegramPub.Ports.ChannelBatches

/-!
# TGManagedChannelState: the difference of a channel

`pollOnce:` asks for the difference of a channel and writes it to the database.  A new
message of the difference can be one that this client is sending: then its id is mapped
from the random id of an executing actor, and the actor will store the message itself.

The set of ids to skip is filled by a signal that is to be started before the messages are
written.  Two things keep it empty while the messages are filtered: they are filtered
before the signal is started, and the signal is kept in a variable of the branch, while the
one that is started is the variable outside, which completes at once.  In the same way the
chats of a difference that is too long are collected in a variable of the branch, and never
stored.
-/

namespace TelegramPub.Ports.ChannelPolls

open Ports.ChannelState

variable {δ κ υ : Type}

/-- A `TLMessage` with the peer that it belongs to. -/
structure PeerMessage (δ : Type) where
  cid : Int
  desc : MessageDesc δ
  deriving DecidableEq

/-- A `TGConversation` made from a `TLChat`; the id is 0 when it is no chat. -/
structure Chat (κ : Type) where
  conversationId : Int
  content : κ
  deriving DecidableEq

inductive OtherUpdate (δ : Type) where
  | deleteChannelMessages (messages : List Int)
  | messageID (randomId nId : Int)
  | editChannelMessage (message : PeerMessage δ) (pts : Int32)
  | other
  deriving DecidableEq

/-- `channelDifference`; the timeout is there if its flag is. -/
structure Difference (δ κ υ : Type) where
  timeout : Option Int
  pts : Int32
  newMessages : List (PeerMessage δ)
  otherUpdates : List (OtherUpdate δ)
  chats : List (Chat κ)
  users : List υ

/-- `channelDifferenceTooLong`. -/
structure TooLong (δ κ υ : Type) where
  timeout : Option Int
  pts : Int32
  topMessage : Int
  readInboxMaxId : Int
  unreadCount : Int
  unreadMentionsCount : Int
  messages : List (PeerMessage δ)
  chats : List (Chat κ)
  users : List υ

inductive ChannelDifference (δ κ υ : Type) where
  | empty (timeout : Option Int)
  | tooLong (difference : TooLong δ κ υ)
  | difference (difference : Difference δ κ υ)

def ChannelDifference.chats : ChannelDifference δ κ υ → List (Chat κ)
  | .empty _ => []
  | .tooLong d => d.chats
  | .difference d => d.chats

/-- The calls that write a difference to the database. -/
inductive Call (δ κ υ : Type) where
  | executeUserDataUpdate (users : List υ)
  | updateChannels (conversations : List (Chat κ))
  | addTrailingHoleToChannelAndDispatch (messages : List (Message δ)) (pts : Int32)
      (importantUnreadCount unreadMentionsCount maxReadId topMessageId : Int)
  | updateHistoryPts (pts : Int32)
  | addMessagesToChannelAndDispatch (messages : List (Message δ)) (deletedMessages : List Int)
      (pts : Int32)
  | transactionUpdateMessages (messages : List (Int × Message δ))
  | preloadedHistory (aroundMessageId : Int)

/-- A signal without values: what it does to the ids to skip when it is started, given the
random ids of the executing actors. -/
abbrev Deferred := List Int → List Int → List Int

/-- `[SSignal complete]`. -/
def Deferred.complete : Deferred := fun _ skipMessageIds => skipMessageIds

/-- `randomIdToMessageId`: of two entries the later one counts. -/
def randomIdToMessageId (updates : List (OtherUpdate δ)) (randomId : Int) : Option Int :=
  updates.reverse.findSome? fun
    | .messageID key nId => if key = randomId then some nId else none
    | _ => none

/-- The signal of a difference. -/
def removeMessagesInProgress (updates : List (OtherUpdate δ)) : Deferred :=
  fun randomIds skipMessageIds =>
    skipMessageIds ∪ (randomIds.filter (· ≠ 0)).filterMap (randomIdToMessageId updates)

/-- The variables outside the branches.  The blocks see the messages as they are when the
blocks are called. -/
structure Variables (δ κ υ : Type) where
  messages : List (Message δ) := []
  conversations : List (Chat κ) := []
  restart : Bool := false
  nextTimeout : Int := 5
  users : List υ := []
  addHole : List (Message δ) → List (Call δ κ υ) := fun _ => []
  addMessages : List (Message δ) → List (Call δ κ υ) := fun _ => []
  loadHoles : List (Call δ κ υ) := []
  removeMessagesInProgressSignal : Deferred := .complete
  skipMessageIds : List Int := []

def OtherUpdate.deleted : OtherUpdate δ → List Int
  | .deleteChannelMessages messages => messages
  | _ => []

/-- The message of an edit, as a list of at most one. -/
def OtherUpdate.updated (stored : Messages δ) : OtherUpdate δ → List (Int × Message δ)
  | .editChannelMessage message pts => [(message.cid, Message.ofDesc stored message.desc pts)]
  | _ => []

/-- The branches.  Two of them declare a variable of their own with the name of one outside. -/
def branch (peerId : Int) (stored : Messages δ) :
    ChannelDifference δ κ υ → Variables δ κ υ
  | .empty timeout => { nextTimeout := timeout.getD 5 }
  | .tooLong d =>
    let _conversations := d.chats.filter (·.conversationId ≠ 0)
    { messages := (d.messages.map fun m => Message.ofDesc stored m.desc d.pts).filter (·.mid ≠ 0)
      nextTimeout := d.timeout.getD 5
      users := d.users
      addHole := fun messages =>
        [.addTrailingHoleToChannelAndDispatch messages d.pts d.unreadCount d.unreadMentionsCount
            d.readInboxMaxId d.topMessage,
          .updateHistoryPts d.pts]
      loadHoles := if d.unreadCount ≠ 0 then [.preloadedHistory d.readInboxMaxId] else [] }
  | .difference d =>
    let deletedMessageIds := d.otherUpdates.flatMap OtherUpdate.deleted
    let updatedMessages := d.otherUpdates.flatMap (OtherUpdate.updated stored)
    let _removeMessagesInProgressSignal := removeMessagesInProgress d.otherUpdates
    { messages :=
        (d.newMessages.filter fun m => m.desc.mid ≠ 0 ∧ m.cid = peerId).map fun m =>
          Message.ofDesc stored m.desc d.pts
      conversations := d.chats.filter (·.conversationId ≠ 0)
      restart := d.timeout.isNone
      nextTimeout := d.timeout.getD 5
      users := d.users
      addMessages := fun messages =>
        .addMessagesToChannelAndDispatch messages deletedMessageIds d.pts ::
          if updatedMessages ≠ [] then [.transactionUpdateMessages updatedMessages] else [] }

/-- The loop over the messages: those to skip are removed, and the replies of the others get
copies from the rest of the answer. -/
def keptMessages (v : Variables δ κ υ) : List (Message δ) :=
  (v.messages.filter (·.mid ∉ v.skipMessageIds)).map
    (Message.fillReply (messageIdToMessage v.messages))

/-- The messages that the replies still miss. -/
def downloadedMessages (client : Client δ) (messages : List (Message δ)) : List (Message δ) :=
  let downloadMessages := messages.filterMap Message.missingReply
  if downloadMessages = [] then [] else client.downloadMessages downloadMessages

/-- After the branches: the messages are filtered, the signals started, and the difference
written.  The second part is the time until the next poll, or none for one at once. -/
def finish (client : Client δ) (v : Variables δ κ υ) : List (Call δ κ υ) × Option Int :=
  let messages := keptMessages v
  let _skipMessageIds := v.removeMessagesInProgressSignal client.randomIds v.skipMessageIds
  let downloaded := downloadedMessages client messages
  let messages :=
    messages.map (Message.fillReply (messageIdToMessage (v.messages ++ downloaded)))
  (.executeUserDataUpdate v.users :: .updateChannels v.conversations ::
      (v.addHole messages ++ v.addMessages messages ++ v.loadHoles),
    if v.restart then none else some v.nextTimeout)

/-- What `pollOnce:` makes of an answer; `stored` are the messages that are stored when it
comes. -/
def pollOnce (peerId : Int) (stored : Messages δ) (client : Client δ)
    (result : ChannelDifference δ κ υ) : List (Call δ κ υ) × Option Int :=
  finish client (branch peerId stored result)

/-! ## What the calls should do -/

/-- The messages that a call hands over to be stored in the channel. -/
def Call.added : Call δ κ υ → List (Message δ)
  | .addMessagesToChannelAndDispatch messages _ _ => messages
  | _ => []

/-- The messages that the calls store: those that are there before are skipped. -/
def newlyStored (before : Messages δ) (calls : List (Call δ κ υ)) : List (Message δ) :=
  (calls.flatMap Call.added).filter fun message => (before message.mid).isNone

/-- The random id of an actor is mapped to the id.  An actor without one has 0. -/
def Mapped (randomIds : List Int) (updates : List (OtherUpdate δ)) (mid : Int) : Prop :=
  ∃ randomId ∈ randomIds, randomId ≠ 0 ∧ .messageID randomId mid ∈ updates

/-- A new message of the peer: not stored before. -/
def IsNew (peerId : Int) (before : Messages δ) (d : Difference δ κ υ) (m : PeerMessage δ) : Prop :=
  m ∈ d.newMessages ∧ m.cid = peerId ∧ m.desc.mid ≠ 0 ∧ before m.desc.mid = none

/-- No message that is being sent is stored, and every other new message of the peer is, up
to the copy of the message that it replies to. -/
structure StoresOthers (peerId : Int) (before : Messages δ) (randomIds : List Int)
    (d : Difference δ κ υ) (calls : List (Call δ κ υ)) : Prop where
  skips : ∀ message ∈ newlyStored before calls, ¬Mapped randomIds d.otherUpdates message.mid
  stores : ∀ m, IsNew peerId before d m → ¬Mapped randomIds d.otherUpdates m.desc.mid →
    ∃ message ∈ newlyStored before calls,
      message.withoutCopy = Message.ofDesc (fun _ => none) m.desc d.pts

/-- What is promised of an answer: the messages of a difference are stored but for those
that are being sent, and the chats of any answer are stored. -/
structure Applies (peerId : Int) (before : Messages δ) (randomIds : List Int)
    (result : ChannelDifference δ κ υ) (calls : List (Call δ κ υ)) : Prop where
  messages : ∀ d, result = .difference d → StoresOthers peerId before randomIds d calls
  chats : ∀ chat ∈ result.chats, chat.conversationId ≠ 0 →
    ∃ conversations, .updateChannels conversations ∈ calls ∧ chat ∈ conversations

/-- No new message is being sent, and an answer that is too long has no chats. -/
structure Harmless (peerId : Int) (before : Messages δ) (randomIds : List Int)
    (result : ChannelDifference δ κ υ) : Prop where
  messages : ∀ d, result = .difference d → ∀ m, IsNew peerId before d m →
    ¬Mapped randomIds d.otherUpdates m.desc.mid
  chats : ∀ d, result = .tooLong d → ∀ chat ∈ d.chats, chat.conversationId = 0

section Finish

variable (peerId : Int) (stored before : Messages δ) (client : Client δ)

/-- Every message of a difference is handed over, with another copy of what it replies to. -/
theorem pollOnce_added (d : Difference δ κ υ) : ∃ fill : Message δ → Message δ,
    ChangesCopies fill ∧
      (pollOnce peerId stored client (.difference d)).1.flatMap Call.added =
        (d.newMessages.filter fun m => m.desc.mid ≠ 0 ∧ m.cid = peerId).map fun m =>
          fill (Message.ofDesc stored m.desc d.pts) := by
  have hedits (updated : List (Int × Message δ)) :
      (if updated ≠ [] then [Call.transactionUpdateMessages updated] else []).flatMap
        (@Call.added δ κ υ) = [] := by
    split <;> rfl
  obtain ⟨first, hfirst⟩ : ∃ first : Int → Option δ,
      keptMessages (branch peerId stored (.difference d)) =
        (branch peerId stored (.difference d)).messages.map (Message.fillReply first) :=
    ⟨messageIdToMessage (branch peerId stored (.difference d)).messages, by
      simp [keptMessages, branch]⟩
  obtain ⟨table, htable⟩ : ∃ table : Int → Option δ,
      (pollOnce peerId stored client (.difference d)).1.flatMap Call.added =
        (keptMessages (branch peerId stored (.difference d))).map (Message.fillReply table) := by
    refine ⟨messageIdToMessage ((branch peerId stored (.difference d)).messages ++
      downloadedMessages client (keptMessages (branch peerId stored (.difference d)))), ?_⟩
    simp only [pollOnce, finish, branch, List.flatMap_cons, List.append_nil, Call.added,
      List.nil_append, hedits]
  refine ⟨_, (changesCopies_fillReply table).comp (changesCopies_fillReply first), ?_⟩
  rw [htable, hfirst, List.map_map]
  exact List.map_map

theorem mem_updateChannels_iff (result : ChannelDifference δ κ υ) (conversations : List (Chat κ)) :
    .updateChannels conversations ∈ (pollOnce peerId stored client result).1 ↔
      conversations = (branch peerId stored result).conversations := by
  cases result with
  | empty timeout => simp [pollOnce, branch, finish]
  | tooLong d =>
    simp only [pollOnce, branch, finish]
    split <;> simp
  | difference d =>
    simp only [pollOnce, branch, finish]
    split <;> simp

theorem mem_newlyStored_iff (d : Difference δ κ υ) {mid : Int} :
    (∃ message ∈ newlyStored before (pollOnce peerId stored client (.difference d)).1,
        message.mid = mid) ↔
      ∃ m, IsNew peerId before d m ∧ m.desc.mid = mid := by
  obtain ⟨fill, hfill, hadded⟩ := pollOnce_added peerId stored client d
  have hmid (m : PeerMessage δ) : (fill (Message.ofDesc stored m.desc d.pts)).mid = m.desc.mid :=
    hfill.mid _
  unfold newlyStored
  rw [hadded]
  simp only [List.mem_filter, List.mem_map, decide_eq_true_eq, Option.isNone_iff_eq_none]
  constructor
  · rintro ⟨_, ⟨⟨m, ⟨hm, hne, hcid⟩, rfl⟩, hnone⟩, rfl⟩
    rw [hmid] at hnone ⊢
    exact ⟨m, ⟨hm, hcid, hne, hnone⟩, rfl⟩
  · rintro ⟨m, ⟨hm, hcid, hne, hnone⟩, rfl⟩
    exact ⟨_, ⟨⟨m, ⟨hm, hne, hcid⟩, rfl⟩, (hmid m).symm ▸ hnone⟩, hmid m⟩

theorem exists_newlyStored (d : Difference δ κ υ) {m : PeerMessage δ}
    (h : IsNew peerId before d m) :
    ∃ message ∈ newlyStored before (pollOnce peerId stored client (.difference d)).1,
      message.withoutCopy = Message.ofDesc (fun _ => none) m.desc d.pts := by
  obtain ⟨fill, hfill, hadded⟩ := pollOnce_added peerId stored client d
  obtain ⟨hm, hcid, hne, hnone⟩ := h
  have hmid : (fill (Message.ofDesc stored m.desc d.pts)).mid = m.desc.mid := hfill.mid _
  refine ⟨fill (Message.ofDesc stored m.desc d.pts), ?_, ?_⟩
  · grind [newlyStored]
  · rw [hfill.withoutCopy, Message.ofDesc_withoutCopy]

/-- The messages of a difference are stored as promised if none of them is being sent. -/
theorem storesOthers_iff (d : Difference δ κ υ) (randomIds : List Int) :
    StoresOthers peerId before randomIds d (pollOnce peerId stored client (.difference d)).1 ↔
      ∀ m, IsNew peerId before d m → ¬Mapped randomIds d.otherUpdates m.desc.mid := by
  constructor
  · intro h m hm hmapped
    obtain ⟨message, hmem, hmid⟩ :=
      (mem_newlyStored_iff peerId stored before client d).2 ⟨m, hm, rfl⟩
    exact h.skips message hmem (hmid ▸ hmapped)
  · intro h
    refine ⟨fun message hmem hmapped => ?_, fun m hm _ => ?_⟩
    · obtain ⟨m, hm, hmid⟩ :=
        (mem_newlyStored_iff peerId stored before client d).1 ⟨message, hmem, rfl⟩
      exact h m hm (hmid ▸ hmapped)
    · exact exists_newlyStored peerId stored before client d hm

theorem chats_stored_iff (result : ChannelDifference δ κ υ) :
    (∀ chat ∈ result.chats, chat.conversationId ≠ 0 →
        ∃ conversations, .updateChannels conversations ∈ (pollOnce peerId stored client result).1 ∧
          chat ∈ conversations) ↔
      ∀ d, result = .tooLong d → ∀ chat ∈ d.chats, chat.conversationId = 0 := by
  simp only [mem_updateChannels_iff, exists_eq_left]
  cases result with
  | empty timeout => simp [ChannelDifference.chats]
  | tooLong d =>
    grind [ChannelDifference.chats, branch]
  | difference d =>
    grind [ChannelDifference.chats, branch]

end Finish

/-- An answer is applied as promised if and only if no new message of it is being sent, and,
where it is too long, it has no chats. -/
theorem pollOnce_difference (peerId : Int) (stored before : Messages δ) (client : Client δ)
    (result : ChannelDifference δ κ υ) :
    Applies peerId before client.randomIds result (pollOnce peerId stored client result).1 ↔
      Harmless peerId before client.randomIds result := by
  constructor
  · rintro ⟨hmessages, hchats⟩
    refine ⟨?_, (chats_stored_iff peerId stored client result).1 hchats⟩
    rintro d rfl
    exact (storesOthers_iff peerId stored before client d _).1 (hmessages d rfl)
  · rintro ⟨hmessages, hchats⟩
    refine ⟨?_, (chats_stored_iff peerId stored client result).2 hchats⟩
    rintro d rfl
    exact (storesOthers_iff peerId stored before client d _).2 (hmessages d rfl)

/-- The message 5 is being sent under the random id 7, and stored by the difference. -/
theorem pollOnce_stores_sending :
    ∃ (peerId : Int) (before : Messages Unit) (client : Client Unit)
      (result : ChannelDifference Unit Unit Unit),
      ¬Applies peerId before client.randomIds result (pollOnce peerId before client result).1 := by
  refine ⟨1, fun _ => none, ⟨[7], fun _ => []⟩,
    .difference
      { timeout := none, pts := 9, newMessages := [⟨1, ⟨5, (), 0⟩⟩],
        otherUpdates := [.messageID 7 5], chats := [], users := [] }, fun h => ?_⟩
  have hskips := (h.messages _ rfl).skips
  exact hskips ⟨5, 9, (), false, none⟩ (by decide) ⟨7, by decide, by decide, by decide⟩

end TelegramPub.Ports.ChannelPolls
