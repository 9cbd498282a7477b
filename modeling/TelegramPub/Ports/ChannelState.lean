import TelegramPub.Verified.Bytes
import TelegramPub.Verified.ComparatorSort
import Mathlib.Data.List.Chain

/-!
# TGManagedChannelState: applying the updates of a channel

A channel has its own `pts`.  `applyUpdates:` sorts the updates that carry one, walks
through them from the stored `pts`, and collects what continues it.  An update that is not
above the `pts` reached is passed over, and one that leaves a gap makes the signal fail, so
that the difference is requested.

A message that replies to one that the client does not have waits for that one to be
downloaded.  So the changes are written on two paths, with the same calls on both.
-/

namespace TelegramPub.Ports.ChannelState

open Verified.Bytes Verified.ComparatorSort

variable {δ : Type}

/-! ## Messages and updates -/

/-- A `TLMessage`; `replyTo` is `reply_to_msg_id`. -/
structure MessageDesc (δ : Type) where
  mid : Int
  content : δ
  replyTo : Int := 0
  deriving DecidableEq

/-- A `TGReplyMessageMediaAttachment`, with what the copy of the message says. -/
structure ReplyAttachment (δ : Type) where
  replyMessageId : Int
  replyMessage : Option δ
  deriving DecidableEq

/-- A `TGMessage`.  `contentsRead` is the content property of that name. -/
structure Message (δ : Type) where
  mid : Int
  pts : Int32 := 0
  content : δ
  contentsRead : Bool := false
  reply : Option (ReplyAttachment δ) := none
  deriving DecidableEq

/-- The messages of a channel, by their id. -/
abbrev Messages (δ : Type) := Int → Option (Message δ)

/-- `initWithTelegraphMessageDesc:`, and the `pts` of the update. -/
def Message.ofDesc (stored : Messages δ) (desc : MessageDesc δ) (pts : Int32) : Message δ where
  mid := desc.mid
  pts := pts
  content := desc.content
  reply :=
    if desc.replyTo ≠ 0 then
      some ⟨desc.replyTo, (stored desc.replyTo).map Message.content⟩
    else none

/-- The updates that carry a `pts`. -/
inductive PtsUpdate (δ : Type) where
  | newChannelMessage (message : MessageDesc δ) (pts ptsCount : Int32)
  | editChannelMessage (message : MessageDesc δ) (pts ptsCount : Int32)
  | deleteChannelMessages (messages : List Int) (pts ptsCount : Int32)
  | channelWebPage (pts ptsCount : Int32)
  deriving DecidableEq

def PtsUpdate.pts : PtsUpdate δ → Int32
  | .newChannelMessage _ pts _ => pts
  | .editChannelMessage _ pts _ => pts
  | .deleteChannelMessages _ pts _ => pts
  | .channelWebPage pts _ => pts

def PtsUpdate.ptsCount : PtsUpdate δ → Int32
  | .newChannelMessage _ _ ptsCount => ptsCount
  | .editChannelMessage _ _ ptsCount => ptsCount
  | .deleteChannelMessages _ _ ptsCount => ptsCount
  | .channelWebPage _ ptsCount => ptsCount

def PtsUpdate.isWebPage : PtsUpdate δ → Bool
  | .channelWebPage _ _ => true
  | _ => false

inductive Update (δ : Type) where
  | pts (update : PtsUpdate δ)
  | readChannelInbox (maxId : Int)
  | readChannelOutbox (maxId : Int)
  | channelTooLong
  | messageID (randomId nId : Int)
  | channelPinnedMessage (nId : Int)
  | channelReadMessagesContents (messages : List Int)
  | channelAvailableMessages (availableMinId : Int)
  deriving DecidableEq

/-- The variables of the first loop. -/
structure Scan (δ : Type) where
  ptsUpdates : List (PtsUpdate δ) := []
  readContentsMessageIds : List Int := []
  maxReadId : Int := 0
  maxReadOutgoingId : Int := 0
  pinnedMessageId : Option Int := none
  failed : Bool := false
  maxAvailableMessageId : Int := 0

def Scan.visit (s : Scan δ) : Update δ → Scan δ
  | .pts update => { s with ptsUpdates := s.ptsUpdates ++ [update] }
  | .readChannelInbox maxId => { s with maxReadId := max s.maxReadId maxId }
  | .readChannelOutbox maxId => { s with maxReadOutgoingId := max s.maxReadOutgoingId maxId }
  | .channelTooLong => { s with failed := true }
  | .messageID _ _ => s
  | .channelPinnedMessage nId => { s with pinnedMessageId := some nId }
  | .channelReadMessagesContents messages =>
    { s with readContentsMessageIds := s.readContentsMessageIds ∪ messages }
  | .channelAvailableMessages availableMinId =>
    { s with
      maxAvailableMessageId := max s.maxAvailableMessageId (int32 (availableMinId + 1)) }

def scan (updates : List (Update δ)) : Scan δ := updates.foldl Scan.visit {}

/-- `randomIdToMessageId`: of two entries the later one counts. -/
def randomIdToMessageId (updates : List (Update δ)) (randomId : Int) : Option Int :=
  updates.reverse.findSome? fun
    | .messageID key nId => if key = randomId then some nId else none
    | _ => none

/-- The messages that this client is sending; `randomIds` are those of the executing actors. -/
def skipMessageIds (randomIds : List Int) (updates : List (Update δ)) : List Int :=
  (randomIds.filter (· ≠ 0)).filterMap (randomIdToMessageId updates)

/-- The comparator.  For a web page on the right it reads the `pts` of the left side. -/
def comparator (lhs rhs : PtsUpdate δ) : Ordering :=
  let lhsPts := lhs.pts
  let rhsPts := if rhs.isWebPage then lhs.pts else rhs.pts
  if lhsPts < rhsPts then .lt else .gt

/-- The variables of the walk.  `applied` is not in the source: the updates that have moved
`updatedPts`. -/
structure Walk (δ : Type) where
  updatedPts : Int32
  failed : Bool := false
  addedMessages : List (Message δ) := []
  updatedMessages : List (Message δ) := []
  deletedMessageIds : List Int := []
  applied : List (PtsUpdate δ) := []

section Walk

variable (stored : Messages δ) (skip : List Int)

/-- The message of an update, as a list of at most one. -/
def accepted (desc : MessageDesc δ) (pts : Int32) : List (Message δ) :=
  let message := Message.ofDesc stored desc pts
  if message.mid ≠ 0 ∧ message.mid ∉ skip then [message] else []

/-- An update that continues the `pts`. -/
def Walk.collect (w : Walk δ) (update : PtsUpdate δ) : Walk δ :=
  let w := { w with updatedPts := update.pts, applied := w.applied ++ [update] }
  match update with
  | .newChannelMessage message pts _ =>
    { w with addedMessages := w.addedMessages ++ accepted stored skip message pts }
  | .editChannelMessage message pts _ =>
    { w with updatedMessages := w.updatedMessages ++ accepted stored skip message pts }
  | .deleteChannelMessages messages _ _ =>
    { w with deletedMessageIds := w.deletedMessageIds ++ messages }
  | .channelWebPage _ _ => w

/-- A round of the walk, the same for each class of updates. -/
def Walk.visit (w : Walk δ) (update : PtsUpdate δ) : Walk δ :=
  if update.pts ≤ w.updatedPts then w
  else if w.updatedPts + update.ptsCount = update.pts then w.collect stored skip update
  else { w with failed := true }

def Walk.run (w : Walk δ) (updates : List (PtsUpdate δ)) : Walk δ :=
  updates.foldl (Walk.visit stored skip) w

end Walk

/-- `addedMessageIdToMessage`. -/
def messageIdToMessage (messages : List (Message δ)) (mid : Int) : Option δ :=
  (messages.reverse.find? (·.mid = mid)).map Message.content

/-- The id that a reply without a copy refers to. -/
def Message.missingReply (message : Message δ) : Option Int :=
  match message.reply with
  | some ⟨replyMessageId, none⟩ => if replyMessageId ≠ 0 then some replyMessageId else none
  | _ => none

/-- A missing copy is taken from the table, if it is there. -/
def Message.fillReply (table : Int → Option δ) (message : Message δ) : Message δ :=
  match message.missingReply with
  | some replyMessageId => { message with reply := some ⟨replyMessageId, table replyMessageId⟩ }
  | none => message

/-- The calls that write to the database. -/
inductive Call (δ : Type) where
  | transactionUpdateMessages (contentsRead : List Int) (messages : List (Message δ))
  | addMessagesToChannelAndDispatch (messages : List (Message δ)) (deletedMessages : List Int)
      (pts : Int32)
  | addedNewMessages (messages : List (Message δ))
  | updateChannelRead (maxReadId : Int)
  | applyMaxOutgoingReadIds (maxReadOutgoingId : Int)
  | updateChannelPinnedMessageId (pinnedMessageId : Int)
  | deleteEarlierHistory (maxAvailableMessageId : Int)

/-- A stored channel.  `_updateChannelConversation` stores a `pts` of 1 at least. -/
structure Channel (δ : Type) where
  pts : Int32
  persistent : Bool
  minAvailableMessageId : Int
  messages : Messages δ
  pts_nonneg : 0 ≤ pts

/-- `_updateChannelConversation` for a channel that is not there yet. -/
def Channel.insert (pts : Int32) (persistent : Bool) (minAvailableMessageId : Int) :
    Channel δ where
  pts := if 1 ≤ pts then pts else 1
  persistent := persistent
  minAvailableMessageId := minAvailableMessageId
  messages := fun _ => none
  pts_nonneg := by
    split
    · next h => exact Int32.le_trans (by decide) h
    · decide

/-- The calls on either path; `added` and `updated` are the messages with their replies. -/
def calls (channel : Channel δ) (s : Scan δ) (w : Walk δ) (added updated : List (Message δ)) :
    List (Call δ) :=
  (if s.readContentsMessageIds = [] ∧ updated.length = 0 then []
    else [.transactionUpdateMessages s.readContentsMessageIds updated]) ++
  (if w.updatedPts ≠ channel.pts then
    [.addMessagesToChannelAndDispatch added w.deletedMessageIds w.updatedPts] else []) ++
  (if channel.persistent ∧ added.length ≠ 0 then [.addedNewMessages added] else []) ++
  (if s.maxReadId ≠ 0 then [.updateChannelRead s.maxReadId] else []) ++
  (if s.maxReadOutgoingId ≠ 0 then [.applyMaxOutgoingReadIds s.maxReadOutgoingId] else []) ++
  (match s.pinnedMessageId with
    | some pinned => [.updateChannelPinnedMessageId
        (if channel.minAvailableMessageId ≤ pinned then pinned else 0)]
    | none => []) ++
  (if s.maxAvailableMessageId ≠ 0 then [.deleteEarlierHistory s.maxAvailableMessageId] else [])

/-- What the rest of the client gives: the random ids of the messages that are being sent,
and the messages that come when some are downloaded. -/
structure Client (δ : Type) where
  randomIds : List Int
  downloadMessages : List Int → List (Message δ)

/-- The walk of `applyUpdates:` through the sorted updates. -/
def walk (sorter : Sorter (comparator (δ := δ))) (client : Client δ) (channel : Channel δ)
    (updates : List (Update δ)) : Walk δ :=
  Walk.run channel.messages (skipMessageIds client.randomIds updates)
    { updatedPts := channel.pts, failed := (scan updates).failed }
    (sorter.sort (scan updates).ptsUpdates)

/-- `applyUpdates:`: the calls, and whether the signal fails. -/
def applyUpdates (sorter : Sorter (comparator (δ := δ))) (client : Client δ)
    (channel : Channel δ) (updates : List (Update δ)) : List (Call δ) × Bool :=
  let s := scan updates
  let w := walk sorter client channel updates
  let table := messageIdToMessage w.addedMessages
  let added := w.addedMessages.map (Message.fillReply table)
  let updated := w.updatedMessages.map (Message.fillReply table)
  let downloadMessages := (added ++ updated).filterMap Message.missingReply
  if downloadMessages ≠ [] then
    let table := messageIdToMessage
      (w.addedMessages ++ client.downloadMessages downloadMessages)
    (calls channel s w (added.map (Message.fillReply table))
      (updated.map (Message.fillReply table)), w.failed)
  else
    (calls channel s w added updated, w.failed)

/-- `_updateMessages:` for a read content. -/
def readContents (messages : Messages δ) (mid : Int) : Messages δ :=
  match messages mid with
  | some message => Function.update messages mid (some { message with contentsRead := true })
  | none => messages

/-- `_updateMessages:` for a `TGDatabaseUpdateMessageWithMessage`. -/
def updateMessage (messages : Messages δ) (message : Message δ) : Messages δ :=
  match messages message.mid with
  | some _ => Function.update messages message.mid (some message)
  | none => messages

/-- `DELETE … WHERE mid=?`. -/
def deleteMessage (messages : Messages δ) (mid : Int) : Messages δ :=
  Function.update messages mid none

/-- `INSERT OR REPLACE`. -/
def insertMessage (messages : Messages δ) (message : Message δ) : Messages δ :=
  Function.update messages message.mid (some message)

/-- `addMessagesToChannel:`: the messages that are there before are skipped. -/
def addMessagesToChannel (messages : Messages δ) (added : List (Message δ))
    (deletedMessages : List Int) : Messages δ :=
  (added.filter fun message => (messages message.mid).isNone).foldl insertMessage
    (deletedMessages.foldl deleteMessage messages)

/-- What a call does to the `pts` and the messages; the others change neither. -/
def Channel.execute (channel : Channel δ) : Call δ → Channel δ
  | .transactionUpdateMessages contentsRead messages =>
    { channel with
      messages :=
        messages.foldl updateMessage (contentsRead.foldl readContents channel.messages) }
  | .addMessagesToChannelAndDispatch messages deletedMessages pts =>
    { channel with
      pts := if 0 < pts then pts else channel.pts
      pts_nonneg := by
        split
        · next h => exact Int32.le_of_lt h
        · exact channel.pts_nonneg
      messages := addMessagesToChannel channel.messages messages deletedMessages }
  | .deleteEarlierHistory maxAvailableMessageId =>
    { channel with
      messages := fun mid => if mid < maxAvailableMessageId then none else channel.messages mid }
  | _ => channel

def Channel.executeAll (channel : Channel δ) (calls : List (Call δ)) : Channel δ :=
  calls.foldl Channel.execute channel

end TelegramPub.Ports.ChannelState
