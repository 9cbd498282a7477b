import TelegramPub.Ports.MessageTransaction

/-!
# MTSessionInfo

The per-session counters and lists of `MTProto`: the last client message id
and the sequence number, the ids of the messages processed so far, the
confirmations that still have to be sent, and which messages travelled in
which container.

The clock enters as a reading, the whole part of the double `globalTime * 2^32`,
and ids are `int64_t`.  Below `2^31` seconds (`Readable`) the conversion of a
reading is exact, and rounding it up to a multiple of four does not overflow: a
double below `2^63` is at most `2^63 - 1024`.  From there on the conversion is
undefined in C; here it wraps.  The sequence number is an `int32_t` that is
incremented by two for ever, so it wraps.
-/

namespace TelegramPub.Ports.Session

open Verified.Bytes Ports.MessageTransaction

/-- `MTScheduledMessageConfirmation`. -/
structure ScheduledMessageConfirmation where
  messageId : Int
  size : Int
  transactionIds : List TransactionId := []
  deriving DecidableEq

/-- `MTSessionInfo`.  The processed ids are a set; the mapping of containers is
a dictionary filled by the listed assignments. -/
structure SessionInfo where
  lastClientMessageId : Int := 0
  seqNo : Int := 0
  processedMessageIdsSet : List Int := []
  scheduledMessageConfirmations : List ScheduledMessageConfirmation := []
  containerMessagesMappingDict : List (Int × List Int) := []
  deriving DecidableEq

/-! ## Client message ids -/

/-- The clock reads less than `2^31` seconds, before or after 1970. -/
def Readable (reading : Int) : Prop := -(2 ^ 63) ≤ reading ∧ reading ≤ 2 ^ 63 - 1024

instance (reading : Int) : Decidable (Readable reading) := inferInstanceAs (Decidable (_ ∧ _))

/-- `while (messageId % 4 != 0) messageId++`. -/
def alignMessageId (messageId : Int) : Int := int64 (messageId + -messageId % 4)

theorem alignMessageId_dvd (messageId : Int) : 4 ∣ alignMessageId messageId := by
  unfold alignMessageId int64
  rw [Int.bmod_def]
  split <;> omega

theorem int64_of_range {n : Int} (hlo : -(2 ^ 63) ≤ n) (hhi : n < 2 ^ 63) : int64 n = n :=
  Int.bmod_eq_of_le_mul_two (by norm_num; omega) (by norm_num; omega)

/-- Rounding up does not overflow, not even one above a readable number. -/
theorem alignMessageId_of_range {messageId : Int} (hlo : -(2 ^ 63) ≤ messageId)
    (hhi : messageId ≤ 2 ^ 63 - 1023) :
    alignMessageId messageId = messageId + -messageId % 4 :=
  int64_of_range (by omega) (by omega)

/-- The loop has stopped at once on a multiple of four. -/
example : alignMessageId 1025 = 1028 ∧ alignMessageId 1028 = 1028 := by decide

/-- `generateClientMessageId:`.  The second component says whether the caller's
flag, if it passes one, is raised. -/
def generateClientMessageId (s : SessionInfo) (reading : Int) : Int × Bool × SessionInfo :=
  let messageId := int64 reading
  let violated := decide (messageId < s.lastClientMessageId)
  let messageId :=
    if messageId = s.lastClientMessageId then int64 (s.lastClientMessageId + 1) else messageId
  let messageId := alignMessageId messageId
  (messageId, violated, { s with lastClientMessageId := messageId })

theorem generateClientMessageId_dvd (s : SessionInfo) (reading : Int) :
    4 ∣ (generateClientMessageId s reading).1 :=
  alignMessageId_dvd _

theorem generateClientMessageId_flag (s : SessionInfo) {reading : Int} (h : Readable reading) :
    (generateClientMessageId s reading).2.1 = decide (reading < s.lastClientMessageId) := by
  show decide (int64 reading < s.lastClientMessageId) = _
  rw [int64_of_range h.1 (by have := h.2; omega)]

/-- From an aligned last id, the next one is larger exactly when the clock has
not gone back behind it. -/
theorem lt_generateClientMessageId_iff (s : SessionInfo) {reading : Int}
    (h : Readable reading) (hlast : 4 ∣ s.lastClientMessageId) :
    s.lastClientMessageId < (generateClientMessageId s reading).1 ↔
      s.lastClientMessageId ≤ reading := by
  obtain ⟨hlo, hhi⟩ := h
  show s.lastClientMessageId < alignMessageId (if int64 reading = s.lastClientMessageId then
    int64 (s.lastClientMessageId + 1) else int64 reading) ↔ _
  rw [int64_of_range hlo (by omega)]
  split
  next heq =>
    rw [int64_of_range (by omega) (by omega), alignMessageId_of_range (by omega) (by omega)]
    omega
  next hne =>
    rw [alignMessageId_of_range hlo (by omega)]
    omega

/-- `takeSeqNo:`. -/
def takeSeqNo (s : SessionInfo) (messageIsMeaningful : Bool) : Int × SessionInfo :=
  if messageIsMeaningful then
    (int32 (s.seqNo + 1), { s with seqNo := int32 (s.seqNo + 2) })
  else (s.seqNo, s)

/-! ## Processed messages and confirmations -/

/-- `messageProcessed:`. -/
def messageProcessed (s : SessionInfo) (messageId : Int) : Bool :=
  s.processedMessageIdsSet.contains messageId

/-- `setMessageProcessed:`. -/
def setMessageProcessed (s : SessionInfo) (messageId : Int) : SessionInfo :=
  { s with processedMessageIdsSet := s.processedMessageIdsSet.insert messageId }

/-- `scheduleMessageConfirmation:size:`. -/
def scheduleMessageConfirmation (s : SessionInfo) (messageId size : Int) : SessionInfo :=
  if s.scheduledMessageConfirmations.any (·.messageId == messageId) then s
  else
    { s with
      scheduledMessageConfirmations :=
        s.scheduledMessageConfirmations ++ [{ messageId, size }] }

/-- `scheduledMessageConfirmations`; `nil` is the empty list. -/
def scheduledIds (s : SessionInfo) : List Int :=
  s.scheduledMessageConfirmations.map (·.messageId)

/-- `scheduledMessageConfirmationsExceedSize:orCount:`. -/
def scheduledMessageConfirmationsExceed (s : SessionInfo) (sizeLimit : Int)
    (countLimit : Nat) : Bool :=
  if countLimit < s.scheduledMessageConfirmations.length then true
  else if s.scheduledMessageConfirmations.isEmpty then false
  else decide (sizeLimit < (s.scheduledMessageConfirmations.map (·.size)).sum)

/-- `addTransactionId:`. -/
def ScheduledMessageConfirmation.addTransactionId (c : ScheduledMessageConfirmation)
    (transactionId : TransactionId) : ScheduledMessageConfirmation :=
  if c.transactionIds.contains transactionId then c
  else { c with transactionIds := c.transactionIds ++ [transactionId] }

/-- `assignTransactionId:toScheduledMessageConfirmationsWithIds:`. -/
def assignTransactionId (s : SessionInfo) (transactionId : TransactionId)
    (messageIds : List Int) : SessionInfo :=
  { s with
    scheduledMessageConfirmations := s.scheduledMessageConfirmations.map fun c =>
      if messageIds.contains c.messageId then c.addTransactionId transactionId else c }

/-- `removeScheduledMessageConfirmationsWithTransactionIds:`. -/
def removeScheduledMessageConfirmations (s : SessionInfo)
    (transactionIds : List TransactionId) : SessionInfo :=
  { s with
    scheduledMessageConfirmations := s.scheduledMessageConfirmations.filter fun c =>
      !transactionIds.any (c.transactionIds.contains ·) }

/-- `addContainerMessageIdMapping:childMessageIds:`. -/
def addContainerMessageIdMapping (s : SessionInfo) (containerMessageId : Int)
    (childMessageIds : List Int) : SessionInfo :=
  { s with
    containerMessagesMappingDict :=
      s.containerMessagesMappingDict.filter (·.1 != containerMessageId) ++
        [(containerMessageId, childMessageIds)] }

/-- `messageIdsInContainersAfterMessageId:`. -/
def messageIdsInContainersAfterMessageId (s : SessionInfo) (firstMessageId : Int) :
    List Int :=
  s.containerMessagesMappingDict.flatMap fun (containerMessageId, messageIds) =>
    messageIds.filter fun messageId =>
      firstMessageId ≤ containerMessageId || firstMessageId ≤ messageId

end TelegramPub.Ports.Session
