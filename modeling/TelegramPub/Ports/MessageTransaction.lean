import TelegramPub.Verified.Bytes

/-!
# Outgoing and prepared messages

The values that travel between the message services and `MTProto`.  A service
answers a transaction request with outgoing messages; `MTProto` gives each a
message id and a sequence number, which makes it a prepared message, and
reports back to the service under the outgoing message's internal id.
-/

namespace TelegramPub.Ports.MessageTransaction

open Verified.Bytes

/-- The `internalId` of a transport connection, which the services store as
the `transactionId` of what was sent on it. -/
abbrev TransactionId := Nat

/-- `MTPreparedMessage`.  `messageInternalId` is the internal id of the
outgoing message it was prepared from. -/
structure PreparedMessage where
  messageInternalId : Nat
  data : Data
  messageId : Int
  seqNo : Int
  salt : Int
  requiresConfirmation : Bool
  hasHighPriority : Bool
  inResponseToMessageId : Int
  deriving DecidableEq

/-- `MTOutgoingMessage`.  A `messageId` of zero asks for a fresh one. -/
structure OutgoingMessage where
  internalId : Nat
  data : Data
  messageId : Int := 0
  messageSeqNo : Int := 0
  requiresConfirmation : Bool := true
  needsQuickAck : Bool := false
  hasHighPriority : Bool := false
  inResponseToMessageId : Int := 0
  dynamicDecorator : Option (Data → (Nat → Option PreparedMessage) → Data) := none

/-- A dictionary filled by the given assignments in order: a later one
overwrites an earlier one. -/
def dictionary {κ υ : Type} [BEq κ] (entries : List (κ × υ)) (key : κ) : Option υ :=
  entries.reverse.lookup key

theorem dictionary_eq_none_iff {κ υ : Type} [BEq κ] [LawfulBEq κ] {entries : List (κ × υ)}
    {key : κ} : dictionary entries key = none ↔ ∀ entry ∈ entries, entry.1 ≠ key := by
  unfold dictionary
  rw [List.lookup_eq_none_iff]
  constructor
  · intro hnone entry hentry heq
    have hne := hnone entry (List.mem_reverse.2 hentry)
    simp [heq] at hne
  · intro hne entry hentry
    simpa using Ne.symm (hne entry (List.mem_reverse.1 hentry))

theorem dictionary_mem {κ υ : Type} [BEq κ] [LawfulBEq κ] {entries : List (κ × υ)} {key : κ}
    {value : υ} (h : dictionary entries key = some value) : (key, value) ∈ entries := by
  obtain ⟨before, after, hsplit, _⟩ := List.lookup_eq_some_iff.1 h
  rw [← List.mem_reverse, hsplit]
  exact List.mem_append_right _ (.head _)

end TelegramPub.Ports.MessageTransaction
