import TelegramPub.Verified.Machine
import TelegramPub.Verified.Transactions

/-!
# TGDatabase: the transactions of the channel calls

`addMessagesToChannel` begins a transaction unless there is one already, and commits it
several hundred lines further down, at the end of the branch for a known channel.  For a
channel that is not known the other branch is taken, and the transaction stays open: what
this and later calls write is not committed, and lost when the process dies.  One of the
three calls around it looks for the channel first.  `channel_transactions` says that the
others do well on known channels only.
-/

namespace TelegramPub.Ports.ChannelTransactions

open Verified.Machine Verified.Transactions Verified.Transactions.Session

/-- The tables of the database, and the channels in them: those that
`_loadChannelConversation:` finds. -/
class Tables (σ : Type) where
  isKnown : σ → Int → Bool

variable {σ : Type} [Tables σ]

/-- A statement of these calls.  They update rows of the list of channels, but neither add
nor delete any. -/
structure Write (σ : Type) [Tables σ] where
  run : σ → σ
  isKnown : ∀ tables, Tables.isKnown (run tables) = Tables.isKnown tables

/-- `executeUpdate:`, one statement after the other. -/
def executeUpdates (writes : List (Write σ)) (s : Session σ) : Session σ :=
  s.execute (writes.map Write.run)

/-- What `addMessagesToChannel` writes for a known channel, in its order. -/
structure ChannelWrites (σ : Type) [Tables σ] where
  messages : List (Write σ) := []
  media : List (Write σ) := []
  conversation : List (Write σ) := []
  readState : List (Write σ) := []
  replyMarkups : List (Write σ) := []
  queuedActions : List (List (Write σ)) := []

def cacheMedia (writes : List (Write σ)) (s : Session σ) : Session σ :=
  bracket (executeUpdates writes) s

def storeQueuedActions (s : Session σ) (writes : List (Write σ)) : Session σ :=
  bracket (executeUpdates writes) s

/-- The branch for a known channel, up to the commit. -/
def writeMessages (w : ChannelWrites σ) (s : Session σ) : Session σ :=
  let s := executeUpdates w.messages s
  let s := cacheMedia w.media s
  executeUpdates w.conversation s

/-- The branch for a known channel, after the commit. -/
def afterCommit (w : ChannelWrites σ) (s : Session σ) : Session σ :=
  let s := executeUpdates w.readState s
  let s := executeUpdates w.replyMarkups s
  w.queuedActions.foldl storeQueuedActions s

def addMessagesToChannel (peerId : Int) (w : ChannelWrites σ) (s : Session σ) : Session σ :=
  let wasInTransaction := s.inTransaction
  let s := if wasInTransaction then s else s.beginTransaction
  if Tables.isKnown s.current peerId then
    let s := writeMessages w s
    let s := if wasInTransaction then s else s.commit
    afterCommit w s
  else
    s

/-- `conversation` are the updates of the row of the channel: its `pts`, and the pinned
message if it is deleted. -/
def addMessagesToChannelAndDispatch (peerId : Int) (conversation : List (Write σ))
    (w : ChannelWrites σ) (s : Session σ) : Session σ :=
  if Tables.isKnown s.current peerId then
    addMessagesToChannel peerId w (executeUpdates conversation s)
  else
    s

def updateChannelMessageSortKeyAndDispatch (peerId : Int) (w : ChannelWrites σ)
    (s : Session σ) : Session σ :=
  addMessagesToChannel peerId w s

/-- `pinned` is the update of the pinned message, if it is by the user. -/
def deleteMessagesInChannel (peerId : Int) (pinned : List (Write σ)) (w : ChannelWrites σ)
    (s : Session σ) : Session σ :=
  addMessagesToChannel peerId w (executeUpdates pinned s)

/-- A call on the database thread. -/
inductive Call (σ : Type) [Tables σ] where
  | addMessagesToChannel (peerId : Int) (w : ChannelWrites σ)
  | addMessagesToChannelAndDispatch (peerId : Int) (conversation : List (Write σ))
      (w : ChannelWrites σ)
  | updateChannelMessageSortKeyAndDispatch (peerId : Int) (w : ChannelWrites σ)
  | deleteMessagesInChannel (peerId : Int) (pinned : List (Write σ)) (w : ChannelWrites σ)

def step (s : Session σ) : Call σ → Session σ
  | .addMessagesToChannel peerId w => addMessagesToChannel peerId w s
  | .addMessagesToChannelAndDispatch peerId conversation w =>
    addMessagesToChannelAndDispatch peerId conversation w s
  | .updateChannelMessageSortKeyAndDispatch peerId w =>
    updateChannelMessageSortKeyAndDispatch peerId w s
  | .deleteMessagesInChannel peerId pinned w => deleteMessagesInChannel peerId pinned w s

/-! ## What the calls should do -/

/-- Outside a transaction a run leaves none open after any call, and inside of one a call
goes on with it. -/
structure LeavesTransactions (s : Session σ) (calls : List (Call σ)) : Prop where
  outside : s.inTransaction = false → ∀ k, Settled (run step s (calls.take k))
  inside : ∀ (t : Session σ) (call : Call σ), t.inTransaction = true → Inside t (step t call)

/-- The channel is known, or the call looks for it first. -/
def Looked (known : Int → Bool) : Call σ → Prop
  | .addMessagesToChannel peerId _ => known peerId = true
  | .addMessagesToChannelAndDispatch _ _ _ => True
  | .updateChannelMessageSortKeyAndDispatch peerId _ => known peerId = true
  | .deleteMessagesInChannel peerId _ _ => known peerId = true

section Branches

theorem keeps_executeUpdates (writes : List (Write σ)) :
    Keeps Tables.isKnown (executeUpdates writes) := by
  refine keeps_execute fun w hw tables => ?_
  obtain ⟨write, _, rfl⟩ := List.mem_map.1 hw
  exact write.isKnown tables

theorem keeps_writeMessages (w : ChannelWrites σ) : Keeps Tables.isKnown (writeMessages w) :=
  ((keeps_executeUpdates w.messages).comp (keeps_bracket (keeps_executeUpdates w.media))).comp
    (keeps_executeUpdates w.conversation)

theorem keeps_afterCommit (w : ChannelWrites σ) : Keeps Tables.isKnown (afterCommit w) := by
  have hactions : Keeps Tables.isKnown fun s : Session σ =>
      w.queuedActions.foldl storeQueuedActions s :=
    keeps_foldl fun writes _ => keeps_bracket (keeps_executeUpdates writes)
  exact ((keeps_executeUpdates w.readState).comp (keeps_executeUpdates w.replyMarkups)).comp
    hactions

variable {peerId : Int} {w : ChannelWrites σ} {s : Session σ}

/-- On a known channel the begin and the commit are a pair. -/
theorem addMessagesToChannel_of_known (h : Tables.isKnown s.current peerId = true) :
    addMessagesToChannel peerId w s = afterCommit w (bracket (writeMessages w) s) := by
  unfold addMessagesToChannel bracket
  dsimp only
  rw [beginUnless_current, if_pos h]

theorem addMessagesToChannel_of_unknown (h : Tables.isKnown s.current peerId = false) :
    addMessagesToChannel peerId w s = if s.inTransaction then s else s.beginTransaction := by
  unfold addMessagesToChannel
  dsimp only
  rw [beginUnless_current, if_neg (by simp [h])]

theorem addMessagesToChannel_isKnown :
    Tables.isKnown (addMessagesToChannel peerId w s).current = Tables.isKnown s.current := by
  cases h : Tables.isKnown s.current peerId with
  | true =>
    rw [addMessagesToChannel_of_known h]
    exact ((keeps_bracket (keeps_writeMessages w)).comp (keeps_afterCommit w)).part s
  | false =>
    rw [addMessagesToChannel_of_unknown h, beginUnless_current]

theorem inside_addMessagesToChannel (hs : s.inTransaction = true) :
    Inside s (addMessagesToChannel peerId w s) := by
  cases h : Tables.isKnown s.current peerId with
  | true =>
    rw [addMessagesToChannel_of_known h]
    exact ((keeps_bracket (keeps_writeMessages w)).comp (keeps_afterCommit w)).inside s hs
  | false =>
    rw [addMessagesToChannel_of_unknown h, if_pos hs]
    exact .refl hs

/-- Outside a transaction the call leaves one open on an unknown channel. -/
theorem addMessagesToChannel_inTransaction (hs : s.inTransaction = false) :
    (addMessagesToChannel peerId w s).inTransaction = !Tables.isKnown s.current peerId := by
  cases h : Tables.isKnown s.current peerId with
  | true =>
    rw [addMessagesToChannel_of_known h]
    exact ((keeps_bracket (keeps_writeMessages w)).comp (keeps_afterCommit w)).outside s hs
  | false =>
    rw [addMessagesToChannel_of_unknown h, if_neg (by simp [hs])]
    rfl

theorem addMessagesToChannelAndDispatch_of_known {conversation : List (Write σ)}
    (h : Tables.isKnown s.current peerId = true) :
    addMessagesToChannelAndDispatch peerId conversation w s =
      addMessagesToChannel peerId w (executeUpdates conversation s) :=
  if_pos h

theorem addMessagesToChannelAndDispatch_of_unknown {conversation : List (Write σ)}
    (h : ¬Tables.isKnown s.current peerId = true) :
    addMessagesToChannelAndDispatch peerId conversation w s = s :=
  if_neg h

end Branches

section Calls

variable (s : Session σ) (call : Call σ)

theorem step_isKnown : Tables.isKnown (step s call).current = Tables.isKnown s.current := by
  cases call with
  | addMessagesToChannel peerId w => exact addMessagesToChannel_isKnown
  | addMessagesToChannelAndDispatch peerId conversation w =>
    simp only [step]
    by_cases h : Tables.isKnown s.current peerId = true
    · rw [addMessagesToChannelAndDispatch_of_known h]
      exact addMessagesToChannel_isKnown.trans ((keeps_executeUpdates conversation).part s)
    · rw [addMessagesToChannelAndDispatch_of_unknown h]
  | updateChannelMessageSortKeyAndDispatch peerId w => exact addMessagesToChannel_isKnown
  | deleteMessagesInChannel peerId pinned w =>
    exact addMessagesToChannel_isKnown.trans ((keeps_executeUpdates pinned).part s)

variable {s}

theorem inside_step (hs : s.inTransaction = true) : Inside s (step s call) := by
  cases call with
  | addMessagesToChannel peerId w => exact inside_addMessagesToChannel hs
  | addMessagesToChannelAndDispatch peerId conversation w =>
    simp only [step]
    have hfirst := (keeps_executeUpdates conversation).inside s hs
    by_cases h : Tables.isKnown s.current peerId = true
    · rw [addMessagesToChannelAndDispatch_of_known h]
      exact hfirst.trans (inside_addMessagesToChannel hfirst.inTransaction)
    · rw [addMessagesToChannelAndDispatch_of_unknown h]
      exact .refl hs
  | updateChannelMessageSortKeyAndDispatch peerId w => exact inside_addMessagesToChannel hs
  | deleteMessagesInChannel peerId pinned w =>
    have hfirst := (keeps_executeUpdates pinned).inside s hs
    exact hfirst.trans (inside_addMessagesToChannel hfirst.inTransaction)

/-- Outside a transaction a call leaves none open if and only if it looks for the channel or
the channel is known. -/
theorem step_inTransaction_iff (hs : s.inTransaction = false) :
    (step s call).inTransaction = false ↔ Looked (Tables.isKnown s.current) call := by
  cases call with
  | addMessagesToChannel peerId w =>
    simp [step, addMessagesToChannel_inTransaction hs, Looked]
  | addMessagesToChannelAndDispatch peerId conversation w =>
    have hfirst := (keeps_executeUpdates conversation).outside s hs
    have hknown := (keeps_executeUpdates conversation).part s
    simp only [step]
    by_cases h : Tables.isKnown s.current peerId = true
    · rw [addMessagesToChannelAndDispatch_of_known h]
      simp [addMessagesToChannel_inTransaction hfirst, hknown, h, Looked]
    · rw [addMessagesToChannelAndDispatch_of_unknown h]
      simp [hs, Looked]
  | updateChannelMessageSortKeyAndDispatch peerId w =>
    simp [step, updateChannelMessageSortKeyAndDispatch, addMessagesToChannel_inTransaction hs,
      Looked]
  | deleteMessagesInChannel peerId pinned w =>
    have hfirst := (keeps_executeUpdates pinned).outside s hs
    have hknown := (keeps_executeUpdates pinned).part s
    simp [step, deleteMessagesInChannel, addMessagesToChannel_inTransaction hfirst, hknown,
      Looked]

end Calls

theorem guarded_iff_forall {known : Int → Bool} (calls : List (Call σ)) : ∀ s : Session σ,
    Guarded step (fun _ call => Looked known call) s calls ↔
      ∀ call ∈ calls, Looked known call := by
  induction calls with
  | nil => simp [Guarded]
  | cons call calls ih => simp [Guarded, ih]

/-- A run leaves the transactions as it finds them if and only if it was started inside of
one, or every call is on a known channel or looks for the channel first. -/
theorem channel_transactions (s : Session σ) (calls : List (Call σ)) :
    LeavesTransactions s calls ↔
      (s.inTransaction = false → ∀ call ∈ calls, Looked (Tables.isKnown s.current) call) := by
  have hruns (hs : s.inTransaction = false) :
      (∀ k, Settled (run step s (calls.take k))) ↔
        ∀ call ∈ calls, Looked (Tables.isKnown s.current) call := by
    rw [← guarded_iff_forall calls s]
    have hkeep (t : Session σ) (call : Call σ)
        (ht : t.inTransaction = false ∧ Tables.isKnown t.current = Tables.isKnown s.current)
        (hlooked : Looked (Tables.isKnown s.current) call) :
        (step t call).inTransaction = false ∧
          Tables.isKnown (step t call).current = Tables.isKnown s.current :=
      ⟨(step_inTransaction_iff call ht.1).2 (ht.2 ▸ hlooked), (step_isKnown t call).trans ht.2⟩
    refine reached_iff_guarded step _ Settled (fun t ht => settled_iff.2 ht.1) hkeep ?_ calls s
      ⟨hs, rfl⟩
    intro t call ht hnot hsettled
    exact hnot (ht.2 ▸ (step_inTransaction_iff call ht.1).1 hsettled.closed)
  constructor
  · intro h hs
    exact (hruns hs).1 (h.outside hs)
  · intro h
    exact ⟨fun hs => (hruns hs).2 (h hs), fun t call ht => inside_step call ht⟩

/-- After a call on the unknown channel 2, what is written to the known channel 1 is lost. -/
theorem unknown_channel_left_open :
    ∃ (σ : Type) (_ : Tables σ) (s : Session σ) (calls : List (Call σ)),
      ¬LeavesTransactions s calls := by
  let _ : Tables Bool := ⟨fun _ peerId => peerId = 1⟩
  let calls : List (Call Bool) :=
    [.addMessagesToChannel 2 {},
      .addMessagesToChannel 1 { messages := [⟨fun _ => true, fun _ => rfl⟩] }]
  refine ⟨Bool, inferInstance, ⟨false, false, false, [], fun _ => rfl⟩, calls, fun h => ?_⟩
  exact absurd (h.outside rfl 2).kept (by decide)

end TelegramPub.Ports.ChannelTransactions
