import TelegramPub.Ports.ChannelPtsChain
import TelegramPub.Verified.GroupedWrites

/-!
# TGManagedChannelState: a batch of updates, and the updates one by one

`applyUpdates:` regroups what it collects: edits are written first, then deletions, then
the new messages that were not there before.  So a batch leaves what its updates leave one
by one only where the regrouping makes no difference to any message.

The comparator is no order when a web page is not the first in the chain.  What the sort
makes of such a batch is open.

The copy of a message that a reply carries is looked up when the reply is converted, or
downloaded.  Messages are compared without these copies.
-/

namespace TelegramPub.Ports.ChannelState

open Verified.ComparatorSort Verified.GroupedWrites

variable {δ : Type}

/-- A message without the copy of the one it replies to. -/
def Message.withoutCopy (message : Message δ) : Message δ :=
  { message with reply := message.reply.map fun reply => { reply with replyMessage := none } }

def SameMessages (first second : Messages δ) : Prop :=
  ∀ mid, (first mid).map Message.withoutCopy = (second mid).map Message.withoutCopy

/-- The `pts` of the updates form a gap-free chain. -/
def GapFree : Int32 → List (PtsUpdate δ) → Prop
  | _, [] => True
  | reached, update :: rest =>
    0 < update.ptsCount.toInt ∧
      update.pts.toInt = reached.toInt + update.ptsCount.toInt ∧ GapFree update.pts rest

/-- The channel after a call of `applyUpdates:` with these updates. -/
def batch (sorter : Sorter (comparator (δ := δ))) (client : Client δ) (channel : Channel δ)
    (updates : List (PtsUpdate δ)) : Channel δ :=
  channel.executeAll (applyUpdates sorter client channel (updates.map Update.pts)).1

/-- The channel after a call for each update; each may find another client. -/
def oneAfterAnother (sorter : Sorter (comparator (δ := δ))) (clients : PtsUpdate δ → Client δ)
    (channel : Channel δ) (updates : List (PtsUpdate δ)) : Channel δ :=
  updates.foldl (fun channel update => batch sorter (clients update) channel [update]) channel

/-- A batch of the updates, in any order, leaves what they leave one by one. -/
def BatchEqualsOneByOne (channel : Channel δ) (chain : List (PtsUpdate δ)) : Prop :=
  ∀ sorter client clients order, order.Perm chain →
    SameMessages (batch sorter client channel order).messages
      (oneAfterAnother sorter clients channel chain).messages ∧
    (batch sorter client channel order).pts = (oneAfterAnother sorter clients channel chain).pts

/-- What an update writes to the message `mid`. -/
def PtsUpdate.writes (mid : Int) : PtsUpdate δ → List (Write (Message δ))
  | .newChannelMessage message pts _ =>
    if message.mid = mid ∧ mid ≠ 0 then
      [.add (Message.ofDesc (fun _ => none) message pts)] else []
  | .editChannelMessage message pts _ =>
    if message.mid = mid ∧ mid ≠ 0 then
      [.edit (Message.ofDesc (fun _ => none) message pts)] else []
  | .deleteChannelMessages messages _ _ => if mid ∈ messages then [.delete] else []
  | .channelWebPage _ _ => []

/-- What a chain writes to the message `mid`. -/
def writesTo (mid : Int) (chain : List (PtsUpdate δ)) : List (Write (Message δ)) :=
  chain.flatMap (PtsUpdate.writes mid)

section Copies

variable (message : Message δ) (table : Int → Option δ)

@[simp] theorem Message.fillReply_mid : (message.fillReply table).mid = message.mid := by
  unfold Message.fillReply
  split <;> rfl

@[simp] theorem Message.fillReply_withoutCopy :
    (message.fillReply table).withoutCopy = message.withoutCopy := by
  unfold Message.fillReply
  split
  · next h =>
      rcases message with ⟨mid, pts, content, contentsRead, reply⟩
      rcases reply with _ | ⟨replyMessageId, _ | copy⟩
      · simp [Message.missingReply] at h
      · simp only [Message.missingReply, Option.ite_none_right_eq_some, Option.some.injEq] at h
        simp [Message.withoutCopy, h.2]
      · simp [Message.missingReply] at h
  · rfl

@[simp] theorem Message.withoutCopy_mid : message.withoutCopy.mid = message.mid := rfl

theorem Message.ofDesc_withoutCopy (stored : Messages δ) (desc : MessageDesc δ) (pts : Int32) :
    (Message.ofDesc stored desc pts).withoutCopy = Message.ofDesc (fun _ => none) desc pts := by
  unfold Message.withoutCopy Message.ofDesc
  by_cases h : desc.replyTo = 0 <;> simp [h]

end Copies

/-! ## Writing lists -/

/-- The last message of the list with this id. -/
def lastOf (mid : Int) (messages : List (Message δ)) : Option (Message δ) :=
  messages.foldl (fun last message => if message.mid = mid then some message else last) none

@[simp] theorem lastOf_nil (mid : Int) : lastOf mid ([] : List (Message δ)) = none := rfl

theorem lastOf_concat (mid : Int) (messages : List (Message δ)) (message : Message δ) :
    lastOf mid (messages ++ [message]) =
      if message.mid = mid then some message else lastOf mid messages := by
  simp [lastOf]

theorem lastOf_append (mid : Int) (first second : List (Message δ)) :
    lastOf mid (first ++ second) = (lastOf mid second).or (lastOf mid first) := by
  induction second using List.reverseRecOn with
  | nil => simp
  | append_singleton second message ih =>
    rw [← List.append_assoc, lastOf_concat, lastOf_concat, ih]
    split <;> rfl

/-- A map that changes nothing but copies. -/
structure ChangesCopies (f : Message δ → Message δ) : Prop where
  mid : ∀ message, (f message).mid = message.mid
  withoutCopy : ∀ message, (f message).withoutCopy = message.withoutCopy

theorem changesCopies_fillReply (table : Int → Option δ) :
    ChangesCopies (Message.fillReply table) where
  mid message := message.fillReply_mid table
  withoutCopy message := message.fillReply_withoutCopy table

theorem ChangesCopies.comp {f g : Message δ → Message δ} (hf : ChangesCopies f)
    (hg : ChangesCopies g) : ChangesCopies (f ∘ g) where
  mid message := (hf.mid _).trans (hg.mid message)
  withoutCopy message := (hf.withoutCopy _).trans (hg.withoutCopy message)

theorem ChangesCopies.lastOf_map {f : Message δ → Message δ} (hf : ChangesCopies f) (mid : Int)
    (messages : List (Message δ)) :
    (lastOf mid (messages.map f)).map Message.withoutCopy =
      (lastOf mid messages).map Message.withoutCopy := by
  induction messages using List.reverseRecOn with
  | nil => rfl
  | append_singleton messages message ih =>
    rw [List.map_append, List.map_singleton, lastOf_concat, lastOf_concat, hf.mid]
    split
    · simp [hf.withoutCopy]
    · exact ih

theorem updateMessage_at (mid : Int) (messages : Messages δ) (message : Message δ) :
    updateMessage messages message mid =
      if message.mid = mid then (messages mid).map fun _ => message else messages mid := by
  unfold updateMessage
  by_cases hmid : message.mid = mid
  · subst hmid
    cases h : messages message.mid <;> simp [h]
  · cases messages message.mid with
    | none => simp [hmid]
    | some row => simp [hmid, Function.update_of_ne (Ne.symm hmid)]

theorem foldl_updateMessage (mid : Int) (list : List (Message δ)) (messages : Messages δ) :
    list.foldl updateMessage messages mid =
      (messages mid).map fun row => (lastOf mid list).getD row := by
  induction list using List.reverseRecOn with
  | nil => simp
  | append_singleton list message ih =>
    rw [List.foldl_append, List.foldl_cons, List.foldl_nil, updateMessage_at, lastOf_concat, ih]
    cases messages mid with
    | none => simp
    | some row => by_cases hmid : message.mid = mid <;> simp [hmid]

theorem foldl_deleteMessage (mid : Int) (list : List Int) (messages : Messages δ) :
    list.foldl deleteMessage messages mid = if mid ∈ list then none else messages mid := by
  induction list using List.reverseRecOn with
  | nil => simp
  | append_singleton list id ih =>
    rw [List.foldl_append, List.foldl_cons, List.foldl_nil]
    by_cases hmid : mid = id
    · simp [deleteMessage, hmid]
    · simp [deleteMessage, hmid, ih]

theorem foldl_insertMessage (mid : Int) (list : List (Message δ)) (messages : Messages δ) :
    list.foldl insertMessage messages mid = (lastOf mid list).or (messages mid) := by
  induction list using List.reverseRecOn with
  | nil => simp
  | append_singleton list message ih =>
    rw [List.foldl_append, List.foldl_cons, List.foldl_nil, lastOf_concat]
    by_cases hmid : message.mid = mid
    · simp [insertMessage, hmid]
    · rw [if_neg hmid, ← ih]
      exact Function.update_of_ne (Ne.symm hmid) _ _

theorem lastOf_filter (mid : Int) (p : Int → Bool) (list : List (Message δ)) :
    lastOf mid (list.filter fun message => p message.mid) =
      if p mid then lastOf mid list else none := by
  induction list using List.reverseRecOn with
  | nil => simp
  | append_singleton list message ih =>
    rw [List.filter_append, lastOf_append, ih, lastOf_concat]
    by_cases hmid : message.mid = mid
    · subst hmid
      cases h : p message.mid <;> simp [h, lastOf]
    · cases hp : p message.mid <;> simp [hp, hmid, lastOf]

theorem addMessagesToChannel_at (mid : Int) (messages : Messages δ) (added : List (Message δ))
    (deleted : List Int) :
    addMessagesToChannel messages added deleted mid =
      match messages mid with
      | none => lastOf mid added
      | some row => if mid ∈ deleted then none else some row := by
  unfold addMessagesToChannel
  rw [foldl_insertMessage, foldl_deleteMessage,
    lastOf_filter mid fun id => (messages id).isNone]
  cases h : messages mid <;> simp

section Chain

variable {reached : Int32} {u : PtsUpdate δ} {rest chain : List (PtsUpdate δ)}

theorem GapFree.continues (h : GapFree reached (u :: rest)) : reached + u.ptsCount = u.pts := by
  apply Int32.toInt_inj.1
  rw [Int32.toInt_add, ← h.2.1, Int32.toInt_bmod]

theorem GapFree.lt (h : GapFree reached (u :: rest)) : reached < u.pts := by
  have hcount := h.1
  have hpts := h.2.1
  rw [Int32.lt_iff_toInt_lt]
  omega

theorem GapFree.above (h : GapFree reached chain) : ∀ u ∈ chain, reached < u.pts := by
  induction chain generalizing reached with
  | nil => exact fun u hu => by cases hu
  | cons first rest ih =>
    intro u hu
    rcases List.mem_cons.1 hu with rfl | hu
    · exact h.lt
    · exact Int32.lt_of_lt_of_le h.lt (Int32.le_of_lt (ih h.2.2 u hu))

theorem GapFree.pairwise (h : GapFree reached chain) :
    chain.Pairwise fun a b => a.pts < b.pts := by
  induction chain generalizing reached with
  | nil => exact List.Pairwise.nil
  | cons first rest ih => exact List.Pairwise.cons h.2.2.above (ih h.2.2)

/-- The `pts` that an update starts at is not below the one that the chain starts at. -/
theorem GapFree.start_le (h : GapFree reached chain) :
    ∀ u ∈ chain, ∃ start, start + u.ptsCount = u.pts ∧ reached ≤ start := by
  induction chain generalizing reached with
  | nil => exact fun u hu => by cases hu
  | cons first rest ih =>
    intro u hu
    rcases List.mem_cons.1 hu with rfl | hu
    · exact ⟨reached, h.continues, Int32.le_refl reached⟩
    · obtain ⟨start, hstart, hle⟩ := ih h.2.2 u hu
      exact ⟨start, hstart, Int32.le_trans (Int32.le_of_lt h.lt) hle⟩

theorem GapFree.lt_endPts (h : GapFree reached chain) (hne : chain ≠ []) :
    reached < endPts reached chain := by
  obtain ⟨front, last, rfl⟩ := (List.eq_nil_or_concat' chain).resolve_left hne
  rw [endPts_concat]
  exact h.above last (by simp)

variable {stored : Messages δ} {skip : List Int}

theorem GapFree.run_applied (h : GapFree reached chain) : ∀ {w : Walk δ},
    w.updatedPts = reached → (w.run stored skip chain).applied = w.applied ++ chain := by
  induction chain generalizing reached with
  | nil => simp [Walk.run]
  | cons first rest ih =>
    intro w hw
    have hvisit : w.visit stored skip first = w.collect stored skip first := by
      unfold Walk.visit
      rw [if_neg (Int32.not_le.2 (hw ▸ h.lt)), if_pos (hw ▸ h.continues)]
    rw [Walk.run_cons, hvisit, ih h.2.2 (by simp)]
    simp

theorem PtsUpdate.writes_pts {mid : Int} {write : Write (Message δ)} (h : write ∈ u.writes mid)
    {message : Message δ} (hmessage : write.value? = some message) : message.pts = u.pts := by
  cases u with
  | newChannelMessage desc pts ptsCount =>
    rw [PtsUpdate.writes, List.mem_ite_nil_right, List.mem_singleton] at h
    obtain ⟨_, rfl⟩ := h
    cases hmessage
    rfl
  | editChannelMessage desc pts ptsCount =>
    rw [PtsUpdate.writes, List.mem_ite_nil_right, List.mem_singleton] at h
    obtain ⟨_, rfl⟩ := h
    cases hmessage
    rfl
  | deleteChannelMessages messages pts ptsCount =>
    rw [PtsUpdate.writes, List.mem_ite_nil_right, List.mem_singleton] at h
    obtain ⟨_, rfl⟩ := h
    cases hmessage
  | channelWebPage pts ptsCount => cases h

theorem PtsUpdate.writes_cases (u : PtsUpdate δ) (mid : Int) :
    u.writes mid = [] ∨ ∃ write, u.writes mid = [write] := by
  cases u with
  | channelWebPage pts ptsCount => exact .inl rfl
  | _ =>
    rw [PtsUpdate.writes]
    split <;> simp

/-- No two updates write the same message: the `pts` in them differ. -/
theorem GapFree.distinct (h : GapFree reached chain) (mid : Int) :
    Distinct (writesTo mid chain) := by
  unfold Distinct writesTo
  rw [List.pairwise_flatMap]
  constructor
  · intro u _
    rcases u.writes_cases mid with hw | ⟨write, hw⟩ <;> simp [hw]
  · refine h.pairwise.imp fun {a b} hab x hx y hy message hxm hym => ?_
    rw [← PtsUpdate.writes_pts hx hxm, ← PtsUpdate.writes_pts hy hym] at hab
    exact Int32.lt_irrefl hab

end Chain

section Batch

variable (stored : Messages δ) (mid : Int) (chain : List (PtsUpdate δ))

theorem lastOf_accepted (desc : MessageDesc δ) (pts : Int32) :
    lastOf mid (accepted stored [] desc pts) =
      if desc.mid = mid ∧ mid ≠ 0 then some (Message.ofDesc stored desc pts) else none := by
  have hmid : (Message.ofDesc stored desc pts).mid = desc.mid := rfl
  by_cases hdesc : desc.mid = mid
  · subst hdesc
    by_cases hzero : desc.mid = 0 <;> simp [accepted, hmid, hzero, lastOf]
  · rw [if_neg fun h => hdesc h.1]
    unfold accepted
    dsimp only
    split <;> simp [lastOf, hmid, hdesc]

theorem lastOf_newMessages :
    (lastOf mid (chain.flatMap (PtsUpdate.newMessages stored []))).map Message.withoutCopy =
      lastAdded (writesTo mid chain) := by
  unfold writesTo
  induction chain using List.reverseRecOn with
  | nil => rfl
  | append_singleton chain u ih =>
    rw [List.flatMap_append, List.flatMap_append, List.flatMap_singleton,
      List.flatMap_singleton, lastOf_append]
    cases u with
    | newChannelMessage desc pts ptsCount =>
      rw [PtsUpdate.newMessages, lastOf_accepted, PtsUpdate.writes]
      split
      · simp [Message.ofDesc_withoutCopy]
      · simpa using ih
    | editChannelMessage desc pts ptsCount =>
      rw [PtsUpdate.writes]
      split <;> simpa [PtsUpdate.newMessages] using ih
    | deleteChannelMessages messages pts ptsCount =>
      rw [PtsUpdate.writes]
      split <;> simpa [PtsUpdate.newMessages] using ih
    | channelWebPage pts ptsCount => simpa [PtsUpdate.newMessages, PtsUpdate.writes] using ih

theorem lastOf_editedMessages :
    (lastOf mid (chain.flatMap (PtsUpdate.editedMessages stored []))).map Message.withoutCopy =
      lastEdited (writesTo mid chain) := by
  unfold writesTo
  induction chain using List.reverseRecOn with
  | nil => rfl
  | append_singleton chain u ih =>
    rw [List.flatMap_append, List.flatMap_append, List.flatMap_singleton,
      List.flatMap_singleton, lastOf_append]
    cases u with
    | newChannelMessage desc pts ptsCount =>
      rw [PtsUpdate.writes]
      split <;> simpa [PtsUpdate.editedMessages] using ih
    | editChannelMessage desc pts ptsCount =>
      rw [PtsUpdate.editedMessages, lastOf_accepted, PtsUpdate.writes]
      split
      · simp [Message.ofDesc_withoutCopy]
      · simpa using ih
    | deleteChannelMessages messages pts ptsCount =>
      rw [PtsUpdate.writes]
      split <;> simpa [PtsUpdate.editedMessages] using ih
    | channelWebPage pts ptsCount => simpa [PtsUpdate.editedMessages, PtsUpdate.writes] using ih

theorem mem_deletedIds :
    mid ∈ chain.flatMap PtsUpdate.deletedIds ↔
      (writesTo mid chain).any Write.isDelete = true := by
  unfold writesTo
  rw [List.any_flatMap, List.mem_flatMap, List.any_eq_true]
  refine exists_congr fun u => and_congr_right fun _ => ?_
  cases u with
  | deleteChannelMessages messages pts ptsCount =>
    by_cases h : mid ∈ messages <;>
      simp [PtsUpdate.deletedIds, PtsUpdate.writes, h, Write.isDelete]
  | newChannelMessage desc pts ptsCount =>
    by_cases h : desc.mid = mid ∧ mid ≠ 0 <;>
      simp [PtsUpdate.deletedIds, PtsUpdate.writes, h, Write.isDelete]
  | editChannelMessage desc pts ptsCount =>
    by_cases h : desc.mid = mid ∧ mid ≠ 0 <;>
      simp [PtsUpdate.deletedIds, PtsUpdate.writes, h, Write.isDelete]
  | channelWebPage pts ptsCount => simp [PtsUpdate.deletedIds, PtsUpdate.writes]

theorem groups_at {f : Message δ → Message δ} (hf : ChangesCopies f) :
    (addMessagesToChannel
      (((chain.flatMap (PtsUpdate.editedMessages stored [])).map f).foldl updateMessage stored)
      ((chain.flatMap (PtsUpdate.newMessages stored [])).map f)
      (chain.flatMap PtsUpdate.deletedIds) mid).map Message.withoutCopy =
      grouped ((stored mid).map Message.withoutCopy) (writesTo mid chain) := by
  rw [addMessagesToChannel_at, foldl_updateMessage]
  cases stored mid with
  | none =>
    show (lastOf mid (List.map f _)).map Message.withoutCopy = lastAdded _
    rw [hf.lastOf_map, lastOf_newMessages]
  | some row =>
    have hedited := hf.lastOf_map mid (chain.flatMap (PtsUpdate.editedMessages stored []))
    rw [lastOf_editedMessages] at hedited
    simp only [Option.map_some, grouped, ← mem_deletedIds, ← hedited]
    by_cases hdeleted : mid ∈ chain.flatMap PtsUpdate.deletedIds
    · rw [if_pos hdeleted, if_pos hdeleted]
      rfl
    · rw [if_neg hdeleted, if_neg hdeleted]
      cases lastOf mid ((chain.flatMap (PtsUpdate.editedMessages stored [])).map f) <;> rfl

end Batch

theorem scan_pts (updates : List (PtsUpdate δ)) :
    scan (updates.map Update.pts) = { ptsUpdates := updates } := by
  unfold scan
  induction updates using List.reverseRecOn with
  | nil => rfl
  | append_singleton updates u ih =>
    rw [List.map_append, List.foldl_append, ih]
    rfl

theorem skipMessageIds_pts (randomIds : List Int) (updates : List (PtsUpdate δ)) :
    skipMessageIds randomIds (updates.map Update.pts) = [] := by
  have hnone : ∀ randomId, randomIdToMessageId (updates.map Update.pts) randomId = none := by
    intro randomId
    unfold randomIdToMessageId
    rw [List.findSome?_eq_none_iff]
    intro update hupdate
    rw [List.mem_reverse, List.mem_map] at hupdate
    obtain ⟨u, _, rfl⟩ := hupdate
    rfl
  unfold skipMessageIds
  rw [List.filterMap_eq_nil_iff]
  exact fun randomId _ => hnone randomId

section Batch

variable (sorter : Sorter (comparator (δ := δ))) (client : Client δ) (channel : Channel δ)

theorem applyUpdates_eq_calls (updates : List (Update δ)) :
    ∃ f, ChangesCopies f ∧ (applyUpdates sorter client channel updates).1 =
      calls channel (scan updates) (walk sorter client channel updates)
        ((walk sorter client channel updates).addedMessages.map f)
        ((walk sorter client channel updates).updatedMessages.map f) := by
  unfold applyUpdates
  dsimp only
  split
  · simp only [List.map_map]
    exact ⟨_, (changesCopies_fillReply _).comp (changesCopies_fillReply _), rfl⟩
  · exact ⟨_, changesCopies_fillReply _, rfl⟩

/-- Of the calls for `pts` updates, the edits and the rest write messages. -/
theorem executeAll_calls_messages (ptsUpdates : List (PtsUpdate δ)) {w : Walk δ}
    {added updated : List (Message δ)}
    (h : w.updatedPts = channel.pts → added = [] ∧ w.deletedMessageIds = []) :
    (channel.executeAll (calls channel { ptsUpdates } w added updated)).messages =
      addMessagesToChannel (updated.foldl updateMessage channel.messages) added
        w.deletedMessageIds := by
  have hnone : ∀ (channel : Channel δ) (messages : List (Message δ)) (notify : Prop)
      [Decidable notify], (channel.executeAll
        (if notify then [.addedNewMessages messages] else [])).messages = channel.messages := by
    intro channel messages notify _
    split <;> rfl
  unfold calls
  simp only [ne_eq, not_true_eq_false, if_false, List.append_nil, true_and, executeAll_append,
    hnone]
  have hupdated : (channel.executeAll (if updated.length = 0 then []
      else [.transactionUpdateMessages [] updated])).messages =
      updated.foldl updateMessage channel.messages := by
    cases updated <;> rfl
  by_cases heq : w.updatedPts = channel.pts
  · obtain ⟨hadded, hdeleted⟩ := h heq
    rw [if_neg (not_not.2 heq), hadded, hdeleted]
    exact hupdated
  · rw [if_pos heq, ← hupdated]
    rfl

variable {channel} {sorter} {chain order : List (PtsUpdate δ)}

theorem walk_applied (hsort : sorter.sort order = chain) (hchain : GapFree channel.pts chain) :
    (walk sorter client channel (order.map Update.pts)).applied = chain := by
  unfold walk
  rw [scan_pts]
  rw [hsort]
  exact hchain.run_applied rfl

theorem batch_pts (hsort : sorter.sort order = chain) (hchain : GapFree channel.pts chain) :
    (batch sorter client channel order).pts = endPts channel.pts chain := by
  have h := (applyUpdates_appliesChain sorter client channel (order.map Update.pts)).written
  rwa [walk_applied client hsort hchain] at h

theorem batch_at (hsort : sorter.sort order = chain) (hchain : GapFree channel.pts chain)
    (mid : Int) :
    ((batch sorter client channel order).messages mid).map Message.withoutCopy =
      grouped ((channel.messages mid).map Message.withoutCopy) (writesTo mid chain) := by
  obtain ⟨f, hf, hcalls⟩ := applyUpdates_eq_calls sorter client channel (order.map Update.pts)
  have hfollows := walk_follows sorter client channel (order.map Update.pts)
  have happlied := walk_applied client hsort hchain
  have hadded := hfollows.addedMessages
  have hupdated := hfollows.updatedMessages
  have hdeleted := hfollows.deletedMessageIds
  have hreached := hfollows.reached
  rw [happlied] at hadded hupdated hdeleted hreached
  rw [skipMessageIds_pts] at hadded hupdated
  unfold batch
  rw [hcalls, scan_pts, executeAll_calls_messages, hadded, hupdated, hdeleted,
    groups_at channel.messages mid chain hf]
  intro heq
  have hnil : chain = [] := by
    by_contra hne
    have hlt := hchain.lt_endPts hne
    rw [← hreached, heq] at hlt
    exact Int32.lt_irrefl hlt
  rw [hadded, hdeleted, hnil]
  exact ⟨rfl, rfl⟩

theorem oneAfterAnother_spec (sorter : Sorter (comparator (δ := δ)))
    (clients : PtsUpdate δ → Client δ) (mid : Int) (chain : List (PtsUpdate δ)) :
    ∀ channel : Channel δ, GapFree channel.pts chain →
      ((oneAfterAnother sorter clients channel chain).messages mid).map Message.withoutCopy =
        oneByOne ((channel.messages mid).map Message.withoutCopy) (writesTo mid chain) ∧
      (oneAfterAnother sorter clients channel chain).pts = endPts channel.pts chain := by
  induction chain with
  | nil => exact fun _ _ => ⟨rfl, rfl⟩
  | cons u rest ih =>
    intro channel hchain
    have hsort := sorter.sort_singleton u
    have hone : GapFree channel.pts [u] := ⟨hchain.1, hchain.2.1, trivial⟩
    have hpts := batch_pts (clients u) hsort hone
    have hat := batch_at (clients u) hsort hone mid
    have hrest := ih (batch sorter (clients u) channel [u]) (by rw [hpts]; exact hchain.2.2)
    have hwrites : writesTo mid (u :: rest) = u.writes mid ++ writesTo mid rest := rfl
    have hsingle : grouped ((channel.messages mid).map Message.withoutCopy) (writesTo mid [u]) =
        oneByOne ((channel.messages mid).map Message.withoutCopy) (u.writes mid) := by
      rw [show writesTo mid [u] = u.writes mid from List.flatMap_singleton _ _]
      rcases u.writes_cases mid with hw | ⟨write, hw⟩
      · rw [hw]
        cases (channel.messages mid).map Message.withoutCopy <;> rfl
      · rw [hw, grouped_singleton]
        rfl
    rw [hat, hsingle, hpts] at hrest
    rw [hwrites, endPts_cons]
    refine ⟨hrest.1.trans ?_, hrest.2⟩
    exact (List.foldl_append).symm

end Batch

end TelegramPub.Ports.ChannelState
