import TelegramPub.Ports.SecretBatchScans
import TelegramPub.Verified.KeyedQueue

/-!
# What is stored after one poll, and after several

For the messages an action of the peer says one of five things (`Said`).  One poll over
several actions adds the messages that a queue for each random id has left
(`processMessages_spec`); polls after each action keep, for each random id, what `keepStep`
says (`follows_foldl`).  In both cases the messages that were there before are deleted if
one of the actions deletes them.
-/

namespace TelegramPub.Ports.SecretHistory

open Verified Verified.KeyedQueue Ports.SecretIncoming

variable {δ ε β : Type}

/-- What an action says about messages. -/
inductive Said (β : Type) where
  | message (m : Message β)
  | screenshot (randomIds : List Int) (date : Int)
  | deletion (randomIds : List Int)
  | flush
  | nothing

def said (parser : Parser δ β) (a : IncomingAction δ) : Said β :=
  match parser.parseObject a with
  | none => .nothing
  | some object =>
    match object.action with
    | none | some (.setMessageTTL _) =>
      if 46 ≤ a.layer then .message (parseDecryptedMessage object a.seqIn.1 a.seqOut.1)
      else .nothing
    | some (.screenshotMessages randomIds) => .screenshot randomIds (parser.date a)
    | some (.deleteMessages randomIds) => .deletion randomIds
    | some .flushHistory => .flush
    | some (.notifyLayer _) | some (.readMessages _) | some .typing | some .other => .nothing

/-- `addedMessages` after an action. -/
def collect (messages : List (Message β)) : Said β → List (Message β)
  | .message m => messages ++ [m]
  | .flush => []
  | .screenshot _ _ | .deletion _ | .nothing => messages

/-- What an action does to `addedMessages` when the actions are gone through. -/
def queueOps : Said β → List (Op (Message β) Int)
  | .screenshot randomIds date => [.push (screenshotMessage randomIds date)]
  | .deletion randomIds => randomIds.map .erase
  | .message _ | .flush | .nothing => []

/-- The stored messages that an action deletes. -/
def deletedIds (peerId : Int) (h : History β) : Said β → List Int
  | .deletion randomIds => h.messageIdsForRandomIds randomIds
  | .flush => h.messageIdsInConversation peerId
  | .message _ | .screenshot _ _ | .nothing => []

/-- `addedMessages` in the end. -/
def added (items : List (Said β)) : List (Message β) :=
  (items.flatMap queueOps).foldl (KeyedQueue.apply (·.randomId)) (items.foldl collect [])

section Poll

variable (peerId : Int) (parser : Parser δ β) (h : History β)

theorem foldl_removeAdded (randomIds : List Int) (messages : List (Message β)) :
    randomIds.foldl removeAdded messages =
      (randomIds.map Op.erase).foldl (KeyedQueue.apply (·.randomId)) messages := by
  rw [List.foldl_map]
  rfl

/-- An action is collected, and gone through later. -/
theorem processIncomingMessage_said (c : Collected β) (a : IncomingAction δ) :
    (processIncomingMessage parser c a).addedMessages =
        collect c.addedMessages (said parser a) ∧
      ∃ descs, (processIncomingMessage parser c a).addedActions = c.addedActions ++ descs ∧
        ∀ x : Changes β, descs.foldl (runAction peerId h) x =
          { addedMessages :=
              (queueOps (said parser a)).foldl (KeyedQueue.apply (·.randomId)) x.addedMessages
            deleteMessageIds := x.deleteMessageIds ++ deletedIds peerId h (said parser a) } := by
  unfold processIncomingMessage said
  cases hobject : parser.parseObject a with
  | none => exact ⟨rfl, [], (List.append_nil _).symm, fun x => by simp [queueOps, deletedIds]⟩
  | some object =>
    dsimp only [parseDecryptedAction]
    cases haction : object.action with
    | none => by_cases hlayer : 46 ≤ a.layer <;> simp [hlayer, collect, queueOps, deletedIds]
    | some action =>
      cases action with
      | setMessageTTL ttl =>
        by_cases hlayer : 46 ≤ a.layer <;> simp [hlayer, collect, queueOps, deletedIds]
      | deleteMessages randomIds =>
        refine ⟨rfl, [.deleteMessages randomIds], rfl, fun x => ?_⟩
        simp only [List.foldl_cons, List.foldl_nil, runAction, queueOps, deletedIds]
        rw [foldl_removeAdded]
      | flushHistory => exact ⟨rfl, [.flushHistory], rfl, fun x => rfl⟩
      | notifyLayer layer =>
        exact ⟨rfl, [.updateLayer layer], rfl,
          fun x => by simp [runAction, queueOps, deletedIds]⟩
      | readMessages randomIds =>
        exact ⟨rfl, [.readMessages randomIds], rfl,
          fun x => by simp [runAction, queueOps, deletedIds]⟩
      | screenshotMessages randomIds =>
        exact ⟨rfl, [.screenshotMessages randomIds (parser.date a)], rfl,
          fun x => by simp [runAction, queueOps, deletedIds, KeyedQueue.apply]⟩
      | typing =>
        exact ⟨rfl, [], rfl, fun x => by simp [queueOps, deletedIds]⟩
      | other =>
        exact ⟨rfl, [.other], rfl, fun x => by simp [runAction, queueOps, deletedIds]⟩

/-- The collected messages, and what going through the actions makes of them. -/
theorem foldl_said (actions : List (IncomingAction δ)) :
    let collected := actions.foldl (processIncomingMessage parser) {}
    let items := actions.map (said parser)
    collected.addedActions.foldl (runAction peerId h) { addedMessages := collected.addedMessages } =
      { addedMessages := added items
        deleteMessageIds := items.flatMap (deletedIds peerId h) } := by
  have hall : ∀ (actions : List (IncomingAction δ)) (c : Collected β),
      let collected := actions.foldl (processIncomingMessage parser) c
      let items := actions.map (said parser)
      collected.addedMessages = items.foldl collect c.addedMessages ∧
        ∃ descs, collected.addedActions = c.addedActions ++ descs ∧
          ∀ x : Changes β, descs.foldl (runAction peerId h) x =
            { addedMessages := (items.flatMap queueOps).foldl
                (KeyedQueue.apply (·.randomId)) x.addedMessages
              deleteMessageIds := x.deleteMessageIds ++ items.flatMap (deletedIds peerId h) } := by
    intro actions
    induction actions with
    | nil => exact fun c => ⟨rfl, [], (List.append_nil _).symm, fun x => by simp⟩
    | cons a actions ih =>
      intro c
      obtain ⟨hmessages, descs, hdescs, hrun⟩ := processIncomingMessage_said peerId parser h c a
      obtain ⟨hmessages', descs', hdescs', hrun'⟩ := ih (processIncomingMessage parser c a)
      refine ⟨?_, descs ++ descs', ?_, fun x => ?_⟩
      · rw [List.foldl_cons, List.map_cons, List.foldl_cons, hmessages', hmessages]
      · rw [List.foldl_cons, hdescs', hdescs, List.append_assoc]
      · rw [List.foldl_append, hrun, hrun', List.map_cons, List.flatMap_cons, List.flatMap_cons,
          List.foldl_append, List.append_assoc]
  obtain ⟨hmessages, descs, hdescs, hrun⟩ := hall actions {}
  intro collected items
  rw [hdescs, List.nil_append, hrun, hmessages]
  rfl

/-- The rows of the messages that are stored. -/
def storedRows (items : List (Said β)) : List (StoredMessage β) :=
  History.newRows peerId h.nextLocalMid (h.filterExistingRandomIds (added items))

theorem History.filter_newRows {cid n : Int} {ms : List (Message β)}
    {p : StoredMessage β → Bool} (hp : ∀ row ∈ History.newRows cid n ms, p row = true) :
    (History.newRows cid n ms).filter p = History.newRows cid n ms := List.filter_eq_self.2 hp

theorem History.message_newRows (cid : Int) (ms : List (Message β)) : ∀ n,
    (History.newRows cid n ms).map (·.message) = ms := by
  induction ms with
  | nil => intro n; rfl
  | cons m ms ih => intro n; rw [History.newRows, List.map_cons, ih]

theorem History.cid_newRows {cid : Int} {ms : List (Message β)} : ∀ {n : Int}
    {row : StoredMessage β}, row ∈ History.newRows cid n ms → row.cid = cid := by
  induction ms with
  | nil => intro n row hrow; cases hrow
  | cons m ms ih =>
    intro n row hrow
    rcases List.mem_cons.1 hrow with rfl | hrow
    · rfl
    · exact ih hrow

/-- The ids that are deleted are in use. -/
theorem localMid_not_mem_deletedIds (items : List (Said β)) {n : Int} (hn : h.nextLocalMid ≤ n) :
    localMid n ∉ items.flatMap (deletedIds peerId h) := by
  intro hmem
  obtain ⟨item, -, hitem⟩ := List.mem_flatMap.1 hmem
  cases item with
  | message m => cases hitem
  | screenshot randomIds date => cases hitem
  | nothing => cases hitem
  | deletion randomIds =>
    obtain ⟨r, -, hr⟩ := List.mem_filterMap.1 hitem
    exact (h.unused n hn).2 r hr
  | flush =>
    obtain ⟨row, hrow, hmid⟩ := List.mem_map.1 hitem
    exact (h.unused n hn).1 row (List.mem_of_mem_filter hrow) hmid

theorem processMessages_spec (actions : List (IncomingAction δ)) :
    let h' := processMessages peerId parser h actions
    let items := actions.map (said parser)
    h'.messages = h.messages.filter (·.mid ∉ items.flatMap (deletedIds peerId h)) ++
        storedRows peerId h items ∧
      h'.randomIds = History.insertRandomIds h.randomIds (storedRows peerId h items) ∧
      h.nextLocalMid ≤ h'.nextLocalMid := by
  intro h' items
  have hstorable : h.storable (storedRows peerId h items) = storedRows peerId h items := by
    refine History.filter_newRows fun row hrow => ?_
    obtain ⟨k, hk, -, hmid⟩ := History.mem_newRows hrow
    have hmessage : row.message ∈ h.filterExistingRandomIds (added items) := by
      have hmem := List.mem_map_of_mem (f := (·.message)) hrow
      rwa [History.message_newRows] at hmem
    have hnone := (List.mem_filter.1 hmessage).2
    rw [decide_eq_true_iff]
    exact ⟨fun row' hrow' hsame => (h.unused k hk).1 row' hrow' (hsame.trans hmid),
      .inr hnone⟩
  have hkept : (storedRows peerId h items).filter
      (·.mid ∉ items.flatMap (deletedIds peerId h)) = storedRows peerId h items := by
    refine History.filter_newRows fun row hrow => ?_
    obtain ⟨k, hk, -, hmid⟩ := History.mem_newRows hrow
    rw [decide_eq_true_iff, hmid]
    exact localMid_not_mem_deletedIds peerId h items hk
  have hadd : ∀ a : History β,
      a = (if added items = [] then h
        else h.transactionAddMessages peerId (h.filterExistingRandomIds (added items))) →
      a.messages = h.messages ++ storedRows peerId h items ∧
        a.randomIds = History.insertRandomIds h.randomIds (storedRows peerId h items) ∧
        h.nextLocalMid ≤ a.nextLocalMid := by
    rintro a rfl
    split
    · rename_i hnone
      have hrows : storedRows peerId h items = [] := by
        unfold storedRows
        rw [hnone]
        rfl
      rw [hrows, List.append_nil]
      exact ⟨rfl, rfl, le_refl _⟩
    · refine ⟨?_, ?_, ?_⟩
      · show h.messages ++ h.storable (storedRows peerId h items) = _
        rw [hstorable]
      · show History.insertRandomIds h.randomIds (h.storable (storedRows peerId h items)) = _
        rw [hstorable]
      · show h.nextLocalMid ≤ h.nextLocalMid + _
        omega
  obtain ⟨hmessages, hrandomIds, hnext⟩ := hadd _ rfl
  have hrun := foldl_said peerId parser h actions
  have hh' : h' = (if items.flatMap (deletedIds peerId h) = [] then
      (if added items = [] then h
        else h.transactionAddMessages peerId (h.filterExistingRandomIds (added items)))
    else (if added items = [] then h
        else h.transactionAddMessages peerId
          (h.filterExistingRandomIds (added items))).transactionRemoveMessages
            (items.flatMap (deletedIds peerId h))) := by
    show processMessages peerId parser h actions = _
    unfold processMessages
    dsimp only at hrun ⊢
    rw [hrun]
  rw [hh']
  generalize (if added items = [] then h
    else h.transactionAddMessages peerId (h.filterExistingRandomIds (added items))) = a at *
  split
  · rename_i hnone
    rw [hnone, hmessages, List.filter_eq_self.2 (by simp)]
    exact ⟨rfl, hrandomIds, hnext⟩
  · refine ⟨?_, hrandomIds, hnext⟩
    show a.messages.filter _ = _
    rw [hmessages, List.filter_append, hkept]

end Poll

/-! ## A poll after each action -/

/-- For a random id: whether it is in the table, and the messages with it that are stored
since. -/
def keepStep (r : Int) (s : Bool × List (Message β)) : Said β → Bool × List (Message β)
  | .message m => if m.randomId = r ∧ s.1 = false then (r ≠ 0, s.2 ++ [m]) else s
  | .screenshot randomIds date =>
    if r = 0 then (s.1, s.2 ++ [screenshotMessage randomIds date]) else s
  | .deletion randomIds => if s.1 ∧ r ∈ randomIds.take 128 then (s.1, []) else s
  | .flush => (s.1, [])
  | .nothing => s

/-- A message that was stored since `h₀`, and its random id. -/
structure NewRow (peerId : Int) (h₀ : History β) (randomIds : Int → Option Int)
    (row : StoredMessage β) : Prop where
  cid : row.cid = peerId
  mid : ∃ k, h₀.nextLocalMid ≤ k ∧ row.mid = localMid k
  linked : row.message.randomId ≠ 0 → randomIds row.message.randomId = some row.mid
  apart : ∀ r, randomIds r = some row.mid → r = row.message.randomId

/-- What the history `h₀` has become after some actions. -/
structure Follows (peerId : Int) (h₀ h : History β) (items : List (Said β))
    (rows : List (StoredMessage β)) : Prop where
  next : h₀.nextLocalMid ≤ h.nextLocalMid
  old : ∀ r mid, h₀.randomIds r = some mid → h.randomIds r = some mid
  fresh : ∀ r mid, h₀.randomIds r = none → h.randomIds r = some mid →
    ∃ k, h₀.nextLocalMid ≤ k ∧ mid = localMid k
  messages : h.messages =
    h₀.messages.filter (·.mid ∉ items.flatMap (deletedIds peerId h₀)) ++ rows
  isNew : ∀ row ∈ rows, NewRow peerId h₀ h.randomIds row
  kept : ∀ r, items.foldl (keepStep r) ((h₀.randomIds r).isSome, []) =
    ((h.randomIds r).isSome, (rows.map (·.message)).filter (·.randomId = r))

section Each

variable {peerId : Int} {h₀ h : History β} {items : List (Said β)}
  {rows : List (StoredMessage β)}

theorem follows_nil (peerId : Int) (h : History β) : Follows peerId h h [] [] where
  next := le_refl _
  old := fun _ _ hr => hr
  fresh := fun r mid hnone hsome => by rw [hnone] at hsome; cases hsome
  messages := by
    rw [List.append_nil]
    exact (List.filter_eq_self.2 (by simp)).symm
  isNew := by simp
  kept := fun _ => rfl

/-- The messages that were there before. -/
theorem filter_deleted {messages : List (StoredMessage β)} {before now ids : List Int}
    (hsame : ∀ row ∈ messages, row.mid ∉ before → (row.mid ∈ now ↔ row.mid ∈ ids)) :
    (messages.filter (·.mid ∉ before)).filter (·.mid ∉ now) =
      messages.filter (·.mid ∉ before ++ ids) := by
  rw [List.filter_filter]
  refine List.filter_congr fun row hrow => ?_
  by_cases hbefore : row.mid ∈ before
  · simp [hbefore]
  · simp [hbefore, hsame row hrow hbefore]

theorem Follows.mem_deletedIds_iff (hf : Follows peerId h₀ h items rows) (item : Said β)
    {row : StoredMessage β} (hrow : row ∈ h₀.messages)
    (hkept : row.mid ∉ items.flatMap (deletedIds peerId h₀)) :
    row.mid ∈ deletedIds peerId h item ↔ row.mid ∈ deletedIds peerId h₀ item := by
  have hunused : ∀ k, h₀.nextLocalMid ≤ k → row.mid ≠ localMid k :=
    fun k hk => (h₀.unused k hk).1 row hrow
  cases item with
  | message m => exact Iff.rfl
  | screenshot randomIds date => exact Iff.rfl
  | nothing => exact Iff.rfl
  | deletion randomIds =>
    simp only [deletedIds, History.messageIdsForRandomIds, List.mem_filterMap]
    refine exists_congr fun r => and_congr_right fun _ => ⟨fun hr => ?_, hf.old r row.mid⟩
    cases hbefore : h₀.randomIds r with
    | none =>
      obtain ⟨k, hk, hmid⟩ := hf.fresh r row.mid hbefore hr
      exact absurd hmid (hunused k hk)
    | some mid =>
      rw [← hr]
      exact (hf.old r mid hbefore).symm
  | flush =>
    simp only [deletedIds, History.messageIdsInConversation, List.mem_map, List.mem_filter,
      decide_eq_true_iff]
    constructor
    · rintro ⟨row', ⟨hrow', hcid⟩, hmid⟩
      rw [hf.messages, List.mem_append] at hrow'
      rcases hrow' with hrow' | hrow'
      · exact ⟨row', ⟨List.mem_of_mem_filter hrow', hcid⟩, hmid⟩
      · obtain ⟨k, hk, hnew⟩ := (hf.isNew row' hrow').mid
        exact absurd (hmid.symm.trans hnew) (hunused k hk)
    · rintro ⟨row', ⟨hrow', hcid⟩, hmid⟩
      refine ⟨row', ⟨?_, hcid⟩, hmid⟩
      rw [hf.messages, List.mem_append]
      left
      rw [List.mem_filter, decide_eq_true_iff, hmid]
      exact ⟨hrow', hkept⟩

theorem Follows.filter_rows (hf : Follows peerId h₀ h items rows) (item : Said β) (r : Int) :
    (((rows.filter (·.mid ∉ deletedIds peerId h item)).map (·.message)).filter (·.randomId = r)) =
      match item with
      | .flush => []
      | .deletion randomIds =>
        if (h.randomIds r).isSome ∧ r ∈ randomIds.take 128 then []
        else (rows.map (·.message)).filter (·.randomId = r)
      | _ => (rows.map (·.message)).filter (·.randomId = r) := by
  cases item with
  | message m => simp [deletedIds]
  | screenshot randomIds date => simp [deletedIds]
  | nothing => simp [deletedIds]
  | flush =>
    have hnone : rows.filter (·.mid ∉ deletedIds peerId h .flush) = [] := by
      refine List.filter_eq_nil_iff.2 fun row hrow => ?_
      have hmem : row ∈ h.messages := by
        rw [hf.messages]
        exact List.mem_append_right _ hrow
      have hdeleted : row.mid ∈ deletedIds peerId h (.flush : Said β) :=
        List.mem_map_of_mem (List.mem_filter.2 ⟨hmem, decide_eq_true (hf.isNew row hrow).cid⟩)
      simp [hdeleted]
    rw [hnone]
    rfl
  | deletion randomIds =>
    have hdeleted : ∀ row ∈ rows, row.message.randomId = r →
        (row.mid ∈ deletedIds peerId h (.deletion randomIds) ↔
          (h.randomIds r).isSome ∧ r ∈ randomIds.take 128) := by
      intro row hrow hr
      have hnew := hf.isNew row hrow
      simp only [deletedIds, History.messageIdsForRandomIds, List.mem_filterMap]
      constructor
      · rintro ⟨r', hr', hmid⟩
        have hsame := (hnew.apart r' hmid).trans hr
        rw [hsame] at hr' hmid
        exact ⟨by rw [hmid]; rfl, hr'⟩
      · rintro ⟨hsome, hr'⟩
        refine ⟨r, hr', ?_⟩
        rw [← hr]
        refine hnew.linked fun hzero => ?_
        rw [← hr, hzero, h.randomIds_zero] at hsome
        cases hsome
    rw [List.filter_map, List.filter_map, List.filter_filter]
    dsimp only
    split
    · rename_i hgone
      rw [List.map_eq_nil_iff, List.filter_eq_nil_iff]
      intro row hrow
      simp only [Function.comp_apply, Bool.and_eq_true, decide_eq_true_iff, not_and, not_not]
      intro hr
      exact (hdeleted row hrow hr).2 hgone
    · rename_i hstays
      congr 1
      refine List.filter_congr fun row hrow => ?_
      by_cases hr : row.message.randomId = r
      · have hnot : row.mid ∉ deletedIds peerId h (.deletion randomIds) :=
          fun hmem => hstays ((hdeleted row hrow hr).1 hmem)
        simp [hr, hnot]
      · simp [hr]

/-- What a poll over one action adds. -/
def addition (h : History β) : Said β → Option (Message β)
  | .message m => if (h.randomIds m.randomId).isNone then some m else none
  | .screenshot randomIds date => some (screenshotMessage randomIds date)
  | .deletion _ | .flush | .nothing => none

theorem added_deletion (randomIds : List Int) : added [(.deletion randomIds : Said β)] = [] := by
  induction randomIds with
  | nil => rfl
  | cons r randomIds ih => exact ih

theorem storedRows_singleton (h : History β) (item : Said β) :
    storedRows peerId h [item] =
      (addition h item).toList.map fun m => ⟨localMid h.nextLocalMid, peerId, m⟩ := by
  unfold storedRows
  cases item with
  | message m =>
    show History.newRows peerId h.nextLocalMid (h.filterExistingRandomIds [m]) = _
    by_cases hm : (h.randomIds m.randomId).isNone
    · simp [History.filterExistingRandomIds, addition, hm, History.newRows]
    · simp [History.filterExistingRandomIds, addition, hm, History.newRows]
  | screenshot randomIds date =>
    have hzero : (h.randomIds (screenshotMessage (β := β) randomIds date).randomId).isNone := by
      show (h.randomIds 0).isNone = true
      rw [h.randomIds_zero]
      rfl
    show History.newRows peerId h.nextLocalMid
      (h.filterExistingRandomIds [screenshotMessage randomIds date]) = _
    simp [History.filterExistingRandomIds, hzero, addition, History.newRows]
  | deletion randomIds =>
    rw [added_deletion]
    rfl
  | flush => rfl
  | nothing => rfl

theorem isNone_addition {h : History β} {item : Said β} {m : Message β}
    (hm : addition h item = some m) : h.randomIds m.randomId = none := by
  cases item with
  | message m' =>
    rw [addition, Option.ite_none_right_eq_some] at hm
    obtain ⟨hnone, hsame⟩ := hm
    cases hsame
    exact Option.isNone_iff_eq_none.1 hnone
  | screenshot randomIds date =>
    cases hm
    exact h.randomIds_zero
  | deletion randomIds => cases hm
  | flush => cases hm
  | nothing => cases hm

/-- `keepStep` is what a poll over one action does for a random id. -/
theorem keepStep_addition {r : Int} {item : Said β} {l : List (Message β)} :
    keepStep r ((h.randomIds r).isSome, l) item =
      (((h.randomIds r).or (if r = 0 then none else
          ((addition h item).toList.find? (·.randomId = r)).map
            fun _ => localMid h.nextLocalMid)).isSome,
        (match item with
          | .flush => []
          | .deletion randomIds =>
            if (h.randomIds r).isSome ∧ r ∈ randomIds.take 128 then [] else l
          | _ => l) ++ (addition h item).toList.filter (·.randomId = r)) := by
  cases item with
  | message m =>
    by_cases hr : m.randomId = r
    · subst hr
      by_cases hzero : m.randomId = 0
      · simp [keepStep, addition, hzero, h.randomIds_zero]
      · cases hid : h.randomIds m.randomId with
        | none => simp [keepStep, addition, hzero, hid]
        | some mid => simp [keepStep, addition, hid]
    · cases hid : h.randomIds m.randomId with
      | none => simp [keepStep, addition, hr, hid]
      | some mid => simp [keepStep, addition, hr, hid]
  | screenshot randomIds date =>
    by_cases hr : r = 0
    · simp [keepStep, addition, hr, screenshotMessage]
    · have hne : ¬ (0 : Int) = r := fun h => hr h.symm
      simp [keepStep, addition, hr, screenshotMessage, hne]
  | deletion randomIds =>
    by_cases hr : (h.randomIds r).isSome ∧ r ∈ randomIds.take 128
    · simp [keepStep, addition, hr]
    · simp only [keepStep, addition, if_neg hr]
      simp
  | flush => simp [keepStep, addition]
  | nothing => simp [keepStep, addition]

/-- A poll over one more action. -/
theorem Follows.step (hf : Follows peerId h₀ h items rows) (parser : Parser δ β)
    (a : IncomingAction δ) :
    ∃ rows', Follows peerId h₀ (processMessages peerId parser h [a])
      (items ++ [said parser a]) rows' := by
  obtain ⟨hmessages, hrandomIds, hnext⟩ := processMessages_spec peerId parser h [a]
  generalize processMessages peerId parser h [a] = h' at *
  rw [List.map_singleton] at hmessages hrandomIds
  generalize said parser a = item at *
  rw [List.flatMap_singleton] at hmessages
  rw [storedRows_singleton] at hmessages hrandomIds
  have hids : ∀ r, h'.randomIds r = (h.randomIds r).or (if r = 0 then none else
      ((addition h item).toList.find? (·.randomId = r)).map
        fun _ => localMid h.nextLocalMid) := by
    intro r
    rw [hrandomIds, History.insertRandomIds_or, List.find?_map, Option.map_map]
    rfl
  have hkeeps : ∀ r mid, h.randomIds r = some mid → h'.randomIds r = some mid := by
    intro r mid hr
    rw [hids, hr]
    rfl
  have hnew : ∀ r mid, h'.randomIds r = some mid → h.randomIds r = some mid ∨
      mid = localMid h.nextLocalMid ∧ ∃ m, addition h item = some m ∧ m.randomId = r := by
    intro r mid hr
    rw [hids, Option.or_eq_some_iff] at hr
    rcases hr with hr | ⟨-, hr⟩
    · exact .inl hr
    · grind
  refine ⟨rows.filter (·.mid ∉ deletedIds peerId h item) ++
    (addition h item).toList.map fun m => ⟨localMid h.nextLocalMid, peerId, m⟩, ?_⟩
  exact
    { next := hf.next.trans hnext
      old := fun r mid hr => hkeeps r mid (hf.old r mid hr)
      fresh := by
        intro r mid hbefore hr
        rcases hnew r mid hr with hr | ⟨hmid, -⟩
        · exact hf.fresh r mid hbefore hr
        · exact ⟨h.nextLocalMid, hf.next, hmid⟩
      messages := by
        rw [hmessages, hf.messages, List.filter_append, filter_deleted
          (fun row hrow hkept => hf.mem_deletedIds_iff item hrow hkept), List.flatMap_append,
          List.flatMap_singleton, List.append_assoc]
      isNew := by
        intro row hrow
        rcases List.mem_append.1 hrow with hrow | hrow
        · have hbefore := hf.isNew row (List.mem_of_mem_filter hrow)
          have hmem : row ∈ h.messages := by
            rw [hf.messages]
            exact List.mem_append_right _ (List.mem_of_mem_filter hrow)
          exact
            { hbefore with
              linked := fun hr => hkeeps _ _ (hbefore.linked hr)
              apart := by
                intro r hr
                rcases hnew r row.mid hr with hr | ⟨hmid, -⟩
                · exact hbefore.apart r hr
                · exact absurd hmid ((h.unused h.nextLocalMid (le_refl _)).1 row hmem) }
        · obtain ⟨m, hm, rfl⟩ := List.mem_map.1 hrow
          have hm := Option.mem_toList.1 hm
          exact
            { cid := rfl
              mid := ⟨h.nextLocalMid, hf.next, rfl⟩
              linked := by
                intro hr
                rw [hids, isNone_addition hm, hm]
                simp [hr]
              apart := by
                intro r hr
                rcases hnew r _ hr with hr | ⟨-, m', hm', hr⟩
                · exact absurd hr ((h.unused h.nextLocalMid (le_refl _)).2 r)
                · rw [hm] at hm'
                  cases hm'
                  exact hr.symm }
      kept := by
        intro r
        rw [List.foldl_append, hf.kept, List.foldl_cons, List.foldl_nil, keepStep_addition,
          ← hids, List.map_append, List.filter_append, hf.filter_rows, List.map_map]
        congr 1
        congr 1
        exact (congrArg _ (List.map_id _)).symm }

theorem follows_foldl (peerId : Int) (parser : Parser δ β) (h₀ : History β)
    (actions : List (IncomingAction δ)) :
    ∃ rows, Follows peerId h₀
      (actions.foldl (fun h a => processMessages peerId parser h [a]) h₀)
      (actions.map (said parser)) rows := by
  induction actions using List.reverseRecOn with
  | nil => exact ⟨[], follows_nil peerId h₀⟩
  | append_singleton actions a ih =>
    obtain ⟨rows, hf⟩ := ih
    rw [List.foldl_append, List.map_append]
    exact hf.step parser a

end Each

end TelegramPub.Ports.SecretHistory
