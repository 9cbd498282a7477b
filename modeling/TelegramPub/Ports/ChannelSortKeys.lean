import TelegramPub.Verified.BigEndian
import TelegramPub.Verified.RunningMax

/-!
# TGDatabase: the newest messages of a channel

The messages of a channel are in two spaces, and `addMessagesToChannel` reports the newest
message of either space and the number of unread ones to the list of channels.  It goes
through the messages that are added and then through the messages that get another key,
and keeps the greatest key of either space so far.

In the second loop an important key is compared with the greatest *unimportant* one.  The
space comes first in a key, so that the comparison always succeeds, and the last important
message with another key is reported even when an earlier one is newer.
-/

namespace TelegramPub.Ports.ChannelSortKeys

open Verified.Bytes Verified.RunningMax

/-- The spaces of messages.  The keys of holes and groups have other values here. -/
inductive Space where
  | unimportant
  | important
  deriving DecidableEq

def Space.byte : Space → UInt8
  | .unimportant => 0
  | .important => 1

/-- A `TGMessageSortKey` of one channel: the part after the id of the channel. -/
structure SortKey where
  space : Space
  timestamp : Int32
  mid : Int32
  deriving DecidableEq

namespace SortKey

/-- `TGMessageSortKeyMake`. -/
def bytes (k : SortKey) : Data :=
  k.space.byte ::
    (natBEWidth 4 k.timestamp.toUInt32.toNat ++ natBEWidth 4 k.mid.toUInt32.toNat)

/-- The number that `memcmp` compares. -/
def value (k : SortKey) : Nat := beNat k.bytes

/-- `TGMessageSortKeyLowerBound`. -/
def lowerBound (space : Space) : SortKey := ⟨space, 0, 0⟩

/-- `TGMessageSortKeyUpperBound`. -/
def upperBound (space : Space) : SortKey := ⟨space, Int32.maxValue, Int32.maxValue⟩

end SortKey

/-- `TGMessageLocalMidBaseline`: ids from here on are those of messages being sent. -/
def localMidBaseline : Int32 := 800000000

/-! ## The channel and the call -/

/-- A `TGMessage`. -/
structure Message where
  cid : Int
  mid : Int32
  sortKey : SortKey
  outgoing : Bool := false
  containsUnseenMention : Bool := false
  hasUnreadContent : Bool := false
  deriving DecidableEq

/-- A row of the messages of the channel. -/
structure Row where
  mid : Int32
  sortKey : SortKey
  deriving DecidableEq

/-- A message with another key. -/
structure Rekeyed where
  previousSortKey : SortKey
  updatedSortKey : SortKey
  updatedMessage : Message
  deriving DecidableEq

/-- A `TGMessageGroup`. -/
structure Group where
  minId : Int32
  count : Int
  deriving DecidableEq

/-- What is stored: the rows, the read mark, and the channels whose messages are read at
once. -/
structure Channel where
  rows : List Row
  maxReadMessageId : Int32
  automaticallyReadPeerIds : List Int

/-- The arguments of `addMessagesToChannel`. -/
structure Call where
  messages : List Message := []
  updatedMessageSortKeys : List Rekeyed := []
  unimportantGroups : List Group := []
  keepUnreadCounters : Bool := false

/-! ## The known bounds -/

/-- `WHERE sort_key<? AND sort_key>? ORDER BY sort_key DESC LIMIT 1`. -/
def queryBetween (rows : List Row) (lower upper : SortKey) : Option SortKey :=
  ((rows.map Row.sortKey).filter fun k => k.value < upper.value ∧ k.value > lower.value).maxOn?
    SortKey.value

/-- The loop of `_knownChannelEarlierRemoteMessageSortKey`; the rounds are bounded by the
number of the rows. -/
def knownLoop (rows : List Row) (lower : SortKey) : Nat → SortKey → SortKey
  | 0, _ => lower
  | rounds + 1, upper =>
    match queryBetween rows lower upper with
    | none => lower
    | some sortKey =>
      if sortKey.mid < localMidBaseline then sortKey
      else knownLoop rows lower rounds sortKey

/-- `_knownChannelEarlierRemoteMessageSortKey`. -/
def knownChannelEarlierRemoteMessageSortKey (rows : List Row) (space : Space) : SortKey :=
  knownLoop rows (.lowerBound space) (rows.length + 1) (.upperBound space)

/-- The bound for the unread messages of a space.  Without a read mark everything is known. -/
def unreadCountBoundKey (channel : Channel) (space : Space) : SortKey :=
  if channel.maxReadMessageId = 0 then .upperBound space
  else knownChannelEarlierRemoteMessageSortKey channel.rows space

/-- The greatest key of a space so far, and its message. -/
structure Newest where
  maxSortKey : SortKey
  maxMessage : Option Message := none
  deriving DecidableEq

/-- `if (TGMessageSortKeyCompare(sortKey, maxSortKey) > 0)`. -/
def Newest.offer (newest : Newest) (sortKey : SortKey) (message : Message) : Newest :=
  if newest.maxSortKey.value < sortKey.value then ⟨sortKey, some message⟩ else newest

/-- The variables of the loops. -/
structure Tops where
  important : Newest := { maxSortKey := .lowerBound .important }
  unimportant : Newest := { maxSortKey := .lowerBound .unimportant }
  addImportantUnreadCount : Int := 0
  addUnimportantUnreadCount : Int := 0

/-- An incoming remote message above the read mark and the bound of its space. -/
def isUnread (channel : Channel) (message : Message) : Bool :=
  !message.outgoing && message.mid > channel.maxReadMessageId && message.mid < localMidBaseline &&
    (unreadCountBoundKey channel message.sortKey.space).value < message.sortKey.value

/-- A round of the loop over the added messages. -/
def Tops.add (channel : Channel) (s : Tops) (message : Message) : Tops :=
  match message.sortKey.space with
  | .important =>
    { s with
      important := s.important.offer message.sortKey message
      addImportantUnreadCount :=
        if isUnread channel message then s.addImportantUnreadCount + 1
        else s.addImportantUnreadCount }
  | .unimportant =>
    { s with
      unimportant := s.unimportant.offer message.sortKey message
      addUnimportantUnreadCount :=
        if isUnread channel message then s.addUnimportantUnreadCount + 1
        else s.addUnimportantUnreadCount }

/-- A round of the loop over the messages with another key.  An important key is compared
with the greatest unimportant one. -/
def Tops.rekey (s : Tops) (r : Rekeyed) : Tops :=
  match r.updatedSortKey.space with
  | .important =>
    if s.unimportant.maxSortKey.value < r.updatedSortKey.value then
      { s with important := ⟨r.updatedSortKey, some r.updatedMessage⟩ }
    else s
  | .unimportant =>
    { s with unimportant := s.unimportant.offer r.updatedSortKey r.updatedMessage }

/-- A mention in a channel that is read at once is seen. -/
def automaticallyRead (channel : Channel) (message : Message) : Message :=
  if message.containsUnseenMention && !message.hasUnreadContent &&
      channel.automaticallyReadPeerIds.contains message.cid then
    { message with containsUnseenMention := false }
  else message

/-- The messages that are not stored already. -/
def addedMessages (channel : Channel) (call : Call) : List Message :=
  (call.messages.map (automaticallyRead channel)).filter fun message =>
    !(channel.rows.map Row.mid).contains message.mid

/-- What is passed to `_updateChannelConversationSortKeys`. -/
structure Update where
  importantMessage : Option Message
  unimportantMessage : Option Message
  addImportantUnread : Int
  addUnimportantUnread : Int
  deriving DecidableEq

/-- A group above the read mark and the bound. -/
def isUnreadGroup (channel : Channel) (group : Group) : Bool :=
  group.minId > channel.maxReadMessageId &&
    group.minId > (unreadCountBoundKey channel .unimportant).mid

/-- The variables after both loops. -/
def tops (channel : Channel) (call : Call) : Tops :=
  call.updatedMessageSortKeys.foldl Tops.rekey
    ((addedMessages channel call).foldl (Tops.add channel) {})

def addMessagesToChannel (channel : Channel) (call : Call) : Update :=
  let s := tops channel call
  let addUnimportantUnreadCount := call.unimportantGroups.foldl (fun unread group =>
    if isUnreadGroup channel group then unread + group.count else unread)
    s.addUnimportantUnreadCount
  { importantMessage := s.important.maxMessage
    unimportantMessage := s.unimportant.maxMessage
    addImportantUnread := if call.keepUnreadCounters then 0 else s.addImportantUnreadCount
    addUnimportantUnread := if call.keepUnreadCounters then 0 else addUnimportantUnreadCount }

/-! ## What should be passed -/

/-- A message with the key that the call gives it. -/
structure Entry where
  key : SortKey
  message : Message
  deriving DecidableEq

def Message.entry (message : Message) : Entry := ⟨message.sortKey, message⟩

def Rekeyed.entry (r : Rekeyed) : Entry := ⟨r.updatedSortKey, r.updatedMessage⟩

/-- The added messages and those with another key. -/
def entries (channel : Channel) (call : Call) : List Entry :=
  (addedMessages channel call).map Message.entry ++ call.updatedMessageSortKeys.map Rekeyed.entry

/-- The entries of a space. -/
def inSpace (space : Space) (list : List Entry) : List Entry := list.filter (·.key.space = space)

/-- No entry has a greater key. -/
def Greatest (list : List Entry) (e : Entry) : Prop :=
  e ∈ list ∧ ∀ other ∈ list, other.key.value ≤ e.key.value

/-- The message of an entry with the greatest key, or none if there are no entries. -/
def IsNewest (list : List Entry) (message : Option Message) : Prop :=
  (list = [] ∧ message = none) ∨ ∃ e, Greatest list e ∧ message = some e.message

/-- The number of unread messages of a space. -/
def unreadCount (channel : Channel) (space : Space) (messages : List Message) : Int :=
  (messages.filter fun message =>
    message.sortKey.space = space ∧ isUnread channel message).length

/-- The unread messages of the added groups. -/
def unreadInGroups (channel : Channel) (call : Call) : Int :=
  ((call.unimportantGroups.filter (isUnreadGroup channel)).map Group.count).sum

/-- The stored keys of a space below another key. -/
def keysBelow (rows : List Row) (space : Space) (upper : SortKey) : List SortKey :=
  (rows.map Row.sortKey).filter fun k =>
    k.value < upper.value ∧ k.value > (SortKey.lowerBound space).value

/-- The greatest key of a remote message among the keys, or the lower bound of the space. -/
def IsNewestRemote (space : Space) (keys : List SortKey) (bound : SortKey) : Prop :=
  let remote := keys.filter (·.mid < localMidBaseline)
  (remote = [] ∧ bound = .lowerBound space) ∨
    bound ∈ remote ∧ ∀ k ∈ remote, k.value ≤ bound.value

/-- The newest messages, the bounds of what is known, and the numbers of the unread messages
above them. -/
structure Tracks (channel : Channel) (call : Call) (update : Update) : Prop where
  important : IsNewest (inSpace .important (entries channel call)) update.importantMessage
  unimportant : IsNewest (inSpace .unimportant (entries channel call)) update.unimportantMessage
  known : ∀ space, IsNewestRemote space (keysBelow channel.rows space (.upperBound space))
    (knownChannelEarlierRemoteMessageSortKey channel.rows space)
  importantUnread : update.addImportantUnread =
    if call.keepUnreadCounters then 0
    else unreadCount channel .important (addedMessages channel call)
  unimportantUnread : update.addUnimportantUnread =
    if call.keepUnreadCounters then 0
    else unreadCount channel .unimportant (addedMessages channel call) +
      unreadInGroups channel call

/-- The important messages among those with another key. -/
def importantRekeyed (call : Call) : List Rekeyed :=
  call.updatedMessageSortKeys.filter (·.updatedSortKey.space = .important)

/-- The last important message with another key is the newest important one, and no space
has only messages without time and id. -/
structure LastIsNewest (channel : Channel) (call : Call) : Prop where
  last : ∀ r, (importantRekeyed call).getLast? = some r →
    ∃ e, Greatest (inSpace .important (entries channel call)) e ∧ e.message = r.updatedMessage
  timed : ∀ space, (space = .important → importantRekeyed call = []) →
    inSpace space (entries channel call) ≠ [] →
      ∃ e ∈ inSpace space (entries channel call), e.key ≠ .lowerBound space

/-! ## Comparing keys -/

namespace SortKey

theorem value_eq (k : SortKey) : k.value =
    k.space.byte.toNat * 2 ^ 64 + k.timestamp.toUInt32.toNat * 2 ^ 32 + k.mid.toUInt32.toNat := by
  have htimestamp : k.timestamp.toUInt32.toNat < 256 ^ 4 := k.timestamp.toUInt32.toNat_lt
  have hmid : k.mid.toUInt32.toNat < 256 ^ 4 := k.mid.toUInt32.toNat_lt
  have hspace : beNat [k.space.byte] = k.space.byte.toNat := by simp [beNat, leNat]
  unfold value bytes
  rw [← List.singleton_append, beNat_append, beNat_append, hspace, beNat_natBEWidth htimestamp,
    beNat_natBEWidth hmid]
  simp only [List.length_append, length_natBEWidth]
  ring

/-- The space comes first. -/
theorem value_lt_of_space {k k' : SortKey} (hk : k.space = .unimportant)
    (hk' : k'.space = .important) : k.value < k'.value := by
  have htimestamp := k.timestamp.toUInt32.toNat_lt
  have hmid := k.mid.toUInt32.toNat_lt
  rw [value_eq, value_eq, hk, hk', show Space.unimportant.byte.toNat = 0 from rfl,
    show Space.important.byte.toNat = 1 from rfl]
  omega

theorem lowerBound_lt_iff {k : SortKey} {space : Space} (h : k.space = space) :
    (lowerBound space).value < k.value ↔ k ≠ lowerBound space := by
  have hzero : (lowerBound space).value = space.byte.toNat * 2 ^ 64 := by
    have hnone : (0 : Int32).toUInt32.toNat = 0 := rfl
    rw [value_eq]
    simp only [lowerBound, hnone]
    omega
  have hvalue := k.value_eq
  rw [h] at hvalue
  constructor
  · rintro hlt rfl
    exact lt_irrefl _ hlt
  · intro hne
    by_contra hge
    have htimestamp : k.timestamp.toUInt32.toNat = 0 := by omega
    have hmid : k.mid.toUInt32.toNat = 0 := by omega
    apply hne
    rcases k with ⟨kspace, timestamp, mid⟩
    have htimestamp : timestamp.toUInt32 = 0 := UInt32.toNat_inj.1 htimestamp
    have hmid : mid.toUInt32 = 0 := UInt32.toNat_inj.1 hmid
    simp only [lowerBound, SortKey.mk.injEq]
    exact ⟨h, congrArg Int32.ofUInt32 htimestamp, congrArg Int32.ofUInt32 hmid⟩

theorem mid_eq_of_value_eq {k k' : SortKey} (h : k.value = k'.value) : k.mid = k'.mid := by
  have hmid := k.mid.toUInt32.toNat_lt
  have hmid' := k'.mid.toUInt32.toNat_lt
  rw [value_eq, value_eq] at h
  have heq : k.mid.toUInt32 = k'.mid.toUInt32 := UInt32.toNat_inj.1 (by omega)
  exact congrArg Int32.ofUInt32 heq

end SortKey

/-- A round either returns or goes on below the key it has found, which no remote message
has. -/
theorem isNewestRemote_knownLoop (rows : List Row) (space : Space) :
    ∀ (rounds : Nat) (upper : SortKey), (keysBelow rows space upper).length < rounds →
      IsNewestRemote space (keysBelow rows space upper)
        (knownLoop rows (.lowerBound space) rounds upper) := by
  intro rounds
  induction rounds with
  | zero => intro upper h; cases h
  | succ rounds ih =>
    intro upper h
    have hquery : queryBetween rows (.lowerBound space) upper =
        (keysBelow rows space upper).maxOn? SortKey.value := rfl
    rw [knownLoop, hquery]
    cases hfound : (keysBelow rows space upper).maxOn? SortKey.value with
    | none =>
      refine .inl ⟨?_, rfl⟩
      rw [List.filter_eq_nil_iff]
      intro x hx
      have hsome := List.isSome_maxOn?_of_mem (f := SortKey.value) hx
      rw [hfound] at hsome
      cases hsome
    | some k =>
      have hk := List.maxOn?_mem hfound
      have hmax : ∀ x ∈ keysBelow rows space upper, x.value ≤ k.value := fun x hx => by
        simpa [hfound] using List.le_apply_get_maxOn?_of_mem (f := SortKey.value) hx
      dsimp only
      split
      · rename_i hremote
        exact .inr ⟨List.mem_filter.2 ⟨hk, decide_eq_true hremote⟩,
          fun x hx => hmax x (List.mem_of_mem_filter hx)⟩
      · rename_i hlocal
        have hbelow : keysBelow rows space k =
            (keysBelow rows space upper).filter (·.value < k.value) := by
          have hlt := (of_decide_eq_true (List.mem_filter.1 hk).2).1
          unfold keysBelow
          rw [List.filter_filter]
          refine List.filter_congr fun x _ => ?_
          grind
        have hsame : (keysBelow rows space k).filter (·.mid < localMidBaseline) =
            (keysBelow rows space upper).filter (·.mid < localMidBaseline) := by
          rw [hbelow, List.filter_filter]
          refine List.filter_congr fun x hx => ?_
          have hle := hmax x hx
          grind [SortKey.mid_eq_of_value_eq]
        have hrest := ih k (by
          rw [hbelow]
          exact lt_of_lt_of_le (List.length_filter_lt_length_iff_exists.2 ⟨k, hk, by simp⟩)
            (Nat.le_of_lt_succ h))
        rw [IsNewestRemote, hsame] at hrest
        exact hrest

theorem isNewestRemote_known (rows : List Row) (space : Space) :
    IsNewestRemote space (keysBelow rows space (.upperBound space))
      (knownChannelEarlierRemoteMessageSortKey rows space) := by
  have hle := List.length_filter_le (fun k : SortKey => decide (k.value <
    (SortKey.upperBound space).value ∧ k.value > (SortKey.lowerBound space).value))
    (rows.map Row.sortKey)
  rw [List.length_map] at hle
  exact isNewestRemote_knownLoop rows space _ _ (Nat.lt_succ_of_le hle)

/-! ## The loops as running maxima -/

/-- The first of the greatest entries of a space above the lower bound. -/
def best (space : Space) (list : List Entry) : Option Entry :=
  runningMax (fun e : Entry => e.key.value) (SortKey.lowerBound space).value (inSpace space list)

/-- The variables of a space that hold an entry, or start. -/
def Newest.of (space : Space) (e : Option Entry) : Newest :=
  ⟨e.elim (.lowerBound space) Entry.key, e.map Entry.message⟩

section Best

variable {space : Space} {list : List Entry} {e : Entry}

theorem best_concat_same (h : e.key.space = space) :
    best space (list ++ [e]) =
      better (fun e : Entry => e.key.value) (SortKey.lowerBound space).value (best space list)
        e := by
  simp [best, inSpace, h, runningMax_concat]

theorem best_concat_other (h : e.key.space ≠ space) :
    best space (list ++ [e]) = best space list := by
  simp [best, inSpace, h]

theorem offer_of (e : Entry) (b : Option Entry) :
    (Newest.of space b).offer e.key e.message = Newest.of space
      (better (fun e : Entry => e.key.value) (SortKey.lowerBound space).value b e) := by
  cases b with
  | none =>
    by_cases hlt : (SortKey.lowerBound space).value < e.key.value <;>
      simp [Newest.of, Newest.offer, better, hlt]
  | some b =>
    by_cases hlt : b.key.value < e.key.value <;> simp [Newest.of, Newest.offer, better, hlt]

/-- The key that the variables of a space hold is one of the space. -/
theorem of_best_space : (Newest.of space (best space list)).maxSortKey.space = space := by
  cases h : best space list with
  | none => rfl
  | some b =>
    have hspace : b.key.space = space := by
      simpa [inSpace] using (List.mem_filter.1 (mem_of_runningMax h).1).2
    exact hspace

theorem isNewest_best_iff :
    IsNewest (inSpace space list) ((best space list).map Entry.message) ↔
      (inSpace space list ≠ [] → ∃ e ∈ inSpace space list, e.key ≠ .lowerBound space) := by
  have hspace (e : Entry) (he : e ∈ inSpace space list) : e.key.space = space := by
    simpa [inSpace] using (List.mem_filter.1 he).2
  cases hbest : best space list with
  | none =>
    have hall := runningMax_eq_none_iff.1 hbest
    have hlower : ∀ e ∈ inSpace space list, e.key = .lowerBound space := by
      intro e he
      by_contra hne
      exact absurd (hall e he) (not_le.2 ((SortKey.lowerBound_lt_iff (hspace e he)).2 hne))
    constructor
    · rintro (⟨hnil, _⟩ | ⟨e, _, hmessage⟩) hne
      · exact absurd hnil hne
      · cases hmessage
    · intro h
      by_cases hnil : inSpace space list = []
      · exact .inl ⟨hnil, rfl⟩
      · obtain ⟨e, he, hne⟩ := h hnil
        exact absurd (hlower e he) hne
  | some b =>
    obtain ⟨hmem, hlt⟩ := mem_of_runningMax hbest
    have hle (other : Entry) (hother : other ∈ inSpace space list) :=
      le_of_runningMax hbest hother
    exact iff_of_true (.inr ⟨b, ⟨hmem, hle⟩, rfl⟩)
      fun _ => ⟨b, hmem, (SortKey.lowerBound_lt_iff (hspace b hmem)).1 hlt⟩

end Best

section Loops

variable (channel : Channel)

/-- The first loop: the running maxima of both spaces, and the numbers of unread messages. -/
theorem foldl_add (messages : List Message) :
    messages.foldl (Tops.add channel) {} =
      { important := .of .important (best .important (messages.map Message.entry))
        unimportant := .of .unimportant (best .unimportant (messages.map Message.entry))
        addImportantUnreadCount := unreadCount channel .important messages
        addUnimportantUnreadCount := unreadCount channel .unimportant messages } := by
  induction messages using List.reverseRecOn with
  | nil => rfl
  | append_singleton messages message ih =>
    rw [List.foldl_append, List.foldl_cons, List.foldl_nil, ih, List.map_append,
      List.map_singleton]
    have hentry : message.entry.key.space = message.sortKey.space := rfl
    cases hspace : message.sortKey.space with
    | important =>
      rw [hspace] at hentry
      rw [best_concat_same hentry, ← offer_of,
        best_concat_other (hentry.trans_ne (by decide))]
      cases hunread : isUnread channel message <;>
        simp [Tops.add, hspace, unreadCount, hunread, Message.entry]
    | unimportant =>
      rw [hspace] at hentry
      rw [best_concat_same hentry, ← offer_of,
        best_concat_other (hentry.trans_ne (by decide))]
      cases hunread : isUnread channel message <;>
        simp [Tops.add, hspace, unreadCount, hunread, Message.entry]

/-- The second loop: the running maximum goes on for the unimportant messages, and the last
of the important ones is taken. -/
theorem foldl_rekey (s : Tops) (list : List Entry)
    (hs : s.unimportant = .of .unimportant (best .unimportant list)) (rs : List Rekeyed) :
    rs.foldl Tops.rekey s =
      { s with
        important :=
          match (rs.filter (·.updatedSortKey.space = .important)).getLast? with
          | some r => ⟨r.updatedSortKey, some r.updatedMessage⟩
          | none => s.important
        unimportant :=
          .of .unimportant (best .unimportant (list ++ rs.map Rekeyed.entry)) } := by
  induction rs using List.reverseRecOn with
  | nil =>
    simp only [List.foldl_nil, List.filter_nil, List.getLast?_nil, List.map_nil,
      List.append_nil, ← hs]
  | append_singleton rs r ih =>
    rw [List.foldl_append, List.foldl_cons, List.foldl_nil, ih, List.map_append,
      List.map_singleton, ← List.append_assoc, List.filter_append]
    have hentry : r.entry.key.space = r.updatedSortKey.space := rfl
    cases hspace : r.updatedSortKey.space with
    | important =>
      have hlt := SortKey.value_lt_of_space
        (@of_best_space .unimportant (list ++ rs.map Rekeyed.entry)) hspace
      rw [hspace] at hentry
      rw [best_concat_other (hentry.trans_ne (by decide))]
      simp [Tops.rekey, hspace, hlt]
    | unimportant =>
      rw [hspace] at hentry
      rw [best_concat_same hentry, ← offer_of]
      simp [Tops.rekey, hspace, Rekeyed.entry]

theorem foldl_groups (groups : List Group) (unread : Int) :
    groups.foldl (fun unread group =>
        if isUnreadGroup channel group then unread + group.count else unread) unread =
      unread + ((groups.filter (isUnreadGroup channel)).map Group.count).sum := by
  induction groups generalizing unread with
  | nil => simp
  | cons group groups ih =>
    grind

end Loops

section Result

variable (channel : Channel) (call : Call)

/-- The variables after both loops. -/
theorem tops_eq :
    tops channel call =
      { important :=
          match (importantRekeyed call).getLast? with
          | some r => ⟨r.updatedSortKey, some r.updatedMessage⟩
          | none => .of .important (best .important ((addedMessages channel call).map
              Message.entry))
        unimportant := .of .unimportant (best .unimportant (entries channel call))
        addImportantUnreadCount := unreadCount channel .important (addedMessages channel call)
        addUnimportantUnreadCount :=
          unreadCount channel .unimportant (addedMessages channel call) } := by
  unfold tops
  rw [foldl_add, foldl_rekey _ ((addedMessages channel call).map Message.entry) rfl]
  rfl

theorem addMessagesToChannel_importantMessage :
    (addMessagesToChannel channel call).importantMessage =
      match (importantRekeyed call).getLast? with
      | some r => some r.updatedMessage
      | none => (best .important ((addedMessages channel call).map Message.entry)).map
          Entry.message := by
  unfold addMessagesToChannel
  rw [tops_eq]
  split <;> rfl

theorem addMessagesToChannel_unimportantMessage :
    (addMessagesToChannel channel call).unimportantMessage =
      (best .unimportant (entries channel call)).map Entry.message := by
  unfold addMessagesToChannel
  rw [tops_eq]
  rfl

theorem addMessagesToChannel_unread :
    (addMessagesToChannel channel call).addImportantUnread =
        (if call.keepUnreadCounters then 0
        else unreadCount channel .important (addedMessages channel call)) ∧
      (addMessagesToChannel channel call).addUnimportantUnread =
        if call.keepUnreadCounters then 0
        else unreadCount channel .unimportant (addedMessages channel call) +
          unreadInGroups channel call := by
  unfold addMessagesToChannel
  dsimp only
  rw [tops_eq, foldl_groups]
  exact ⟨rfl, rfl⟩

theorem mem_importantRekeyed {r : Rekeyed} : r ∈ importantRekeyed call ↔
    r ∈ call.updatedMessageSortKeys ∧ r.updatedSortKey.space = .important := by
  simp [importantRekeyed]

theorem inSpace_entries_of_none (h : importantRekeyed call = []) :
    inSpace .important (entries channel call) =
      inSpace .important ((addedMessages channel call).map Message.entry) := by
  have hnone : inSpace .important (call.updatedMessageSortKeys.map Rekeyed.entry) = [] := by
    refine List.filter_eq_nil_iff.2 fun e he himportant => ?_
    obtain ⟨r, hr, rfl⟩ := List.mem_map.1 he
    have hmem := (mem_importantRekeyed call).2 ⟨hr, of_decide_eq_true himportant⟩
    rw [h] at hmem
    cases hmem
  unfold entries
  rw [inSpace, List.filter_append]
  exact (congrArg _ hnone).trans (List.append_nil _)

theorem isNewest_important_iff :
    IsNewest (inSpace .important (entries channel call))
        (addMessagesToChannel channel call).importantMessage ↔
      (∀ r, (importantRekeyed call).getLast? = some r →
        ∃ e, Greatest (inSpace .important (entries channel call)) e ∧
          e.message = r.updatedMessage) ∧
      (importantRekeyed call = [] → inSpace .important (entries channel call) ≠ [] →
        ∃ e ∈ inSpace .important (entries channel call), e.key ≠ .lowerBound .important) := by
  rw [addMessagesToChannel_importantMessage]
  cases hlast : (importantRekeyed call).getLast? with
  | none =>
    have hnil := List.getLast?_eq_none_iff.1 hlast
    have hentries := inSpace_entries_of_none channel call hnil
    simp only [hnil, reduceCtorEq, false_implies, implies_true, true_and, forall_const, hentries]
    exact isNewest_best_iff
  | some r =>
    have hr := (mem_importantRekeyed call).1 (List.mem_of_getLast? hlast)
    have hne : importantRekeyed call ≠ [] := fun hnil => by simp [hnil] at hlast
    simp only [hne, false_implies, and_true, Option.some.injEq, forall_eq']
    constructor
    · rintro (⟨_, hnone⟩ | ⟨e, he, hmessage⟩)
      · cases hnone
      · exact ⟨e, he, (Option.some.inj hmessage).symm⟩
    · rintro ⟨e, he, hmessage⟩
      exact .inr ⟨e, he, congrArg some hmessage.symm⟩

/-- The call reports the newest messages if and only if the last important message with
another key is the newest important one. -/
theorem newest_messages :
    Tracks channel call (addMessagesToChannel channel call) ↔ LastIsNewest channel call := by
  have himportant := isNewest_important_iff channel call
  have hunimportant := @isNewest_best_iff .unimportant (entries channel call)
  rw [← addMessagesToChannel_unimportantMessage] at hunimportant
  obtain ⟨hunread, hunread'⟩ := addMessagesToChannel_unread channel call
  constructor
  · intro h
    obtain ⟨hlast, htimed⟩ := himportant.1 h.important
    refine ⟨hlast, fun space hspace => ?_⟩
    cases space with
    | important => exact htimed (hspace rfl)
    | unimportant => exact hunimportant.1 h.unimportant
  · intro h
    exact ⟨himportant.2 ⟨h.last, fun hnil => h.timed .important fun _ => hnil⟩,
      hunimportant.2 (h.timed .unimportant fun hspace => by cases hspace),
      isNewestRemote_known channel.rows, hunread, hunread'⟩

end Result

/-- A new message 7, and the message 5 with another key: the older one is reported. -/
theorem rekeyed_message_reported :
    ∃ (channel : Channel) (call : Call),
      ¬Tracks channel call (addMessagesToChannel channel call) := by
  let channel : Channel := ⟨[], 4, []⟩
  let call : Call :=
    { messages := [⟨1, 7, ⟨.important, 30, 7⟩, true, false, false⟩]
      updatedMessageSortKeys := [⟨⟨.important, 10, 800000001⟩, ⟨.important, 10, 5⟩,
        ⟨1, 5, ⟨.important, 10, 5⟩, true, false, false⟩⟩] }
  have holder : ∀ e ∈ inSpace .important (entries channel call),
      (∀ other ∈ inSpace .important (entries channel call), other.key.value ≤ e.key.value) →
        (addMessagesToChannel channel call).importantMessage ≠ some e.message := by
    decide +kernel
  have hsome : inSpace .important (entries channel call) ≠ [] := by decide +kernel
  refine ⟨channel, call, fun h => ?_⟩
  rcases h.important with ⟨hnil, _⟩ | ⟨e, ⟨he, hgreatest⟩, hmessage⟩
  · exact hsome hnil
  · exact holder e he hgreatest hmessage

end TelegramPub.Ports.ChannelSortKeys
