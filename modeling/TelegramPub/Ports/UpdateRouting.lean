import TelegramPub.Ports.ApplyUpdatesSafety

/-!
# TGUpdateMessageService

`processMessages:` sorts the updates of incoming messages into four lists, one
for each actor that applies updates: those with a `pts`, those with a `qts`, and
the others with the `seq` of their message or only with its date.  `addUpdates:`
does the same for the answer to a request.

An update should be in exactly one of the lists.  In the loop over the updates of
`updates` and `updatesCombined`, however, the test for the `qts` is not an
`else if`: an update with a `pts` is also one of the other updates, so it goes to
the actor `withSeq` or `withDate` as well, and neither looks at its `pts`.  The
branch for `updateShort` has the `else if`.  `addUpdates:` has no branch for the
short forms: their updates are in no list.
-/

namespace TelegramPub.Ports.UpdateRouting

open Verified.Machine Ports.ApplyUpdates Ports.ApplyUpdatesSafety

/-- The body of a message.  The short messages become an `updateNewMessage`, of
which `content` stands for the message. -/
inductive Body where
  | updates (updates : List Update) (date seq : Int)
  | updatesCombined (updates : List Update) (date seqStart seq : Int)
  | updateShort (update : Update) (date : Int)
  | modernUpdateShortChatMessage (content : Nat) (pts ptsCount : Int32)
  | modernUpdateShortMessage (content : Nat) (pts ptsCount : Int32)
  | updatesTooLong
  deriving DecidableEq

/-- An `MTIncomingMessage`; `object` is its identity, and the first of those of
what is made from it. -/
structure IncomingMessage where
  object : Nat := 0
  body : Body
  deriving DecidableEq

/-- The four collected lists. -/
structure Collected where
  withPts : List Updates := []
  withQts : List Updates := []
  withSeq : List Updates := []
  withDate : List Updates := []
  deriving DecidableEq

def Collected.append (c d : Collected) : Collected :=
  { withPts := c.withPts ++ d.withPts
    withQts := c.withQts ++ d.withQts
    withSeq := c.withSeq ++ d.withSeq
    withDate := c.withDate ++ d.withDate }

/-- A list with a batch of these updates, if there are any. -/
def batchOf (object : Nat) (updates : List Update) : List Updates :=
  if updates.isEmpty then [] else [{ object, updates }]

/-- The loop over the updates of `updates` and `updatesCombined`, in
`processMessages:` and in `addUpdates:`. -/
def collectContained (object : Nat) (containedUpdates : List Update)
    (updatesDate updatesSeqStart updatesSeqEnd : Int) : Collected :=
  let otherUpdates := containedUpdates.filter (!·.hasQts)
  { withPts := batchOf object (containedUpdates.filter (·.hasPts))
    withQts := batchOf object (containedUpdates.filter (·.hasQts))
    withSeq :=
      if updatesSeqEnd ≠ 0 then
        [{ object, updates := otherUpdates, date := updatesDate, seqStart := updatesSeqStart
           seqEnd := updatesSeqEnd }]
      else []
    withDate :=
      if updatesSeqEnd ≠ 0 then []
      else [{ object, updates := otherUpdates, date := updatesDate }] }

/-- The `updateNewMessage` made from a short message. -/
def synthesized (object content : Nat) (pts ptsCount : Int32) : Update :=
  { object := object + 1, content, ptsFields := some (pts, ptsCount) }

/-- What `processMessages:` makes of a message. -/
def IncomingMessage.collect (m : IncomingMessage) : Collected :=
  match m.body with
  | .updates updates date seq => collectContained m.object updates date seq seq
  | .updatesCombined updates date seqStart seq =>
    collectContained m.object updates date seqStart seq
  | .updateShort update date =>
    if update.hasPts then { withPts := batchOf m.object [update] }
    else if update.hasQts then { withQts := batchOf m.object [update] }
    else { withDate := [{ object := m.object, updates := [update], date }] }
  | .modernUpdateShortChatMessage content pts ptsCount =>
    { withPts := batchOf m.object [synthesized m.object content pts ptsCount] }
  | .modernUpdateShortMessage content pts ptsCount =>
    { withPts := batchOf m.object [synthesized m.object content pts ptsCount] }
  | .updatesTooLong => {}

/-- The lists of `processMessages:`. -/
def collectMessages (messages : List IncomingMessage) : Collected :=
  messages.foldl (fun c m => c.append m.collect) {}

/-- The lists of `addUpdates:`. -/
def IncomingMessage.collectAdded (m : IncomingMessage) : Collected :=
  match m.body with
  | .updates updates date seq => collectContained m.object updates date seq seq
  | .updatesCombined updates date seqStart seq =>
    collectContained m.object updates date seqStart seq
  | _ => collectContained m.object [] 0 0 0

/-- The updates a message contains. -/
def IncomingMessage.contained (m : IncomingMessage) : List Update :=
  match m.body with
  | .updates updates _ _ => updates
  | .updatesCombined updates _ _ _ => updates
  | .updateShort update _ => [update]
  | .modernUpdateShortChatMessage content pts ptsCount =>
    [synthesized m.object content pts ptsCount]
  | .modernUpdateShortMessage content pts ptsCount =>
    [synthesized m.object content pts ptsCount]
  | .updatesTooLong => []

/-- Everything that is in one of the lists. -/
def Collected.placed (c : Collected) : List Update :=
  collected c.withPts ++ collected c.withQts ++ collected c.withSeq ++ collected c.withDate

/-- Each of the updates is in exactly one list, and once. -/
def PlacedOnce (c : Collected) (updates : List Update) : Prop :=
  ∀ u ∈ updates, c.placed.count u = 1

/-! ## When an update is in exactly one list -/

/-- The condition for `processMessages:`. -/
def IncomingMessage.RoutesOnce (m : IncomingMessage) : Prop :=
  match m.body with
  | .updates updates _ _ => ∀ u ∈ updates, u.hasPts = false
  | .updatesCombined updates _ _ _ => ∀ u ∈ updates, u.hasPts = false
  | _ => True

/-- The condition for `addUpdates:`. -/
def IncomingMessage.AddsOnce (m : IncomingMessage) : Prop :=
  match m.body with
  | .updates updates _ _ => ∀ u ∈ updates, u.hasPts = false
  | .updatesCombined updates _ _ _ => ∀ u ∈ updates, u.hasPts = false
  | .updatesTooLong => True
  | _ => False

theorem collected_batchOf (object : Nat) (updates : List Update) :
    collected (batchOf object updates) = updates := by
  cases updates with
  | nil => rfl
  | cons u us => simp [batchOf, collected]

theorem placed_collectContained (object : Nat) (updates : List Update) (date start seqEnd : Int) :
    (collectContained object updates date start seqEnd).placed.Perm
      (updates.filter (·.hasPts) ++ updates) := by
  have hother : (collectContained object updates date start seqEnd).placed =
      updates.filter (·.hasPts) ++ (updates.filter (·.hasQts) ++
        updates.filter (!·.hasQts)) := by
    unfold Collected.placed collectContained
    simp only [collected_batchOf, List.append_assoc]
    by_cases hseq : seqEnd = 0
    · simp [hseq, collected]
    · simp [hseq, collected]
  rw [hother]
  exact List.Perm.append_left _ (List.filter_append_perm (·.hasQts) updates)

variable {date start seqEnd : Int}

/-- An update with a `pts` is in a second list. -/
theorem count_collectContained {object : Nat} {updates : List Update}
    (hnodup : updates.Nodup) {u : Update} (hu : u ∈ updates) :
    (collectContained object updates date start seqEnd).placed.count u =
      if u.hasPts then 2 else 1 := by
  rw [(placed_collectContained object updates date start seqEnd).count_eq, List.count_append,
    List.count_eq_one_of_mem hnodup hu]
  cases hpts : u.hasPts with
  | false =>
    have hnot : u ∉ updates.filter (·.hasPts) := by
      grind
    rw [List.count_eq_zero_of_not_mem hnot]
    rfl
  | true =>
    rw [List.count_eq_one_of_mem (hnodup.filter _) (List.mem_filter.2 ⟨hu, hpts⟩)]
    rfl

theorem placedOnce_collectContained_iff {object : Nat} {updates : List Update}
    (hnodup : updates.Nodup) :
    PlacedOnce (collectContained object updates date start seqEnd) updates ↔
      ∀ u ∈ updates, u.hasPts = false := by
  unfold PlacedOnce
  constructor
  · grind [count_collectContained]
  · intro h u hu
    rw [count_collectContained hnodup hu, h u hu]
    rfl

/-- What a message adds to the lists is made of its updates. -/
theorem IncomingMessage.placed_subset (m : IncomingMessage) :
    ∀ u ∈ m.collect.placed, u ∈ m.contained := by
  intro u hu
  unfold IncomingMessage.collect at hu
  unfold IncomingMessage.contained
  have hcontained : ∀ {updates : List Update} {date start seqEnd : Int},
      u ∈ (collectContained m.object updates date start seqEnd).placed → u ∈ updates := by
    intro updates date start seqEnd hin
    rcases List.mem_append.1 ((placed_collectContained _ _ _ _ _).subset hin) with hin | hin
    · exact List.mem_of_mem_filter hin
    · exact hin
  cases hbody : m.body with
  | updates updates date seq => rw [hbody] at hu; exact hcontained hu
  | updatesCombined updates date start seq => rw [hbody] at hu; exact hcontained hu
  | updateShort update date =>
    rw [hbody] at hu
    dsimp only at hu
    split at hu
    · simpa [Collected.placed, collected, batchOf] using hu
    · split at hu
      · simpa [Collected.placed, collected, batchOf] using hu
      · simpa [Collected.placed, collected, batchOf] using hu
  | modernUpdateShortChatMessage content pts ptsCount =>
    rw [hbody] at hu
    simpa [Collected.placed, collected, batchOf] using hu
  | modernUpdateShortMessage content pts ptsCount =>
    rw [hbody] at hu
    simpa [Collected.placed, collected, batchOf] using hu
  | updatesTooLong => rw [hbody] at hu; cases hu

theorem IncomingMessage.placedOnce_iff (m : IncomingMessage) (hnodup : m.contained.Nodup) :
    PlacedOnce m.collect m.contained ↔ m.RoutesOnce := by
  unfold IncomingMessage.collect IncomingMessage.RoutesOnce
  unfold IncomingMessage.contained at hnodup ⊢
  cases hbody : m.body with
  | updates updates date seq =>
    rw [hbody] at hnodup
    exact placedOnce_collectContained_iff hnodup
  | updatesCombined updates date start seq =>
    rw [hbody] at hnodup
    exact placedOnce_collectContained_iff hnodup
  | updateShort update date =>
    simp only [iff_true]
    intro u hu
    rw [List.mem_singleton.1 hu]
    split
    · simp [Collected.placed, collected, batchOf]
    · split <;> simp [Collected.placed, collected, batchOf]
  | modernUpdateShortChatMessage content pts ptsCount =>
    simp [PlacedOnce, Collected.placed, collected, batchOf]
  | modernUpdateShortMessage content pts ptsCount =>
    simp [PlacedOnce, Collected.placed, collected, batchOf]
  | updatesTooLong => simp [PlacedOnce]

theorem IncomingMessage.placedOnce_added_iff (m : IncomingMessage) (hnodup : m.contained.Nodup) :
    PlacedOnce m.collectAdded m.contained ↔ m.AddsOnce := by
  unfold IncomingMessage.collectAdded IncomingMessage.AddsOnce
  unfold IncomingMessage.contained at hnodup ⊢
  have hnone : (collectContained m.object [] 0 0 0).placed = [] := rfl
  cases hbody : m.body with
  | updates updates date seq =>
    rw [hbody] at hnodup
    exact placedOnce_collectContained_iff hnodup
  | updatesCombined updates date start seq =>
    rw [hbody] at hnodup
    exact placedOnce_collectContained_iff hnodup
  | updateShort update date => simp [PlacedOnce, hnone]
  | modernUpdateShortChatMessage content pts ptsCount => simp [PlacedOnce, hnone]
  | modernUpdateShortMessage content pts ptsCount => simp [PlacedOnce, hnone]
  | updatesTooLong => simp [PlacedOnce]

theorem count_placed_append (c d : Collected) (u : Update) :
    (c.append d).placed.count u = c.placed.count u + d.placed.count u := by
  unfold Collected.append Collected.placed
  simp only [collected_append, List.count_append]
  omega

theorem count_collectMessages (messages : List IncomingMessage) (u : Update) :
    (collectMessages messages).placed.count u =
      (messages.map fun m => m.collect.placed.count u).sum := by
  have hfold : ∀ (messages : List IncomingMessage) (c : Collected),
      (messages.foldl (fun c m => c.append m.collect) c).placed.count u =
        c.placed.count u + (messages.map fun m => m.collect.placed.count u).sum := by
    intro messages
    induction messages with
    | nil => intro c; rfl
    | cons m messages ih =>
      grind [count_placed_append]
  rw [collectMessages, hfold]
  exact Nat.zero_add _

/-- The updates of all messages. -/
def containedUpdates (messages : List IncomingMessage) : List Update :=
  messages.flatMap IncomingMessage.contained

variable {m : IncomingMessage}

/-- An update of one message is not placed by the others. -/
theorem count_of_mem {messages : List IncomingMessage}
    (hnodup : (containedUpdates messages).Nodup) (hm : m ∈ messages)
    {u : Update} (hu : u ∈ m.contained) :
    (collectMessages messages).placed.count u = m.collect.placed.count u := by
  rw [count_collectMessages]
  induction messages with
  | nil => cases hm
  | cons first messages ih =>
    obtain ⟨_, hrest, hdisjoint⟩ := List.nodup_append'.1 hnodup
    rw [List.map_cons, List.sum_cons]
    have hzero : ∀ m' : IncomingMessage, u ∉ m'.contained → m'.collect.placed.count u = 0 :=
      fun m' hnot => List.count_eq_zero_of_not_mem fun hin => hnot (m'.placed_subset u hin)
    rcases List.mem_cons.1 hm with rfl | hm
    · have hothers : (messages.map fun m => m.collect.placed.count u).sum = 0 := by
        rw [List.sum_eq_zero_iff_forall_eq_nat]
        intro n hn
        obtain ⟨m', hm', rfl⟩ := List.mem_map.1 hn
        apply hzero
        intro hin
        exact hdisjoint hu (List.mem_flatMap.2 ⟨m', hm', hin⟩)
      omega
    · have hfirst : first.collect.placed.count u = 0 := by
        apply hzero
        intro hin
        exact hdisjoint hin (List.mem_flatMap.2 ⟨m, hm, hu⟩)
      rw [hfirst, Nat.zero_add]
      exact ih hrest hm

theorem placedOnce_collectMessages_iff {messages : List IncomingMessage}
    (hnodup : (containedUpdates messages).Nodup) :
    PlacedOnce (collectMessages messages) (containedUpdates messages) ↔
      ∀ m ∈ messages, m.RoutesOnce := by
  have hown : ∀ m ∈ messages, m.contained.Nodup := fun m hm =>
    hnodup.sublist (List.sublist_flatten_of_mem (List.mem_map_of_mem hm))
  constructor
  · intro h m hm
    rw [← m.placedOnce_iff (hown m hm)]
    intro u hu
    rw [← count_of_mem hnodup hm hu]
    exact h u (List.mem_flatMap.2 ⟨m, hm, hu⟩)
  · intro h u hu
    obtain ⟨m, hm, hu⟩ := List.mem_flatMap.1 hu
    rw [count_of_mem hnodup hm hu]
    exact (m.placedOnce_iff (hown m hm)).2 (h m hm) u hu

/-! ## The service and the actors -/

/-- The updates of a message as new objects. -/
def Body.stamp (next : Nat) : Body → Body
  | .updates us date seq => .updates (stampUpdates next us) date seq
  | .updatesCombined us date seqStart seq =>
    .updatesCombined (stampUpdates next us) date seqStart seq
  | .updateShort update date => .updateShort { update with object := next } date
  | body => body

/-- Messages as new objects, and the next free identity. -/
def stampMessages (next : Nat) : List IncomingMessage → List IncomingMessage × Nat
  | [] => ([], next)
  | m :: messages =>
    let (messages, after) := stampMessages (next + 1 + m.contained.length) messages
    ({ object := next, body := m.body.stamp (next + 1) } :: messages, after)

/-- The messages of an event as the service receives them. -/
def received (w : World) (messages : List IncomingMessage) : List IncomingMessage :=
  (stampMessages w.nextObject messages).1

/-- The end of `processMessages:` and `addUpdates:`. -/
def World.requestActors (w : World) (c : Collected) (fails : Path → List Update → Bool) : World :=
  let request (path : Path) (batches : List Updates) (w : World) : World :=
    if batches.isEmpty then w else w.requestActor path batches (fails path)
  request .withDate c.withDate (request .withSeq c.withSeq (request .withQts c.withQts
    (request .withPts c.withPts w)))

/-- What can happen to the service and the actors.  `actor` is any event of the
actors; batches that are handed over directly are among them. -/
inductive ServiceEvent where
  | processMessages (messages : List IncomingMessage) (clientUserId : Nat)
      (fails : Path → List Update → Bool)
  | addUpdates (body : Body) (fails : Path → List Update → Bool)
  | actor (event : Event)

def serviceStep (w : World) : ServiceEvent → World
  | .processMessages messages clientUserId fails =>
    let w' := { w with nextObject := (stampMessages w.nextObject messages).2 }
    let w' :=
      if messages.any (·.body = .updatesTooLong) && clientUserId != 0 then
        w'.stateUpdateRequired
      else w'
    World.requestActors w' (collectMessages (received w messages)) fails
  | .addUpdates body fails =>
    let messages := received w [{ body }]
    let w' := { w with nextObject := (stampMessages w.nextObject [{ body }]).2 }
    World.requestActors w' (messages.foldl (fun c m => c.append m.collectAdded) {}) fails
  | .actor event => step w event

/-- Each update of an event's messages is placed exactly once. -/
def StepPlacesOnce (w : World) : ServiceEvent → Prop
  | .processMessages messages _ _ =>
    PlacedOnce (collectMessages (received w messages)) (containedUpdates (received w messages))
  | .addUpdates body _ => ∀ m ∈ received w [{ body }], PlacedOnce m.collectAdded m.contained
  | .actor _ => True

/-- No copy of an update that waits and leaves the `pts` where it is. -/
def CopiesSafe (w : World) (batches : List Updates) : Prop :=
  ((standing (((w.registered .withPts).map carried).getD [] ++
    collected batches)).map Update.fields).Nodup

/-- The condition on a step: no update with a `pts` in `updates` or
`updatesCombined`, no short form in `addUpdates:`, and what the actors need. -/
def RoutingSafe (w : World) : ServiceEvent → Prop
  | .processMessages messages _ _ =>
    (∀ m ∈ received w messages, m.RoutesOnce) ∧
      CopiesSafe w (collectMessages (received w messages)).withPts
  | .addUpdates body _ => ∀ m ∈ received w [{ body }], m.AddsOnce
  | .actor event => PtsSafe w event

theorem stamp_contained (m : IncomingMessage) (next : Nat) :
    (IncomingMessage.contained { object := next, body := m.body.stamp (next + 1) }).map
      Update.object = List.range' (next + 1) m.contained.length := by
  unfold IncomingMessage.contained
  cases m.body with
  | updates updates date seq => exact stampUpdates_objects _ _
  | updatesCombined updates date start seq => exact stampUpdates_objects _ _
  | updateShort update date => rfl
  | modernUpdateShortChatMessage content pts ptsCount => rfl
  | modernUpdateShortMessage content pts ptsCount => rfl
  | updatesTooLong => rfl

/-- Received messages are made of new objects. -/
theorem stampMessages_objects (messages : List IncomingMessage) :
    ∀ next, next ≤ (stampMessages next messages).2 ∧
      ((containedUpdates (stampMessages next messages).1).map Update.object).Nodup ∧
      ∀ u ∈ containedUpdates (stampMessages next messages).1,
        next ≤ u.object ∧ u.object < (stampMessages next messages).2 := by
  induction messages with
  | nil =>
    intro next
    exact ⟨le_refl _, List.nodup_nil, fun u hu => (List.not_mem_nil hu).elim⟩
  | cons m messages ih =>
    intro next
    obtain ⟨hle, hnodup, hrange⟩ := ih (next + 1 + m.contained.length)
    have hcontained : containedUpdates (stampMessages next (m :: messages)).1 =
        IncomingMessage.contained { object := next, body := m.body.stamp (next + 1) } ++
          containedUpdates (stampMessages (next + 1 + m.contained.length) messages).1 := rfl
    have hafter : (stampMessages next (m :: messages)).2 =
        (stampMessages (next + 1 + m.contained.length) messages).2 := rfl
    have hown : ∀ u ∈ IncomingMessage.contained
        { object := next, body := m.body.stamp (next + 1) },
        next + 1 ≤ u.object ∧ u.object < next + 1 + m.contained.length := by
      intro u hu
      have hmem := List.mem_map_of_mem (f := Update.object) hu
      rw [stamp_contained] at hmem
      exact List.mem_range'_1.1 hmem
    refine ⟨by omega, ?_, ?_⟩
    · grind [stamp_contained]
    · grind

section Runs

variable {p0 : Int} {w : World}

/-- The lists keep the updates with a `pts` apart from the others. -/
structure Collected.Apart (c : Collected) : Prop where
  withPts : ∀ u ∈ collected c.withPts, u.hasPts = true
  withQts : ∀ u ∈ collected c.withQts, u.hasPts = false
  withSeq : ∀ u ∈ collected c.withSeq, u.hasPts = false
  withDate : ∀ u ∈ collected c.withDate, u.hasPts = false

theorem apart_empty : Collected.Apart {} :=
  ⟨fun _ hu => (List.not_mem_nil hu).elim, fun _ hu => (List.not_mem_nil hu).elim,
    fun _ hu => (List.not_mem_nil hu).elim, fun _ hu => (List.not_mem_nil hu).elim⟩

theorem Collected.Apart.append {c d : Collected} (hc : c.Apart) (hd : d.Apart) :
    (c.append d).Apart := by
  have hboth : ∀ {b : Bool} {xs ys : List Updates}, (∀ u ∈ collected xs, u.hasPts = b) →
      (∀ u ∈ collected ys, u.hasPts = b) → ∀ u ∈ collected (xs ++ ys), u.hasPts = b := by
    intro b xs ys hxs hys u hu
    rw [collected_append] at hu
    rcases List.mem_append.1 hu with hu | hu
    · exact hxs u hu
    · exact hys u hu
  exact ⟨hboth hc.withPts hd.withPts, hboth hc.withQts hd.withQts, hboth hc.withSeq hd.withSeq,
    hboth hc.withDate hd.withDate⟩

theorem apart_collectContained {object : Nat} {updates : List Update}
    (h : ∀ u ∈ updates, u.hasPts = false) :
    (collectContained object updates date start seqEnd).Apart := by
  have hother : ∀ {p : Update → Bool}, ∀ u ∈ updates.filter p, u.hasPts = false :=
    fun u hu => h u (List.mem_of_mem_filter hu)
  unfold collectContained
  refine ⟨?_, ?_, ?_, ?_⟩
  · intro u hu
    rw [collected_batchOf] at hu
    exact (List.mem_filter.1 hu).2
  · rw [collected_batchOf]
    exact hother
  · dsimp only
    split
    · simpa [collected] using fun u hu _ => h u hu
    · exact fun u hu => (List.not_mem_nil hu).elim
  · dsimp only
    split
    · exact fun u hu => (List.not_mem_nil hu).elim
    · simpa [collected] using fun u hu _ => h u hu

theorem IncomingMessage.RoutesOnce.apart (h : m.RoutesOnce) :
    m.collect.Apart := by
  unfold IncomingMessage.RoutesOnce at h
  unfold IncomingMessage.collect
  cases hbody : m.body with
  | updates updates date seq => rw [hbody] at h; exact apart_collectContained h
  | updatesCombined updates date start seq => rw [hbody] at h; exact apart_collectContained h
  | updateShort update date =>
    dsimp only
    split
    · rename_i hpts
      exact { apart_empty with withPts := by simpa [collected_batchOf] using hpts }
    · rename_i hpts
      have hnone : update.hasPts = false := by simpa using hpts
      split
      · exact { apart_empty with withQts := by simpa [collected_batchOf] using hnone }
      · exact { apart_empty with withDate := by simpa [collected] using hnone }
  | modernUpdateShortChatMessage content pts ptsCount =>
    exact { apart_empty with withPts := by simp [collected_batchOf, synthesized, Update.hasPts] }
  | modernUpdateShortMessage content pts ptsCount =>
    exact { apart_empty with withPts := by simp [collected_batchOf, synthesized, Update.hasPts] }
  | updatesTooLong => exact apart_empty

theorem apart_foldl {f : IncomingMessage → Collected} :
    ∀ (messages : List IncomingMessage) (c : Collected), c.Apart →
      (∀ m ∈ messages, (f m).Apart) → (messages.foldl (fun c m => c.append (f m)) c).Apart := by
  intro messages
  induction messages with
  | nil => intro c hc _; exact hc
  | cons m messages ih =>
    intro c hc h
    exact ih _ (hc.append (h m (.head _))) fun m' hm' =>
      h m' (.tail _ hm')

theorem withPts_collectMessages (messages : List IncomingMessage) :
    (collectMessages messages).withPts = messages.flatMap (·.collect.withPts) := by
  have hfold : ∀ (messages : List IncomingMessage) (c : Collected),
      (messages.foldl (fun c m => c.append m.collect) c).withPts =
        c.withPts ++ messages.flatMap (·.collect.withPts) := by
    intro messages
    induction messages with
    | nil => intro c; exact (List.append_nil _).symm
    | cons m messages ih =>
      intro c
      rw [List.foldl_cons, ih, List.flatMap_cons, ← List.append_assoc]
      rfl
  exact hfold messages {}

theorem IncomingMessage.withPts_sublist (m : IncomingMessage) :
    (collected m.collect.withPts).Sublist m.contained := by
  unfold IncomingMessage.collect IncomingMessage.contained
  cases m.body with
  | updates updates date seq =>
    dsimp only [collectContained]
    rw [collected_batchOf]
    exact List.filter_sublist
  | updatesCombined updates date start seq =>
    dsimp only [collectContained]
    rw [collected_batchOf]
    exact List.filter_sublist
  | updateShort update date =>
    dsimp only
    split
    · rw [collected_batchOf]
    · split <;> exact List.nil_sublist _
  | modernUpdateShortChatMessage content pts ptsCount => dsimp only; rw [collected_batchOf]
  | modernUpdateShortMessage content pts ptsCount => dsimp only; rw [collected_batchOf]
  | updatesTooLong => exact List.Sublist.refl _

theorem collected_withPts_sublist (messages : List IncomingMessage) :
    (collected (collectMessages messages).withPts).Sublist (containedUpdates messages) := by
  rw [withPts_collectMessages]
  unfold collected containedUpdates
  rw [List.flatMap_assoc]
  exact List.Sublist.flatMap_right messages fun m _ => m.withPts_sublist

theorem PtsInv.requestActors (h : PtsInv p0 w) {c : Collected} {after : Nat}
    (hstamped : Stamped w.nextObject c.withPts c.withPts after) (hapart : c.Apart)
    (hcopies : CopiesSafe w c.withPts) (fails : Path → List Update → Bool) :
    PtsInv p0 (World.requestActors { w with nextObject := after } c fails) := by
  have hnoPts : ∀ {w : World} {path : Path} {batches : List Updates}, PtsInv p0 w →
      path ≠ .withPts → (∀ u ∈ collected batches, u.hasPts = false) →
      PtsInv p0 (if batches.isEmpty then w else w.requestActor path batches (fails path)) := by
    intro w path batches hw hpath hnone
    split
    · exact hw
    · exact hw.requestActor_noPts hpath hnone _
  unfold World.requestActors
  dsimp only
  apply hnoPts _ (by decide) hapart.withDate
  apply hnoPts _ (by decide) hapart.withSeq
  apply hnoPts _ (by decide) hapart.withQts
  split
  · exact h.nextObject hstamped.le
  · apply h.requestActor hstamped
    exact ⟨fun u hu => ⟨fun _ => rfl, fun _ => hapart.withPts u hu⟩, fun _ => hcopies⟩

theorem received_nodup (w : World) (messages : List IncomingMessage) :
    (containedUpdates (received w messages)).Nodup :=
  List.Nodup.of_map _ (stampMessages_objects messages w.nextObject).2.1

theorem received_contained_nodup (w : World) {body : Body}
    (hm : m ∈ received w [{ body }]) : m.contained.Nodup :=
  (received_nodup w [{ body }]).sublist
    (List.sublist_flatten_of_mem (List.mem_map_of_mem hm))

theorem stamped_collectMessages (w : World) (messages : List IncomingMessage) :
    Stamped w.nextObject (collectMessages (received w messages)).withPts
      (collectMessages (received w messages)).withPts
      (stampMessages w.nextObject messages).2 := by
  obtain ⟨hle, hnodup, hrange⟩ := stampMessages_objects messages w.nextObject
  have hsub := collected_withPts_sublist (received w messages)
  exact ⟨hle, hnodup.sublist (hsub.map _), fun u hu => hrange u (hsub.subset hu), rfl⟩

/-- The condition places every update exactly once. -/
theorem RoutingSafe.placesOnce {e : ServiceEvent} (h : RoutingSafe w e) : StepPlacesOnce w e := by
  cases e with
  | processMessages messages clientUserId fails =>
    exact (placedOnce_collectMessages_iff (received_nodup w messages)).2 h.1
  | addUpdates body fails =>
    intro m hm
    exact (m.placedOnce_added_iff (received_contained_nodup w hm)).2 (h m hm)
  | actor event => trivial

/-- What waits brings no copies by itself. -/
theorem copiesSafe_nil (h : PtsInv p0 w) : CopiesSafe w [] := by
  unfold CopiesSafe
  cases hreg : w.registered .withPts with
  | none => exact List.nodup_nil
  | some actor =>
    have hactor : PtsActor _ _ _ _ _ := h.registered .withPts actor hreg
    change ((standing (carried actor ++ [])).map Update.fields).Nodup
    rw [List.append_nil]
    exact hactor.pool.copies

/-- The lists of an answer without updates that have a `pts`. -/
theorem IncomingMessage.AddsOnce.collectAdded (h : m.AddsOnce) :
    m.collectAdded.Apart ∧ m.collectAdded.withPts = [] := by
  have hcontained : ∀ {updates : List Update} {date start seqEnd : Int},
      (∀ u ∈ updates, u.hasPts = false) →
      (collectContained m.object updates date start seqEnd).Apart ∧
        (collectContained m.object updates date start seqEnd).withPts = [] := by
    intro updates date start seqEnd hnone
    refine ⟨apart_collectContained hnone, ?_⟩
    have hnil : updates.filter (·.hasPts) = [] := by
      simp_all
    unfold collectContained
    rw [hnil]
    rfl
  unfold IncomingMessage.AddsOnce at h
  unfold IncomingMessage.collectAdded
  cases hbody : m.body with
  | updates updates date seq => rw [hbody] at h; exact hcontained h
  | updatesCombined updates date start seq => rw [hbody] at h; exact hcontained h
  | updateShort update date => exact hcontained fun u hu => (List.not_mem_nil hu).elim
  | modernUpdateShortChatMessage content pts ptsCount =>
    exact hcontained fun u hu => (List.not_mem_nil hu).elim
  | modernUpdateShortMessage content pts ptsCount =>
    exact hcontained fun u hu => (List.not_mem_nil hu).elim
  | updatesTooLong => exact hcontained fun u hu => (List.not_mem_nil hu).elim

theorem serviceStep_ptsInv (w : World) (e : ServiceEvent) (hsafe : RoutingSafe w e)
    (h : PtsInv p0 w) : PtsInv p0 (serviceStep w e) := by
  cases e with
  | processMessages messages clientUserId fails =>
    have hstamped := stamped_collectMessages w messages
    have hapart : (collectMessages (received w messages)).Apart :=
      apart_foldl _ _ apart_empty fun m hm => (hsafe.1 m hm).apart
    unfold serviceStep
    dsimp only
    split
    · exact PtsInv.requestActors h.stateUpdateRequired hstamped hapart hsafe.2 fails
    · exact PtsInv.requestActors h hstamped hapart hsafe.2 fails
  | addUpdates body fails =>
    obtain ⟨m, hm⟩ : ∃ m, received w [{ body }] = [m] := ⟨_, rfl⟩
    obtain ⟨hapart, hnil⟩ := (hsafe m (hm ▸ List.mem_cons_self)).collectAdded
    have hpts : (Collected.append {} m.collectAdded).withPts = [] := hnil
    have hle := (stampMessages_objects [{ body }] w.nextObject).1
    unfold serviceStep
    dsimp only
    rw [hm]
    apply PtsInv.requestActors h _ (apart_empty.append hapart)
    · rw [hpts]
      exact copiesSafe_nil h
    · rw [hpts]
      exact ⟨hle, List.nodup_nil, fun u hu => (List.not_mem_nil hu).elim, rfl⟩
  | actor event => exact step_ptsInv w event hsafe h

end Runs

/-- The exact condition for an update to be in one list, and what follows for
runs: as long as every step meets the condition, every update is placed once and
the updates with a `pts` form a chain. -/
theorem routing_condition (messages : List IncomingMessage) (m : IncomingMessage)
    (db : DatabaseState) (es : List ServiceEvent) :
    ((containedUpdates messages).Nodup →
      (PlacedOnce (collectMessages messages) (containedUpdates messages) ↔
        ∀ m ∈ messages, m.RoutesOnce)) ∧
    (m.contained.Nodup → (PlacedOnce m.collectAdded m.contained ↔ m.AddsOnce)) ∧
    (0 ≤ db.pts → Guarded serviceStep RoutingSafe { db } es →
      Guarded serviceStep StepPlacesOnce { db } es ∧
        PtsHistory db.pts (run serviceStep { db } es)) := by
  refine ⟨placedOnce_collectMessages_iff, m.placedOnce_added_iff, ?_⟩
  intro hdb hes
  refine ⟨?_, ?_⟩
  · have hstep : ∀ (w : World) (e : ServiceEvent), True → RoutingSafe w e →
        StepPlacesOnce w e ∧ True := fun w e _ h => ⟨h.placesOnce, trivial⟩
    exact guarded_mono hstep es _ trivial hes
  · exact (guarded_invariant serviceStep_ptsInv es _ hes (ptsInv_initial db hdb)).history

/-- A message with `seq` 6 and an update whose `pts` is 12. -/
def gapMessage : IncomingMessage :=
  { body := .updates [{ object := 0, ptsFields := some (12, 1) }] 0 6 }

/-- The message arrives with 5 and 10 stored; the actor `withSeq` executes. -/
def gapMessageRun : List ServiceEvent :=
  [.processMessages [gapMessage] 1 fun _ _ => false, .actor (.execute .withSeq fun _ => false),
    .actor (.applyCompleted .withSeq fun _ => false)]

/-- The update is in two lists, and the stored `pts` moves over the missing 11. -/
theorem gapMessageRun_loses_update :
    ¬Guarded serviceStep StepPlacesOnce { db := { pts := 10, seq := 5 } } gapMessageRun ∧
      ¬PtsHistory 10 (run serviceStep { db := { pts := 10, seq := 5 } } gapMessageRun) ∧
      (run serviceStep { db := { pts := 10, seq := 5 } } gapMessageRun).db.pts = 12 := by
  refine ⟨?_, ?_, by decide +kernel⟩
  · rintro ⟨hplaced, -⟩
    have hcount := hplaced ⟨1, 0, some (12, 1), none⟩ (by decide +kernel)
    revert hcount
    decide +kernel
  · intro h
    have hlog : (run serviceStep { db := { pts := 10, seq := 5 } } gapMessageRun).log =
        [.applied .withSeq ⟨1, 0, some (12, 1), none⟩] := by
      decide +kernel
    have hchained := h.chained
    rw [hlog] at hchained
    have hfirst := hchained.1 rfl
    revert hfirst
    decide +kernel

/-- The update alone, in an `updateShort`, waits for the missing one. -/
theorem updateShort_waits :
    PtsHistory 10 (run serviceStep { db := { pts := 10, seq := 5 } }
      [.processMessages [{ body := .updateShort { object := 0, ptsFields := some (12, 1) } 0 }] 1
        fun _ _ => false,
        .actor (.execute .withPts fun _ => false)]) := by
  refine ((routing_condition [] { body := .updatesTooLong } { pts := 10, seq := 5 } _).2.2
    (by decide) ?_).2
  refine ⟨⟨?_, ?_⟩, trivial, trivial⟩
  · intro m hm
    cases List.mem_singleton.1 hm
    trivial
  · unfold CopiesSafe
    decide +kernel

end TelegramPub.Ports.UpdateRouting
