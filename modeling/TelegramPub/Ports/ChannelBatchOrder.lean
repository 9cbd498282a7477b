import TelegramPub.Ports.ChannelBatches

/-!
# TGManagedChannelState: the order of a batch

For a web page on the right, the comparator compares the left side with itself.  So it puts
nothing before a web page, and no arrangement of a chain is ascending if the web page has to
come after another update.  Of such a batch nothing is promised: the sort may leave an
update behind those that continue it, and these are then gaps.
-/

namespace TelegramPub.Ports.ChannelState

open Verified.ComparatorSort Verified.GroupedWrites

variable {δ : Type}

/-- No web page comes after another update. -/
def WebPageFirst (chain : List (PtsUpdate δ)) : Prop :=
  ∀ update ∈ chain.tail, update.isWebPage = false

theorem comparator_eq_lt {a b : PtsUpdate δ} :
    comparator a b = .lt ↔ b.isWebPage = false ∧ a.pts < b.pts := by
  unfold comparator
  cases h : b.isWebPage <;> by_cases hlt : a.pts < b.pts <;> simp [hlt]

theorem comparator_ne_lt {a b : PtsUpdate δ} : comparator a b ≠ .lt ↔ comparator a b = .gt := by
  unfold comparator
  split <;> simp

theorem comparator_gt_of_lt {a b : PtsUpdate δ} (h : a.pts < b.pts) : comparator b a = .gt := by
  rw [← comparator_ne_lt, Ne, comparator_eq_lt]
  rintro ⟨_, hba⟩
  have hnot := Int32.not_lt.2 (Int32.le_of_lt h)
  exact hnot hba

variable {reached : Int32} {chain rest : List (PtsUpdate δ)}

theorem GapFree.ascending (h : GapFree reached chain) (hweb : WebPageFirst chain)
    : Ascending comparator chain := by
  have hpair : ∀ {list : List (PtsUpdate δ)}, (∀ u ∈ list, u.isWebPage = false) →
      list.Pairwise (fun a b => a.pts < b.pts) → Ascending comparator list := by
    intro list hnone hlt
    refine hlt.imp_of_mem fun {a b} _ hb hab => ?_
    exact ⟨comparator_eq_lt.2 ⟨hnone b hb, hab⟩, comparator_gt_of_lt hab⟩
  cases chain with
  | nil => exact List.Pairwise.nil
  | cons first rest =>
    obtain ⟨hfirst, hrest⟩ := List.pairwise_cons.1 h.pairwise
    refine List.Pairwise.cons (fun u hu => ?_) (hpair hweb hrest)
    exact ⟨comparator_eq_lt.2 ⟨hweb u hu, hfirst u hu⟩, comparator_gt_of_lt (hfirst u hu)⟩

/-! ## A web page that is not the first -/

variable {first : PtsUpdate δ}

theorem not_ascending_of_webPage {web : PtsUpdate δ} {l' : List (PtsUpdate δ)}
    (h : GapFree reached (first :: rest)) (hweb : web ∈ rest) (hpage : web.isWebPage = true)
    (hperm : l'.Perm (rest ++ [first])) :
    ¬ Ascending comparator l' := by
  have hlt := h.2.2.above web hweb
  refine not_ascending_of_mem hperm (List.mem_append_right _ (List.mem_singleton_self first))
    (List.mem_append_left _ hweb) ?_ ?_ ?_
  · rintro rfl
    exact Int32.lt_irrefl hlt
  · rw [Ne, comparator_eq_lt, hpage]
    simp
  · rw [comparator_ne_lt]
    exact comparator_gt_of_lt hlt

variable {stored : Messages δ} {skip : List Int}

/-- A walk over gaps goes nowhere. -/
theorem Walk.run_gaps {list : List (PtsUpdate δ)} : ∀ {w : Walk δ},
    (∀ u ∈ list, w.updatedPts < u.pts ∧ w.updatedPts + u.ptsCount ≠ u.pts) →
    (w.run stored skip list).updatedPts = w.updatedPts := by
  induction list with
  | nil => exact fun _ => rfl
  | cons u rest ih =>
    intro w h
    obtain ⟨habove, hgap⟩ := h u (.head _)
    have hvisit : w.visit stored skip u = { w with failed := true } := by
      unfold Walk.visit
      rw [if_neg (Int32.not_le.2 habove), if_neg hgap]
    rw [Walk.run_cons, hvisit]
    exact ih fun v hv => h v (.tail _ hv)

/-- The first update of a chain at the end: the walk stops behind it. -/
theorem GapFree.run_rotated (h : GapFree reached (first :: rest)) {w : Walk δ}
    (hw : w.updatedPts = reached) :
    (w.run stored skip (rest ++ [first])).updatedPts = first.pts := by
  have hgaps : (w.run stored skip rest).updatedPts = reached := by
    rw [← hw]
    apply Walk.run_gaps
    intro u hu
    rw [hw]
    refine ⟨Int32.lt_of_le_of_lt (Int32.le_of_lt h.lt) (h.2.2.above u hu), fun heq => ?_⟩
    obtain ⟨start, hstart, hle⟩ := h.2.2.start_le u hu
    have hsame : start = reached := by
      rw [Int32.eq_sub_iff_add_eq.2 hstart, Int32.eq_sub_iff_add_eq.2 heq]
    rw [hsame] at hle
    exact Int32.not_le.2 h.lt hle
  have hsplit : w.run stored skip (rest ++ [first]) =
      (w.run stored skip rest).visit stored skip first := by
    simp [Walk.run]
  rw [hsplit]
  unfold Walk.visit
  rw [hgaps, if_neg (Int32.not_le.2 h.lt), if_pos h.continues, Walk.collect_updatedPts]

theorem batch_rotated_pts (client : Client δ) (channel : Channel δ) {web : PtsUpdate δ}
    (h : GapFree channel.pts (first :: rest)) (hweb : web ∈ rest) (hpage : web.isWebPage = true) :
    (batch (Sorter.leaving comparator) client channel (rest ++ [first])).pts = first.pts := by
  have hsort : (Sorter.leaving comparator).sort (rest ++ [first]) = rest ++ [first] :=
    arrange_of_none fun l' hperm => not_ascending_of_webPage h hweb hpage hperm
  have hchain := applyUpdates_appliesChain (Sorter.leaving comparator) client channel
    ((rest ++ [first]).map Update.pts)
  rw [batch, hchain.written, ← hchain.follows.reached]
  unfold walk
  rw [scan_pts]
  rw [hsort]
  exact h.run_rotated rfl

/-- A client that sends nothing, and downloads nothing. -/
def idleClient : Client δ where
  randomIds := []
  downloadMessages := fun _ => []

theorem BatchEqualsOneByOne.webPageFirst {channel : Channel δ} (hchain : GapFree channel.pts chain)
    (h : BatchEqualsOneByOne channel chain) :
    WebPageFirst chain := by
  cases chain with
  | nil => exact fun u hu => by cases hu
  | cons first rest =>
    intro web hweb
    by_contra hpage
    rw [Bool.not_eq_false] at hpage
    have hpts := (h (Sorter.leaving comparator) idleClient (fun _ => idleClient)
      (rest ++ [first]) (List.perm_append_singleton first rest)).2
    rw [batch_rotated_pts idleClient channel hchain hweb hpage,
      (oneAfterAnother_spec _ _ 0 _ channel hchain).2, endPts_cons] at hpts
    have hlt := hchain.2.2.lt_endPts (List.ne_nil_of_mem hweb)
    rw [← hpts] at hlt
    exact Int32.lt_irrefl hlt

/-- In a batch that can be sorted, every message is written in groups. -/
theorem batch_ordered (sorter : Sorter (comparator (δ := δ))) (client : Client δ)
    {channel : Channel δ} {order : List (PtsUpdate δ)} (hchain : GapFree channel.pts chain)
    (hweb : WebPageFirst chain) (hperm : order.Perm chain) :
    (∀ mid, ((batch sorter client channel order).messages mid).map Message.withoutCopy =
      grouped ((channel.messages mid).map Message.withoutCopy) (writesTo mid chain)) ∧
      (batch sorter client channel order).pts = endPts channel.pts chain := by
  have hsort := sorter.sort_eq hperm.symm (hchain.ascending hweb)
  exact ⟨fun mid => batch_at client hsort hchain mid, batch_pts client hsort hchain⟩

/-- A batch leaves what its updates leave one by one exactly if no web page comes after
another update, and no message is written in an order that the grouping disturbs. -/
theorem batchEqualsOneByOne_iff (channel : Channel δ) (chain : List (PtsUpdate δ))
    (hchain : GapFree channel.pts chain) :
    BatchEqualsOneByOne channel chain ↔
      WebPageFirst chain ∧
        ∀ mid, Settled (channel.messages mid).isSome (writesTo mid chain) := by
  have hpresent (mid : Int) : ((channel.messages mid).map Message.withoutCopy).isSome =
      (channel.messages mid).isSome := Option.isSome_map
  constructor
  · intro h
    have hweb := h.webPageFirst hchain
    refine ⟨hweb, fun mid => ?_⟩
    obtain ⟨hmessages, _⟩ := batch_ordered (Sorter.leaving comparator) idleClient hchain hweb
      (List.Perm.refl chain)
    have hsame := (h (Sorter.leaving comparator) idleClient (fun _ => idleClient) chain
      (List.Perm.refl chain)).1 mid
    rw [hmessages mid, (oneAfterAnother_spec _ _ mid chain channel hchain).1,
      grouped_eq_iff (hchain.distinct mid), hpresent] at hsame
    exact hsame
  · rintro ⟨hweb, hsettled⟩ sorter client clients order hperm
    obtain ⟨hmessages, hpts⟩ := batch_ordered sorter client hchain hweb hperm
    refine ⟨fun mid => ?_, ?_⟩
    · rw [hmessages mid, (oneAfterAnother_spec sorter clients mid chain channel hchain).1,
        grouped_eq_iff (hchain.distinct mid), hpresent]
      exact hsettled mid
    · rw [hpts, (oneAfterAnother_spec sorter clients 0 chain channel hchain).2]

/-- A channel at `pts` 1 without messages. -/
def emptyChannel : Channel Unit where
  pts := 1
  persistent := true
  minAvailableMessageId := 0
  messages := fun _ => none
  pts_nonneg := by decide

/-- A message that is added and then deleted. -/
def addedAndDeleted : List (PtsUpdate Unit) :=
  [.newChannelMessage { mid := 7, content := () } 2 1, .deleteChannelMessages [7] 3 1]

theorem gapFree_addedAndDeleted : GapFree emptyChannel.pts addedAndDeleted := by
  unfold addedAndDeleted emptyChannel
  simp [GapFree, PtsUpdate.pts, PtsUpdate.ptsCount]

/-- A batch that adds a message and deletes it. -/
theorem batchEqualsOneByOne_addedAndDeleted : GapFree emptyChannel.pts addedAndDeleted ∧
    (BatchEqualsOneByOne emptyChannel addedAndDeleted ↔
      WebPageFirst addedAndDeleted ∧ ∀ mid, Settled (emptyChannel.messages mid).isSome
        (writesTo mid addedAndDeleted)) :=
  ⟨gapFree_addedAndDeleted,
    batchEqualsOneByOne_iff emptyChannel addedAndDeleted gapFree_addedAndDeleted⟩

/-- In one batch, the deletion is written before the message that it is for. -/
theorem added_and_deleted_stays : GapFree emptyChannel.pts addedAndDeleted ∧
    ∀ sorter client clients, ¬ SameMessages
      (batch sorter client emptyChannel addedAndDeleted).messages
      (oneAfterAnother sorter clients emptyChannel addedAndDeleted).messages := by
  refine ⟨gapFree_addedAndDeleted, fun sorter client clients h => ?_⟩
  have hsame := h 7
  have hweb : WebPageFirst addedAndDeleted := by
    simp [WebPageFirst, addedAndDeleted, PtsUpdate.isWebPage]
  rw [(batch_ordered sorter client gapFree_addedAndDeleted hweb (List.Perm.refl _)).1 7,
    (oneAfterAnother_spec _ _ 7 addedAndDeleted emptyChannel gapFree_addedAndDeleted).1] at hsame
  simp [grouped, oneByOne, writesTo, addedAndDeleted, emptyChannel, PtsUpdate.writes, lastAdded,
    Write.apply] at hsame

end TelegramPub.Ports.ChannelState
