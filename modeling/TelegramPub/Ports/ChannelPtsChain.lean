import TelegramPub.Ports.ChannelState

/-!
# TGManagedChannelState: the chain of `pts`

Whatever order the sort leaves the updates in, the walk takes only what continues the `pts`
reached.  So the applied updates are a chain from the stored `pts`; both paths write its
end; and an update above the end that has not been applied has been a gap when the walk
came to it.
-/

namespace TelegramPub.Ports.ChannelState

open Verified.ComparatorSort

variable {δ : Type}

/-- Every update starts at the `pts` that the one before it reaches. -/
def ContinuesFrom : Int32 → List (PtsUpdate δ) → Prop
  | _, [] => True
  | reached, update :: rest =>
    update.pts - update.ptsCount = reached ∧ ContinuesFrom update.pts rest

/-- The `pts` that a chain reaches. -/
def endPts (pts : Int32) (updates : List (PtsUpdate δ)) : Int32 :=
  updates.foldl (fun _ update => update.pts) pts

@[simp] theorem endPts_nil (pts : Int32) : endPts pts ([] : List (PtsUpdate δ)) = pts := rfl

@[simp] theorem endPts_cons (pts : Int32) (u : PtsUpdate δ) (rest : List (PtsUpdate δ)) :
    endPts pts (u :: rest) = endPts u.pts rest := rfl

@[simp] theorem endPts_concat (pts : Int32) (updates : List (PtsUpdate δ)) (u : PtsUpdate δ) :
    endPts pts (updates ++ [u]) = u.pts := by
  simp [endPts]

theorem continuesFrom_concat {u : PtsUpdate δ} : ∀ {pts : Int32} {updates : List (PtsUpdate δ)},
    ContinuesFrom pts (updates ++ [u]) ↔
      ContinuesFrom pts updates ∧ u.pts - u.ptsCount = endPts pts updates := by
  intro pts updates
  induction updates generalizing pts with
  | nil => simp [ContinuesFrom]
  | cons first rest ih => simp [ContinuesFrom, ih, and_assoc]

section Walk

variable (stored : Messages δ) (skip : List Int)

def PtsUpdate.newMessages : PtsUpdate δ → List (Message δ)
  | .newChannelMessage message pts _ => accepted stored skip message pts
  | _ => []

def PtsUpdate.editedMessages : PtsUpdate δ → List (Message δ)
  | .editChannelMessage message pts _ => accepted stored skip message pts
  | _ => []

def PtsUpdate.deletedIds : PtsUpdate δ → List Int
  | .deleteChannelMessages messages _ _ => messages
  | _ => []

/-- The walk has taken `applied` from `pts`, and nothing else. -/
structure Walk.Follows (pts : Int32) (w : Walk δ) : Prop where
  continues : ContinuesFrom pts w.applied
  reached : w.updatedPts = endPts pts w.applied
  le : pts ≤ w.updatedPts
  addedMessages : w.addedMessages = w.applied.flatMap (PtsUpdate.newMessages stored skip)
  updatedMessages : w.updatedMessages = w.applied.flatMap (PtsUpdate.editedMessages stored skip)
  deletedMessageIds : w.deletedMessageIds = w.applied.flatMap PtsUpdate.deletedIds

variable {stored skip} {pts : Int32} {w : Walk δ}

@[simp] theorem Walk.collect_updatedPts (u : PtsUpdate δ) :
    (w.collect stored skip u).updatedPts = u.pts := by
  cases u <;> rfl

@[simp] theorem Walk.collect_failed (u : PtsUpdate δ) :
    (w.collect stored skip u).failed = w.failed := by
  cases u <;> rfl

@[simp] theorem Walk.collect_applied (u : PtsUpdate δ) :
    (w.collect stored skip u).applied = w.applied ++ [u] := by
  cases u <;> rfl

theorem Walk.Follows.collect (h : w.Follows stored skip pts) {u : PtsUpdate δ}
    (habove : w.updatedPts < u.pts) (hcontinues : w.updatedPts + u.ptsCount = u.pts) :
    (w.collect stored skip u).Follows stored skip pts where
  continues := by
    rw [Walk.collect_applied, continuesFrom_concat, ← h.reached]
    exact ⟨h.continues, (Int32.eq_sub_iff_add_eq.2 hcontinues).symm⟩
  reached := by simp
  le := by
    rw [Walk.collect_updatedPts]
    exact Int32.le_trans h.le (Int32.le_of_lt habove)
  addedMessages := by
    rw [Walk.collect_applied, List.flatMap_append, ← h.addedMessages]
    cases u <;> simp [Walk.collect, PtsUpdate.newMessages]
  updatedMessages := by
    rw [Walk.collect_applied, List.flatMap_append, ← h.updatedMessages]
    cases u <;> simp [Walk.collect, PtsUpdate.editedMessages]
  deletedMessageIds := by
    rw [Walk.collect_applied, List.flatMap_append, ← h.deletedMessageIds]
    cases u <;> simp [Walk.collect, PtsUpdate.deletedIds]

theorem Walk.run_cons (u : PtsUpdate δ) (rest : List (PtsUpdate δ)) :
    w.run stored skip (u :: rest) = (w.visit stored skip u).run stored skip rest := rfl

/-- What a round can do. -/
theorem Walk.visit_cases (u : PtsUpdate δ) :
    (u.pts ≤ w.updatedPts ∧ w.visit stored skip u = w) ∨
    (w.updatedPts < u.pts ∧ w.updatedPts + u.ptsCount = u.pts ∧
      w.visit stored skip u = w.collect stored skip u) ∨
    (w.updatedPts < u.pts ∧ w.updatedPts + u.ptsCount ≠ u.pts ∧
      w.visit stored skip u = { w with failed := true }) := by
  unfold Walk.visit
  by_cases hstale : u.pts ≤ w.updatedPts
  · simp [hstale]
  · grind

theorem Walk.Follows.visit (h : w.Follows stored skip pts) (u : PtsUpdate δ) :
    (w.visit stored skip u).Follows stored skip pts := by
  rcases w.visit_cases u with ⟨_, heq⟩ | ⟨habove, hcontinues, heq⟩ | ⟨_, _, heq⟩
  · rwa [heq]
  · rw [heq]
    exact h.collect habove hcontinues
  · rw [heq]
    exact ⟨h.continues, h.reached, h.le, h.addedMessages, h.updatedMessages, h.deletedMessageIds⟩

theorem Walk.Follows.run (updates : List (PtsUpdate δ)) :
    ∀ {w : Walk δ}, w.Follows stored skip pts →
      (w.run stored skip updates).Follows stored skip pts := by
  induction updates with
  | nil => exact fun h => h
  | cons u rest ih => exact fun h => ih (h.visit u)

theorem Walk.follows_initial (pts : Int32) (failed : Bool) :
    ({ updatedPts := pts, failed } : Walk δ).Follows stored skip pts where
  continues := trivial
  reached := rfl
  le := Int32.le_refl pts
  addedMessages := rfl
  updatedMessages := rfl
  deletedMessageIds := rfl

theorem Walk.visit_mono (u : PtsUpdate δ) :
    w.updatedPts ≤ (w.visit stored skip u).updatedPts ∧
      (w.failed = true → (w.visit stored skip u).failed = true) := by
  rcases w.visit_cases u with ⟨_, heq⟩ | ⟨habove, _, heq⟩ | ⟨_, _, heq⟩
  · rw [heq]
    exact ⟨Int32.le_refl _, id⟩
  · rw [heq]
    simpa using Int32.le_of_lt habove
  · rw [heq]
    exact ⟨Int32.le_refl _, fun _ => rfl⟩

/-- A round leaves no gap behind unnoticed. -/
theorem Walk.visit_settles (u : PtsUpdate δ) :
    u.pts ≤ (w.visit stored skip u).updatedPts ∨ (w.visit stored skip u).failed = true := by
  rcases w.visit_cases u with ⟨hstale, heq⟩ | ⟨_, _, heq⟩ | ⟨_, _, heq⟩
  · rw [heq]
    exact .inl hstale
  · rw [heq, Walk.collect_updatedPts]
    exact .inl (Int32.le_refl _)
  · rw [heq]
    exact .inr rfl

variable (stored skip) in
theorem Walk.run_mono (updates : List (PtsUpdate δ)) : ∀ w : Walk δ,
    w.updatedPts ≤ (w.run stored skip updates).updatedPts ∧
      (w.failed = true → (w.run stored skip updates).failed = true) := by
  induction updates with
  | nil => exact fun w => ⟨Int32.le_refl _, id⟩
  | cons u rest ih =>
    intro w
    have hround : w.updatedPts ≤ (w.visit stored skip u).updatedPts ∧
        (w.failed = true → (w.visit stored skip u).failed = true) := Walk.visit_mono u
    have hrest := ih (w.visit stored skip u)
    exact ⟨Int32.le_trans hround.1 hrest.1, fun h => hrest.2 (hround.2 h)⟩

variable (stored skip) in
theorem Walk.run_settles (updates : List (PtsUpdate δ)) : ∀ w : Walk δ, ∀ u ∈ updates,
    u.pts ≤ (w.run stored skip updates).updatedPts ∨
      (w.run stored skip updates).failed = true := by
  induction updates with
  | nil => exact fun w u hu => by cases hu
  | cons first rest ih =>
    intro w u hu
    rcases List.mem_cons.1 hu with rfl | hu
    · have hrest := Walk.run_mono stored skip rest (w.visit stored skip u)
      rcases w.visit_settles u with hle | hfailed
      · exact .inl (Int32.le_trans hle hrest.1)
      · exact .inr (hrest.2 hfailed)
    · exact ih (w.visit stored skip first) u hu

variable (stored skip) in
/-- The applied updates are among those walked through, each copy once. -/
theorem Walk.run_applied (updates : List (PtsUpdate δ)) : ∀ w : Walk δ,
    ∃ taken, taken.Sublist updates ∧ (w.run stored skip updates).applied = w.applied ++ taken := by
  induction updates with
  | nil => exact fun w => ⟨[], List.Sublist.refl _, (List.append_nil _).symm⟩
  | cons u rest ih =>
    intro w
    obtain ⟨taken, htaken, heq⟩ := ih (w.visit stored skip u)
    rcases w.visit_cases u with ⟨_, hv⟩ | ⟨_, _, hv⟩ | ⟨_, _, hv⟩
    · exact ⟨taken, htaken.cons u, by rw [Walk.run_cons, heq, hv]⟩
    · refine ⟨u :: taken, htaken.cons_cons u, ?_⟩
      rw [Walk.run_cons, heq, hv]
      simp
    · exact ⟨taken, htaken.cons u, by rw [Walk.run_cons, heq, hv]⟩

end Walk

theorem Scan.visit_ptsUpdates (s : Scan δ) (update : Update δ) :
    (s.visit update).ptsUpdates =
      s.ptsUpdates ++ (match update with | .pts u => [u] | _ => []) := by
  cases update <;> simp [Scan.visit]

theorem mem_scan {updates : List (Update δ)} {u : PtsUpdate δ} :
    u ∈ (scan updates).ptsUpdates ↔ .pts u ∈ updates := by
  have hfold : ∀ (updates : List (Update δ)) (s : Scan δ),
      u ∈ (updates.foldl Scan.visit s).ptsUpdates ↔ u ∈ s.ptsUpdates ∨ .pts u ∈ updates := by
    intro updates
    induction updates with
    | nil => simp
    | cons first rest ih =>
      grind [Scan.visit_ptsUpdates]
  simpa [scan] using hfold updates {}

/-! ## Both paths write the end of the chain -/

theorem execute_pts (channel : Channel δ) (call : Call δ) (h : ∀ messages deletedMessages pts,
    call ≠ .addMessagesToChannelAndDispatch messages deletedMessages pts) :
    (channel.execute call).pts = channel.pts := by
  cases call with
  | addMessagesToChannelAndDispatch messages deletedMessages pts => exact absurd rfl (h _ _ _)
  | _ => rfl

theorem executeAll_append (channel : Channel δ) (first second : List (Call δ)) :
    channel.executeAll (first ++ second) = (channel.executeAll first).executeAll second :=
  List.foldl_append

theorem executeAll_pts {list : List (Call δ)} (h : ∀ call ∈ list, ∀ messages deletedMessages pts,
    call ≠ .addMessagesToChannelAndDispatch messages deletedMessages pts) :
    ∀ channel : Channel δ, (channel.executeAll list).pts = channel.pts := by
  induction list with
  | nil => exact fun _ => rfl
  | cons call rest ih =>
    intro channel
    have hrest := ih (fun c hc => h c (.tail _ hc)) (channel.execute call)
    rw [← execute_pts channel call (h call (.head _))]
    exact hrest

theorem executeAll_calls_pts (channel : Channel δ) (s : Scan δ) {w : Walk δ}
    (added updated : List (Message δ)) (h : channel.pts ≤ w.updatedPts) :
    (channel.executeAll (calls channel s w added updated)).pts = w.updatedPts := by
  unfold calls
  simp only [executeAll_append]
  rw [executeAll_pts (by split <;> simp), executeAll_pts (by split <;> simp),
    executeAll_pts (by split <;> simp), executeAll_pts (by split <;> simp),
    executeAll_pts (by split <;> simp)]
  by_cases heq : w.updatedPts = channel.pts
  · rw [if_neg (not_not.2 heq), executeAll_pts (by simp), executeAll_pts (by split <;> simp)]
    exact heq.symm
  · have habove : channel.pts < w.updatedPts := Int32.lt_of_le_of_ne h (Ne.symm heq)
    have hpos : 0 < w.updatedPts := Int32.lt_of_le_of_lt channel.pts_nonneg habove
    rw [if_pos heq]
    simp [Channel.executeAll, Channel.execute, hpos]

variable (sorter : Sorter (comparator (δ := δ))) (client : Client δ)

theorem applyUpdates_eq (channel : Channel δ) (updates : List (Update δ)) :
    ∃ added updated, applyUpdates sorter client channel updates =
      (calls channel (scan updates) (walk sorter client channel updates) added updated,
        (walk sorter client channel updates).failed) := by
  unfold applyUpdates
  dsimp only
  split
  · exact ⟨_, _, rfl⟩
  · exact ⟨_, _, rfl⟩

theorem walk_follows (channel : Channel δ) (updates : List (Update δ)) :
    (walk sorter client channel updates).Follows channel.messages
      (skipMessageIds client.randomIds updates) channel.pts :=
  (Walk.follows_initial channel.pts (scan updates).failed).run _

/-- What `applyUpdates:` does with the `pts`. -/
structure AppliesChain (channel : Channel δ) (updates : List (Update δ)) : Prop where
  /-- The applied updates are updates of the list, each as often at most. -/
  subperm : (walk sorter client channel updates).applied.Subperm (scan updates).ptsUpdates
  /-- They are what is written, and a chain from the stored `pts`. -/
  follows : (walk sorter client channel updates).Follows channel.messages
    (skipMessageIds client.randomIds updates) channel.pts
  /-- The `pts` of the channel becomes the end of the chain. -/
  written : (channel.executeAll (applyUpdates sorter client channel updates).1).pts =
    endPts channel.pts (walk sorter client channel updates).applied
  /-- An update above the end that has not been applied makes the signal fail. -/
  fails : ∀ u, .pts u ∈ updates →
    ¬ u.pts ≤ endPts channel.pts (walk sorter client channel updates).applied →
    u ∉ (walk sorter client channel updates).applied →
    (applyUpdates sorter client channel updates).2 = true

/-- What is applied is the chain from the stored `pts` on. -/
theorem applyUpdates_appliesChain (channel : Channel δ) (updates : List (Update δ)) :
    AppliesChain sorter client channel updates := by
  have hfollows := walk_follows sorter client channel updates
  obtain ⟨added, updated, heq⟩ := applyUpdates_eq sorter client channel updates
  refine ⟨?_, hfollows, ?_, ?_⟩
  · obtain ⟨taken, htaken, happlied⟩ := Walk.run_applied channel.messages
      (skipMessageIds client.randomIds updates) (sorter.sort (scan updates).ptsUpdates)
      { updatedPts := channel.pts, failed := (scan updates).failed }
    have hsubperm : taken.Subperm (scan updates).ptsUpdates :=
      htaken.subperm.trans (sorter.perm _).subperm
    rw [List.nil_append] at happlied
    show (walk sorter client channel updates).applied.Subperm _
    unfold walk
    rwa [happlied]
  · rw [heq, ← hfollows.reached]
    exact executeAll_calls_pts channel (scan updates) added updated hfollows.le
  · intro u hu habove _
    rw [heq]
    rw [← hfollows.reached] at habove
    have hmem : u ∈ sorter.sort (scan updates).ptsUpdates :=
      sorter.mem_sort.2 (mem_scan.2 hu)
    exact (Walk.run_settles _ _ _ _ u hmem).resolve_left habove

/-! ## Updates that come again -/

/-- A walk over updates that are all reached does nothing. -/
theorem Walk.run_of_reached {stored : Messages δ} {skip : List Int} {w : Walk δ} :
    ∀ {updates : List (PtsUpdate δ)}, (∀ u ∈ updates, u.pts ≤ w.updatedPts) →
      w.run stored skip updates = w
  | [], _ => rfl
  | u :: rest, h => by
    have hvisit : w.visit stored skip u = w := by
      rw [Walk.visit, if_pos (h u (.head _))]
    rw [Walk.run_cons, hvisit, Walk.run_of_reached fun v hv => h v (.tail u hv)]

/-- After a call that has not failed, `pts` updates of its list that come again, in any
order and number, are not applied, and the `pts` stays. -/
theorem applyUpdates_again (channel : Channel δ) (updates : List (Update δ))
    (hdone : (applyUpdates sorter client channel updates).2 = false) (client' : Client δ)
    (again : List (Update δ)) (hagain : ∀ u, .pts u ∈ again → .pts u ∈ updates) :
    let channel' := channel.executeAll (applyUpdates sorter client channel updates).1
    (walk sorter client' channel' again).applied = [] ∧
      (channel'.executeAll (applyUpdates sorter client' channel' again).1).pts = channel'.pts ∧
      (applyUpdates sorter client' channel' again).2 = (scan again).failed := by
  intro channel'
  obtain ⟨added, updated, heq⟩ := applyUpdates_eq sorter client channel updates
  obtain ⟨added', updated', heq'⟩ := applyUpdates_eq sorter client' channel' again
  rw [heq] at hdone
  have hpts : channel'.pts = (walk sorter client channel updates).updatedPts := by
    simp only [channel', heq]
    exact executeAll_calls_pts channel _ added updated
      (walk_follows sorter client channel updates).le
  clear_value channel'
  have hsame : walk sorter client' channel' again =
      { updatedPts := channel'.pts, failed := (scan again).failed } := by
    refine Walk.run_of_reached fun u hu => ?_
    have hmem := sorter.mem_sort.2 (mem_scan.2 (hagain u (mem_scan.1 (sorter.mem_sort.1 hu))))
    rw [hpts]
    exact (Walk.run_settles _ _ _ _ u hmem).resolve_right (by simpa [walk] using hdone)
  rw [heq', hsame]
  exact ⟨rfl, executeAll_calls_pts channel' _ added' updated' (Int32.le_refl channel'.pts), rfl⟩

/-- A deletion that is delivered three times. -/
theorem applyUpdates_again_deleted :
    let deletion : Update Unit := .pts (.deleteChannelMessages [3] 2 1)
    let call (channel : Channel Unit) (updates : List (Update Unit)) :=
      applyUpdates (.leaving comparator) ⟨[], fun _ => []⟩ channel updates
    let channel := (Channel.insert 1 true 0).executeAll (call (.insert 1 true 0) [deletion]).1
    (channel.executeAll (call channel [deletion, deletion]).1).pts = channel.pts :=
  (applyUpdates_again (.leaving comparator) ⟨[], fun _ => []⟩ (.insert 1 true 0) _
    (by
      simp [applyUpdates, walk, scan, Scan.visit, Sorter.sort_singleton, Walk.run, Walk.visit]
      decide)
    ⟨[], fun _ => []⟩ _ (by simp)).2.1

end TelegramPub.Ports.ChannelState
