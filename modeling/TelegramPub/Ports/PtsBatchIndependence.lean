import TelegramPub.Ports.PtsBatchSplits

/-!
# Handing a batch over at once

Here a batch is delivered to an idle actor, which checks, applies and checks again.  Two
such deliveries and one of everything together tell the chains apart that depend on their
batches.
-/

namespace TelegramPub.Ports.PtsBatches

open Verified.Bytes Verified.Machine Ports.ApplyUpdates Ports.ApplyUpdatesSafety

/-! ## What a check finds in a chain -/

/-- The numbers of an update. -/
def numbers (u : Update) : Int × Int := (u.pts, u.ptsCount)

variable {us vs : List Update}

theorem continues_congr : ∀ {reached : Int},
    us.map numbers = vs.map numbers → PtsContinues reached us → PtsContinues reached vs := by
  induction us generalizing vs with
  | nil =>
    simp_all
  | cons u us ih =>
    intro reached hmap h
    cases vs with
    | nil => cases hmap
    | cons v vs =>
      rw [List.map_cons, List.map_cons, List.cons.injEq] at hmap
      obtain ⟨hpts, hcount⟩ := Prod.mk.inj hmap.1
      obtain ⟨hstart, hle, hrest⟩ := h
      rw [hpts] at hstart hle hrest
      rw [hcount] at hstart
      exact ⟨hstart, hle, ih hmap.2 hrest⟩

theorem reachedBy_congr : ∀ {reached : Int},
    us.map numbers = vs.map numbers → ptsReachedBy reached us = ptsReachedBy reached vs := by
  induction us generalizing vs with
  | nil =>
    simp_all
  | cons u us ih =>
    intro reached hmap
    cases vs with
    | nil => cases hmap
    | cons v vs =>
      rw [List.map_cons, List.map_cons, List.cons.injEq] at hmap
      show ptsReachedBy u.pts us = ptsReachedBy v.pts vs
      rw [(Prod.mk.inj hmap.1).1]
      exact ih hmap.2

/-- Two sorted lists of the same numbers. -/
theorem numbers_eq_of_perm (hus : us.Pairwise ptsBefore)
    (hvs : vs.Pairwise ptsBefore) (hperm : (us.map numbers).Perm (vs.map numbers)) :
    us.map numbers = vs.map numbers := by
  have hsorted : ∀ {list : List Update}, list.Pairwise ptsBefore →
      (list.map numbers).Pairwise fun a b => a.1 < b.1 ∨ (a.1 = b.1 ∧ b.2 ≤ a.2) :=
    fun h => List.pairwise_map.2 h
  refine hperm.eq_of_pairwise (fun a b _ _ hab hba => ?_) (hsorted hus) (hsorted hvs)
  refine Prod.ext ?_ ?_ <;> omega

theorem map_fields_above (pts : Int) (us : List Update) :
    (above pts us).map Update.fields = (us.map Update.fields).filter fun u => pts < u.pts := by
  rw [List.filter_map]
  rfl

theorem above_perm {pts : Int} (h : (us.map Update.fields).Perm (vs.map Update.fields)) :
    ((above pts us).map Update.fields).Perm ((above pts vs).map Update.fields) := by
  rw [map_fields_above, map_fields_above]
  exact h.filter _

theorem numbers_perm (h : (us.map Update.fields).Perm (vs.map Update.fields)) :
    (us.map numbers).Perm (vs.map numbers) := by
  have hmap : ∀ us : List Update, us.map numbers = (us.map Update.fields).map numbers := by
    intro us
    rw [List.map_map]
    rfl
  rw [hmap us, hmap vs]
  exact h.map numbers

theorem givesUp_perm {unknown : Update → Bool}
    (h : (us.map Update.fields).Perm (vs.map Update.fields)) :
    givesUp unknown us = givesUp unknown vs := by
  rw [givesUp_fields, givesUp_fields, h.any_eq]

/-- A loop over a chain takes all that is above the stored `pts`. -/
theorem checkLoop_chain {base : Int} (hbase : 0 ≤ base) : ∀ (us : List Update) (current : Int),
    PtsContinues current (above base us) →
      (checkLoop Update.pts Update.ptsCount base current us).inOrder = above base us := by
  intro us
  induction us with
  | nil => exact fun _ _ => rfl
  | cons u us ih =>
    intro current h
    unfold checkLoop
    by_cases hstale : u.pts ≤ base
    · have hdrop : above base (u :: us) = above base us := by
        simp [above, hstale]
      rw [if_pos hstale, hdrop]
      rw [hdrop] at h
      exact ih current h
    · have hkeep : above base (u :: us) = u :: above base us := by
        have hlt : base < u.pts := by omega
        simp [above, hlt]
      rw [hkeep] at h ⊢
      obtain ⟨hstart, _, hrest⟩ := h
      have hlt := Update.pts_lt u
      have hsum : int32 (current + u.ptsCount) = u.pts := by
        rw [int32_of_range (by omega) (by omega)]
        omega
      rw [if_neg hstale, if_pos hsum]
      exact congrArg (u :: ·) (ih u.pts hrest)

/-- What an actor that holds the updates of a chain finds in order. -/
structure FindsChain (db : DatabaseState) (actor : Actor) (us : List Update) : Prop where
  fields : ((inOrder db actor).map Update.fields).Perm ((above db.pts us).map Update.fields)
  continues : PtsContinues db.pts (inOrder db actor)
  reached : ptsReachedBy db.pts (inOrder db actor) = ptsReachedBy db.pts (above db.pts us)
  all : inOrder db actor = above db.pts (sortedUpdates actor)

theorem findsChain {db : DatabaseState} {actor : Actor} {us : List Update} (hdb : 0 ≤ db.pts)
    (hheld : ((collected actor.updateList).map Update.fields).Perm (us.map Update.fields))
    (h : PtsContinues db.pts (above db.pts us)) : FindsChain db actor us := by
  have hsorted : ((sortedUpdates actor).map Update.fields).Perm (us.map Update.fields) :=
    ((List.perm_insertionSort ptsBefore _).map _).trans hheld
  have hfields := @above_perm _ _ db.pts hsorted
  have hpairwise : (above db.pts (sortedUpdates actor)).Pairwise ptsBefore := by
    have htotal : Std.Total ptsBefore := ⟨by intro u v; unfold ptsBefore; omega⟩
    have htrans : IsTrans Update ptsBefore := ⟨by intro u v x; unfold ptsBefore; omega⟩
    exact (List.pairwise_insertionSort ptsBefore _).filter _
  have hnumbers := numbers_eq_of_perm hpairwise (PtsContinues.pairwise h) (numbers_perm hfields)
  have hcontinues := continues_congr hnumbers.symm h
  have hall : inOrder db actor = above db.pts (sortedUpdates actor) :=
    checkLoop_chain hdb (sortedUpdates actor) db.pts hcontinues
  exact ⟨by rw [hall]; exact hfields, by rw [hall]; exact hcontinues,
    by rw [hall]; exact reachedBy_congr hnumbers, hall⟩

/-! ## A delivery to an idle actor -/

/-- No actor is there. -/
def Idle (w : World) : Prop := w.registered .withPts = none ∧ w.executing = none

/-- A batch comes, the actor executes, and what it applies comes to its end. -/
def handOver (us : List Update) : List Delivery :=
  [.receive [{ object := 0, updates := us }], .execute, .applyCompleted]

theorem received_handOver (us : List Update) : received (handOver us) = us := by
  simp [received, handOver, Delivery.updates, collected]

section HandOver

variable (unknown : Update → Bool) {w : World} {actor : Actor}

/-- Where a check of stale updates leaves the actor. -/
theorem conclude_stale (hidle : actor.applying = none)
    (hexecutes : w.executing = some (.tryUpdates .withPts))
    (hstale : ∀ u ∈ collected actor.updateList, u.pts ≤ w.db.pts) :
    (w.conclude .withPts (givesUp unknown) (check w.db actor .withPts)).db = w.db ∧
      (w.conclude .withPts (givesUp unknown) (check w.db actor .withPts)).log = w.log ∧
      Settled (w.conclude .withPts (givesUp unknown) (check w.db actor .withPts)) ∧
      (actor.updateList = [] →
        Idle (w.conclude .withPts (givesUp unknown) (check w.db actor .withPts))) := by
  cases hcheck : check w.db actor .withPts with
  | completed =>
    refine ⟨rfl, rfl, fun actor' hreg => ?_, fun _ => ⟨?_, ?_⟩⟩
    · simp [World.conclude, World.completeAction] at hreg
    · simp [World.conclude, World.completeAction]
    · simp [World.conclude, World.completeAction, hexecutes]
  | waiting actor' =>
    obtain ⟨_, hnarrows, _⟩ := check_waiting hcheck
    refine ⟨rfl, rfl, fun actor'' hreg => ?_, fun hnil => ?_⟩
    · simp only [World.conclude, setActor_registered, Option.some.injEq] at hreg
      subst hreg
      exact ⟨by rw [hnarrows.applying, hidle], hexecutes⟩
    · rw [check_withPts, hnil] at hcheck
      cases hcheck
  | applying actor' app =>
    obtain ⟨hsome, _, _, _⟩ := check_applying hcheck
    obtain ⟨u, hu⟩ := List.exists_mem_of_ne_nil _ hsome
    obtain ⟨hheld, habove⟩ := inOrder_subset hu
    have hle := hstale u hheld
    omega

/-- The world in which the actor executes its first check. -/
def executing (w : World) (actor : Actor) (nextObject : Nat) : World :=
  { w with
    nextObject
    executing := some (.tryUpdates .withPts)
    registered := Function.update w.registered .withPts (some actor) }

theorem deliver_handOver (us : List Update) (hidle : Idle w) : ∃ nextObject actor,
    actor.applying = none ∧ actor.waitingForApplyUpdatesQueue = [] ∧
    (collected actor.updateList).map Update.fields = us.map Update.fields ∧
    actor.updateList.length = 1 ∧
    deliver unknown w (handOver us) =
      ((executing w actor nextObject).conclude .withPts (givesUp unknown)
        (check w.db actor .withPts)).applyCompleted .withPts (givesUp unknown) := by
  obtain ⟨hreg, hexecuting⟩ := hidle
  have hfields := (stamped [{ object := 0, updates := us }] w.nextObject).fields
  have hlength : (stamp w.nextObject [{ object := 0, updates := us }]).1.length = 1 := rfl
  show ∃ nextObject actor, _ ∧ _ ∧ _ ∧ _ ∧
    World.applyCompleted (World.execute (World.requestActor
      { w with nextObject := (stamp w.nextObject [{ object := 0, updates := us }]).2 } .withPts
      (stamp w.nextObject [{ object := 0, updates := us }]).1 (givesUp unknown)) .withPts
      (givesUp unknown)) .withPts (givesUp unknown) = _
  generalize (stamp w.nextObject [{ object := 0, updates := us }]).2 = nextObject at *
  generalize (stamp w.nextObject [{ object := 0, updates := us }]).1 = stamps at *
  refine ⟨nextObject, { updateList := stamps }, rfl, rfl, ?_, hlength, ?_⟩
  · simpa [collected] using hfields
  · congr 1
    simp [World.requestActor, World.execute, World.setActor, hreg, hexecuting, executing]

/-- A world in which nothing is applied stays as it is. -/
theorem applyCompleted_idle (h : ∀ actor, w.registered .withPts = some actor →
    actor.applying = none) : w.applyCompleted .withPts (givesUp unknown) = w := by
  unfold World.applyCompleted
  cases hreg : w.registered .withPts with
  | none => rfl
  | some actor => simp only [h actor hreg]

theorem removeCovered_eq_nil {covered : List Update} {list : List Updates}
    (h : ∀ batch ∈ list, batch.updates ≠ [] ∧ ∀ u ∈ batch.updates, u ∈ covered) :
    removeCovered covered list = [] := by
  unfold removeCovered
  rw [List.filter_eq_nil_iff]
  intro batch hbatch
  obtain ⟨hne, hall⟩ := h batch hbatch
  have hcovered : batch.updates.all (covered.contains ·) = true := by
    rw [List.all_eq_true]
    exact fun u hu => List.contains_iff_mem.2 (hall u hu)
  have hsome : batch.updates.isEmpty = false := by
    rw [List.isEmpty_eq_false_iff]
    exact hne
  rw [hcovered, hsome]
  simp

theorem check_applying_rest {db : DatabaseState} {actor' : Actor} {app : Application}
    (h : check db actor .withPts = .applying actor' app) :
    actor'.updateList = removeCovered (inOrder db actor)
      (removeCovered (expired db actor) actor.updateList) := by
  rw [check_withPts] at h
  split at h
  · cases h
  · grind

theorem batch_removed {db : DatabaseState} {actor' : Actor} {app : Application}
    (hcheck : check db actor .withPts = .applying actor' app)
    (hlength : actor.updateList.length = 1)
    (hall : ∀ u ∈ collected actor.updateList, u ∈ inOrder db actor)
    (hsome : collected actor.updateList ≠ []) : actor'.updateList = [] := by
  obtain ⟨batch, hbatch⟩ := List.length_eq_one_iff.1 hlength
  have hupdates : collected actor.updateList = batch.updates := by
    rw [hbatch]
    exact List.append_nil _
  rw [check_applying_rest hcheck]
  refine removeCovered_eq_nil fun b hb => ?_
  have hin := (removeCovered_sublist _ _).subset hb
  rw [hbatch, List.mem_singleton] at hin
  rw [hin, ← hupdates]
  exact ⟨hsome, hall⟩

/-! ## The outcome of a delivery -/

theorem handOver_stale (us : List Update) (hidle : Idle w) (hnil : above w.db.pts us = []) :
    Settled (deliver unknown w (handOver us)) ∧
      appliedFields (deliver unknown w (handOver us)) = appliedFields w ∧
      (deliver unknown w (handOver us)).db.pts = w.db.pts := by
  obtain ⟨nextObject, actor, hactor, hqueue, hfields, _, heq⟩ :=
    deliver_handOver unknown us hidle
  have hstale : ∀ u ∈ collected actor.updateList, u.pts ≤ w.db.pts := by
    intro u hu
    obtain ⟨v, hv, hvu⟩ := among_of_fields hfields u hu
    rw [← (pts_of_fields hvu).1]
    exact above_eq_nil.1 hnil v hv
  obtain ⟨hdb', hlog, hsettled, _⟩ := conclude_stale unknown
    (w := executing w actor nextObject) hactor rfl hstale
  have hlast := applyCompleted_idle unknown fun a hreg => (hsettled a hreg).1
  change World.applyCompleted (World.conclude _ .withPts (givesUp unknown)
    (check w.db actor .withPts)) .withPts (givesUp unknown) = _ at hlast
  rw [heq, hlast]
  refine ⟨hsettled, ?_, congrArg DatabaseState.pts hdb'⟩
  unfold appliedFields
  exact congrArg _ (congrArg _ hlog)

theorem handOver_check (us : List Update) (hidle : Idle w) (hdb : 0 ≤ w.db.pts)
    (h : PtsContinues w.db.pts (above w.db.pts us)) (hne : above w.db.pts us ≠ []) :
    ∃ nextObject actor actor' app, check w.db actor .withPts = .applying actor' app ∧
      app = application (inOrder w.db actor) 0 0 ∧ inOrder w.db actor ≠ [] ∧
      Narrows actor' actor ∧ FindsChain w.db actor us ∧
      actor.applying = none ∧ actor.waitingForApplyUpdatesQueue = [] ∧
      (collected actor.updateList).map Update.fields = us.map Update.fields ∧
      actor.updateList.length = 1 ∧
      deliver unknown w (handOver us) =
        ((executing w actor nextObject).conclude .withPts (givesUp unknown)
          (.applying actor' app)).applyCompleted .withPts (givesUp unknown) := by
  obtain ⟨nextObject, actor, hactor, hqueue, hfields, hlength, heq⟩ :=
    deliver_handOver unknown us hidle
  have hfinds : FindsChain w.db actor us := findsChain hdb (by rw [hfields]) h
  have hsome : inOrder w.db actor ≠ [] := by
    intro hfound
    have hlen := hfinds.fields.length_eq
    rw [hfound] at hlen
    exact hne (List.map_eq_nil_iff.1 (List.length_eq_zero_iff.1 hlen.symm))
  cases hcheck : check w.db actor .withPts with
  | completed => exact absurd (check_completed hcheck).1 hsome
  | waiting actor' => exact absurd (check_waiting hcheck).1 hsome
  | applying actor' app =>
    obtain ⟨_, happ, hnarrows, _⟩ := check_applying hcheck
    rw [hcheck] at heq
    exact ⟨nextObject, actor, actor', app, hcheck, happ, hsome, hnarrows, hfinds, hactor, hqueue,
      hfields, hlength, heq⟩

theorem handOver_lost (us : List Update) (hidle : Idle w) (hdb : 0 ≤ w.db.pts)
    (h : PtsContinues w.db.pts (above w.db.pts us)) (hne : above w.db.pts us ≠ [])
    (hgives : givesUp unknown (above w.db.pts us) = true) :
    Settled (deliver unknown w (handOver us)) ∧
      appliedFields (deliver unknown w (handOver us)) = appliedFields w ∧
      (deliver unknown w (handOver us)).db.pts = w.db.pts := by
  obtain ⟨nextObject, actor, actor', app, _, happ, _, _, hfinds, _, _, _, _, heq⟩ :=
    handOver_check unknown us hidle hdb h hne
  have hfails : givesUp unknown app.updates = true := by
    rw [happ]
    show givesUp unknown (inOrder w.db actor) = true
    rw [givesUp_perm hfinds.fields]
    exact hgives
  have hconclude : (executing w actor nextObject).conclude .withPts (givesUp unknown)
      (.applying actor' app) =
      ((executing w actor nextObject).setActor .withPts (some actor')).fail .withPts := by
    simp [World.conclude, hfails]
  have hgone : (((executing w actor nextObject).setActor .withPts
      (some actor')).fail .withPts).registered .withPts = none := by
    simp [World.fail, World.completeAction]
  have hnobody : ∀ a, (((executing w actor nextObject).setActor .withPts
      (some actor')).fail .withPts).registered .withPts ≠ some a := by
    intro a hreg
    rw [hgone] at hreg
    cases hreg
  rw [heq, hconclude, applyCompleted_idle unknown fun a hreg => absurd hreg (hnobody a)]
  exact ⟨fun a hreg => absurd hreg (hnobody a), rfl, rfl⟩

/-- The outcome of a delivery of which something is applied. -/
structure HandedOver (w w' : World) (us : List Update) : Prop where
  settled : Settled w'
  applied : (appliedFields w').Perm (appliedFields w ++ (above w.db.pts us).map Update.fields)
  stored : w'.db.pts = ptsReachedBy w.db.pts (above w.db.pts us)
  idle : above w.db.pts us = us → Idle w'

theorem handOver_applied (us : List Update) (hidle : Idle w) (hdb : 0 ≤ w.db.pts)
    (hhas : ∀ u ∈ us, u.hasPts = true) (hno : ∀ u ∈ us, u.hasQts = false)
    (h : PtsContinues w.db.pts (above w.db.pts us)) (hne : above w.db.pts us ≠ [])
    (hgives : givesUp unknown (above w.db.pts us) = false) :
    HandedOver w (deliver unknown w (handOver us)) us := by
  obtain ⟨nextObject, actor, actor', app, hcheck, happ, hsome, hnarrows, hfinds, hactor, hqueue,
    hfields, hlength, heq⟩ := handOver_check unknown us hidle hdb h hne
  have hupdates : app.updates = inOrder w.db actor := by rw [happ]; rfl
  have hfails : givesUp unknown app.updates = false := by
    rw [hupdates, givesUp_perm hfinds.fields]
    exact hgives
  have hcopy : Among (collected actor.updateList) us := among_of_fields hfields
  have hamong : Among app.updates us := by
    rw [hupdates]
    exact hcopy.of_subset fun u hu => (inOrder_subset hu).1
  have happlying : Applying w.db.pts app.updates app :=
    ⟨by rw [hupdates]; exact happ, by rw [hupdates]; exact hsome, rfl,
      by rw [hupdates]; exact hfinds.continues,
      by rw [hupdates]; exact fun u hu => (inOrder_subset hu).2⟩
  have hconclude : (executing w actor nextObject).conclude .withPts (givesUp unknown)
      (.applying actor' app) = (executing w actor nextObject).setActor .withPts
        (some { actor' with applying := some app }) := by
    simp [World.conclude, hfails]
  rw [heq, hconclude]
  generalize hw' : (executing w actor nextObject).setActor .withPts
    (some { actor' with applying := some app }) = w'
  have hdb' : w'.db = w.db := by rw [← hw']; rfl
  have hlog' : w'.log = w.log := by rw [← hw']; rfl
  have hexecutes : w'.executing = some (.tryUpdates .withPts) := by rw [← hw']; rfl
  obtain ⟨hpts, happlied⟩ := Applying.store (w := w') happlying (by rw [hdb'])
    (by rw [hdb']; exact hdb) (hamong.hasPts hhas) (hamong.noQts hno)
  have hsame : appliedFields w' = appliedFields w := by
    unfold appliedFields
    rw [hlog']
  rw [hdb', hupdates, hfinds.reached] at hpts
  rw [hsame, hupdates] at happlied
  have hresume : w'.applyCompleted .withPts (givesUp unknown) =
      ((w'.store .withPts app).setActor .withPts
        (some (Actor.resume { actor' with applying := some app }))).conclude .withPts
        (givesUp unknown) (check (w'.store .withPts app).db
          (Actor.resume { actor' with applying := some app }) .withPts) := by
    unfold World.applyCompleted
    rw [← hw', setActor_registered]
    rfl
  have hrest : (Actor.resume { actor' with applying := some app }).updateList =
      actor'.updateList := by
    show actor'.updateList ++ actor'.waitingForApplyUpdatesQueue = _
    rw [hnarrows.waiting, hqueue, List.append_nil]
  have hstale : ∀ u ∈ collected (Actor.resume { actor' with applying := some app }).updateList,
      u.pts ≤ (w'.store .withPts app).db.pts := by
    intro u hu
    rw [hrest] at hu
    have hheld := collected_subset hnarrows.updateList u hu
    obtain ⟨hle, hreached⟩ := Continues.le_reachedBy hfinds.continues
    rw [hpts, ← hfinds.reached]
    by_cases habove : w.db.pts < u.pts
    · refine hreached u ?_
      rw [hfinds.all]
      exact mem_above.2 ⟨mem_sortedUpdates.2 hheld, habove⟩
    · exact (Int.not_lt.1 habove).trans hle
  obtain ⟨hdb'', hlog'', hsettled, hgone⟩ := conclude_stale unknown
    (w := (w'.store .withPts app).setActor .withPts
      (some (Actor.resume { actor' with applying := some app }))) rfl hexecutes hstale
  rw [hresume]
  refine ⟨hsettled, ?_, (congrArg DatabaseState.pts hdb'').trans hpts, fun hwhole => ?_⟩
  · have hfinal : appliedFields _ = appliedFields (w'.store .withPts app) :=
      congrArg (fun log => (appliedPts log).map Update.fields) hlog''
    refine (List.Perm.of_eq (hfinal.trans happlied)).trans ?_
    exact hfinds.fields.append_left _
  · refine hgone (hrest.trans (batch_removed hcheck hlength (fun u hu => ?_) fun hnil => ?_))
    · obtain ⟨v, hv, hvu⟩ := hcopy u hu
      rw [← hwhole] at hv
      rw [hfinds.all]
      refine mem_above.2 ⟨mem_sortedUpdates.2 hu, ?_⟩
      rw [← (pts_of_fields hvu).1]
      exact (mem_above.1 hv).2
    · rw [hnil] at hfields
      rw [hwhole] at hne
      exact hne (List.map_eq_nil_iff.1 hfields.symm)

/-- Whatever a delivery does, what was applied stays applied. -/
theorem handOver_keeps (us : List Update) (hidle : Idle w) (hdb : 0 ≤ w.db.pts)
    (hhas : ∀ u ∈ us, u.hasPts = true) (hno : ∀ u ∈ us, u.hasQts = false)
    (h : PtsContinues w.db.pts (above w.db.pts us)) :
    Settled (deliver unknown w (handOver us)) ∧
      (appliedFields w).length ≤ (appliedFields (deliver unknown w (handOver us))).length := by
  by_cases hne : above w.db.pts us = []
  · obtain ⟨hsettled, happlied, _⟩ := handOver_stale unknown us hidle hne
    exact ⟨hsettled, by rw [happlied]⟩
  · cases hgives : givesUp unknown (above w.db.pts us) with
    | true =>
      obtain ⟨hsettled, happlied, _⟩ := handOver_lost unknown us hidle hdb h hne hgives
      exact ⟨hsettled, by rw [happlied]⟩
    | false =>
      have hhanded := handOver_applied unknown us hidle hdb hhas hno h hne hgives
      have hlength := hhanded.applied.length_eq
      rw [List.length_append] at hlength
      exact ⟨hhanded.settled, by omega⟩

end HandOver

section Differ

variable {unknown : Update → Bool} {db : DatabaseState} {chain : List Update}

theorem deliver_append (w : World) (first second : List Delivery) :
    deliver unknown w (first ++ second) = deliver unknown (deliver unknown w first) second := by
  unfold deliver
  rw [List.map_append]
  exact run_append _ _ _ _

theorem received_handOver_twice (us vs : List Update) :
    received (handOver us ++ handOver vs) = us ++ vs := by
  unfold received
  rw [List.flatMap_append]
  exact congrArg₂ _ (received_handOver us) (received_handOver vs)

theorem not_independent (first second : List Delivery)
    (hfirst : (received first).Perm chain) (hsecond : (received second).Perm chain)
    (hsettled : Settled (deliver unknown { db } first))
    (hsettled' : Settled (deliver unknown { db } second))
    (hne : (appliedFields (deliver unknown { db } first)).length ≠
      (appliedFields (deliver unknown { db } second)).length) :
    ¬ BatchingIndependent unknown db chain := by
  intro hindependent
  have hperm := (hindependent first second (hfirst.map _) (hsecond.map _) hsettled hsettled').1
  exact hne hperm.length_eq

/-- An update that can be applied alone is lost together with one that makes processing
give up. -/
theorem not_independent_of_unknown (h : PtsChain db chain) {r : Update} {rest : List Update}
    (habove : above db.pts chain = r :: rest) (hknown : unknown (Update.fields r) = false)
    (hgives : givesUp unknown (above db.pts chain) = true) :
    ¬ BatchingIndependent unknown db chain := by
  have hchain := h.above_continues
  have hr : r ∈ chain ∧ db.pts < r.pts := by
    rw [← mem_above, habove]
    exact .head _
  obtain ⟨before, after, hsplit⟩ := List.append_of_mem hr.1
  have hne : above db.pts chain ≠ [] := by
    rw [habove]
    exact List.cons_ne_nil _ _
  have hidle : Idle { db } := ⟨rfl, rfl⟩
  obtain ⟨hsettled, hnothing, _⟩ := handOver_lost unknown chain (w := { db }) hidle h.stored
    hchain hne hgives
  have hone : above db.pts [r] = [r] := by
    refine above_eq_self fun u hu => ?_
    rw [List.mem_singleton.1 hu]
    exact hr.2
  have hcontinues : PtsContinues db.pts (above db.pts [r]) := by
    rw [habove] at hchain
    rw [hone]
    exact ⟨hchain.1, hchain.2.1, trivial⟩
  have hfirst := handOver_applied unknown [r] (w := { db }) hidle h.stored
    (fun u hu => h.hasPts u (by rw [List.mem_singleton.1 hu]; exact hr.1))
    (fun u hu => h.noQts u (by rw [List.mem_singleton.1 hu]; exact hr.1)) hcontinues
    (by rw [hone]; exact List.cons_ne_nil _ _) (by rw [hone]; simp [givesUp, hknown])
  have happlied := hfirst.applied
  have hstored := hfirst.stored
  have hgone := hfirst.idle hone
  rw [hone] at happlied hstored
  have hothers : ∀ u ∈ before ++ after, u ∈ chain := by
    grind
  have hlater : PtsContinues r.pts (above r.pts (before ++ after)) := by
    have hdrop : above r.pts (before ++ after) = above r.pts chain := by
      rw [hsplit]
      simp [above]
    rw [hdrop]
    exact PtsContinues.above_of_mem h.continues (by omega) (.inr ⟨r, hr.1, rfl⟩)
  generalize hw : deliver unknown { db } (handOver [r]) = w at happlied hstored hgone
  have hpts : w.db.pts = r.pts := hstored
  have hpos : 0 ≤ w.db.pts := by
    rw [hpts]
    exact h.stored.trans (by omega)
  obtain ⟨hsettled', hkept⟩ := handOver_keeps unknown (before ++ after) hgone hpos
    (fun u hu => h.hasPts u (hothers u hu)) (fun u hu => h.noQts u (hothers u hu))
    (by rw [hpts]; exact hlater)
  refine not_independent (handOver chain) (handOver [r] ++ handOver (before ++ after)) ?_ ?_
    hsettled (by rw [deliver_append, hw]; exact hsettled') ?_
  · rw [received_handOver]
  · grind [received_handOver_twice]
  · rw [deliver_append, hw, hnothing]
    have hlength := happlied.length_eq
    simp only [List.length_append, List.length_map, List.length_singleton] at hlength
    have hzero : (appliedFields { db := db }).length = 0 := rfl
    omega

theorem PtsContinues.positive {us : List Update} {reached : Int} (h : PtsContinues reached us) :
    PtsContinues reached (us.filter fun u => 0 < u.ptsCount) ∧
      ptsReachedBy reached (us.filter fun u => 0 < u.ptsCount) = ptsReachedBy reached us := by
  induction us generalizing reached with
  | nil => exact ⟨trivial, rfl⟩
  | cons u us ih =>
    obtain ⟨hstart, hle, hrest⟩ := h
    obtain ⟨hcontinues, hreached⟩ := ih hrest
    by_cases hpos : 0 < u.ptsCount
    · rw [List.filter_cons_of_pos (by simpa using hpos)]
      exact ⟨⟨hstart, hle, hcontinues⟩, hreached⟩
    · have hsame : u.pts = reached := by omega
      rw [List.filter_cons_of_neg (by simpa using hpos)]
      rw [hsame] at hcontinues hreached
      refine ⟨hcontinues, ?_⟩
      show _ = ptsReachedBy u.pts us
      rw [hsame]
      exact hreached

/-- An update with `pts_count` 0 that comes late is not applied. -/
theorem not_independent_of_zero (h : PtsChain db chain) {z : Update} (hz : z ∈ above db.pts chain)
    (hzero : z.ptsCount = 0) (hgives : givesUp unknown (above db.pts chain) = false) :
    ¬ BatchingIndependent unknown db chain := by
  have hchain := h.above_continues
  have hidle : Idle { db } := ⟨rfl, rfl⟩
  have hne : above db.pts chain ≠ [] := List.ne_nil_of_mem hz
  have hwhole := handOver_applied unknown chain (w := { db }) hidle h.stored h.hasPts h.noQts
    hchain hne hgives
  obtain ⟨advancing, hadvancing⟩ : ∃ us, us = (above db.pts chain).filter fun u => 0 < u.ptsCount :=
    ⟨_, rfl⟩
  obtain ⟨hcontinues, hreached⟩ := PtsContinues.positive hchain
  rw [← hadvancing] at hcontinues hreached
  have hsub : ∀ u ∈ advancing, u ∈ above db.pts chain := by
    rw [hadvancing]
    exact fun u hu => List.mem_of_mem_filter hu
  have hself : above db.pts advancing = advancing :=
    above_eq_self fun u hu => (mem_above.1 (hsub u hu)).2
  have hsome : advancing ≠ [] := by
    intro hnil
    rw [hnil] at hreached
    have hle := (Continues.le_reachedBy hchain).2 z hz
    have hlt := (mem_above.1 hz).2
    have hsame : db.pts = ptsReachedBy db.pts (above db.pts chain) := hreached
    have hle : z.pts ≤ db.pts := hle.trans_eq hsame.symm
    omega
  have hknown : givesUp unknown advancing = false := by
    unfold givesUp at hgives ⊢
    rw [List.any_eq_false] at hgives ⊢
    exact fun u hu => hgives u (hsub u hu)
  have hfirst := handOver_applied unknown advancing (w := { db }) hidle h.stored
    (fun u hu => h.hasPts u (mem_above.1 (hsub u hu)).1)
    (fun u hu => h.noQts u (mem_above.1 (hsub u hu)).1) (by rw [hself]; exact hcontinues)
    (by rw [hself]; exact hsome) (by rw [hself]; exact hknown)
  have happlied := hfirst.applied
  have hstored := hfirst.stored
  have hgone := hfirst.idle hself
  rw [hself] at happlied hstored
  generalize hw : deliver unknown { db } (handOver advancing) = w at happlied hstored hgone
  have hlate : above w.db.pts (chain.filter fun u => !(decide (db.pts < u.pts) &&
      decide (0 < u.ptsCount))) = [] := by
    refine above_eq_nil.2 fun u hu => ?_
    have hle := Continues.le_reachedBy hchain
    rw [hstored, hreached]
    by_cases habove : db.pts < u.pts
    · exact hle.2 u (mem_above.2 ⟨List.mem_of_mem_filter hu, habove⟩)
    · exact (Int.not_lt.1 habove).trans hle.1
  obtain ⟨hsettled', hsame, _⟩ := handOver_stale unknown _ hgone hlate
  refine not_independent (handOver chain) (handOver advancing ++ handOver _) ?_ ?_
    hwhole.settled (by rw [deliver_append, hw]; exact hsettled') ?_
  · rw [received_handOver]
  · have hfilter : advancing = chain.filter fun u => decide (db.pts < u.pts) &&
        decide (0 < u.ptsCount) := by
      rw [hadvancing]
      unfold above
      rw [List.filter_filter]
      exact List.filter_congr fun u _ => Bool.and_comm _ _
    rw [received_handOver_twice, hfilter]
    exact List.filter_append_perm _ _
  · rw [deliver_append, hw, hsame]
    have hlength := happlied.length_eq
    have hlength' := hwhole.applied.length_eq
    simp only [List.length_append, List.length_map] at hlength hlength'
    have hfewer : advancing.length < (above db.pts chain).length := by
      rw [hadvancing]
      refine List.length_filter_lt_length_iff_exists.2 ⟨z, hz, ?_⟩
      simp [hzero]
    omega

/-- The chains whose outcome does not depend on their batches. -/
theorem batchingIndependent_iff (h : PtsChain db chain) :
    BatchingIndependent unknown db chain ↔
      Advances unknown (above db.pts chain) ∨ Blocked unknown db chain := by
  constructor
  · intro hindependent
    by_contra hneither
    obtain ⟨hadv, hblocked⟩ := not_or.1 hneither
    cases hgives : givesUp unknown (above db.pts chain) with
    | true =>
      obtain ⟨r, rest, habove⟩ : ∃ r rest, above db.pts chain = r :: rest := by
        cases hA : above db.pts chain with
        | nil =>
          rw [hA] at hgives
          cases hgives
        | cons r rest => exact ⟨r, rest, rfl⟩
      have hr : r ∈ chain ∧ db.pts < r.pts := by
        rw [← mem_above, habove]
        exact .head _
      have hstart := h.above_continues
      rw [habove] at hstart
      have hknown : unknown (Update.fields r) = false := by
        cases hr' : unknown (Update.fields r) with
        | false => rfl
        | true => exact absurd ⟨r, hr.1, hr.2, by have := hstart.1; omega, hr'⟩ hblocked
      exact not_independent_of_unknown h habove hknown hgives hindependent
    | false =>
      obtain ⟨z, hz, hzero⟩ : ∃ z ∈ above db.pts chain, z.ptsCount = 0 := by
        by_contra hnone
        refine hadv fun u hu => ⟨?_, ?_⟩
        · have hcount := h.above_continues.count_nonneg u hu
          have hne : u.ptsCount ≠ 0 := fun heq => hnone ⟨u, hu, heq⟩
          omega
        · unfold givesUp at hgives
          rw [List.any_eq_false] at hgives
          simpa using hgives u hu
      exact not_independent_of_zero h hz hzero hgives hindependent
  · rintro (hadv | hblocked) first second hfirst hsecond hsettled hsettled'
    · obtain ⟨happlied, hpts⟩ := settled_of_advances h hadv hfirst hsettled
      obtain ⟨happlied', hpts'⟩ := settled_of_advances h hadv hsecond hsettled'
      exact ⟨by rw [happlied, happlied'], by rw [hpts, hpts']⟩
    · have hone := (stuck_initial db chain).deliver h hblocked first (among_of_perm hfirst)
      have htwo := (stuck_initial db chain).deliver h hblocked second (among_of_perm hsecond)
      exact ⟨by rw [hone.applied, htwo.applied], by rw [hone.stored, htwo.stored]⟩

/-- One update to `pts` 5 and one more that leaves it there. -/
def equalPtsChain : List Update :=
  [{ object := 0, content := 1, ptsFields := some (5, 1) },
    { object := 1, content := 2, ptsFields := some (5, 0) }]

theorem equalPtsChain_ptsChain : PtsChain { pts := 4 } equalPtsChain :=
  ⟨by decide, by decide, by decide, by decide, by decide, by decide, by decide, by decide, trivial⟩

/-- The second update is applied when it comes with the first, and expired after it. -/
theorem equalPts_depends : ¬ BatchingIndependent (fun _ => false) { pts := 4 } equalPtsChain :=
  not_independent_of_zero equalPtsChain_ptsChain
    (z := { object := 1, content := 2, ptsFields := some (5, 0) })
    (by decide) (by decide) (by decide)

/-- Two updates with one `pts`. -/
theorem batchingIndependent_equalPts :
    BatchingIndependent (fun _ => false) { pts := 4 } equalPtsChain ↔
      Advances (fun _ => false) (above 4 equalPtsChain) ∨
        Blocked (fun _ => false) { pts := 4 } equalPtsChain :=
  batchingIndependent_iff equalPtsChain_ptsChain

end Differ

end TelegramPub.Ports.PtsBatches
