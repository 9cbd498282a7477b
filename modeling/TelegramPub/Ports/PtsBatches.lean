import TelegramPub.Ports.ApplyUpdatesSafety

/-!
# Batches of `pts` updates

The updates of a gap-free chain from the stored `pts` may come in any batches and in any
order.  The actor `withPts` collects them and applies what continues the chain.  This
module says what one of its checks finds among the updates of a chain.

An update is told by its fields: every delivery makes new objects.
-/

namespace TelegramPub.Ports.PtsBatches

open Verified.Bytes Verified.Machine Ports.ApplyUpdates Ports.ApplyUpdatesSafety

/-- Processing gives up on a list with an unknown user or chat; whether an update mentions
one is told by its fields. -/
def givesUp (unknown : Update → Bool) (us : List Update) : Bool :=
  us.any fun u => unknown (Update.fields u)

/-- The events of the actor `withPts` when no timeout fires. -/
inductive Delivery where
  | receive (batches : List Updates)
  | execute
  | applyCompleted

def Delivery.event (unknown : Update → Bool) : Delivery → Event
  | .receive batches => .addUpdates .withPts batches (givesUp unknown)
  | .execute => .execute .withPts (givesUp unknown)
  | .applyCompleted => .applyCompleted .withPts (givesUp unknown)

def Delivery.updates : Delivery → List Update
  | .receive batches => collected batches
  | _ => []

/-- What a run delivers. -/
def received (deliveries : List Delivery) : List Update := deliveries.flatMap Delivery.updates

/-- The world after the deliveries. -/
def deliver (unknown : Update → Bool) (w : World) (deliveries : List Delivery) : World :=
  run step w (deliveries.map (Delivery.event unknown))

/-- Only a new delivery can change something. -/
def Settled (w : World) : Prop :=
  ∀ actor, w.registered .withPts = some actor →
    actor.applying = none ∧ w.executing = some (.tryUpdates .withPts)

/-- The updates applied, without their identities. -/
def appliedFields (w : World) : List Update := (appliedPts w.log).map Update.fields

/-- However the updates of `chain` come, the same ones are applied and the same `pts` is
stored. -/
def BatchingIndependent (unknown : Update → Bool) (db : DatabaseState) (chain : List Update) :
    Prop :=
  ∀ first second : List Delivery,
    ((received first).map Update.fields).Perm (chain.map Update.fields) →
    ((received second).map Update.fields).Perm (chain.map Update.fields) →
    Settled (deliver unknown { db } first) → Settled (deliver unknown { db } second) →
    (appliedFields (deliver unknown { db } first)).Perm
        (appliedFields (deliver unknown { db } second)) ∧
      (deliver unknown { db } first).db.pts = (deliver unknown { db } second).db.pts

/-- A set of `pts` updates, ordered into a gap-free chain from the stored `pts`. -/
structure PtsChain (db : DatabaseState) (chain : List Update) : Prop where
  /-- `applyPts:` stores positive numbers only. -/
  stored : 0 ≤ db.pts
  hasPts : ∀ u ∈ chain, u.hasPts = true
  noQts : ∀ u ∈ chain, u.hasQts = false
  copies : (chain.map Update.fields).Nodup
  continues : Continues Update.pts Update.ptsCount db.pts chain

abbrev PtsContinues (reached : Int) (us : List Update) : Prop :=
  Continues Update.pts Update.ptsCount reached us

abbrev ptsReachedBy (reached : Int) (us : List Update) : Int := reachedBy Update.pts reached us

/-- The updates above a `pts`. -/
def above (pts : Int) (us : List Update) : List Update := us.filter fun u => pts < u.pts

variable {u : Update}

theorem mem_above {pts : Int} {us : List Update} :
    u ∈ above pts us ↔ u ∈ us ∧ pts < u.pts := by
  simp [above]

theorem above_eq_self {pts : Int} {us : List Update} (h : ∀ u ∈ us, pts < u.pts) :
    above pts us = us := by
  unfold above
  rw [List.filter_eq_self]
  exact fun u hu => decide_eq_true (h u hu)

theorem above_eq_nil {pts : Int} {us : List Update} :
    above pts us = [] ↔ ∀ u ∈ us, u.pts ≤ pts := by
  simp [above]

section Chains

variable {us vs : List Update} {reached : Int}

theorem PtsContinues.append : ∀ {us : List Update} {reached : Int},
    PtsContinues reached (us ++ vs) ↔
      PtsContinues reached us ∧ PtsContinues (ptsReachedBy reached us) vs := by
  intro us
  induction us with
  | nil => simp [PtsContinues, Continues, ptsReachedBy, reachedBy]
  | cons u us ih =>
    intro reached
    have hrest := @ih u.pts
    simp only [PtsContinues, Continues, List.cons_append] at hrest ⊢
    rw [hrest]
    simp only [and_assoc]
    rfl

/-- Every update starts at the beginning of the chain or later. -/
theorem PtsContinues.start_le : ∀ {us : List Update} {reached : Int}, PtsContinues reached us →
    ∀ u ∈ us, reached ≤ u.pts - u.ptsCount ∧ u.pts - u.ptsCount ≤ u.pts := by
  intro us
  induction us with
  | nil => exact fun _ u hu => by cases hu
  | cons v us ih =>
    intro reached h u hu
    obtain ⟨hstart, hle, hrest⟩ := h
    rcases List.mem_cons.1 hu with rfl | hu
    · omega
    · have hu := ih hrest u hu
      omega

theorem PtsContinues.count_nonneg (h : PtsContinues reached us) : ∀ u ∈ us, 0 ≤ u.ptsCount := by
  intro u hu
  have hstart := h.start_le u hu
  omega

theorem PtsContinues.pairwise : ∀ {us : List Update} {reached : Int}, PtsContinues reached us →
    us.Pairwise ptsBefore := by
  intro us
  induction us with
  | nil => exact fun _ => List.Pairwise.nil
  | cons u us ih =>
    intro reached h
    obtain ⟨hstart, hle, hrest⟩ := h
    refine List.Pairwise.cons (fun v hv => ?_) (ih hrest)
    have hv := PtsContinues.start_le hrest v hv
    unfold ptsBefore
    omega

theorem PtsContinues.above_of_mem : ∀ {us : List Update} {reached pts : Int},
    PtsContinues reached us → reached ≤ pts → (pts = reached ∨ ∃ u ∈ us, u.pts = pts) →
    PtsContinues pts (above pts us) := by
  intro us
  induction us with
  | nil => exact fun _ _ _ => trivial
  | cons u us ih =>
    intro reached pts h hle hpts
    obtain ⟨hstart, hleu, hrest⟩ := h
    by_cases hlt : pts < u.pts
    · have heq : pts = reached := by
        rcases hpts with heq | ⟨v, hv, hvp⟩
        · exact heq
        · rcases List.mem_cons.1 hv with rfl | hv
          · omega
          · have hvle := hrest.le_of_mem v hv
            omega
      have hall : ∀ v ∈ u :: us, pts < v.pts := by
        intro v hv
        rcases List.mem_cons.1 hv with rfl | hv
        · exact hlt
        · have hvle := hrest.le_of_mem v hv
          omega
      rw [above_eq_self hall, heq]
      exact ⟨hstart, hleu, hrest⟩
    · have hdrop : above pts (u :: us) = above pts us := by
        simp [above, hlt]
      rw [hdrop]
      refine ih hrest (by omega) ?_
      rcases hpts with heq | ⟨v, hv, hvp⟩
      · left
        omega
      · grind

theorem ptsReachedBy_append (us vs : List Update) (reached : Int) :
    ptsReachedBy reached (us ++ vs) = ptsReachedBy (ptsReachedBy reached us) vs :=
  List.foldl_append

end Chains

/-! ## Copies of the updates of a chain -/

theorem pts_of_fields {u v : Update} (h : Update.fields u = Update.fields v) :
    u.pts = v.pts ∧ u.ptsCount = v.ptsCount := by
  have hpts : u.ptsFields = v.ptsFields := Update.ptsFields_congr h
  unfold Update.pts Update.ptsCount
  rw [hpts]
  exact ⟨rfl, rfl⟩

/-- These updates are copies of updates of the chain. -/
def Among (us chain : List Update) : Prop :=
  ∀ u ∈ us, ∃ v ∈ chain, Update.fields v = Update.fields u

theorem Among.of_subset {us vs chain : List Update} (h : Among vs chain)
    (hsub : ∀ u ∈ us, u ∈ vs) : Among us chain :=
  fun u hu => h u (hsub u hu)

theorem among_of_fields {us chain : List Update}
    (h : us.map Update.fields = chain.map Update.fields) : Among us chain := by
  intro u hu
  have hmem := List.mem_map_of_mem (f := Update.fields) hu
  rw [h] at hmem
  exact List.mem_map.1 hmem

theorem Among.hasPts {us chain : List Update} (h : Among us chain)
    (hchain : ∀ v ∈ chain, v.hasPts = true) : ∀ u ∈ us, u.hasPts = true := by
  intro u hu
  obtain ⟨v, hv, hfields⟩ := h u hu
  have hpts := hchain v hv
  unfold Update.hasPts at hpts ⊢
  rwa [← Update.ptsFields_congr hfields]

theorem Among.noQts {us chain : List Update} (h : Among us chain)
    (hchain : ∀ v ∈ chain, v.hasQts = false) : ∀ u ∈ us, u.hasQts = false := by
  intro u hu
  obtain ⟨v, hv, hfields⟩ := h u hu
  have hqts := hchain v hv
  unfold Update.hasQts at hqts ⊢
  rwa [← Update.qtsField_congr hfields]

/-- A copy of this update is among those. -/
def Holds (us : List Update) (u : Update) : Prop := Update.fields u ∈ us.map Update.fields

theorem holds_iff {us : List Update} :
    Holds us u ↔ ∃ v ∈ us, Update.fields v = Update.fields u := by
  simp [Holds]

theorem holds_append {us vs : List Update} :
    Holds (us ++ vs) u ↔ Holds us u ∨ Holds vs u := by
  simp [Holds]

theorem givesUp_fields (unknown : Update → Bool) (us : List Update) :
    givesUp unknown us = (us.map Update.fields).any unknown := by
  unfold givesUp
  rw [List.any_map]
  rfl

section Requests

variable {w : World} {path : Path} {actor : Actor} {batches : List Updates}
  {fails : List Update → Bool}

theorem requestActor_new (hreg : w.registered .withPts = none) :
    World.requestActor w .withPts batches fails =
      w.setActor .withPts (some { updateList := batches }) := by
  simp [World.requestActor, hreg]

theorem requestActor_applying (hreg : w.registered path = some actor) {app : Application}
    (happlying : actor.applying = some app) :
    World.requestActor w path batches fails =
      w.setActor path (some { actor with
        waitingForApplyUpdatesQueue := actor.waitingForApplyUpdatesQueue ++ batches }) := by
  simp [World.requestActor, hreg, happlying]

theorem requestActor_waiting (hreg : w.registered path = some actor)
    (hidle : actor.applying = none) (hexecuting : w.executing ≠ some (.tryUpdates path)) :
    World.requestActor w path batches fails =
      w.setActor path (some { actor with updateList := actor.updateList ++ batches }) := by
  simp [World.requestActor, hreg, hidle, hexecuting, World.setActor]

/-- An actor that executes checks its updates at once. -/
theorem requestActor_executing (hreg : w.registered path = some actor)
    (hidle : actor.applying = none) (hexecuting : w.executing = some (.tryUpdates path)) :
    World.requestActor w path batches fails =
      (w.setActor path (some { actor with updateList := actor.updateList ++ batches })).conclude
        path fails (check w.db { actor with updateList := actor.updateList ++ batches } path) := by
  simp [World.requestActor, hreg, hidle, hexecuting, World.setActor]

end Requests

section Check

variable {db : DatabaseState} {actor actor' : Actor} {app : Application}

/-- The updates that a check sorts. -/
def sortedUpdates (actor : Actor) : List Update :=
  (collected actor.updateList).insertionSort ptsBefore

theorem mem_sortedUpdates :
    u ∈ sortedUpdates actor ↔ u ∈ collected actor.updateList :=
  (List.perm_insertionSort ptsBefore _).mem_iff

/-- What the loop of a check finds. -/
def inOrder (db : DatabaseState) (actor : Actor) : List Update :=
  (checkLoop Update.pts Update.ptsCount db.pts db.pts (sortedUpdates actor)).inOrder

def expired (db : DatabaseState) (actor : Actor) : List Update :=
  (checkLoop Update.pts Update.ptsCount db.pts db.pts (sortedUpdates actor)).expired

theorem checkLoop_expired {value step : Update → Int} {base : Int} :
    ∀ (us : List Update) (current : Int),
      ∀ u ∈ (checkLoop value step base current us).expired, value u ≤ base := by
  intro us
  induction us with
  | nil => intro current u hu; cases hu
  | cons v us ih =>
    intro current u hu
    unfold checkLoop at hu
    split at hu
    · grind
    · split at hu
      · exact ih _ u hu
      · cases hu

/-- An update that is neither in order nor expired keeps its batch. -/
theorem mem_removeCovered_of_mem {covered : List Update} {list : List Updates}
    (h : u ∈ collected list) (hu : u ∉ covered) : u ∈ collected (removeCovered covered list) := by
  obtain ⟨batch, hbatch, hin⟩ := List.mem_flatMap.1 h
  refine List.mem_flatMap.2 ⟨batch, List.mem_filter.2 ⟨hbatch, ?_⟩, hin⟩
  have hnot : batch.updates.all (covered.contains ·) = false := by
    rw [List.all_eq_false]
    exact ⟨u, hin, by simpa using hu⟩
  rw [hnot, Bool.and_false, Bool.not_false]

theorem check_withPts : check db actor .withPts =
    if actor.updateList.isEmpty then .completed
    else
      let updateList := removeCovered (inOrder db actor) (removeCovered (expired db actor)
        actor.updateList)
      let next := { actor with
        updateList
        timeoutTimer := actor.timeoutTimer ||
          (checkLoop Update.pts Update.ptsCount db.pts db.pts (sortedUpdates actor)).missing }
      if (inOrder db actor).isEmpty then
        if updateList.isEmpty then .completed else .waiting next
      else .applying next (application (inOrder db actor) 0 0) :=
  rfl

theorem inOrder_subset (h : u ∈ inOrder db actor) :
    u ∈ collected actor.updateList ∧ db.pts < u.pts :=
  ⟨mem_sortedUpdates.1 ((checkLoop_sublist _ _).subset h), checkLoop_above _ _ u h⟩

theorem inOrder_continues (hdb : 0 ≤ db.pts) : PtsContinues db.pts (inOrder db actor) := by
  apply checkLoop_continues hdb Update.pts_lt Update.ptsCount_range _ _ (le_refl _)
    (pairwise_insertionSort_pts _)
  intro u _ hu
  omega

theorem collected_rest (h : u ∈ collected actor.updateList) (habove : db.pts < u.pts)
    (hnot : u ∉ inOrder db actor) :
    u ∈ collected (removeCovered (inOrder db actor)
      (removeCovered (expired db actor) actor.updateList)) := by
  refine mem_removeCovered_of_mem (mem_removeCovered_of_mem h fun hexpired => ?_) hnot
  have hle := checkLoop_expired _ _ u hexpired
  omega

/-- A check that is done with the actor has found nothing in order, and held nothing above
the stored `pts`. -/
theorem check_completed (h : check db actor .withPts = .completed) :
    inOrder db actor = [] ∧ ∀ u ∈ collected actor.updateList, u.pts ≤ db.pts := by
  rw [check_withPts] at h
  cases hempty : actor.updateList with
  | nil =>
    have hnone : inOrder db actor = [] := by
      have hcollected : sortedUpdates actor = [] := by
        simp [sortedUpdates, hempty, collected]
      simp [inOrder, hcollected, checkLoop]
    exact ⟨hnone, fun u hu => by cases hu⟩
  | cons batch list =>
    rw [← hempty]
    simp only [hempty, List.isEmpty_cons, Bool.false_eq_true, if_false] at h
    split at h
    · rename_i hnone
      split at h
      · rename_i hgone
        rw [List.isEmpty_iff] at hnone hgone
        refine ⟨hnone, fun u hu => ?_⟩
        by_contra hle
        have habove : db.pts < u.pts := by omega
        have hrest := collected_rest hu habove (by rw [hnone]; simp)
        rw [hempty, hgone] at hrest
        cases hrest
      · cases h
    · cases h

theorem check_waiting (h : check db actor .withPts = .waiting actor') :
    inOrder db actor = [] ∧ Narrows actor' actor ∧
      ∀ u ∈ collected actor.updateList, db.pts < u.pts → u ∈ collected actor'.updateList := by
  have hnarrows := check_waits h
  rw [check_withPts] at h
  split at h
  · cases h
  · grind [collected_rest]

theorem check_applying (h : check db actor .withPts = .applying actor' app) :
    inOrder db actor ≠ [] ∧ app = application (inOrder db actor) 0 0 ∧ Narrows actor' actor ∧
      ∀ u ∈ collected actor.updateList, db.pts < u.pts → u ∉ inOrder db actor →
        u ∈ collected actor'.updateList := by
  have hnarrows := (check_applies h).narrows
  rw [check_withPts] at h
  split at h
  · cases h
  · grind [collected_rest]

/-- The next update of the chain is found, if it is held and nothing else has its `pts`. -/
theorem checkLoop_finds {base : Int} {next : Update} (hnext : base + next.ptsCount = next.pts)
    (hbase : 0 ≤ base) (hlt : base < next.pts) :
    ∀ us : List Update, us.Pairwise (fun u v => u.pts ≤ v.pts) → next ∈ us →
      (∀ u ∈ us, base < u.pts →
        next.pts ≤ u.pts ∧ (u.pts = next.pts → u.ptsCount = next.ptsCount)) →
      (checkLoop Update.pts Update.ptsCount base base us).inOrder ≠ [] := by
  intro us
  induction us with
  | nil => exact fun _ hmem => by cases hmem
  | cons u us ih =>
    intro hsorted hmem hall
    obtain ⟨hfirst, hrest⟩ := List.pairwise_cons.1 hsorted
    unfold checkLoop
    by_cases hstale : u.pts ≤ base
    · grind
    · have hu := hall u (.head _) (by omega)
      have hle : u.pts ≤ next.pts := by
        grind
      have heq : u.pts = next.pts := by omega
      have hcount := hu.2 heq
      have hpts := Update.pts_lt u
      have hsum : int32 (base + u.ptsCount) = u.pts := by
        rw [int32_of_range (by omega) (by omega)]
        omega
      rw [if_neg hstale, if_pos hsum]
      exact List.cons_ne_nil _ _

end Check

end TelegramPub.Ports.PtsBatches
