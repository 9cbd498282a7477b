import TelegramPub.Ports.ApplyUpdates
import Mathlib.Data.List.Flatten
import Mathlib.Data.List.Induction
import Mathlib.Data.List.Perm.Subperm

/-!
# The chain of pts

The log of a run says which updates were applied and where the full difference
was fetched.  The updates with a `pts` in it should form a chain: each begins
where the history stood (`u.pts - u.ptsCount`), so that no update is missed and
none is applied twice, and the stored `pts` is always the end of the chain.

The chain holds as long as the updates with a `pts` go to the actor `withPts`
and nowhere else, and the timer of that actor does not fire while an
application is under way (`run_ptsHistory`).  A timer that fires then completes
the action: the queue goes on, and the application, when it ends, stores a
`pts` that is no longer the next one (`timeout_while_applying`).  `watcherJoined`
waits for the application, `timeoutReached` does not.
-/

namespace TelegramPub.Ports.ApplyUpdatesSafety

open Verified.Bytes Verified.Machine Ports.ApplyUpdates

/-- Each update continues the number reached before it. -/
def Continues (value step : Update → Int) : Int → List Update → Prop
  | _, [] => True
  | reached, u :: us =>
    value u - step u = reached ∧ reached ≤ value u ∧ Continues value step (value u) us

/-- The number reached after the updates. -/
def reachedBy (value : Update → Int) (reached : Int) (us : List Update) : Int :=
  us.foldl (fun _ u => value u) reached

theorem Continues.le_reachedBy {value step : Update → Int} :
    ∀ {us : List Update} {reached : Int}, Continues value step reached us →
      reached ≤ reachedBy value reached us ∧
        ∀ u ∈ us, value u ≤ reachedBy value reached us := by
  intro us
  induction us with
  | nil => intro reached _; exact ⟨le_refl _, fun u hu => by cases hu⟩
  | cons v us ih =>
    intro reached h
    obtain ⟨_, hle, hrest⟩ := h
    obtain ⟨hreached, hall⟩ := ih hrest
    refine ⟨hle.trans hreached, ?_⟩
    intro u hu
    rcases List.mem_cons.1 hu with rfl | hu
    · exact hreached
    · exact hall u hu

/-- The history of a run from the `pts` it began with: where an entry leaves
it. -/
def ptsStep (reached : Int) : Entry → Int
  | .applied _ u => if u.hasPts then u.pts else reached
  | .difference pts => pts

def ptsReached (reached : Int) (log : List Entry) : Int := log.foldl ptsStep reached

/-- An applied update with a `pts` begins where the history stood and does not
go back. -/
def EntryContinues (reached : Int) : Entry → Prop
  | .applied _ u => u.hasPts = true → u.pts - u.ptsCount = reached ∧ reached ≤ u.pts
  | .difference _ => True

def PtsChained : Int → List Entry → Prop
  | _, [] => True
  | reached, entry :: log => EntryContinues reached entry ∧ PtsChained (ptsStep reached entry) log

theorem ptsReached_append (reached : Int) (log log' : List Entry) :
    ptsReached reached (log ++ log') = ptsReached (ptsReached reached log) log' :=
  List.foldl_append

theorem ptsChained_append :
    ∀ (log log' : List Entry) (reached : Int), PtsChained reached (log ++ log') ↔
      PtsChained reached log ∧ PtsChained (ptsReached reached log) log' := by
  intro log
  induction log with
  | nil => intro log' reached; simp [PtsChained, ptsReached]
  | cons entry log ih =>
    intro log' reached
    simp only [List.cons_append, PtsChained, ih, and_assoc]
    rfl

/-- The updates with a `pts` a log says were applied. -/
def appliedPts (log : List Entry) : List Update :=
  log.filterMap fun
    | .applied _ u => if u.hasPts then some u else none
    | .difference _ => none

/-- The same since the difference was last fetched. -/
def sinceDifference (log : List Entry) : List Update :=
  log.foldl (fun us entry =>
    match entry with
    | .applied _ u => if u.hasPts then us ++ [u] else us
    | .difference _ => []) []

/-- The fields of an update without its identity.  Two updates with the same are
copies of each other. -/
def Update.fields (u : Update) : Update := { u with object := 0 }

theorem Update.ptsFields_congr {u v : Update} (h : Update.fields u = Update.fields v) :
    u.ptsFields = v.ptsFields := by
  have hpts := congrArg ApplyUpdates.Update.ptsFields h
  exact hpts

theorem Update.qtsField_congr {u v : Update} (h : Update.fields u = Update.fields v) :
    u.qtsField = v.qtsField := by
  have hqts := congrArg ApplyUpdates.Update.qtsField h
  exact hqts

/-- The log is a chain from `p0` to the stored `pts`.  No update object is
applied twice, and no copy of an update either, unless a difference came
between. -/
structure PtsHistory (p0 : Int) (w : World) : Prop where
  chained : PtsChained p0 w.log
  stored : w.db.pts = ptsReached p0 w.log
  objects : ((appliedPts w.log).map Update.object).Nodup
  copies : ((sinceDifference w.log).map Update.fields).Nodup

theorem PtsHistory.congr {p0 : Int} {w w' : World} (h : PtsHistory p0 w)
    (hpts : w'.db.pts = w.db.pts) (hlog : w'.log = w.log) : PtsHistory p0 w' where
  chained := hlog ▸ h.chained
  stored := by rw [hpts, hlog, h.stored]
  objects := hlog ▸ h.objects
  copies := hlog ▸ h.copies

section Log

variable {path : Path} {us : List Update}

theorem sinceDifference_append_applied (log : List Entry) (path : Path) (us : List Update) :
    sinceDifference (log ++ us.map (.applied path)) =
      sinceDifference log ++ us.filter (·.hasPts) := by
  induction us using List.reverseRecOn with
  | nil => simp
  | append_singleton us u ih =>
    grind [sinceDifference]

theorem appliedPts_append (log log' : List Entry) :
    appliedPts (log ++ log') = appliedPts log ++ appliedPts log' := List.filterMap_append

theorem appliedPts_applied (path : Path) (us : List Update) :
    appliedPts (us.map (.applied path)) = us.filter (·.hasPts) := by
  induction us with
  | nil => rfl
  | cons u us ih =>
    unfold appliedPts at ih ⊢
    cases h : u.hasPts <;> simp [h, ih]

/-- Nothing applied since the last difference lies above the end of the
chain. -/
theorem sinceDifference_le (p0 : Int) (log : List Entry) (h : PtsChained p0 log) :
    ∀ u ∈ sinceDifference log, u.pts ≤ ptsReached p0 log := by
  induction log using List.reverseRecOn with
  | nil => intro u hu; cases hu
  | append_singleton log entry ih =>
    obtain ⟨hlog, hentry, -⟩ := (ptsChained_append _ _ _).1 h
    intro u hu
    rw [ptsReached_append]
    unfold sinceDifference at hu ih
    rw [List.foldl_append] at hu
    cases entry with
    | difference pts => cases hu
    | applied path v =>
      cases hv : v.hasPts with
      | false =>
        grind [ptsReached, ptsStep]
      | true =>
        have hle := (hentry hv).2
        simp only [List.foldl_cons, List.foldl_nil, hv, if_true] at hu
        simp only [ptsReached, List.foldl_cons, List.foldl_nil, ptsStep, hv, if_true]
        rcases List.mem_append.1 hu with hu | hu
        · exact (ih hlog u hu).trans hle
        · rw [List.mem_singleton.1 hu]

theorem Continues.chained :
    ∀ {us : List Update} {reached : Int}, (∀ u ∈ us, u.hasPts = true) →
      Continues Update.pts Update.ptsCount reached us →
      PtsChained reached (us.map (.applied path)) ∧
        ptsReached reached (us.map (.applied path)) = reachedBy Update.pts reached us := by
  intro us
  induction us with
  | nil => intro reached _ _; exact ⟨trivial, rfl⟩
  | cons u us ih =>
    intro reached hpts h
    have hu := hpts u (.head _)
    obtain ⟨hchained, hreached⟩ := ih (fun v hv => hpts v (.tail _ hv)) h.2.2
    have hstep : ptsStep reached (.applied path u) = u.pts := by simp [ptsStep, hu]
    refine ⟨⟨fun _ => ⟨h.1, h.2.1⟩, ?_⟩, ?_⟩
    · rw [hstep]
      exact hchained
    · change ptsReached (ptsStep reached (.applied path u)) _ = _
      rw [hstep, hreached]
      rfl

theorem ptsChained_of_noPts :
    ∀ {us : List Update} {reached : Int}, (∀ u ∈ us, u.hasPts = false) →
      PtsChained reached (us.map (.applied path)) ∧
        ptsReached reached (us.map (.applied path)) = reached := by
  intro us
  induction us with
  | nil => intro reached _; exact ⟨trivial, rfl⟩
  | cons u us ih =>
    intro reached hpts
    have hu := hpts u (.head _)
    have hstep : ptsStep reached (.applied path u) = reached := by simp [ptsStep, hu]
    obtain ⟨hchained, hreached⟩ :=
      @ih reached fun v hv => hpts v (.tail _ hv)
    refine ⟨⟨fun h => ?_, ?_⟩, ?_⟩
    · rw [hu] at h
      cases h
    · rw [hstep]
      exact hchained
    · change ptsReached (ptsStep reached (.applied path u)) _ = _
      rw [hstep, hreached]

end Log

section Loop

variable {value step : Update → Int} {db : Int}

theorem checkLoop_sublist :
    ∀ (us : List Update) (current : Int),
      (checkLoop value step db current us).inOrder.Sublist us := by
  intro us
  induction us with
  | nil => intro current; exact List.Sublist.refl _
  | cons u us ih =>
    intro current
    unfold checkLoop
    split
    · exact (ih current).cons u
    · grind

theorem checkLoop_above :
    ∀ (us : List Update) (current : Int),
      ∀ u ∈ (checkLoop value step db current us).inOrder, db < value u := by
  intro us
  induction us with
  | nil => intro current u hu; cases hu
  | cons v us ih =>
    intro current u hu
    unfold checkLoop at hu
    split at hu
    · exact ih current u hu
    · grind

/-- The updates a pass finds in order continue the current number.  The list is
sorted, so no number goes back, and the addition does not overflow. -/
theorem checkLoop_continues (hdb : 0 ≤ db) (hvalue : ∀ u, value u < 2 ^ 31)
    (hstep : ∀ u, -(2 ^ 31) ≤ step u ∧ step u < 2 ^ 31) :
    ∀ (us : List Update) (current : Int), db ≤ current →
      us.Pairwise (fun u v => value u ≤ value v) →
      (∀ u ∈ us, db < value u → current ≤ value u) →
      Continues value step current (checkLoop value step db current us).inOrder := by
  intro us
  induction us with
  | nil => intro current _ _ _; trivial
  | cons u us ih =>
    intro current hcurrent hsorted habove
    obtain ⟨hfirst, hrest⟩ := List.pairwise_cons.1 hsorted
    unfold checkLoop
    split
    · exact ih current hcurrent hrest fun v hv => habove v (.tail _ hv)
    · rename_i hdbu
      split
      · rename_i heq
        have hle : current ≤ value u := habove u (.head _) (by omega)
        have hsum : current + step u = value u := by
          have hlt := hvalue u
          have hs := hstep u
          rw [int32_eq_ite] at heq
          split at heq <;> omega
        refine ⟨by omega, hle, ih (value u) (by omega) hrest ?_⟩
        intro v hv _
        exact hfirst v hv
      · trivial

end Loop

/-- The updates an actor has collected. -/
def collected (batches : List Updates) : List Update := batches.flatMap (·.updates)

theorem collected_append (xs ys : List Updates) :
    collected (xs ++ ys) = collected xs ++ collected ys := List.flatMap_append

theorem collected_subset {xs ys : List Updates} (h : xs.Sublist ys) :
    ∀ u ∈ collected xs, u ∈ collected ys := by
  intro u hu
  obtain ⟨batch, hbatch, hin⟩ := List.mem_flatMap.1 hu
  exact List.mem_flatMap.2 ⟨batch, h.subset hbatch, hin⟩

/-- A check only drops batches. -/
structure Narrows (actor' actor : Actor) : Prop where
  updateList : actor'.updateList.Sublist actor.updateList
  waiting : actor'.waitingForApplyUpdatesQueue = actor.waitingForApplyUpdatesQueue
  applying : actor'.applying = actor.applying

theorem removeCovered_sublist (covered : List Update) (list : List Updates) :
    (removeCovered covered list).Sublist list := List.filter_sublist

theorem seqLoop_subset :
    ∀ (batches : List Updates) (current : Int),
      ∀ batch ∈ (seqLoop current batches).1, batch ∈ batches := by
  intro batches
  induction batches with
  | nil => intro current batch h; cases h
  | cons first batches ih =>
    intro current batch h
    unfold seqLoop at h
    split at h
    · grind
    · exact .tail _ (ih _ batch h)

theorem wrappedUpdates_subset {batches list : List Updates} (h : ∀ batch ∈ batches, batch ∈ list) :
    ∀ u ∈ (wrappedUpdates batches).map (·.1), u ∈ collected list := by
  intro u hu
  obtain ⟨pair, hpair, rfl⟩ := List.mem_map.1 hu
  obtain ⟨batch, hbatch, hin⟩ := List.mem_flatMap.1 hpair
  obtain ⟨v, hv, rfl⟩ := List.mem_map.1 hin
  exact List.mem_flatMap.2 ⟨batch, h batch hbatch, hv⟩

/-- What a check that begins an application does. -/
structure Applies (actor : Actor) (actor' : Actor) (app : Application) : Prop where
  narrows : Narrows actor' actor
  updates : ∀ u ∈ app.updates, u ∈ collected actor.updateList
  statePts : app.statePts = (application app.updates 0 0).statePts

theorem checkExpiring_applies {value step : Update → Int} {before : Update → Update → Prop}
    [DecidableRel before] {databaseValue : Int} {actor actor' : Actor} {app : Application}
    (h : checkExpiring value step before databaseValue actor = .applying actor' app) :
    Applies actor actor' app ∧ app.updates = (checkLoop value step databaseValue databaseValue
      ((collected actor.updateList).insertionSort before)).inOrder ∧ app.updates ≠ [] := by
  unfold checkExpiring at h
  split at h
  · cases h
  · dsimp only at h
    split at h
    · split at h <;> cases h
    · rename_i hne
      cases h
      refine ⟨⟨⟨?_, rfl, rfl⟩, ?_, rfl⟩, rfl, ?_⟩
      · exact (removeCovered_sublist _ _).trans (removeCovered_sublist _ _)
      · intro u hu
        exact (List.perm_insertionSort before _).subset
          ((checkLoop_sublist _ _).subset hu)
      · intro hnil
        exact hne (List.isEmpty_iff.2 hnil)

theorem checkExpiring_waiting {value step : Update → Int} {before : Update → Update → Prop}
    [DecidableRel before] {databaseValue : Int} {actor actor' : Actor}
    (h : checkExpiring value step before databaseValue actor = .waiting actor') :
    Narrows actor' actor := by
  unfold checkExpiring at h
  split at h
  · cases h
  · dsimp only at h
    split at h
    · split at h
      · cases h
      · cases h
        exact ⟨(removeCovered_sublist _ _).trans (removeCovered_sublist _ _), rfl, rfl⟩
    · cases h

theorem check_applies {db : DatabaseState} {path : Path} {actor actor' : Actor}
    {app : Application} (h : check db actor path = .applying actor' app) :
    Applies actor actor' app := by
  cases path with
  | withPts => exact (checkExpiring_applies h).1
  | withQts => exact (checkExpiring_applies h).1
  | withSeq =>
    change checkSeqUpdates db actor = _ at h
    unfold checkSeqUpdates at h
    split at h
    · cases h
    · dsimp only at h
      split at h
      · split at h <;> cases h
      · cases h
        refine ⟨⟨List.filter_sublist, rfl, rfl⟩, ?_, rfl⟩
        apply wrappedUpdates_subset
        intro batch hbatch
        exact (List.perm_insertionSort seqBefore _).subset (seqLoop_subset _ _ batch hbatch)
  | withDate =>
    simp only [check] at h
    split at h
    · cases h
    · cases h
      refine ⟨⟨List.Sublist.refl _, rfl, rfl⟩, ?_, rfl⟩
      apply wrappedUpdates_subset
      intro batch hbatch
      exact (List.perm_insertionSort _ _).subset hbatch

theorem check_waits {db : DatabaseState} {path : Path} {actor actor' : Actor}
    (h : check db actor path = .waiting actor') : Narrows actor' actor := by
  cases path with
  | withPts => exact checkExpiring_waiting h
  | withQts => exact checkExpiring_waiting h
  | withSeq =>
    change checkSeqUpdates db actor = _ at h
    unfold checkSeqUpdates at h
    split at h
    · cases h
    · dsimp only at h
      split at h
      · split at h
        · cases h
        · cases h
          exact ⟨List.filter_sublist, rfl, rfl⟩
      · cases h
  | withDate =>
    simp only [check] at h
    split at h <;> cases h

theorem Update.pts_lt (u : Update) : u.pts < 2 ^ 31 := by
  unfold Update.pts
  cases u.ptsFields with
  | none => decide
  | some fields => exact fields.1.toInt_lt

theorem Update.ptsCount_range (u : Update) : -(2 ^ 31) ≤ u.ptsCount ∧ u.ptsCount < 2 ^ 31 := by
  unfold Update.ptsCount
  cases u.ptsFields with
  | none => decide
  | some fields => exact ⟨fields.2.le_toInt, fields.2.toInt_lt⟩

theorem pairwise_insertionSort_pts (us : List Update) :
    (us.insertionSort ptsBefore).Pairwise fun u v => u.pts ≤ v.pts := by
  have htotal : Std.Total ptsBefore := ⟨by intro u v; unfold ptsBefore; omega⟩
  have htrans : IsTrans Update ptsBefore := ⟨by intro u v x; unfold ptsBefore; omega⟩
  apply (List.pairwise_insertionSort ptsBefore us).imp
  intro u v h
  unfold ptsBefore at h
  omega

/-- The updates the actor `withPts` applies continue the stored `pts`. -/
theorem checkPts_applies {db : DatabaseState} {actor actor' : Actor} {app : Application}
    (hdb : 0 ≤ db.pts) (h : check db actor .withPts = .applying actor' app) :
    Continues Update.pts Update.ptsCount db.pts app.updates ∧
      (∀ u ∈ app.updates, db.pts < u.pts) ∧ app.updates ≠ [] ∧
      app.updates.Sublist ((collected actor.updateList).insertionSort ptsBefore) := by
  obtain ⟨_, heq, hne⟩ := checkExpiring_applies h
  rw [heq] at hne ⊢
  refine ⟨?_, checkLoop_above _ _, hne, checkLoop_sublist _ _⟩
  apply checkLoop_continues hdb Update.pts_lt Update.ptsCount_range _ _ (le_refl _)
    (pairwise_insertionSort_pts _)
  intro u _ hu
  omega

/-- The greatest of numbers that only grow is the last. -/
theorem foldl_max_eq_reachedBy {value step : Update → Int} {has : Update → Bool}
    {us : List Update} {stored : Int} (hstored : 0 ≤ stored) (hne : us ≠ [])
    (hhas : ∀ u ∈ us, has u = true) (habove : ∀ u ∈ us, stored < value u)
    (h : Continues value step stored us) :
    us.foldl (fun most u => if has u then max most (value u) else most) 0 =
      reachedBy value stored us ∧ 0 < reachedBy value stored us := by
  have hfold : ∀ (us : List Update) (reached : Int), (∀ u ∈ us, has u = true) →
      Continues value step reached us →
      us.foldl (fun most u => if has u then max most (value u) else most) reached =
        reachedBy value reached us := by
    intro us
    induction us with
    | nil => intro reached _ _; rfl
    | cons u us ih =>
      intro reached hhas hcontinues
      rw [List.foldl_cons, if_pos (hhas u (.head _)), max_eq_right hcontinues.2.1]
      exact ih (value u) (fun v hv => hhas v (.tail _ hv)) hcontinues.2.2
  cases us with
  | nil => exact absurd rfl hne
  | cons u us =>
    have hu := habove u (.head _)
    have hmax : max 0 (value u) = value u := by omega
    refine ⟨?_, ?_⟩
    · rw [List.foldl_cons, if_pos (hhas u (.head _)), hmax]
      exact hfold us (value u) (fun v hv => hhas v (.tail _ hv)) h.2.2
    · have hreach := h.le_reachedBy.2 u (.head _)
      omega

theorem foldl_max_eq_zero {value : Update → Int} {has : Update → Bool} {us : List Update}
    (h : ∀ u ∈ us, has u = false) :
    us.foldl (fun most u => if has u then max most (value u) else most) 0 = 0 := by
  induction us with
  | nil => rfl
  | cons u us ih =>
    rw [List.foldl_cons, h u (.head _)]
    exact ih fun v hv => h v (.tail _ hv)

/-! ## What the actors hold -/

/-- The updates that leave the `pts` where it is. -/
def standing (us : List Update) : List Update := us.filter (·.ptsCount = 0)

/-- Updates for the actor `withPts`: known objects, each once, and no copies of
an update that leaves the `pts` where it is. -/
structure Pool (next : Nat) (us : List Update) : Prop where
  hasPts : ∀ u ∈ us, u.hasPts = true
  objects : (us.map Update.object).Nodup
  known : ∀ u ∈ us, u.object < next
  copies : ((standing us).map Update.fields).Nodup

theorem nodup_map_of_subperm {α β : Type*} {f : α → β} {us vs : List α}
    (h : us.Subperm vs) (hnodup : (vs.map f).Nodup) : (us.map f).Nodup := by
  obtain ⟨l, hperm, hsub⟩ := h
  exact (hperm.map f).nodup_iff.1 (hnodup.sublist (hsub.map f))

theorem Pool.subperm {next : Nat} {us vs : List Update} (hpool : Pool next vs)
    (h : us.Subperm vs) : Pool next us where
  hasPts := fun u hu => hpool.hasPts u (h.subset hu)
  objects := nodup_map_of_subperm h hpool.objects
  known := fun u hu => hpool.known u (h.subset hu)
  copies := nodup_map_of_subperm (h.filter _) hpool.copies

theorem Continues.le_of_mem {value step : Update → Int} :
    ∀ {us : List Update} {reached : Int}, Continues value step reached us →
      ∀ u ∈ us, reached ≤ value u := by
  intro us
  induction us with
  | nil => intro reached _ u hu; cases hu
  | cons v us ih =>
    intro reached h u hu
    rcases List.mem_cons.1 hu with rfl | hu
    · exact h.2.1
    · exact h.2.1.trans (ih h.2.2 u hu)

/-- Only an update that does not advance the number repeats it. -/
theorem Continues.step_eq_zero {value step : Update → Int} :
    ∀ {us : List Update} {reached : Int}, Continues value step reached us →
      ∀ u ∈ us, value u = reached → step u = 0 := by
  intro us
  induction us with
  | nil => intro reached _ u hu; cases hu
  | cons v us ih =>
    intro reached h u hu heq
    obtain ⟨hstep, hle, hrest⟩ := h
    rcases List.mem_cons.1 hu with rfl | hu
    · omega
    · have hv := hrest.le_of_mem u hu
      exact ih hrest u hu (by omega)

theorem Continues.fields_nodup :
    ∀ {us : List Update} {reached : Int}, Continues Update.pts Update.ptsCount reached us →
      ((standing us).map Update.fields).Nodup → (us.map Update.fields).Nodup := by
  intro us
  induction us with
  | nil => intro reached _ _; exact List.nodup_nil
  | cons u us ih =>
    intro reached h hcopies
    have hrest : ((standing us).map Update.fields).Nodup :=
      nodup_map_of_subperm ((List.sublist_cons_self u us).filter _).subperm hcopies
    refine List.nodup_cons.2 ⟨?_, ih h.2.2 hrest⟩
    intro hmem
    obtain ⟨v, hv, hfields⟩ := List.mem_map.1 hmem
    have hptsFields : v.ptsFields = u.ptsFields := Update.ptsFields_congr hfields
    have hvcount : v.ptsCount = 0 := by
      apply h.2.2.step_eq_zero v hv
      unfold Update.pts
      rw [hptsFields]
    have hucount : u.ptsCount = 0 := by
      rw [← hvcount]
      unfold Update.ptsCount
      rw [hptsFields]
    have hstanding : standing (u :: us) = u :: standing us := by
      simp [standing, hucount]
    rw [hstanding] at hcopies
    apply (List.nodup_cons.1 hcopies).1
    rw [← hfields]
    exact List.mem_map_of_mem (List.mem_filter.2 ⟨hv, by simpa using hvcount⟩)

/-- Everything an actor holds that is not being applied. -/
def carried (actor : Actor) : List Update :=
  collected (actor.updateList ++ actor.waitingForApplyUpdatesQueue)

/-- An application of updates without a `pts`. -/
structure AppliesNoPts (app : Application) : Prop where
  hasPts : ∀ u ∈ app.updates, u.hasPts = false
  statePts : app.statePts = 0

structure NoPts (actor : Actor) : Prop where
  carried : ∀ u ∈ carried actor, u.hasPts = false
  applying : ∀ app, actor.applying = some app → AppliesNoPts app

/-- An application of the actor `withPts` in a world with this log and stored
`pts`. -/
structure AppliesPts (pts : Int) (log : List Entry) (next : Nat) (app : Application) : Prop where
  pool : Pool next app.updates
  continues : Continues Update.pts Update.ptsCount pts app.updates
  above : ∀ u ∈ app.updates, pts < u.pts
  nonempty : app.updates ≠ []
  statePts : app.statePts = (application app.updates 0 0).statePts
  fresh : ∀ u ∈ app.updates, u.object ∉ (appliedPts log).map Update.object

/-- The actor `withPts`.  It may hold on to updates that are applied (a batch
goes when all of it is), but then it executes, so the stored `pts` covers
them. -/
structure PtsActor (pts : Int) (executes : Prop) (log : List Entry) (next : Nat)
    (actor : Actor) : Prop where
  pool : Pool next (carried actor)
  done : ∀ u ∈ carried actor, u.object ∈ (appliedPts log).map Update.object →
    executes ∧ u.pts ≤ pts
  applying : ∀ app, actor.applying = some app → executes ∧ AppliesPts pts log next app
  same : ∀ app, actor.applying = some app →
    ∀ u ∈ carried actor, ∀ v ∈ app.updates, u.object = v.object → u = v

/-- What the actor of a path may be. -/
def Fits (w : World) : Path → Actor → Prop
  | .withPts, actor => PtsActor w.db.pts (w.executing = some (.tryUpdates .withPts)) w.log
      w.nextObject actor
  | _, actor => NoPts actor

/-- The invariant of a run that begins with `p0` stored. -/
structure PtsInv (p0 : Int) (w : World) : Prop where
  history : PtsHistory p0 w
  nonneg : 0 ≤ w.db.pts
  known : ∀ u ∈ appliedPts w.log, u.object < w.nextObject
  registered : ∀ path actor, w.registered path = some actor → Fits w path actor
  detached : ∀ entry ∈ w.detached, entry.1 ≠ .withPts ∧ NoPts entry.2

section Steps

variable {p0 : Int} {w : World} {path : Path} {actor actor' : Actor} {app : Application}

theorem carried_sublist (h : Narrows actor' actor) :
    (carried actor').Sublist (carried actor) := by
  unfold carried collected
  rw [h.waiting]
  exact (h.updateList.append (List.Sublist.refl _)).flatMap _

theorem NoPts.narrows (hactor : NoPts actor) (h : Narrows actor' actor) : NoPts actor' where
  carried := fun u hu => hactor.carried u ((carried_sublist h).subset hu)
  applying := by
    rw [h.applying]
    exact hactor.applying

theorem PtsActor.narrows {pts : Int} {executes : Prop} {log : List Entry} {next : Nat}
    (hactor : PtsActor pts executes log next actor) (h : Narrows actor' actor) :
    PtsActor pts executes log next actor' where
  pool := hactor.pool.subperm (carried_sublist h).subperm
  done := fun u hu => hactor.done u ((carried_sublist h).subset hu)
  applying := by
    rw [h.applying]
    exact hactor.applying
  same := by
    rw [h.applying]
    exact fun app happ u hu => hactor.same app happ u ((carried_sublist h).subset hu)

theorem Fits.narrows (hactor : Fits w path actor) (h : Narrows actor' actor) :
    Fits w path actor' := by
  cases path with
  | withPts => exact PtsActor.narrows hactor h
  | withQts => exact NoPts.narrows hactor h
  | withSeq => exact NoPts.narrows hactor h
  | withDate => exact NoPts.narrows hactor h

theorem collected_updateList (actor : Actor) :
    (collected actor.updateList).Sublist (carried actor) := by
  unfold carried
  rw [collected_append]
  exact List.sublist_append_left _ _

theorem NoPts.applies {db : DatabaseState} (hactor : NoPts actor)
    (h : check db actor path = .applying actor' app) :
    NoPts { actor' with applying := some app } := by
  have happlies := check_applies h
  have hnone : ∀ u ∈ app.updates, u.hasPts = false := fun u hu =>
    hactor.carried u ((collected_updateList actor).subset (happlies.updates u hu))
  refine ⟨(hactor.narrows happlies.narrows).carried, ?_⟩
  intro app' happ'
  cases happ'
  exact ⟨hnone, happlies.statePts.trans (foldl_max_eq_zero hnone)⟩

theorem PtsActor.applies {db : DatabaseState} {executes : Prop} {log : List Entry} {next : Nat}
    (hactor : PtsActor db.pts executes log next actor) (hexecutes : executes)
    (hdb : 0 ≤ db.pts) (h : check db actor .withPts = .applying actor' app) :
    PtsActor db.pts executes log next { actor' with applying := some app } := by
  have happlies := check_applies h
  obtain ⟨hcontinues, habove, hne, hsub⟩ := checkPts_applies hdb h
  have hnarrow := hactor.narrows happlies.narrows
  refine ⟨hnarrow.pool, hnarrow.done, ?_, ?_⟩ <;> intro app' happ' <;> cases happ'
  · refine ⟨hexecutes, ?_, hcontinues, habove, hne, happlies.statePts, ?_⟩
    · apply hactor.pool.subperm
      exact (hsub.subperm.trans (List.perm_insertionSort _ _).subperm).trans
        (collected_updateList actor).subperm
    · intro u hu hdone
      have hcarried := (collected_updateList actor).subset (happlies.updates u hu)
      have hle := (hactor.done u hcarried hdone).2
      have hlt := habove u hu
      omega
  · intro u hu v hv hobject
    exact List.inj_on_of_nodup_map hactor.pool.objects
      ((carried_sublist happlies.narrows).subset hu)
      ((collected_updateList actor).subset (happlies.updates v hv)) hobject

theorem Fits.applies (hactor : Fits w path actor) (hdb : 0 ≤ w.db.pts)
    (hexecutes : path = .withPts → w.executing = some (.tryUpdates .withPts))
    (h : check w.db actor path = .applying actor' app) :
    Fits w path { actor' with applying := some app } := by
  cases path with
  | withPts => exact PtsActor.applies hactor (hexecutes rfl) hdb h
  | withQts => exact NoPts.applies hactor h
  | withSeq => exact NoPts.applies hactor h
  | withDate => exact NoPts.applies hactor h

theorem PtsInv.setActor (h : PtsInv p0 w) (hactor : Fits w path actor) :
    PtsInv p0 (w.setActor path (some actor)) where
  history := h.history.congr rfl rfl
  nonneg := h.nonneg
  known := h.known
  registered := by
    intro path' actor' hreg
    by_cases hpath : path' = path
    · subst hpath
      simp only [World.setActor, Function.update_self, Option.some.injEq] at hreg
      subst hreg
      cases path' <;> exact hactor
    · simp only [World.setActor, Function.update_of_ne hpath] at hreg
      cases path' <;> exact h.registered _ _ hreg
  detached := h.detached

theorem fits_iff_noPts (hpath : path ≠ .withPts) : Fits w path actor ↔ NoPts actor := by
  cases path with
  | withPts => exact absurd rfl hpath
  | withQts => exact Iff.rfl
  | withSeq => exact Iff.rfl
  | withDate => exact Iff.rfl

theorem Fits.noPts (hpath : path ≠ .withPts) (hactor : Fits w path actor) : NoPts actor :=
  (fits_iff_noPts hpath).1 hactor

/-- An action that is completed does no harm, unless it is that of `withPts` and
an application is under way. -/
theorem PtsInv.completeAction (h : PtsInv p0 w)
    (hsafe : path = .withPts → ∀ actor, w.registered .withPts = some actor →
      actor.applying = none) :
    PtsInv p0 (w.completeAction path) where
  history := h.history.congr rfl rfl
  nonneg := h.nonneg
  known := h.known
  registered := by
    intro path' actor' hreg
    have hne : path' ≠ path := by
      rintro rfl
      simp [World.completeAction] at hreg
    simp only [World.completeAction, Function.update_of_ne hne] at hreg
    have hfits := h.registered path' actor' hreg
    cases path' with
    | withPts =>
      have hexecuting : (w.completeAction path).executing = some (.tryUpdates .withPts) ↔
          w.executing = some (.tryUpdates .withPts) := by
        simp only [World.completeAction]
        split
        · rename_i heq
          rw [heq]
          simp [hne.symm]
        · rfl
      have hpool : PtsActor _ _ _ _ _ := hfits
      refine ⟨hpool.pool, ?_, ?_, hpool.same⟩
      · intro u hu hdone
        exact ⟨hexecuting.2 (hpool.done u hu hdone).1, (hpool.done u hu hdone).2⟩
      · intro app happ
        exact ⟨hexecuting.2 (hpool.applying app happ).1, (hpool.applying app happ).2⟩
    | withQts => exact hfits
    | withSeq => exact hfits
    | withDate => exact hfits
  detached := by
    intro entry hentry
    simp only [World.completeAction] at hentry
    rcases List.mem_append.1 hentry with hentry | hentry
    · exact h.detached entry hentry
    · split at hentry
      · rename_i actor hreg
        split at hentry
        · rename_i happlying
          rw [List.mem_singleton.1 hentry]
          have hpath : path ≠ .withPts := by
            grind
          exact ⟨hpath, (h.registered path actor hreg).noPts hpath⟩
        · cases hentry
      · cases hentry

theorem PtsInv.stateUpdateRequired (h : PtsInv p0 w) : PtsInv p0 w.stateUpdateRequired where
  history := h.history.congr rfl rfl
  nonneg := h.nonneg
  known := h.known
  registered := by
    intro path actor hreg
    have hfits := h.registered path actor hreg
    cases path <;> exact hfits
  detached := h.detached

/-- `applying` of the actor `withPts`. -/
def NotApplying (w : World) (path : Path) : Prop :=
  path = .withPts → ∀ actor, w.registered .withPts = some actor → actor.applying = none

theorem PtsInv.cancelTimeoutTimer (h : PtsInv p0 w) : PtsInv p0 (w.cancelTimeoutTimer path) := by
  unfold World.cancelTimeoutTimer
  cases hreg : w.registered path with
  | none =>
    have hsame : w.setActor path none = w := by
      simp [World.setActor, ← hreg]
    rw [Option.map_none, hsame]
    exact h
  | some actor =>
    apply h.setActor
    exact (h.registered path actor hreg).narrows ⟨List.Sublist.refl _, rfl, rfl⟩

theorem PtsInv.fail (h : PtsInv p0 w) (hsafe : NotApplying w path) : PtsInv p0 (w.fail path) := by
  apply h.cancelTimeoutTimer.stateUpdateRequired.completeAction
  rintro rfl actor hreg
  simp only [World.stateUpdateRequired, World.cancelTimeoutTimer, World.setActor,
    Function.update_self] at hreg
  obtain ⟨before, hbefore, rfl⟩ := Option.map_eq_some_iff.1 hreg
  exact hsafe rfl before hbefore

theorem PtsInv.failDetached (h : PtsInv p0 w) (hpath : path ≠ .withPts) :
    PtsInv p0 (w.failDetached path) :=
  h.stateUpdateRequired.completeAction fun hpts => absurd hpts hpath

theorem setActor_registered (w : World) (path : Path) (actor : Option Actor) :
    (w.setActor path actor).registered path = actor := by
  simp [World.setActor]

/-- After its check an actor waits, applies or goes. -/
theorem PtsInv.conclude (h : PtsInv p0 w) (hreg : w.registered path = some actor)
    (hidle : path = .withPts → actor.applying = none)
    (hexecutes : path = .withPts → w.executing = some (.tryUpdates .withPts))
    (fails : List Update → Bool) :
    PtsInv p0 (w.conclude path fails (check w.db actor path)) := by
  have hfits := h.registered path actor hreg
  cases hcheck : check w.db actor path with
  | completed =>
    apply h.completeAction
    rintro rfl actor' hreg'
    rw [hreg] at hreg'
    cases hreg'
    exact hidle rfl
  | waiting actor' => exact h.setActor (hfits.narrows (check_waits hcheck))
  | applying actor' app =>
    unfold World.conclude
    dsimp only
    have hnarrows := (check_applies hcheck).narrows
    split
    · apply (h.setActor (hfits.narrows hnarrows)).fail
      rintro rfl actor'' hreg''
      rw [setActor_registered] at hreg''
      cases hreg''
      rw [hnarrows.applying, hidle rfl]
    · exact h.setActor (hfits.applies h.nonneg hexecutes hcheck)

/-- Applied updates without a `pts` change neither the history nor the stored
`pts`. -/
theorem PtsInv.store_noPts (h : PtsInv p0 w) (happ : AppliesNoPts app) :
    PtsInv p0 (w.store path app) := by
  obtain ⟨hchained, hreached⟩ :=
    @ptsChained_of_noPts path app.updates (ptsReached p0 w.log) happ.hasPts
  have hnone : app.updates.filter (·.hasPts) = [] := by
    apply List.filter_eq_nil_iff.2
    intro u hu
    rw [happ.hasPts u hu]
    decide
  have happlied : appliedPts (w.log ++ app.updates.map (.applied path)) = appliedPts w.log := by
    rw [appliedPts_append, appliedPts_applied, hnone, List.append_nil]
  have hpts : (app.store path w.db).pts = w.db.pts := by
    unfold Application.store DatabaseState.applyPts
    rw [happ.statePts]
    cases path with
    | withDate => simp only; split <;> rfl
    | withPts => rfl
    | withQts => rfl
    | withSeq => rfl
  refine ⟨⟨?_, ?_, ?_, ?_⟩, ?_, ?_, ?_, h.detached⟩
  · exact (ptsChained_append _ _ _).2 ⟨h.history.chained, hchained⟩
  · change (app.store path w.db).pts = ptsReached p0 (w.log ++ app.updates.map (.applied path))
    rw [hpts, ptsReached_append, hreached, h.history.stored]
  · change ((appliedPts (w.log ++ app.updates.map (.applied path))).map _).Nodup
    rw [happlied]
    exact h.history.objects
  · change ((sinceDifference (w.log ++ app.updates.map (.applied path))).map _).Nodup
    rw [sinceDifference_append_applied, hnone, List.append_nil]
    exact h.history.copies
  · change 0 ≤ (app.store path w.db).pts
    rw [hpts]
    exact h.nonneg
  · change ∀ u ∈ appliedPts (w.log ++ app.updates.map (.applied path)), _
    rw [happlied]
    exact h.known
  · intro path' actor' hreg
    have hfits := h.registered path' actor' hreg
    cases path' with
    | withPts =>
      change PtsActor (app.store path w.db).pts _ (w.log ++ app.updates.map (.applied path))
        _ _
      have hpool : PtsActor _ _ _ _ _ := hfits
      rw [hpts]
      refine ⟨hpool.pool, ?_, ?_, hpool.same⟩
      · rw [happlied]
        exact hpool.done
      · intro app' happ'
        obtain ⟨hexecutes, happlies⟩ := hpool.applying app' happ'
        refine ⟨hexecutes, happlies.pool, happlies.continues, happlies.above,
          happlies.nonempty, happlies.statePts, ?_⟩
        rw [happlied]
        exact happlies.fresh
    | withQts => exact hfits
    | withSeq => exact hfits
    | withDate => exact hfits

theorem carried_resume (actor : Actor) : carried actor.resume = carried actor := by
  unfold carried Actor.resume
  rw [List.append_nil]

theorem NoPts.resume (hactor : NoPts actor) : NoPts actor.resume := by
  refine ⟨?_, fun app happ => by cases happ⟩
  rw [carried_resume]
  exact hactor.carried

/-- The application of the actor `withPts` ends: the chain goes on. -/
theorem PtsInv.store_pts (h : PtsInv p0 w) (hreg : w.registered .withPts = some actor)
    (happ : actor.applying = some app) :
    PtsInv p0 ((w.store .withPts app).setActor .withPts (some actor.resume)) := by
  have hactor : PtsActor _ _ _ _ _ := h.registered .withPts actor hreg
  obtain ⟨hexecutes, happlies⟩ := hactor.applying app happ
  have hhas := happlies.pool.hasPts
  have hpts : (app.store .withPts w.db).pts = reachedBy Update.pts w.db.pts app.updates := by
    obtain ⟨hmax, hpos⟩ := foldl_max_eq_reachedBy h.nonneg happlies.nonempty hhas
      happlies.above happlies.continues
    have hstate : app.statePts = reachedBy Update.pts w.db.pts app.updates :=
      happlies.statePts.trans hmax
    unfold Application.store DatabaseState.applyPts
    rw [hstate]
    exact if_pos hpos
  have hle := happlies.continues.le_reachedBy
  obtain ⟨hchained, hreached⟩ := @Continues.chained .withPts _ _ hhas happlies.continues
  have hfilter : app.updates.filter (·.hasPts) = app.updates :=
    List.filter_eq_self.2 hhas
  have happlied : appliedPts (w.log ++ app.updates.map (.applied .withPts)) =
      appliedPts w.log ++ app.updates := by
    rw [appliedPts_append, appliedPts_applied, hfilter]
  have hlog : ∀ u ∈ sinceDifference w.log, u.pts ≤ w.db.pts := by
    rw [h.history.stored]
    exact sinceDifference_le p0 w.log h.history.chained
  refine ⟨⟨?_, ?_, ?_, ?_⟩, ?_, ?_, ?_, h.detached⟩
  · refine (ptsChained_append _ _ _).2 ⟨h.history.chained, ?_⟩
    rw [← h.history.stored]
    exact hchained
  · change (app.store .withPts w.db).pts =
      ptsReached p0 (w.log ++ app.updates.map (.applied .withPts))
    rw [hpts, ptsReached_append, ← h.history.stored, hreached]
  · change ((appliedPts (w.log ++ app.updates.map (.applied .withPts))).map _).Nodup
    rw [happlied, List.map_append]
    apply h.history.objects.append happlies.pool.objects
    intro object hold hnew
    obtain ⟨u, hu, rfl⟩ := List.mem_map.1 hnew
    exact happlies.fresh u hu hold
  · change ((sinceDifference (w.log ++ app.updates.map (.applied .withPts))).map _).Nodup
    rw [sinceDifference_append_applied, hfilter, List.map_append]
    apply h.history.copies.append (happlies.continues.fields_nodup happlies.pool.copies)
    intro fields hold hnew
    obtain ⟨u, hu, rfl⟩ := List.mem_map.1 hnew
    obtain ⟨v, hv, hfields⟩ := List.mem_map.1 hold
    have hsame : v.pts = u.pts := by
      have hptsFields : v.ptsFields = u.ptsFields := Update.ptsFields_congr hfields
      unfold Update.pts
      rw [hptsFields]
    have hbelow := hlog v hv
    have habove := happlies.above u hu
    omega
  · change 0 ≤ (app.store .withPts w.db).pts
    rw [hpts]
    exact h.nonneg.trans hle.1
  · change ∀ u ∈ appliedPts (w.log ++ app.updates.map (.applied .withPts)), _
    rw [happlied]
    intro u hu
    rcases List.mem_append.1 hu with hu | hu
    · exact h.known u hu
    · exact happlies.pool.known u hu
  · intro path' actor' hreg'
    by_cases hpath : path' = .withPts
    · subst hpath
      rw [setActor_registered] at hreg'
      cases hreg'
      change PtsActor (app.store .withPts w.db).pts _
        (w.log ++ app.updates.map (.applied .withPts)) _ _
      rw [hpts]
      refine ⟨?_, ?_, ?_, ?_⟩
      · rw [carried_resume]
        exact hactor.pool
      · rw [carried_resume, happlied, List.map_append]
        intro u hu hdone
        refine ⟨hexecutes, ?_⟩
        rcases List.mem_append.1 hdone with hdone | hdone
        · exact (hactor.done u hu hdone).2.trans hle.1
        · obtain ⟨v, hv, hobject⟩ := List.mem_map.1 hdone
          rw [hactor.same app happ u hu v hv hobject.symm]
          exact hle.2 v hv
      · intro app' happ'
        cases happ'
      · intro app' happ'
        cases happ'
    · simp only [World.setActor, World.store, Function.update_of_ne hpath] at hreg'
      exact (fits_iff_noPts hpath).2 ((h.registered path' actor' hreg').noPts hpath)

end Steps

/-- The batches of an event as new objects. -/
structure Stamped (next : Nat) (batches stamped : List Updates) (after : Nat) : Prop where
  le : next ≤ after
  objects : ((collected stamped).map Update.object).Nodup
  range : ∀ u ∈ collected stamped, next ≤ u.object ∧ u.object < after
  fields : (collected stamped).map Update.fields = (collected batches).map Update.fields

theorem stampUpdates_objects (next : Nat) (us : List Update) :
    (stampUpdates next us).map Update.object = List.range' next us.length := by
  unfold stampUpdates
  rw [List.map_map]
  exact List.zipIdx_map_snd next us

theorem stampUpdates_fields (next : Nat) (us : List Update) :
    (stampUpdates next us).map Update.fields = us.map Update.fields := by
  have h : (fun pair : Update × Nat => Update.fields { pair.1 with object := pair.2 }) =
      Update.fields ∘ Prod.fst := rfl
  unfold stampUpdates
  rw [List.map_map]
  change (us.zipIdx next).map (fun pair => Update.fields { pair.1 with object := pair.2 }) = _
  rw [h, ← List.map_map, List.zipIdx_map_fst]

theorem stamped (batches : List Updates) :
    ∀ next, Stamped next batches (stamp next batches).1 (stamp next batches).2 := by
  induction batches with
  | nil =>
    intro next
    exact ⟨le_refl _, List.nodup_nil, fun u hu => (List.not_mem_nil hu).elim, rfl⟩
  | cons batch batches ih =>
    intro next
    have hrest := ih (next + 1 + batch.updates.length)
    have hle := hrest.le
    have hcollected : collected (stamp next (batch :: batches)).1 =
        stampUpdates (next + 1) batch.updates ++
          collected (stamp (next + 1 + batch.updates.length) batches).1 := rfl
    have hafter : (stamp next (batch :: batches)).2 =
        (stamp (next + 1 + batch.updates.length) batches).2 := rfl
    have hfirst : ∀ u ∈ stampUpdates (next + 1) batch.updates,
        next + 1 ≤ u.object ∧ u.object < next + 1 + batch.updates.length := by
      intro u hu
      have hmem := List.mem_map_of_mem (f := Update.object) hu
      rw [stampUpdates_objects] at hmem
      exact List.mem_range'_1.1 hmem
    refine ⟨?_, ?_, ?_, ?_⟩
    · rw [hafter]
      omega
    · rw [hcollected, List.map_append, stampUpdates_objects]
      apply List.Nodup.append List.nodup_range' hrest.objects
      intro object hin hrange
      obtain ⟨u, hu, rfl⟩ := List.mem_map.1 hrange
      have hlow := (hrest.range u hu).1
      have hhigh := List.mem_range'_1.1 hin
      omega
    · rw [hcollected, hafter]
      intro u hu
      rcases List.mem_append.1 hu with hu | hu
      · have hrange := hfirst u hu
        omega
      · have hrange := hrest.range u hu
        omega
    · rw [hcollected, List.map_append, stampUpdates_fields, hrest.fields, ← List.map_append]
      rfl

theorem Stamped.exists_fields {next after : Nat} {batches stamped : List Updates}
    (h : Stamped next batches stamped after) {u : Update} (hu : u ∈ collected stamped) :
    ∃ v ∈ collected batches, Update.fields v = Update.fields u := by
  have hmem := List.mem_map_of_mem (f := Update.fields) hu
  rw [h.fields] at hmem
  exact List.mem_map.1 hmem

/-- Whether an update leaves the `pts` where it is can be read off its fields. -/
theorem map_fields_standing (us : List Update) :
    (standing us).map Update.fields =
      (us.map Update.fields).filter fun fields => fields.ptsCount = 0 := by
  rw [List.filter_map]
  rfl

/-- What `PtsSafe` asks of new batches: those for `withPts`, and only those, have
a `pts`, and they bring no copy of an update that waits and leaves the `pts`
where it is. -/
structure BatchesSafe (w : World) (path : Path) (batches : List Updates) : Prop where
  hasPts : ∀ u ∈ collected batches, u.hasPts = true ↔ path = .withPts
  copies : path = .withPts → ((standing (((w.registered path).map carried).getD [] ++
    collected batches)).map Update.fields).Nodup

/-- The condition on a step that keeps the chain. -/
def PtsSafe (w : World) : Event → Prop
  | .addUpdates path batches _ => BatchesSafe w path batches
  | .timeout path => NotApplying w path
  | _ => True

section NewBatches

variable {p0 : Int} {w : World} {path : Path} {batches stamped : List Updates} {after : Nat}

/-- New objects leave the invariant as it is. -/
theorem PtsInv.nextObject (h : PtsInv p0 w) (hle : w.nextObject ≤ after) :
    PtsInv p0 { w with nextObject := after } where
  history := h.history.congr rfl rfl
  nonneg := h.nonneg
  known := fun u hu => (h.known u hu).trans_le hle
  registered := by
    intro path actor hreg
    have hfits := h.registered path actor hreg
    cases path with
    | withPts =>
      have hactor : PtsActor _ _ _ _ _ := hfits
      have hpool : ∀ {us}, Pool w.nextObject us → Pool after us := fun hus =>
        ⟨hus.hasPts, hus.objects, fun u hu => (hus.known u hu).trans_le hle, hus.copies⟩
      refine ⟨hpool hactor.pool, hactor.done, ?_, hactor.same⟩
      intro app happ
      obtain ⟨hexecutes, happlies⟩ := hactor.applying app happ
      exact ⟨hexecutes, hpool happlies.pool, happlies.continues, happlies.above,
        happlies.nonempty, happlies.statePts, happlies.fresh⟩
    | withQts => exact hfits
    | withSeq => exact hfits
    | withDate => exact hfits
  detached := h.detached

theorem Stamped.hasPts (hstamped : Stamped w.nextObject batches stamped after)
    (hsafe : BatchesSafe w path batches) :
    ∀ u ∈ collected stamped, u.hasPts = true ↔ path = .withPts := by
  intro u hu
  obtain ⟨v, hv, hfields⟩ := hstamped.exists_fields hu
  have hptsFields : v.ptsFields = u.ptsFields := Update.ptsFields_congr hfields
  rw [← hsafe.hasPts v hv]
  unfold Update.hasPts
  rw [hptsFields]

theorem Stamped.pool {us : List Update} (hstamped : Stamped w.nextObject batches stamped after)
    (hsafe : BatchesSafe w .withPts batches) (hpool : Pool w.nextObject us)
    (hcarried : us = ((w.registered .withPts).map carried).getD []) :
    Pool after (us ++ collected stamped) where
  hasPts := by
    intro u hu
    rcases List.mem_append.1 hu with hu | hu
    · exact hpool.hasPts u hu
    · exact (hstamped.hasPts hsafe u hu).2 rfl
  objects := by
    rw [List.map_append]
    apply hpool.objects.append hstamped.objects
    intro object hold hnew
    obtain ⟨u, hu, rfl⟩ := List.mem_map.1 hold
    obtain ⟨v, hv, hsame⟩ := List.mem_map.1 hnew
    have hlow := (hstamped.range v hv).1
    have hhigh := hpool.known u hu
    omega
  known := by
    intro u hu
    rcases List.mem_append.1 hu with hu | hu
    · exact (hpool.known u hu).trans_le hstamped.le
    · exact (hstamped.range u hu).2
  copies := by
    have hcopies := hsafe.copies rfl
    rw [← hcarried, map_fields_standing, List.map_append, ← hstamped.fields,
      ← List.map_append, ← map_fields_standing] at hcopies
    exact hcopies

theorem Fits.join {actor actor' : Actor} (h : PtsInv p0 w) (hreg : w.registered path = some actor)
    (hstamped : Stamped w.nextObject batches stamped after)
    (hsafe : BatchesSafe w path batches)
    (hcarried : (carried actor').Perm (carried actor ++ collected stamped))
    (happlying : actor'.applying = actor.applying) :
    Fits { w with nextObject := after } path actor' := by
  have hfits := (h.nextObject hstamped.le).registered path actor hreg
  by_cases hpath : path = .withPts
  · subst hpath
    have hold : PtsActor _ _ _ _ _ := h.registered .withPts actor hreg
    have hactor : PtsActor _ _ _ _ _ := hfits
    refine ⟨?_, ?_, ?_, ?_⟩
    · apply Pool.subperm _ hcarried.subperm
      apply hstamped.pool hsafe hold.pool
      rw [hreg]
      rfl
    · intro u hu hdone
      rcases List.mem_append.1 (hcarried.subset hu) with hu | hu
      · exact hactor.done u hu hdone
      · obtain ⟨v, hv, hobject⟩ := List.mem_map.1 hdone
        have hlow := (hstamped.range u hu).1
        have hhigh := h.known v hv
        omega
    · rw [happlying]
      exact hactor.applying
    · rw [happlying]
      intro app happ u hu v hv hobject
      rcases List.mem_append.1 (hcarried.subset hu) with hu | hu
      · exact hactor.same app happ u hu v hv hobject
      · have hlow := (hstamped.range u hu).1
        have hhigh := (hold.applying app happ).2.pool.known v hv
        omega
  · have hnone := hfits.noPts hpath
    refine (fits_iff_noPts hpath).2 ⟨?_, ?_⟩
    · intro u hu
      rcases List.mem_append.1 (hcarried.subset hu) with hu | hu
      · exact hnone.carried u hu
      · rw [← Bool.not_eq_true]
        exact fun hhas => hpath ((hstamped.hasPts hsafe u hu).1 hhas)
    · rw [happlying]
      exact hnone.applying

theorem carried_new (batches : List Updates) :
    carried { updateList := batches } = collected batches := by
  unfold carried
  rw [List.append_nil]

theorem noPts_new (hpath : path ≠ .withPts) (hstamped : Stamped w.nextObject batches stamped after)
    (hsafe : BatchesSafe w path batches) : NoPts { updateList := stamped } := by
  refine ⟨?_, fun app happ => by cases happ⟩
  intro u hu
  rw [carried_new] at hu
  rw [← Bool.not_eq_true]
  exact fun hhas => hpath ((hstamped.hasPts hsafe u hu).1 hhas)

theorem Fits.new (h : PtsInv p0 w) (hreg : w.registered path = none)
    (hstamped : Stamped w.nextObject batches stamped after)
    (hsafe : BatchesSafe w path batches) :
    Fits { w with nextObject := after } path { updateList := stamped } := by
  by_cases hpath : path = .withPts
  · subst hpath
    have hpool : Pool after ([] ++ collected stamped) := by
      apply hstamped.pool hsafe
      · exact ⟨fun u hu => (List.not_mem_nil hu).elim, List.nodup_nil,
          fun u hu => (List.not_mem_nil hu).elim, List.nodup_nil⟩
      · rw [hreg]
        rfl
    refine ⟨?_, ?_, ?_, ?_⟩
    · rw [carried_new]
      exact hpool
    · rw [carried_new]
      intro u hu hdone
      obtain ⟨v, hv, hobject⟩ := List.mem_map.1 hdone
      have hlow := (hstamped.range u hu).1
      have hhigh := h.known v hv
      omega
    · intro app happ
      cases happ
    · intro app happ
      cases happ
  · exact (fits_iff_noPts hpath).2 (noPts_new hpath hstamped hsafe)

/-- Other actors are detached. -/
theorem PtsInv.setDetached (h : PtsInv p0 w) {detached : List (Path × Actor)}
    (hdetached : ∀ entry ∈ detached, entry.1 ≠ .withPts ∧ NoPts entry.2) :
    PtsInv p0 { w with detached } where
  history := h.history.congr rfl rfl
  nonneg := h.nonneg
  known := h.known
  registered := by
    intro path actor hreg
    have hfits := h.registered path actor hreg
    cases path <;> exact hfits
  detached := hdetached

theorem PtsInv.addDetached {actor : Actor} (h : PtsInv p0 w) (hpath : path ≠ .withPts)
    (hactor : NoPts actor) : PtsInv p0 { w with detached := w.detached ++ [(path, actor)] } := by
  refine h.setDetached fun entry hentry => ?_
  rcases List.mem_append.1 hentry with hentry | hentry
  · exact h.detached entry hentry
  · rw [List.mem_singleton.1 hentry]
    exact ⟨hpath, hactor⟩

theorem PtsInv.requestActor_of (h : PtsInv p0 w)
    (hjoin : ∀ actor actor', w.registered path = some actor →
      (carried actor').Perm (carried actor ++ collected batches) →
      actor'.applying = actor.applying → Fits w path actor')
    (hnew : w.registered path = none → Fits w path { updateList := batches })
    (fails : List Update → Bool) : PtsInv p0 (w.requestActor path batches fails) := by
  unfold World.requestActor
  cases hreg : w.registered path with
  | some actor =>
    dsimp only
    split
    · apply h.setActor
      refine hjoin actor _ hreg ?_ ?_
      · unfold carried
        rw [← List.append_assoc, collected_append]
      · rfl
    · rename_i hidle
      have hidle : actor.applying = none := by simpa using hidle
      have hjoined : Fits w path
          { actor with updateList := actor.updateList ++ batches } := by
        refine hjoin actor _ hreg ?_ ?_
        · unfold carried
          simp only [collected_append, List.append_assoc]
          exact List.Perm.append_left _ List.perm_append_comm
        · rfl
      have hset := h.setActor hjoined
      split
      · rename_i hexecuting
        apply hset.conclude (setActor_registered _ _ _) fun _ => hidle
        rintro rfl
        exact hexecuting
      · exact hset
  | none =>
    dsimp only
    cases path with
    | withDate =>
      dsimp only
      split
      · rename_i actor app hcheck
        split
        · exact h
        · apply h.addDetached (by decide)
          have hactor : NoPts { updateList := batches } := hnew hreg
          exact hactor.applies hcheck
      · exact h
    | withPts => exact h.setActor (hnew hreg)
    | withQts => exact h.setActor (hnew hreg)
    | withSeq => exact h.setActor (hnew hreg)

theorem PtsInv.requestActor (h : PtsInv p0 w)
    (hstamped : Stamped w.nextObject batches stamped after)
    (hsafe : BatchesSafe w path batches) (fails : List Update → Bool) :
    PtsInv p0 ({ w with nextObject := after }.requestActor path stamped fails) := by
  apply (h.nextObject hstamped.le).requestActor_of
  · intro actor actor' hreg hcarried happlying
    exact Fits.join h hreg hstamped hsafe hcarried happlying
  · intro hreg
    exact Fits.new h hreg hstamped hsafe

theorem PtsInv.requestActor_noPts (h : PtsInv p0 w) (hpath : path ≠ .withPts)
    (hnone : ∀ u ∈ collected batches, u.hasPts = false) (fails : List Update → Bool) :
    PtsInv p0 (w.requestActor path batches fails) := by
  apply h.requestActor_of
  · intro actor actor' hreg hcarried happlying
    have hactor := (h.registered path actor hreg).noPts hpath
    refine (fits_iff_noPts hpath).2 ⟨?_, by rw [happlying]; exact hactor.applying⟩
    intro u hu
    rcases List.mem_append.1 (hcarried.subset hu) with hu | hu
    · exact hactor.carried u hu
    · exact hnone u hu
  · intro _
    refine (fits_iff_noPts hpath).2 ⟨?_, fun app happ => by cases happ⟩
    rw [carried_new]
    exact hnone

end NewBatches

section Runs

variable {p0 : Int} {w : World} {path : Path}

/-- While something else, or nothing, executes in the queue, the actor `withPts`
is not applying and holds on to nothing that is applied. -/
theorem PtsInv.idle (h : PtsInv p0 w) (hexecuting : w.executing ≠ some (.tryUpdates .withPts))
    {actor : Actor} (hreg : w.registered .withPts = some actor) :
    actor.applying = none ∧
      ∀ u ∈ carried actor, u.object ∉ (appliedPts w.log).map Update.object := by
  have hactor : PtsActor _ _ _ _ _ := h.registered .withPts actor hreg
  refine ⟨?_, ?_⟩
  · cases happ : actor.applying with
    | none => rfl
    | some app => exact absurd (hactor.applying app happ).1 hexecuting
  · intro u hu hdone
    exact hexecuting (hactor.done u hu hdone).1

theorem PtsInv.setExecuting (h : PtsInv p0 w)
    (hexecuting : w.executing ≠ some (.tryUpdates .withPts)) (job : Option Job)
    (requested : Bool) :
    PtsInv p0 { w with executing := job, updateStateRequested := requested } where
  history := h.history.congr rfl rfl
  nonneg := h.nonneg
  known := h.known
  registered := by
    intro path actor hreg
    have hfits := h.registered path actor hreg
    cases path with
    | withPts =>
      have hactor : PtsActor _ _ _ _ _ := hfits
      obtain ⟨hidle, hdone⟩ := h.idle hexecuting hreg
      refine ⟨hactor.pool, ?_, ?_, hactor.same⟩
      · exact fun u hu hin => absurd hin (hdone u hu)
      · grind
    | withQts => exact hfits
    | withSeq => exact hfits
    | withDate => exact hfits
  detached := h.detached

theorem PtsInv.execute (h : PtsInv p0 w) (fails : List Update → Bool) :
    PtsInv p0 (w.execute path fails) := by
  unfold World.execute
  split
  · rename_i actor hexecuting hreg
    have hne : w.executing ≠ some (.tryUpdates .withPts) := by
      rw [hexecuting]
      decide
    apply (h.setExecuting hne (some (.tryUpdates path)) w.updateStateRequested).conclude hreg
    · rintro rfl
      exact (h.idle hne hreg).1
    · rintro rfl
      rfl
  · exact h

theorem PtsInv.applyCompleted (h : PtsInv p0 w) (fails : List Update → Bool) :
    PtsInv p0 (w.applyCompleted path fails) := by
  unfold World.applyCompleted
  split
  · rename_i actor hreg
    split
    · rename_i app happ
      have hstored : PtsInv p0 ((w.store path app).setActor path (some actor.resume)) := by
        by_cases hpath : path = .withPts
        · subst hpath
          exact h.store_pts hreg happ
        · have hnone := (h.registered path actor hreg).noPts hpath
          exact (h.store_noPts (hnone.applying app happ)).setActor
            ((fits_iff_noPts hpath).2 hnone.resume)
      apply hstored.conclude (setActor_registered _ _ _)
      · exact fun _ => rfl
      · rintro rfl
        have hactor : PtsActor _ _ _ _ _ := h.registered .withPts actor hreg
        exact (hactor.applying app happ).1
    · exact h
  · exact h

theorem PtsInv.concludeDetached (h : PtsInv p0 w) {db : DatabaseState} {actor : Actor}
    (hpath : path ≠ .withPts) (hactor : NoPts actor) (fails : List Update → Bool) :
    PtsInv p0 (w.concludeDetached path fails (check db actor path)) := by
  cases hcheck : check db actor path with
  | completed => exact h.completeAction fun hpts => absurd hpts hpath
  | waiting actor' => exact h
  | applying actor' app =>
    unfold World.concludeDetached
    dsimp only
    split
    · exact h.failDetached hpath
    · exact h.addDetached hpath (hactor.applies hcheck)

theorem PtsInv.detachedApplyCompleted (h : PtsInv p0 w) (index : Nat)
    (fails : List Update → Bool) : PtsInv p0 (w.detachedApplyCompleted index fails) := by
  unfold World.detachedApplyCompleted
  split
  · rename_i path actor hget
    obtain ⟨hpath, hactor⟩ := h.detached _ (List.mem_of_getElem? hget)
    split
    · rename_i app happ
      have hrest : ∀ entry ∈ w.detached.eraseIdx index, entry.1 ≠ .withPts ∧ NoPts entry.2 :=
        fun entry hentry => h.detached entry (List.mem_of_mem_eraseIdx hentry)
      have hstored : PtsInv p0
          { w.store path app with detached := w.detached.eraseIdx index } :=
        (h.store_noPts (hactor.applying app happ)).setDetached hrest
      split
      · exact hstored
      · exact hstored.concludeDetached hpath hactor.resume fails
    · exact h
  · exact h

theorem PtsInv.timeout (h : PtsInv p0 w) (hsafe : NotApplying w path) :
    PtsInv p0 (w.timeout path) := by
  unfold World.timeout
  split
  · split
    · exact h.fail hsafe
    · exact h
  · exact h

theorem PtsInv.detachedTimeout (h : PtsInv p0 w) (index : Nat) :
    PtsInv p0 (w.detachedTimeout index) := by
  unfold World.detachedTimeout
  split
  · rename_i path actor hget
    obtain ⟨hpath, hactor⟩ := h.detached _ (List.mem_of_getElem? hget)
    split
    · apply PtsInv.failDetached _ hpath
      apply h.setDetached
      intro entry hentry
      rcases List.mem_or_eq_of_mem_set hentry with hentry | rfl
      · exact h.detached entry hentry
      · exact ⟨hpath, hactor.carried, hactor.applying⟩
    · exact h
  · exact h

theorem PtsInv.stateFetched (h : PtsInv p0 w) (state : DatabaseState) :
    PtsInv p0 (w.stateFetched state) := by
  unfold World.stateFetched
  split
  · rename_i hexecuting
    have hne : w.executing ≠ some (.tryUpdates .withPts) := by
      rw [hexecuting]
      decide
    have happlied : ∀ pts, appliedPts (w.log ++ [Entry.difference pts]) = appliedPts w.log := by
      intro pts
      rw [appliedPts_append]
      exact List.append_nil _
    refine ⟨⟨?_, ?_, ?_, ?_⟩, ?_, ?_, ?_, h.detached⟩
    · exact (ptsChained_append _ _ _).2 ⟨h.history.chained, trivial, trivial⟩
    · dsimp only
      rw [ptsReached_append]
      rfl
    · dsimp only
      rw [happlied]
      exact h.history.objects
    · grind [sinceDifference]
    · have hnonneg := h.nonneg
      simp only [DatabaseState.applyPts]
      split <;> omega
    · dsimp only
      rw [happlied]
      exact h.known
    · intro path actor hreg
      have hfits := h.registered path actor hreg
      cases path with
      | withPts =>
        have hactor : PtsActor _ _ _ _ _ := hfits
        obtain ⟨hidle, hdone⟩ := h.idle hne hreg
        refine ⟨hactor.pool, ?_, ?_, hactor.same⟩
        · rw [happlied]
          exact fun u hu hin => absurd hin (hdone u hu)
        · grind
      | withQts => exact hfits
      | withSeq => exact hfits
      | withDate => exact hfits
  · exact h

theorem step_ptsInv (w : World) (e : Event) (hsafe : PtsSafe w e) (h : PtsInv p0 w) :
    PtsInv p0 (step w e) := by
  cases e with
  | addUpdates path batches fails => exact h.requestActor (stamped batches _) hsafe fails
  | execute path fails => exact h.execute fails
  | applyCompleted path fails => exact h.applyCompleted fails
  | detachedApplyCompleted index fails => exact h.detachedApplyCompleted index fails
  | timeout path => exact h.timeout hsafe
  | detachedTimeout index => exact h.detachedTimeout index
  | stateUpdateRequired => exact h.stateUpdateRequired
  | executeUpdateState =>
    change PtsInv p0 w.executeUpdateState
    unfold World.executeUpdateState
    split
    · rename_i hready
      apply h.setExecuting
      rw [hready.1]
      decide
    · exact h
  | stateFetched state => exact h.stateFetched state
  | stateFinished =>
    change PtsInv p0 w.stateFinished
    unfold World.stateFinished
    split
    · rename_i hexecuting
      apply h.setExecuting
      rw [hexecuting]
      decide
    · exact h

theorem ptsInv_initial (db : DatabaseState) (h : 0 ≤ db.pts) :
    PtsInv db.pts { db : World } where
  history := ⟨trivial, rfl, List.nodup_nil, List.nodup_nil⟩
  nonneg := h
  known := fun u hu => (List.not_mem_nil hu).elim
  registered := fun path actor hreg => by cases hreg
  detached := fun entry hentry => (List.not_mem_nil hentry).elim

/-- The chain holds after every run whose steps are safe. -/
theorem run_ptsHistory (db : DatabaseState) (hdb : 0 ≤ db.pts) (es : List Event)
    (hes : Guarded step PtsSafe { db } es) :
    PtsHistory db.pts (run step { db } es) :=
  (guarded_invariant step_ptsInv es _ hes (ptsInv_initial db hdb)).history

end Runs

/-! ## A timer that fires during an application -/

/-- A batch with one update that advances the `pts` by one. -/
def single (pts : Int32) : Updates :=
  { object := 0, updates := [{ object := 0, ptsFields := some (pts, 1) }] }

/-- With 10 stored, the updates 11 and 13 arrive; 11 is being applied and the
timer runs for 12. -/
def gapRun : List Event :=
  [.addUpdates .withPts [single 11, single 13] fun _ => false,
    .execute .withPts fun _ => false]

/-- The timer fires and the difference up to 13 is fetched before the application
of 11 comes to its end. -/
def timeoutRun : List Event :=
  gapRun ++
    [.timeout .withPts, .executeUpdateState, .stateFetched { pts := 13 }, .stateFinished,
      .detachedApplyCompleted 0 fun _ => false]

/-- The update 11 is applied where the history stands at 13, and the stored
`pts` goes back. -/
theorem timeout_while_applying :
    ¬PtsHistory 10 (run step { db := { pts := 10 } } timeoutRun) := by
  intro h
  have hlog : (run step { db := { pts := 10 } } timeoutRun).log =
      [.difference 13, .applied .withPts ⟨1, 0, some (11, 1), none⟩] := by
    decide +kernel
  have hchained := h.chained
  rw [hlog] at hchained
  have hlast := hchained.2.1 rfl
  revert hlast
  decide +kernel

/-- The same updates without the timer: 11 is applied and 13 waits, and then 12
and 13 follow. -/
theorem gapRun_ptsHistory :
    PtsHistory 10 (run step { db := { pts := 10 } } (gapRun ++
      [.applyCompleted .withPts fun _ => false,
        .addUpdates .withPts [single 12] fun _ => false,
        .applyCompleted .withPts fun _ => false])) ∧
    (run step { db := { pts := 10 } } (gapRun ++
      [.applyCompleted .withPts fun _ => false,
        .addUpdates .withPts [single 12] fun _ => false,
        .applyCompleted .withPts fun _ => false])).db.pts = 13 := by
  refine ⟨run_ptsHistory { pts := 10 } (by decide) _ ?_, by decide +kernel⟩
  refine ⟨⟨by decide +kernel, fun _ => by decide +kernel⟩, trivial, trivial,
    ⟨by decide +kernel, fun _ => by decide +kernel⟩, trivial, trivial⟩

end TelegramPub.Ports.ApplyUpdatesSafety
