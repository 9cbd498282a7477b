import TelegramPub.Ports.ApplyUpdatesSafety
import TelegramPub.Verified.CounterWalk

/-!
# Stale and duplicate updates

The server repeats updates.  An update whose number is not above the stored one
is stale, and of several copies of an update only the first counts.  Processing
batches with such updates should come to the same end as processing what is
left of them: the same updates applied, the same state stored and the same
timer pending.

`checkPtsUpdates` and `checkQtsUpdates` take stale updates out of the list, and
a copy becomes stale when the first one is applied.  `checkSeqUpdates` takes out
only what it applies, so a stale batch or a second copy stays in the list and
keeps the timer running until the full difference is fetched
(`staleBatch_harmful`).  A copy of an update with `pts` is harmful only at a `pts`
that is reached and has an update that does not advance it: such an update is
applied in the pass that reaches its `pts` or never, and a copy ends the pass
(`Counter.CopiesAdvance`).
-/

namespace TelegramPub.Ports.StaleUpdates

open Verified.Bytes Verified.Machine Verified.StableSort Verified.CounterWalk
open Ports.ApplyUpdates Ports.ApplyUpdatesSafety

/-! ## Processing batches to the end -/

/-- Where the processing of batches ends. -/
structure Outcome where
  applied : List Update
  db : DatabaseState
  timer : Bool
  deriving DecidableEq

/-- An actor checks, applies and checks again until it waits or is done.  The
timer of an actor that is done is gone with it. -/
def settle : Nat → DatabaseState → Actor → Path → Option Outcome
  | 0, _, _, _ => none
  | fuel + 1, db, actor, path =>
    match check db actor path with
    | .completed => some { applied := [], db, timer := false }
    | .waiting actor => some { applied := [], db, timer := actor.timeoutTimer }
    | .applying actor app =>
      (settle fuel (app.store path db) actor path).map fun outcome =>
        { outcome with applied := app.updates ++ outcome.applied }

/-- Batches handed to a new actor.  Every pass but the last applies something. -/
def processed (path : Path) (db : DatabaseState) (batches : List Updates) : Option Outcome :=
  settle (batches.length + (collected batches).length + 2) db { updateList := batches } path

section Machine

variable {path : Path} {w : World}

/-- Without an application under way nothing comes to its end. -/
theorem run_applyCompleted_idle (h : ∀ actor, w.registered path = some actor →
    actor.applying = none) (m : Nat) :
    run step w (List.replicate m (.applyCompleted path fun _ => false)) = w := by
  induction m with
  | zero => rfl
  | succ m ih =>
    have hstep : step w (.applyCompleted path fun _ => false) = w := by
      change w.applyCompleted path _ = w
      unfold World.applyCompleted
      cases hreg : w.registered path with
      | none => rfl
      | some actor => simp only [h actor hreg]
    rw [List.replicate_succ, run_cons, hstep, ih]

theorem resume_of_applying {actor : Actor} {app : Application}
    (hqueue : actor.waitingForApplyUpdatesQueue = []) (hidle : actor.applying = none) :
    Actor.resume { actor with applying := some app } = actor := by
  cases actor with
  | mk updateList queue applying timer =>
    cases hqueue
    cases hidle
    simp [Actor.resume]

/-- `settle` is what the machine of the actors does from a check on, when
applications succeed and nothing else happens. -/
theorem run_settle :
    ∀ (fuel : Nat) (db : DatabaseState) (actor : Actor) (outcome : Outcome),
      settle fuel db actor path = some outcome →
      actor.waitingForApplyUpdatesQueue = [] → actor.applying = none →
      ∀ w : World, w.db = db → ∃ n, ∀ m, n ≤ m → ∃ w',
        run step (w.conclude path (fun _ => false) (check db actor path))
          (List.replicate m (.applyCompleted path fun _ => false)) = w' ∧
        w'.db = outcome.db ∧ w'.log = w.log ++ outcome.applied.map (.applied path) ∧
        ((w'.registered path).map Actor.timeoutTimer).getD false = outcome.timer := by
  intro fuel
  induction fuel with
  | zero => intro db actor outcome h; cases h
  | succ fuel ih =>
    intro db actor outcome h hqueue hidle w hdb
    unfold settle at h
    cases hcheck : check db actor path with
    | completed =>
      rw [hcheck] at h
      cases h
      refine ⟨0, fun m _ => ⟨_, run_applyCompleted_idle ?_ m, hdb, ?_, ?_⟩⟩
      · intro actor' hreg
        simp [World.conclude, World.completeAction] at hreg
      · exact (List.append_nil _).symm
      · simp [World.conclude, World.completeAction]
    | waiting actor' =>
      rw [hcheck] at h
      cases h
      refine ⟨0, fun m _ => ⟨_, run_applyCompleted_idle ?_ m, hdb, ?_, ?_⟩⟩
      · intro actor'' hreg
        simp only [World.conclude] at hreg
        rw [setActor_registered] at hreg
        cases hreg
        rw [(check_waits hcheck).applying, hidle]
      · exact (List.append_nil _).symm
      · simp [World.conclude, World.setActor]
    | applying actor' app =>
      rw [hcheck] at h
      obtain ⟨rest, hrest, rfl⟩ := Option.map_eq_some_iff.1 h
      have hnarrows := (check_applies hcheck).narrows
      have hqueue' : actor'.waitingForApplyUpdatesQueue = [] := by
        rw [hnarrows.waiting, hqueue]
      have hidle' : actor'.applying = none := by rw [hnarrows.applying, hidle]
      let w₁ := (w.setActor path (some { actor' with applying := some app })).store path app
      obtain ⟨n, hn⟩ := ih (app.store path db) actor' rest hrest hqueue' hidle'
        (w₁.setActor path (some actor')) (by rw [← hdb]; rfl)
      refine ⟨n + 1, fun m hm => ?_⟩
      obtain ⟨k, rfl⟩ : ∃ k, m = k + 1 := ⟨m - 1, by omega⟩
      obtain ⟨w', hrun, hdb', hlog, htimer⟩ := hn k (by omega)
      refine ⟨w', ?_, hdb', ?_, htimer⟩
      · rw [← hrun, List.replicate_succ, run_cons]
        congr 1
        change (World.setActor _ _ _).applyCompleted path _ = _
        unfold World.applyCompleted
        rw [setActor_registered]
        simp only [resume_of_applying hqueue' hidle']
        rw [← hdb]
        rfl
      · rw [hlog, List.map_append, ← List.append_assoc]
        rfl

/-- On 10 come 12, 14 and 11: two are applied, in their order, and 14 waits for 13. -/
theorem run_settle_waiting :
    let u : Update := ⟨1, 0, some (11, 1), none⟩
    let v : Update := ⟨2, 0, some (12, 1), none⟩
    let ahead : Update := ⟨3, 0, some (14, 1), none⟩
    ∃ n, ∀ m, n ≤ m → ∃ w', run step
        (({ db := { pts := 10 } } : World).conclude .withPts (fun _ => false)
          (check { pts := 10 } { updateList := [{ object := 0, updates := [v, ahead, u] }] }
            .withPts))
        (List.replicate m (.applyCompleted .withPts fun _ => false)) = w' ∧
      w'.db = { pts := 12 } ∧ w'.log = [.applied .withPts u, .applied .withPts v] ∧
      ((w'.registered .withPts).map Actor.timeoutTimer).getD false = true :=
  run_settle 4 _ _ ⟨[⟨1, 0, some (11, 1), none⟩, ⟨2, 0, some (12, 1), none⟩], { pts := 12 }, true⟩
    (by decide +kernel) rfl rfl _ rfl

end Machine

section Passes

variable {value step : Update → Int}

end Passes

/-- One of the numbers an update carries, and where it is stored. -/
structure Counter where
  path : Path
  value : Update → Int
  step : Update → Int
  before : Update → Update → Prop
  decidable : DecidableRel before
  stored : DatabaseState → Int
  set : DatabaseState → Int → DatabaseState
  carries : Update → Bool

instance (c : Counter) : DecidableRel c.before := c.decidable

/-- `pts` and `pts_count`. -/
def ptsCounter : Counter where
  path := .withPts
  value := Update.pts
  step := Update.ptsCount
  before := ptsBefore
  decidable := inferInstance
  stored := DatabaseState.pts
  set := fun db pts => { db with pts }
  carries := fun u => u.hasPts && !u.hasQts

/-- What the passes rely on. -/
structure Counter.Lawful (c : Counter) : Prop where
  check_eq : ∀ db actor,
    check db actor c.path = checkExpiring c.value c.step c.before (c.stored db) actor
  store_eq : ∀ (db : DatabaseState) (us : List Update), 0 ≤ c.stored db → us ≠ [] →
    (∀ u ∈ us, c.carries u = true) → (∀ u ∈ us, c.stored db < c.value u) →
    Continues c.value c.step (c.stored db) us →
    (application us 0 0).store c.path db = c.set db (reachedBy c.value (c.stored db) us)
  stored_set : ∀ db n, c.stored (c.set db n) = n
  set_set : ∀ db m n, c.set (c.set db m) n = c.set db n
  set_stored : ∀ db, c.set db (c.stored db) = db
  total : Std.Total c.before
  trans : IsTrans Update c.before
  before_order : ∀ u v, c.before u v →
    c.value u < c.value v ∨ (c.value u = c.value v ∧ c.step v ≤ c.step u)
  before_copy : ∀ u v, Update.fields u = Update.fields v → c.before u v
  value_lt : ∀ u, c.value u < 2 ^ 31
  step_range : ∀ u, -(2 ^ 31) ≤ c.step u ∧ c.step u < 2 ^ 31
  value_copy : ∀ u v, Update.fields u = Update.fields v → c.value u = c.value v
  step_copy : ∀ u v, Update.fields u = Update.fields v → c.step u = c.step v

theorem Update.pts_congr {u v : Update} (h : Update.fields u = Update.fields v) :
    u.pts = v.pts ∧ u.ptsCount = v.ptsCount ∧ u.qts = v.qts := by
  have hpts : u.ptsFields = v.ptsFields := Update.ptsFields_congr h
  have hqts : u.qtsField = v.qtsField := Update.qtsField_congr h
  unfold Update.pts Update.ptsCount Update.qts
  rw [hpts, hqts]
  exact ⟨rfl, rfl, rfl⟩

theorem ptsCounter_lawful : ptsCounter.Lawful where
  check_eq := fun db actor => rfl
  store_eq := by
    intro db us hstored hne hcarries habove h
    have hhas : ∀ u ∈ us, u.hasPts = true := fun u hu =>
      (Bool.and_eq_true_iff.1 (hcarries u hu)).1
    have hnone : ∀ u ∈ us, u.hasQts = false := fun u hu =>
      Bool.not_eq_true' _ ▸ (Bool.and_eq_true_iff.1 (hcarries u hu)).2
    obtain ⟨hmax, hpos⟩ := foldl_max_eq_reachedBy hstored hne hhas habove h
    change db.applyPts (us.foldl (fun most u => if u.hasPts then max most
      (ptsCounter.value u) else most) 0) 0 0 (us.foldl _ 0) = _
    rw [hmax, foldl_max_eq_zero hnone]
    unfold DatabaseState.applyPts
    rw [if_pos hpos]
    rfl
  stored_set := fun db n => rfl
  set_set := fun db m n => rfl
  set_stored := fun db => rfl
  total := ⟨by intro u v; unfold ptsCounter ptsBefore; dsimp only; omega⟩
  trans := ⟨by intro u v x; unfold ptsCounter ptsBefore; dsimp only; omega⟩
  before_order := fun u v h => h
  before_copy := by
    intro u v h
    obtain ⟨hpts, hcount, _⟩ := Update.pts_congr h
    exact .inr ⟨hpts, hcount.ge⟩
  value_lt := Update.pts_lt
  step_range := Update.ptsCount_range
  value_copy := fun u v h => (Update.pts_congr h).1
  step_copy := fun u v h => (Update.pts_congr h).2.1

section Settle

variable {c : Counter}

/-- The updates of batches in the order of a check. -/
def Counter.sorted (c : Counter) (batches : List Updates) : List Update :=
  (collected batches).insertionSort c.before

/-- Where the passes over a sorted list end. -/
def Counter.outcome (c : Counter) (db : DatabaseState) (us : List Update) : Outcome :=
  { applied := (walk c.value c.step (c.stored db) false us).1
    db := c.set db (reachedBy c.value (c.stored db)
      (walk c.value c.step (c.stored db) false us).1)
    timer := (walk c.value c.step (c.stored db) false us).2 }

theorem Counter.Lawful.ordered_sorted (hc : c.Lawful) (batches : List Updates) :
    Ordered c.value c.step (c.sorted batches) := by
  have htotal := hc.total
  have htrans := hc.trans
  exact (List.pairwise_insertionSort c.before _).imp fun {u v} => hc.before_order u v

theorem Counter.Lawful.pairwise_sorted (hc : c.Lawful) (batches : List Updates) :
    (c.sorted batches).Pairwise fun u v => c.value u ≤ c.value v :=
  (hc.ordered_sorted batches).imp fun {u v} h => by omega

/-- The pass of a check. -/
def Counter.pass (c : Counter) (db : DatabaseState) (batches : List Updates) : Pass :=
  checkLoop c.value c.step (c.stored db) (c.stored db) (c.sorted batches)

/-- What a check leaves in the list. -/
def Counter.rest (c : Counter) (db : DatabaseState) (batches : List Updates) : List Updates :=
  removeCovered (c.pass db batches).inOrder (removeCovered (c.pass db batches).expired batches)

end Settle

/-! ## Batches without their stale and duplicate updates -/

/-- Processing batches comes to the same end as processing what is left of them. -/
def Harmless (path : Path) (db : DatabaseState) (batches cleaned : List Updates) : Prop :=
  ∃ outcome, processed path db batches = some outcome ∧ processed path db cleaned = some outcome

section Clean

variable {c : Counter} {db : DatabaseState} {batches : List Updates}

/-- The updates that are neither stale nor a copy of an earlier one. -/
def Counter.kept (c : Counter) (db : DatabaseState) (batches : List Updates) : List Update :=
  firstCopies Update.fields ((collected batches).filter fun u => c.stored db < c.value u)

/-- The batches without the other updates. -/
def Counter.clean (c : Counter) (db : DatabaseState) (batches : List Updates) : List Updates :=
  (batches.map fun batch =>
    { batch with updates := batch.updates.filter ((c.kept db batches).contains ·) }).filter
      (!·.updates.isEmpty)

/-- What `TGUpdateMessageService` hands over: batches that are not empty, of
updates of the kind, each an object of its own. -/
structure Counter.Handed (c : Counter) (db : DatabaseState) (batches : List Updates) : Prop where
  stored : 0 ≤ c.stored db
  carries : ∀ u ∈ collected batches, c.carries u = true
  nonempty : ∀ batch ∈ batches, batch.updates ≠ []
  objects : ((collected batches).map Update.object).Nodup

theorem collected_clean (c : Counter) (db : DatabaseState) (batches : List Updates) :
    collected (c.clean db batches) =
      (collected batches).filter ((c.kept db batches).contains ·) := by
  unfold Counter.clean
  generalize c.kept db batches = kept
  induction batches with
  | nil => rfl
  | cons batch batches ih =>
    have hcons : collected (batch :: batches) = batch.updates ++ collected batches := rfl
    rw [hcons, List.filter_append, ← ih, List.map_cons, List.filter_cons]
    split
    · rfl
    · grind

theorem Counter.Handed.clean (h : c.Handed db batches) :
    c.Handed db (c.clean db batches) where
  stored := h.stored
  carries := by
    intro u hu
    rw [collected_clean] at hu
    exact h.carries u (List.mem_of_mem_filter hu)
  nonempty := by
    intro batch hbatch
    have hne := (List.mem_filter.1 hbatch).2
    simpa using hne
  objects := by
    rw [collected_clean]
    exact h.objects.sublist (List.filter_sublist.map _)

end Clean

section Seq

/-- The fields of a batch without the identities in it. -/
def Updates.fields (batch : Updates) : Updates :=
  { batch with object := 0, updates := batch.updates.map Update.fields }

end Seq

/-! ## The three counters -/

end TelegramPub.Ports.StaleUpdates
