import TelegramPub.Verified.Bytes
import TelegramPub.Verified.Machine
import Mathlib.Data.List.Sort

/-!
# TGApplyUpdatesActor

Updates arrive numbered: those that concern messages carry a `pts` and the
number of steps `pts_count` it advances, those of secret chats a `qts`, and the
batches themselves a `seq`.  For each kind there is an actor that collects
updates, applies the ones that continue the stored number, and waits for the
missing ones with a timer.  When the timer fires, or when an update mentions an
unknown user, the actor gives up and asks for the full difference.

The actors `withPts`, `withQts` and `withSeq` and the actor `updatestate` that
fetches the difference share the request queue "messages": one of them executes
at a time.  Which waiting actor is next is left open here.  The actor `withDate`
is not in the queue and applies what it is given at once.

Applying takes time (replied messages may have to be downloaded first).  An
actor whose action is completed meanwhile is no longer registered, but its
completion block still runs; such actors are the list `detached`.

Updates are objects, and so are batches; `object` is their identity.
-/

namespace TelegramPub.Ports.ApplyUpdates

open Verified.Bytes

/-- A `TLUpdate`.  `ptsFields` are `pts` and `pts_count` of the classes with
`hasPts`, `qtsField` is the `qts` of those that respond to it, and `content`
stands for the rest. -/
structure Update where
  object : Nat
  content : Nat := 0
  ptsFields : Option (Int32 × Int32) := none
  qtsField : Option Int32 := none
  deriving DecidableEq

def Update.hasPts (u : Update) : Bool := u.ptsFields.isSome

def Update.hasQts (u : Update) : Bool := u.qtsField.isSome

def Update.pts (u : Update) : Int := (u.ptsFields.map (·.1.toInt)).getD 0

def Update.ptsCount (u : Update) : Int := (u.ptsFields.map (·.2.toInt)).getD 0

def Update.qts (u : Update) : Int := (u.qtsField.map (·.toInt)).getD 0

/-- `TGUpdatesWithPts`, `TGUpdatesWithQts`, `TGUpdatesWithSeq` and
`TGUpdatesWithDate`, the last two with more fields.  The users and chats only
matter for whether processing fails, which is left open. -/
structure Updates where
  object : Nat
  updates : List Update
  date : Int := 0
  seqStart : Int := 0
  seqEnd : Int := 0
  deriving DecidableEq

/-- `TGDatabaseState`. -/
structure DatabaseState where
  pts : Int := 0
  date : Int := 0
  seq : Int := 0
  qts : Int := 0
  deriving DecidableEq

/-- `applyPts:date:seq:qts:unreadCount:`. -/
def DatabaseState.applyPts (db : DatabaseState) (pts date seq qts : Int) : DatabaseState :=
  { pts := if 0 < pts then pts else db.pts
    date := if 0 < date ∧ db.date < date then date else db.date
    seq := if 0 < seq then seq else db.seq
    qts := if 0 < qts then qts else db.qts }

/-- The path of an actor. -/
inductive Path where
  | withPts
  | withQts
  | withSeq
  | withDate
  deriving DecidableEq

/-- What the completion block of `applyUpdates:` captures. -/
structure Application where
  updates : List Update
  statePts : Int
  stateQts : Int
  optionalFinalSeq : Int
  optionalFinalDate : Int
  deriving DecidableEq

/-- A `TGApplyUpdatesActor`.  `applying` is `_waitingForApplyUpdates` with the
block it waits for. -/
structure Actor where
  updateList : List Updates := []
  waitingForApplyUpdatesQueue : List Updates := []
  applying : Option Application := none
  timeoutTimer : Bool := false
  deriving DecidableEq

/-! ## The three checks -/

/-- What a pass over the sorted updates finds. -/
structure Pass where
  inOrder : List Update := []
  expired : List Update := []
  missing : Bool := false
  deriving DecidableEq

/-- The loop of `checkPtsUpdates` and `checkQtsUpdates`: `value` is the number
an update carries and `step` how far it advances. -/
def checkLoop (value step : Update → Int) (databaseValue : Int) : Int → List Update → Pass
  | _, [] => {}
  | current, update :: rest =>
    if value update ≤ databaseValue then
      let pass := checkLoop value step databaseValue current rest
      { pass with expired := update :: pass.expired }
    else if int32 (current + step update) = value update then
      let pass := checkLoop value step databaseValue (value update) rest
      { pass with inOrder := update :: pass.inOrder }
    else { missing := true }

/-- The batches without those whose updates are all among `covered`. -/
def removeCovered (covered : List Update) (list : List Updates) : List Updates :=
  list.filter fun batch =>
    !(!batch.updates.isEmpty && batch.updates.all (covered.contains ·))

/-- `_tryApplyingUpdates:` up to the call of `applyUpdates:`: the greatest
numbers among the updates. -/
def application (updates : List Update) (optionalFinalSeq optionalFinalDate : Int) :
    Application :=
  { updates
    statePts :=
      updates.foldl (fun statePts u => if u.hasPts then max statePts u.pts else statePts) 0
    stateQts :=
      updates.foldl (fun stateQts u => if u.hasQts then max stateQts u.qts else stateQts) 0
    optionalFinalSeq
    optionalFinalDate }

/-- How a check ends. -/
inductive Check where
  | completed
  | waiting (actor : Actor)
  | applying (actor : Actor) (application : Application)
  deriving DecidableEq

/-- `checkPtsUpdates` and `checkQtsUpdates`. -/
def checkExpiring (value step : Update → Int) (before : Update → Update → Prop)
    [DecidableRel before] (databaseValue : Int) (actor : Actor) : Check :=
  if actor.updateList.isEmpty then .completed
  else
    let sorted := (actor.updateList.flatMap (·.updates)).insertionSort before
    let pass := checkLoop value step databaseValue databaseValue sorted
    let updateList := removeCovered pass.inOrder (removeCovered pass.expired actor.updateList)
    let actor := { actor with
      updateList, timeoutTimer := actor.timeoutTimer || pass.missing }
    if pass.inOrder.isEmpty then
      if updateList.isEmpty then .completed else .waiting actor
    else .applying actor (application pass.inOrder 0 0)

/-- The order of `checkPtsUpdates`; the comparator leaves the order of updates
with the same `pts` and `pts_count` open. -/
def ptsBefore (u v : Update) : Prop :=
  u.pts < v.pts ∨ (u.pts = v.pts ∧ v.ptsCount ≤ u.ptsCount)

def qtsBefore (u v : Update) : Prop := u.qts ≤ v.qts

def seqBefore (b c : Updates) : Prop := b.seqEnd ≤ c.seqEnd

instance : DecidableRel ptsBefore := fun u v =>
  inferInstanceAs (Decidable (u.pts < v.pts ∨ (u.pts = v.pts ∧ v.ptsCount ≤ u.ptsCount)))

instance : DecidableRel qtsBefore := fun u v => inferInstanceAs (Decidable (u.qts ≤ v.qts))

instance : DecidableRel seqBefore := fun b c =>
  inferInstanceAs (Decidable (b.seqEnd ≤ c.seqEnd))

/-- `checkPtsUpdates`. -/
def checkPtsUpdates (db : DatabaseState) (actor : Actor) : Check :=
  checkExpiring Update.pts Update.ptsCount ptsBefore db.pts actor

/-- `checkQtsUpdates`. -/
def checkQtsUpdates (db : DatabaseState) (actor : Actor) : Check :=
  checkExpiring Update.qts (fun _ => 1) qtsBefore db.qts actor

/-- The loop of `checkSeqUpdates`, which goes on behind a missing batch: the
batches in order, and whether one was out of order. -/
def seqLoop : Int → List Updates → List Updates × Bool
  | _, [] => ([], false)
  | currentSeq, batch :: rest =>
    if batch.seqStart = int32 (currentSeq + 1) then
      let (inOrder, missing) := seqLoop batch.seqEnd rest
      (batch :: inOrder, missing)
    else
      let (inOrder, _) := seqLoop currentSeq rest
      (inOrder, true)

/-- The updates of batches with the date of their batch. -/
def wrappedUpdates (batches : List Updates) : List (Update × Int) :=
  batches.flatMap fun batch => batch.updates.map fun update => (update, batch.date)

/-- `checkSeqUpdates`. -/
def checkSeqUpdates (db : DatabaseState) (actor : Actor) : Check :=
  if actor.updateList.isEmpty then .completed
  else
    let (inOrder, missing) := seqLoop db.seq (actor.updateList.insertionSort seqBefore)
    let updateList := actor.updateList.filter (!inOrder.contains ·)
    let actor := { actor with updateList, timeoutTimer := actor.timeoutTimer || missing }
    match inOrder.getLast? with
    | none => if updateList.isEmpty then .completed else .waiting actor
    | some lastBatch =>
      let wrapped := wrappedUpdates inOrder
      .applying actor (application (wrapped.map (·.1)) lastBatch.seqEnd
        ((wrapped.getLast?.map (·.2)).getD 0))

/-- The check of an actor's path.  `execute:` of `withDate` applies the updates
by date and completes the action in any case. -/
def check (db : DatabaseState) (actor : Actor) : Path → Check
  | .withPts => checkPtsUpdates db actor
  | .withQts => checkQtsUpdates db actor
  | .withSeq => checkSeqUpdates db actor
  | .withDate =>
    let wrapped := wrappedUpdates (actor.updateList.insertionSort fun b c => b.date ≤ c.date)
    if wrapped.isEmpty then .completed
    else .applying actor (application (wrapped.map (·.1)) 0 0)

/-- What the completion block of `applyUpdates:` does to the stored state. -/
def Application.store (application : Application) (path : Path) (db : DatabaseState) :
    DatabaseState :=
  match path with
  | .withDate =>
    if db.date < application.optionalFinalDate then
      db.applyPts 0 application.optionalFinalDate 0 0
    else db
  | _ => db.applyPts application.statePts application.optionalFinalDate
      application.optionalFinalSeq application.stateQts

/-! ## The actors together -/

/-- What executes in the queue "messages". -/
inductive Job where
  | tryUpdates (path : Path)
  | updateState
  deriving DecidableEq

/-- What has happened to the message history. -/
inductive Entry where
  | applied (path : Path) (update : Update)
  | difference (pts : Int)
  deriving DecidableEq

structure World where
  db : DatabaseState := {}
  executing : Option Job := none
  updateStateRequested : Bool := false
  registered : Path → Option Actor := fun _ => none
  detached : List (Path × Actor) := []
  nextObject : Nat := 0
  log : List Entry := []

def World.setActor (w : World) (path : Path) (actor : Option Actor) : World :=
  { w with registered := Function.update w.registered path actor }

/-- `actionCompleted:`.  The actor leaves the queue; it lives on only in the
block of an application. -/
def World.completeAction (w : World) (path : Path) : World :=
  { w with
    registered := Function.update w.registered path none
    executing := if w.executing = some (.tryUpdates path) then none else w.executing
    detached := w.detached ++
      match w.registered path with
      | some actor => if actor.applying.isSome then [(path, actor)] else []
      | none => [] }

/-- `stateUpdateRequired`. -/
def World.stateUpdateRequired (w : World) : World := { w with updateStateRequested := true }

/-- `cancelTimeoutTimer` of a registered actor. -/
def World.cancelTimeoutTimer (w : World) (path : Path) : World :=
  w.setActor path ((w.registered path).map ({ · with timeoutTimer := false }))

/-- `_failPts`, `_failSeq` and `_failQts` of a registered actor. -/
def World.fail (w : World) (path : Path) : World :=
  (w.cancelTimeoutTimer path).stateUpdateRequired.completeAction path

/-- The same for an actor that is no longer registered; its timer goes with it. -/
def World.failDetached (w : World) (path : Path) : World :=
  w.stateUpdateRequired.completeAction path

/-- What an actor does after its check.  `fails` says whether processing meets
an unknown user or chat. -/
def World.conclude (w : World) (path : Path) (fails : List Update → Bool) : Check → World
  | .completed => w.completeAction path
  | .waiting actor => w.setActor path (some actor)
  | .applying actor application =>
    if fails application.updates then (w.setActor path (some actor)).fail path
    else w.setActor path (some { actor with applying := some application })

/-- `requestActor:`.  An actor that is registered is joined, and checks again if
it executes and is not applying; `withDate` executes at once, the others wait
for the queue. -/
def World.requestActor (w : World) (path : Path) (batches : List Updates)
    (fails : List Update → Bool) : World :=
  match w.registered path with
  | some actor =>
    if actor.applying.isSome then
      w.setActor path (some { actor with
        waitingForApplyUpdatesQueue := actor.waitingForApplyUpdatesQueue ++ batches })
    else
      let actor := { actor with updateList := actor.updateList ++ batches }
      let w := w.setActor path (some actor)
      if w.executing = some (.tryUpdates path) then
        w.conclude path fails (check w.db actor path)
      else w
  | none =>
    let actor : Actor := { updateList := batches }
    match path with
    | .withDate =>
      match check w.db actor .withDate with
      | .applying actor application =>
        if fails application.updates then w
        else { w with detached := w.detached ++
          [(.withDate, { actor with applying := some application })] }
      | _ => w
    | path => w.setActor path (some actor)

/-- `execute:`, when nothing else executes in the queue. -/
def World.execute (w : World) (path : Path) (fails : List Update → Bool) : World :=
  match w.executing, w.registered path with
  | none, some actor =>
    { w with executing := some (.tryUpdates path) }.conclude path fails
      (check w.db actor path)
  | _, _ => w

/-- The application of an actor comes to its end. -/
def World.store (w : World) (path : Path) (application : Application) : World :=
  { w with
    db := application.store path w.db
    log := w.log ++ application.updates.map (.applied path) }

/-- The actor after its application: the batches that came meanwhile join the
others. -/
def Actor.resume (actor : Actor) : Actor :=
  { actor with
    updateList := actor.updateList ++ actor.waitingForApplyUpdatesQueue
    waitingForApplyUpdatesQueue := []
    applying := none }

/-- The completion block of a registered actor. -/
def World.applyCompleted (w : World) (path : Path) (fails : List Update → Bool) : World :=
  match w.registered path with
  | some actor =>
    match actor.applying with
    | some application =>
      let w := (w.store path application).setActor path (some actor.resume)
      w.conclude path fails (check w.db actor.resume path)
    | none => w
  | none => w

/-- What a detached actor does after its check: `completeAction` names the
path, so it completes the action of whichever actor is registered there. -/
def World.concludeDetached (w : World) (path : Path) (fails : List Update → Bool) :
    Check → World
  | .completed => w.completeAction path
  | .waiting _ => w
  | .applying actor application =>
    if fails application.updates then w.failDetached path
    else { w with detached := w.detached ++
      [(path, { actor with applying := some application })] }

/-- The completion block of a detached actor. -/
def World.detachedApplyCompleted (w : World) (index : Nat) (fails : List Update → Bool) :
    World :=
  match w.detached[index]? with
  | some (path, actor) =>
    match actor.applying with
    | some application =>
      let w := { w.store path application with detached := w.detached.eraseIdx index }
      match path with
      | .withDate => w
      | path => w.concludeDetached path fails (check w.db actor.resume path)
    | none => w
  | none => w

/-- `timeoutReached`. -/
def World.timeout (w : World) (path : Path) : World :=
  match w.registered path with
  | some actor => if actor.timeoutTimer then w.fail path else w
  | none => w

/-- `timeoutReached` of a detached actor. -/
def World.detachedTimeout (w : World) (index : Nat) : World :=
  match w.detached[index]? with
  | some (path, actor) =>
    if actor.timeoutTimer then
      { w with detached := w.detached.set index (path, { actor with timeoutTimer := false })
        }.failDetached path
    else w
  | none => w

/-- `updatestate` begins, when nothing else executes in the queue. -/
def World.executeUpdateState (w : World) : World :=
  if w.executing = none ∧ w.updateStateRequested then
    { w with executing := some .updateState }
  else w

/-- A part of the difference has been applied and its state is stored. -/
def World.stateFetched (w : World) (state : DatabaseState) : World :=
  if w.executing = some .updateState then
    let db := w.db.applyPts state.pts state.date state.seq state.qts
    { w with db, log := w.log ++ [.difference db.pts] }
  else w

/-- `updatestate` is done, or has failed. -/
def World.stateFinished (w : World) : World :=
  if w.executing = some .updateState then
    { w with executing := none, updateStateRequested := false }
  else w

/-- New updates are new objects. -/
def stampUpdates (next : Nat) (updates : List Update) : List Update :=
  (updates.zipIdx next).map fun (update, object) => { update with object }

/-- The batches of an event as new objects, and the next free identity. -/
def stamp (next : Nat) : List Updates → List Updates × Nat
  | [] => ([], next)
  | batch :: batches =>
    let (batches, after) := stamp (next + 1 + batch.updates.length) batches
    ({ batch with object := next, updates := stampUpdates (next + 1) batch.updates } ::
      batches, after)

/-- What can happen to the actors. -/
inductive Event where
  | addUpdates (path : Path) (batches : List Updates) (fails : List Update → Bool)
  | execute (path : Path) (fails : List Update → Bool)
  | applyCompleted (path : Path) (fails : List Update → Bool)
  | detachedApplyCompleted (index : Nat) (fails : List Update → Bool)
  | timeout (path : Path)
  | detachedTimeout (index : Nat)
  | stateUpdateRequired
  | executeUpdateState
  | stateFetched (state : DatabaseState)
  | stateFinished

/-- The step function of the actors. -/
def step (w : World) : Event → World
  | .addUpdates path batches fails =>
    let (batches, nextObject) := stamp w.nextObject batches
    { w with nextObject }.requestActor path batches fails
  | .execute path fails => w.execute path fails
  | .applyCompleted path fails => w.applyCompleted path fails
  | .detachedApplyCompleted index fails => w.detachedApplyCompleted index fails
  | .timeout path => w.timeout path
  | .detachedTimeout index => w.detachedTimeout index
  | .stateUpdateRequired => w.stateUpdateRequired
  | .executeUpdateState => w.executeUpdateState
  | .stateFetched state => w.stateFetched state
  | .stateFinished => w.stateFinished

end TelegramPub.Ports.ApplyUpdates
