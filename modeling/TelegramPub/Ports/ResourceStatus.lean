import TelegramPub.Ports.MediaBox

/-!
# Statuses of media resources

`resourceStatus:` of `MediaBox` tells a subscriber whether a resource is local, fetched or
remote.  Its work is spread over three queues.  On the concurrent queue it looks for the
complete file, on the status queue it adds the subscriber to the context of the resource, and
if this has no status yet, it is found out on the data queue.  What the data queue does to a
resource is announced by blocks on the status queue; the status of a result is passed on
without being kept in the context.  A block on the
concurrent queue has two steps, since blocks of the other queues may run between its look at
the file and its dispatch.  A subscription is made in one step.

The progress of a fetch and the subscribers of `resourceData:` are left out.
-/

namespace TelegramPub.Ports.ResourceStatus

open Verified.Bytes
open Ports.MediaBox (Box Block fileSize)

/-- `MediaResourceStatusType`. -/
inductive Status where
  /-- `MediaResourceStatusLocal` -/
  | statusLocal
  /-- `MediaResourceStatusFetching` -/
  | statusFetching
  /-- `MediaResourceStatusRemote` -/
  | statusRemote
  deriving DecidableEq

/-- A subscriber of `resourceStatus:`.  `live` is whether it is neither completed nor disposed
of, and `last` what it was told last. -/
structure Subscriber (R : Type*) where
  resource : R
  last : Option Status := none
  live : Bool := true
  /-- Its disposable is set. -/
  disposable : Bool := false
  deriving DecidableEq

/-- `ResourceStatusContext`. -/
structure Context where
  status : Option Status := none
  subscribers : List Nat := []
  deriving DecidableEq

/-- A block on `_dataQueue`. -/
inductive DataBlock (R : Type*) where
  /-- One that `MediaBox` has without subscribers. -/
  | box (block : Block R)
  /-- The look for the status of a resource. -/
  | status (resource : R)
  deriving DecidableEq

/-- A block on `_statusQueue`. -/
inductive StatusBlock (R : Type*) where
  /-- A subscriber is added. -/
  | subscribe (subscriber : Nat)
  /-- A subscriber that was disposed of is removed. -/
  | remove (subscriber : Nat)
  /-- A fetch has started. -/
  | fetching (resource : R)
  /-- A result of a fetch. -/
  | progress (resource : R) (status : Status)
  /-- A fetch was dropped. -/
  | changed (resource : R) (status : Status)
  /-- The status that was looked for. -/
  | found (resource : R) (status : Status)
  deriving DecidableEq

instance {R : Type*} [DecidableEq R] : LawfulBEq (StatusBlock R) := inferInstance

/-- The state of the process.  A data context has the number that `generation` had when it was
made; the results of a fetch are stored in the context that it was started in. -/
structure State (R : Type*) where
  box : Box R := {}
  generation : R → Nat := fun _ => 0
  /-- `dataContext.data.complete` -/
  dataComplete : R → Bool := fun _ => false
  /-- The data context of each fetch. -/
  fetchGenerations : List Nat := []
  statusContexts : R → Option Context := fun _ => none
  subscribers : List (Subscriber R) := []
  /-- The subscribers whose block is on the concurrent queue, and whether it has looked for the
  file. -/
  concurrentQueue : List (Nat × Bool) := []
  dataQueue : List (DataBlock R) := []
  statusQueue : List (StatusBlock R) := []

section Blocks

variable {R : Type*} [DecidableEq R] (contents : R → Data)

/-! ## The status queue -/

/-- `putNext:`. -/
def State.putNext (s : State R) (x : Nat) (status : Status) : State R :=
  { s with
    subscribers := s.subscribers.modify x fun subscriber =>
      if subscriber.live then { subscriber with last := some status } else subscriber }

/-- `[statusContext.subscribers removeItem:]`; a context without subscribers is removed. -/
def State.removeItem (s : State R) (x : Nat) (r : R) : State R :=
  match s.statusContexts r with
  | none => s
  | some context =>
    let subscribers := context.subscribers.erase x
    { s with
      statusContexts :=
        Function.update s.statusContexts r
          (if subscribers.isEmpty then none else some { context with subscribers }) }

/-- `putCompletion` of a subscriber whose disposable is set. -/
def State.putCompletion (s : State R) (x : Nat) (r : R) : State R :=
  { s with
    subscribers := s.subscribers.modify x ({ · with live := false }) }.removeItem x r

/-- `subscriberItem`. -/
def State.subscriberItem (s : State R) (status : Status) (x : Nat) : State R :=
  match s.subscribers[x]? with
  | none => s
  | some subscriber =>
    if subscriber.live then
      let s := s.putNext x status
      if status = .statusLocal then s.putCompletion x subscriber.resource else s
    else s

/-- The loop over the subscribers of a context. -/
def State.announce (s : State R) (status : Status) (subscribers : List Nat) : State R :=
  subscribers.foldl (fun s x => s.subscriberItem status x) s

/-- `statusContext.status = status`, and the loop. -/
def State.setStatus (s : State R) (r : R) (context : Context) (status : Status) : State R :=
  { s with
    statusContexts :=
      Function.update s.statusContexts r
        (some { context with status := some status }) }.announce status context.subscribers

/-- A subscriber is added.  It is told the status of the context, or that is looked for. -/
def State.subscribe (s : State R) (x : Nat) : State R :=
  match s.subscribers[x]? with
  | none => s
  | some subscriber =>
    let r := subscriber.resource
    let context := (s.statusContexts r).getD {}
    let s : State R :=
      { s with
        statusContexts :=
          Function.update s.statusContexts r
            (some { context with subscribers := context.subscribers ++ [x] }) }
    let s :=
      match context.status with
      | some status => s.putNext x status
      | none => { s with dataQueue := s.dataQueue ++ [DataBlock.status r] }
    if subscriber.live then
      { s with subscribers := s.subscribers.modify x ({ · with disposable := true }) }
    else s.removeItem x r

/-- A block of the status queue. -/
def State.performStatus (s : State R) : StatusBlock R → State R
  | .subscribe x => s.subscribe x
  | .remove x =>
    match s.subscribers[x]? with
    | some subscriber => s.removeItem x subscriber.resource
    | none => s
  | .fetching r =>
    match s.statusContexts r with
    | some context => s.setStatus r context .statusFetching
    | none => s
  | .progress r status =>
    match s.statusContexts r with
    | some context => s.announce status context.subscribers
    | none => s
  | .changed r status =>
    match s.statusContexts r with
    | some context => if context.status ≠ some status then s.setStatus r context status else s
    | none => s
  | .found r status =>
    match s.statusContexts r with
    | some context => if context.status = none then s.setStatus r context status else s
    | none => s

/-! ## The data queue -/

/-- A block for the status queue. -/
def State.notify (s : State R) (block : StatusBlock R) : State R :=
  { s with statusQueue := s.statusQueue ++ [block] }

/-- The status of a resource. -/
def State.status (s : State R) (r : R) : Status :=
  if fileSize (s.box.completeFile r) ≠ 0 then .statusLocal
  else if (s.box.fetchDisposable r).isSome then .statusFetching
  else .statusRemote

/-- The status that is announced when a fetch is dropped. -/
def State.droppedStatus (s : State R) (r : R) : Status :=
  if s.dataComplete r then .statusLocal else .statusRemote

/-- The status that is announced for a result. -/
def resultStatus (complete : Bool) : Status :=
  if complete then .statusLocal else .statusFetching

/-- `dataContext.data = updatedData`, in the context of the fetch. -/
def State.storeComplete (s : State R) (f : Nat) (r : R) (complete : Bool) : State R :=
  if s.fetchGenerations[f]? = some (s.generation r) then
    { s with dataComplete := Function.update s.dataComplete r complete }
  else s

/-- A result of a fetch. -/
def State.result (s : State R) (f : Nat) (data : Data) (complete : Bool) : State R :=
  match s.box.fetches[f]? with
  | none => s
  | some fetch =>
    ({ s with box := s.box.result f data complete }.storeComplete f fetch.resource
      complete).notify (.progress fetch.resource (resultStatus complete))

/-- The block that disposes of a subscriber of a fetch, if there is a data context. -/
def State.removeSubscriber (s : State R) (subscriber : Nat) (r : R) : State R :=
  if s.box.fetchSubscribers r = [] then s
  else
    let s : State R := { s with box := s.box.removeSubscriber subscriber r }
    if s.box.fetchSubscribers r = [] then s.notify (.changed r (s.droppedStatus r)) else s

/-- `cancelInteractiveResourceFetch:`. -/
def State.cancel (s : State R) (r : R) : State R :=
  if s.box.fetchDisposable r = none then s
  else { s with box := s.box.dropFetch r }.notify (.changed r (s.droppedStatus r))

/-- The data context, which is made if there is none. -/
def State.dataContext (s : State R) (r : R) : State R :=
  if s.box.fetchSubscribers r = [] then
    { s with
      generation := Function.update s.generation r (s.generation r + 1)
      dataComplete := Function.update s.dataComplete r false }
  else s

/-- The start of a fetch, if there is none.  The legacy cache answers at once. -/
def State.ensureFetch (s : State R) (r : R) (cached : Bool) : State R :=
  if s.box.fetchDisposable r = none then
    let f := s.box.fetches.length
    let s :=
      { s with
        box := s.box.startFetch contents r cached
        fetchGenerations := s.fetchGenerations ++ [s.generation r] }.notify (.fetching r)
    if cached then (s.storeComplete f r true).notify (.progress r .statusLocal) else s
  else s

/-- `[disposable setDisposable:]`. -/
def State.setDisposable (s : State R) (subscriber : Nat) (r : R) : State R :=
  if subscriber ∈ s.box.disposedEarly then s.removeSubscriber subscriber r
  else { s with box := s.box.setDisposable subscriber r }

/-- The block of `fetchedResource:`. -/
def State.fetchedResource (s : State R) (subscriber : Nat) (r : R) (cached : Bool) : State R :=
  if fileSize (s.box.completeFile r) ≠ 0 then s
  else
    let s := s.dataContext r
    let s : State R := { s with box := s.box.addSubscriber subscriber r }
    (s.ensureFetch contents r cached).setDisposable subscriber r

/-- A block of the data queue; `cached` says whether the legacy cache has the resource of a new
fetch. -/
def State.performData (s : State R) (cached : Bool) : DataBlock R → State R
  | .box (.fetchedResource subscriber r) => s.fetchedResource contents subscriber r cached
  | .box (.result f data complete) => s.result f data complete
  | .box (.close f) => { s with box := s.box.closeFile f }
  | .box (.dispose subscriber r) => s.removeSubscriber subscriber r
  | .box (.cancel r) => s.cancel r
  | .status r => s.notify (.found r (s.status r))

section Box

variable (s : State R) (r : R)

omit [DecidableEq R] in
theorem notify_box (block : StatusBlock R) : (s.notify block).box = s.box := rfl

theorem storeComplete_box (f : Nat) (complete : Bool) :
    (s.storeComplete f r complete).box = s.box := by
  unfold State.storeComplete
  split <;> rfl

theorem dataContext_box : (s.dataContext r).box = s.box := by
  unfold State.dataContext
  split <;> rfl

/-- Without a data context there is no fetch, and no subscriber to remove. -/
theorem removeSubscriber_box (subscriber : Nat) (hcontext : s.box.fetchSubscribers r ≠ []) :
    (s.removeSubscriber subscriber r).box = s.box.removeSubscriber subscriber r := by
  unfold State.removeSubscriber
  rw [if_neg hcontext]
  dsimp only
  split <;> rfl

theorem ensureFetch_box (cached : Bool) :
    (s.ensureFetch contents r cached).box = s.box.ensureFetch contents r cached := by
  unfold State.ensureFetch MediaBox.Box.ensureFetch
  split
  · split
    · rw [notify_box, storeComplete_box, notify_box]
    · rfl
  · rfl

theorem ensureFetch_fetchSubscribers (b : Box R) (cached : Bool) :
    (b.ensureFetch contents r cached).fetchSubscribers = b.fetchSubscribers := by
  unfold MediaBox.Box.ensureFetch MediaBox.Box.startFetch MediaBox.Box.disposeFetch
    MediaBox.Box.closeFile MediaBox.Box.result MediaBox.Box.openFile MediaBox.Box.write
    MediaBox.Box.link
  grind

theorem removeSubscriber_of_nil (b : Box R) (subscriber : Nat)
    (hnone : b.fetchSubscribers r = []) (hfetch : b.fetchDisposable r = none) :
    b.removeSubscriber subscriber r = b := by
  have hself : Function.update b.fetchSubscribers r [] = b.fetchSubscribers :=
    Function.update_eq_self_iff.2 hnone.symm
  unfold MediaBox.Box.removeSubscriber MediaBox.Box.dropFetch
  rw [hnone, List.erase_nil]
  dsimp only
  rw [hself, if_pos (by rfl), hfetch]

/-- The data queue does to the cache what it does in `MediaBox`, if a fetch has subscribers. -/
theorem perform_box (cached : Bool) (block : Block R)
    (hwanted : ∀ r, s.box.fetchSubscribers r = [] → s.box.fetchDisposable r = none) :
    (s.performData contents cached (.box block)).box = s.box.perform contents cached block := by
  cases block with
  | fetchedResource subscriber r =>
    show (s.fetchedResource contents subscriber r cached).box =
      s.box.fetchedResource contents subscriber r cached
    unfold State.fetchedResource MediaBox.Box.fetchedResource
    split
    · rfl
    · dsimp only
      unfold State.setDisposable MediaBox.Box.setDisposable
      rw [ensureFetch_box, dataContext_box]
      split
      · rw [removeSubscriber_box, ensureFetch_box]
        rw [ensureFetch_box, ensureFetch_fetchSubscribers]
        simp [MediaBox.Box.addSubscriber]
      · rfl
  | result f data complete =>
    show (s.result f data complete).box = s.box.result f data complete
    unfold State.result
    cases hf : s.box.fetches[f]? with
    | none =>
      unfold MediaBox.Box.result
      rw [hf]
    | some fetch =>
      dsimp only
      rw [notify_box, storeComplete_box]
  | close f => rfl
  | dispose subscriber r =>
    show (s.removeSubscriber subscriber r).box = s.box.removeSubscriber subscriber r
    by_cases hnone : s.box.fetchSubscribers r = []
    · rw [removeSubscriber_of_nil r s.box subscriber hnone (hwanted r hnone)]
      unfold State.removeSubscriber
      rw [if_pos hnone]
    · exact removeSubscriber_box s r subscriber hnone
  | cancel r =>
    show (s.cancel r).box = s.box.dropFetch r
    unfold State.cancel
    split
    · rename_i hnone
      unfold MediaBox.Box.dropFetch
      rw [hnone]
    · rfl

end Box

inductive Event (R : Type*) where
  /-- `resourceStatus:` is subscribed to -/
  | resourceStatus (resource : R)
  /-- A subscriber of it is disposed of. -/
  | dispose (subscriber : Nat)
  /-- A block on the concurrent queue goes on. -/
  | concurrent (position : Nat)
  /-- The next block of the status queue runs. -/
  | runStatus
  /-- The next block of the data queue runs. -/
  | runData (cached : Bool)
  /-- `fetchedResource:` -/
  | fetchedResource (resource : R)
  /-- A subscriber of a fetch is disposed of. -/
  | disposeFetch (subscriber : Nat)
  /-- `cancelInteractiveResourceFetch:` -/
  | cancelInteractiveResourceFetch (resource : R)
  /-- The network delivers the next bytes for a fetch, up to a length. -/
  | deliver (fetch : Nat) (length : Nat)
  /-- The network has delivered all bytes. -/
  | finish (fetch : Nat)
  deriving DecidableEq

/-- A step of the cache, whose blocks are put on the data queue. -/
def State.boxStep (s : State R) (event : MediaBox.Event R) : State R :=
  let box := MediaBox.step contents s.box event
  { s with
    box := { box with dataQueue := [] }
    dataQueue := s.dataQueue ++ box.dataQueue.map .box }

/-- The first look of a new subscriber: a complete file is told at once. -/
def State.look (s : State R) (position x : Nat) : State R :=
  match s.subscribers[x]? with
  | none => s
  | some subscriber =>
    if fileSize (s.box.completeFile subscriber.resource) ≠ 0 then
      let s := s.putNext x .statusLocal
      { s with
        subscribers := s.subscribers.modify x ({ · with live := false })
        concurrentQueue := s.concurrentQueue.eraseIdx position }
    else { s with concurrentQueue := s.concurrentQueue.set position (x, true) }

/-- A block on the concurrent queue: the look, and then the dispatch. -/
def State.concurrent (s : State R) (position : Nat) : State R :=
  match s.concurrentQueue[position]? with
  | none => s
  | some (x, false) => s.look position x
  | some (x, true) =>
    { s with concurrentQueue := s.concurrentQueue.eraseIdx position }.notify (.subscribe x)

/-- A subscriber is disposed of: if its disposable is set, a block removes it. -/
def State.dispose (s : State R) (x : Nat) : State R :=
  match s.subscribers[x]? with
  | none => s
  | some subscriber =>
    if subscriber.live then
      let s : State R :=
        { s with subscribers := s.subscribers.modify x ({ · with live := false }) }
      if subscriber.disposable then s.notify (.remove x) else s
    else s

def step (s : State R) : Event R → State R
  | .resourceStatus r =>
    { s with
      subscribers := s.subscribers ++ [{ resource := r }]
      concurrentQueue := s.concurrentQueue ++ [(s.subscribers.length, false)] }
  | .dispose x => s.dispose x
  | .concurrent position => s.concurrent position
  | .runStatus =>
    match s.statusQueue with
    | [] => s
    | block :: statusQueue => { s with statusQueue }.performStatus block
  | .runData cached =>
    match s.dataQueue with
    | [] => s
    | block :: dataQueue => { s with dataQueue }.performData contents cached block
  | .fetchedResource r => s.boxStep contents (.fetchedResource r)
  | .disposeFetch subscriber => s.boxStep contents (.dispose subscriber)
  | .cancelInteractiveResourceFetch r =>
    s.boxStep contents (.cancelInteractiveResourceFetch r)
  | .deliver f length => s.boxStep contents (.deliver f length)
  | .finish f => s.boxStep contents (.finish f)

/-- The application is started with some files. -/
def start (partialFile : R → Option Data) (complete : R → Bool) : State R :=
  { box := { partialFile, complete } }

/-- No block is queued. -/
def Quiescent (s : State R) : Prop :=
  s.concurrentQueue = [] ∧ s.dataQueue = [] ∧ s.statusQueue = []

/-- Each live subscriber was told the status of its resource last. -/
def Converged (s : State R) : Prop :=
  ∀ subscriber ∈ s.subscribers, subscriber.live →
    subscriber.last = some (s.status subscriber.resource)

instance (s : State R) : Decidable (Quiescent s) := by
  unfold Quiescent
  infer_instance

instance (s : State R) : Decidable (Converged s) := by
  unfold Converged
  infer_instance

end Blocks

end TelegramPub.Ports.ResourceStatus
