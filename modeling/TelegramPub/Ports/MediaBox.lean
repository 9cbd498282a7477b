import TelegramPub.Verified.Bytes
import TelegramPub.Verified.Descriptors
import TelegramPub.Verified.Machine

/-!
# The cache of media files

`MediaBox` keeps a partial file for each resource, and beside it the complete file, which
is a hard link to the partial one.  All its work is done on one queue.  A fetch asks for
the bytes from the end of the partial file on; each result that it delivers is a block on
the queue, and its end is another one, which closes the descriptor.

When a fetch is disposed of, the descriptor is closed at once, but the results that are
already on the queue still run.

The network delivers the bytes of a resource from the position that was asked for.  The
legacy cache delivers all of them, whatever was asked for, while the fetch is started.
Writes are complete, opening succeeds, and sizes are natural numbers.  Statuses and the
subscribers of `resourceData:` are left out: they change no file.
-/

namespace TelegramPub.Ports.MediaBox

open Verified.Bytes Verified.Descriptors

/-- A started fetch: the variable `fd` of its blocks, the position of the bytes that the
network delivers next, and whether it is over or disposed of. -/
structure Fetch (R : Type*) where
  resource : R
  position : Nat
  fd : Option Nat := none
  disposed : Bool := false
  deriving DecidableEq

/-- A block on `_dataQueue`. -/
inductive Block (R : Type*) where
  /-- `fetchedResource:`, for a subscriber -/
  | fetchedResource (subscriber : Nat) (resource : R)
  /-- The next block of a fetch. -/
  | result (fetch : Nat) (data : Data) (complete : Bool)
  /-- The block of `onDispose:` -/
  | close (fetch : Nat)
  /-- The disposal of a subscriber. -/
  | dispose (subscriber : Nat) (resource : R)
  /-- `cancelInteractiveResourceFetch:` -/
  | cancel (resource : R)
  deriving DecidableEq

/-- The files, and the state of the process.  A descriptor stands for the partial file of
a resource. -/
structure Box (R : Type*) where
  partialFile : R → Option Data := fun _ => none
  /-- The complete file is linked. -/
  complete : R → Bool := fun _ => false
  descriptors : Table R := []
  fetches : List (Fetch R) := []
  fetchSubscribers : R → List Nat := fun _ => []
  fetchDisposable : R → Option Nat := fun _ => none
  dataQueue : List (Block R) := []
  /-- The number of subscribers, which is the next one's name. -/
  subscribers : Nat := 0
  /-- The subscribers whose disposable is set. -/
  disposables : List (Nat × R) := []
  /-- The subscribers that were disposed of before. -/
  disposedEarly : List Nat := []

/-- `fileSize`. -/
def fileSize (file : Option Data) : Nat := (file.getD []).length

section Blocks

variable {R : Type*} [DecidableEq R] (contents : R → Data)

/-- The complete file: the partial one under another name. -/
def Box.completeFile (s : Box R) (r : R) : Option Data :=
  if s.complete r then s.partialFile r else none

/-- `open`, if the fetch has no descriptor yet. -/
def Box.openFile (s : Box R) (f : Nat) (fetch : Fetch R) : Box R :=
  match fetch.fd with
  | some _ => s
  | none =>
    { s with
      partialFile :=
        Function.update s.partialFile fetch.resource
          (some ((s.partialFile fetch.resource).getD []))
      descriptors := insert s.descriptors fetch.resource
      fetches := s.fetches.set f { fetch with fd := some (lowestFree s.descriptors) } }

/-- `write`: to the file of the descriptor, if it is open. -/
def Box.write (s : Box R) (fd : Nat) (data : Data) : Box R :=
  match lookup s.descriptors fd with
  | some r =>
    { s with
      partialFile := Function.update s.partialFile r (some ((s.partialFile r).getD [] ++ data)) }
  | none => s

/-- `link`, which fails if there is no partial file, or a complete one already. -/
def Box.link (s : Box R) (r : R) : Box R :=
  if (s.partialFile r).isSome then { s with complete := Function.update s.complete r true } else s

/-- A result of a fetch. -/
def Box.result (s : Box R) (f : Nat) (data : Data) (complete : Bool) : Box R :=
  match s.fetches[f]? with
  | none => s
  | some fetch =>
    let fd := fetch.fd.getD (lowestFree s.descriptors)
    let s := (s.openFile f fetch).write fd data
    if complete then s.link fetch.resource else s

/-- `close`, if the fetch has a descriptor. -/
def Box.closeFile (s : Box R) (f : Nat) : Box R :=
  match s.fetches[f]?.bind (·.fd) with
  | some fd => { s with descriptors := release s.descriptors fd }
  | none => s

/-- `[fetchDisposable dispose]`, on the queue. -/
def Box.disposeFetch (s : Box R) (f : Nat) : Box R :=
  match s.fetches[f]? with
  | none => s
  | some fetch =>
    if fetch.disposed then s
    else { s with fetches := s.fetches.set f { fetch with disposed := true } }.closeFile f

/-- The end of the fetch of a resource: `fetchDisposable` is disposed of and cleared. -/
def Box.dropFetch (s : Box R) (r : R) : Box R :=
  match s.fetchDisposable r with
  | none => s
  | some f =>
    { s.disposeFetch f with fetchDisposable := Function.update s.fetchDisposable r none }

/-- The start of a fetch.  The legacy cache answers at once, and the fetch is over. -/
def Box.startFetch (s : Box R) (r : R) (cached : Bool) : Box R :=
  let f := s.fetches.length
  let s' : Box R :=
    { s with
      fetches := s.fetches ++ [{ resource := r, position := fileSize (s.partialFile r) }] }
  let s' := if cached then (s'.result f (contents r) true).disposeFetch f else s'
  { s' with fetchDisposable := Function.update s.fetchDisposable r (some f) }

/-- A fetch of the resource would be started. -/
def Box.startsFetch (s : Box R) (r : R) : Bool :=
  fileSize (s.completeFile r) == 0 && (s.fetchDisposable r).isNone

/-- The block that disposes of a subscriber. -/
def Box.removeSubscriber (s : Box R) (subscriber : Nat) (r : R) : Box R :=
  let fetchSubscribers := (s.fetchSubscribers r).erase subscriber
  let s := { s with fetchSubscribers := Function.update s.fetchSubscribers r fetchSubscribers }
  if fetchSubscribers.isEmpty then s.dropFetch r else s

/-- `[dataContext.fetchSubscribers addItem:]`. -/
def Box.addSubscriber (s : Box R) (subscriber : Nat) (r : R) : Box R :=
  { s with
    fetchSubscribers :=
      Function.update s.fetchSubscribers r (s.fetchSubscribers r ++ [subscriber]) }

/-- A fetch, if there is none. -/
def Box.ensureFetch (s : Box R) (r : R) (cached : Bool) : Box R :=
  if s.fetchDisposable r = none then s.startFetch contents r cached else s

/-- `[disposable setDisposable:]`: a subscriber that was disposed of before is removed at
once. -/
def Box.setDisposable (s : Box R) (subscriber : Nat) (r : R) : Box R :=
  if subscriber ∈ s.disposedEarly then s.removeSubscriber subscriber r
  else { s with disposables := (subscriber, r) :: s.disposables }

/-- The block of `fetchedResource:`. -/
def Box.fetchedResource (s : Box R) (subscriber : Nat) (r : R) (cached : Bool) : Box R :=
  if fileSize (s.completeFile r) ≠ 0 then s
  else ((s.addSubscriber subscriber r).ensureFetch contents r cached).setDisposable subscriber r

/-- A block; `cached` says whether the legacy cache has the resource of a new fetch. -/
def Box.perform (s : Box R) (cached : Bool) : Block R → Box R
  | .fetchedResource subscriber r => s.fetchedResource contents subscriber r cached
  | .result f data complete => s.result f data complete
  | .close f => s.closeFile f
  | .dispose subscriber r => s.removeSubscriber subscriber r
  | .cancel r => s.dropFetch r

inductive Event (R : Type*) where
  /-- `fetchedResource:` -/
  | fetchedResource (resource : R)
  /-- A subscriber is disposed of. -/
  | dispose (subscriber : Nat)
  /-- `cancelInteractiveResourceFetch:` -/
  | cancelInteractiveResourceFetch (resource : R)
  /-- The network delivers the next bytes for a fetch, up to a length. -/
  | deliver (fetch : Nat) (length : Nat)
  /-- The network has delivered all bytes. -/
  | finish (fetch : Nat)
  /-- The next block of the queue runs. -/
  | perform (cached : Bool)
  /-- The application is started again. -/
  | restart
  deriving DecidableEq

def Box.enqueue (s : Box R) (blocks : List (Block R)) : Box R :=
  { s with dataQueue := s.dataQueue ++ blocks }

/-- A result without data for a fetch that is not over. -/
def Box.deliver (s : Box R) (f : Nat) (length : Nat) : Box R :=
  match s.fetches[f]? with
  | none => s
  | some fetch =>
    if fetch.disposed then s
    else
      let data := ((contents fetch.resource).drop fetch.position).take length
      { s with
        fetches :=
          s.fetches.set f { fetch with position := fetch.position + data.length } }.enqueue
          [.result f data false]

/-- The last result, and the end of the fetch. -/
def Box.finish (s : Box R) (f : Nat) : Box R :=
  match s.fetches[f]? with
  | none => s
  | some fetch =>
    if fetch.disposed ∨ fetch.position < (contents fetch.resource).length then s
    else
      { s with fetches := s.fetches.set f { fetch with disposed := true } }.enqueue
        [.result f [] true, .close f]

def step (s : Box R) : Event R → Box R
  | .fetchedResource r =>
    { s with subscribers := s.subscribers + 1 }.enqueue [.fetchedResource s.subscribers r]
  | .dispose subscriber =>
    match s.disposables.find? (·.1 == subscriber) with
    | some (_, r) =>
      { s with disposables := s.disposables.filter (·.1 != subscriber) }.enqueue
        [.dispose subscriber r]
    | none => { s with disposedEarly := subscriber :: s.disposedEarly }
  | .cancelInteractiveResourceFetch r => s.enqueue [.cancel r]
  | .deliver f length => s.deliver contents f length
  | .finish f => s.finish contents f
  | .perform cached =>
    match s.dataQueue with
    | [] => s
    | block :: dataQueue => { s with dataQueue }.perform contents cached block
  | .restart => { partialFile := s.partialFile, complete := s.complete }

/-- Each partial file is a beginning of its resource, and each complete file is the whole. -/
def Uncorrupted (s : Box R) : Prop :=
  ∀ r, (∀ data, s.partialFile r = some data → data <+: contents r) ∧
    ∀ data, s.completeFile r = some data → data = contents r

/-- The fetch is the one of its resource. -/
def Box.isCurrent (s : Box R) (f : Nat) : Bool :=
  (s.fetches[f]?.bind fun fetch => s.fetchDisposable fetch.resource) == some f

/-- A result runs while its fetch is the one of its resource, and the legacy cache answers
for a resource without data only. -/
def Orderly (s : Box R) : Event R → Prop
  | .perform cached =>
    match s.dataQueue with
    | .result f _ _ :: _ => s.isCurrent f
    | .fetchedResource _ r :: _ =>
      cached → s.startsFetch r → fileSize (s.partialFile r) = 0
    | _ => True
  | _ => True

instance (s : Box R) (event : Event R) : Decidable (Orderly s event) := by
  unfold Orderly
  split
  · split <;> infer_instance
  · infer_instance

end Blocks

end TelegramPub.Ports.MediaBox
