import TelegramPub.Verified.Machine
import Mathlib.Data.List.AList
import Mathlib.Data.Rat.Defs

/-!
# ActionStage

Actors are requested by a path, report to the watchers of the path, and are cancelled
when nobody watches any more, at once or after a timeout.  An actor may belong to a
request queue; then it is executed when it is the first of the queue.

Everything runs on one serial queue, but `execute`, `cancel` and the watchers'
callbacks may call `ActionStage` again, before the function that called them has
finished.  So what is left to do of the functions that are running is part of the
state, as a stack of instructions.  User code runs when the stack is empty or its first
instruction is `callback`.

The options, results and messages that are passed through are left out, and
`prepare:` only says what the queue and the timeout of the actor are.  A watcher whose
delegate is gone is one whose callback does nothing.
-/

namespace TelegramPub.Ports.ActorRequests

abbrev Path := String

/-- An actor.  Two actors are the same object if they have the same number. -/
structure ASActor where
  id : Nat
  path : Path
  requestQueueName : Option String
  cancelTimeout : Rat
  deriving DecidableEq

/-- An `ASHandle`. -/
abbrev Handle := Nat

/-- The dictionary of an active request. -/
structure RequestInfo where
  requestBuilder : ASActor
  watchers : List Handle
  deriving DecidableEq

/-- What is left to do of a running function. -/
inductive Instruction where
  /-- User code is running. -/
  | callback
  /-- `actionCompleted` and `actionFailed`: the other watchers, then the queue -/
  | notify (actor : ASActor) (watchers : List Handle) (status : Int)
  /-- `removeRequestFromQueueAndProceedIfFirst` -/
  | removeRequestFromQueue (actor : ASActor)
  /-- The end of `performCancelRequest` -/
  | forgetTimer (path : Path)
  /-- The other keys in `removeWatcherByHandle` -/
  | removeWatcher (handle : Handle) (keys : List Path)
  | scheduleCancelRequest (path : Path)
  | changeActorPriority (path : Path)
  deriving DecidableEq

/-- `ActionStage`, and what happened: the executions, the actors that reported, the
actors that were cancelled, those of them whose `cancelled` is set, and the callbacks
to watchers. -/
structure ActionStage where
  activeRequests : AList fun _ : Path => RequestInfo := ∅
  cancelRequestTimers : AList fun _ : Path => RequestInfo := ∅
  requestQueues : AList fun _ : String => List ASActor := ∅
  nextId : Nat := 0
  stack : List Instruction := []
  executed : List ASActor := []
  reported : List ASActor := []
  cancelCalled : List ASActor := []
  cancelled : List ASActor := []
  completions : List (Handle × Path × Int) := []

/-- Nothing was requested yet. -/
def initial : ActionStage := {}

/-- The function's effect and what is left of it. -/
abbrev Rest := ActionStage × List Instruction

/-- `DBL_EPSILON`. -/
def dblEpsilon : Rat := 1 / 2 ^ 52

/-- `execute:`. -/
def execute (s : ActionStage) (actor : ASActor) : Rest :=
  ({ s with executed := s.executed ++ [actor] }, [.callback])

/-- `removeRequestFromQueueAndProceedIfFirst:fromRequestBuilder:`, which the callers
leave out for an actor without a queue. -/
def removeRequestFromQueueAndProceedIfFirst (s : ActionStage) (requestBuilder : ASActor) : Rest :=
  match requestBuilder.requestQueueName with
  | none => (s, [])
  | some name =>
    match s.requestQueues.lookup name with
    | none => (s, [])
    | some [] => (s, [])
    | some (first :: requestQueue) =>
      if first = requestBuilder then
        match requestQueue with
        | [] => ({ s with requestQueues := s.requestQueues.erase name }, [])
        | nextRequest :: others =>
          let s :=
            { s with requestQueues := s.requestQueues.insert name (nextRequest :: others) }
          if nextRequest ∈ s.cancelled then (s, []) else execute s nextRequest
      else
        ({ s with
          requestQueues :=
            s.requestQueues.insert name ((first :: requestQueue).filter (· ≠ requestBuilder)) },
          [])

/-- `changeActorPriority:`. -/
def changeActorPriority (s : ActionStage) (path : Path) : Rest :=
  match s.activeRequests.lookup path with
  | none => (s, [])
  | some requestInfo =>
    let actor := requestInfo.requestBuilder
    match actor.requestQueueName with
    | none => (s, [])
    | some name =>
      match s.requestQueues.lookup name with
      | none => (s, [])
      | some requestQueue =>
        let index := requestQueue.idxOf actor
        if 1 < index ∧ index < requestQueue.length then
          ({ s with
            requestQueues :=
              s.requestQueues.insert name ((requestQueue.erase actor).insertIdx 1 actor) },
            [])
        else (s, [])

/-- A new actor is added to its queue, and executed if it is the only one. -/
def startActor (s : ActionStage) (actor : ASActor) (changePriority : Bool) : Rest :=
  match actor.requestQueueName with
  | none => execute s actor
  | some name =>
    match s.requestQueues.lookup name with
    | none => execute { s with requestQueues := s.requestQueues.insert name [actor] } actor
    | some requestQueue =>
      let requestQueue := requestQueue ++ [actor]
      if 1 < requestQueue.length then
        if changePriority && decide (2 < requestQueue.length) then
          ({ s with
            requestQueues :=
              s.requestQueues.insert name (requestQueue.dropLast.insertIdx 1 actor) },
            [])
        else ({ s with requestQueues := s.requestQueues.insert name requestQueue }, [])
      else execute { s with requestQueues := s.requestQueues.insert name requestQueue } actor

/-- A request that waits to be cancelled is active again. -/
def resumeRequest (s : ActionStage) (path : Path) : ActionStage :=
  match s.cancelRequestTimers.lookup path with
  | none => s
  | some requestInfo =>
    { s with
      activeRequests := s.activeRequests.insert path requestInfo
      cancelRequestTimers := s.cancelRequestTimers.erase path }

/-- `_requestGeneric:` on the stage queue.  `builder` is what the class of the path and
`prepare:` give, the name of the queue and the timeout; it is `none` for a path without a
class. -/
def requestGeneric (s : ActionStage) (joinOnly : Bool) (path : Path) (changePriority : Bool)
    (watcher : Handle) (builder : Option (Option String × Rat)) : Rest :=
  let s := resumeRequest s path
  match s.activeRequests.lookup path with
  | none =>
    if joinOnly then (s, [])
    else
      match builder with
      | none => (s, [])
      | some (requestQueueName, cancelTimeout) =>
        let actor : ASActor := { id := s.nextId, path, requestQueueName, cancelTimeout }
        let requestInfo : RequestInfo := { requestBuilder := actor, watchers := [watcher] }
        startActor
          { s with
            nextId := s.nextId + 1
            activeRequests := s.activeRequests.insert path requestInfo }
          actor changePriority
  | some requestInfo =>
    let watchers :=
      if watcher ∈ requestInfo.watchers then requestInfo.watchers
      else requestInfo.watchers ++ [watcher]
    let s :=
      { s with
        activeRequests := s.activeRequests.insert path { requestInfo with watchers } }
    let queued :=
      match requestInfo.requestBuilder.requestQueueName with
      | none => false
      | some name => !((s.requestQueues.lookup name).getD []).isEmpty
    (s, .callback :: if queued && changePriority then [.changeActorPriority path] else [])

/-! ## Reports and cancellation -/

/-- `actionCompleted:result:` and `actionFailed:reason:` for the path of an actor. -/
def actionReported (s : ActionStage) (action : Path) (status : Int) : Rest :=
  match s.activeRequests.lookup action with
  | none => (s, [])
  | some requestInfo =>
    ({ s with activeRequests := s.activeRequests.erase action },
      [.notify requestInfo.requestBuilder requestInfo.watchers status])

/-- The next watcher is told, or the actor leaves its queue. -/
def notify (s : ActionStage) (actor : ASActor) (status : Int) : List Handle → Rest
  | [] => (s, [.removeRequestFromQueue actor])
  | handle :: watchers =>
    ({ s with completions := s.completions ++ [(handle, actor.path, status)] },
      [.callback, .notify actor watchers status])

/-- `scheduleCancelRequest:`. -/
def scheduleCancelRequest (s : ActionStage) (path : Path) : Rest :=
  match s.activeRequests.lookup path, s.cancelRequestTimers.lookup path with
  | some requestInfo, none =>
    let requestBuilder := requestInfo.requestBuilder
    if requestBuilder.cancelTimeout ≤ dblEpsilon then
      ({ s with
        activeRequests := s.activeRequests.erase path
        cancelCalled := s.cancelCalled ++ [requestBuilder] },
        [.callback, .removeRequestFromQueue requestBuilder])
    else
      ({ s with
        cancelRequestTimers := s.cancelRequestTimers.insert path requestInfo
        activeRequests := s.activeRequests.erase path }, [])
  | _, _ => (s, [])

/-- `performCancelRequest:`, when the timer expires or is fired. -/
def performCancelRequest (s : ActionStage) (path : Path) : Rest :=
  match s.cancelRequestTimers.lookup path with
  | none => (s, [])
  | some requestInfo =>
    ({ s with cancelCalled := s.cancelCalled ++ [requestInfo.requestBuilder] },
      [.callback, .removeRequestFromQueue requestInfo.requestBuilder, .forgetTimer path])

/-- One key of `removeWatcherByHandle:`. -/
def removeWatcherFromKey (s : ActionStage) (handle : Handle) (key : Path) : Rest :=
  match s.activeRequests.lookup key with
  | none => (s, [.scheduleCancelRequest key])
  | some requestInfo =>
    let watchers := requestInfo.watchers.filter (· ≠ handle)
    ({ s with activeRequests := s.activeRequests.insert key { requestInfo with watchers } },
      if watchers.isEmpty then [.scheduleCancelRequest key] else [])

/-- `removeWatcherByHandle:fromPath:`. -/
def removeWatcherFromPath (s : ActionStage) (handle : Handle) (path : Path) : Rest :=
  if path ∈ s.activeRequests then removeWatcherFromKey s handle path else (s, [])

/-- `removeAllWatchersFromPath:`. -/
def removeAllWatchersFromPath (s : ActionStage) (path : Path) : Rest :=
  match s.activeRequests.lookup path with
  | none => (s, [])
  | some requestInfo =>
    ({ s with
      activeRequests := s.activeRequests.insert path { requestInfo with watchers := [] } },
      [.scheduleCancelRequest path])

/-- What user code can do, and the two ways the machine goes on. -/
inductive Event where
  | requestActor (joinOnly : Bool) (path : Path) (changePriority : Bool) (watcher : Handle)
      (builder : Option (Option String × Rat))
  | changeActorPriority (path : Path)
  /-- An actor that was executed reports, at any time. -/
  | reports (actor : ASActor) (status : Int)
  /-- The keys are those of `_activeRequests`, in some order. -/
  | removeWatcher (handle : Handle) (keys : List Path)
  | removeWatcherFromPath (handle : Handle) (path : Path)
  | removeAllWatchersFromPath (path : Path)
  | timerFires (path : Path)
  /-- An actor that was cancelled calls `cancel` of its superclass. -/
  | superCancel (actor : ASActor)
  /-- A callback returns. -/
  | returns
  /-- The running function goes on. -/
  | continues
  deriving DecidableEq

/-- User code is running. -/
def UserCode (s : ActionStage) : Prop := s.stack.head?.getD .callback = .callback

instance (s : ActionStage) : Decidable (UserCode s) :=
  inferInstanceAs (Decidable (_ = _))

/-- What user code does. -/
def userStep (s : ActionStage) : Event → Rest
  | .requestActor joinOnly path changePriority watcher builder =>
    requestGeneric s joinOnly path changePriority watcher builder
  | .changeActorPriority path => changeActorPriority s path
  | .reports actor status =>
    if actor ∈ s.executed then
      actionReported { s with reported := s.reported ++ [actor] } actor.path status
    else (s, [])
  | .removeWatcher handle keys =>
    if keys.Perm s.activeRequests.keys then (s, [.removeWatcher handle keys]) else (s, [])
  | .removeWatcherFromPath handle path => removeWatcherFromPath s handle path
  | .removeAllWatchersFromPath path => removeAllWatchersFromPath s path
  | .timerFires path => performCancelRequest s path
  | .superCancel actor =>
    if actor ∈ s.cancelCalled then ({ s with cancelled := s.cancelled ++ [actor] }, [])
    else (s, [])
  | _ => (s, [])

/-- One instruction. -/
def perform (s : ActionStage) : Instruction → Rest
  | .callback => (s, [])
  | .notify actor watchers status => notify s actor status watchers
  | .removeRequestFromQueue actor => removeRequestFromQueueAndProceedIfFirst s actor
  | .forgetTimer path =>
    ({ s with cancelRequestTimers := s.cancelRequestTimers.erase path }, [])
  | .removeWatcher _ [] => (s, [])
  | .removeWatcher handle (key :: keys) =>
    let (s, rest) := removeWatcherFromKey s handle key
    (s, rest ++ [.removeWatcher handle keys])
  | .scheduleCancelRequest path => scheduleCancelRequest s path
  | .changeActorPriority path => changeActorPriority s path

/-- The rest of a function goes on the stack. -/
def push (rest : Rest) : ActionStage :=
  { rest.1 with stack := rest.2 ++ rest.1.stack }

def step (s : ActionStage) : Event → ActionStage
  | .returns =>
    match s.stack with
    | .callback :: stack => { s with stack }
    | _ => s
  | .continues =>
    match s.stack with
    | [] => s
    | .callback :: _ => s
    | instruction :: stack => push (perform { s with stack } instruction)
  | event => if UserCode s then push (userStep s event) else s

end TelegramPub.Ports.ActorRequests
