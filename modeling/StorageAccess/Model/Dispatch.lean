import StorageAccess.Model.Common
import StorageAccess.Lib.Runs
/-!
# The dispatcher of a provider

Every provider has a queue, guarded by a mutex, and a thread that takes the
requests out of it. The thread lets the mutex go while a request is handled: the
work is a task of its own, and the destructor of its future waits for it. What
runs under the mutex is one step, but that a thread that found nothing to do falls
asleep in a step of its own: the provider's destructor does not take the mutex.
-/

namespace StorageAccess

/-- What can be seen of the handling of a request. -/
inductive Event (R : Type)
  | begins (request : R)
  | ends (request : R)

/-- Where the thread is: before its first lock, at the condition variable with its
predicate to evaluate, about to sleep there, asleep, about to call `handleRequests`,
at the end of the future's scope in it, about to lock again, or past its loop. -/
inductive Phase (R : Type)
  | starting
  | waiting
  | dozing
  | sleeping
  | handing (request : R)
  | joining (request : R)
  | returned
  | ended

structure Dispatcher (R : Type) where
  mQueue : List R
  mQuit : Bool
  phase : Phase R
  task : Option R
  trace : List (Event R)

namespace Dispatcher

/-- Whether the switch of `handleRequests` starts a task for a method. -/
def hasTask (provider : StorageType) (methodType : MethodType) : Bool :=
  match provider with
  | .internal | .usb => methodType ≠ .extraMethod
  | .network | .gdrive => true

/-- The steps of the client threads, the destructor, the dispatcher thread and the task.
A sleeping thread may also wake up without being notified. -/
inductive Action (R : Type)
  | addRequest (request : R)
  | quit
  | notify
  | stir
  | lock
  | wake
  | sleep
  | handle
  | complete
  | join
  | relock

variable {R : Type}

def start : Dispatcher R := ⟨[], false, .starting, none, []⟩

/-- A step of an action that cannot be taken leaves everything as it is. -/
def step (data : R → RequestData) (provider : StorageType) (s : Dispatcher R) : Action R → Dispatcher R
  | .addRequest request =>
    let mQueue := s.mQueue ++ [request]
    match s.phase with
    -- the mutex is free once the thread is asleep, and the notification wakes it up
    | .dozing | .sleeping => { s with mQueue := mQueue, phase := .waiting }
    | _ => { s with mQueue := mQueue }
  | .quit => { s with mQuit := true }
  | .notify | .stir =>
    match s.phase with
    | .sleeping => { s with phase := .waiting }
    | _ => s
  | .lock =>
    match s.phase with
    | .starting => { s with phase := .waiting }
    | _ => s
  | .wake =>
    match s.phase, s.mQueue with
    | .waiting, request :: rest =>
      -- the thread leaves its loop with what is still in the queue
      if s.mQuit then { s with phase := .ended }
      else { s with mQueue := rest, phase := .handing request, trace := s.trace ++ [.begins request] }
    | .waiting, [] => { s with phase := if s.mQuit then .ended else .dozing }
    | _, _ => s
  | .sleep =>
    match s.phase with
    | .dozing => { s with phase := .sleeping }
    | _ => s
  | .handle =>
    match s.phase with
    | .handing request =>
      if hasTask provider (data request).methodType then { s with phase := .joining request, task := some request }
      -- no case of the switch: there is no future to wait for
      else { s with phase := .returned, trace := s.trace ++ [.ends request] }
    | _ => s
  | .complete =>
    match s.task with
    | some request => { s with task := none, trace := s.trace ++ [.ends request] }
    | none => s
  | .join =>
    match s.phase, s.task with
    | .joining _, none => { s with phase := .returned }
    | _, _ => s
  | .relock =>
    match s.phase with
    | .returned => { s with phase := if s.mQuit then .ended else .waiting }
    | _ => s

/-- The steps of the thread and the task, as against those of the clients. -/
inductive Turn
  | lock
  | wake
  | sleep
  | handle
  | complete
  | join
  | relock
  deriving DecidableEq

end Dispatcher

end StorageAccess
