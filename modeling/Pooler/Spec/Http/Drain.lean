import Pooler.Spec.Time

/-! # Graceful drain (`pooler-http/src/drain.rs`)

One event is one lock section of the controller, or one step of a `drain` call between two of its
lock sections. `notify_waiters` comes after the lock section that calls for it, as an event of its own. -/

namespace Pooler.Draining

open Lib

/-- `isize::MAX`: beyond this many references cloning an `Arc` aborts the process. -/
def isizeMax : ℕ := 2 ^ 63 - 1

structure DrainGuard where
  released : Bool
deriving DecidableEq, Repr

/-- Where a `drain` call stands: before it registers for the next notification, before it reads the
count, waiting for the notification, or returned. -/
inductive DrainCall
  | registering
  | checking (notified : Bool)
  | waiting (notified : Bool)
  | completed
  | timedOut (active : ℕ)
deriving DecidableEq, Repr

/-- Wakes a call that has registered. -/
def DrainCall.notified : DrainCall → DrainCall
  | .checking _ => .checking true
  | .waiting _ => .waiting true
  | call => call

/-- The next step of a `drain` call. -/
def DrainCall.poll (active : ℕ) : DrainCall → DrainCall
  | .registering => .checking false
  | .checking notified => if active = 0 then .completed else .waiting notified
  | .waiting true => .registering
  | call => call

def DrainCall.timeOut (active : ℕ) : DrainCall → DrainCall
  | .completed => .completed
  | .timedOut active => .timedOut active
  | _ => .timedOut active

structure DrainController where
  active : ℕ
  draining : Bool
  /-- The guards granted so far; a dropped one is `none`. -/
  guards : List (Option DrainGuard)
  calls : List DrainCall
  /-- Calls of `notify_waiters` that have not been made yet. -/
  owedNotifications : ℕ
  aborted : Bool
deriving DecidableEq, Repr

namespace DrainController

def new : DrainController where
  active := 0
  draining := false
  guards := []
  calls := []
  owedNotifications := 0
  aborted := false

/-- Granted and not released. -/
def isLive (guard : Option DrainGuard) : Bool := guard = some ⟨false⟩

variable (controller : DrainController)

def liveGuards : ℕ := controller.guards.countP isLive

/-- The guards that hold a reference to the shared state. -/
def references : ℕ := controller.guards.countP Option.isSome

def tryAcquire : DrainController :=
  if controller.draining then controller
  else if controller.references > isizeMax then { controller with aborted := true }
  else
    { controller with
      active := satAdd usizeMax controller.active 1
      guards := controller.guards ++ [some ⟨false⟩] }

def beginDrain : DrainController :=
  if controller.draining then controller
  else { controller with draining := true, owedNotifications := controller.owedNotifications + 1 }

def release (guard : ℕ) : DrainController :=
  if controller.guards[guard]? = some (some ⟨false⟩) then
    { controller with
      guards := controller.guards.set guard (some ⟨true⟩)
      active := controller.active - 1
      owedNotifications := controller.owedNotifications + 1 }
  else controller

def dropGuard (guard : ℕ) : DrainController :=
  { controller.release guard with guards := (controller.release guard).guards.set guard none }

def notifyWaiters : DrainController :=
  if controller.owedNotifications = 0 then controller
  else
    { controller with
      owedNotifications := controller.owedNotifications - 1
      calls := controller.calls.map DrainCall.notified }

def cancelActive : DrainController := { controller with owedNotifications := controller.owedNotifications + 1 }

/-- A call of `drain` begins the drain first. -/
def drain : DrainController := { controller.beginDrain with calls := controller.calls ++ [.registering] }

def pollDrain (call : ℕ) : DrainController :=
  { controller with calls := controller.calls.modify call (DrainCall.poll controller.active) }

def timeOutDrain (call : ℕ) : DrainController :=
  { controller with calls := controller.calls.modify call (DrainCall.timeOut controller.active) }

inductive Event
  | tryAcquire
  | release (guard : ℕ)
  | dropGuard (guard : ℕ)
  | beginDrain
  | cancelActive
  | notifyWaiters
  | drain
  | pollDrain (call : ℕ)
  | timeOutDrain (call : ℕ)
deriving DecidableEq, Repr

/-- A process that has aborted takes no further step. -/
def step (event : Event) : DrainController :=
  if controller.aborted then controller
  else
    match event with
    | .tryAcquire => controller.tryAcquire
    | .release guard => controller.release guard
    | .dropGuard guard => controller.dropGuard guard
    | .beginDrain => controller.beginDrain
    | .cancelActive => controller.cancelActive
    | .notifyWaiters => controller.notifyWaiters
    | .drain => controller.drain
    | .pollDrain call => controller.pollDrain call
    | .timeOutDrain call => controller.timeOutDrain call

end DrainController

end Pooler.Draining
