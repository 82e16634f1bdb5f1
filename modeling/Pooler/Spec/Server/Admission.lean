import Pooler.Lib.Assoc
import Pooler.Spec.Server.Activation

/-! # Admission of managed activations and external reloads (`pooler-server/src/config_management.rs`)

One event is one section under the state lock, or one step `commit_owned` takes between its two
sections. What the file system does to a preparation, a promotion or a completion is given by the
event. -/

namespace Pooler

open Lib

/-- Where a call of `commit_owned` with a durable store stands between its lock sections. -/
inductive CommitStage where
  | admitted
  /-- The recovery marker is created, the files are being written. -/
  | preparing
  | prepared
  | failed (error : ConfigManagementError)
  deriving DecidableEq, Repr

/-- The guard of a registered activation. -/
structure PendingActivation where
  (active promoted : Bool)
  deriving DecidableEq, Repr

/-- How `prepare_activation` ends once the marker is created. -/
inductive PrepareOutcome where
  | prepared
  | failed (error : ConfigManagementError) (markerLeft : Bool)
  deriving DecidableEq, Repr

structure Admission where
  commitInProgress : Bool
  pending : OrderedMap ℕ PendingActivation
  (externalReloadInProgress marker : Bool)
  /-- The calls of `commit_owned` between their lock sections. -/
  commits : OrderedMap ℕ CommitStage
  /-- Prepared activations returned to a caller that has not registered them yet. -/
  handedOff : ℕ

namespace Admission

def start : Admission := ⟨false, .empty, false, false, .empty, 0⟩

inductive Event where
  | commitCheck (call : ℕ)
  /-- The draft is missing, stale or does not compile. -/
  | commitLeave (call : ℕ)
  /-- `acquire_recovery_marker`; a fault is a persistence error that may leave the marker. -/
  | createMarker (call : ℕ) (fault : Option Bool)
  | prepare (call : ℕ) (outcome : PrepareOutcome)
  /-- The second lock section, after the draft was removed or the preparation failed. -/
  | commitRecord (call : ℕ)
  /-- The draft could not be removed and the activation is rolled back. -/
  | commitUndo (call : ℕ) (cleared : Bool)
  /-- `rollback`, one lock section; without an outcome it returns before it prepares. -/
  | rollback (outcome : Option PrepareOutcome)
  | registerCommit (request : ℕ)
  /-- A failed promotion is undone, or its undo fails too and may have lost the marker. -/
  | promoteCommit (request : ℕ) (failure : Option (Bool × Bool))
  /-- A failed completion may have lost the marker. -/
  | completeCommit (request : ℕ) (succeeded failed cleared : Bool)
  | tryBeginUnmanagedReload
  | finishUnmanagedReload
  deriving DecidableEq, Repr

variable (s : Admission)

/-- The check at the head of `commit_owned`, `rollback` and `try_begin_unmanaged_reload`. -/
def busy : Bool := s.commitInProgress || s.pending.size != 0 || s.externalReloadInProgress

variable (call : ℕ)

def commitCheck : Admission :=
  if s.busy || s.commits.contains call then s
  else { s with commits := s.commits.insert call .admitted }

def commitLeave : Admission :=
  if s.commits.get call = some .admitted then { s with commits := s.commits.erase call } else s

def createMarker (fault : Option Bool) : Admission :=
  if s.commits.get call = some .admitted then
    match fault with
    | some left => { s with marker := s.marker || left, commits := s.commits.insert call (.failed .persistence) }
    | none =>
      if s.marker then { s with commits := s.commits.insert call (.failed .recoveryRequired) }
      else { s with marker := true, commits := s.commits.insert call .preparing }
  else s

def prepare (outcome : PrepareOutcome) : Admission :=
  if s.commits.get call = some .preparing then
    match outcome with
    | .prepared => { s with commits := s.commits.insert call .prepared }
    | .failed error left => { s with marker := left, commits := s.commits.insert call (.failed error) }
  else s

def commitRecord : Admission :=
  match s.commits.get call with
  | some .prepared => { s with commitInProgress := true, commits := s.commits.erase call, handedOff := s.handedOff + 1 }
  | some (.failed error) => { s with commitInProgress := error = .recoveryRequired, commits := s.commits.erase call }
  | _ => s

def commitUndo (cleared : Bool) : Admission :=
  if s.commits.get call = some .prepared then
    { s with marker := s.marker && !cleared, commits := s.commits.erase call }
  else s

def rollback (outcome : Option PrepareOutcome) : Admission :=
  if s.busy || s.marker then s
  else
    match outcome with
    | none => s
    | some .prepared => { s with commitInProgress := true, marker := true, handedOff := s.handedOff + 1 }
    | some (.failed error left) => { s with commitInProgress := error = .recoveryRequired, marker := left }

variable (request : ℕ)

def registerCommit : Admission :=
  if s.handedOff = 0 then s
  else
    { s with commitInProgress := false, pending := s.pending.insert request ⟨true, false⟩,
             handedOff := s.handedOff - 1 }

def promoteCommit (failure : Option (Bool × Bool)) : Admission :=
  match s.pending.get request with
  | some ⟨true, promoted⟩ =>
    match failure with
    | none => { s with pending := s.pending.insert request ⟨true, true⟩ }
    | some (true, _) => { s with marker := false, pending := s.pending.insert request ⟨false, false⟩ }
    | some (false, cleared) =>
      { s with marker := s.marker && !cleared, pending := s.pending.insert request ⟨true, promoted⟩ }
  | _ => s

/-- `complete_activation` of a guard that is not active and promoted is refused and
`rollback_activation` of one that is not active does nothing; otherwise the files decide. -/
def completeCommit (succeeded failed cleared : Bool) : Admission :=
  match s.pending.get request with
  | none => s
  | some pending =>
    if succeeded && !(pending.active && pending.promoted) then s
    else if !succeeded && !pending.active then { s with pending := s.pending.erase request }
    else if failed then { s with marker := s.marker && !cleared }
    else { s with marker := false, pending := s.pending.erase request }

def step : Event → Admission
  | .commitCheck call => s.commitCheck call
  | .commitLeave call => s.commitLeave call
  | .createMarker call fault => s.createMarker call fault
  | .prepare call outcome => s.prepare call outcome
  | .commitRecord call => s.commitRecord call
  | .commitUndo call cleared => s.commitUndo call cleared
  | .rollback outcome => s.rollback outcome
  | .registerCommit request => s.registerCommit request
  | .promoteCommit request failure => s.promoteCommit request failure
  | .completeCommit request succeeded failed cleared => s.completeCommit request succeeded failed cleared
  | .tryBeginUnmanagedReload => if s.busy then s else { s with externalReloadInProgress := true }
  | .finishUnmanagedReload => { s with externalReloadInProgress := false }

def activations : ℕ := s.commits.values.countP (· = .prepared) + s.handedOff + s.pending.size

end Admission

end Pooler
