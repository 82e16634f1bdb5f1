import Pooler.Lib.Faulty
import Pooler.Spec.Time

/-! # Activation of a managed configuration (`pooler-server/src/config_management.rs`)

The files of one activation and the steps that change them. Synced writes and renames are single
actions; a failed write may have taken effect (the rename happened, a later sync did not). Paths,
permissions and symlink checks are folded into the outcome of each action. -/

namespace Pooler

open Lib

inductive ConfigManagementError where
  | notFound
  | precondition
  | invalid
  | persistence
  | recoveryRequired
  deriving DecidableEq, Repr

/-- What the server asks of a document: its digest, the generated-file header, the compiler. -/
structure ConfigFormat (Doc Digest : Type) where
  bytesDigest : Doc → Digest
  generated : Doc → Bool
  compiles : ℕ → Doc → Bool

inductive ActivationOperation where
  | commit
  | rollback
  deriving DecidableEq, Repr

structure RecoveryRecord (Digest : Type) where
  operation : ActivationOperation
  generation : ℕ
  (priorSha256 nextSha256 : Digest)
  priorBackupSha256 : Option Digest
  deriving DecidableEq, Repr

/-- The recovery marker: the bare line, or the line followed by a record. -/
inductive RecoveryMarker (Digest : Type) where
  | legacy
  | record (record : RecoveryRecord Digest)
  deriving DecidableEq, Repr

/-- The files an activation touches. `staged` is the file at the path the activation chose for
itself, which carries a nonce. `completion` is history only: it says that a completion has moved the
marker aside. -/
structure Disk (Doc Digest : Type) where
  (canonical backup staged rollback : Option Doc)
  marker : Option (RecoveryMarker Digest)
  (completedMarker completion : Bool)
  deriving DecidableEq, Repr

structure PersistenceState (Doc : Type) where
  previousCanonical : Doc
  previousBackup : Option Doc
  deriving DecidableEq, Repr

structure PreparedActivation (Doc Digest : Type) where
  nextDigest : Digest
  persistence : PersistenceState Doc
  (active promoted : Bool)
  deriving DecidableEq, Repr

abbrev Attempt (Doc Digest α : Type) := Faulty (Disk Doc Digest) (Except ConfigManagementError α)

namespace Activation

variable {Doc Digest : Type}

def fail {α : Type} (error : ConfigManagementError) : Attempt Doc Digest α := .ret (.error error)

def succeed : Attempt Doc Digest Unit := .ret (.ok ())

/-- A read of the directory; a read that fails is a persistence error. -/
def look {α : Type} (f : Disk Doc Digest → Attempt Doc Digest α) : Attempt Doc Digest α :=
  .read fun
    | none => fail .persistence
    | some disk => f disk

variable (effect : Disk Doc Digest → Disk Doc Digest)

/-- A change whose failure is reported as `error`. -/
def change (tears : Bool)
    (error : ConfigManagementError) : Attempt Doc Digest Unit :=
  .act effect tears fun reported => if reported then succeed else fail error

/-- A change whose result the code drops. -/
def try_ {α : Type} (effect : Disk Doc Digest → Disk Doc Digest) (next : Attempt Doc Digest α) :
    Attempt Doc Digest α :=
  .act effect false fun _ => next

def syncDirectory : Attempt Doc Digest Unit := change id false .persistence

def writeAtomic : Attempt Doc Digest Unit := change effect true .persistence

def removeFileSynced (present : Disk Doc Digest → Bool)
    (remove : Disk Doc Digest → Disk Doc Digest) : Attempt Doc Digest Unit :=
  look fun disk =>
    if present disk then (change remove false .persistence).andThen fun _ => syncDirectory
    else succeed

def removeBackup : Attempt Doc Digest Unit := removeFileSynced (·.backup.isSome) ({ · with backup := none })

def removeStaged : Attempt Doc Digest Unit := removeFileSynced (·.staged.isSome) ({ · with staged := none })

def removeRollback : Attempt Doc Digest Unit := removeFileSynced (·.rollback.isSome) ({ · with rollback := none })

def removeCompletedMarker : Attempt Doc Digest Unit :=
  removeFileSynced (·.completedMarker) ({ · with completedMarker := false })

def ensureNoRecoveryMarker : Attempt Doc Digest Unit :=
  removeCompletedMarker.andThen fun _ => look fun disk => if disk.marker.isSome then fail .recoveryRequired else succeed

def acquireRecoveryMarker : Attempt Doc Digest Unit :=
  ensureNoRecoveryMarker.andThen fun _ =>
    (change ({ · with marker := some .legacy }) false .persistence).andThen fun _ =>
      -- the write and the syncs of the marker; its creation is undone when one fails
      .act id false fun reported =>
        if reported then succeed
        else try_ ({ · with marker := none }) (try_ id (fail .persistence))

def writeRecoveryRecord (record : RecoveryRecord Digest) : Attempt Doc Digest Unit :=
  change ({ · with marker := some (.record record) }) true .recoveryRequired

/-- `clear_recovery_marker`; `completing` is the history a completion leaves. -/
def clearRecoveryMarker (completing : Bool) : Attempt Doc Digest Unit :=
  look fun disk =>
    if disk.marker.isNone then fail .persistence
    else
      (change ({ · with marker := none, completedMarker := true, completion := completing })
        false .persistence).andThen fun _ =>
        .act id false fun synced =>
          if synced then removeCompletedMarker.bind fun _ => succeed
          else try_ ({ · with marker := disk.marker, completedMarker := false, completion := false })
            (try_ id (fail .recoveryRequired))

def clearRecoveryMarkerIfPresent : Attempt Doc Digest Unit :=
  look fun disk => if disk.marker.isSome then clearRecoveryMarker false else succeed

def persistenceSnapshot : Attempt Doc Digest (PersistenceState Doc) :=
  look fun disk =>
    match disk.canonical with
    | none => fail .persistence
    | some previousCanonical =>
      if disk.rollback.isSome then fail .recoveryRequired
      else .ret (.ok ⟨previousCanonical, disk.backup⟩)

variable (persistence : PersistenceState Doc)

/-- Puts the backup back: the previous one, or none. -/
def restoreBackup : Attempt Doc Digest Unit :=
  match persistence.previousBackup with
  | some previousBackup => writeAtomic ({ · with backup := some previousBackup })
  | none => removeBackup

def restorePreparationState : Attempt Doc Digest Unit :=
  (restoreBackup persistence).andThen fun _ => removeStaged.andThen fun _ => removeRollback

def restoreExact : Attempt Doc Digest Unit :=
  (writeAtomic ({ · with canonical := some persistence.previousCanonical })).andThen fun _ =>
    (restoreBackup persistence).andThen fun _ =>
      removeStaged.andThen fun _ => removeRollback.andThen fun _ => syncDirectory

/-- Runs `restore`; its failure hides the error that made it necessary. -/
def undo {α : Type} (restore : Attempt Doc Digest Unit) (original : ConfigManagementError) :
    Attempt Doc Digest α :=
  restore.bind fun
    | .ok _ => fail original
    | .error _ => fail .recoveryRequired

def abortPreparation {α : Type} (persistence : Option (PersistenceState Doc))
    (original : ConfigManagementError) : Attempt Doc Digest α :=
  undo ((match persistence with
    | some persistence => restorePreparationState persistence
    | none => succeed).andThen fun _ => clearRecoveryMarkerIfPresent) original

/-- Runs `handler` when `p` reports an error. -/
def onError {α : Type} (p : Attempt Doc Digest α)
    (handler : ConfigManagementError → Attempt Doc Digest α) : Attempt Doc Digest α :=
  p.bind fun
    | .ok a => .ret (.ok a)
    | .error error => handler error

variable (format : ConfigFormat Doc Digest)

def recoveryRecord (bytes : Doc) (generation : ℕ) (operation : ActivationOperation)
    (persistence : PersistenceState Doc) : RecoveryRecord Digest where
  operation := operation
  generation := generation
  priorSha256 := format.bytesDigest persistence.previousCanonical
  nextSha256 := format.bytesDigest bytes
  priorBackupSha256 := persistence.previousBackup.map format.bytesDigest

/-- The writes of a preparation, in the order the code makes them. -/
def preparation (record : RecoveryRecord Digest) (persistence : PersistenceState Doc) (bytes : Doc) :
    Attempt Doc Digest Unit :=
  (writeRecoveryRecord record).andThen fun _ =>
    (match persistence.previousBackup with
      | some previousBackup => writeAtomic ({ · with rollback := some previousBackup })
      | none => succeed).andThen fun _ =>
      (writeAtomic ({ · with backup := some persistence.previousCanonical })).andThen fun _ =>
        writeAtomic ({ · with staged := some bytes })

def prepareActivation (bytes : Doc) (targetGeneration : ℕ) (operation : ActivationOperation) :
    Attempt Doc Digest (PreparedActivation Doc Digest) :=
  acquireRecoveryMarker.andThen fun _ =>
    (onError persistenceSnapshot (abortPreparation none)).andThen fun persistence =>
      (onError (preparation (recoveryRecord format bytes targetGeneration operation persistence)
        persistence bytes) (abortPreparation (some persistence))).andThen fun _ =>
        .ret (.ok
          { nextDigest := format.bytesDigest bytes
            persistence := persistence
            active := true
            promoted := false })

variable (activation : PreparedActivation Doc Digest)

def rollbackActivation :
    Attempt Doc Digest (PreparedActivation Doc Digest) :=
  if activation.active then
    (restoreExact activation.persistence).andThen fun _ =>
      (clearRecoveryMarker false).andThen fun _ => .ret (.ok { activation with active := false, promoted := false })
  else .ret (.ok activation)

def promoteStaged [DecidableEq Digest] (activation : PreparedActivation Doc Digest) :
    Attempt Doc Digest Unit :=
  look fun disk =>
    match disk.staged with
    | none => fail .persistence
    | some staged =>
      if format.bytesDigest staged = activation.nextDigest then
        (change (fun disk => { disk with canonical := disk.staged, staged := none }) false
          .persistence).andThen fun _ => syncDirectory
      else fail .recoveryRequired

def promoteCommit [DecidableEq Digest] (activation : PreparedActivation Doc Digest) :
    Attempt Doc Digest (PreparedActivation Doc Digest) :=
  if activation.active then
    (onError (promoteStaged format activation)
      (undo ((rollbackActivation activation).andThen fun _ => succeed))).andThen fun _ =>
      .ret (.ok { activation with promoted := true })
  else fail .precondition

def completeActivation : Attempt Doc Digest Unit :=
  if activation.active && activation.promoted then
    removeStaged.andThen fun _ => removeRollback.andThen fun _ => clearRecoveryMarker true
  else fail .precondition

/-- What becomes of a prepared activation: the runtime takes the candidate, or the draft could not
be removed, the reload could not be queued or the reload failed. -/
inductive Handoff where
  | activated
  | refused
  deriving DecidableEq, Repr

/-- A prepared activation to its end, as `complete_reload`, `queue_config_commit` and `commit_owned`
drive it. -/
def settle [DecidableEq Digest] (handoff : Handoff) (activation : PreparedActivation Doc Digest) :
    Attempt Doc Digest Unit :=
  match handoff with
  | .activated => (promoteCommit format activation).andThen completeActivation
  | .refused => (rollbackActivation activation).andThen fun _ => succeed

inductive ManagedOperation (Doc : Type) where
  | commit (bytes : Doc)
  | rollback
  deriving DecidableEq, Repr

def ManagedOperation.kind : ManagedOperation Doc → ActivationOperation
  | .commit _ => .commit
  | .rollback => .rollback

/-- The document an operation activates: the draft's, or the one in the backup. -/
def ManagedOperation.next (disk : Disk Doc Digest) : ManagedOperation Doc → Option Doc
  | .commit bytes => some bytes
  | .rollback => disk.backup

def targetGeneration (activeGeneration : ℕ) : ℕ := satAdd u64Max activeGeneration 1

def commit [DecidableEq Digest] (bytes : Doc) (activeGeneration : ℕ) (handoff : Handoff) :
    Attempt Doc Digest Unit :=
  (prepareActivation format bytes (targetGeneration activeGeneration) .commit).andThen (settle format handoff)

def rollback [DecidableEq Digest] (activeGeneration : ℕ) (handoff : Handoff) :
    Attempt Doc Digest Unit :=
  ensureNoRecoveryMarker.andThen fun _ =>
    look fun disk =>
      match disk.backup with
      | none => fail .notFound
      | some prior =>
        if format.compiles (targetGeneration activeGeneration) prior then
          (prepareActivation format prior (targetGeneration activeGeneration) .rollback).andThen (settle format handoff)
        else fail .invalid

/-- A managed operation from its first file access to its end. -/
def manage [DecidableEq Digest] (operation : ManagedOperation Doc) (activeGeneration : ℕ)
    (handoff : Handoff) : Attempt Doc Digest Unit :=
  match operation with
  | .commit bytes => commit format bytes activeGeneration handoff
  | .rollback => rollback format activeGeneration handoff

end Activation

end Pooler
