import Pooler.Spec.Server.Activation

/-! # Recovery of an interrupted activation (`pooler-server/src/config_management.rs`)

A recovery command looks at the marker and at the four files, and acts only on the combinations it
knows. Records are those this server writes: their version, paths and digest syntax always match. -/

namespace Pooler

open Lib

structure RecoveryFileInspection (Digest : Type) where
  present : Bool
  digest : Option Digest
  configValid : Bool
  deriving DecidableEq, Repr

/-- A file that is there has to be a valid document. -/
def RecoveryFileInspection.safe {Digest : Type} (file : RecoveryFileInspection Digest) : Bool :=
  !file.present || file.configValid

inductive RecoveryState where
  | clear
  | legacyMarker
  | blocked
  | readyToComplete
  | readyToPromote
  | noOpRecovery
  | requiresOperator
  deriving DecidableEq, Repr

structure RecoveryStatus where
  state : RecoveryState
  (verified safeToResume safeToAbort : Bool)
  deriving DecidableEq, Repr

namespace Activation

variable {Doc Digest : Type} [DecidableEq Digest] (format : ConfigFormat Doc Digest)

def inspectRecoveryFile (generation : ℕ) (requireGenerated : Bool) :
    Option Doc → RecoveryFileInspection Digest
  | none => ⟨false, none, false⟩
  | some bytes =>
    ⟨true, some (format.bytesDigest bytes),
      (!requireGenerated || format.generated bytes) && format.compiles generation bytes⟩

def optionalDigestMatches (file : RecoveryFileInspection Digest) (expected : Option Digest) : Bool :=
  match expected with
  | some expected => file.digest = some expected
  | none => !file.present

variable (record : RecoveryRecord Digest) (disk : Disk Doc Digest)

def inspectRecord : RecoveryStatus :=
  let canonicalFile := inspectRecoveryFile format record.generation false disk.canonical
  let stagedFile := inspectRecoveryFile format record.generation true disk.staged
  let backupFile := inspectRecoveryFile format record.generation false disk.backup
  let rollbackFile := inspectRecoveryFile format record.generation false disk.rollback
  let pathsMatch : Bool := 0 < record.generation
  let filesSafe : Bool := canonicalFile.configValid && stagedFile.safe && backupFile.safe && rollbackFile.safe
  let priorCanonical : Bool := canonicalFile.digest = some record.priorSha256
  let nextCanonical : Bool := canonicalFile.digest = some record.nextSha256
  let stagedNext : Bool := stagedFile.digest = some record.nextSha256
  let backupPrior : Bool := backupFile.digest = some record.priorSha256
  let priorBackup := optionalDigestMatches rollbackFile record.priorBackupSha256
  let prepared := priorCanonical && stagedNext && backupPrior && priorBackup
  let promoted := nextCanonical && !stagedFile.present && backupPrior && priorBackup
  let untouched := priorCanonical && !stagedFile.present && optionalDigestMatches backupFile record.priorBackupSha256
  let verified := pathsMatch && filesSafe && (prepared || promoted || untouched)
  { state :=
      if !pathsMatch || !filesSafe then .blocked
      else if promoted then .readyToComplete
      else if prepared then .readyToPromote
      else if untouched then .noOpRecovery
      else .requiresOperator
    verified := verified
    safeToResume := verified && (prepared || promoted)
    safeToAbort := verified && (prepared || promoted) }

def inspectRecovery : RecoveryStatus :=
  match disk.marker with
  | none => ⟨.clear, (inspectRecoveryFile format 1 false disk.canonical).configValid, false, false⟩
  | some .legacy => ⟨.legacyMarker, false, false, false⟩
  | some (.record record) => inspectRecord format record disk

/-- The end of both commands: the status they answer with. -/
def report : Attempt Doc Digest RecoveryStatus := look fun disk => .ret (.ok (inspectRecovery format disk))

/-- Moves the staged document into place, unless it is there already. -/
def resumePromotion :
    Attempt Doc Digest Unit :=
  if disk.canonical.map format.bytesDigest = some record.nextSha256 then succeed
  else
    look fun disk =>
      match disk.staged with
      | none => fail .recoveryRequired
      | some staged =>
        if format.bytesDigest staged = record.nextSha256 then
          (change (fun disk => { disk with canonical := disk.staged, staged := none }) false
            .recoveryRequired).andThen fun _ => syncDirectory
        else fail .recoveryRequired

def resumeRecovery : Attempt Doc Digest RecoveryStatus :=
  look fun disk =>
    if (inspectRecovery format disk).safeToResume then
      match disk.marker with
      | some (.record record) =>
        (resumePromotion format record disk).andThen fun _ => (clearRecoveryMarker true).andThen fun _ => report format
      | _ => fail .recoveryRequired
    else fail .recoveryRequired

/-- Puts the backup back from the rollback copy, or removes it when there was none. -/
def abortBackup : Attempt Doc Digest Unit :=
  match record.priorBackupSha256 with
  | none => removeBackup
  | some previousBackup =>
    look fun disk =>
      match disk.rollback with
      | none => fail .recoveryRequired
      | some previous =>
        if format.bytesDigest previous = previousBackup then
          writeAtomic ({ · with backup := some previous })
        else fail .recoveryRequired

def abortRecovery : Attempt Doc Digest RecoveryStatus :=
  look fun disk =>
    if (inspectRecovery format disk).safeToAbort then
      match disk.marker, disk.backup with
      | some (.record record), some backup =>
        if format.bytesDigest backup = record.priorSha256 then
          (writeAtomic ({ · with canonical := some backup })).andThen fun _ =>
            (abortBackup format record).andThen fun _ =>
              removeStaged.andThen fun _ =>
                removeRollback.andThen fun _ =>
                  syncDirectory.andThen fun _ => (clearRecoveryMarker false).andThen fun _ => report format
        else fail .recoveryRequired
      | _, _ => fail .recoveryRequired
    else fail .recoveryRequired

end Activation

end Pooler
