import Pooler.Proofs.CrashConsistency

/-! Which interrupted activations the recovery commands accept. A command acts on two combinations
of files: everything is staged, or everything is promoted. What a command leaves behind when it
succeeds does not depend on how the activation was interrupted. -/

namespace Pooler.Activation

open Lib Faulty Option

variable {Doc Digest : Type} [DecidableEq Digest] {format : ConfigFormat Doc Digest}
  {disk : Disk Doc Digest} {record : RecoveryRecord Digest}

/-- The canonical file, the backup, the staged document and the rollback copy. -/
def files (disk : Disk Doc Digest) : Option Doc × Option Doc × Option Doc × Option Doc :=
  (disk.canonical, disk.backup, disk.staged, disk.rollback)

/-- What resuming makes of the files. -/
def resumed (format : ConfigFormat Doc Digest) (record : RecoveryRecord Digest) (disk : Disk Doc Digest) :
    Option Doc × Option Doc × Option Doc × Option Doc :=
  if disk.canonical.map format.bytesDigest = some record.nextSha256 then files disk
  else (disk.staged, disk.backup, none, disk.rollback)

theorem resumePromotion_safe (disk : Disk Doc Digest) :
    (resumePromotion format record disk).Safe (fun _ => True)
      (Ends (fun _ d => files d = resumed format record disk) fun _ => True) disk := by
  unfold resumePromotion resumed
  split
  · exact ⟨trivial, rfl⟩
  refine look_safe trivial trivial ?_
  cases hstgd : disk.staged with
  | none => exact fail_safe trivial trivial
  | some staged =>
    dsimp only
    split
    · exact Safe.andThen (change_safe trivial trivial trivial (by rw [files, hstgd]) nofun)
        fun _ d hd => syncDirectory_safe trivial trivial hd
    · exact fail_safe trivial trivial

theorem clear_and_report_safe {completing kept} (h : files disk = kept) :
    ((clearRecoveryMarker completing).andThen fun _ => report format).Safe (fun _ => True)
      (Ends (fun _ d => d.marker = none ∧ files d = kept) fun _ => True) disk := by
  refine Safe.andThen (Q := fun _ d => files d = kept ∧ d.marker = none)
    (clearRecoveryMarker_safe (P := fun d => files d = kept) (fun _ _ => ⟨trivial, trivial⟩) h h h h)
    fun _ d hd => look_safe trivial trivial ⟨trivial, hd.2, hd.1⟩

theorem resumeRecovery_safe (disk : Disk Doc Digest) :
    (resumeRecovery format).Safe (fun _ => True)
      (Ends (fun _ d => d.marker = none ∧ (inspectRecovery format disk).safeToResume = true ∧
        ∃ record, disk.marker = some (.record record) ∧ files d = resumed format record disk) fun _ => True) disk := by
  refine look_safe trivial trivial ?_
  split
  next hsafe =>
    split
    next record hmark =>
      refine Safe.andThen (resumePromotion_safe disk) fun _ d hd => ?_
      exact (clear_and_report_safe hd).weaken (fun _ d hd => ⟨hd.1, hsafe, record, hmark, hd.2⟩) fun _ hd => hd
    · exact fail_safe trivial trivial
  · exact fail_safe trivial trivial

theorem safeToAbort_eq (disk : Disk Doc Digest) :
    (inspectRecovery format disk).safeToAbort = (inspectRecovery format disk).safeToResume := by
  unfold inspectRecovery
  split <;> rfl

theorem abortBackup_safe :
    (abortBackup format record).Safe (fun _ => True) (Ends (fun _ d => d.canonical = disk.canonical ∧
      d.backup = record.priorBackupSha256.bind fun _ => disk.rollback) fun _ => True) disk := by
  unfold abortBackup
  cases record.priorBackupSha256 with
  | none =>
    have hrem : (removeBackup : Attempt Doc Digest Unit).Safe (fun _ => True)
        (Ends (fun _ d => d.canonical = disk.canonical ∧ d.backup.isSome = false) fun _ => True) disk :=
      removeFileSynced_safe (P := fun d => d.canonical = disk.canonical) (fun _ _ => ⟨trivial, trivial⟩) rfl rfl rfl
    exact hrem.weaken (fun _ _ hd => ⟨hd.1, by simpa using hd.2⟩) fun _ hd => hd
  | some =>
    refine look_safe trivial trivial ?_
    cases disk.rollback with
    | none => exact fail_safe trivial trivial
    | some =>
      dsimp only
      split
      · exact change_safe trivial trivial trivial ⟨rfl, rfl⟩ fun _ => trivial
      · exact fail_safe trivial trivial

theorem abortRecovery_safe (disk : Disk Doc Digest) :
    (abortRecovery format).Safe (fun _ => True)
      (Ends (fun _ d => d.marker = none ∧ (inspectRecovery format disk).safeToResume = true ∧
        ∃ record, disk.marker = some (.record record) ∧
          files d = (disk.backup, record.priorBackupSha256.bind fun _ => disk.rollback, none, none)) fun _ => True) disk := by
  refine look_safe trivial trivial ?_
  split
  next hsafe =>
    split
    next record backup hmark hbak =>
      split
      next hdig =>
        refine Safe.andThen (Q := fun _ d => d = { disk with canonical := some backup })
          (change_safe trivial trivial trivial rfl fun _ => trivial) ?_
        rintro _ _ rfl
        refine Safe.andThen abortBackup_safe fun _ d hd => ?_
        refine Safe.andThen (removeFileSynced_safe (P := fun d => d.canonical = some backup ∧
          d.backup = record.priorBackupSha256.bind fun _ => disk.rollback) (fun _ _ => ⟨trivial, trivial⟩) hd hd rfl)
          fun _ d hd => ?_
        refine Safe.andThen (removeFileSynced_safe (P := fun d => (d.canonical = some backup ∧
          d.backup = record.priorBackupSha256.bind fun _ => disk.rollback) ∧ d.staged.isSome = false)
          (fun _ _ => ⟨trivial, trivial⟩) hd hd rfl) fun _ d hd => ?_
        have hfil : files d = (disk.backup, record.priorBackupSha256.bind fun _ => disk.rollback, none, none) := by
          simp_all [files]
        refine Safe.andThen (Q := fun _ e => files e = files d) (syncDirectory_safe trivial trivial rfl) fun _ e he => ?_
        refine (clear_and_report_safe (he.trans hfil)).weaken (fun _ d hd => ?_) fun _ hd => hd
        exact ⟨hd.1, (safeToAbort_eq disk).symm.trans hsafe, record, hmark, hd.2⟩
      · exact fail_safe trivial trivial
    · exact fail_safe trivial trivial
  · exact fail_safe trivial trivial

section Inspection

omit [DecidableEq Digest]

@[simp] theorem inspectRecoveryFile_digest (generation : ℕ) (requireGenerated : Bool) (file : Option Doc) :
    (inspectRecoveryFile format generation requireGenerated file).digest = file.map format.bytesDigest := by
  cases file <;> rfl

@[simp] theorem inspectRecoveryFile_present (generation : ℕ) (requireGenerated : Bool) (file : Option Doc) :
    (inspectRecoveryFile format generation requireGenerated file).present = file.isSome := by
  cases file <;> rfl

theorem inspectRecoveryFile_safe {generation : ℕ} {requireGenerated file}
    (h : ∀ document, file = some document →
      (!requireGenerated || format.generated document) = true ∧ format.compiles generation document = true) :
    (inspectRecoveryFile format generation requireGenerated file).safe = true := by
  cases file with
  | none => rfl
  | some document =>
    obtain ⟨hgener, hcom⟩ := h document rfl
    simp only [RecoveryFileInspection.safe, inspectRecoveryFile, hgener, hcom]
    rfl

theorem map_bytesDigest_eq_some (hinj : format.bytesDigest.Injective) {file} {document : Doc} :
    file.map format.bytesDigest = some (format.bytesDigest document) ↔ file = some document := by
  cases file <;> simp [hinj.eq_iff]

end Inspection

theorem optionalDigestMatches_iff (hinj : format.bytesDigest.Injective) {generation : ℕ}
    {requireGenerated file expected} :
    optionalDigestMatches (inspectRecoveryFile format generation requireGenerated file)
      (expected.map format.bytesDigest) = true ↔ file = expected := by
  cases expected with
  | none => simp [optionalDigestMatches]
  | some => simp [optionalDigestMatches, map_bytesDigest_eq_some hinj]

/-- The files of a prepared or of a promoted activation, under its record. -/
def Recoverable (format : ConfigFormat Doc Digest) (prior next : Doc) (previousBackup : Option Doc)
    (disk : Disk Doc Digest) : Prop :=
  disk.marker ≠ some .legacy ∧ disk.backup = some prior ∧ disk.rollback = previousBackup ∧
    ((disk.canonical = some prior ∧ disk.staged = some next ∧ format.generated next = true) ∨
      (disk.canonical = some next ∧ disk.staged = none))

instance [DecidableEq Doc] (prior next : Doc) (previousBackup : Option Doc)
    (disk : Disk Doc Digest) : Decidable (Recoverable format prior next previousBackup disk) :=
  inferInstanceAs (Decidable (_ ∧ _))

variable {generation : ℕ} {kind : ActivationOperation} {prior next : Doc}
  {previousBackup : Option Doc}

theorem recoverable_of_safeToResume (hinj : format.bytesDigest.Injective)
    (hmark : disk.marker = some (.record (recoveryRecord format next generation kind ⟨prior, previousBackup⟩)))
    (hsafe : (inspectRecovery format disk).safeToResume = true) : Recoverable format prior next previousBackup disk := by
  simp only [inspectRecovery, hmark, inspectRecord, recoveryRecord, inspectRecoveryFile_digest,
    inspectRecoveryFile_present, Bool.and_eq_true, Bool.or_eq_true, decide_eq_true_eq,
    map_bytesDigest_eq_some hinj, optionalDigestMatches_iff hinj] at hsafe
  obtain ⟨⟨⟨-, ⟨⟨-, hstagedSafe⟩, -⟩, -⟩, -⟩, hprep | hprom⟩ := hsafe
  · obtain ⟨⟨⟨hcan, hstgd⟩, hbak⟩, hprev⟩ := hprep
    refine ⟨by simp [hmark], hbak, hprev, .inl ⟨hcan, hstgd, ?_⟩⟩
    rw [hstgd] at hstagedSafe
    simp only [RecoveryFileInspection.safe, inspectRecoveryFile, Bool.not_true, Bool.false_or, Bool.and_eq_true] at hstagedSafe
    exact hstagedSafe.1
  · obtain ⟨⟨⟨hcan, hstgd⟩, hbak⟩, hprev⟩ := hprom
    refine ⟨by simp [hmark], hbak, hprev, .inr ⟨hcan, by simpa using hstgd⟩⟩

theorem safeToResume_iff (hinj : format.bytesDigest.Injective) (hgen : 0 < generation)
    (hvld : ∀ document, document = prior ∨ document = next ∨ previousBackup = some document →
      format.compiles generation document = true)
    (hmark : disk.marker = some (.record (recoveryRecord format next generation kind ⟨prior, previousBackup⟩))) :
    (inspectRecovery format disk).safeToResume = true ↔ Recoverable format prior next previousBackup disk := by
  refine ⟨recoverable_of_safeToResume hinj hmark, ?_⟩
  rintro ⟨-, hbak, hprev, hfil⟩
  have hpri := hvld prior (.inl rfl)
  have hnext := hvld next (.inr (.inl rfl))
  have hrollbackSafe : (inspectRecoveryFile format generation false previousBackup).safe = true :=
    inspectRecoveryFile_safe fun document hdoc => ⟨rfl, hvld document (.inr (.inr hdoc))⟩
  simp only [inspectRecovery, hmark, inspectRecord, recoveryRecord, hprev, hbak, hrollbackSafe,
    (optionalDigestMatches_iff hinj).2]
  rcases hfil with ⟨hcan, hstgd, hgener⟩ | ⟨hcan, hstgd⟩ <;> rw [hcan, hstgd]
  · simp [RecoveryFileInspection.safe, inspectRecoveryFile, hgen, hpri, hnext, hgener]
  · simp [RecoveryFileInspection.safe, inspectRecoveryFile, hgen, hpri, hnext]

/-- Resuming activates the next document. It leaves a staged copy of a document that was active already. -/
theorem resumed_eq (hinj : format.bytesDigest.Injective) (h : Recoverable format prior next previousBackup disk) :
    ∃ staged, resumed format (recoveryRecord format next generation kind ⟨prior, previousBackup⟩) disk =
      (some next, disk.backup, staged, disk.rollback) ∧ (staged = none ↔ prior ≠ next ∨ disk.staged = none) := by
  simp only [resumed, recoveryRecord, map_bytesDigest_eq_some hinj, files]
  obtain ⟨-, -, -, ⟨hcan, hstgd, -⟩ | ⟨hcan, hstgd⟩⟩ := h
  · by_cases heq : prior = next
    · exact ⟨disk.staged, by simp [hcan, heq], by simp [heq]⟩
    · exact ⟨none, by simp [hcan, hstgd, heq, hinj.eq_iff], by simp [heq]⟩
  · exact ⟨none, by simp [hcan, hstgd], by simp [hstgd]⟩

/-- The command does its work when no step fails. -/
def Accepted (command : Attempt Doc Digest RecoveryStatus) (disk : Disk Doc Digest) : Prop :=
  ∃ status left, command.smooth disk = (.ok status, left)

omit [DecidableEq Digest] in
theorem clearRecoveryMarker_smooth (completing : Bool) (h : disk.marker.isSome = true) :
    ∃ left, (clearRecoveryMarker completing).smooth disk = (.ok (), left) := by
  refine ⟨{ disk with marker := none, completedMarker := false, completion := completing }, ?_⟩
  obtain ⟨marker, hmark⟩ := isSome_iff_exists.1 h
  simp [clearRecoveryMarker, look, hmark, andThen, change, succeed, Faulty.bind,
    removeCompletedMarker, removeFileSynced, syncDirectory]

theorem resumePromotion_smooth
    (h : disk.canonical.map format.bytesDigest = some record.nextSha256 ∨
      disk.staged.map format.bytesDigest = some record.nextSha256) :
    ∃ left, (resumePromotion format record disk).smooth disk = (.ok (), left) ∧ left.marker = disk.marker := by
  unfold resumePromotion
  by_cases hcan : disk.canonical.map format.bytesDigest = some record.nextSha256
  · rw [if_pos hcan]
    exact ⟨disk, rfl, rfl⟩
  · rw [if_neg hcan]
    obtain ⟨staged, hstgd, hdig⟩ := map_eq_some_iff.1 (h.resolve_left hcan)
    refine ⟨{ disk with canonical := disk.staged, staged := none }, ?_, rfl⟩
    simp [look, hstgd, hdig, andThen, change, succeed, Faulty.bind, syncDirectory]

theorem resumeRecovery_accepted (hmark : disk.marker = some (.record record))
    (hsafe : (inspectRecovery format disk).safeToResume = true)
    (hnext : disk.canonical.map format.bytesDigest = some record.nextSha256 ∨
      disk.staged.map format.bytesDigest = some record.nextSha256) : Accepted (resumeRecovery format) disk := by
  obtain ⟨promoted, hprom, hkept⟩ := resumePromotion_smooth hnext
  have hsome : promoted.marker.isSome = true := by rw [hkept, hmark]; rfl
  obtain ⟨left, hcleared⟩ := clearRecoveryMarker_smooth true hsome
  refine ⟨inspectRecovery format left, left, ?_⟩
  unfold resumeRecovery look
  rw [smooth_read]
  dsimp only
  rw [if_pos hsafe, hmark]
  dsimp only
  rw [smooth_andThen hprom, smooth_andThen hcleared]
  rfl

theorem not_accepted (hsafe : (inspectRecovery format disk).safeToResume = false) :
    ¬ (Accepted (resumeRecovery format) disk ∨ Accepted (abortRecovery format) disk) := by
  have habort : (inspectRecovery format disk).safeToAbort = false := (safeToAbort_eq disk).trans hsafe
  rintro (⟨status, left, h⟩ | ⟨status, left, h⟩)
  · simp [resumeRecovery, look, hsafe, fail] at h
  · simp [abortRecovery, look, habort, fail] at h

/-- An operator gets out: one of the commands is accepted, and each leaves what it promises. -/
def Recovers (format : ConfigFormat Doc Digest) (prior next : Doc) (disk : Disk Doc Digest) : Prop :=
  (Accepted (resumeRecovery format) disk ∨ Accepted (abortRecovery format) disk) ∧
    (∀ outcomes status left, (resumeRecovery format).finished outcomes disk = some (.ok status, left) →
      left.marker = none ∧ left.canonical = some next) ∧
    (∀ outcomes status left, (abortRecovery format).finished outcomes disk = some (.ok status, left) →
      left.marker = none ∧ left.canonical = some prior)

theorem recovers_iff (hinj : format.bytesDigest.Injective) (hgen : 0 < generation)
    (hvld : ∀ document, document = prior ∨ document = next ∨ previousBackup = some document →
      format.compiles generation document = true)
    (hmark : disk.marker = some (.record (recoveryRecord format next generation kind ⟨prior, previousBackup⟩))) :
    Recovers format prior next disk ↔ Recoverable format prior next previousBackup disk := by
  have hsafe := safeToResume_iff hinj hgen hvld hmark
  constructor
  · rintro ⟨hacc, -, -⟩
    rw [← hsafe]
    by_contra href
    exact not_accepted (by simpa using href) hacc
  · intro h
    refine ⟨.inl (resumeRecovery_accepted hmark (hsafe.2 h) ?_), fun outs status left hend => ?_,
      fun outs status left hend => ?_⟩
    · obtain ⟨-, -, -, ⟨-, hstgd, -⟩ | ⟨hcan, -⟩⟩ := h
      · exact .inr ((map_bytesDigest_eq_some hinj).2 hstgd)
      · exact .inl ((map_bytesDigest_eq_some hinj).2 hcan)
    · obtain ⟨hleft, -, record, hrec, hfil⟩ := (resumeRecovery_safe disk).finished hend
      cases hmark.symm.trans hrec
      obtain ⟨staged, heq, -⟩ := resumed_eq hinj h
      exact ⟨hleft, (Prod.mk.inj (hfil.trans heq)).1⟩
    · obtain ⟨hleft, -, _, -, hfil⟩ := (abortRecovery_safe disk).finished hend
      exact ⟨hleft, (Prod.mk.inj hfil).1.trans h.2.1⟩

theorem legacy_not_recovers (hmark : disk.marker = some .legacy) : ¬ Recovers format prior next disk := by
  have href : (inspectRecovery format disk).safeToResume = false := by
    unfold inspectRecovery
    rw [hmark]
  exact fun h => not_accepted href h.1

omit [DecidableEq Digest] in
theorem Sound.recorded {t} (h : Sound t disk) : Recorded t disk := by
  rcases h with h | h | h <;> exact h.recorded

/-- A marker that an interrupted operation left can be resumed or aborted exactly when the crash
found the operation prepared, with a generated document staged, or promoted. -/
theorem interrupted_activation_recovers_iff (format : ConfigFormat Doc Digest)
    (operation : ManagedOperation Doc) (activeGeneration : ℕ) (handoff : Handoff)
    (disk : Disk Doc Digest) (prior next : Doc) (hinjective : format.bytesDigest.Injective)
    (hprior : disk.canonical = some prior) (hnext : operation.next disk = some next) (hclear : disk.marker = none)
    (hvalid : ∀ document, document = prior ∨ document = next ∨ disk.backup = some document →
      format.compiles (targetGeneration activeGeneration) document = true) (outcomes : List Outcome) :
    let left := (manage format operation activeGeneration handoff).crashed outcomes disk
    left.marker.isSome = true → (Recovers format prior next left ↔ Recoverable format prior next disk.backup left) := by
  intro left hleft
  have hsd : Sound (transactionOf format operation activeGeneration prior next disk) left :=
    (manage_safe hprior hnext).crashed outcomes
  obtain ⟨marker, hmark⟩ := isSome_iff_exists.1 hleft
  cases marker with
  | legacy => refine iff_of_false (legacy_not_recovers hmark) fun h => h.1 hmark
  | record record =>
    have hown := (hsd.recorded record hmark).resolve_right (by
      rw [hmark]
      exact fun h => by cases hclear.symm.trans h)
    have hgen : 0 < targetGeneration activeGeneration := by
      unfold targetGeneration satAdd u64Max
      omega
    exact recovers_iff hinjective hgen hvalid (hmark.trans (by rw [hown]; rfl))

/-- No file of a transaction is left, and none of the directory refuses the next activation. -/
def CleanSlate (format : ConfigFormat Doc Digest) (disk : Disk Doc Digest) : Prop :=
  disk.staged = none ∧ disk.rollback = none ∧ ∀ bytes generation operation, ∃ activation left,
    (prepareActivation format bytes generation operation).smooth disk = (.ok activation, left)

omit [DecidableEq Digest] in
theorem prepareActivation_smooth {document : Doc} (hcan : disk.canonical = some document)
    (hmark : disk.marker = none) (hroll : disk.rollback = none) (bytes : Doc) (generation : ℕ)
    (op : ActivationOperation) :
    ∃ activation left, (prepareActivation format bytes generation op).smooth disk = (.ok activation, left) := by
  cases hbak : disk.backup <;> cases hdone : disk.completedMarker <;>
    simp [prepareActivation, acquireRecoveryMarker, ensureNoRecoveryMarker, removeCompletedMarker, removeFileSynced,
      syncDirectory, persistenceSnapshot, onError, preparation, writeRecoveryRecord, writeAtomic, look, change, succeed,
      andThen, Faulty.bind, hcan, hmark, hroll, hbak, hdone]

/-- Resuming leaves a clean slate exactly when there was no backup before the transaction and no staged copy of a document
that is active already. Aborting always does. -/
theorem recovery_leaves_clean_slate_iff (disk : Disk Doc Digest) (hinjective : format.bytesDigest.Injective)
    (hmarker : disk.marker = some (.record (recoveryRecord format next generation kind ⟨prior, previousBackup⟩)))
    (outcomes : List Outcome) (status : RecoveryStatus) (left : Disk Doc Digest) :
    ((resumeRecovery format).finished outcomes disk = some (.ok status, left) →
      left.backup = some prior ∧
        (CleanSlate format left ↔ previousBackup = none ∧ (prior ≠ next ∨ disk.staged = none))) ∧
    ((abortRecovery format).finished outcomes disk = some (.ok status, left) →
      left.backup = previousBackup ∧ CleanSlate format left) := by
  constructor
  · intro hend
    obtain ⟨hleft, hsafe, record, hrec, hfil⟩ := (resumeRecovery_safe disk).finished hend
    cases hmarker.symm.trans hrec
    have h := recoverable_of_safeToResume hinjective hmarker hsafe
    obtain ⟨staged, heq, hstgd⟩ := resumed_eq hinjective h
    obtain ⟨hcan, hbak, hleftStaged, hroll⟩ : left.canonical = some next ∧ left.backup = disk.backup ∧
        left.staged = staged ∧ left.rollback = disk.rollback := by simpa [files] using hfil.trans heq
    refine ⟨hbak.trans h.2.1, ?_⟩
    rw [CleanSlate, hleftStaged, hstgd, hroll, h.2.2.1]
    refine ⟨fun hcln => ⟨hcln.2.1, hcln.1⟩, fun hcln => ⟨hcln.2, hcln.1, ?_⟩⟩
    exact prepareActivation_smooth hcan hleft (hroll.trans (h.2.2.1.trans hcln.1))
  · intro hend
    obtain ⟨hleft, hsafe, record, hrec, hfil⟩ := (abortRecovery_safe disk).finished hend
    cases hmarker.symm.trans hrec
    have h := recoverable_of_safeToResume hinjective hmarker hsafe
    obtain ⟨hcan, hbak, hstgd, hroll⟩ : left.canonical = some prior ∧ left.backup = previousBackup ∧
        left.staged = none ∧ left.rollback = none := by
      rw [h.2.1, h.2.2.1] at hfil
      cases previousBackup <;> simpa [files, recoveryRecord] using hfil
    exact ⟨hbak, hstgd, hroll, prepareActivation_smooth hcan hleft hroll⟩

/-- The commit of document 2, cut short after `steps` requests that all went well. -/
def cutShort (steps : ℕ) : Disk ℕ ℕ :=
  (manage numberFormat (.commit 2) 7 .activated).crashed (List.replicate steps .done) settledDisk

theorem staged_commit_recovers : Recovers numberFormat 1 2 (cutShort 9) := by
  refine (interrupted_activation_recovers_iff numberFormat (.commit 2) 7 .activated settledDisk 1 2
    Function.injective_id rfl rfl rfl (fun _ _ => rfl) (List.replicate 9 .done) (by decide +kernel)).2 ?_
  decide +kernel

/-- A completion that is cut short after it removed the rollback copy leaves its marker, and no
command accepts it. The same holds of a crash before the document is staged. -/
theorem completed_commit_is_stuck :
    (cutShort 15).marker.isSome = true ∧ ¬ Recovers numberFormat 1 2 (cutShort 15) ∧
      (cutShort 3).marker.isSome = true ∧ ¬ Recovers numberFormat 1 2 (cutShort 3) := by
  refine ⟨by decide +kernel, ?_, by decide +kernel, legacy_not_recovers (by decide +kernel)⟩
  exact fun h => not_accepted (by decide +kernel) h.1

/-- The first commit of document 2, over a document that has no backup yet, cut short with the document staged. -/
def firstCommit : Disk ℕ ℕ :=
  (manage numberFormat (.commit 2) 7 .activated).crashed (List.replicate 9 .done) { settledDisk with backup := none }

theorem first_commit_resumes_clean : ∃ status left,
    (resumeRecovery numberFormat).finished (List.replicate 11 .done) firstCommit = some (.ok status, left) ∧
      CleanSlate numberFormat left := by
  refine ⟨_, _, rfl, ((recovery_leaves_clean_slate_iff firstCommit Function.injective_id rfl
    (List.replicate 11 .done) _ _).1 rfl).2.2 ?_⟩
  decide

theorem resumed_commit_leaves_its_rollback :
    (inspectRecovery numberFormat (cutShort 9)).safeToResume = true ∧
      ((resumeRecovery numberFormat).smooth (cutShort 9)).1.toBool = true ∧
      ((resumeRecovery numberFormat).smooth (cutShort 9)).2.rollback = some 0 ∧
      ((prepareActivation numberFormat 3 9 .commit).smooth ((resumeRecovery numberFormat).smooth (cutShort 9)).2).1 =
        .error .recoveryRequired := by
  decide +kernel

end Pooler.Activation
