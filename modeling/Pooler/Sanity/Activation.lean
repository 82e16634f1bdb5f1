import Pooler.Spec.Server.Recovery

/-! What each step of an activation keeps, as one `Safe` statement per function. The phases of a
transaction are predicates on the files; every phase implies `Sound`, which is what a crash finds. -/

namespace Pooler.Activation

open Lib Faulty Safe

variable {Doc Digest α : Type} {inv bad : Disk Doc Digest → Prop} {disk : Disk Doc Digest}
  {good : α → Disk Doc Digest → Prop} {error : ConfigManagementError}

theorem fail_safe (hinv : inv disk) (hbad : bad disk) :
    (fail error : Attempt Doc Digest α).Safe inv (Ends good bad) disk :=
  ⟨hinv, hbad⟩

theorem look_safe {f} (hinv : inv disk) (hbad : bad disk) (hf : (f disk).Safe inv (Ends good bad) disk) :
    (look f).Safe inv (Ends good bad) disk :=
  ⟨hinv, fail_safe hinv hbad, hf⟩

theorem change_safe {good effect tears}
    (hinv : inv disk) (hbad : bad disk) (hinv' : inv (effect disk)) (hgood : good () (effect disk))
    (hbad' : tears = true → bad (effect disk)) : (change effect tears error).Safe inv (Ends good bad) disk :=
  ⟨hinv, ⟨hinv', hgood⟩, ⟨hinv, hbad⟩, fun htears => ⟨hinv', hbad' htears⟩⟩

theorem syncDirectory_safe {good} (hinv : inv disk) (hbad : bad disk) (hgood : good () disk) :
    (syncDirectory : Attempt Doc Digest Unit).Safe inv (Ends good bad) disk :=
  change_safe hinv hbad hinv hgood nofun

theorem onError_safe {bad' p handler}
    (hp : p.Safe inv (Ends good bad) disk) (hhan : ∀ error t, bad t → (handler error).Safe inv (Ends good bad') t) :
    (onError p handler).Safe inv (Ends good bad') disk := by
  refine hp.bind fun result t hinv hpost => ?_
  match result, hpost with
  | .ok a, hpost => exact ⟨hinv, hpost⟩
  | .error error, hpost => exact hhan error t hpost

variable {restore : Attempt Doc Digest Unit}

theorem undo_safe {Q original} (h : restore.Safe inv (Ends Q inv) disk) :
    (undo restore original : Attempt Doc Digest α).Safe inv (Ends good inv) disk := by
  refine h.bind fun result t hinv _ => ?_
  match result with
  | .ok _ | .error _ => exact fail_safe hinv hinv

variable {P : Disk Doc Digest → Prop}

theorem removeFileSynced_safe {present remove} (hP : ∀ t, P t → inv t ∧ bad t) (h : P disk)
    (hremove : P (remove disk)) (hgone : present (remove disk) = false) :
    (removeFileSynced present remove).Safe inv (Ends (fun _ t => P t ∧ present t = false) bad) disk := by
  refine look_safe (hP _ h).1 (hP _ h).2 ?_
  by_cases hpres : present disk = true
  · rw [if_pos hpres]
    refine andThen (Q := fun _ t => P t ∧ present t = false)
      (change_safe (hP _ h).1 (hP _ h).2 (hP _ hremove).1 ⟨hremove, hgone⟩ nofun) ?_
    intro _ t ht
    exact syncDirectory_safe (hP t ht.1).1 (hP t ht.1).2 ht
  · rw [if_neg hpres]
    exact ⟨(hP _ h).1, h, by simpa using hpres⟩

theorem clearRecoveryMarker_safe {completing} (hP : ∀ t, P t → inv t ∧ bad t) (h : P disk)
    (haside : P { disk with marker := none, completedMarker := true, completion := completing })
    (hdone : P { disk with marker := none, completedMarker := false, completion := completing })
    (hback : P { disk with completedMarker := false, completion := false }) :
    (clearRecoveryMarker completing).Safe inv (Ends (fun _ t => P t ∧ t.marker = none) bad) disk := by
  refine look_safe (hP _ h).1 (hP _ h).2 ?_
  by_cases hn : disk.marker.isNone = true
  · rw [if_pos hn]
    exact fail_safe (hP _ h).1 (hP _ h).2
  rw [if_neg hn]
  refine andThen (Q := fun _ t => t =
      { disk with marker := none, completedMarker := true, completion := completing })
    (change_safe (hP _ h).1 (hP _ h).2 (hP _ haside).1 rfl nofun) ?_
  rintro _ _ rfl
  have hrem : (removeCompletedMarker : Attempt Doc Digest Unit).Safe inv
      (Ends (fun _ t => (P t ∧ t.marker = none) ∧ t.completedMarker = false) (fun t => P t ∧ t.marker = none))
      { disk with marker := none, completedMarker := true, completion := completing } :=
    removeFileSynced_safe (fun t ht => ⟨(hP t ht.1).1, ht⟩) ⟨haside, rfl⟩ ⟨hdone, rfl⟩ rfl
  have hmvd := hP _ haside
  have hres := hP _ hback
  refine ⟨hmvd.1, ?_, ⟨hmvd.1, ?_, ?_, nofun⟩, nofun⟩
  · refine hrem.bind fun result t hinv hpost => ?_
    match result, hpost with
    | .ok _, hpost => exact ⟨hinv, hpost.1⟩
    | .error _, hpost => exact ⟨hinv, hpost⟩
  · exact ⟨hres.1, fail_safe hres.1 hres.2, fail_safe hres.1 hres.2, nofun⟩
  · exact ⟨hmvd.1, fail_safe hmvd.1 hmvd.2, fail_safe hmvd.1 hmvd.2, nofun⟩

/-- One activation: the document before it, the one it activates, the backup before it, the record
it writes and the marker it found. -/
structure Transaction (Doc Digest : Type) where
  (prior next : Doc)
  backup : Option Doc
  record : RecoveryRecord Digest
  held : Option (RecoveryMarker Digest)

variable {t : Transaction Doc Digest}

def Transaction.persistence (t : Transaction Doc Digest) : PersistenceState Doc := ⟨t.prior, t.backup⟩

/-- A record on the disk is the transaction's own, or was there before it. -/
def Recorded (t : Transaction Doc Digest) (disk : Disk Doc Digest) : Prop :=
  ∀ record, disk.marker = some (.record record) → record = t.record ∨ t.held = disk.marker

structure Untouched (t : Transaction Doc Digest) (disk : Disk Doc Digest) : Prop where
  recorded : Recorded t disk
  canonical : disk.canonical = some t.prior
  backup : disk.backup = t.backup

structure Preparing (t : Transaction Doc Digest) (disk : Disk Doc Digest) : Prop where
  recorded : Recorded t disk
  marker : disk.marker.isSome = true
  canonical : disk.canonical = some t.prior

structure Staged (t : Transaction Doc Digest) (disk : Disk Doc Digest) : Prop
    extends Preparing t disk where
  backup : disk.backup = some t.prior
  staged : disk.staged = some t.next

structure Promoted (t : Transaction Doc Digest) (disk : Disk Doc Digest) : Prop where
  recorded : Recorded t disk
  marker : disk.marker.isSome = true
  canonical : disk.canonical = some t.next
  backup : disk.backup = some t.prior

/-- An undo may start from a promoted document or from one that is only staged. -/
def Undoing (t : Transaction Doc Digest) (disk : Disk Doc Digest) : Prop := Preparing t disk ∨ Promoted t disk

/-- Once a completion moves the marker aside, the effect is complete. -/
structure Completing (t : Transaction Doc Digest) (disk : Disk Doc Digest) : Prop where
  recorded : Recorded t disk
  canonical : disk.canonical = some t.next
  backup : disk.backup = some t.prior
  marker : disk.completion = false → disk.marker.isSome = true

/-- What a crash finds. -/
def Sound (t : Transaction Doc Digest) (disk : Disk Doc Digest) : Prop :=
  Untouched t disk ∨ Preparing t disk ∨ Completing t disk

/-- A crash leaves the transaction sound, the end `good`, an error `bad`. -/
abbrev Transaction.Secures (t : Transaction Doc Digest) (p : Attempt Doc Digest α) (good : α → Disk Doc Digest → Prop)
    (bad : Disk Doc Digest → Prop) (disk : Disk Doc Digest) : Prop :=
  p.Safe (Sound t) (Ends good bad) disk

theorem Untouched.sound (h : Untouched t disk) : Sound t disk := .inl h

theorem Preparing.sound (h : Preparing t disk) : Sound t disk := .inr (.inl h)

theorem Completing.sound (h : Completing t disk) : Sound t disk := .inr (.inr h)

theorem Promoted.completing (h : Promoted t disk) : Completing t disk :=
  ⟨h.recorded, h.canonical, h.backup, fun _ => h.marker⟩

theorem Undoing.sound (h : Undoing t disk) : Sound t disk := h.elim Preparing.sound fun h => h.completing.sound

theorem Undoing.recorded (h : Undoing t disk) : Recorded t disk := h.elim Preparing.recorded Promoted.recorded

theorem Undoing.marker (h : Undoing t disk) : disk.marker.isSome = true := h.elim Preparing.marker Promoted.marker

theorem Recorded.of_marker_eq {disk'} (h : Recorded t disk)
    (hmark : disk'.marker = disk.marker) : Recorded t disk' := by
  unfold Recorded at *
  rw [hmark]
  exact h

theorem recorded_of_none (hmark : disk.marker = none) : Recorded t disk := by
  intro record h
  rw [hmark] at h
  cases h

section

variable (h : Untouched t disk)
include h

theorem ensureNoRecoveryMarker_safe :
    t.Secures ensureNoRecoveryMarker (fun _ d => Untouched t d ∧ d.marker = none) (Sound t) disk := by
  refine andThen (Q := fun _ d => Untouched t d ∧ d.completedMarker = false)
    (removeFileSynced_safe (fun d hd => ⟨hd.sound, hd.sound⟩) h ⟨h.recorded, h.canonical, h.backup⟩ rfl) ?_
  intro _ d hd
  refine look_safe hd.1.sound hd.1.sound ?_
  by_cases hmark : d.marker.isSome = true
  · rw [if_pos hmark]
    exact fail_safe hd.1.sound hd.1.sound
  · rw [if_neg hmark]
    exact ⟨hd.1.sound, hd.1, by simpa using hmark⟩

theorem acquireRecoveryMarker_safe :
    t.Secures acquireRecoveryMarker (fun _ d => Untouched t d ∧ d.marker.isSome = true) (Sound t) disk := by
  refine andThen (ensureNoRecoveryMarker_safe h) ?_
  rintro _ d ⟨hd, -⟩
  have hmar : Untouched t { d with marker := some .legacy } := ⟨nofun, hd.canonical, hd.backup⟩
  have hunm : Untouched t { d with marker := none } := ⟨recorded_of_none rfl, hd.canonical, hd.backup⟩
  refine andThen (Q := fun _ d' => d' = { d with marker := some .legacy })
    (change_safe hd.sound hd.sound hmar.sound rfl nofun) ?_
  rintro _ _ rfl
  refine ⟨hmar.sound, ⟨hmar.sound, hmar, rfl⟩, ⟨hmar.sound, ?_, ?_, nofun⟩, nofun⟩
  · exact ⟨hunm.sound, fail_safe hunm.sound hunm.sound, fail_safe hunm.sound hunm.sound, nofun⟩
  · exact ⟨hmar.sound, fail_safe hmar.sound hmar.sound, fail_safe hmar.sound hmar.sound, nofun⟩

theorem clearRecoveryMarker_untouched :
    t.Secures (clearRecoveryMarker false) (fun _ d => Untouched t d ∧ d.marker = none) (Sound t) disk :=
  clearRecoveryMarker_safe (fun _ hd => ⟨hd.sound, hd.sound⟩) h
    ⟨recorded_of_none rfl, h.canonical, h.backup⟩ ⟨recorded_of_none rfl, h.canonical, h.backup⟩
    ⟨h.recorded.of_marker_eq rfl, h.canonical, h.backup⟩

theorem clearRecoveryMarkerIfPresent_safe :
    t.Secures clearRecoveryMarkerIfPresent (fun _ d => Untouched t d ∧ d.marker = none) (Sound t) disk := by
  refine look_safe h.sound h.sound ?_
  by_cases hmark : disk.marker.isSome = true
  · rw [if_pos hmark]
    exact clearRecoveryMarker_untouched h
  · rw [if_neg hmark]
    exact ⟨h.sound, h, by simpa using hmark⟩

theorem persistenceSnapshot_safe (hmark : disk.marker.isSome = true) :
    t.Secures persistenceSnapshot
      (fun persistence d => persistence = t.persistence ∧ Untouched t d ∧ d.marker.isSome = true) (Untouched t) disk := by
  refine look_safe h.sound h ?_
  rw [h.canonical]
  dsimp only
  by_cases hroll : disk.rollback.isSome = true
  · rw [if_pos hroll]
    exact fail_safe h.sound h
  · rw [if_neg hroll]
    refine ⟨h.sound, ?_, h, hmark⟩
    rw [h.backup]
    rfl

theorem preparation_safe (hmark : disk.marker.isSome = true) :
    t.Secures (preparation t.record t.persistence t.next) (fun _ => Staged t) (Preparing t) disk := by
  have hst : Preparing t disk := ⟨h.recorded, hmark, h.canonical⟩
  have hrec : Preparing t { disk with marker := some (.record t.record) } :=
    ⟨fun _ h => .inl (RecoveryMarker.record.inj (Option.some.inj h)).symm, rfl, h.canonical⟩
  refine andThen (Q := fun _ => Preparing t) (change_safe hst.sound hst hrec.sound hrec fun _ => hrec) ?_
  intro _ d hd
  refine andThen (Q := fun _ => Preparing t) ?_ ?_
  · match t.persistence.previousBackup with
    | none => exact ⟨hd.sound, hd⟩
    | some previousBackup =>
      have hcop : Preparing t { d with rollback := some previousBackup } :=
        ⟨hd.recorded.of_marker_eq rfl, hd.marker, hd.canonical⟩
      exact change_safe hd.sound hd hcop.sound hcop fun _ => hcop
  intro _ d hd
  have hbak : Preparing t { d with backup := some t.prior } :=
    ⟨hd.recorded.of_marker_eq rfl, hd.marker, hd.canonical⟩
  refine andThen (Q := fun _ d => Preparing t d ∧ d.backup = some t.prior)
    (change_safe hd.sound hd hbak.sound ⟨hbak, rfl⟩ fun _ => hbak) ?_
  rintro _ d ⟨hd, hpri⟩
  have hstgd : Staged t { d with staged := some t.next } :=
    { recorded := hd.recorded.of_marker_eq rfl
      marker := hd.marker
      canonical := hd.canonical
      backup := hpri
      staged := rfl }
  exact change_safe hd.sound hd hstgd.sound hstgd fun _ => hstgd.toPreparing

end

theorem restoreBackup_safe (h : Preparing t disk) :
    t.Secures (restoreBackup t.persistence) (fun _ d => Preparing t d ∧ d.backup = t.backup) (Undoing t) disk := by
  unfold restoreBackup
  cases hprev : t.persistence.previousBackup with
  | none =>
    have hn : t.backup = none := hprev
    have hrem : t.Secures removeBackup
        (fun _ d => Preparing t d ∧ d.backup.isSome = false) (Undoing t) disk :=
      removeFileSynced_safe (fun _ hd => ⟨hd.sound, .inl hd⟩) h ⟨h.recorded.of_marker_eq rfl, h.marker, h.canonical⟩ rfl
    refine hrem.weaken (fun _ d hd => ⟨hd.1, ?_⟩) fun _ hd => hd
    rw [hn]
    simpa using hd.2
  | some previousBackup =>
    have hsome : t.backup = some previousBackup := hprev
    have hres : Preparing t { disk with backup := some previousBackup } :=
      ⟨h.recorded.of_marker_eq rfl, h.marker, h.canonical⟩
    exact change_safe h.sound (.inl h) hres.sound ⟨hres, hsome.symm⟩ fun _ => .inl hres

/-- Canonical file and backup as before, the marker still in place. -/
def Restored (t : Transaction Doc Digest) (disk : Disk Doc Digest) : Prop := Preparing t disk ∧ disk.backup = t.backup

theorem Restored.undoing (h : Restored t disk) : Undoing t disk := .inl h.1

theorem Restored.untouched (h : Restored t disk) : Untouched t disk := ⟨h.1.recorded, h.1.canonical, h.2⟩

theorem removeStaged_restored (h : Restored t disk) :
    t.Secures removeStaged (fun _ d => Restored t d ∧ d.staged.isSome = false) (Undoing t) disk :=
  removeFileSynced_safe (fun _ hd => ⟨hd.1.sound, hd.undoing⟩) h
    ⟨⟨h.1.recorded.of_marker_eq rfl, h.1.marker, h.1.canonical⟩, h.2⟩ rfl

theorem removeRollback_restored (h : Restored t disk) :
    t.Secures removeRollback (fun _ d => Restored t d ∧ d.rollback.isSome = false) (Undoing t) disk :=
  removeFileSynced_safe (fun _ hd => ⟨hd.1.sound, hd.undoing⟩) h
    ⟨⟨h.1.recorded.of_marker_eq rfl, h.1.marker, h.1.canonical⟩, h.2⟩ rfl

theorem restorePreparationState_safe (h : Preparing t disk) :
    t.Secures (restorePreparationState t.persistence)
      (fun _ d => Restored t d ∧ d.rollback.isSome = false) (Undoing t) disk := by
  refine andThen (restoreBackup_safe h) fun _ d hd => ?_
  refine andThen (removeStaged_restored hd) fun _ d hd => ?_
  exact removeRollback_restored hd.1

theorem restoreExact_safe (h : Undoing t disk) :
    t.Secures (restoreExact t.persistence) (fun _ => Restored t) (Undoing t) disk := by
  have hcan : Preparing t { disk with canonical := some t.prior } := ⟨h.recorded.of_marker_eq rfl, h.marker, rfl⟩
  refine andThen (Q := fun _ => Preparing t) (change_safe h.sound h hcan.sound hcan fun _ => .inl hcan) fun _ d hd => ?_
  refine andThen (restoreBackup_safe hd) fun _ d hd => ?_
  refine andThen (removeStaged_restored hd) fun _ d hd => ?_
  refine andThen (removeRollback_restored hd.1) fun _ d hd => ?_
  exact syncDirectory_safe hd.1.1.sound hd.1.undoing hd.1

theorem clear_after_restore (h : t.Secures restore (fun _ => Untouched t) (Sound t) disk) :
    t.Secures (restore.andThen fun _ => clearRecoveryMarkerIfPresent)
      (fun _ d => Untouched t d ∧ d.marker = none) (Sound t) disk :=
  andThen h fun _ _ hd => clearRecoveryMarkerIfPresent_safe hd

theorem abortPreparation_some_safe (h : Preparing t disk) :
    t.Secures (abortPreparation (some t.persistence) error) good (Sound t) disk := by
  refine undo_safe (clear_after_restore ?_)
  exact (restorePreparationState_safe h).weaken (fun _ _ hd => hd.1.untouched) fun _ => Undoing.sound

/-- The activation a preparation of `t` hands over. -/
def Transaction.activation (t : Transaction Doc Digest) (format : ConfigFormat Doc Digest) :
    PreparedActivation Doc Digest :=
  { nextDigest := format.bytesDigest t.next, persistence := t.persistence, active := true, promoted := false }

variable {format : ConfigFormat Doc Digest}

theorem prepareActivation_safe {gen : ℕ} {operation}
    (hrec : t.record = recoveryRecord format t.next gen operation t.persistence) (h : Untouched t disk) :
    t.Secures (prepareActivation format t.next gen operation)
      (fun activation d => activation = t.activation format ∧ Staged t d) (Sound t) disk := by
  refine andThen (acquireRecoveryMarker_safe h) fun _ d hd => ?_
  refine andThen (onError_safe (persistenceSnapshot_safe hd.1 hd.2)
    fun error d hd => undo_safe (clear_after_restore ⟨hd.sound, hd⟩)) ?_
  rintro _ d ⟨rfl, hd, hmark⟩
  rw [← hrec]
  refine andThen (onError_safe (preparation_safe hd hmark)
    fun error d hd => abortPreparation_some_safe hd) fun _ d hd => ?_
  exact ⟨hd.sound, rfl, hd⟩

theorem rollbackActivation_safe (h : Undoing t disk) :
    t.Secures (rollbackActivation (t.activation format))
      (fun _ d => Untouched t d ∧ d.marker = none) (Sound t) disk := by
  have hr : t.Secures (restoreExact t.persistence)
      (fun _ => Restored t) (Sound t) disk :=
    (restoreExact_safe h).weaken (fun _ _ hd => hd) fun _ => Undoing.sound
  refine andThen hr fun _ d hd => ?_
  refine andThen (clearRecoveryMarker_untouched hd.untouched) fun _ d hd => ?_
  exact ⟨hd.1.sound, hd⟩

variable [DecidableEq Digest]

theorem promoteStaged_safe (h : Staged t disk) :
    t.Secures (promoteStaged format (t.activation format)) (fun _ => Promoted t) (Undoing t) disk := by
  have hst : Undoing t disk := .inl h.toPreparing
  refine look_safe h.sound hst ?_
  rw [h.staged]
  dsimp only
  rw [if_pos (show format.bytesDigest t.next = (t.activation format).nextDigest from rfl)]
  have hprom : Promoted t { disk with canonical := disk.staged, staged := none } :=
    ⟨h.recorded.of_marker_eq rfl, h.marker, h.staged, h.backup⟩
  refine andThen (Q := fun _ => Promoted t)
    (change_safe h.sound hst hprom.completing.sound hprom nofun) fun _ d hd => ?_
  exact syncDirectory_safe hd.completing.sound (.inr hd) hd

theorem promoteCommit_safe (h : Staged t disk) :
    t.Secures (promoteCommit format (t.activation format))
      (fun activation d => (activation.active && activation.promoted) = true ∧ Promoted t d) (Sound t) disk := by
  refine andThen (onError_safe (promoteStaged_safe h) fun error d hd => ?_) fun _ d hd => ?_
  · refine undo_safe (Q := fun _ _ => True) (andThen (rollbackActivation_safe hd) fun _ d hd => ?_)
    exact ⟨hd.1.sound, trivial⟩
  · exact ⟨hd.completing.sound, rfl, hd⟩

omit [DecidableEq Digest] in
theorem completeActivation_safe {activation}
    (hactv : (activation.active && activation.promoted) = true) (h : Promoted t disk) :
    t.Secures (completeActivation activation) (fun _ d => Completing t d ∧ d.marker = none) (Sound t) disk := by
  have hsd : ∀ d, Promoted t d → Sound t d ∧ Sound t d := fun d hd => ⟨hd.completing.sound, hd.completing.sound⟩
  unfold completeActivation
  rw [if_pos hactv]
  refine andThen (removeFileSynced_safe hsd h
    ⟨h.recorded.of_marker_eq rfl, h.marker, h.canonical, h.backup⟩ rfl) fun _ d hd => ?_
  refine andThen (removeFileSynced_safe hsd hd.1
    ⟨hd.1.recorded.of_marker_eq rfl, hd.1.marker, hd.1.canonical, hd.1.backup⟩ rfl)
    fun _ d hd => ?_
  exact clearRecoveryMarker_safe (fun _ hd => ⟨hd.sound, hd.sound⟩) hd.1.completing
    ⟨recorded_of_none rfl, hd.1.canonical, hd.1.backup, nofun⟩
    ⟨recorded_of_none rfl, hd.1.canonical, hd.1.backup, nofun⟩
    ⟨hd.1.recorded.of_marker_eq rfl, hd.1.canonical, hd.1.backup, fun _ => hd.1.marker⟩

theorem settle_safe (handoff : Handoff) (h : Staged t disk) :
    t.Secures (settle format handoff (t.activation format)) (fun _ _ => True) (Sound t) disk := by
  cases handoff with
  | activated =>
    refine andThen (promoteCommit_safe h) fun activation d hd => ?_
    exact (completeActivation_safe hd.1 hd.2).weaken (fun _ _ _ => trivial) fun _ hd => hd
  | refused =>
    refine andThen (rollbackActivation_safe (.inl h.toPreparing)) fun _ d hd => ?_
    exact ⟨hd.1.sound, trivial⟩

/-- A managed operation as a transaction on the files it finds. -/
def transactionOf (format : ConfigFormat Doc Digest) (operation : ManagedOperation Doc)
    (activeGeneration : ℕ) (prior next : Doc) (disk : Disk Doc Digest) : Transaction Doc Digest where
  prior := prior
  next := next
  backup := disk.backup
  record := recoveryRecord format next (targetGeneration activeGeneration) operation.kind ⟨prior, disk.backup⟩
  held := disk.marker

theorem manage_safe {operation} {activeGeneration : ℕ} {handoff}
    {prior next : Doc} (hpri : disk.canonical = some prior) (hnext : operation.next disk = some next) :
    (manage format operation activeGeneration handoff).Safe
      (Sound (transactionOf format operation activeGeneration prior next disk))
      (Ends (fun _ _ => True) (Sound (transactionOf format operation activeGeneration prior next disk)))
      disk := by
  have hst : Untouched (transactionOf format operation activeGeneration prior next disk) disk :=
    ⟨fun _ _ => .inr rfl, hpri, rfl⟩
  cases operation with
  | commit =>
    cases hnext
    refine andThen (prepareActivation_safe rfl hst) ?_
    rintro _ d ⟨rfl, hd⟩
    exact settle_safe handoff hd
  | rollback =>
    refine andThen (ensureNoRecoveryMarker_safe hst) fun _ d hd => ?_
    refine look_safe hd.1.sound hd.1.sound ?_
    have hbak : d.backup = some next := hd.1.backup.trans hnext
    rw [hbak]
    dsimp only
    split
    · refine andThen (prepareActivation_safe rfl hd.1) ?_
      rintro _ d ⟨rfl, hd⟩
      exact settle_safe handoff hd
    · exact fail_safe hd.1.sound hd.1.sound

end Pooler.Activation
