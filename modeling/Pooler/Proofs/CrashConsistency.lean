import Pooler.Sanity.Activation

/-! A crash of a managed activation finds one of three phases on the disk: nothing the readers of
the canonical file or the backup can see has changed, the marker guards a half-done change, or the
new document is in place with the prior one as its backup. -/

namespace Pooler.Activation

open Lib

variable {Doc Digest : Type} {t : Transaction Doc Digest} {disk : Disk Doc Digest}

theorem Sound.canonical (h : Sound t disk) : disk.canonical = some t.prior ∨ disk.canonical = some t.next := by
  rcases h with h | h | h
  · exact .inl h.canonical
  · exact .inl h.canonical
  · exact .inr h.canonical

theorem Sound.completing_of_next (h : Sound t disk) (hne : t.prior ≠ t.next)
    (hnext : disk.canonical = some t.next) : Completing t disk := by
  have hnot : disk.canonical ≠ some t.prior := by
    rw [hnext]
    simpa using hne.symm
  rcases h with h | h | h
  · exact absurd h.canonical hnot
  · exact absurd h.canonical hnot
  · exact h

theorem Sound.settled (h : Sound t disk) (hmark : disk.marker = none) :
    (disk.canonical = some t.next ∧ disk.backup = some t.prior) ∨
      (disk.canonical = some t.prior ∧ disk.backup = t.backup) := by
  rcases h with h | h | h
  · exact .inr ⟨h.canonical, h.backup⟩
  · have := h.marker
    rw [hmark] at this
    cases this
  · exact .inl ⟨h.canonical, h.backup⟩

/-- Whatever step of a managed commit or rollback fails and wherever it is cut short, the canonical
file holds the prior or the next document; the next one, before completion, under a marker and with
the prior one as backup; and without a marker the operation has had its effect or none. -/
theorem activation_is_crash_consistent [DecidableEq Digest] (format : ConfigFormat Doc Digest)
    (operation : ManagedOperation Doc) (activeGeneration : ℕ) (handoff : Handoff)
    (disk : Disk Doc Digest) (prior next : Doc) (hprior : disk.canonical = some prior)
    (hnext : operation.next disk = some next) (hne : prior ≠ next) (outcomes : List Outcome) :
    let left := (manage format operation activeGeneration handoff).crashed outcomes disk
    (left.canonical = some prior ∨ left.canonical = some next) ∧
      (left.canonical = some next → left.completion = false → left.marker.isSome = true ∧ left.backup = some prior) ∧
      (left.marker = none →
        (left.canonical = some next ∧ left.backup = some prior) ∨
          (left.canonical = some prior ∧ left.backup = disk.backup)) := by
  intro left
  have hsd : Sound (transactionOf format operation activeGeneration prior next disk) left :=
    (manage_safe hprior hnext).crashed outcomes
  refine ⟨hsd.canonical, fun hleft hcompl => ?_, hsd.settled⟩
  have hcom := hsd.completing_of_next hne hleft
  exact ⟨hcom.marker hcompl, hcom.backup⟩

/-- A format for documents that are numbers: every document compiles and even ones are generated. -/
def numberFormat : ConfigFormat ℕ ℕ := ⟨id, fun bytes => bytes % 2 == 0, fun _ _ => true⟩

/-- Document 1 is active, with document 0 as its backup. -/
def settledDisk : Disk ℕ ℕ := ⟨some 1, some 0, none, none, none, false, false⟩

/-- A commit of document 2 that loses power between the promotion and its sync. -/
theorem promoted_document_is_guarded :
    ((manage numberFormat (.commit 2) 7 .activated).crashed (List.replicate 11 .done) settledDisk).canonical = some 2 ∧
      ((manage numberFormat (.commit 2) 7 .activated).crashed
        (List.replicate 11 .done) settledDisk).marker.isSome = true := by
  have hleft : ((manage numberFormat (.commit 2) 7 .activated).crashed
      (List.replicate 11 .done) settledDisk).canonical = some 2 := by decide +kernel
  refine ⟨hleft, ?_⟩
  exact ((activation_is_crash_consistent numberFormat (.commit 2) 7 .activated settledDisk 1 2 rfl rfl
    (by decide) (List.replicate 11 .done)).2.1 hleft (by decide +kernel)).1

end Pooler.Activation
