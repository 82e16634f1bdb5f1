import Pooler.Lib.Trace
import Pooler.Spec.Server.Admission

/-! When no admission check falls between the two lock sections of a `commit_owned`, there is one
turn: a commit, a returned or pending activation, or an external reload holds it, or nobody does. -/

namespace Pooler.Admission

open Lib OrderedMap Nat

/-- The states of a server whose admissions are serial, by who holds the turn. -/
inductive Orderly : Admission → Prop where
  | idle (blocked marker : Bool) (h : blocked = true → marker = true) :
    Orderly ⟨blocked, .empty, false, marker, .empty, 0⟩
  | committing (call : ℕ) (stage : CommitStage) (marker : Bool)
    (h : stage = .failed .recoveryRequired → marker = true) :
    Orderly ⟨false, .empty, false, marker, .single call stage, 0⟩
  | returned (marker : Bool) : Orderly ⟨true, .empty, false, marker, .empty, 1⟩
  | pending (request : ℕ) (activation : PendingActivation) (marker : Bool) :
    Orderly ⟨false, .single request activation, false, marker, .empty, 0⟩
  | reloading (marker : Bool) : Orderly ⟨false, .empty, true, marker, .empty, 0⟩

/-- A preparation that asks for recovery leaves the marker that recovery needs. -/
def PrepareOutcome.honest : PrepareOutcome → Bool
  | .failed .recoveryRequired markerLeft => markerLeft
  | _ => true

/-- No check for admission falls between the lock sections of a commit. -/
def Serial (s : Admission) : Event → Prop
  | .commitCheck _ => s.commits.size = 0
  | .tryBeginUnmanagedReload => s.commits.size = 0
  | .rollback outcome => s.commits.size = 0 ∧ ∀ o ∈ outcome, PrepareOutcome.honest o = true
  | .prepare _ outcome => PrepareOutcome.honest outcome = true
  | _ => True

variable {s : Admission}

section

variable (h : Orderly s)
include h

/-- Who is admitted between the commits finds nobody at work. -/
theorem Orderly.of_free (hser : s.commits.size = 0) (hfree : ¬s.busy = true) :
    ∃ marker, s = ⟨false, .empty, false, marker, .empty, 0⟩ := by
  cases h with
  | idle blocked marker =>
    cases blocked with
    | false => exact ⟨marker, rfl⟩
    | true => exact absurd rfl hfree
  | committing => cases hser
  | _ => exact absurd rfl hfree

variable (call : ℕ)

theorem commitCheck_orderly (hser : s.commits.size = 0) : Orderly (s.commitCheck call) := by
  unfold commitCheck
  split
  · exact h
  next hfree =>
    obtain ⟨marker, rfl⟩ := h.of_free hser fun hbusy => hfree (by rw [hbusy]; rfl)
    exact .committing call .admitted marker nofun

theorem Orderly.of_commit {call : ℕ} {stage} (hg : s.commits.get call = some stage) :
    ∃ marker, s = ⟨false, .empty, false, marker, .single call stage, 0⟩ ∧
      (stage = .failed .recoveryRequired → marker = true) := by
  cases h with
  | committing call' stage' marker h =>
    rw [get_single] at hg
    split_ifs at hg with hcall
    cases hg
    subst hcall
    exact ⟨marker, rfl, h⟩
  | _ => cases hg

theorem Orderly.of_pending {request : ℕ} {activation} (hg : s.pending.get request = some activation) :
    ∃ marker, s = ⟨false, .single request activation, false, marker, .empty, 0⟩ := by
  cases h with
  | pending request' activation' marker =>
    rw [get_single] at hg
    split_ifs at hg with hreq
    cases hg
    subst hreq
    exact ⟨marker, rfl⟩
  | _ => cases hg

theorem commitLeave_orderly : Orderly (s.commitLeave call) := by
  unfold commitLeave
  split
  next hg =>
    obtain ⟨marker, rfl, -⟩ := h.of_commit hg
    rw [erase_single]
    exact .idle false marker nofun
  · exact h

theorem createMarker_orderly (fault : Option Bool) : Orderly (s.createMarker call fault) := by
  unfold createMarker
  split
  next hg =>
    obtain ⟨marker, rfl, -⟩ := h.of_commit hg
    simp only [insert_single]
    cases fault with
    | some => exact .committing call _ _ nofun
    | none =>
      cases marker with
      | true => exact .committing call _ _ fun _ => rfl
      | false => exact .committing call _ _ nofun
  · exact h

theorem prepare_orderly (outcome : PrepareOutcome)
    (hhon : PrepareOutcome.honest outcome = true) : Orderly (s.prepare call outcome) := by
  unfold prepare
  split
  next hg =>
    obtain ⟨marker, rfl, -⟩ := h.of_commit hg
    simp only [insert_single]
    cases outcome with
    | prepared => exact .committing call _ _ nofun
    | failed =>
      refine .committing call _ _ fun hfail => ?_
      cases hfail
      exact hhon
  · exact h

theorem commitRecord_orderly : Orderly (s.commitRecord call) := by
  unfold commitRecord
  split
  next hg =>
    obtain ⟨marker, rfl, -⟩ := h.of_commit hg
    rw [erase_single]
    exact .returned marker
  next hg =>
    obtain ⟨marker, rfl, hmark⟩ := h.of_commit hg
    rw [erase_single]
    refine .idle _ marker fun hbloc => hmark ?_
    rw [of_decide_eq_true hbloc]
  · exact h

theorem commitUndo_orderly (cleared : Bool) : Orderly (s.commitUndo call cleared) := by
  unfold commitUndo
  split
  next hg =>
    obtain ⟨marker, rfl, -⟩ := h.of_commit hg
    rw [erase_single]
    exact .idle false _ nofun
  · exact h

theorem rollback_orderly (outcome : Option PrepareOutcome)
    (hser : s.commits.size = 0) (hhon : ∀ o ∈ outcome, PrepareOutcome.honest o = true) :
    Orderly (s.rollback outcome) := by
  unfold rollback
  split
  · exact h
  next hfree =>
    obtain ⟨marker, rfl⟩ := h.of_free hser fun hbusy => hfree (by rw [hbusy]; rfl)
    match outcome with
    | none => exact .idle false marker nofun
    | some .prepared => exact .returned true
    | some (.failed error left) =>
      refine .idle _ left fun hbloc => ?_
      have hleft := hhon _ rfl
      rw [of_decide_eq_true hbloc] at hleft
      exact hleft

variable (request : ℕ)

theorem registerCommit_orderly : Orderly (s.registerCommit request) := by
  unfold registerCommit
  split
  · exact h
  next hhand =>
    cases h with
    | returned marker => exact .pending request ⟨true, false⟩ marker
    | _ => exact absurd rfl hhand

theorem promoteCommit_orderly (fail : Option (Bool × Bool)) : Orderly (s.promoteCommit request fail) := by
  unfold promoteCommit
  split
  next hg =>
    obtain ⟨marker, rfl⟩ := h.of_pending hg
    simp only [insert_single]
    split <;> exact .pending request _ _
  · exact h

theorem completeCommit_orderly (succeeded failed cleared : Bool) :
    Orderly (s.completeCommit request succeeded failed cleared) := by
  unfold completeCommit
  split
  · exact h
  next activation hg =>
    obtain ⟨marker, rfl⟩ := h.of_pending hg
    simp only [erase_single]
    split
    · exact .pending request activation marker
    split
    · exact .idle false marker nofun
    split
    · exact .pending request activation _
    · exact .idle false false nofun

theorem tryBeginUnmanagedReload_orderly (hser : s.commits.size = 0) :
    Orderly (if s.busy then s else { s with externalReloadInProgress := true }) := by
  split
  · exact h
  next hfree =>
    obtain ⟨marker, rfl⟩ := h.of_free hser hfree
    exact .reloading marker

theorem finishUnmanagedReload_orderly :
    Orderly { s with externalReloadInProgress := false } := by
  cases h with
  | reloading marker => exact .idle false marker nofun
  | idle blocked marker h => exact .idle blocked marker h
  | committing call stage marker h => exact .committing call stage marker h
  | returned marker => exact .returned marker
  | pending request activation marker => exact .pending request activation marker

end

theorem step_orderly (s : Admission) (event : Event) (hser : Serial s event) (h : Orderly s) :
    Orderly (s.step event) := by
  cases event with
  | commitCheck call => exact commitCheck_orderly h call hser
  | commitLeave call => exact commitLeave_orderly h call
  | createMarker call fault => exact createMarker_orderly h call fault
  | prepare call outcome => exact prepare_orderly h call outcome hser
  | commitRecord call => exact commitRecord_orderly h call
  | commitUndo call cleared => exact commitUndo_orderly h call cleared
  | rollback outcome => exact rollback_orderly h outcome hser.1 hser.2
  | registerCommit request => exact registerCommit_orderly h request
  | promoteCommit request fail => exact promoteCommit_orderly h request fail
  | completeCommit request succeeded failed cleared => exact completeCommit_orderly h request succeeded failed cleared
  | tryBeginUnmanagedReload => exact tryBeginUnmanagedReload_orderly h hser
  | finishUnmanagedReload => exact finishUnmanagedReload_orderly h

/-- What the admission protocol is for. -/
structure Excluded (s : Admission) : Prop where
  reload : s.externalReloadInProgress = true → s.activations = 0
  single : s.activations ≤ 1
  admits : s.activations = 0 → s.externalReloadInProgress = false → s.marker = false → s.busy = false

theorem Orderly.excluded (h : Orderly s) : Excluded s := by
  cases h with
  | idle blocked marker h =>
    refine ⟨nofun, zero_le 1, fun _ _ hmark => ?_⟩
    cases blocked with
    | false => rfl
    | true => exact absurd ((h rfl).symm.trans hmark) (by decide)
  | committing =>
    refine ⟨nofun, ?_, fun _ _ _ => rfl⟩
    simp only [activations, values_single, size_empty, add_zero]
    exact List.countP_le_length
  | returned | pending => exact ⟨nofun, le_refl 1, nofun⟩
  | reloading => exact ⟨fun _ => rfl, zero_le 1, nofun⟩

/-- In every interleaving in which no admission check falls between the two lock sections of a
commit, and no failed preparation asks for recovery without leaving its marker, activations and
external reloads exclude each other, and a server with nothing under way admits the next commit. -/
theorem activation_and_reload_exclude (events : List Event)
    (h : StepsMeet step Serial start events) : Excluded (run step start events) :=
  (@run_of_stepsMeet _ _ _ Serial Orderly step_orderly events start h (.idle false false nofun)).excluded

/-- A commit through registration, promotion and completion. -/
def wholeCommit : List Event :=
  [.commitCheck 1, .createMarker 1 none, .prepare 1 .prepared, .commitRecord 1, .registerCommit 5,
    .tryBeginUnmanagedReload, .promoteCommit 5 none, .completeCommit 5 true false false]

theorem next_commit_is_admitted : (run step start wholeCommit).busy = false :=
  (activation_and_reload_exclude wholeCommit
    ⟨rfl, trivial, rfl, trivial, trivial, rfl, trivial, trivial, trivial⟩).admits
      (by decide +kernel) (by decide +kernel) (by decide +kernel)

/-- An external reload that starts after the check of a commit and before its second lock section
runs beside the prepared activation. A preparation that fails with `RecoveryRequired` and cleans up
after itself blocks every later commit although no marker is left. -/
theorem reload_beside_prepared_activation :
    ¬ Excluded (run step start [.commitCheck 1, .createMarker 1 none, .prepare 1 .prepared, .tryBeginUnmanagedReload]) ∧
    ¬ Excluded (run step start [.commitCheck 1, .createMarker 1 none,
      .prepare 1 (.failed .recoveryRequired false), .commitRecord 1]) := by
  refine ⟨fun h => ?_, fun h => ?_⟩
  · exact absurd (h.reload (by decide +kernel)) (by decide +kernel)
  · exact absurd (h.admits (by decide +kernel) (by decide +kernel) (by decide +kernel)) (by decide +kernel)

end Pooler.Admission
