import Pooler.Sanity.Loader
import Pooler.Spec.Config.Watch

/-! Hot reload. A watcher that finds no difference has the configuration of the files as they are,
unless an edit has fallen between a load and the stamps that were taken for it. -/

namespace Pooler

open Lib List Assoc Reading ConfigLoader ConfigWatcher

variable {Path File Value Preset Config Error Stamp : Type} [LinearOrder Path]
  {settings : WatchSettings Path File Value Preset Config Error Stamp} {files files' : Path → Option File}
  {w : ConfigWatcher Path Config Stamp}

namespace ConfigWatcher

omit [LinearOrder Path] in
theorem stampEach_value (paths : List Path) :
    (stampEach settings paths).value files = paths.map fun path => (path, settings.fileStamp (files path)) := by
  induction paths with
  | nil => rfl
  | cons path paths ih => simp [stampEach, ih]

variable {path : Path} {paths : List Path}

theorem get_ofList_map {f : Path → Stamp} (h : path ∈ paths) :
    (Assoc.ofList (paths.map fun path => (path, f path))).get path = some (f path) := by
  induction paths using List.reverseRecOn with
  | nil => cases h
  | append_singleton paths last ih =>
    rw [map_append, map_singleton, ofList_append_singleton, get_insert]
    split_ifs with hlast
    · rw [hlast]
    · rcases mem_append.1 h with h | h
      · exact ih h
      · exact absurd (mem_singleton.1 h).symm hlast

theorem fileStamps_get (h : path ∈ paths) :
    ((fileStamps settings paths).value files).get path = some (settings.fileStamp (files path)) := by
  rw [fileStamps, value_bind, value_done, stampEach_value]
  exact get_ofList_map h

theorem eq_of_fileStamps_get {stamp}
    (h : ((fileStamps settings paths).value files).get path = some stamp) : stamp = settings.fileStamp (files path) := by
  rw [fileStamps, value_bind, value_done, stampEach_value] at h
  obtain ⟨p, -, heq⟩ := mem_map.1 (mem_of_mem_ofList (mem_of_get h))
  cases heq
  rfl

/-- The stamps are those of a state of the files that the active configuration was loaded from, or
that no configuration can be loaded from. -/
structure Explains (settings : WatchSettings Path File Value Preset Config Error Stamp)
    (w : ConfigWatcher Path Config Stamp) (files : Path → Option File) : Prop where
  stamps : ∀ path ∈ (settings.loader.loadTracked w.active.root).keys files,
    w.observed.get path = some (settings.fileStamp (files path))
  active : ∀ loaded, (settings.loader.loadTracked w.active.root).value files = .ok loaded → w.active = loaded

theorem Explains.active_eq (h : w.Explains settings files)
    (hs : (fileStamps settings w.watchedPaths).value files' = w.observed) {loaded}
    (hload : (settings.loader.loadTracked w.active.root).value files' = .ok loaded) : w.active = loaded := by
  have hagr : ∀ path ∈ (settings.loader.loadTracked w.active.root).keys files, files' path = files path := by
    intro path hpath
    have hg := h.stamps path hpath
    rw [← hs] at hg
    exact settings.fileStamp_injective (eq_of_fileStamps_get hg).symm
  rw [value_congr _ hagr] at hload
  exact h.active loaded hload

theorem refreshUnresolvedPaths_value (w : ConfigWatcher Path Config Stamp) :
    (refreshUnresolvedPaths settings w).value files = { w with
      unresolved := sortDedup (((settings.loader.collectImportPaths settings.collectDepth []
        w.active.root).value files).filter (· ∉ w.active.dependencies)) } := by
  rw [refreshUnresolvedPaths, value_bind, value_done]

theorem restamp_value (w : ConfigWatcher Path Config Stamp) :
    (restamp settings w).value files = { w with observed := (fileStamps settings w.watchedPaths).value files } := by
  rw [restamp, value_bind, value_done]

theorem mem_refreshed (hroot : w.active.root ∈ w.active.dependencies)
    (h : path ∈ (settings.loader.loadTracked w.active.root).keys files) :
    path ∈ ((refreshUnresolvedPaths settings w).value files).watchedPaths := by
  rw [watchedPaths, mem_sortDedup, mem_append, refreshUnresolvedPaths_value]
  have hrd : path = w.active.root ∨
      path ∈ (settings.loader.collectImportPaths settings.collectDepth [] w.active.root).value files := by
    rcases mem_keys_andThen.1 h with h | ⟨_, _, h⟩
    · exact mem_collectImportPaths settings.collectDepth_lt h
    · cases h
  by_cases hactv : path ∈ w.active.dependencies
  · exact .inl hactv
  · rcases hrd with rfl | hrd
    · exact absurd hroot hactv
    · refine .inr (mem_sortDedup.2 (mem_filter.2 ⟨hrd, ?_⟩))
      simpa using hactv

theorem explains_refreshed (hroot : w.active.root ∈ w.active.dependencies)
    {e} (hload : (settings.loader.loadTracked w.active.root).value files = .error e) :
    ((restamp settings ((refreshUnresolvedPaths settings w).value files)).value files).Explains settings files := by
  rw [restamp_value]
  have hs : ((refreshUnresolvedPaths settings w).value files).active = w.active := by
    rw [refreshUnresolvedPaths_value]
  refine ⟨fun path hpath => ?_, fun loaded hloaded => ?_⟩
  · dsimp only at hpath
    rw [hs] at hpath
    exact fileStamps_get (mem_refreshed hroot hpath)
  · dsimp only at hloaded
    rw [hs, hload] at hloaded
    cases hloaded

theorem explains_loaded {root} (hload : (settings.loader.loadTracked root).value files = .ok w.active)
    (hstamps : ∀ path ∈ w.active.dependencies, w.observed.get path = some (settings.fileStamp (files path))) :
    w.Explains settings files := by
  obtain ⟨hroot, -, hrd⟩ := loadTracked_eq_ok hload
  refine ⟨fun path hpath => ?_, fun loaded hloaded => ?_⟩
  · rw [hroot] at hpath
    exact hstamps path (hrd path hpath)
  · rw [hroot, hload] at hloaded
    cases hloaded
    rfl

theorem accept_value (candidate : LoadedConfig Path Config) (w : ConfigWatcher Path Config Stamp) :
    (accept settings candidate w).value files =
      { active := candidate
        observed := (fileStamps settings (sortDedup (candidate.dependencies ++ []))).value files } := by
  simp only [accept, restamp, value_bind, value_done]
  rfl

theorem forceCandidate_value (w : ConfigWatcher Path Config Stamp) :
    (forceCandidate settings w).value files =
      match (settings.loader.loadTracked w.active.root).value files with
      | .error e => (.error e, (restamp settings ((refreshUnresolvedPaths settings w).value files)).value files)
      | .ok loaded => (.ok loaded, (restamp settings (w.withCandidate loaded)).value files) := by
  rw [forceCandidate, value_bind]
  cases (settings.loader.loadTracked w.active.root).value files with
  | error | ok => simp

theorem attempt_value (w : ConfigWatcher Path Config Stamp) :
    (attempt settings w).value files =
      match (settings.loader.loadTracked w.active.root).value files with
      | .error e =>
        let w := (restamp settings ((refreshUnresolvedPaths settings { w with attempted := some w.observed }).value
          files)).value files
        (.error e, { w with attempted := some w.observed })
      | .ok candidate =>
        let w := (restamp settings ({ w with attempted := some w.observed }.withCandidate candidate)).value files
        (.ok (some candidate), { w with pendingSince := none }) := by
  rw [attempt, value_bind]
  dsimp only
  cases (settings.loader.loadTracked w.active.root).value files with
  | error | ok => simp

variable [DecidableEq Stamp]

/-- With the stamps taken, a poll sees a difference and waits, has nothing to do, or makes an attempt
for a difference it has seen before. -/
theorem pollSeen_cases (settings : WatchSettings Path File Value Preset Config Error Stamp) (now : ℕ)
    (w : ConfigWatcher Path Config Stamp) (cur : Assoc Path Stamp) :
    pollSeen settings now w cur =
        .done (.ok none, { w with observed := cur, pendingSince := some now, attempted := none }) ∨
      pollSeen settings now w cur = .done (.ok none, w) ∨
      w.pendingSince.isSome ∧ pollSeen settings now w cur = attempt settings w := by
  unfold pollSeen
  split
  · exact .inl rfl
  · split
    · exact .inr (.inl rfl)
    next hpend =>
      split
      · exact .inr (.inl rfl)
      · split
        · exact .inr (.inl rfl)
        · exact .inr (.inr ⟨by rw [hpend]; rfl, rfl⟩)

theorem poll_eq_of_not_pending (now : ℕ) (h : w.pendingSince = none) :
    poll settings now w = (fileStamps settings w.watchedPaths).bind fun cur => .done (if cur ≠ w.observed then
      (.ok none, { w with observed := cur, pendingSince := some now, attempted := none }) else (.ok none, w)) := by
  rw [poll]
  congr 1
  funext cur
  rw [pollSeen, h]
  split
  · rfl
  · rfl

end ConfigWatcher

namespace WatchedFiles

/-- A candidate is accepted before the next call of the watcher. -/
def Disciplined (s : WatchedFiles Path File Config Stamp) : Event Path File → Prop
  | .poll _ _ | .forceCandidate _ => s.produced = none
  | _ => True

variable {schedule : Schedule Path File}

omit [LinearOrder Path] in
theorem disciplined_poll {s : WatchedFiles Path File Config Stamp} {now : ℕ} :
    s.Disciplined (.poll now schedule) ↔ s.produced = none := Iff.rfl

/-- No edit falls between a load and the last of the stamps that are taken for it: neither inside a
call that may load or that accepts, nor while a candidate waits to be accepted. -/
def Calm (s : WatchedFiles Path File Config Stamp) : Event Path File → Prop
  | .edit _ _ => s.produced = none
  | .poll _ schedule => s.watcher.pendingSince.isSome → Reading.Quiet schedule
  | .forceCandidate schedule => Reading.Quiet schedule
  | .accept schedule => Reading.Quiet schedule

/-- With nothing pending the stamps explain the active configuration; a candidate is what the files
give. -/
structure Settled (settings : WatchSettings Path File Value Preset Config Error Stamp) (root : Path)
    (s : WatchedFiles Path File Config Stamp) : Prop where
  root_eq : s.watcher.active.root = root
  root_mem : root ∈ s.watcher.active.dependencies
  waiting : s.produced = none → s.watcher.pendingSince = none → ∃ files, s.watcher.Explains settings files
  candidate : ∀ candidate, s.produced = some candidate →
    (settings.loader.loadTracked root).value s.files = .ok candidate

variable {root : Path} {s : WatchedFiles Path File Config Stamp}

theorem Settled.edit (h : s.Settled settings root) (hn : s.produced = none) (files : Path → Option File) :
    Settled settings root { s with files } :=
  ⟨h.root_eq, h.root_mem, h.waiting, fun candidate hc => by rw [hn] at hc; cases hc⟩

/-- The watcher has the same active configuration and something pending, or is the same. -/
theorem Settled.watched (h : s.Settled settings root) (hn : s.produced = none) {files}
    (hw : w = s.watcher ∨ w.active = s.watcher.active ∧ w.pendingSince.isSome) :
    Settled settings root ⟨files, w, s.produced⟩ := by
  have hcand : ∀ candidate, s.produced = some candidate →
      (settings.loader.loadTracked root).value files = .ok candidate := fun candidate hc => by
    rw [hn] at hc; cases hc
  rcases hw with rfl | ⟨hactv, hpend⟩
  · exact ⟨h.root_eq, h.root_mem, h.waiting, hcand⟩
  · refine ⟨by rw [hactv, h.root_eq], by rw [hactv]; exact h.root_mem, fun _ hw => ?_, hcand⟩
    dsimp only at hw
    rw [hw] at hpend
    cases hpend

theorem Settled.produced (h : s.Settled settings root) (hactv : w.active = s.watcher.active) {candidate}
    (hload : (settings.loader.loadTracked s.watcher.active.root).value s.files = .ok candidate) :
    Settled settings root ⟨s.files, w, some candidate⟩ :=
  ⟨by rw [hactv, h.root_eq], by rw [hactv]; exact h.root_mem, nofun, fun c hc => by
    cases hc; exact h.root_eq ▸ hload⟩

variable [DecidableEq Stamp]

section

variable (h : s.Settled settings root)
include h

theorem Settled.forceCandidate (hn : s.produced = none) (hqui : Reading.Quiet schedule) :
    (s.step settings (.forceCandidate schedule)).Settled settings root := by
  simp only [step, play_quiet _ hqui, forceCandidate_value]
  cases hload : (settings.loader.loadTracked s.watcher.active.root).value s.files with
  | error =>
    have hexp := explains_refreshed (h.root_eq ▸ h.root_mem) hload
    refine ⟨?_, ?_, fun _ _ => ⟨s.files, hexp⟩, fun candidate hc => ?_⟩
    · simp only [restamp_value, refreshUnresolvedPaths_value]
      exact h.root_eq
    · simp only [restamp_value, refreshUnresolvedPaths_value]
      exact h.root_mem
    · dsimp only at hc
      rw [hn] at hc
      cases hc
  | ok =>
    refine h.produced ?_ hload
    dsimp only
    rw [restamp_value]
    rfl

theorem Settled.accept (hqui : Reading.Quiet schedule) :
    (s.step settings (.accept schedule)).Settled settings root := by
  cases hprod : s.produced with
  | none =>
    have hs : s.step settings (.accept schedule) = s := by simp [step, hprod]
    rw [hs]
    exact h
  | some candidate =>
    have hload := h.candidate candidate hprod
    obtain ⟨hroot, hm, -⟩ := loadTracked_eq_ok hload
    simp only [step, hprod, play_quiet _ hqui, accept_value]
    refine ⟨hroot, hm, fun _ _ => ⟨s.files, explains_loaded hload fun path hpath => ?_⟩, nofun⟩
    exact fileStamps_get (mem_sortDedup.2 (mem_append_left _ hpath))

theorem Settled.poll (hn : s.produced = none) (now : ℕ)
    (hqui : s.watcher.pendingSince.isSome → Reading.Quiet schedule) :
    (s.step settings (.poll now schedule)).Settled settings root := by
  cases hpend : s.watcher.pendingSince with
  | none =>
    simp only [step, poll_eq_of_not_pending now hpend, play_map]
    split
    next heq => split_ifs at heq <;> cases heq
    · split_ifs
      · exact h.watched hn (.inr ⟨rfl, rfl⟩)
      · exact h.watched hn (.inl rfl)
  | some =>
    simp only [step, play_quiet _ (hqui (by rw [hpend]; rfl)), ConfigWatcher.poll, value_bind]
    rcases pollSeen_cases settings now s.watcher
      ((ConfigWatcher.fileStamps settings s.watcher.watchedPaths).value s.files) with hseen | hseen | ⟨-, hseen⟩
    · rw [hseen]
      exact h.watched hn (.inr ⟨rfl, rfl⟩)
    · rw [hseen]
      exact h.watched hn (.inl rfl)
    · rw [hseen, attempt_value]
      cases hload : (settings.loader.loadTracked s.watcher.active.root).value s.files with
      | error =>
        refine h.watched hn (.inr ⟨?_, ?_⟩)
        · simp [restamp_value, refreshUnresolvedPaths_value]
        · simp [restamp_value, refreshUnresolvedPaths_value, hpend]
      | ok =>
        refine h.produced ?_ hload
        simp only [restamp_value]
        rfl

theorem Settled.step {event} (hd : s.Disciplined event) (hc : s.Calm event) :
    (s.step settings event).Settled settings root := by
  cases event with
  | edit => exact h.edit hc _
  | poll now => exact h.poll hd now hc
  | forceCandidate => exact h.forceCandidate hd hc
  | accept => exact h.accept hc

end

omit [DecidableEq Stamp] in
theorem settled_start {files} (hqui : Reading.Quiet schedule)
    (h : start settings root files schedule = some s) : s.Settled settings root := by
  rw [start, play_quiet _ hqui] at h
  split at h
  next heq =>
    cases h
    obtain ⟨hval, rfl⟩ := Prod.mk.inj heq
    obtain ⟨active, hload, hstam⟩ := value_andThen.1 hval
    rw [value_bind, value_done] at hstam
    cases hstam
    obtain ⟨hroot, hm, -⟩ := loadTracked_eq_ok hload
    refine ⟨hroot, hm, fun _ _ => ⟨files, explains_loaded hload fun path hpath => ?_⟩, nofun⟩
    exact fileStamps_get hpath
  · cases h

/-- In every run in which no edit falls between a load and the last of the stamps taken for it, a
poll that finds no difference with nothing pending finds the configuration of the files as they are
to be active, if they load at all. -/
theorem hot_reload_misses_no_edit (settings : WatchSettings Path File Value Preset Config Error Stamp) (root : Path)
    (files : Path → Option File) (schedule : Schedule Path File) (first : WatchedFiles Path File Config Stamp)
    (events : List (Event Path File)) (hquiet : Reading.Quiet schedule)
    (hfirst : start settings root files schedule = some first)
    (hevents : StepsMeet (step settings) (fun s event => s.Disciplined event ∧ s.Calm event) first events)
    (hproduced : (run (step settings) first events).produced = none) :
    let s := run (step settings) first events
    (ConfigWatcher.fileStamps settings s.watcher.watchedPaths).value s.files = s.watcher.observed →
      s.watcher.pendingSince = none →
      ∀ loaded, (settings.loader.loadTracked root).value s.files = .ok loaded → s.watcher.active = loaded := by
  intro s hs hpend loaded hload
  have hset : s.Settled settings root :=
    @run_of_stepsMeet _ _ _ _ (Settled settings root) (fun s event hok h => h.step hok.1 hok.2) events first hevents
      (settled_start hquiet hfirst)
  obtain ⟨before, hexp⟩ := hset.waiting hproduced hpend
  exact hexp.active_eq hs (by rw [hset.root_eq]; exact hload)

section Samples

/-- One file that holds a number, without imports. -/
def numberLoader : ConfigLoader ℕ ℕ ℕ Empty ℕ Unit where
  maxImportDepth := 16
  readDocument _ _ file := match file with
    | some value => .ok (value, [])
    | none => .error ()
  expandPreset preset := preset.elim
  mergeDocument _ incoming _ _ := .ok incoming
  emptyDocument := 0
  parseResolved _ value := .ok value
  join path _ := path
  depthExceeded _ := ()
  importCycle _ _ := ()
  nestedOverlay _ := ()
  importNames _ := []
  importNames_complete _ _ file _ _ h := by
    cases file with
    | none => cases h
    | some => cases h; simp

def numberSettings : WatchSettings ℕ ℕ ℕ Empty ℕ Unit (Option ℕ) where
  loader := numberLoader
  fileStamp := id
  debounce := 0
  collectDepth := 17
  fileStamp_injective := Function.injective_id
  collectDepth_lt := by decide

def numberFiles (value : ℕ) : ℕ → Option ℕ := fun _ => some value

def watchingOne : WatchedFiles ℕ ℕ ℕ (Option ℕ) :=
  ⟨numberFiles 1, { active := ⟨1, 0, [0]⟩, observed := [(0, some 1)] }, none⟩

/-- An edit, the poll that sees it, the poll that loads it, and its acceptance. -/
def editSeen : List (Event ℕ ℕ) := [.edit 0 (some 2), .poll 0 [], .poll 1 [], .accept []]

theorem nothing_produced :
    (step numberSettings watchingOne (.edit 0 (some 2))).produced = none ∧
      (step numberSettings (step numberSettings watchingOne (.edit 0 (some 2))) (.poll 0 [])).produced = none ∧
      (run (step numberSettings) watchingOne editSeen).produced = none := by
  decide +kernel

theorem seen_edit_is_active :
    start numberSettings 0 (numberFiles 1) [] = some watchingOne ∧
      (run (step numberSettings) watchingOne editSeen).watcher.active = ⟨2, 0, [0]⟩ := by
  have hst : start numberSettings 0 (numberFiles 1) [] = some watchingOne := rfl
  have hqui : Reading.Quiet ([] : Schedule ℕ ℕ) := nofun
  obtain ⟨hedit, hpol, hacc⟩ := nothing_produced
  refine ⟨hst, hot_reload_misses_no_edit numberSettings 0 (numberFiles 1) [] watchingOne editSeen hqui hst
    ⟨⟨trivial, rfl⟩, ⟨disciplined_poll.2 hedit, fun _ => hqui⟩, ⟨disciplined_poll.2 hpol, fun _ => hqui⟩,
      ⟨trivial, hqui⟩, trivial⟩ hacc ?_ ?_
    ⟨2, 0, [0]⟩ ?_⟩
  · decide +kernel
  · decide +kernel
  · decide +kernel

/-- An edit between the load of a candidate and its acceptance. -/
def editMissed : List (Event ℕ ℕ) := [.edit 0 (some 2), .poll 0 [], .poll 1 [], .edit 0 (some 3), .accept []]

/-- It is not seen again: the next poll finds no difference, nothing is pending and the files load,
but the active configuration is the old one. -/
theorem edit_before_accept_is_missed :
    let s := run (step numberSettings) watchingOne editMissed
    StepsMeet (step numberSettings) Disciplined watchingOne editMissed ∧
      (ConfigWatcher.fileStamps numberSettings s.watcher.watchedPaths).value s.files = s.watcher.observed ∧
      s.watcher.pendingSince = none ∧
      (numberLoader.loadTracked 0).value s.files = .ok ⟨3, 0, [0]⟩ ∧ s.watcher.active = ⟨2, 0, [0]⟩ := by
  obtain ⟨hedit, hpol, -⟩ := nothing_produced
  refine ⟨⟨trivial, disciplined_poll.2 hedit, disciplined_poll.2 hpol, trivial, trivial, trivial⟩, ?_, ?_, ?_, ?_⟩
  · decide +kernel
  · decide +kernel
  · decide +kernel
  · decide +kernel

end Samples

end WatchedFiles

end Pooler
