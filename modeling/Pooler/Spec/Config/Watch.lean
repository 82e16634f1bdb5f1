import Pooler.Lib.Assoc
import Pooler.Lib.Trace
import Pooler.Spec.Config.Loader

/-! The configuration watcher. It compares stamps of the files it watches with those it took last,
waits for a quiet period and loads; what it has loaded becomes active when the caller accepts it. -/

namespace Pooler

open Lib

/-- The fields that change. `pendingSince` is the time of the last difference that has not been
loaded, `attempted` the stamps of the last attempt. -/
structure ConfigWatcher (Path Config Stamp : Type) where
  active : LoadedConfig Path Config
  observed : Assoc Path Stamp
  unresolved : List Path := []
  pendingSince : Option ℕ := none
  attempted : Option (Assoc Path Stamp) := none

/-- What a watcher is built with. A stamp tells the contents of files apart; the search for imports
that do not resolve goes as deep as a load at least. -/
structure WatchSettings (Path File Value Preset Config Error Stamp : Type) where
  loader : ConfigLoader Path File Value Preset Config Error
  fileStamp : Option File → Stamp
  (debounce collectDepth : ℕ)
  fileStamp_injective : Function.Injective fileStamp
  collectDepth_lt : loader.maxImportDepth < collectDepth

namespace ConfigWatcher

variable {Path File Value Preset Config Error Stamp : Type} [LinearOrder Path] [DecidableEq Stamp]
  (settings : WatchSettings Path File Value Preset Config Error Stamp)

def stampEach : List Path → Reading Path File (List (Path × Stamp))
  | [] => .done []
  | path :: paths => .read path fun file => (stampEach paths).bind fun stamps =>
    .done ((path, settings.fileStamp file) :: stamps)

def fileStamps (paths : List Path) : Reading Path File (Assoc Path Stamp) :=
  (stampEach settings paths).bind fun stamps => .done (Assoc.ofList stamps)

variable (w : ConfigWatcher Path Config Stamp)

def watchedPaths : List Path := sortDedup (w.active.dependencies ++ w.unresolved)

/-- Takes the stamps of the watched files anew. -/
def restamp : Reading Path File (ConfigWatcher Path Config Stamp) :=
  (fileStamps settings w.watchedPaths).bind fun observed => .done { w with observed }

def refreshUnresolvedPaths : Reading Path File (ConfigWatcher Path Config Stamp) :=
  (settings.loader.collectImportPaths settings.collectDepth [] w.active.root).bind fun paths =>
    .done { w with unresolved := sortDedup (paths.filter (· ∉ w.active.dependencies)) }

variable (candidate : LoadedConfig Path Config)

/-- The files that a candidate adds are watched until it is accepted. -/
def withCandidate :
    ConfigWatcher Path Config Stamp :=
  { w with unresolved := candidate.dependencies.filter (· ∉ w.active.dependencies) }

/-- The attempt that a poll makes after the quiet period. -/
def attempt :
    Reading Path File (Except Error (Option (LoadedConfig Path Config)) × ConfigWatcher Path Config Stamp) :=
  let w := { w with attempted := some w.observed }
  (settings.loader.loadTracked w.active.root).bind fun
    | .error e => (refreshUnresolvedPaths settings w).bind fun w => (restamp settings w).bind fun w =>
      .done (.error e, { w with attempted := some w.observed })
    | .ok candidate => (restamp settings (w.withCandidate candidate)).bind fun w =>
      .done (.ok (some candidate), { w with pendingSince := none })

/-- What a poll does with the stamps it has taken. -/
def pollSeen (now : ℕ) (w : ConfigWatcher Path Config Stamp) (current : Assoc Path Stamp) :
    Reading Path File (Except Error (Option (LoadedConfig Path Config)) × ConfigWatcher Path Config Stamp) :=
  if current ≠ w.observed then
    .done (.ok none, { w with observed := current, pendingSince := some now, attempted := none })
  else match w.pendingSince with
    | none => .done (.ok none, w)
    | some pendingSince =>
      if now - pendingSince < settings.debounce then .done (.ok none, w)
      else if w.attempted = some w.observed then .done (.ok none, w)
      else attempt settings w

def poll (now : ℕ) (w : ConfigWatcher Path Config Stamp) :
    Reading Path File (Except Error (Option (LoadedConfig Path Config)) × ConfigWatcher Path Config Stamp) :=
  (fileStamps settings w.watchedPaths).bind (pollSeen settings now w)

def forceCandidate :
    Reading Path File (Except Error (LoadedConfig Path Config) × ConfigWatcher Path Config Stamp) :=
  (settings.loader.loadTracked w.active.root).bind fun
    | .error e => (refreshUnresolvedPaths settings w).bind fun w => (restamp settings w).bind fun w =>
      .done (.error e, w)
    | .ok loaded => (restamp settings (w.withCandidate loaded)).bind fun w => .done (.ok loaded, w)

def accept (w : ConfigWatcher Path Config Stamp) :
    Reading Path File (ConfigWatcher Path Config Stamp) :=
  (restamp settings { w with active := candidate, unresolved := [] }).bind fun w =>
    .done { w with pendingSince := none, attempted := none }

/-- `with_loader_and_debounce`. -/
def withLoader (root : Path) : Reading Path File (Except Error (ConfigWatcher Path Config Stamp)) :=
  (settings.loader.loadTracked root).andThen fun active =>
    (fileStamps settings active.dependencies).bind fun observed => .done (.ok { active, observed })

end ConfigWatcher

/-- The files, the watcher over them and a candidate that waits to be accepted. -/
structure WatchedFiles (Path File Config Stamp : Type) where
  files : Path → Option File
  watcher : ConfigWatcher Path Config Stamp
  produced : Option (LoadedConfig Path Config) := none

namespace WatchedFiles

variable {Path File Value Preset Config Error Stamp : Type} [LinearOrder Path] [DecidableEq Stamp]

/-- The edits that fall before each read of a call. -/
abbrev Schedule (Path File : Type) := List (List (Path × Option File))

inductive Event (Path File : Type) where
  | edit (path : Path) (file : Option File)
  | poll (now : ℕ) (schedule : Schedule Path File)
  | forceCandidate (schedule : Schedule Path File)
  | accept (schedule : Schedule Path File)

variable (settings : WatchSettings Path File Value Preset Config Error Stamp)

def step (s : WatchedFiles Path File Config Stamp) : Event Path File → WatchedFiles Path File Config Stamp
  | .edit path file => { s with files := Function.update s.files path file }
  | .poll now schedule =>
    let ((result, watcher), files) := (s.watcher.poll settings now).play s.files schedule
    match result with
    | .ok (some candidate) => ⟨files, watcher, some candidate⟩
    | _ => ⟨files, watcher, s.produced⟩
  | .forceCandidate schedule =>
    let ((result, watcher), files) := (s.watcher.forceCandidate settings).play s.files schedule
    match result with
    | .ok candidate => ⟨files, watcher, some candidate⟩
    | .error _ => ⟨files, watcher, s.produced⟩
  | .accept schedule =>
    match s.produced with
    | none => s
    | some candidate =>
      let (watcher, files) := (s.watcher.accept settings candidate).play s.files schedule
      ⟨files, watcher, none⟩

/-- A watcher that has just been made, if its first load goes well. -/
def start (root : Path) (files : Path → Option File) (schedule : Schedule Path File) :
    Option (WatchedFiles Path File Config Stamp) :=
  match (ConfigWatcher.withLoader settings root).play files schedule with
  | (.ok watcher, files) => some { files, watcher }
  | (.error _, _) => none

end WatchedFiles

end Pooler
