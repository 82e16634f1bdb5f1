import Pooler.Lib.Framing
import Pooler.Lib.Reading

/-! Loading a configuration: the root file, the files it imports and theirs, and the overlays, read
one after the other and merged. What stands in a file and how documents are merged are parameters. -/

namespace Pooler

open Lib

instance lawfulBEq_path {Path : Type} [LinearOrder Path] : LawfulBEq Path := inferInstance

/-- One entry of `imports`; an entry names one source. -/
inductive ImportSpec (Preset : Type) where
  | file (relative : String)
  | overlay (relative : String)
  | preset (preset : Preset)
  deriving DecidableEq

structure ResolvedDocument (Path Value : Type) where
  value : Value
  dependencies : List Path

/-- A loaded configuration with the files it depends on, the root among them. -/
structure LoadedConfig (Path Config : Type) where
  config : Config
  root : Path
  dependencies : List Path
  deriving DecidableEq

/-- The loader with what it needs to know of files and documents. -/
structure ConfigLoader (Path File Value Preset Config Error : Type) where
  maxImportDepth : ℕ
  /-- The document of a file and its imports; an absent file has none. -/
  readDocument : Path → Bool → Option File → Except Error (Value × List (ImportSpec Preset))
  expandPreset : Preset → Path → Except Error Value
  mergeDocument : Value → Value → Path → Bool → Except Error Value
  emptyDocument : Value
  parseResolved : Path → Value → Except Error Config
  /-- The file that a relative name stands for in another one. -/
  join : Path → String → Path
  depthExceeded : Path → Error
  importCycle : Path → List Path → Error
  nestedOverlay : Path → Error
  /-- The names under `file` and `overlay` in a file that may not be a valid configuration. -/
  importNames : Option File → List String
  /-- What a valid file imports is among them. -/
  importNames_complete : ∀ path secure file value imports, readDocument path secure file = .ok (value, imports) →
    ∀ relative, (.file relative ∈ imports ∨ .overlay relative ∈ imports) → relative ∈ importNames file

namespace ConfigLoader

variable {Path File Value Preset Config Error : Type} [LinearOrder Path]

abbrev Load (Path File Error α : Type) := Reading Path File (Except Error α)

variable (loader : ConfigLoader Path File Value Preset Config Error)

def mergeResolved (base incoming : ResolvedDocument Path Value)
    (path : Path) (additiveSequences : Bool) : Except Error (ResolvedDocument Path Value) :=
  match loader.mergeDocument base.value incoming.value path additiveSequences with
  | .error e => .error e
  | .ok value => .ok ⟨value, base.dependencies ++ incoming.dependencies⟩

/-- Merges one document after the other into the base. -/
def mergeEach (loader : ConfigLoader Path File Value Preset Config Error) (path : Path)
    (source : ImportSpec Preset → Load Path File Error (ResolvedDocument Path Value × Bool)) :
    List (ImportSpec Preset) → ResolvedDocument Path Value → Load Path File Error (ResolvedDocument Path Value)
  | [], base => .done (.ok base)
  | spec :: specs, base => (source spec).andThen fun imported =>
    (Reading.done (loader.mergeResolved base imported.1 path imported.2)).andThen fun base =>
      mergeEach loader path source specs base

def isOverlay : ImportSpec Preset → Bool
  | .overlay _ => true
  | _ => false

def readOverlay (stack : List Path) (path : Path) :
    Load Path File Error (ResolvedDocument Path Value) :=
  if path ∈ stack then .done (.error (loader.importCycle path stack))
  else .read path fun file =>
    match loader.readDocument path true file with
    | .error e => .done (.error e)
    | .ok (_, _ :: _) => .done (.error (loader.nestedOverlay path))
    | .ok (value, []) => .done (.ok ⟨value, [path]⟩)

/-- Where the document of an import comes from, given how a file is resolved. -/
def importSource
    (resolve : Path → Load Path File Error (ResolvedDocument Path Value)) (stack : List Path) (path : Path) :
    ImportSpec Preset → Load Path File Error (ResolvedDocument Path Value × Bool)
  | .file relative => (resolve (loader.join path relative)).andThen fun imported => .done (.ok (imported, false))
  | .overlay relative =>
    (loader.readOverlay stack (loader.join path relative)).andThen fun imported => .done (.ok (imported, false))
  | .preset preset => .done ((loader.expandPreset preset path).map fun value => (⟨value, [path]⟩, true))

/-- The depth that is left goes down with each file on the way. The overlays come last. -/
def resolveInner (loader : ConfigLoader Path File Value Preset Config Error) :
    ℕ → List Path → Path → Load Path File Error (ResolvedDocument Path Value)
  | 0, _, path => .done (.error (loader.depthExceeded path))
  | depth + 1, stack, path =>
    if path ∈ stack then .done (.error (loader.importCycle path stack))
    else .read path fun file =>
      match loader.readDocument path (!stack.isEmpty) file with
      | .error e => .done (.error e)
      | .ok (document, imports) =>
        let stack := stack ++ [path]
        let source := loader.importSource (resolveInner loader depth stack) stack path
        (loader.mergeEach path source (imports.filter (fun spec => !isOverlay spec)) ⟨loader.emptyDocument, [path]⟩).andThen
          fun resolved => (Reading.done (loader.mergeResolved resolved ⟨document, [path]⟩ path false)).andThen
          fun resolved => loader.mergeEach path source (imports.filter isOverlay) resolved

def loadTracked (path : Path) :
    Load Path File Error (LoadedConfig Path Config) :=
  (loader.resolveInner (loader.maxImportDepth + 1) [] path).andThen fun resolved =>
    .done ((loader.parseResolved path resolved.value).map fun config => ⟨config, path, sortDedup resolved.dependencies⟩)

/-- The files of some imports, each with what is found below it. -/
def collectEach (loader : ConfigLoader Path File Value Preset Config Error) (path : Path)
    (below : Path → Reading Path File (List Path)) : List String → Reading Path File (List Path)
  | [] => .done []
  | relative :: rest =>
    let imported := loader.join path relative
    (below imported).bind fun found => (collectEach loader path below rest).bind fun others =>
      .done (imported :: found ++ others)

/-- What the files import, as far as they can be read, down to a depth. A file on the way to itself
is not entered again. -/
def collectImportPaths (loader : ConfigLoader Path File Value Preset Config Error) :
    ℕ → List Path → Path → Reading Path File (List Path)
  | 0, _, _ => .done []
  | depth + 1, stack, path =>
    if path ∈ stack then .done []
    else .read path fun file =>
      loader.collectEach path (collectImportPaths loader depth (stack ++ [path])) (loader.importNames file)

end ConfigLoader

end Pooler
