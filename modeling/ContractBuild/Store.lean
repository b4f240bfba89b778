import ContractBuild.Build.Output
import ContractBuild.Compiler.Adapter
/-!
The store of artifacts: at most one for each name, in memory and in a file named after it. Whether
a source is compiled again is decided here alone, by comparing fingerprints. A slot stands for one
compilation that several requests may wait for.
-/
namespace ContractBuild

/-- How often requests were answered and how. -/
structure StoreCounters where
  hits : Nat
  misses : Nat
  compiles : Nat
  failures : Nat
  deriving DecidableEq

/-- A compilation under way or done. While it is listed, further requests with its fingerprint
join it. -/
structure Slot where
  fingerprint : Fingerprint
  cell : Cell (Except BuildError Artifact)
  listed : Bool

/-- `live` holds the artifacts in the order of their names. A slot is known by its position. -/
structure Store where
  directory : Path
  live : List Artifact
  slots : List Slot
  counters : StoreCounters

/-- All that a build changes. -/
structure BuildState where
  workspace : Workspace
  store : Store

def BuildState.onStore (state : BuildState) (change : Store → Store) : BuildState :=
  { state with store := change state.store }

namespace Store

def fileExtension : String := "json"

/-- The directory of artifact files in a cache directory. -/
def artifactsDir (cache : Path) : Path :=
  cache.join ⟨"artifacts"⟩

def pathFor (store : Store) (name : String) : Path :=
  store.directory.join ⟨name ++ "." ++ fileExtension⟩

/-- The live artifact of a name, whatever it was compiled from. -/
def lookup (store : Store) (name : String) : Option Artifact :=
  store.live.find? (·.name = name)

/-- The live artifact of a name if it has the fingerprint. -/
def fresh? (store : Store) (name : String) (fingerprint : Fingerprint) : Option Artifact :=
  (store.lookup name).filter (·.fingerprint = fingerprint)

def isFresh (store : Store) (name : String) (fingerprint : Fingerprint) : Bool :=
  (store.fresh? name fingerprint).isSome

def names (store : Store) : List String :=
  store.live.map (·.name)

/-- Puts an artifact in the place of its name. -/
def insertArtifact (artifact : Artifact) : List Artifact → List Artifact
  | [] => [artifact]
  | other :: rest =>
    if other.name = artifact.name then artifact :: rest
    else if artifact.name < other.name then artifact :: other :: rest
    else other :: insertArtifact artifact rest

def insert (store : Store) (artifact : Artifact) : Store :=
  { store with live := insertArtifact artifact store.live }

def erase (store : Store) (name : String) : Store :=
  { store with live := store.live.filter (·.name ≠ name) }

def count (store : Store) (change : StoreCounters → StoreCounters) : Store :=
  { store with counters := change store.counters }

def countHit (store : Store) : Store :=
  store.count fun counters => { counters with hits := counters.hits + 1 }

def countMiss (store : Store) : Store :=
  store.count fun counters => { counters with misses := counters.misses + 1 }

def countCompile (store : Store) : Store :=
  store.count fun counters => { counters with compiles := counters.compiles + 1 }

def countFailure (store : Store) : Store :=
  store.count fun counters => { counters with failures := counters.failures + 1 }

/-! Slots -/

/-- The slot that requests with a fingerprint join. -/
def listedSlot? (store : Store) (fingerprint : Fingerprint) : Option Nat :=
  store.slots.findIdx? fun slot => slot.listed && slot.fingerprint = fingerprint

/-- The slot for a fingerprint, a new one if none is listed. -/
def join (store : Store) (fingerprint : Fingerprint) : Nat × Store :=
  match store.listedSlot? fingerprint with
  | some slot => (slot, store)
  | none =>
    (store.slots.length, { store with slots := store.slots ++ [⟨fingerprint, .vacant, true⟩] })

def cell (store : Store) (slot : Nat) : Cell (Except BuildError Artifact) :=
  (store.slots[slot]?.map Slot.cell).getD .vacant

def setCell (store : Store) (slot : Nat) (cell : Cell (Except BuildError Artifact)) : Store :=
  { store with slots := store.slots.modify slot fun entry => { entry with cell } }

/-- Takes a slot off the list, so that later requests compile anew. -/
def release (store : Store) (slot : Nat) : Store :=
  { store with slots := store.slots.modify slot fun entry => { entry with listed := false } }

/-- Keeps the outcome of a slot for those who wait, and takes it off the list. -/
def fill (store : Store) (slot : Nat) (outcome : Except BuildError Artifact) : Store :=
  (store.setCell slot (.filled outcome)).release slot

/-! Files -/

/-- The artifact in a file that is named after it. -/
def readArtifact? (path : Path) : FileAction (Option Artifact) := do
  match ← Output.existing? path with
  | none => return none
  | some content =>
    let artifact := (String.fromUTF8? content).bind Artifact.ofText?
    return artifact.filter fun found => path.fileStem? = some found.name

def readAll (directory : Path) (found : List Artifact) :
    List String → FileAction (List Artifact)
  | [] => return found
  | name :: names => do
    let path := directory.join ⟨name⟩
    if path.extension? = some fileExtension then
      match ← readArtifact? path with
      | some artifact => readAll directory (insertArtifact artifact found) names
      | none => readAll directory found names
    else readAll directory found names

/-- The store of a cache directory, which is created as needed. A file that holds no artifact of
its name is passed over. -/
def load (cache : Path) : FileAction Store := do
  let directory := artifactsDir cache
  FileAction.createDirectories directory
  let names ← FileAction.listDirectory directory
  return ⟨directory, ← readAll directory [] names, [], ⟨0, 0, 0, 0⟩⟩

end Store

/-- An action on files and the store that can fail. -/
abbrev StoreAction (α : Type) := ExceptT BuildError (StateM BuildState) α

namespace StoreAction

/-- An action on files alone. -/
def onFiles (action : FileAction α) : StoreAction α := fun state =>
  let (outcome, files) := action state.workspace.files
  (outcome.mapError .file, { state with workspace := { state.workspace with files } })

def modifyStore (change : Store → Store) : StoreAction Unit :=
  modify (·.onStore change)

end StoreAction

namespace Store

/-- Drops the artifact of a name and its file. Says whether there was an artifact. -/
def invalidate (name : String) : StoreAction Bool := do
  let store := (← get).store
  let path := store.pathFor name
  StoreAction.modifyStore (·.erase name)
  if (← get).workspace.files.exists? path then
    StoreAction.onFiles (FileAction.removeFile path)
  return (store.lookup name).isSome

/-- Drops the artifacts of several names, one after another. -/
def invalidateAll : List String → StoreAction Unit
  | [] => return ()
  | name :: names => do
    let _ ← invalidate name
    invalidateAll names

/-- Drops every artifact whose name is not in use and gives their names. -/
def retain (inUse : List String) : StoreAction (List String) := do
  let evicted := (← get).store.names.filter fun name => name ∉ inUse
  invalidateAll evicted
  return evicted

/-- Drops every artifact. -/
def clear : StoreAction Unit := do
  invalidateAll (← get).store.names

/-- Writes the file of an artifact at once and then makes the artifact visible. -/
def publish (artifact : Artifact) : StoreAction Artifact := do
  let store := (← get).store
  StoreAction.onFiles do
    FileAction.createDirectories store.directory
    FileAction.replaceFile store.directory (store.pathFor artifact.name)
      artifact.toJson.compact.toUTF8
  StoreAction.modifyStore (·.insert artifact)
  return artifact

end Store
end ContractBuild
