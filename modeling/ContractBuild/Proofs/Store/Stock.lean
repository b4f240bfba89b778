import ContractBuild.Proofs.Store.Opening
import ContractBuild.Proofs.Store.Upkeep

/-!
What is kept up on all shelves. A property of single shelves that lasts when a shelf is cleared and
when artifacts are put on it holds of every shelf of a store at every moment, as long as nothing but
the store touches the files of artifacts.
-/
namespace ContractBuild
open FileTree FileAction ContractBuild.Action

structure FileTree.Spares (directory : Path) (before after : FileTree) : Prop where
  workingDirectory : after.workingDirectory = before.workingDirectory
  houses : before.Houses directory → after.Houses directory
  sight : ∀ name, '/' ∉ name.toList → after.root.sight (before.place (directory.join ⟨Store.fileName name⟩)) =
    before.root.sight (before.place (directory.join ⟨Store.fileName name⟩))

theorem FileTree.Spares.of_eq {directory : Path} {before after : FileTree} (same : after = before) :
    Spares directory before after := by
  subst same
  exact ⟨rfl, id, fun _ _ => rfl⟩

def Shelf.kept? (name : String) (shelf : Shelf) : Option Artifact :=
  if Store.IsStem name ∧ shelf.refusal = none then
    (shelf.file.join.bind Artifact.held?).filter (·.name = name)
  else none

theorem Shelf.kept?_eq_none {name : String} {shelf : Shelf} (bare : shelf.file.join = none) :
    shelf.kept? name = none := by
  rw [kept?, bare]
  split <;> rfl

namespace BuildState

theorem shelf_eq (state : BuildState) (name : String) :
    state.shelf name = ⟨state.store.lookup name,
      state.workspace.files.root.sight
        (state.workspace.files.place (state.store.directory.join ⟨Store.fileName name⟩)),
      refusal? state.store.directory (Store.fileName name)⟩ := by
  rw [shelf, spot, Store.pathFor_eq, Store.fileName]

theorem kept?_eq (state : BuildState) (name : String) :
    Store.kept? state.workspace.files state.store.directory name = (state.shelf name).kept? name := by
  rw [Store.kept?, Shelf.kept?, shelf_eq, fileAt]

/-- A store in a directory that is there. Its entries are in order and under whole names, and every
shelf is fine. -/
structure Stocks (directory : Path) (fine : String → Shelf → Prop) (state : BuildState) : Prop where
  directory : state.store.directory = directory
  housed : state.IsHoused
  ordered : Store.InOrder state.store.live
  whole : ∀ artifact ∈ state.store.live, '/' ∉ artifact.name.toList
  shelves : ∀ name, '/' ∉ name.toList → fine name (state.shelf name)

def StaysFine (directory : Path) (fine : String → Shelf → Prop) (before after : BuildState) : Prop :=
  before.Stocks directory fine → after.Stocks directory fine

variable {directory : Path} {fine : String → Shelf → Prop} {state after : BuildState} {name : String}

theorem Stocks.of_sameShelves (stocks : state.Stocks directory fine) (same : state.SameShelves after) :
    after.Stocks directory fine := by
  refine ⟨same.directory.trans stocks.directory, same.housed stocks.housed, same.live ▸ stocks.ordered,
    same.live ▸ stocks.whole, fun name whole => ?_⟩
  rw [same.shelf_eq]
  exact stocks.shelves name whole

/-- What spares the files of artifacts changes no shelf. -/
theorem shelf_of_spares {workspace : Workspace} (isDirectory : state.store.directory = directory)
    (spares : state.workspace.files.Spares directory workspace.files) (whole : '/' ∉ name.toList) :
    shelf ⟨workspace, state.store⟩ name = state.shelf name := by
  have sameSight := spares.sight name whole
  rw [← isDirectory] at sameSight
  have samePlace : workspace.files.place (state.store.directory.join ⟨Store.fileName name⟩) =
      state.workspace.files.place (state.store.directory.join ⟨Store.fileName name⟩) := by
    rw [FileTree.place, FileTree.place, spares.workingDirectory]
  rw [shelf_eq, shelf_eq, samePlace, sameSight]

theorem housed_of_spares {workspace : Workspace} (isDirectory : state.store.directory = directory)
    (spares : state.workspace.files.Spares directory workspace.files) (housed : state.IsHoused) :
    IsHoused ⟨workspace, state.store⟩ := by
  rw [IsHoused, isDirectory] at housed ⊢
  exact spares.houses housed

theorem Stocks.of_spares {workspace : Workspace} (stocks : state.Stocks directory fine)
    (spares : state.workspace.files.Spares directory workspace.files) :
    Stocks directory fine ⟨workspace, state.store⟩ := by
  refine ⟨stocks.directory, housed_of_spares stocks.directory spares stocks.housed, stocks.ordered, stocks.whole,
    fun name whole => ?_⟩
  rw [shelf_of_spares stocks.directory spares whole]
  exact stocks.shelves name whole

theorem Stocks.of_touches (stocks : state.Stocks directory fine) (touches : Touches (· = name) state after)
    (whole : '/' ∉ name.toList) (ordered : Store.InOrder after.store.live)
    (live : ∀ artifact ∈ after.store.live, artifact ∈ state.store.live ∨ artifact.name = name)
    (isFine : fine name (after.shelf name)) : after.Stocks directory fine := by
  refine ⟨touches.directory.trans stocks.directory, touches.housed stocks.housed, ordered, ?_, ?_⟩
  · intro artifact member
    rcases live artifact member with old | rfl
    · exact stocks.whole artifact old
    · exact whole
  · intro other wholeToo
    by_cases same : name = other
    · exact same ▸ isFine
    · rw [touches.shelf_eq wholeToo (by rintro _ rfl; exact ⟨whole, same⟩)]
      exact stocks.shelves other wholeToo

theorem Stocks.invalidate (stocks : state.Stocks directory fine) (whole : '/' ∉ name.toList)
    (clears : ∀ shelf, fine name shelf → fine name shelf.clear.2) :
    (Store.invalidate name state).2.Stocks directory fine := by
  obtain ⟨_, cleared, touches⟩ := Store.invalidate_shelf stocks.housed whole
  have erased := Store.store_invalidate name state
  refine stocks.of_touches touches whole ?_ ?_ ?_
  · rw [erased]
    exact stocks.ordered.filter _
  · rw [erased]
    exact fun artifact member => .inl (List.mem_of_mem_filter member)
  · rw [cleared]
    exact clears _ (stocks.shelves name whole)

/-- A name that is not whole is the name of no entry, and no more than one file goes with it. -/
theorem Stocks.invalidate_of_loses (stocks : state.Stocks directory fine)
    (clears : ∀ name shelf, fine name shelf → fine name shelf.clear.2)
    (loses : ∀ name shelf, fine name shelf → fine name { shelf with file := none }) (name : String) :
    (Store.invalidate name state).2.Stocks directory fine := by
  by_cases whole : '/' ∉ name.toList
  · exact stocks.invalidate whole (clears name)
  · obtain ⟨seen, gone, sets, houses⟩ := Store.clearFile_sets stocks.housed state.store name
    -- no entry has the name, but the file that goes may be the one of an entry all the same
    have live : (state.store.erase name).live = state.store.live := List.filter_eq_self.2 fun artifact member =>
      decide_eq_true fun named => whole (named ▸ stocks.whole artifact member)
    rw [Store.invalidate_eq]
    refine ⟨stocks.directory, houses, live ▸ stocks.ordered, live ▸ stocks.whole, fun other wholeToo => ?_⟩
    have isFine := stocks.shelves other wholeToo
    have sameSpot : state.spot other =
        spot ⟨{ state.workspace with files := (state.store.clearFile name state.workspace.files).2 },
          state.store.erase name⟩ other := by
      rw [spot, spot, FileTree.place, FileTree.place, sets.workingDirectory]
      rfl
    rw [shelf, ← sameSpot, sets.sight, Store.lookup_of_live_eq live]
    split
    · next same =>
      rcases gone with rfl | rfl
      · exact loses other _ isFine
      · have isSpot : state.workspace.files.place (state.store.pathFor name) = state.spot other := same.symm
        rw [isSpot]
        exact isFine
    · exact isFine

theorem Stocks.publish {artifact : Artifact} (stocks : state.Stocks directory fine)
    (whole : '/' ∉ artifact.name.toList)
    (puts : ∀ shelf, fine artifact.name shelf → fine artifact.name (shelf.put artifact).2) :
    (Store.publish artifact state).2.Stocks directory fine := by
  obtain ⟨_, stored, touches⟩ := Store.publish_shelf stocks.housed whole
  have isFine := puts _ (stocks.shelves artifact.name whole)
  rw [← stored] at isFine
  obtain ⟨files, run⟩ | ⟨cause, files, run⟩ := Store.publish_cases artifact state
  · rw [run] at touches isFine ⊢
    refine stocks.of_touches touches whole (stocks.ordered.insertArtifact artifact) ?_ isFine
    exact fun other member => (Store.mem_insertArtifact member).symm.imp_right (congrArg Artifact.name)
  · rw [run] at touches isFine ⊢
    exact stocks.of_touches touches whole stocks.ordered (fun other member => .inl member) isFine

theorem Stocks.invalidateAll (clears : ∀ name shelf, fine name shelf → fine name shelf.clear.2)
    {names : List String} (whole : ∀ name ∈ names, '/' ∉ name.toList) (stocks : state.Stocks directory fine) :
    (Store.invalidateAll names state).2.Stocks directory fine := by
  induction names generalizing state with
  | nil => exact stocks
  | cons name names ih =>
    obtain ⟨isWhole, wholeRest⟩ := List.forall_mem_cons.1 whole
    have first := stocks.invalidate isWhole (clears name)
    rw [Store.invalidateAll, Action.bind_apply]
    revert first
    rcases Store.invalidate name state with ⟨cause | there, middle⟩
    · exact id
    · exact ih wholeRest

theorem Stocks.whole_names (stocks : state.Stocks directory fine) :
    ∀ name ∈ state.store.names, '/' ∉ name.toList := by
  intro name member
  obtain ⟨artifact, live, rfl⟩ := List.mem_map.1 member
  exact stocks.whole artifact live

theorem Stocks.retain (clears : ∀ name shelf, fine name shelf → fine name shelf.clear.2)
    (stocks : state.Stocks directory fine) (inUse : List String) :
    (Store.retain inUse state).2.Stocks directory fine := by
  have whole : ∀ name ∈ state.store.names.filter (fun name => name ∉ inUse), '/' ∉ name.toList :=
    fun name member => stocks.whole_names name (List.mem_of_mem_filter member)
  have dropped := stocks.invalidateAll clears whole
  unfold Store.retain
  rw [Action.bind_apply, Action.get_apply]
  dsimp only
  rw [Action.bind_apply]
  revert dropped
  rcases Store.invalidateAll (state.store.names.filter fun name => name ∉ inUse) state with ⟨cause | none, middle⟩
  all_goals exact id

theorem Stocks.clear (clears : ∀ name shelf, fine name shelf → fine name shelf.clear.2)
    (stocks : state.Stocks directory fine) : (Store.clear state).2.Stocks directory fine := by
  unfold Store.clear
  rw [Action.bind_apply, Action.get_apply]
  exact stocks.invalidateAll clears stocks.whole_names

/-- A store that is opened has on every shelf the entry that is kept there. -/
theorem stocks_of_load {cache : Path} {before : FileTree} (quiet : before.faultAfter = none)
    (tidy : before.root.Tidy) (inside : before.IsInside)
    (opened : Store.load cache before = (.ok state.store, state.workspace.files))
    (isFine : ∀ name, '/' ∉ name.toList → (state.shelf name).entry = (state.shelf name).kept? name →
      fine name (state.shelf name)) : state.Stocks (Store.artifactsDir cache) fine := by
  obtain ⟨houses, _⟩ := Store.houses_of_load quiet tidy inside opened
  obtain ⟨live, isStore, ordered, finds⟩ := Store.store_of_load quiet tidy inside opened
  have isDirectory : state.store.directory = Store.artifactsDir cache := by rw [isStore]
  have isLive : state.store.live = live := by rw [isStore]
  have kept : ∀ name, state.store.lookup name = (state.shelf name).kept? name := fun name => by
    rw [← kept?_eq, isDirectory, ← finds, Store.lookup, isLive]
  refine ⟨isDirectory, by rwa [IsHoused, isDirectory], isLive ▸ ordered, ?_, fun name whole => ?_⟩
  · intro artifact member separated
    have found : state.store.lookup artifact.name = some artifact :=
      (isLive ▸ ordered).find?_eq_some.2 ⟨member, rfl⟩
    -- nothing is kept under a name with a separator
    rw [kept, Shelf.kept?, if_neg fun both => both.1.2 separated] at found
    cases found
  · exact isFine name whole (kept name)

end BuildState

namespace Request
open BuildState

def Minds (directory : Path) (fine : String → Shelf → Prop) (request : Request) : Prop :=
  (request.adapter.compile request.unit request.version).run.Within
    (fun before after => before.files.Spares directory after.files)
    (fun outcome => ∀ artifact, outcome = .ok artifact → artifact.name = request.name →
      ∀ shelf, fine artifact.name shelf → fine artifact.name (shelf.put artifact).2)

variable {directory : Path} {fine : String → Shelf → Prop} {request : Request}

theorem Minds.upholds (minds : request.Minds directory fine)
    (clears : ∀ name shelf, fine name shelf → fine name shelf.clear.2) :
    request.Upholds (StaysFine directory fine) where
  trans earlier later := later ∘ earlier
  entries state store live isDirectory stocks := stocks.of_sameShelves ⟨isDirectory, live, rfl⟩
  drops state stocks := stocks.invalidate request.unit.artifactName_whole (clears request.name)
  calls := by
    refine .act (fun workspace store stocks => stocks.of_sameShelves ⟨rfl, rfl, rfl⟩) fun workspace => ?_
    refine Routine.Within.mono minds (fun before after spares store stocks => stocks.of_spares spares) ?_
    intro outcome fits artifact isOk answers state stocks
    have named := (isAnsweredBy_iff.1 answers).2
    refine stocks.publish ?_ (fits artifact isOk named)
    rw [named]
    exact request.unit.artifactName_whole

end Request
end ContractBuild
