import ContractBuild.Proofs.Interface.RoundTrip
import ContractBuild.Proofs.Store.Flights
import ContractBuild.Proofs.Store.Stock

/-!
Entries and files agree. A store that was opened on an empty directory has a file for each of its
entries and no other, whatever is asked of it, whoever is given up and whatever the compilers return;
each file holds the artifact that is live, and the store that is opened on these files has the same
entries.
-/
namespace ContractBuild
open FileTree FileAction ContractBuild.Action Json

/-- An artifact that a reader can take in is read back from its file. -/
theorem Artifact.held?_toJson {artifact : Artifact} (fit : fits depthLimit artifact.toJson = true) :
    held? artifact.toJson.compact.toUTF8 = some artifact := by
  have data : isData artifact.toJson = true := by
    simp [toJson, isData, memberData, Item.isData_listToJson]
  have scanned := scan?_write 0 data "" rfl
  rw [String.append_empty, clip_of_fits fit] at scanned
  rw [compact, held?_of_scan scanned]
  simp [toJson, ofJson?, fields?, member?, required?, asString?, languageOf?_tag, Item.manyOfJson?_listToJson]

inductive Shelf.Agrees (name : String) : Shelf → Prop
  | bare {refusal : Option FileError} : Agrees name ⟨none, none, refusal⟩
  | filled {artifact : Artifact} (stem : Store.IsStem name) (named : artifact.name = name)
    (fit : fits depthLimit artifact.toJson = true) :
    Agrees name ⟨some artifact, some (some artifact.toJson.compact.toUTF8), none⟩

namespace Shelf

variable {name : String} {shelf : Shelf}

theorem Agrees.clear (agrees : Agrees name shelf) : Agrees name shelf.clear.2 := by
  cases agrees with
  | bare =>
    next refusal =>
    cases refusal <;> exact .bare
  | filled stem named fit => exact .bare

theorem Agrees.put {artifact : Artifact} (agrees : Agrees artifact.name shelf)
    (stem : Store.IsStem artifact.name) (fit : fits depthLimit artifact.toJson = true) :
    Agrees artifact.name (shelf.put artifact).2 := by
  cases agrees with
  | bare =>
    next refusal =>
    cases refusal with
    | none => exact .filled stem rfl fit
    | some cause => exact .bare
  | filled stem named old => exact .filled stem rfl fit

theorem Agrees.kept?_eq (agrees : Agrees name shelf) : shelf.kept? name = shelf.entry := by
  cases agrees with
  | bare => exact kept?_eq_none rfl
  | filled stem named fit =>
    rw [kept?, if_pos ⟨stem, rfl⟩, Option.join_some, Option.bind_some, Artifact.held?_toJson fit]
    simp [named]

end Shelf

/-! What happens to a store -/

/-- A request comes in, a request runs a piece or is given up, entries are dropped, or something
happens elsewhere. -/
inductive Event
  | asked (request : Request)
  | turn (turn : Turn)
  | invalidated (name : String)
  | retained (inUse : List String)
  | cleared
  | elsewhere (change : Workspace → Workspace)

namespace Pool

def meet (pool : Pool) (state : BuildState) : Event → Pool × BuildState
  | .asked request => ({ pool with strands := pool.strands ++ [.queued (.ok request)] }, state)
  | .turn turn => pool.take state turn
  | .invalidated name => (pool, (Store.invalidate name state).2)
  | .retained inUse => (pool, (Store.retain inUse state).2)
  | .cleared => (pool, (Store.clear state).2)
  | .elsewhere change => (pool, { state with workspace := change state.workspace })

def meetAll (pool : Pool) (state : BuildState) (events : List Event) : Pool × BuildState :=
  events.foldl (fun now event => now.1.meet now.2 event) (pool, state)

end Pool

/-- Sources have a stem, what is returned for them can be read back, names that are dropped are whole,
and nothing but the store touches the files of artifacts. -/
def Event.IsFair (directory : Path) : Event → Prop
  | .asked request => request.name ≠ "" ∧
    (request.adapter.compile request.unit request.version).run.Within
      (fun before after => before.files.Spares directory after.files)
      (fun outcome => ∀ artifact, outcome = .ok artifact → fits depthLimit artifact.toJson = true)
  | .turn (.drop _ tidyUp) => ∀ workspace : Workspace, workspace.files.Spares directory (tidyUp workspace).files
  | .invalidated name => '/' ∉ name.toList
  | .elsewhere change => ∀ workspace : Workspace, workspace.files.Spares directory (change workspace).files
  | _ => True

/-- Files and entries are the same: one file for each entry, which is read back as the entry, and a
store that is opened now has these entries. -/
structure BuildState.Mirrors (cache : Path) (state : BuildState) : Prop where
  listed : ∃ entries, listDirectory (Store.artifactsDir cache) state.workspace.files =
      (.ok entries, state.workspace.files) ∧
    (entries.filter fun entry => ".json".toList <:+ entry.toList).Perm
      (state.store.live.map fun artifact => artifact.name ++ ".json")
  held : ∀ artifact ∈ state.store.live,
    ∃ content, state.workspace.files.content? (state.store.pathFor artifact.name) = some content ∧
      Artifact.held? content = some artifact
  reopened : Store.load cache state.workspace.files =
    (.ok ⟨state.store.directory, state.store.live, [], ⟨0, 0, 0, 0⟩⟩, state.workspace.files)

namespace BuildState

variable {cache directory : Path} {state : BuildState} {name : String}

theorem lookup_of_mem {artifact : Artifact} (stocks : state.Stocks directory Shelf.Agrees)
    (live : artifact ∈ state.store.live) : state.store.lookup artifact.name = some artifact :=
  stocks.ordered.find?_eq_some.2 ⟨live, rfl⟩

theorem Stocks.seen_iff (stocks : state.Stocks directory Shelf.Agrees) (whole : '/' ∉ name.toList) :
    (state.shelf name).file ≠ none ↔ ∃ artifact ∈ state.store.live, artifact.name = name := by
  have isEntry : (state.shelf name).entry = state.store.lookup name := rfl
  have agrees := stocks.shelves name whole
  constructor
  · intro seen
    generalize state.shelf name = shelf at isEntry agrees seen
    cases agrees with
    | bare => exact absurd rfl seen
    | filled stem named fit =>
      next artifact => exact ⟨artifact, List.mem_of_find?_eq_some isEntry.symm, named⟩
  · rintro ⟨artifact, live, rfl⟩
    rw [lookup_of_mem stocks live] at isEntry
    generalize state.shelf artifact.name = shelf at isEntry agrees
    cases agrees with
    | bare => cases isEntry
    | filled stem named fit => exact Option.some_ne_none _

/-- The files of artifacts in the directory are those of the entries. -/
theorem Stocks.listed (stocks : state.Stocks directory Shelf.Agrees) :
    ∃ entries, listDirectory directory state.workspace.files = (.ok entries, state.workspace.files) ∧
      (entries.filter fun entry => ".json".toList <:+ entry.toList).Perm
        (state.store.live.map fun artifact => artifact.name ++ ".json") := by
  obtain ⟨entries, listed, ordered, plain, there⟩ := stocks.housed.listDirectory_eq
  rw [stocks.directory] at listed
  refine ⟨entries, listed, ?_⟩
  have seen : ∀ name, '/' ∉ name.toList → (Store.fileName name ∈ entries ↔
      ∃ artifact ∈ state.store.live, artifact.name = name) := fun name whole => by
    rw [there _ (Store.plain_fileName whole), ← stocks.seen_iff whole, shelf_eq]
  have distinct : (state.store.live.map fun artifact => artifact.name ++ ".json").Nodup := by
    refine (List.Nodup.of_map _ stocks.ordered.names).map_on fun one member other memberToo same => ?_
    rw [← Store.fileName_eq, ← Store.fileName_eq] at same
    exact List.inj_on_of_nodup_map stocks.ordered.names member memberToo (Store.fileName_injective same)
  -- no name comes twice in either list, so it is enough that they have the same members
  refine (List.perm_ext_iff_of_nodup ((ordered.imp ne_of_lt).filter _) distinct).2 fun entry => ?_
  rw [List.mem_filter, List.mem_map, decide_eq_true_eq]
  constructor
  · rintro ⟨member, ends⟩
    obtain ⟨name, rfl⟩ := Store.exists_fileName ends
    have whole : '/' ∉ name.toList := fun separated => (plain _ member).whole (by
      rw [Store.fileName_eq, String.toList_append]
      exact List.mem_append_left _ separated)
    obtain ⟨artifact, live, rfl⟩ := (seen name whole).1 member
    exact ⟨artifact, live, (Store.fileName_eq _).symm⟩
  · rintro ⟨artifact, live, rfl⟩
    refine ⟨?_, artifact.name.toList, by rw [String.toList_append]⟩
    rw [← Store.fileName_eq]
    exact (seen _ (stocks.whole artifact live)).2 ⟨artifact, live, rfl⟩

theorem Stocks.held (stocks : state.Stocks directory Shelf.Agrees) {artifact : Artifact}
    (live : artifact ∈ state.store.live) :
    ∃ content, state.workspace.files.content? (state.store.pathFor artifact.name) = some content ∧
      Artifact.held? content = some artifact := by
  have whole := stocks.whole artifact live
  have isEntry : (state.shelf artifact.name).entry = some artifact := lookup_of_mem stocks live
  have agrees := stocks.shelves artifact.name whole
  have stored := Houses.node_join stocks.housed (Store.plain_fileName whole)
  generalize isShelf : state.shelf artifact.name = shelf at isEntry agrees
  rw [shelf_eq] at isShelf
  cases agrees with
  | bare => cases isEntry
  | filled stem named fit =>
    cases isEntry
    injection isShelf with _ seen admitted
    have isFile := fileAt_eq_some.1 (congrArg Option.join seen)
    rw [admitted, isFile] at stored
    refine ⟨_, ?_, Artifact.held?_toJson fit⟩
    rw [content?, node?, Store.pathFor_eq, stored]
    rfl

/-- A store that is opened now has the same entries. -/
theorem Stocks.reopened (stocks : state.Stocks (Store.artifactsDir cache) Shelf.Agrees) :
    Store.load cache state.workspace.files =
      (.ok ⟨state.store.directory, state.store.live, [], ⟨0, 0, 0, 0⟩⟩, state.workspace.files) := by
  have houses : state.workspace.files.Houses (Store.artifactsDir cache) := stocks.directory ▸ stocks.housed
  obtain ⟨live, opened, ordered, finds⟩ := Store.load_of_houses houses
  have same : live = state.store.live := by
    refine ordered.ext stocks.ordered fun name => ?_
    rw [finds, ← stocks.directory, kept?_eq]
    by_cases whole : '/' ∉ name.toList
    · exact (stocks.shelves name whole).kept?_eq
    · have none : state.store.lookup name = none := List.find?_eq_none.2 fun artifact member named =>
        whole (of_decide_eq_true named ▸ stocks.whole artifact member)
      rw [Shelf.kept?, if_neg fun both => whole both.1.2]
      exact none.symm
  rw [opened, stocks.directory, same]

/-- All shelves of a store that was opened on an empty directory agree. -/
theorem stocks_of_empty {before : FileTree} (quiet : before.faultAfter = none) (tidy : before.root.Tidy)
    (inside : before.IsInside)
    (opened : Store.load cache before = (.ok state.store, state.workspace.files))
    (empty : listDirectory (Store.artifactsDir cache) state.workspace.files =
      (.ok [], state.workspace.files)) : state.Stocks (Store.artifactsDir cache) Shelf.Agrees := by
  refine stocks_of_load quiet tidy inside opened fun name whole kept => ?_
  obtain ⟨houses, _⟩ := Store.houses_of_load quiet tidy inside opened
  obtain ⟨live, isStore, _⟩ := Store.store_of_load quiet tidy inside opened
  obtain ⟨entries, listed, _, _, there⟩ := houses.listDirectory_eq
  rw [empty] at listed
  cases listed
  have isDirectory : state.store.directory = Store.artifactsDir cache := by rw [isStore]
  have file : (state.shelf name).file = none := by
    have absent := mt (there _ (Store.plain_fileName whole)).2 List.not_mem_nil
    rw [shelf_eq]
    dsimp only
    rw [isDirectory]
    exact not_not.1 absent
  generalize state.shelf name = shelf at file kept
  obtain ⟨entry, _, refusal⟩ := shelf
  subst file
  have bare : entry = none := kept.trans (Shelf.kept?_eq_none rfl)
  subst bare
  exact .bare

end BuildState

namespace Pool

variable {related : BuildState → BuildState → Prop} {work : List (Except BuildError Request)}

theorem Within.drop {pool : Pool} (within : pool.Within related work) (gone : .error .cancelled ∈ work)
    (state : BuildState) (position : Nat) (tidyUp : Workspace → Workspace) :
    (pool.drop state position tidyUp).1.Within related work := by
  unfold Pool.drop
  split
  · exact within
  · constructor
    · intro strand member
      rcases List.mem_or_eq_of_mem_set member with old | rfl
      · exact within.asked strand old
      · exact gone
    · intro strand member request asks
      rcases List.mem_or_eq_of_mem_set member with old | rfl
      · exact within.phases strand old request asks
      · cases asks

theorem Within.append {pool : Pool} (within : pool.Within related work) {request : Request}
    (asked : .ok request ∈ work) :
    Within related work { pool with strands := pool.strands ++ [.queued (.ok request)] } := by
  constructor
  · intro strand member
    rcases List.mem_append.1 member with old | new
    · exact within.asked strand old
    · rw [List.mem_singleton.1 new]
      exact asked
  · intro strand member other asks
    rcases List.mem_append.1 member with old | new
    · exact within.phases strand old other asks
    · rw [List.mem_singleton.1 new]
      trivial

def asks (events : List Event) : List (Except BuildError Request) :=
  .error .cancelled :: events.filterMap fun
    | .asked request => some (.ok request)
    | _ => none

variable {directory : Path} {pool : Pool} {state : BuildState} {events : List Event}

theorem upholds_of_fair (fair : ∀ event ∈ events, event.IsFair directory) {request : Request}
    (asked : .ok request ∈ asks events) : request.Upholds (BuildState.StaysFine directory Shelf.Agrees) := by
  rcases List.mem_cons.1 asked with gone | member
  · cases gone
  · obtain ⟨event, there, same⟩ := List.mem_filterMap.1 member
    cases event with
    | asked other =>
      obtain ⟨filled, within⟩ := fair _ there
      cases same
      have minds : request.Minds directory Shelf.Agrees := by
        refine Routine.Within.mono within (fun _ _ => id) ?_
        intro outcome fits artifact isOk named shelf agrees
        refine agrees.put ?_ (fits artifact isOk)
        rw [named]
        exact ⟨filled, request.unit.artifactName_whole⟩
      exact minds.upholds fun name shelf => Shelf.Agrees.clear
    | _ => cases same

theorem meet_agrees (fair : ∀ event ∈ events, event.IsFair directory) {event : Event} (member : event ∈ events)
    (within : pool.Within (BuildState.StaysFine directory Shelf.Agrees) (asks events))
    (stocks : state.Stocks directory Shelf.Agrees) :
    (pool.meet state event).1.Within (BuildState.StaysFine directory Shelf.Agrees) (asks events) ∧
      (pool.meet state event).2.Stocks directory Shelf.Agrees := by
  have clears : ∀ name shelf, Shelf.Agrees name shelf → Shelf.Agrees name shelf.clear.2 :=
    fun name shelf => Shelf.Agrees.clear
  have isFair := fair event member
  cases event with
  | asked request =>
    exact ⟨within.append (List.mem_cons_of_mem _ (List.mem_filterMap.2 ⟨_, member, rfl⟩)), stocks⟩
  | turn turn =>
    cases turn with
    | piece position =>
      obtain ⟨rest, keeps⟩ := within.advance (fun state stocks => stocks)
        (fun request asked => upholds_of_fair fair asked) state position
      exact ⟨rest, keeps stocks⟩
    | drop position tidyUp =>
      refine ⟨within.drop List.mem_cons_self state position tidyUp, ?_⟩
      simp only [meet, take, drop]
      split
      · exact stocks
      · next strand found =>
        cases strand.phase with
        | compiling slot call =>
          exact (stocks.of_spares (isFair state.workspace)).of_sameShelves ⟨rfl, rfl, rfl⟩
        | _ => exact stocks
  | invalidated name => exact ⟨within, stocks.invalidate isFair (clears name)⟩
  | retained inUse => exact ⟨within, stocks.retain clears inUse⟩
  | cleared => exact ⟨within, stocks.clear clears⟩
  | elsewhere change => exact ⟨within, stocks.of_spares (isFair state.workspace)⟩

theorem meetAll_agrees (fair : ∀ event ∈ events, event.IsFair directory) {later : List Event}
    (among : ∀ event ∈ later, event ∈ events)
    (within : pool.Within (BuildState.StaysFine directory Shelf.Agrees) (asks events))
    (stocks : state.Stocks directory Shelf.Agrees) :
    (pool.meetAll state later).2.Stocks directory Shelf.Agrees := by
  -- what may be asked is told by all events, so that it stays the same along the induction
  induction later generalizing pool state with
  | nil => exact stocks
  | cons event later ih =>
    obtain ⟨isEvent, amongRest⟩ := List.forall_mem_cons.1 among
    obtain ⟨rest, after⟩ := meet_agrees fair isEvent within stocks
    exact ih amongRest rest after

/-- Without a fault, files and entries are the same at every moment since the store was opened on an
empty directory. -/
theorem mirrors_of_events {cache : Path} {before : FileTree} {first : BuildState}
    (quiet : before.faultAfter = none) (tidy : before.root.Tidy) (inside : before.IsInside)
    (opened : Store.load cache before = (.ok first.store, first.workspace.files))
    (empty : listDirectory (Store.artifactsDir cache) first.workspace.files = (.ok [], first.workspace.files))
    (limit : Nat) (events : List Event)
    (fair : ∀ event ∈ events, event.IsFair (Store.artifactsDir cache)) :
    ((ofWork limit []).meetAll first events).2.Mirrors cache := by
  have stocks : first.Stocks _ Shelf.Agrees := BuildState.stocks_of_empty quiet tidy inside opened empty
  have idle : (ofWork limit []).Within (BuildState.StaysFine (Store.artifactsDir cache) Shelf.Agrees)
      (asks events) := ⟨fun _ member => absurd member List.not_mem_nil,
    fun _ member => absurd member List.not_mem_nil⟩
  have last := meetAll_agrees fair (fun _ => id) idle stocks
  exact ⟨last.listed, fun artifact => last.held, last.reopened⟩

def openedState : BuildState :=
  match Store.load ⟨"cache"⟩ (.within []) with
  | (.ok store, files) => ⟨.ofFiles files, store⟩
  | (.error _, _) => emptyState

theorem load_openedState :
    Store.load ⟨"cache"⟩ (.within []) = (.ok openedState.store, openedState.workspace.files) := by
  have went : (Store.load ⟨"cache"⟩ (.within [])).1.isOk = true := by decide +kernel
  unfold openedState
  revert went
  rcases Store.load ⟨"cache"⟩ (.within []) with ⟨cause | store, files⟩
  · exact fun went => nomatch went
  · exact fun _ => rfl

def twoAsked : List Event :=
  [.asked (requestFor "A.vy"), .asked (requestFor "B.vy"), .turn (.piece 0), .turn (.piece 1), .turn (.drop 1 id),
    .turn (.piece 0), .invalidated "B", .retained ["A"]]

theorem isFair_requestFor {path : String} (stem : (requestFor path).name ≠ "") (directory : Path) :
    (Event.asked (requestFor path)).IsFair directory := by
  refine ⟨stem, .await (.done fun artifact isOk => ?_)⟩
  cases isOk
  simp [Artifact.toJson, Artifact.ofOutput, Item.listToJson, depthLimit]

theorem mirrors_of_two_asked :
    (openedState.store.names = [] ∧
      ((ofWork 2 []).meetAll openedState twoAsked).2.store.names = ["A"]) ∧
      ((ofWork 2 []).meetAll openedState twoAsked).2.Mirrors ⟨"cache"⟩ := by
  have tidy : (FileTree.within []).root.Tidy := FileNode.tidy_of_isTidy (by decide +kernel)
  obtain ⟨houses, _⟩ := Store.houses_of_load rfl tidy rfl load_openedState
  obtain ⟨entries, listed, _⟩ := houses.listDirectory_eq
  have bare : (listDirectory (Store.artifactsDir ⟨"cache"⟩) openedState.workspace.files).1.toOption = some [] := by
    decide +kernel
  rw [listed] at bare
  cases bare
  refine ⟨by decide +kernel, mirrors_of_events rfl tidy rfl load_openedState listed 2 twoAsked fun event member => ?_⟩
  simp only [twoAsked, List.mem_cons, List.not_mem_nil, or_false] at member
  rcases member with rfl | rfl | rfl | rfl | rfl | rfl | rfl | rfl
  · exact isFair_requestFor (by decide) _
  · exact isFair_requestFor (by decide) _
  · trivial
  · trivial
  · exact fun workspace => .of_eq rfl
  · trivial
  · exact (by decide : '/' ∉ "B".toList)
  · trivial

end Pool
end ContractBuild
