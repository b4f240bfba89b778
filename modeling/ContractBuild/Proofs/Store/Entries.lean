import ContractBuild.Proofs.Action
import ContractBuild.Proofs.Basic
import ContractBuild.Store.Request

/-!
The live entries of a store: what each operation does to the artifact under a name, and that slots
and counters have no part in it.
-/
namespace ContractBuild.Store

def Holds (store : Store) (name : String) (fingerprint : Fingerprint) : Prop :=
  ∃ artifact, store.lookup name = some artifact ∧ artifact.fingerprint = fingerprint

theorem fresh?_eq_some {store : Store} {name : String} {fingerprint : Fingerprint}
    {artifact : Artifact} :
    store.fresh? name fingerprint = some artifact ↔
      store.lookup name = some artifact ∧ artifact.fingerprint = fingerprint := by
  simp [fresh?, Option.filter_eq_some_iff]

theorem name_of_lookup {store : Store} {name : String} {artifact : Artifact}
    (found : store.lookup name = some artifact) : artifact.name = name := by
  simpa using List.find?_some found

theorem holds_iff_isFresh {store : Store} {name : String} {fingerprint : Fingerprint} :
    store.Holds name fingerprint ↔ store.isFresh name fingerprint = true := by
  rw [isFresh, Option.isSome_iff_exists]
  exact exists_congr fun artifact => fresh?_eq_some.symm

theorem holds_of_lookup_eq {before after : Store} {name : String} {fingerprint : Fingerprint}
    (same : after.lookup name = before.lookup name) :
    after.Holds name fingerprint ↔ before.Holds name fingerprint := by
  simp [Holds, same]

theorem find?_insertArtifact_self (artifact : Artifact) (live : List Artifact) :
    (insertArtifact artifact live).find? (·.name = artifact.name) = some artifact := by
  induction live with
  | nil => simp [insertArtifact]
  | cons other rest ih =>
    simp only [insertArtifact]
    split
    · simp
    · next differs =>
      split
      · simp
      · simp [differs, ih]

theorem find?_insertArtifact_of_ne {artifact : Artifact} {name : String}
    (differs : name ≠ artifact.name) (live : List Artifact) :
    (insertArtifact artifact live).find? (·.name = name) = live.find? (·.name = name) := by
  have passed : ¬ artifact.name = name := fun same => differs same.symm
  induction live with
  | nil => simp [insertArtifact, passed]
  | cons other rest ih =>
    simp only [insertArtifact]
    split
    · next same => simp [passed, same]
    · split
      · simp [passed]
      · simp only [List.find?_cons, ih]

theorem lookup_insert_self (store : Store) (artifact : Artifact) :
    (store.insert artifact).lookup artifact.name = some artifact :=
  find?_insertArtifact_self artifact store.live

theorem lookup_insert_of_ne (store : Store) {artifact : Artifact} {name : String}
    (differs : name ≠ artifact.name) :
    (store.insert artifact).lookup name = store.lookup name :=
  find?_insertArtifact_of_ne differs store.live

theorem lookup_erase_self (store : Store) (name : String) :
    (store.erase name).lookup name = none := by
  simp [lookup, erase]

theorem lookup_erase_of_ne (store : Store) {name other : String} (differs : other ≠ name) :
    (store.erase name).lookup other = store.lookup other := by
  simp only [lookup, erase, List.find?_filter]
  congr 1
  funext artifact
  by_cases same : artifact.name = other
  · simp [same, differs]
  · simp [same]

/-! Slots and counters -/

@[simp] theorem live_join (store : Store) (fingerprint : Fingerprint) :
    (store.join fingerprint).2.live = store.live := by
  unfold join
  split <;> rfl

theorem lookup_of_live_eq {before after : Store} (same : after.live = before.live) (name : String) :
    after.lookup name = before.lookup name := by
  rw [lookup, lookup, same]

theorem holds_of_live_eq {before after : Store} {name : String} {fingerprint : Fingerprint}
    (same : after.live = before.live) (holds : before.Holds name fingerprint) :
    after.Holds name fingerprint :=
  (holds_of_lookup_eq (lookup_of_live_eq same name)).2 holds

/-! Operations on entries and files -/

theorem onFiles_cases (action : FileAction α) (state : BuildState) :
    ∃ outcome files, action state.workspace.files = (outcome, files) ∧
      StoreAction.onFiles action state =
        (outcome.mapError .file, { state with workspace := { state.workspace with files } }) :=
  ⟨_, _, rfl, rfl⟩

def clearFile (store : Store) (name : String) : FileAction Unit := fun files =>
  if files.exists? (store.pathFor name) then FileAction.removeFile (store.pathFor name) files else (.ok (), files)

/-- Whether or not its file can be removed, the entry is dropped. -/
theorem invalidate_eq (name : String) (state : BuildState) :
    invalidate name state =
      (((state.store.clearFile name state.workspace.files).1.mapError .file).map fun _ =>
          (state.store.lookup name).isSome,
        ⟨{ state.workspace with files := (state.store.clearFile name state.workspace.files).2 },
          state.store.erase name⟩) := by
  unfold invalidate clearFile
  simp only [Action.bind_apply, Action.get_apply, StoreAction.modifyStore, Action.modify_apply, BuildState.onStore]
  split
  · simp only [Action.bind_apply, StoreAction.onFiles]
    rcases FileAction.removeFile (state.store.pathFor name) state.workspace.files with ⟨cause | value, files⟩ <;> rfl
  · rfl

theorem store_invalidate (name : String) (state : BuildState) :
    (invalidate name state).2.store = state.store.erase name := by
  rw [invalidate_eq]

/-- How dropping an entry goes lies with the workspace and the directory. -/
theorem invalidate_congr {first second : BuildState} (name : String)
    (workspace : first.workspace = second.workspace)
    (directory : first.store.directory = second.store.directory) :
    (invalidate name first).1.isOk = (invalidate name second).1.isOk ∧
      (invalidate name first).2.workspace = (invalidate name second).2.workspace := by
  have same : first.store.clearFile name = second.store.clearFile name := by
    unfold clearFile
    rw [pathFor, pathFor, directory]
  rw [invalidate_eq, invalidate_eq, workspace, same]
  cases (second.store.clearFile name second.workspace.files).1 <;> exact ⟨rfl, rfl⟩

/-- What is dropped is no longer live. -/
theorem live_invalidateAll {names : List String} {state after : BuildState}
    (ran : invalidateAll names state = (.ok (), after)) :
    ∀ artifact ∈ after.store.live, artifact ∈ state.store.live ∧ artifact.name ∉ names := by
  induction names generalizing state with
  | nil =>
    cases ran
    exact fun artifact member => ⟨member, List.not_mem_nil⟩
  | cons name names ih =>
    obtain ⟨_, middle, dropped, rest⟩ := Action.bind_eq_ok ran
    have live := store_invalidate name state
    rw [dropped] at live
    intro artifact member
    obtain ⟨kept, apart⟩ := ih rest artifact member
    rw [live, erase, List.mem_filter, decide_eq_true_eq] at kept
    exact ⟨kept.1, List.not_mem_cons_of_ne_of_not_mem kept.2 apart⟩

/-- Behind retaining, only what is in use is live. -/
theorem live_retain {inUse evicted : List String} {state after : BuildState}
    (ran : retain inUse state = (.ok evicted, after)) :
    ∀ artifact ∈ after.store.live, artifact ∈ state.store.live ∧ artifact.name ∈ inUse := by
  obtain ⟨_, _, got, ran⟩ := Action.bind_eq_ok ran
  cases got
  obtain ⟨_, _, dropped, done⟩ := Action.bind_eq_ok ran
  cases done
  intro artifact member
  obtain ⟨isLive, kept⟩ := live_invalidateAll dropped artifact member
  refine ⟨isLive, Decidable.byContradiction fun unused => kept ?_⟩
  exact List.mem_filter.2 ⟨List.mem_map_of_mem isLive, by simpa using unused⟩

/-- Where all that is live is in use, retaining does nothing. -/
theorem retain_of_used {inUse : List String} {state : BuildState}
    (used : ∀ artifact ∈ state.store.live, artifact.name ∈ inUse) : retain inUse state = (.ok [], state) := by
  have none : state.store.names.filter (fun name => name ∉ inUse) = [] := by
    refine List.filter_eq_nil_iff.2 fun name member => ?_
    obtain ⟨artifact, isLive, rfl⟩ := List.mem_map.1 member
    simpa using used artifact isLive
  unfold retain
  rw [Action.bind_apply, Action.get_apply]
  dsimp only
  rw [none]
  rfl

theorem mem_insertArtifact {artifact other : Artifact} {live : List Artifact}
    (member : other ∈ insertArtifact artifact live) : other = artifact ∨ other ∈ live := by
  induction live with
  | nil => exact .inl (List.mem_singleton.1 member)
  | cons first live ih =>
    rw [insertArtifact] at member
    split at member
    · exact (List.mem_cons.1 member).imp_right (List.mem_cons_of_mem _)
    · split at member
      · exact List.mem_cons.1 member
      · rcases List.mem_cons.1 member with rfl | later
        · exact .inr List.mem_cons_self
        · exact (ih later).imp_right (List.mem_cons_of_mem _)

/-- An artifact is published as a whole or not at all. -/
theorem publish_cases (artifact : Artifact) (state : BuildState) :
    (∃ files, publish artifact state =
      (.ok artifact, ⟨{ state.workspace with files }, state.store.insert artifact⟩)) ∨
    ∃ cause files, publish artifact state =
      (.error cause, ⟨{ state.workspace with files }, state.store⟩) := by
  unfold publish
  simp only [Action.bind_apply, Action.get_apply]
  obtain ⟨outcome, files, _, run⟩ := onFiles_cases (do
    FileAction.createDirectories state.store.directory
    FileAction.replaceFile state.store.directory (state.store.pathFor artifact.name)
      artifact.toJson.compact.toUTF8) state
  rw [run]
  cases outcome with
  | ok value => exact .inl ⟨files, rfl⟩
  | error cause => exact .inr ⟨.file cause, files, rfl⟩

/-- Whether an artifact can be published lies with the files alone. -/
theorem publish_isOk_congr {first second : BuildState} (artifact : Artifact)
    (files : first.workspace.files = second.workspace.files)
    (directory : first.store.directory = second.store.directory) :
    (publish artifact first).1.isOk = (publish artifact second).1.isOk := by
  unfold publish
  simp only [Action.bind_apply, Action.get_apply, Store.pathFor, files, directory, StoreAction.onFiles]
  rcases FileAction.createDirectories second.store.directory second.workspace.files with
    ⟨cause | ⟨⟩, made⟩
  · rfl
  · dsimp only
    rcases FileAction.replaceFile second.store.directory
      (second.store.directory.join ⟨artifact.name ++ "." ++ fileExtension⟩)
      artifact.toJson.compact.toUTF8 made with ⟨cause | ⟨⟩, written⟩ <;> rfl

end ContractBuild.Store
