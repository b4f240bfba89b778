import ContractBuild.Proofs.Build.Inputs

/-!
The status of every source, and reading the sources again behind it. As long as the files are the same, the
same sources are found with the same texts, unless a file operation is disrupted.
-/
namespace ContractBuild
open FileTree FileAction ContractBuild.Action

namespace FileTree

structure SameView (first second : FileTree) : Prop where
  root : second.root = first.root
  workingDirectory : second.workingDirectory = first.workingDirectory

theorem SameView.node_eq {first second : FileTree} (same : first.SameView second) (path : Path) :
    second.node path = first.node path := by
  simp only [FileTree.node, locate, start, same.root, same.workingDirectory]

/-- Looking at either of two trees leaves them the same. -/
theorem SameView.of_sameFiles {first second firstAfter secondAfter : FileTree} (same : first.SameView second)
    (kept : first.SameFiles firstAfter) (keptToo : second.SameFiles secondAfter) :
    firstAfter.SameView secondAfter := by
  refine ⟨?_, ?_⟩
  · rw [keptToo.root, same.root, kept.root]
  · rw [keptToo.workingDirectory, same.workingDirectory, kept.workingDirectory]

theorem SameFiles.sameView {first second : FileTree} (same : first.SameFiles second) : first.SameView second :=
  ⟨same.root, same.workingDirectory⟩

end FileTree

/-! What is read again -/

section
variable {α β ε : Type} {broken : ε}

structure Again (broken : ε) (action : ExceptT ε (StateM FileTree) α) : Prop where
  cases : ∀ {first second after : FileTree} {value : α}, first.SameView second → action first = (.ok value, after) →
    (∃ later, action second = (.ok value, later)) ∨
      (∃ later, action second = (.error broken, later)) ∧ second.faultAfter ≠ none

theorem Again.bind {action : ExceptT ε (StateM FileTree) α} {next : α → ExceptT ε (StateM FileTree) β}
    (again : Again broken action) (reads : Reads action) (rest : ∀ value, Again broken (next value)) :
    Again broken (action >>= next) := by
  refine ⟨fun {first second after result} same ran => ?_⟩
  obtain ⟨value, middle, read, done⟩ := bind_eq_ok ran
  have kept := reads first
  have keptToo := reads second
  rw [read] at kept
  rcases again.cases same read with ⟨later, readToo⟩ | ⟨⟨later, failed⟩, comes⟩
  · rw [bind_of_ok readToo]
    rw [readToo] at keptToo
    exact ((rest value).cases (same.of_sameFiles kept keptToo) done).imp_right
      (And.imp_right fun comes quiet => comes (keptToo.quiet quiet))
  · exact .inr ⟨⟨later, bind_of_error failed next⟩, comes⟩

theorem Again.pure (value : α) : Again broken (Pure.pure value : ExceptT ε (StateM FileTree) α) := by
  refine ⟨fun {first second after other} same ran => ?_⟩
  cases ran
  exact .inl ⟨second, rfl⟩

theorem Again.throw (cause : ε) : Again broken (MonadExcept.throw cause : ExceptT ε (StateM FileTree) α) :=
  ⟨fun _ ran => nomatch ran⟩

theorem again_attempt {operation : FileTree → Except FileError (α × FileTree)}
    (same : ∀ {first second after : FileTree} {value : α}, first.SameView second →
      operation first = .ok (value, after) → ∃ other, operation second = .ok (value, other)) :
    Again .disrupted (attempt operation) := by
  refine ⟨fun {first second after value} alike ran => ?_⟩
  obtain ⟨left, _, went⟩ := attempt_ok ran
  have alikeToo : (withFault first left).SameView { second with faultAfter := second.faultAfter.map (· - 1) } :=
    ⟨alike.root, alike.workingDirectory⟩
  obtain ⟨other, wentToo⟩ := same alikeToo went
  unfold attempt
  split
  · next comes => exact .inr ⟨⟨_, rfl⟩, by rw [comes]; exact nofun⟩
  · dsimp only
    rw [wentToo]
    exact .inl ⟨other, rfl⟩

theorem again_readText (path : Path) : Again .disrupted (readText path) := by
  refine Again.bind (again_attempt ?_) (reads_readBytes path) fun content => ?_
  · intro first second after value same ran
    rw [same.node_eq]
    cases found : first.node path with
    | error cause =>
      rw [found] at ran
      cases ran
    | ok node =>
      rw [found] at ran
      cases node with
      | directory => cases ran
      | file content =>
        cases ran
        exact ⟨second, rfl⟩
  · split
    · exact .pure _
    · exact .throw _

theorem again_filesBelow (root : Path) : Again .disrupted (FileAction.filesBelow root) := by
  refine again_attempt ?_
  intro first second after value same ran
  have below : second.filesBelow root = first.filesBelow root := by
    rw [FileTree.filesBelow, FileTree.filesBelow, same.node_eq]
  rw [below]
  cases found : first.filesBelow root with
  | error cause =>
    rw [found] at ran
    cases ran
  | ok paths =>
    rw [found] at ran
    cases ran
    exact ⟨second, rfl⟩

theorem again_telling (tell : FileError → ε) {action : FileAction α} (again : Again .disrupted action) :
    Again (tell .disrupted) (FileAction.telling tell action) := by
  refine ⟨fun {first second after value} same ran => ?_⟩
  rcases again.cases same (telling_ok.1 ran) with ⟨later, read⟩ | ⟨⟨later, failed⟩, comes⟩
  · exact .inl ⟨later, telling_ok.2 read⟩
  · exact .inr ⟨⟨later, by rw [FileAction.telling, failed]⟩, comes⟩

theorem again_inBuild {broken : ProjectError} {action : ProjectAction α} (again : Again broken action) :
    Again (.project broken) (ProjectAction.inBuild action) := by
  refine ⟨fun {first second after value} same ran => ?_⟩
  rcases again.cases same (inBuild_ok.1 ran) with ⟨later, read⟩ | ⟨⟨later, failed⟩, comes⟩
  · exact .inl ⟨later, inBuild_ok.2 read⟩
  · exact .inr ⟨⟨later, by rw [ProjectAction.inBuild, failed]⟩, comes⟩

end

theorem again_readUnit (path : Path) : Again (.file .disrupted) (SourceUnit.read path) := by
  unfold SourceUnit.read
  split
  · exact .throw _
  · exact .bind (again_telling _ (again_readText path)) (keeps_telling _ (reads_readText path)) fun _ => .pure _

theorem again_sourcePaths (project : Project) : Again (.file .disrupted) project.sourcePaths := by
  -- looking for the directory is no step that repeats: what it gives is the tree itself
  have walks : Again (.file .disrupted) (do
      return (← FileAction.filesBelow project.sourcesDir).filter fun path => (Language.ofPath? path).isSome :
      ProjectAction (List Path)) :=
    .bind (again_telling _ (again_filesBelow _)) (keeps_telling _ (reads_filesBelow _)) fun _ => .pure _
  have goes : ∀ tree : FileTree, project.sourcePaths tree = (if !tree.exists? project.sourcesDir then pure []
      else do return (← FileAction.filesBelow project.sourcesDir).filter fun path => (Language.ofPath? path).isSome :
      ProjectAction (List Path)) tree :=
    fun tree => bind_of_ok (get_apply tree) _
  refine ⟨fun {first second after value} same ran => ?_⟩
  have there : second.exists? project.sourcesDir = first.exists? project.sourcesDir := by
    rw [exists?, exists?, node?, node?, same.node_eq]
  rw [goes] at ran ⊢
  rw [there]
  split
  · next none =>
    rw [if_pos none] at ran
    exact (Again.pure _).cases same ran
  · next some =>
    rw [if_neg some] at ran
    exact walks.cases same ran

theorem path_of_readUnit {path : Path} {tree after : FileTree} {unit : SourceUnit}
    (ran : SourceUnit.read path tree = (.ok unit, after)) : unit.path = path := by
  unfold SourceUnit.read at ran
  cases spoken : Language.ofPath? path with
  | none =>
    rw [spoken] at ran
    cases ran
  | some language =>
    rw [spoken] at ran
    obtain ⟨_, _, _, made⟩ := bind_eq_ok ran
    cases made
    rfl

namespace Pipeline

def statusFor (pipeline : Pipeline) (store : Store) (unit : SourceUnit) : UnitStatus :=
  ⟨unit.artifactName, unit.path, unit.language, pipeline.freshness store unit⟩

variable {pipeline : Pipeline} {store : Store} {statuses : List UnitStatus} {first after : FileTree}

theorem reads_statusOf (pipeline : Pipeline) (store : Store) (paths : List Path) :
    Reads (pipeline.statusOf store paths) := by
  induction paths with
  | nil => exact Reads.pure _
  | cons path paths ih => exact Reads.bind (reads_readUnit path) fun _ => Reads.bind ih fun _ => Reads.pure _

/-- Sources of which the status was told are read again, as long as no two have one name. -/
theorem readUnits_of_statusOf {paths : List Path} (told : pipeline.statusOf store paths first = (.ok statuses, after)) :
    ∃ units, statuses = units.map (pipeline.statusFor store) ∧
      ∀ {seen : List SourceUnit} {second : FileTree}, first.SameView second →
        ((seen ++ units).map SourceUnit.artifactName).Nodup →
        (∃ later, readUnits seen paths second = (.ok (seen ++ units), later)) ∨
          (∃ later, readUnits seen paths second = (.error (.project (.file .disrupted)), later)) ∧
            second.faultAfter ≠ none := by
  induction paths generalizing first statuses with
  | nil =>
    cases told
    refine ⟨[], rfl, fun {seen second} _ _ => .inl ⟨second, ?_⟩⟩
    rw [List.append_nil]
    rfl
  | cons path paths ih =>
    obtain ⟨unit, middle, read, rest⟩ := bind_eq_ok told
    obtain ⟨later, _, toldToo, done⟩ := bind_eq_ok rest
    cases done
    obtain ⟨units, rfl, reads⟩ := ih toldToo
    refine ⟨unit :: units, by rw [List.map_cons, statusFor, path_of_readUnit read], ?_⟩
    intro seen second same nodup
    have kept := reads_readUnit path first
    have keptToo := keeps_inBuild (reads_readUnit path) second
    rw [read] at kept
    unfold readUnits
    rcases (again_inBuild (again_readUnit path)).cases same (inBuild_ok.2 read) with
      ⟨last, readToo⟩ | ⟨⟨last, failed⟩, comes⟩
    · have free : seen.find? (·.artifactName = unit.artifactName) = none := by
        rw [List.find?_eq_none]
        intro earlier member taken
        rw [List.map_append, List.map_cons] at nodup
        exact List.disjoint_of_nodup_append nodup (List.mem_map_of_mem member)
          (of_decide_eq_true taken ▸ List.mem_cons_self)
      rw [readToo] at keptToo
      have regroup : seen ++ unit :: units = seen ++ [unit] ++ units := List.append_cons ..
      rw [regroup] at nodup
      rw [bind_of_ok readToo, free, regroup]
      exact (reads (same.of_sameFiles kept keptToo) nodup).imp_right
        (And.imp_right fun comes quiet => comes (keptToo.quiet quiet))
    · exact .inr ⟨⟨last, bind_of_error failed _⟩, comes⟩

theorem reads_status (pipeline : Pipeline) (store : Store) : Reads (pipeline.status store) :=
  Reads.bind (reads_sourcePaths pipeline.project) fun paths => pipeline.reads_statusOf store paths

/-- Where no fault comes, the status is told of the files as they are. -/
theorem status_of_quiet (quiet : first.faultAfter = none)
    (told : (pipeline.status store first).1.toOption = some statuses) :
    pipeline.status store first = (.ok statuses, first) := by
  have reads := pipeline.reads_status store first
  revert told reads
  rcases pipeline.status store first with ⟨cause | found, after⟩
  · exact fun told => nomatch told
  · intro told reads
    obtain rfl : found = statuses := Option.some.inj told
    rw [show after = first from reads.eq_of_quiet quiet]

/-- Behind the status of every source the sources are discovered, as long as no two have one name. -/
theorem discover_of_status (told : pipeline.status store first = (.ok statuses, after))
    (distinct : (statuses.map UnitStatus.name).Nodup) :
    ∃ units, statuses = units.map (pipeline.statusFor store) ∧
      ((∃ later, pipeline.discover after = (.ok units, later)) ∨
        (∃ later, pipeline.discover after = (.error (.project (.file .disrupted)), later)) ∧
          after.faultAfter ≠ none) := by
  obtain ⟨paths, middle, found, rest⟩ := bind_eq_ok told
  obtain ⟨units, rfl, reads⟩ := readUnits_of_statusOf rest
  refine ⟨units, rfl, ?_⟩
  have kept := reads_sourcePaths pipeline.project first
  have keptToo := reads_statusOf pipeline store paths middle
  have keptThen := keeps_inBuild (reads_sourcePaths pipeline.project) after
  rw [found] at kept
  rw [rest] at keptToo
  unfold discover
  rcases (again_inBuild (again_sourcePaths pipeline.project)).cases (kept.trans keptToo).sameView
    (inBuild_ok.2 found) with ⟨last, foundToo⟩ | ⟨⟨last, failed⟩, comes⟩
  · rw [foundToo] at keptThen
    rw [bind_of_ok foundToo]
    refine (reads (keptToo.trans keptThen).sameView ?_).imp_right
      (And.imp_right fun comes quiet => comes (keptThen.quiet quiet))
    rw [List.map_map] at distinct
    exact distinct
  · exact .inr ⟨⟨last, bind_of_error failed _⟩, comes⟩

/-! What the status says -/

/-- A source has no compiler exactly where there is no request for it, and then for want of a toolchain. -/
theorem freshness_of_error (store : Store) {cause : BuildError} {unit : SourceUnit}
    (lacks : pipeline.workFor unit = .error cause) :
    pipeline.freshness store unit = .noCompiler ∧ ∃ problem, cause = .toolchain unit.language problem := by
  unfold workFor at lacks
  unfold freshness
  cases adapts : pipeline.adapters unit.language with
  | none =>
    rw [adapts] at lacks
    cases lacks
    cases pipeline.project.settings.compiler? unit.language <;> exact ⟨rfl, _, rfl⟩
  | some adapter =>
    rw [adapts] at lacks
    cases has : pipeline.project.settings.compiler? unit.language with
    | none =>
      rw [Project.compiler, has] at lacks
      cases lacks
      exact ⟨rfl, _, rfl⟩
    | some compiler =>
      rw [Project.compiler, has] at lacks
      cases lacks

/-- The status of a source with a request compares the entry of its name with the fingerprint asked for. -/
theorem freshness_of_ok (store : Store) {request : Request} {unit : SourceUnit}
    (asks : pipeline.workFor unit = .ok request) :
    pipeline.freshness store unit = match store.lookup request.name with
      | some artifact => if artifact.fingerprint = request.fingerprint then .fresh else .stale
      | none => .missing := by
  unfold workFor at asks
  unfold freshness
  cases adapts : pipeline.adapters unit.language with
  | none =>
    rw [adapts] at asks
    cases asks
  | some adapter =>
    rw [adapts] at asks
    cases has : pipeline.project.settings.compiler? unit.language with
    | none =>
      rw [Project.compiler, has] at asks
      cases asks
    | some compiler =>
      rw [Project.compiler, has] at asks
      cases asks
      rfl

/-- What each status of a source with a request says of the entry of its name. -/
theorem freshness_iff (store : Store) {request : Request} {unit : SourceUnit} (asks : pipeline.workFor unit = .ok request) :
    (pipeline.freshness store unit = .fresh ↔ store.Holds request.name request.fingerprint) ∧
    (pipeline.freshness store unit = .stale ↔
      ∃ artifact, store.lookup request.name = some artifact ∧ artifact.fingerprint ≠ request.fingerprint) ∧
    (pipeline.freshness store unit = .missing ↔ store.lookup request.name = none) ∧
    pipeline.freshness store unit ≠ .noCompiler := by
  rw [freshness_of_ok store asks, Store.Holds]
  cases store.lookup request.name with
  | none => simp
  | some artifact => by_cases same : artifact.fingerprint = request.fingerprint <;> simp [same]

end Pipeline
end ContractBuild
